import ZapTrace.Algo.BoardPolygon
import ZapTrace.Algo.PadMask

/-!
# The cells that are not blocked

A cell is judged by its grid point. Where that is further from every edge than the rules ask for and half of a diagonal
of a cell, every point of the cell is further from it than the rules ask for; and where the rules ask for no negative
distance, no edge is met on the way to the point, so that it is on the same side of the outline and of every cutout.

The guard of the code looks at the sum with half of the diagonal. Rules that are negative, but not by that much, pass
it, and then an edge may go through a cell that is not blocked.

## Main results

* `exists_blocked`: the blocked cells are those that fail the test
* `safe_iff`: when the others are safe
-/

namespace ZapTrace.BoardKeepout

open Plane Real
open EvenOdd (edges inside Crosses)
open Euclid
open PadCopper (distance gridPoint InCell distance_triangle distance_gridPoint_le)

noncomputable section

variable (board : BoardDefinition ℝ) (resolution_mm : ℝ) (width_cells height_cells : ℤ)

/-- The outline and the cutouts, without their closing vertices. -/
def polygons : List (List (Point ℝ)) := opened (outlineOf board) :: board.cutouts.map opened

/-- A point is inside of the outline, and outside of every cutout. -/
def InProfile (x : Point ℝ) : Prop :=
  inside x (opened (outlineOf board)) = true ∧ ∀ cutout ∈ board.cutouts, inside x (opened cutout) = false

/-- A point is further than a distance from every edge, and from every hole. -/
def Away (d : ℝ) (x : Point ℝ) : Prop :=
  (∀ poly ∈ polygons board, ∀ e ∈ edges poly, ∀ w ∈ segment ℝ e.1 e.2, d < distance x w) ∧
    ∀ hole ∈ board.mounting_holes, hole.diameter / 2 + d < distance x hole.position

/-- The distance that is tested at the grid points. -/
def margin : ℝ := ruleMargin board.constraints + resolution_mm / sqrt 2

/-- The grid point of a cell is in the profile, and far enough from its edges. -/
def Kept (cell : ℤ × ℤ) : Prop :=
  InProfile board (gridPoint resolution_mm cell) ∧ Away board (margin board resolution_mm) (gridPoint resolution_mm cell)

/-- All points of a cell are in the profile, and as far from its edges as the rules ask for. -/
def Safe (cell : ℤ × ℤ) : Prop :=
  ∀ x, InCell resolution_mm cell x → InProfile board x ∧ Away board (ruleMargin board.constraints) x

def OnGrid (cell : ℤ × ℤ) : Prop := (0 ≤ cell.1 ∧ cell.1 < width_cells) ∧ 0 ≤ cell.2 ∧ cell.2 < height_cells

/-! ## Distances -/

theorem exists_distanceToSegment (p : Point ℝ) (d : ℝ) {e : Point ℝ × Point ℝ} (hne : e.1 ≠ e.2) :
    ∃ b, (do let distance ← distanceToSegment sqrt p e; pure (decide (distance ≤ d))) = Except.ok b ∧
      (b = true ↔ ∃ w ∈ segment ℝ e.1 e.2, distance p w ≤ d) := by
  have hdistance : ∀ w, distance p w = sqrt (distSq p w) := by
    intro w
    rw [distance, hypot, distSq]
    congr 1
    ring
  have hpos : 0 < dot (vec e.1 e.2) (vec e.1 e.2) := by
    apply dot_self_pos
    intro hzero
    apply hne
    have h1 := congrArg Prod.fst hzero
    have h2 := congrArg Prod.snd hzero
    exact (Prod.ext (sub_eq_zero.mp h1) (sub_eq_zero.mp h2)).symm
  have hnearest : distanceToSegment sqrt p e = .ok (distance p (nearest p e.1 e.2)) := if_neg (not_le.mpr hpos)
  refine ⟨decide (distance p (nearest p e.1 e.2) ≤ d), by rw [hnearest]; rfl, ?_⟩
  rw [decide_eq_true_iff]
  constructor
  · intro h
    exact ⟨_, nearest_mem p e.1 e.2, h⟩
  · rintro ⟨w, hw, hle⟩
    refine le_trans ?_ hle
    rw [hdistance, hdistance]
    exact sqrt_le_sqrt (distSq_nearest_le hw)

theorem edge_ne {vertices poly : List (Point ℝ)} (h : checkPolygon vertices = .ok poly) :
    ∀ e ∈ edges poly, e.1 ≠ e.2 := by
  obtain ⟨rfl, hthree, harea, hsimple⟩ := checkPolygon_eq_ok_iff.mp h
  intro e he
  obtain ⟨i, rfl⟩ := exists_vertex he
  exact vertex_ne hthree (area2_ne_zero harea) hsimple.apart i

theorem exists_nearEdge (p : Point ℝ) (d : ℝ) {poly : List (Point ℝ)} (hne : ∀ e ∈ edges poly, e.1 ≠ e.2) :
    ∃ b, nearEdge sqrt p poly d = .ok b ∧
      (b = true ↔ ∃ e ∈ edges poly, ∃ w ∈ segment ℝ e.1 e.2, distance p w ≤ d) :=
  Lists.exists_anyM fun e he => exists_distanceToSegment p d (hne e he)

/-! ## The blocked cells -/

/-- The profile passes the checks. -/
structure Checked : Prop where
  resolution_pos : 0 < resolution_mm
  margin_pos : 0 < margin board resolution_mm
  outline : checkPolygon (outlineOf board) = .ok (opened (outlineOf board))
  cutouts : ∀ cutout ∈ board.cutouts, checkPolygon cutout = .ok (opened cutout)
  holes : ∀ hole ∈ board.mounting_holes, 0 < hole.diameter ∧ inside hole.position (opened (outlineOf board)) = true

variable {board resolution_mm width_cells height_cells}

theorem Checked.exists_excluded (h : Checked board resolution_mm) (p : Point ℝ) :
    ∃ b, excluded sqrt (opened (outlineOf board)) (board.cutouts.map opened)
        (board.mounting_holes.map fun hole => (hole.position, hole.diameter / 2 + margin board resolution_mm))
        (margin board resolution_mm) p = .ok b ∧
      (b = true ↔ ¬(InProfile board p ∧ Away board (margin board resolution_mm) p)) := by
  obtain ⟨near, hnear, hnear'⟩ := exists_nearEdge p (margin board resolution_mm) (edge_ne h.outline)
  have hcutout : ∀ cutout ∈ board.cutouts.map opened, ∃ b,
      (do if inside p cutout then return true
          nearEdge sqrt p cutout (margin board resolution_mm)) = Except.ok b ∧
        (b = true ↔ (inside p cutout = true ∨
          ∃ e ∈ edges cutout, ∃ w ∈ segment ℝ e.1 e.2, distance p w ≤ margin board resolution_mm)) := by
    intro poly hpoly
    obtain ⟨cutout, hmem, rfl⟩ := List.mem_map.mp hpoly
    obtain ⟨b, hb, hb'⟩ := exists_nearEdge p (margin board resolution_mm) (edge_ne (h.cutouts cutout hmem))
    by_cases hin : inside p (opened cutout) = true
    · exact ⟨true, by rw [if_pos hin]; rfl, by simp [hin]⟩
    · exact ⟨b, by rw [if_neg hin]; exact hb, by rw [hb', or_iff_right hin]⟩
  obtain ⟨inCutout, hcut, hcut'⟩ := Lists.exists_anyM hcutout
  have hkept : InProfile board p ∧ Away board (margin board resolution_mm) p ↔
      inside p (opened (outlineOf board)) = true ∧ near = false ∧ inCutout = false ∧
        ∀ hole ∈ board.mounting_holes, hole.diameter / 2 + margin board resolution_mm < distance p hole.position := by
    rw [← Bool.not_eq_true near, ← Bool.not_eq_true inCutout, hnear', hcut']
    constructor
    · rintro ⟨⟨hin, hout⟩, hedges, hholes⟩
      obtain ⟨houtline, hcutouts⟩ := List.forall_mem_cons.mp hedges
      refine ⟨hin, fun ⟨e, he, w, hw, hle⟩ => (houtline e he w hw).not_ge hle, ?_, hholes⟩
      rintro ⟨poly, hpoly, hfound⟩
      obtain ⟨cutout, hmem, rfl⟩ := List.mem_map.mp hpoly
      rcases hfound with hinside | ⟨e, he, w, hw, hle⟩
      · exact Bool.false_ne_true ((hout cutout hmem).symm.trans hinside)
      · exact (hcutouts _ hpoly e he w hw).not_ge hle
    · rintro ⟨hin, houtline, hnone, hholes⟩
      have hcutouts : ∀ poly ∈ board.cutouts.map opened, inside p poly = false ∧
          ∀ e ∈ edges poly, ∀ w ∈ segment ℝ e.1 e.2, margin board resolution_mm < distance p w := fun poly hpoly =>
        ⟨Bool.not_eq_true _ ▸ fun hinside => hnone ⟨poly, hpoly, .inl hinside⟩,
          fun e he w hw => not_le.mp fun hle => hnone ⟨poly, hpoly, .inr ⟨e, he, w, hw, hle⟩⟩⟩
      refine ⟨⟨hin, fun cutout hmem => (hcutouts _ (List.mem_map_of_mem hmem)).1⟩,
        List.forall_mem_cons.mpr ⟨fun e he w hw => ?_, fun poly hpoly => (hcutouts poly hpoly).2⟩, hholes⟩
      exact not_le.mp fun hle => houtline ⟨e, he, w, hw, hle⟩
  rw [excluded, hkept]
  by_cases hin : inside p (opened (outlineOf board)) = true
  · rw [if_neg (by simp [hin]), hnear]
    cases near with
    | true => exact ⟨true, rfl, by simp⟩
    | false =>
      rw [hcut]
      cases inCutout with
      | true => exact ⟨true, rfl, by simp⟩
      | false =>
        refine ⟨_, rfl, ?_⟩
        rw [and_iff_right hin, and_iff_right rfl, and_iff_right rfl, List.any_map, List.any_eq_true]
        simp only [Function.comp_apply, decide_eq_true_eq, not_forall, not_lt, exists_prop]
        rfl
  · exact ⟨true, by rw [if_pos (Bool.not_eq_true _ ▸ hin)]; rfl, by simp [hin]⟩

variable (width_cells height_cells) in
/-- **The blocked cells** are those that fail the test. -/
theorem Checked.exists_blocked (h : Checked board resolution_mm) :
    ∃ cells, blockedProfileCells sqrt board resolution_mm width_cells height_cells = .ok cells ∧
      ∀ cell, OnGrid width_cells height_cells cell → (cell ∈ cells ↔ ¬Kept board resolution_mm cell) := by
  have hcutouts : board.cutouts.mapM checkPolygon = .ok (board.cutouts.map opened) := by
    rw [Lists.mapM_eq_ok_iff, List.forall₂_map_right_iff, List.forall₂_same]
    exact h.cutouts
  have hholes : board.mounting_holes.mapM (checkHole (opened (outlineOf board)) (margin board resolution_mm)) =
      .ok (board.mounting_holes.map fun hole => (hole.position, hole.diameter / 2 + margin board resolution_mm)) := by
    rw [Lists.mapM_eq_ok_iff, List.forall₂_map_right_iff, List.forall₂_same]
    intro hole hmem
    exact if_pos (h.holes hole hmem)
  choose test htest hfails using fun cell : ℤ × ℤ => h.exists_excluded (gridPoint resolution_mm cell)
  refine ⟨(PadCopper.window 0 (width_cells - 1) 0 (height_cells - 1)).filter test, ?_, fun cell hcell => ?_⟩
  · rw [blockedProfileCells, if_neg (not_not.mpr h.resolution_pos)]
    refine (if_neg (not_le.mpr h.margin_pos)).trans ?_
    rw [h.outline, hcutouts]
    show (board.mounting_holes.mapM (checkHole (opened (outlineOf board)) (margin board resolution_mm)) >>= _) = _
    rw [hholes]
    exact PadCopper.collect_ok htest _
  · rw [List.mem_filter, hfails, PadCopper.mem_window]
    obtain ⟨hx, hy⟩ := hcell
    exact and_iff_right ⟨⟨hx.1, by omega⟩, hy.1, by omega⟩

/-- A profile of which cells are returned passes the checks. -/
theorem checked_of_ok {cells : List (ℤ × ℤ)}
    (h : blockedProfileCells sqrt board resolution_mm width_cells height_cells = .ok cells) :
    Checked board resolution_mm := by
  rw [blockedProfileCells] at h
  split_ifs at h with hres
  by_cases hmargin : margin board resolution_mm ≤ 0
  · exact nomatch h.symm.trans (if_pos hmargin)
  have h := h.symm.trans (if_neg hmargin)
  cases houtline : checkPolygon (outlineOf board) with
  | error e =>
    rw [houtline] at h
    cases h
  | ok outline =>
    obtain rfl := (checkPolygon_eq_ok_iff.mp houtline).1
    rw [houtline] at h
    cases hcutouts : board.cutouts.mapM checkPolygon with
    | error e =>
      rw [hcutouts] at h
      cases h
    | ok cutouts =>
      rw [hcutouts] at h
      cases hholes : board.mounting_holes.mapM (checkHole (opened (outlineOf board))
        (ruleMargin board.constraints + resolution_mm / sqrt 2)) with
      | error e =>
        simp only [bind, Except.bind] at h
        rw [hholes] at h
        cases h
      | ok holes =>
        refine ⟨hres, not_le.mp hmargin, houtline, fun cutout hmem => ?_, fun hole hmem => ?_⟩
        · obtain ⟨poly, hpoly⟩ := Lists.exists_mapM_iff.mp ⟨_, hcutouts⟩ cutout hmem
          rwa [(checkPolygon_eq_ok_iff.mp hpoly).1] at hpoly
        · obtain ⟨place, hplace⟩ := Lists.exists_mapM_iff.mp ⟨_, hholes⟩ hole hmem
          by_contra hnot
          exact nomatch hplace.symm.trans (if_neg hnot)

/-! ## Areas -/

theorem away_of_inCell {cell : ℤ × ℤ} (h : Away board (margin board resolution_mm) (gridPoint resolution_mm cell))
    {x : Point ℝ} (hx : distance (gridPoint resolution_mm cell) x ≤ resolution_mm / sqrt 2) :
    Away board (ruleMargin board.constraints) x := by
  obtain ⟨hedges, hholes⟩ := h
  constructor
  · intro poly hpoly e he w hw
    have hfar := hedges poly hpoly e he w hw
    have hstep := distance_triangle (gridPoint resolution_mm cell) x w
    rw [margin] at hfar
    linarith
  · intro hole hmem
    have hfar := hholes hole hmem
    have hstep := distance_triangle (gridPoint resolution_mm cell) x hole.position
    rw [margin] at hfar
    linarith

theorem inside_eq_of_away (hrule : 0 ≤ ruleMargin board.constraints) {cell : ℤ × ℤ}
    (h : Away board (margin board resolution_mm) (gridPoint resolution_mm cell)) {x : Point ℝ}
    (hx : InCell resolution_mm cell x) {poly : List (Point ℝ)} (hpoly : poly ∈ polygons board) :
    inside x poly = inside (gridPoint resolution_mm cell) poly := by
  symm
  apply EvenOdd.inside_eq_of_free
  intro e he z hz hz'
  have hnear : distance (gridPoint resolution_mm cell) z ≤ resolution_mm / sqrt 2 := by
    refine le_trans ?_ (distance_gridPoint_le hx)
    obtain ⟨t, ht0, ht1, rfl⟩ := mem_segment_iff.mp hz
    apply hypot_le_hypot
    all_goals
      simp only [along, sub_add_cancel_left, abs_neg, abs_mul, abs_sub_comm x.1, abs_sub_comm x.2]
      exact mul_le_of_le_one_left (abs_nonneg _) (abs_le.mpr ⟨by linarith, ht1⟩)
  have hfar := (away_of_inCell h hnear).1 poly hpoly e he z hz'
  rw [distance, sub_self, sub_self, hypot_of_nonneg le_rfl] at hfar
  exact hfar.not_ge hrule

/-- **The cells that are not blocked are safe** exactly when the rules ask for no negative distance, or no cell that
passes the test has a point on another side of a polygon than its grid point. -/
theorem safe_iff {cells : List (ℤ × ℤ)}
    (h : blockedProfileCells sqrt board resolution_mm width_cells height_cells = .ok cells) :
    (∀ cell, OnGrid width_cells height_cells cell → cell ∉ cells → Safe board resolution_mm cell) ↔
      0 ≤ ruleMargin board.constraints ∨ ∀ cell, OnGrid width_cells height_cells cell →
        Kept board resolution_mm cell → ∀ x, InCell resolution_mm cell x → ∀ poly ∈ polygons board,
          inside x poly = inside (gridPoint resolution_mm cell) poly := by
  obtain ⟨cells', hcells', hblocked⟩ := (checked_of_ok h).exists_blocked width_cells height_cells
  obtain rfl := Except.ok.inj (h.symm.trans hcells')
  have hsides : ∀ x g, InProfile board g → ((∀ poly ∈ polygons board, inside x poly = inside g poly) ↔
      InProfile board x) := by
    intro x g hg
    simp only [polygons, List.forall_mem_cons, List.forall_mem_map, hg.1, InProfile]
    refine and_congr_right fun _ => forall₂_congr fun cutout hmem => ?_
    rw [hg.2 cutout hmem]
  constructor
  · intro hsafe
    right
    intro cell hcell hkept x hx
    have hnot : cell ∉ cells := fun hmem => (hblocked cell hcell).mp hmem hkept
    exact (hsides x _ hkept.1).mpr (hsafe cell hcell hnot x hx).1
  · intro hcondition cell hcell hnot x hx
    have hkept : Kept board resolution_mm cell := not_not.mp fun hfails => hnot ((hblocked cell hcell).mpr hfails)
    refine ⟨(hsides x _ hkept.1).mp ?_, away_of_inCell hkept.2 (distance_gridPoint_le hx)⟩
    rcases hcondition with hrule | hside
    · exact fun poly hpoly => inside_eq_of_away hrule hkept.2 hx hpoly
    · exact hside cell hcell hkept x hx

/-! ## A narrow board -/

/-- A board without an outline of its own, with one rule for the clearance and traces without width. -/
def narrowBoard (min_clearance : ℝ) : BoardDefinition ℝ where
  width := 13 / 10
  height := 2
  constraints := ⟨0, min_clearance, min_clearance, 0, 0⟩

theorem ruleMargin_narrowBoard (c : ℝ) : ruleMargin (narrowBoard c).constraints = c := by
  simp [ruleMargin, narrowBoard]

theorem opened_narrowBoard (c : ℝ) :
    outlineOf (narrowBoard c) = [(0, 0), (13 / 10, 0), (13 / 10, 2), (0, 2)] ∧
      opened (outlineOf (narrowBoard c)) = [(0, 0), (13 / 10, 0), (13 / 10, 2), (0, 2)] := by
  constructor
  · simp [outlineOf, narrowBoard]
  · simp [opened, outlineOf, narrowBoard]

theorem half_diagonal_bounds : 3 / 5 < 1 / sqrt 2 ∧ 1 / sqrt 2 < 9 / 10 := by
  have hpos : 0 < sqrt 2 := sqrt_pos.mpr two_pos
  rw [lt_div_iff₀ hpos, div_lt_iff₀ hpos, mul_comm, ← lt_div_iff₀ (by norm_num), mul_comm,
    ← div_lt_iff₀ (by norm_num)]
  exact ⟨(sqrt_lt' (by norm_num)).mpr (by norm_num), lt_sqrt_of_sq_lt (by norm_num)⟩

theorem checked_narrowBoard {c : ℝ} (hc : -(3 / 5) ≤ c) : Checked (narrowBoard c) 1 where
  resolution_pos := one_pos
  margin_pos := by
    rw [margin, ruleMargin_narrowBoard]
    linarith [half_diagonal_bounds.1]
  outline := by
    obtain ⟨houtline, hopened⟩ := opened_narrowBoard c
    rw [checkPolygon, hopened, houtline]
    norm_num [area2, edges, List.range_succ, checkEdge, checkPair, vertex, segmentsIntersect, orient, InBox,
      List.range', List.forM]
    rfl
  cutouts := nofun
  holes := nofun

theorem safe_iff_narrowBoard : ∃ cells, blockedProfileCells sqrt (narrowBoard (1 / 5)) 1 2 2 = .ok cells ∧
    ∀ cell, OnGrid 2 2 cell → cell ∉ cells → Safe (narrowBoard (1 / 5)) 1 cell := by
  obtain ⟨cells, hcells, -⟩ := (checked_narrowBoard (by norm_num : -(3 / 5) ≤ (1 / 5 : ℝ))).exists_blocked 2 2
  refine ⟨cells, hcells, (safe_iff hcells).mpr (.inl ?_)⟩
  rw [ruleMargin_narrowBoard]
  norm_num

/-- A cell that the right edge of the board goes through, and that is not blocked under a negative rule. -/
theorem not_safe_narrowBoard : ∃ cells, blockedProfileCells sqrt (narrowBoard (-(3 / 5))) 1 2 2 = .ok cells ∧
    ∃ cell, OnGrid 2 2 cell ∧ cell ∉ cells ∧ ¬Safe (narrowBoard (-(3 / 5))) 1 cell := by
  obtain ⟨cells, hcells, hblocked⟩ := (checked_narrowBoard le_rfl).exists_blocked 2 2
  have hopened := (opened_narrowBoard (-(3 / 5))).2
  have hgrid : OnGrid 2 2 (1, 1) := ⟨by decide, by decide⟩
  refine ⟨cells, hcells, (1, 1), hgrid, fun hmem => (hblocked _ hgrid).mp hmem ?_, fun hsafe => ?_⟩
  · have hpoint : gridPoint 1 (1, 1) = ((1 : ℝ), (1 : ℝ)) := by norm_num [gridPoint]
    rw [Kept, hpoint, InProfile, Away, polygons, hopened]
    refine ⟨⟨?_, nofun⟩, ?_, nofun⟩
    · norm_num [inside, edges, Crosses]
    · -- every edge is at least 3/10 away, in one of the coordinates
      have hfar : ∀ w : Point ℝ, 3 / 10 ≤ |1 - w.1| ∨ 3 / 10 ≤ |1 - w.2| →
          margin (narrowBoard (-(3 / 5))) 1 < distance (1, 1) w := by
        intro w hw
        rw [margin, ruleMargin_narrowBoard]
        have hmargin := half_diagonal_bounds.2
        rcases hw with hw | hw
        · have hstep : |1 - w.1| ≤ distance (1, 1) w := abs_fst_le_hypot _ _
          linarith
        · have hstep : |1 - w.2| ≤ distance (1, 1) w := abs_snd_le_hypot _ _
          linarith
      simp only [List.mem_cons, List.not_mem_nil, or_false, narrowBoard, List.map_nil, forall_eq, edges, List.drop,
        List.take, List.cons_append, List.nil_append, List.zip_cons_cons, List.zip_nil_right, forall_eq_or_imp]
      refine ⟨fun w hw => ?_, fun w hw => ?_, fun w hw => ?_, fun w hw => ?_⟩ <;>
        apply hfar <;> have hbox := inBox_of_mem hw <;> norm_num [InBox] at hbox
      · exact .inr (le_abs.mpr (.inl (by linarith [hbox.2.2])))
      · exact .inl (le_abs.mpr (.inr (by linarith [hbox.1.1])))
      · exact .inr (le_abs.mpr (.inr (by linarith [hbox.2.1])))
      · exact .inl (le_abs.mpr (.inl (by linarith [hbox.1.2])))
  · have hout := (hsafe (3 / 2, 1) (by constructor <;> norm_num [gridPoint])).1.1
    rw [hopened] at hout
    norm_num [inside, edges, Crosses] at hout

end

end ZapTrace.BoardKeepout
