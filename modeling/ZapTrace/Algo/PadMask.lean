import ZapTrace.Algo.PadCopper

/-!
# The mask of a pad

The copper of a rectangle, a circle and an oval is a box with a radius around it, and the code takes the distance from
that. A turned pad is looked at in its own frame, where distances are the same. So a cell of which some point is within
the clearance has its middle within the clearance and half of a diagonal, and it is in the window, which is as wide as
the diagonal of the pad on both sides.

## Main results

* `exists_box`: the shapes as rounded boxes
* `padCells_spec`: the mask is conservative and tight
-/

namespace ZapTrace.PadCopper

open Real

open Plane (Point)
open scoped Plane
open Euclid
open Fabrication.PadCentres (rotatedOffset trigReal)
open Turn (turned)

noncomputable section

/-! ## The copper of a pad -/

/-- The copper of a pad that is not turned: an oval is all that is within half of its shorter side of its axis. -/
def LocalCopper (pad : Fabrication.Pad ℝ) (p : Point ℝ) : Prop :=
  match pad.shape with
  | .rect => |p.1| ≤ pad.size.1 / 2 ∧ |p.2| ≤ pad.size.2 / 2
  | .circle => hypot sqrt p.1 p.2 ≤ max pad.size.1 pad.size.2 / 2
  | .oval =>
    Rounded ((pad.size.1 - min pad.size.1 pad.size.2) / 2) ((pad.size.2 - min pad.size.1 pad.size.2) / 2)
      (min pad.size.1 pad.size.2 / 2) p
  | .roundrect | .custom => False

def centreOf (pad : Fabrication.Pad ℝ) (position_mm : Point ℝ) (footprint_rotation_deg : ℝ) : Point ℝ :=
  position_mm + rotatedOffset trigReal pad.position footprint_rotation_deg

/-- The copper of a pad on the board: turned with the pad and the footprint, at its centre. -/
def Copper (pad : Fabrication.Pad ℝ) (position_mm : Point ℝ) (footprint_rotation_deg : ℝ) (q : Point ℝ) : Prop :=
  ∃ p, LocalCopper pad p ∧ q = centreOf pad position_mm footprint_rotation_deg +
    rotatedOffset trigReal p (pad.rotation + footprint_rotation_deg)

def distance (p q : Point ℝ) : ℝ := hypot sqrt (p.1 - q.1) (p.2 - q.2)

def gridPoint (resolution_mm : ℝ) (cell : ℤ × ℤ) : Point ℝ := (cell.1 * resolution_mm, cell.2 * resolution_mm)

def InCell (resolution_mm : ℝ) (cell : ℤ × ℤ) (p : Point ℝ) : Prop :=
  |p.1 - (gridPoint resolution_mm cell).1| ≤ resolution_mm / 2 ∧
    |p.2 - (gridPoint resolution_mm cell).2| ≤ resolution_mm / 2

theorem distance_triangle (p q r : Point ℝ) : distance p r ≤ distance p q + distance q r := by
  have hstep := hypot_add_le (p.1 - q.1) (p.2 - q.2) (q.1 - r.1) (q.2 - r.2)
  rwa [sub_add_sub_cancel, sub_add_sub_cancel] at hstep

theorem distance_comm (p q : Point ℝ) : distance p q = distance q p := by
  rw [distance, ← hypot_neg, neg_sub, neg_sub]
  rfl

theorem distance_gridPoint_le {resolution_mm : ℝ} {cell : ℤ × ℤ} {p : Point ℝ} (h : InCell resolution_mm cell p) :
    distance (gridPoint resolution_mm cell) p ≤ resolution_mm / sqrt 2 := by
  rw [distance_comm]
  exact hypot_le_half_diagonal h.1 h.2

/-! ## Shapes -/

section Shapes

variable {pad : Fabrication.Pad ℝ}

theorem max_abs_zero (x : ℝ) : max |x| 0 = |x| := max_eq_left (abs_nonneg x)

theorem hypot_abs (x y : ℝ) : hypot sqrt |x| |y| = hypot sqrt x y := by
  rw [hypot, hypot, sq_abs, sq_abs]

/-- **The shapes** are rounded boxes: the distance is that from the box, and the copper is within half of the diagonal
of the pad. -/
theorem exists_box (hsize : 0 < min pad.size.1 pad.size.2)
    (hshape : pad.shape = .rect ∨ pad.shape = .circle ∨ pad.shape = .oval) :
    ∃ a b r, 0 ≤ a ∧ 0 ≤ b ∧ 0 ≤ r ∧ (∀ p, LocalCopper pad p ↔ Rounded a b r p) ∧
      (∀ dx dy, distanceInLocalShape sqrt dx dy pad = .ok (roundedDistance a b r (dx, dy))) ∧
        ∀ p, LocalCopper pad p → hypot sqrt p.1 p.2 ≤ hypot sqrt pad.size.1 pad.size.2 / 2 := by
  obtain ⟨hw, hh⟩ := lt_min_iff.mp hsize
  have hhalf : hypot sqrt (pad.size.1 / 2) (pad.size.2 / 2) = hypot sqrt pad.size.1 pad.size.2 / 2 := by
    have hmul := hypot_mul (by norm_num : (0 : ℝ) ≤ 1 / 2) pad.size.1 pad.size.2
    rw [div_eq_inv_mul, div_eq_inv_mul, div_eq_inv_mul, ← one_div]
    exact hmul
  rcases hshape with hshape | hshape | hshape
  · -- a rectangle is a box
    refine ⟨pad.size.1 / 2, pad.size.2 / 2, 0, by linarith, by linarith, le_rfl, fun p => ?_, fun dx dy => ?_,
      fun p hp => ?_⟩
    · rw [LocalCopper, hshape]
      constructor
      · rintro ⟨hx, hy⟩
        refine ⟨p.1, p.2, hx, hy, ?_⟩
        rw [sub_self, sub_self, hypot_of_nonneg le_rfl]
      · rintro ⟨s, t, hs, ht, hnear⟩
        have hfst := (abs_fst_le_hypot (p.1 - s) (p.2 - t)).trans hnear
        have hsnd := (abs_snd_le_hypot (p.1 - s) (p.2 - t)).trans hnear
        rw [abs_nonpos_iff, sub_eq_zero] at hfst hsnd
        exact ⟨hfst ▸ hs, hsnd ▸ ht⟩
    · rw [distanceInLocalShape, hshape]
      dsimp only
      rw [if_neg (not_le.mpr hsize), roundedDistance, sub_zero, max_eq_right (hypot_nonneg _ _)]
    · rw [LocalCopper, hshape] at hp
      rw [← hhalf]
      exact hypot_le_hypot (hp.1.trans (le_abs_self _)) (hp.2.trans (le_abs_self _))
  · -- a circle is a point with a radius
    refine ⟨0, 0, max pad.size.1 pad.size.2 / 2, le_rfl, le_rfl, ?_, fun p => ?_, fun dx dy => ?_, fun p hp => ?_⟩
    · have hmax := le_max_left pad.size.1 pad.size.2
      linarith
    · rw [LocalCopper, hshape]
      constructor
      · intro hnear
        refine ⟨0, 0, by rw [abs_zero], by rw [abs_zero], ?_⟩
        rwa [sub_zero, sub_zero]
      · rintro ⟨s, t, hs, ht, hnear⟩
        rw [abs_nonpos_iff] at hs ht
        rwa [hs, ht, sub_zero, sub_zero] at hnear
    · rw [distanceInLocalShape, hshape]
      dsimp only
      rw [if_neg (not_le.mpr hsize), roundedDistance, sub_zero, sub_zero, max_abs_zero, max_abs_zero, hypot_abs]
    · rw [LocalCopper, hshape] at hp
      refine hp.trans (div_le_div_of_nonneg_right (max_le ?_ ?_) zero_le_two)
      · exact (le_abs_self _).trans (abs_fst_le_hypot _ _)
      · exact (le_abs_self _).trans (abs_snd_le_hypot _ _)
  · -- an oval is an axis with a radius
    refine ⟨(pad.size.1 - min pad.size.1 pad.size.2) / 2, (pad.size.2 - min pad.size.1 pad.size.2) / 2,
      min pad.size.1 pad.size.2 / 2, ?_, ?_, by linarith, fun p => by rw [LocalCopper, hshape], fun dx dy => ?_,
      fun p hp => ?_⟩
    · have hmin := min_le_left pad.size.1 pad.size.2
      linarith
    · have hmin := min_le_right pad.size.1 pad.size.2
      linarith
    · rw [distanceInLocalShape, hshape]
      dsimp only
      rw [if_neg (not_le.mpr hsize), roundedDistance]
      split
      next hle =>
        rw [min_eq_right hle, sub_self, zero_div, sub_zero, max_abs_zero, hypot, hypot, sq_abs]
      next hlt =>
        rw [min_eq_left (not_le.mp hlt).le, sub_self, zero_div, sub_zero, max_abs_zero, hypot, hypot, sq_abs]
    · rw [LocalCopper, hshape] at hp
      have hmin := min_le_left pad.size.1 pad.size.2
      have hmin' := min_le_right pad.size.1 pad.size.2
      refine (hypot_le_of_rounded (by linarith) (by linarith) hp).trans_eq ?_
      rw [← hhalf]
      congr 1 <;> ring

end Shapes

/-! ## The local frame -/

section Frame

variable (pad : Fabrication.Pad ℝ) (position_mm : Point ℝ) (footprint_rotation_deg : ℝ)

def thetaOf : ℝ := trigReal.radians (-(pad.rotation + footprint_rotation_deg))

def inFrame (g : Point ℝ) : Point ℝ :=
  turned (-thetaOf pad footprint_rotation_deg) (g - centreOf pad position_mm footprint_rotation_deg)

theorem distance_copper (g p : Point ℝ) :
    distance g (centreOf pad position_mm footprint_rotation_deg +
        rotatedOffset trigReal p (pad.rotation + footprint_rotation_deg)) =
      hypot sqrt ((inFrame pad position_mm footprint_rotation_deg g).1 - p.1)
        ((inFrame pad position_mm footprint_rotation_deg g).2 - p.2) := by
  have hturn : rotatedOffset trigReal p (pad.rotation + footprint_rotation_deg) =
      turned (thetaOf pad footprint_rotation_deg) p := rfl
  rw [hturn]
  show hypot sqrt (g - (_ + _)).1 (g - (_ + _)).2 = _
  rw [← hypot_turned (-thetaOf pad footprint_rotation_deg), sub_add_eq_sub_sub, Turn.turned_sub,
    Turn.turned_neg_turned]
  rfl

theorem abs_sub_centreOf_le {extent : ℝ} {g p : Point ℝ}
    (hsize : hypot sqrt p.1 p.2 + distance g (centreOf pad position_mm footprint_rotation_deg +
      rotatedOffset trigReal p (pad.rotation + footprint_rotation_deg)) ≤ extent) :
    |g.1 - (centreOf pad position_mm footprint_rotation_deg).1| ≤ extent ∧
      |g.2 - (centreOf pad position_mm footprint_rotation_deg).2| ≤ extent := by
  have hcentre : distance g (centreOf pad position_mm footprint_rotation_deg) ≤ extent := by
    refine (distance_triangle g _ _).trans ((add_comm _ _).trans_le ((add_le_add ?_ le_rfl).trans hsize))
    rw [distance, ← Prod.fst_sub, ← Prod.snd_sub, add_sub_cancel_left]
    exact (hypot_turned (thetaOf pad footprint_rotation_deg) p).le
  exact ⟨(abs_fst_le_hypot _ _).trans hcentre, (abs_snd_le_hypot _ _).trans hcentre⟩

end Frame

/-! ## The cells -/

theorem collect_ok {test : ℤ × ℤ → Except String Bool} {f : ℤ × ℤ → Bool} (htest : ∀ cell, test cell = .ok (f cell))
    (cells : List (ℤ × ℤ)) : collect test cells = .ok (cells.filter f) := by
  induction cells with
  | nil => rfl
  | cons cell cells ih =>
    rw [collect, htest, ih, List.filter_cons]
    rfl

theorem mem_window {x0 x1 y0 y1 : ℤ} {cell : ℤ × ℤ} :
    cell ∈ window x0 x1 y0 y1 ↔ (x0 ≤ cell.1 ∧ cell.1 ≤ x1) ∧ y0 ≤ cell.2 ∧ cell.2 ≤ y1 := by
  simp only [window, List.mem_flatMap, List.mem_map, mem_intRange, Int.lt_add_one_iff]
  constructor
  · rintro ⟨gy, hgy, gx, hgx, rfl⟩
    exact ⟨hgx, hgy⟩
  · rintro ⟨hgx, hgy⟩
    exact ⟨cell.2, hgy, cell.1, hgx, rfl⟩

theorem between_of_near {resolution_mm c extent : ℝ} (hres : 0 < resolution_mm) {n : ℤ}
    (hnear : |n * resolution_mm - c| ≤ extent) :
    ⌊(c - extent) / resolution_mm⌋ ≤ n ∧ n ≤ ⌈(c + extent) / resolution_mm⌉ := by
  obtain ⟨hlow, hhigh⟩ := abs_le.mp hnear
  constructor
  · have hle : (c - extent) / resolution_mm ≤ n := (div_le_iff₀ hres).mpr (by linarith)
    exact_mod_cast (Int.floor_le _).trans hle
  · have hle : (n : ℝ) ≤ (c + extent) / resolution_mm := (le_div_iff₀ hres).mpr (by linarith)
    exact_mod_cast hle.trans (Int.le_ceil _)

section Mask

variable {pad : Fabrication.Pad ℝ} {position_mm : Point ℝ} {footprint_rotation_deg resolution_mm : ℝ}
  {width_cells height_cells : ℤ} {clearance_mm : ℝ} {cells : List (ℤ × ℤ)}

/-- The cells that are looked at. -/
def windowOf (pad : Fabrication.Pad ℝ) (position_mm : Point ℝ) (footprint_rotation_deg resolution_mm : ℝ)
    (width_cells height_cells : ℤ) (clearance_mm : ℝ) : List (ℤ × ℤ) :=
  let c := centreOf pad position_mm footprint_rotation_deg
  let extent := hypot sqrt pad.size.1 pad.size.2 / 2 + (clearance_mm + resolution_mm / sqrt 2)
  window (max 0 ⌊(c.1 - extent) / resolution_mm⌋) (min (width_cells - 1) ⌈(c.1 + extent) / resolution_mm⌉)
    (max 0 ⌊(c.2 - extent) / resolution_mm⌋) (min (height_cells - 1) ⌈(c.2 + extent) / resolution_mm⌉)

def OnGrid (pad : Fabrication.Pad ℝ) (position_mm : Point ℝ) (footprint_rotation_deg resolution_mm : ℝ)
    (width_cells height_cells : ℤ) : Prop :=
  let c := centreOf pad position_mm footprint_rotation_deg
  (0 ≤ c.1 ∧ c.1 < width_cells * resolution_mm) ∧ 0 ≤ c.2 ∧ c.2 < height_cells * resolution_mm

theorem padCells_eq (hres : 0 < resolution_mm) (hclear : 0 ≤ clearance_mm) (hcustom : pad.shape ≠ .custom)
    (hsize : 0 < min pad.size.1 pad.size.2)
    (hcentre : OnGrid pad position_mm footprint_rotation_deg resolution_mm width_cells height_cells) :
    padCells sqrt trigReal pad position_mm footprint_rotation_deg resolution_mm width_cells height_cells
        clearance_mm =
      collect (covers sqrt trigReal pad (centreOf pad position_mm footprint_rotation_deg)
        (thetaOf pad footprint_rotation_deg) resolution_mm (clearance_mm + resolution_mm / sqrt 2))
        (windowOf pad position_mm footprint_rotation_deg resolution_mm width_cells height_cells clearance_mm) := by
  unfold padCells
  rw [if_neg (not_not.mpr hres), if_neg (not_not.mpr hclear), if_neg hcustom, if_neg (not_le.mpr hsize)]
  exact if_neg (not_not.mpr hcentre)

theorem padCells_checks (h : padCells sqrt trigReal pad position_mm footprint_rotation_deg resolution_mm
      width_cells height_cells clearance_mm = .ok cells) :
    0 < resolution_mm ∧ 0 ≤ clearance_mm ∧ pad.shape ≠ .custom ∧ 0 < min pad.size.1 pad.size.2 ∧
      OnGrid pad position_mm footprint_rotation_deg resolution_mm width_cells height_cells := by
  unfold padCells at h
  split_ifs at h with hres hclear hcustom hsize
  refine ⟨hres, hclear, hcustom, not_le.mp hsize, ?_⟩
  by_contra hcentre
  have hfails := h.symm.trans (if_pos hcentre)
  cases hfails

theorem covers_ok {a b r margin : ℝ}
    (hbox : ∀ dx dy, distanceInLocalShape sqrt dx dy pad = .ok (roundedDistance a b r (dx, dy))) (cell : ℤ × ℤ) :
    covers sqrt trigReal pad (centreOf pad position_mm footprint_rotation_deg)
        (thetaOf pad footprint_rotation_deg) resolution_mm margin cell =
      .ok (decide (roundedDistance a b r
        (inFrame pad position_mm footprint_rotation_deg (gridPoint resolution_mm cell)) ≤ margin)) := by
  have hframe : inFrame pad position_mm footprint_rotation_deg (gridPoint resolution_mm cell) =
      (trigReal.cos (thetaOf pad footprint_rotation_deg) *
          (cell.1 * resolution_mm - (centreOf pad position_mm footprint_rotation_deg).1) +
        trigReal.sin (thetaOf pad footprint_rotation_deg) *
          (cell.2 * resolution_mm - (centreOf pad position_mm footprint_rotation_deg).2),
        -trigReal.sin (thetaOf pad footprint_rotation_deg) *
          (cell.1 * resolution_mm - (centreOf pad position_mm footprint_rotation_deg).1) +
        trigReal.cos (thetaOf pad footprint_rotation_deg) *
          (cell.2 * resolution_mm - (centreOf pad position_mm footprint_rotation_deg).2)) := by
    rw [inFrame, turned, cos_neg, sin_neg]
    ext
    · show (cell.1 * resolution_mm - _) * _ - (cell.2 * resolution_mm - _) * _ = cos _ * _ + sin _ * _
      ring
    · show (cell.1 * resolution_mm - _) * _ + (cell.2 * resolution_mm - _) * _ = -sin _ * _ + cos _ * _
      ring
  rw [covers, hbox, hframe]
  rfl

/-- **The mask of a pad** has every cell of the grid with a point within the clearance of the copper, and no cell with
a grid point that is further from the copper than the clearance and half of a diagonal of a cell. -/
theorem padCells_spec (hshape : pad.shape = .rect ∨ pad.shape = .circle ∨ pad.shape = .oval)
    (h : padCells sqrt trigReal pad position_mm footprint_rotation_deg resolution_mm width_cells height_cells
      clearance_mm = .ok cells) :
    (∀ cell : ℤ × ℤ, (0 ≤ cell.1 ∧ cell.1 < width_cells) → (0 ≤ cell.2 ∧ cell.2 < height_cells) →
      ∀ p q, InCell resolution_mm cell p → Copper pad position_mm footprint_rotation_deg q →
        distance p q ≤ clearance_mm → cell ∈ cells) ∧
      ∀ cell ∈ cells, ∃ q, Copper pad position_mm footprint_rotation_deg q ∧
        distance (gridPoint resolution_mm cell) q ≤ clearance_mm + resolution_mm / sqrt 2 := by
  obtain ⟨hres, hclear, hcustom, hsize, hcentre⟩ := padCells_checks h
  obtain ⟨a, b, r, ha, hb, hr, hcopper, hdistance, hdiagonal⟩ := exists_box hsize hshape
  rw [padCells_eq hres hclear hcustom hsize hcentre, collect_ok (covers_ok hdistance)] at h
  obtain rfl := Except.ok.inj h
  constructor
  · rintro cell hx hy p q hp ⟨l, hl, rfl⟩ hnear
    -- the grid point is within the margin of the same point of the copper
    have hmargin : distance (gridPoint resolution_mm cell) (centreOf pad position_mm footprint_rotation_deg +
        rotatedOffset trigReal l (pad.rotation + footprint_rotation_deg)) ≤
          clearance_mm + resolution_mm / sqrt 2 := by
      have htriangle := distance_triangle (gridPoint resolution_mm cell) p (centreOf pad position_mm
        footprint_rotation_deg + rotatedOffset trigReal l (pad.rotation + footprint_rotation_deg))
      have hhalf := distance_gridPoint_le hp
      linarith
    rw [List.mem_filter]
    constructor
    · obtain ⟨hcx, hcy⟩ := abs_sub_centreOf_le pad position_mm footprint_rotation_deg
        (add_le_add (hdiagonal l hl) hmargin)
      obtain ⟨hx0, hx1⟩ := between_of_near hres hcx
      obtain ⟨hy0, hy1⟩ := between_of_near hres hcy
      apply mem_window.mpr
      exact ⟨⟨max_le hx.1 hx0, le_min (by omega) hx1⟩, max_le hy.1 hy0, le_min (by omega) hy1⟩
    · rw [distance_copper] at hmargin
      exact decide_eq_true ((roundedDistance_le ha hb _ ((hcopper l).mp hl)).trans hmargin)
  · intro cell hcell
    obtain ⟨-, hpasses⟩ := List.mem_filter.mp hcell
    obtain ⟨l, hl, hreach⟩ := exists_rounded ha hb hr
      (inFrame pad position_mm footprint_rotation_deg (gridPoint resolution_mm cell))
    refine ⟨_, ⟨l, (hcopper l).mpr hl, rfl⟩, ?_⟩
    rw [distance_copper, hreach]
    exact of_decide_eq_true hpasses

/-- A circle with one cell around it on a coarse grid: its mask is given, and is the one that the rule asks for. -/
theorem padCells_circle :
    let pad : Fabrication.Pad ℝ := { id := "1", shape := .circle, position := (0, 0), size := (1, 1) }
    ∃ cells, padCells sqrt trigReal pad (10, 10) 0 (1 / 2) 80 60 (1 / 5) = .ok cells ∧
      (∀ cell : ℤ × ℤ, (0 ≤ cell.1 ∧ cell.1 < 80) → (0 ≤ cell.2 ∧ cell.2 < 60) → ∀ p q, InCell (1 / 2) cell p →
        Copper pad (10, 10) 0 q → distance p q ≤ 1 / 5 → cell ∈ cells) ∧
      ∀ cell ∈ cells, ∃ q, Copper pad (10, 10) 0 q ∧
        distance (gridPoint (1 / 2) cell) q ≤ 1 / 5 + 1 / 2 / sqrt 2 := by
  intro pad
  have hsize : 0 < min pad.size.1 pad.size.2 := lt_min one_pos one_pos
  have hshape : pad.shape = .rect ∨ pad.shape = .circle ∨ pad.shape = .oval := .inr (.inl rfl)
  have hcentre : OnGrid pad (10, 10) 0 (1 / 2) 80 60 := by
    have hplace : centreOf pad (10, 10) 0 = (10, 10) := by
      rw [centreOf, Fabrication.PadCentres.rotatedOffset_zero]
      exact add_zero _
    rw [OnGrid, hplace]
    norm_num
  obtain ⟨a, b, r, -, -, -, -, hdistance, -⟩ := exists_box hsize hshape
  have hcells := (padCells_eq one_half_pos (by norm_num : (0 : ℝ) ≤ 1 / 5) (by decide) hsize hcentre).trans
    (collect_ok (covers_ok hdistance) _)
  exact ⟨_, hcells, padCells_spec hshape hcells⟩

end Mask

end

end ZapTrace.PadCopper
