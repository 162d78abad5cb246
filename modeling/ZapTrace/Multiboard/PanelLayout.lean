import Mathlib
import ZapTrace.Algo.Rounding
import ZapTrace.Library.Plane
import ZapTrace.Multiboard.Panel

/-!
# What a panel layout keeps apart

The copies of the board types are regions of the plane, each turned about its centre by its rotation. The
layout itself never turns a board, and it is not compared with the panel: it is drawn from the lower left
corner to the right. What it keeps apart it keeps apart up to the rounding of positions, and exactly where
all lengths are whole micrometres.

A score line runs over the whole panel. A vertical line stands between two columns or two types; a
horizontal line stands between two rows of its own type, wherever these are in the other types.

## Main results

* `placed_boards_generatePanel`, `v_scores_generatePanel`: the layout type by type
* `arranged_generatePanel`: the layout of upright boards
-/

namespace ZapTrace.Panel

open Nat Real
open scoped Plane
open List hiding Disjoint getElem?_eq_some_iff
open CopperPour (roundTo abs_roundTo_sub_le roundTo_mono roundTo_eq_self)

/-! ## The layout, type by type -/

/-- The board types with the left edge and the first index of each. -/
def items (spacing : ℚ) : List BoardInstance → ℚ → ℕ → List (BoardInstance × ℚ × ℕ)
  | [], _, _ => []
  | bi :: rest, cursor_x, start_idx => (bi, cursor_x, start_idx) ::
      items spacing rest (cursor_x + bi.count_x * (bi.width_mm + spacing)) (start_idx + (cells bi).length)

namespace PanelConfig

variable (config : PanelConfig)

def items : List (BoardInstance × ℚ × ℕ) := Panel.items config.spacing_mm config.boards config.rail_width_mm 0

/-- The copies of a board type. -/
def copies (item : BoardInstance × ℚ × ℕ) : List PlacedBoard :=
  (cells item.1).map (placedAt item.1 item.2.1 config.rail_width_mm config.spacing_mm item.2.2)

/-- The score lines of a board type. -/
def scores (item : BoardInstance × ℚ × ℕ) : List VScoreLine :=
  createVScores item.1 item.2.1 config.rail_width_mm config.spacing_mm config.panel_width_mm config.panel_height_mm

end PanelConfig

variable {config : PanelConfig}

theorem placed_boards_foldl (boards : List BoardInstance) (layout : Layout) :
    (boards.foldl (Layout.add config) layout).placed_boards = layout.placed_boards ++
      (items config.spacing_mm boards layout.cursor_x layout.placed_boards.length).flatMap config.copies := by
  induction boards generalizing layout with
  | nil => simp [items]
  | cons bi boards ih =>
    rw [foldl_cons, ih, items, flatMap_cons]
    simp [Layout.add, placeSingleBoardItem, PanelConfig.copies]

theorem v_scores_foldl (boards : List BoardInstance) (layout : Layout) :
    (boards.foldl (Layout.add config) layout).v_scores = layout.v_scores ++
      if config.separation = .vScore then
        (items config.spacing_mm boards layout.cursor_x layout.placed_boards.length).flatMap config.scores
      else [] := by
  induction boards generalizing layout with
  | nil => simp [items]
  | cons bi boards ih =>
    rw [foldl_cons, ih, items, flatMap_cons]
    by_cases hscore : config.separation = .vScore
    · simp [Layout.add, placeSingleBoardItem, PanelConfig.scores, hscore]
    · simp [Layout.add, hscore]

theorem placed_boards_generatePanel (config : PanelConfig) :
    (generatePanel config).placed_boards = config.items.flatMap config.copies :=
  placed_boards_foldl config.boards _

theorem v_scores_generatePanel (config : PanelConfig) :
    (generatePanel config).v_scores =
      if config.separation = .vScore then config.items.flatMap config.scores else [] :=
  v_scores_foldl config.boards _

/-! ## Boards in the plane -/

/-- A point in the frame of a board: its centre is the origin, and its sides are along the axes. -/
noncomputable def PlacedBoard.inFrame (b : PlacedBoard) (p : ℝ × ℝ) : ℝ × ℝ :=
  let angle : ℝ := b.rotation * Real.pi / 180
  let dx := p.1 - (b.x + b.width_mm / 2)
  let dy := p.2 - (b.y + b.height_mm / 2)
  (dx * Real.cos angle + dy * Real.sin angle, dy * Real.cos angle - dx * Real.sin angle)

/-- The points of a board. -/
def PlacedBoard.region (b : PlacedBoard) : Set (ℝ × ℝ) :=
  {p | |(b.inFrame p).1| ≤ b.width_mm / 2 ∧ |(b.inFrame p).2| ≤ b.height_mm / 2}

/-- The points of a board that are farther than a depth from its edge; the interior at depth 0. -/
def PlacedBoard.core (b : PlacedBoard) (depth : ℝ) : Set (ℝ × ℝ) :=
  {p | |(b.inFrame p).1| < b.width_mm / 2 - depth ∧ |(b.inFrame p).2| < b.height_mm / 2 - depth}

noncomputable def distance (p q : ℝ × ℝ) : ℝ := √((p.1 - q.1) ^ 2 + (p.2 - q.2) ^ 2)

/-- The points of a score line. -/
def VScoreLine.points (v : VScoreLine) : Set (ℝ × ℝ) :=
  match v.orientation with
  | .vertical => {p | p.1 = v.position_mm ∧ v.start_mm ≤ p.2 ∧ p.2 ≤ v.end_mm}
  | .horizontal => {p | p.2 = v.position_mm ∧ v.start_mm ≤ p.1 ∧ p.1 ≤ v.end_mm}

/-- The panel without its rails, grown by a margin. -/
def PanelConfig.inner (config : PanelConfig) (margin : ℝ) : Set (ℝ × ℝ) :=
  {p | config.rail_width_mm - margin ≤ p.1 ∧ p.1 ≤ config.panel_width_mm - config.rail_width_mm + margin ∧
    config.rail_width_mm - margin ≤ p.2 ∧ p.2 ≤ config.panel_height_mm - config.rail_width_mm + margin}

/-- A layout that can be made: the boards do not overlap and keep the spacing, they lie between the rails,
and no score line goes through the interior of a board. -/
structure Physical (config : PanelConfig) (result : PanelResult) : Prop where
  apart : result.placed_boards.Pairwise fun b b' => Disjoint (b.core 0) (b'.core 0) ∧
    ∀ p ∈ b.region, ∀ q ∈ b'.region, (config.spacing_mm : ℝ) ≤ distance p q
  inside : ∀ b ∈ result.placed_boards, b.region ⊆ config.inner 0
  scored : ∀ v ∈ result.v_scores, ∀ b ∈ result.placed_boards, Disjoint v.points (b.core 0)

/-- A rotation that leaves the outline of a board as it is. -/
def IsUpright (rotation width height : ℚ) : Prop :=
  (∃ k : ℤ, rotation = 180 * k) ∨ width = height ∧ ∃ k : ℤ, rotation = 90 * k

/-- A length in whole micrometres. -/
def OnGrid (q : ℚ) : Prop := ∃ n : ℤ, q * 10 ^ 3 = n

def PanelConfig.OnGrid (config : PanelConfig) : Prop :=
  Panel.OnGrid config.rail_width_mm ∧ Panel.OnGrid config.spacing_mm ∧
    ∀ bi ∈ config.boards, Panel.OnGrid bi.width_mm ∧ Panel.OnGrid bi.height_mm

open Classical in
/-- What rounding can move a position by. -/
noncomputable def PanelConfig.slack (config : PanelConfig) : ℚ := if config.OnGrid then 0 else 1 / 2 / 10 ^ 3

/-- The last column and the last row of each type are between the rails. -/
def PanelConfig.Fits (config : PanelConfig) : Prop :=
  ∀ item ∈ config.items,
    item.2.1 + item.1.count_x * (item.1.width_mm + config.spacing_mm) - config.spacing_mm ≤
        config.panel_width_mm - config.rail_width_mm ∧
      config.rail_width_mm + item.1.count_y * (item.1.height_mm + config.spacing_mm) - config.spacing_mm ≤
        config.panel_height_mm - config.rail_width_mm

/-- The layout of upright boards. -/
structure Arranged (config : PanelConfig) (result : PanelResult) : Prop where
  placed : result.placed_boards = config.items.flatMap config.copies
  scored : result.v_scores = if config.separation = .vScore then config.items.flatMap config.scores else []
  apart : result.placed_boards.Pairwise fun b b' => Disjoint (b.core config.slack) (b'.core config.slack) ∧
    ∀ p ∈ b.region, ∀ q ∈ b'.region, (config.spacing_mm : ℝ) - 2 * config.slack ≤ distance p q
  corner : ∀ b ∈ result.placed_boards, ∀ p ∈ b.region,
    config.rail_width_mm - config.slack ≤ p.1 ∧ config.rail_width_mm - config.slack ≤ p.2
  inside : config.Fits → ∀ b ∈ result.placed_boards, b.region ⊆ config.inner config.slack
  fits : (∀ b ∈ result.placed_boards, b.region ⊆ config.inner (-config.slack)) → config.Fits
  vertical : ∀ v ∈ result.v_scores, v.orientation = .vertical → ∀ b ∈ result.placed_boards,
    Disjoint v.points (b.core (2 * config.slack))
  horizontal : ∀ item ∈ config.items, ∀ v ∈ config.scores item, v.orientation = .horizontal →
    ∀ item' ∈ config.items, item'.1.height_mm = item.1.height_mm → ∀ b ∈ config.copies item',
      Disjoint v.points (b.core (2 * config.slack))

/-! ## Upright boards -/

variable {b : PlacedBoard}

/-- The frame of an upright board is that of the panel up to signs, or a square is turned by a quarter. -/
theorem abs_inFrame (h : IsUpright b.rotation b.width_mm b.height_mm) (p : ℝ × ℝ) :
    (|(b.inFrame p).1| = |p.1 - (b.x + b.width_mm / 2)| ∧ |(b.inFrame p).2| = |p.2 - (b.y + b.height_mm / 2)|) ∨
      b.width_mm = b.height_mm ∧
        |(b.inFrame p).1| = |p.2 - (b.y + b.height_mm / 2)| ∧ |(b.inFrame p).2| = |p.1 - (b.x + b.width_mm / 2)| := by
  rcases h with ⟨k, hk⟩ | ⟨hsquare, k, hk⟩
  · left
    have hangle : (b.rotation * Real.pi / 180 : ℝ) = k * Real.pi := by
      rw [hk]
      push_cast
      ring
    have hcos : |Real.cos (b.rotation * Real.pi / 180)| = 1 := by
      rw [hangle, abs_cos_int_mul_pi]
    have hsin : Real.sin (b.rotation * Real.pi / 180) = 0 := by
      rw [hangle, sin_int_mul_pi]
    simp [PlacedBoard.inFrame, hsin, abs_mul, hcos]
  · have hangle : 2 * (b.rotation * Real.pi / 180 : ℝ) = k * Real.pi := by
      rw [hk]
      push_cast
      ring
    -- twice the angle is a half turn, so the sine or the cosine vanishes
    have hprod : Real.sin (b.rotation * Real.pi / 180) * Real.cos (b.rotation * Real.pi / 180) = 0 := by
      have htwo := Real.sin_two_mul (b.rotation * Real.pi / 180)
      rw [hangle, sin_int_mul_pi] at htwo
      linarith
    have hsq := Real.sin_sq_add_cos_sq (b.rotation * Real.pi / 180)
    rcases mul_eq_zero.mp hprod with hsin | hcos
    · left
      have habs : |Real.cos (b.rotation * Real.pi / 180)| = 1 := by
        rw [← abs_one, ← sq_eq_sq_iff_abs_eq_abs]
        rw [hsin] at hsq
        linarith
      simp [PlacedBoard.inFrame, hsin, abs_mul, habs]
    · right
      have habs : |Real.sin (b.rotation * Real.pi / 180)| = 1 := by
        rw [← abs_one, ← sq_eq_sq_iff_abs_eq_abs]
        rw [hcos] at hsq
        linarith
      refine ⟨hsquare, ?_⟩
      simp [PlacedBoard.inFrame, hcos, abs_mul, habs]

theorem mem_region_iff (h : IsUpright b.rotation b.width_mm b.height_mm) {p : ℝ × ℝ} :
    p ∈ b.region ↔ (b.x ≤ p.1 ∧ p.1 ≤ b.x + b.width_mm) ∧ b.y ≤ p.2 ∧ p.2 ≤ b.y + b.height_mm := by
  have hplain : (|p.1 - (b.x + b.width_mm / 2)| ≤ b.width_mm / 2 ∧ |p.2 - (b.y + b.height_mm / 2)| ≤ b.height_mm / 2) ↔
      (b.x ≤ p.1 ∧ p.1 ≤ b.x + b.width_mm) ∧ b.y ≤ p.2 ∧ p.2 ≤ b.y + b.height_mm := by
    rw [abs_le, abs_le]
    constructor
    · rintro ⟨⟨hx, hx'⟩, hy, hy'⟩
      refine ⟨⟨?_, ?_⟩, ?_, ?_⟩ <;> linarith
    · rintro ⟨⟨hx, hx'⟩, hy, hy'⟩
      refine ⟨⟨?_, ?_⟩, ?_, ?_⟩ <;> linarith
  rw [← hplain]
  show |(b.inFrame p).1| ≤ _ ∧ |(b.inFrame p).2| ≤ _ ↔ _
  rcases abs_inFrame h p with ⟨hx, hy⟩ | ⟨hsquare, hx, hy⟩
  · rw [hx, hy]
  · rw [hx, hy, hsquare, and_comm]

theorem mem_core_iff (h : IsUpright b.rotation b.width_mm b.height_mm) {depth : ℝ} {p : ℝ × ℝ} :
    p ∈ b.core depth ↔
      (b.x + depth < p.1 ∧ p.1 < b.x + b.width_mm - depth) ∧ b.y + depth < p.2 ∧ p.2 < b.y + b.height_mm - depth := by
  have hplain : (|p.1 - (b.x + b.width_mm / 2)| < b.width_mm / 2 - depth ∧
      |p.2 - (b.y + b.height_mm / 2)| < b.height_mm / 2 - depth) ↔
      (b.x + depth < p.1 ∧ p.1 < b.x + b.width_mm - depth) ∧ b.y + depth < p.2 ∧ p.2 < b.y + b.height_mm - depth := by
    rw [abs_lt, abs_lt]
    constructor
    · rintro ⟨⟨hx, hx'⟩, hy, hy'⟩
      refine ⟨⟨?_, ?_⟩, ?_, ?_⟩ <;> linarith
    · rintro ⟨⟨hx, hx'⟩, hy, hy'⟩
      refine ⟨⟨?_, ?_⟩, ?_, ?_⟩ <;> linarith
  rw [← hplain]
  show |(b.inFrame p).1| < _ ∧ |(b.inFrame p).2| < _ ↔ _
  rcases abs_inFrame h p with ⟨hx, hy⟩ | ⟨hsquare, hx, hy⟩
  · rw [hx, hy]
  · rw [hx, hy, hsquare, and_comm]

/-- A board that ends before another begins, along one of the axes. -/
def Beside (gap : ℚ) (b b' : PlacedBoard) : Prop :=
  b.x + b.width_mm + gap ≤ b'.x ∨ b.y + b.height_mm + gap ≤ b'.y

theorem le_distance_of_beside {b b' : PlacedBoard} (h : IsUpright b.rotation b.width_mm b.height_mm)
    (h' : IsUpright b'.rotation b'.width_mm b'.height_mm) {gap : ℚ} (hbeside : Beside gap b b') {p q : ℝ × ℝ}
    (hp : p ∈ b.region) (hq : q ∈ b'.region) : (gap : ℝ) ≤ distance p q := by
  obtain ⟨⟨-, hpx⟩, -, hpy⟩ := (mem_region_iff h).mp hp
  obtain ⟨⟨hqx, -⟩, hqy, -⟩ := (mem_region_iff h').mp hq
  rcases hbeside with hx | hy
  · have hx : (b.x + b.width_mm + gap : ℝ) ≤ b'.x := by exact_mod_cast hx
    calc (gap : ℝ) ≤ |p.1 - q.1| := by rw [abs_sub_comm]; exact le_abs.mpr (Or.inl (by linarith))
      _ ≤ distance p q := abs_le_sqrt (le_add_of_nonneg_right (sq_nonneg _))
  · have hy : (b.y + b.height_mm + gap : ℝ) ≤ b'.y := by exact_mod_cast hy
    calc (gap : ℝ) ≤ |p.2 - q.2| := by rw [abs_sub_comm]; exact le_abs.mpr (Or.inl (by linarith))
      _ ≤ distance p q := abs_le_sqrt (le_add_of_nonneg_left (sq_nonneg _))

theorem disjoint_core_of_beside {b b' : PlacedBoard} (h : IsUpright b.rotation b.width_mm b.height_mm)
    (h' : IsUpright b'.rotation b'.width_mm b'.height_mm) {gap depth : ℚ} (hbeside : Beside gap b b')
    (hgap : -(2 * depth) ≤ gap) : Disjoint (b.core depth) (b'.core depth) := by
  rw [Set.disjoint_left]
  intro p hp hp'
  obtain ⟨⟨-, hpx⟩, -, hpy⟩ := (mem_core_iff h).mp hp
  obtain ⟨⟨hqx, -⟩, hqy, -⟩ := (mem_core_iff h').mp hp'
  have hgap : -(2 * depth : ℝ) ≤ gap := by exact_mod_cast hgap
  rcases hbeside with hx | hy
  · have hx : (b.x + b.width_mm + gap : ℝ) ≤ b'.x := by exact_mod_cast hx
    linarith
  · have hy : (b.y + b.height_mm + gap : ℝ) ≤ b'.y := by exact_mod_cast hy
    linarith

/-! ## Rounding -/

theorem OnGrid.add {q q' : ℚ} (h : OnGrid q) (h' : OnGrid q') : OnGrid (q + q') := by
  obtain ⟨n, hn⟩ := h
  obtain ⟨n', hn'⟩ := h'
  refine ⟨n + n', ?_⟩
  push_cast
  rw [← hn, ← hn']
  ring

theorem OnGrid.natMul {q : ℚ} (h : OnGrid q) (k : ℕ) : OnGrid (k * q) := by
  obtain ⟨n, hn⟩ := h
  refine ⟨k * n, ?_⟩
  push_cast
  rw [← hn]
  ring

theorem slack_nonneg : 0 ≤ config.slack := by
  unfold PanelConfig.slack
  split_ifs <;> positivity

theorem abs_round_sub_le_slack {t : ℚ} (h : config.OnGrid → OnGrid t) : |roundTo 3 t - t| ≤ config.slack := by
  unfold PanelConfig.slack
  split_ifs with hgrid
  · obtain ⟨n, hn⟩ := h hgrid
    rw [roundTo_eq_self 3 hn, sub_self, abs_zero]
  · exact abs_roundTo_sub_le 3 t

/-! ## The board types from left to right -/

/-- What the layout is drawn from: sizes that are not negative. -/
structure Sized (spacing : ℚ) (boards : List BoardInstance) : Prop where
  spacing : 0 ≤ spacing
  width : ∀ bi ∈ boards, 0 ≤ bi.width_mm
  height : ∀ bi ∈ boards, 0 ≤ bi.height_mm
variable {item : BoardInstance × ℚ × ℕ} {boards : List BoardInstance}

theorem mem_of_mem_items {spacing : ℚ} {cursor : ℚ} {idx : ℕ} (h : item ∈ items spacing boards cursor idx) :
    item.1 ∈ boards := by
  induction boards generalizing cursor idx with
  | nil => cases h
  | cons bi boards ih =>
    rcases mem_cons.mp h with rfl | hrest
    · exact mem_cons_self
    · exact mem_cons_of_mem _ (ih hrest)

theorem le_cursor_of_mem_items {spacing : ℚ} (hsized : Sized spacing boards) {cursor : ℚ} {idx : ℕ}
    (h : item ∈ items spacing boards cursor idx) : cursor ≤ item.2.1 := by
  induction boards generalizing cursor idx with
  | nil => cases h
  | cons bi boards ih =>
    have hrest : Sized spacing boards := ⟨hsized.spacing, fun b hb => hsized.width b (mem_cons_of_mem _ hb),
      fun b hb => hsized.height b (mem_cons_of_mem _ hb)⟩
    rcases mem_cons.mp h with rfl | hmem
    · exact le_rfl
    · have hwidth := hsized.width bi mem_cons_self
      have hspacing := hsized.spacing
      have hstep : (0 : ℚ) ≤ bi.count_x * (bi.width_mm + spacing) := by positivity
      linarith [ih hrest hmem]

theorem pairwise_items {spacing : ℚ} (hsized : Sized spacing boards) (cursor : ℚ) (idx : ℕ) :
    (items spacing boards cursor idx).Pairwise fun item item' =>
      item.2.1 + item.1.count_x * (item.1.width_mm + spacing) ≤ item'.2.1 := by
  induction boards generalizing cursor idx with
  | nil => exact List.Pairwise.nil
  | cons bi boards ih =>
    have hrest : Sized spacing boards := ⟨hsized.spacing, fun b hb => hsized.width b (mem_cons_of_mem _ hb),
      fun b hb => hsized.height b (mem_cons_of_mem _ hb)⟩
    exact List.Pairwise.cons (fun item hitem => le_cursor_of_mem_items hrest hitem) (ih hrest _ _)

theorem onGrid_cursor {spacing cursor : ℚ} {idx : ℕ} (hboards : ∀ bi ∈ boards, OnGrid bi.width_mm)
    (hspacing : OnGrid spacing) (hcursor : OnGrid cursor) (h : item ∈ items spacing boards cursor idx) :
    OnGrid item.2.1 := by
  induction boards generalizing cursor idx with
  | nil => cases h
  | cons bi boards ih =>
    rcases mem_cons.mp h with rfl | hmem
    · exact hcursor
    · have hwidth := hboards bi mem_cons_self
      exact ih (fun b hb => hboards b (mem_cons_of_mem _ hb))
        (hcursor.add ((hwidth.add hspacing).natMul bi.count_x)) hmem

theorem mem_cells {bi : BoardInstance} {cell : ℕ × ℕ} :
    cell ∈ cells bi ↔ cell.1 < bi.count_y ∧ cell.2 < bi.count_x := by
  obtain ⟨row, col⟩ := cell
  simp [cells]

theorem pairwise_cells (bi : BoardInstance) :
    (cells bi).Pairwise fun cell cell' => cell.1 < cell'.1 ∨ cell.2 < cell'.2 := by
  rw [cells, pairwise_flatMap]
  constructor
  · intro row _
    rw [pairwise_map]
    exact pairwise_lt_range.imp fun h => Or.inr h
  · refine pairwise_lt_range.imp ?_
    intro row row' hrow cell hcell cell' hcell'
    obtain ⟨col, -, rfl⟩ := mem_map.mp hcell
    obtain ⟨col', -, rfl⟩ := mem_map.mp hcell'
    exact Or.inl hrow

/-! ## The copies -/

section Copies

variable {item : BoardInstance × ℚ × ℕ}

def PanelConfig.copy (config : PanelConfig) (item : BoardInstance × ℚ × ℕ) (cell : ℕ × ℕ) : PlacedBoard :=
  placedAt item.1 item.2.1 config.rail_width_mm config.spacing_mm item.2.2 cell

theorem mem_copies {b : PlacedBoard} : b ∈ config.copies item ↔ ∃ cell ∈ cells item.1, config.copy item cell = b :=
  mem_map

theorem onGrid_left (hitem : item ∈ config.items) (k : ℕ) (hgrid : config.OnGrid) :
    OnGrid (item.2.1 + k * (item.1.width_mm + config.spacing_mm)) := by
  obtain ⟨hrail, hspacing, hboards⟩ := hgrid
  have hcursor := onGrid_cursor (fun bi hbi => (hboards bi hbi).1) hspacing hrail hitem
  exact hcursor.add (((hboards _ (mem_of_mem_items hitem)).1.add hspacing).natMul k)

theorem onGrid_bottom (hitem : item ∈ config.items) (k : ℕ) (hgrid : config.OnGrid) :
    OnGrid (config.rail_width_mm + k * (item.1.height_mm + config.spacing_mm)) := by
  obtain ⟨hrail, hspacing, hboards⟩ := hgrid
  exact hrail.add (((hboards _ (mem_of_mem_items hitem)).2.add hspacing).natMul k)

theorem abs_copy_x_sub_le (hitem : item ∈ config.items) (cell : ℕ × ℕ) :
    |(config.copy item cell).x - (item.2.1 + cell.2 * (item.1.width_mm + config.spacing_mm))| ≤ config.slack :=
  abs_round_sub_le_slack (onGrid_left hitem cell.2)

theorem abs_copy_y_sub_le (hitem : item ∈ config.items) (cell : ℕ × ℕ) :
    |(config.copy item cell).y - (config.rail_width_mm + cell.1 * (item.1.height_mm + config.spacing_mm))| ≤
      config.slack :=
  abs_round_sub_le_slack (onGrid_bottom hitem cell.1)

variable (hsized : Sized config.spacing_mm config.boards)
include hsized

theorem pitch_nonneg (hitem : item ∈ config.items) :
    0 ≤ item.1.width_mm + config.spacing_mm ∧ 0 ≤ item.1.height_mm + config.spacing_mm := by
  have hmem := mem_of_mem_items hitem
  exact ⟨add_nonneg (hsized.width _ hmem) hsized.spacing, add_nonneg (hsized.height _ hmem) hsized.spacing⟩

theorem beside_copy (hitem : item ∈ config.items) {cell cell' : ℕ × ℕ} (h : cell.1 < cell'.1 ∨ cell.2 < cell'.2) :
    Beside (config.spacing_mm - 2 * config.slack) (config.copy item cell) (config.copy item cell') := by
  obtain ⟨hx, hy⟩ := pitch_nonneg hsized hitem
  rcases h with hrow | hcol
  · right
    have hle := abs_le.mp (abs_copy_y_sub_le hitem cell)
    have hge := abs_le.mp (abs_copy_y_sub_le hitem cell')
    have hstep : ((cell.1 : ℚ) + 1) * (item.1.height_mm + config.spacing_mm) ≤
        cell'.1 * (item.1.height_mm + config.spacing_mm) :=
      mul_le_mul_of_nonneg_right (by exact_mod_cast hrow) hy
    have hheight : (config.copy item cell).height_mm = item.1.height_mm := rfl
    linarith
  · left
    have hle := abs_le.mp (abs_copy_x_sub_le hitem cell)
    have hge := abs_le.mp (abs_copy_x_sub_le hitem cell')
    have hstep : ((cell.2 : ℚ) + 1) * (item.1.width_mm + config.spacing_mm) ≤
        cell'.2 * (item.1.width_mm + config.spacing_mm) :=
      mul_le_mul_of_nonneg_right (by exact_mod_cast hcol) hx
    have hwidth : (config.copy item cell).width_mm = item.1.width_mm := rfl
    linarith

variable {cell : ℕ × ℕ}

theorem copy_right_le (hitem : item ∈ config.items) (hcell : cell ∈ cells item.1) :
    (config.copy item cell).x + item.1.width_mm ≤
      item.2.1 + item.1.count_x * (item.1.width_mm + config.spacing_mm) - config.spacing_mm + config.slack := by
  have hle := abs_le.mp (abs_copy_x_sub_le hitem cell)
  have hstep : ((cell.2 : ℚ) + 1) * (item.1.width_mm + config.spacing_mm) ≤
      item.1.count_x * (item.1.width_mm + config.spacing_mm) :=
    mul_le_mul_of_nonneg_right (by exact_mod_cast (mem_cells.mp hcell).2) (pitch_nonneg hsized hitem).1
  linarith

theorem copy_top_le (hitem : item ∈ config.items) (hcell : cell ∈ cells item.1) :
    (config.copy item cell).y + item.1.height_mm ≤
      config.rail_width_mm + item.1.count_y * (item.1.height_mm + config.spacing_mm) - config.spacing_mm +
        config.slack := by
  have hle := abs_le.mp (abs_copy_y_sub_le hitem cell)
  have hstep : ((cell.1 : ℚ) + 1) * (item.1.height_mm + config.spacing_mm) ≤
      item.1.count_y * (item.1.height_mm + config.spacing_mm) :=
    mul_le_mul_of_nonneg_right (by exact_mod_cast (mem_cells.mp hcell).1) (pitch_nonneg hsized hitem).2
  linarith

theorem le_copy_x (hitem : item ∈ config.items) (cell : ℕ × ℕ) : item.2.1 - config.slack ≤ (config.copy item cell).x := by
  have hge := abs_le.mp (abs_copy_x_sub_le hitem cell)
  have hstep : (0 : ℚ) ≤ cell.2 * (item.1.width_mm + config.spacing_mm) :=
    mul_nonneg (cast_nonneg _) (pitch_nonneg hsized hitem).1
  linarith

theorem le_copy_y (hitem : item ∈ config.items) (cell : ℕ × ℕ) :
    config.rail_width_mm - config.slack ≤ (config.copy item cell).y := by
  have hge := abs_le.mp (abs_copy_y_sub_le hitem cell)
  have hstep : (0 : ℚ) ≤ cell.1 * (item.1.height_mm + config.spacing_mm) :=
    mul_nonneg (cast_nonneg _) (pitch_nonneg hsized hitem).2
  linarith

theorem beside_copies {item' : BoardInstance × ℚ × ℕ} (hitem : item ∈ config.items) (hitem' : item' ∈ config.items)
    (h : item.2.1 + item.1.count_x * (item.1.width_mm + config.spacing_mm) ≤ item'.2.1) (hcell : cell ∈ cells item.1)
    (cell' : ℕ × ℕ) :
    Beside (config.spacing_mm - 2 * config.slack) (config.copy item cell) (config.copy item' cell') := by
  left
  have hle := copy_right_le hsized hitem hcell
  have hge := le_copy_x hsized hitem' cell'
  have hwidth : (config.copy item cell).width_mm = item.1.width_mm := rfl
  linarith

theorem pairwise_beside :
    (config.items.flatMap config.copies).Pairwise (Beside (config.spacing_mm - 2 * config.slack)) := by
  rw [pairwise_flatMap]
  constructor
  · intro item hitem
    rw [PanelConfig.copies, pairwise_map]
    exact (pairwise_cells item.1).imp fun h => beside_copy hsized hitem h
  · refine (pairwise_items hsized config.rail_width_mm 0).imp_of_mem ?_
    intro item item' hitem hitem' h b hb b' hb'
    obtain ⟨cell, hcell, rfl⟩ := mem_copies.mp hb
    obtain ⟨cell', -, rfl⟩ := mem_copies.mp hb'
    exact beside_copies hsized hitem hitem' h hcell cell'

end Copies

/-! ## The score lines -/

section Scores

variable {item : BoardInstance × ℚ × ℕ}

theorem round_clear {cut left size : ℚ} (hleft : config.OnGrid → OnGrid left)
    (hright : config.OnGrid → OnGrid (left + size)) (h : cut ≤ left ∨ left + size ≤ cut) :
    roundTo 3 cut ≤ roundTo 3 left ∨ roundTo 3 left + size ≤ roundTo 3 cut + 2 * config.slack := by
  rcases h with hbefore | hafter
  · exact Or.inl (roundTo_mono 3 hbefore)
  · right
    have hmono := roundTo_mono 3 hafter
    have hl := abs_le.mp (abs_round_sub_le_slack hleft)
    have hr := abs_le.mp (abs_round_sub_le_slack hright)
    linarith

variable {cursor size spacing : ℚ}

theorem cutAt_clear (hsize : 0 ≤ size) (hspacing : 0 ≤ spacing) (count k row : ℕ) :
    cutAt cursor size spacing count k ≤ cursor + row * (size + spacing) ∨
      cursor + row * (size + spacing) + size ≤ cutAt cursor size spacing count k := by
  have hpitch : 0 ≤ size + spacing := add_nonneg hsize hspacing
  unfold cutAt
  rcases lt_or_ge row k with hlt | hge
  · right
    have hstep : ((row : ℚ) + 1) * (size + spacing) ≤ k * (size + spacing) :=
      mul_le_mul_of_nonneg_right (by exact_mod_cast hlt) hpitch
    split_ifs <;> linarith
  · left
    have hstep : (k : ℚ) * (size + spacing) ≤ row * (size + spacing) :=
      mul_le_mul_of_nonneg_right (by exact_mod_cast hge) hpitch
    split_ifs <;> linarith

theorem le_cutAt (hsize : 0 ≤ size) (hspacing : 0 ≤ spacing) (count k : ℕ) :
    cursor ≤ cutAt cursor size spacing count k := by
  have hpitch : 0 ≤ size + spacing := add_nonneg hsize hspacing
  unfold cutAt
  split_ifs with h
  · have hone : (1 : ℚ) ≤ k := by exact_mod_cast h.1
    have hstep : 1 * (size + spacing) ≤ k * (size + spacing) := mul_le_mul_of_nonneg_right hone hpitch
    linarith
  · have hstep : (0 : ℚ) ≤ k * (size + spacing) := mul_nonneg (cast_nonneg _) hpitch
    linarith

theorem cutAt_le (hsize : 0 ≤ size) (hspacing : 0 ≤ spacing) {count k : ℕ} (hk : k ≤ count) :
    cutAt cursor size spacing count k ≤ cursor + count * (size + spacing) := by
  have hstep : (k : ℚ) * (size + spacing) ≤ count * (size + spacing) :=
    mul_le_mul_of_nonneg_right (by exact_mod_cast hk) (add_nonneg hsize hspacing)
  unfold cutAt
  split_ifs <;> linarith
variable {v : VScoreLine}

theorem mem_scores_vertical (hv : v ∈ config.scores item) (h : v.orientation = .vertical) :
    ∃ k ≤ item.1.count_x, v.position_mm =
      roundTo 3 (cutAt item.2.1 item.1.width_mm config.spacing_mm item.1.count_x k) := by
  rw [PanelConfig.scores, createVScores, mem_append] at hv
  rcases hv with hcol | hrow
  · obtain ⟨k, hk, rfl⟩ := mem_map.mp hcol
    exact ⟨k, Nat.lt_succ_iff.mp (mem_range.mp hk), rfl⟩
  · obtain ⟨k, -, rfl⟩ := mem_map.mp hrow
    cases h

theorem mem_scores_horizontal (hv : v ∈ config.scores item) (h : v.orientation = .horizontal) :
    ∃ k, v.position_mm =
      roundTo 3 (cutAt config.rail_width_mm item.1.height_mm config.spacing_mm item.1.count_y k) := by
  rw [PanelConfig.scores, createVScores, mem_append] at hv
  rcases hv with hcol | hrow
  · obtain ⟨k, -, rfl⟩ := mem_map.mp hcol
    cases h
  · obtain ⟨k, -, rfl⟩ := mem_map.mp hrow
    exact ⟨k, rfl⟩

variable {b : PlacedBoard}

theorem disjoint_vertical (hup : IsUpright b.rotation b.width_mm b.height_mm) (hv : v.orientation = .vertical)
    (h : v.position_mm ≤ b.x ∨ b.x + b.width_mm ≤ v.position_mm + 2 * config.slack) :
    Disjoint v.points (b.core (2 * config.slack)) := by
  rw [Set.disjoint_left]
  intro p hp hcore
  obtain ⟨⟨hleft, hright⟩, -⟩ := (mem_core_iff hup).mp hcore
  have hp : p.1 = v.position_mm := by
    unfold VScoreLine.points at hp
    rw [hv] at hp
    exact hp.1
  have hslack : (0 : ℝ) ≤ config.slack := by exact_mod_cast slack_nonneg
  rcases h with hbefore | hafter
  · have hbefore : (v.position_mm : ℝ) ≤ b.x := by exact_mod_cast hbefore
    linarith
  · have hafter : (b.x + b.width_mm : ℝ) ≤ v.position_mm + 2 * config.slack := by exact_mod_cast hafter
    linarith

theorem disjoint_horizontal (hup : IsUpright b.rotation b.width_mm b.height_mm) (hv : v.orientation = .horizontal)
    (h : v.position_mm ≤ b.y ∨ b.y + b.height_mm ≤ v.position_mm + 2 * config.slack) :
    Disjoint v.points (b.core (2 * config.slack)) := by
  rw [Set.disjoint_left]
  intro p hp hcore
  obtain ⟨-, hleft, hright⟩ := (mem_core_iff hup).mp hcore
  have hp : p.2 = v.position_mm := by
    unfold VScoreLine.points at hp
    rw [hv] at hp
    exact hp.1
  have hslack : (0 : ℝ) ≤ config.slack := by exact_mod_cast slack_nonneg
  rcases h with hbefore | hafter
  · have hbefore : (v.position_mm : ℝ) ≤ b.y := by exact_mod_cast hbefore
    linarith
  · have hafter : (b.y + b.height_mm : ℝ) ≤ v.position_mm + 2 * config.slack := by exact_mod_cast hafter
    linarith

variable (hsized : Sized config.spacing_mm config.boards)
include hsized

variable {item' : BoardInstance × ℚ × ℕ}

theorem items_apart (hitem : item ∈ config.items) (hitem' : item' ∈ config.items) :
    item = item' ∨ (item.2.1 + item.1.count_x * (item.1.width_mm + config.spacing_mm) ≤ item'.2.1 ∨
      item'.2.1 + item'.1.count_x * (item'.1.width_mm + config.spacing_mm) ≤ item.2.1) := by
  have hpair := pairwise_items hsized config.rail_width_mm 0
  refine List.Pairwise.forall_of_forall_of_flip (R := fun i j : BoardInstance × ℚ × ℕ => i = j ∨
    (i.2.1 + i.1.count_x * (i.1.width_mm + config.spacing_mm) ≤ j.2.1 ∨
      j.2.1 + j.1.count_x * (j.1.width_mm + config.spacing_mm) ≤ i.2.1)) ?_ ?_ ?_ hitem hitem'
  · exact fun _ _ => Or.inl rfl
  · exact hpair.imp fun h => Or.inr (Or.inl h)
  · exact hpair.imp fun h => Or.inr (Or.inr h)

theorem vertical_clear (hitem : item ∈ config.items) (hitem' : item' ∈ config.items) {k : ℕ} (hk : k ≤ item.1.count_x)
    {cell : ℕ × ℕ} (hcell : cell ∈ cells item'.1) :
    cutAt item.2.1 item.1.width_mm config.spacing_mm item.1.count_x k ≤
        item'.2.1 + cell.2 * (item'.1.width_mm + config.spacing_mm) ∨
      item'.2.1 + cell.2 * (item'.1.width_mm + config.spacing_mm) + item'.1.width_mm ≤
        cutAt item.2.1 item.1.width_mm config.spacing_mm item.1.count_x k := by
  have hwidth := hsized.width _ (mem_of_mem_items hitem)
  have hspacing := hsized.spacing
  have hpitch' := (pitch_nonneg hsized hitem').1
  obtain hsame | hother := items_apart hsized hitem hitem'
  · subst hsame
    exact cutAt_clear hwidth hspacing _ _ _
  · rcases hother with hright | hleft
    · left
      have hstep : (0 : ℚ) ≤ cell.2 * (item'.1.width_mm + config.spacing_mm) :=
        mul_nonneg (cast_nonneg _) hpitch'
      have hcut := @cutAt_le item.2.1 _ _ hwidth hspacing _ _ hk
      linarith
    · right
      have hstep : ((cell.2 : ℚ) + 1) * (item'.1.width_mm + config.spacing_mm) ≤
          item'.1.count_x * (item'.1.width_mm + config.spacing_mm) :=
        mul_le_mul_of_nonneg_right (by exact_mod_cast (mem_cells.mp hcell).2) hpitch'
      have hcut := @le_cutAt item.2.1 _ _ hwidth hspacing item.1.count_x k
      linarith

theorem disjoint_scores_vertical (hup : ∀ bi ∈ config.boards, IsUpright bi.rotation bi.width_mm bi.height_mm)
    (hitem : item ∈ config.items) (hitem' : item' ∈ config.items) (hv : v ∈ config.scores item)
    (horient : v.orientation = .vertical) (hb : b ∈ config.copies item') :
    Disjoint v.points (b.core (2 * config.slack)) := by
  obtain ⟨cell, hcell, rfl⟩ := mem_copies.mp hb
  obtain ⟨k, hk, hpos⟩ := mem_scores_vertical hv horient
  apply disjoint_vertical (hup _ (mem_of_mem_items hitem')) horient
  rw [hpos]
  refine round_clear (onGrid_left hitem' cell.2) ?_ (vertical_clear hsized hitem hitem' hk hcell)
  exact fun hgrid => (onGrid_left hitem' cell.2 hgrid).add (hgrid.2.2 _ (mem_of_mem_items hitem')).1

theorem disjoint_scores_horizontal (hup : ∀ bi ∈ config.boards, IsUpright bi.rotation bi.width_mm bi.height_mm)
    (hitem' : item' ∈ config.items) (hheight : item'.1.height_mm = item.1.height_mm) (hv : v ∈ config.scores item)
    (horient : v.orientation = .horizontal) (hb : b ∈ config.copies item') :
    Disjoint v.points (b.core (2 * config.slack)) := by
  obtain ⟨cell, -, rfl⟩ := mem_copies.mp hb
  obtain ⟨k, hpos⟩ := mem_scores_horizontal hv horient
  apply disjoint_horizontal (hup _ (mem_of_mem_items hitem')) horient
  rw [hpos, ← hheight]
  refine round_clear (onGrid_bottom hitem' cell.1) ?_
    (cutAt_clear (hsized.height _ (mem_of_mem_items hitem')) hsized.spacing _ _ _)
  exact fun hgrid => (onGrid_bottom hitem' cell.1 hgrid).add (hgrid.2.2 _ (mem_of_mem_items hitem')).2

end Scores

/-! ## The layout -/

theorem mem_placed_boards : b ∈ (generatePanel config).placed_boards ↔
    ∃ item ∈ config.items, ∃ cell ∈ cells item.1, config.copy item cell = b := by
  rw [placed_boards_generatePanel, mem_flatMap]
  simp only [mem_copies]

theorem mem_region_copy (hup : ∀ bi ∈ config.boards, IsUpright bi.rotation bi.width_mm bi.height_mm)
    (hitem : item ∈ config.items) {cell : ℕ × ℕ} {p : ℝ × ℝ} (hp : p ∈ (config.copy item cell).region) :
    ((config.copy item cell).x ≤ p.1 ∧ p.1 ≤ (config.copy item cell).x + item.1.width_mm) ∧
      (config.copy item cell).y ≤ p.2 ∧ p.2 ≤ (config.copy item cell).y + item.1.height_mm :=
  (mem_region_iff (hup _ (mem_of_mem_items hitem))).mp hp

section Layout

variable (hsized : Sized config.spacing_mm config.boards)
  (hup : ∀ bi ∈ config.boards, IsUpright bi.rotation bi.width_mm bi.height_mm)
include hsized hup

theorem corner_generatePanel : ∀ b ∈ (generatePanel config).placed_boards, ∀ p ∈ b.region,
    (config.rail_width_mm - config.slack : ℝ) ≤ p.1 ∧ (config.rail_width_mm - config.slack : ℝ) ≤ p.2 := by
  intro b hb p hp
  obtain ⟨item, hitem, cell, -, rfl⟩ := mem_placed_boards.mp hb
  obtain ⟨⟨hx, -⟩, hy, -⟩ := mem_region_copy hup hitem hp
  have hcursor : config.rail_width_mm ≤ item.2.1 := le_cursor_of_mem_items hsized hitem
  have hleft : (config.rail_width_mm - config.slack : ℝ) ≤ (config.copy item cell).x := by
    exact_mod_cast (sub_le_sub_right hcursor _).trans (le_copy_x hsized hitem cell)
  have hbottom : (config.rail_width_mm - config.slack : ℝ) ≤ (config.copy item cell).y := by
    exact_mod_cast le_copy_y hsized hitem cell
  exact ⟨hleft.trans hx, hbottom.trans hy⟩

theorem inside_generatePanel (hfits : config.Fits) :
    ∀ b ∈ (generatePanel config).placed_boards, b.region ⊆ config.inner config.slack := by
  intro b hb p hp
  obtain ⟨hleft, hbottom⟩ := corner_generatePanel hsized hup b hb p hp
  obtain ⟨item, hitem, cell, hcell, rfl⟩ := mem_placed_boards.mp hb
  obtain ⟨⟨-, hx⟩, -, hy⟩ := mem_region_copy hup hitem hp
  obtain ⟨hwidth, hheight⟩ := hfits item hitem
  have hright : ((config.copy item cell).x + item.1.width_mm : ℝ) ≤
      config.panel_width_mm - config.rail_width_mm + config.slack := by
    have hle := copy_right_le hsized hitem hcell
    have hsum : (config.copy item cell).x + item.1.width_mm ≤
        config.panel_width_mm - config.rail_width_mm + config.slack := by linarith
    exact_mod_cast hsum
  have htop : ((config.copy item cell).y + item.1.height_mm : ℝ) ≤
      config.panel_height_mm - config.rail_width_mm + config.slack := by
    have hle := copy_top_le hsized hitem hcell
    have hsum : (config.copy item cell).y + item.1.height_mm ≤
        config.panel_height_mm - config.rail_width_mm + config.slack := by linarith
    exact_mod_cast hsum
  exact ⟨hleft, hx.trans hright, hbottom, hy.trans htop⟩

/-- The upper right corner of the last copy of a type tells whether the type fits. -/
theorem fits_of_inside (hinside : ∀ b ∈ (generatePanel config).placed_boards, b.region ⊆ config.inner (-config.slack)) :
    config.Fits := by
  intro item hitem
  have hcell : (item.1.count_y - 1, item.1.count_x - 1) ∈ cells item.1 :=
    mem_cells.mpr ⟨sub_lt item.1.one_le_count_y one_pos, sub_lt item.1.one_le_count_x one_pos⟩
  generalize hlast : (item.1.count_y - 1, item.1.count_x - 1) = cell at hcell
  have hmem : ((((config.copy item cell).x + item.1.width_mm : ℚ) : ℝ),
      (((config.copy item cell).y + item.1.height_mm : ℚ) : ℝ)) ∈ (config.copy item cell).region := by
    have hwidth : (0 : ℝ) ≤ item.1.width_mm := by exact_mod_cast hsized.width _ (mem_of_mem_items hitem)
    have hheight : (0 : ℝ) ≤ item.1.height_mm := by exact_mod_cast hsized.height _ (mem_of_mem_items hitem)
    refine (mem_region_iff (hup _ (mem_of_mem_items hitem))).mpr ?_
    push_cast
    exact ⟨⟨le_add_of_nonneg_right hwidth, le_rfl⟩, le_add_of_nonneg_right hheight, le_rfl⟩
  obtain ⟨-, hx, -, hy⟩ := hinside _ (mem_placed_boards.mpr ⟨item, hitem, cell, hcell, rfl⟩) hmem
  simp only at hx hy
  have hx : (config.copy item cell).x + item.1.width_mm ≤ config.panel_width_mm - config.rail_width_mm + -config.slack := by
    exact_mod_cast hx
  have hy : (config.copy item cell).y + item.1.height_mm ≤
      config.panel_height_mm - config.rail_width_mm + -config.slack := by
    exact_mod_cast hy
  have hcol : (cell.2 : ℚ) = item.1.count_x - 1 := by
    rw [← hlast, cast_sub item.1.one_le_count_x, cast_one]
  have hrow : (cell.1 : ℚ) = item.1.count_y - 1 := by
    rw [← hlast, cast_sub item.1.one_le_count_y, cast_one]
  have hleft := abs_le.mp (abs_copy_x_sub_le hitem cell)
  have hbottom := abs_le.mp (abs_copy_y_sub_le hitem cell)
  rw [hcol] at hleft
  rw [hrow] at hbottom
  constructor
  · linarith
  · linarith

theorem apart_generatePanel :
    (generatePanel config).placed_boards.Pairwise fun b b' => Disjoint (b.core config.slack) (b'.core config.slack) ∧
      ∀ p ∈ b.region, ∀ q ∈ b'.region, (config.spacing_mm : ℝ) - 2 * config.slack ≤ distance p q := by
  have hpairs := pairwise_beside hsized
  rw [← placed_boards_generatePanel] at hpairs
  refine hpairs.imp_of_mem ?_
  intro b b' hb hb' hbeside
  obtain ⟨item, hitem, cell, -, rfl⟩ := mem_placed_boards.mp hb
  obtain ⟨item', hitem', cell', -, rfl⟩ := mem_placed_boards.mp hb'
  have hupright := hup _ (mem_of_mem_items hitem)
  have hupright' := hup _ (mem_of_mem_items hitem')
  refine ⟨disjoint_core_of_beside hupright hupright' hbeside ?_, ?_⟩
  · have hspacing := hsized.spacing
    linarith
  · intro p hp q hq
    have hle := le_distance_of_beside hupright hupright' hbeside hp hq
    push_cast at hle
    exact hle

end Layout

/-- The layout of boards that are not turned: the copies keep the spacing, none is left of or below the rails,
they are all between the rails when the last columns and rows are, vertical score lines pass no board, and
horizontal ones pass no board of a type of the same height. All of it is up to the rounding of positions. -/
theorem arranged_generatePanel (config : PanelConfig) (hspacing : 0 ≤ config.spacing_mm)
    (hsizes : ∀ bi ∈ config.boards, 0 ≤ bi.width_mm ∧ 0 ≤ bi.height_mm)
    (hup : ∀ bi ∈ config.boards, IsUpright bi.rotation bi.width_mm bi.height_mm) :
    Arranged config (generatePanel config) := by
  have hsized : Sized config.spacing_mm config.boards :=
    ⟨hspacing, fun bi hbi => (hsizes bi hbi).1, fun bi hbi => (hsizes bi hbi).2⟩
  constructor
  · exact placed_boards_generatePanel config
  · exact v_scores_generatePanel config
  · exact apart_generatePanel hsized hup
  · exact corner_generatePanel hsized hup
  · exact inside_generatePanel hsized hup
  · exact fits_of_inside hsized hup
  · intro v hv horient b hb
    rw [v_scores_generatePanel] at hv
    split at hv
    · obtain ⟨item, hitem, hmem⟩ := mem_flatMap.mp hv
      rw [placed_boards_generatePanel] at hb
      obtain ⟨item', hitem', hcopy⟩ := mem_flatMap.mp hb
      exact disjoint_scores_vertical hsized hup hitem hitem' hmem horient hcopy
    · cases hv
  · intro item _ v hv horient item' hitem' hheight b hb
    exact disjoint_scores_horizontal hsized hup hitem' hheight hv horient hb

theorem isUpright_zero (width height : ℚ) : IsUpright 0 width height := Or.inl ⟨0, by norm_num⟩

/-- Two types of the same height. -/
def sameHeights : PanelConfig where
  boards := [
    { board_id := "sensor", one_le_count_x := le_succ 1, one_le_count_y := le_succ 1 },
    { board_id := "radio", width_mm := 30, count_x := 1, one_le_count_x := le_rfl, one_le_count_y := le_succ 1 }]

theorem arranged_generatePanel_sameHeights : Arranged sameHeights (generatePanel sameHeights) := by
  refine arranged_generatePanel sameHeights (by decide) ?_ ?_
  · intro bi hbi
    rcases mem_cons.mp hbi with rfl | hbi
    · exact ⟨by decide, by decide⟩
    · rw [mem_singleton.mp hbi]
      exact ⟨by decide, by decide⟩
  · intro bi hbi
    rcases mem_cons.mp hbi with rfl | hbi
    · exact isUpright_zero _ _
    · rw [mem_singleton.mp hbi]
      exact isUpright_zero _ _

/-! ## Layouts that are not physical -/

/-- The second type is higher than a row of the first. -/
def mixedHeights : PanelConfig where
  boards := [
    { board_id := "sensor", one_le_count_x := le_succ 1, one_le_count_y := le_succ 1 },
    { board_id := "radio", width_mm := 30, height_mm := 60, count_x := 1, count_y := 1, one_le_count_x := le_rfl,
      one_le_count_y := le_rfl }]

/-- Two boards above each other that are to be turned by a quarter. -/
def quarterTurned : PanelConfig where
  boards := [
    { board_id := "sensor", count_x := 1, rotation := 90, one_le_count_x := le_rfl, one_le_count_y := le_succ 1 }]

/-- Two columns on a panel for one. -/
def tooNarrow : PanelConfig where
  panel_width_mm := 100
  boards := [{ board_id := "sensor", one_le_count_x := le_succ 1, one_le_count_y := le_succ 1 }]

/-- A width that is not a whole number of micrometres. -/
def offGrid : PanelConfig where
  boards := [
    { board_id := "sensor", width_mm := 10.0004, one_le_count_x := le_succ 1, one_le_count_y := le_succ 1 }]

/-- Where a board of a layout stands, its size and its rotation. -/
def boardAt (config : PanelConfig) (k : ℕ) : Option (ℚ × ℚ × ℚ × ℚ × ℚ) :=
  ((generatePanel config).placed_boards[k]?).map fun b => (b.x, b.y, b.width_mm, b.height_mm, b.rotation)

theorem exists_board {k : ℕ} {x y width height rotation : ℚ}
    (h : boardAt config k = some (x, y, width, height, rotation)) :
    ∃ b, (generatePanel config).placed_boards[k]? = some b ∧ b.x = x ∧ b.y = y ∧ b.width_mm = width ∧
      b.height_mm = height ∧ b.rotation = rotation := by
  obtain ⟨b, hb, heq⟩ := Option.map_eq_some_iff.mp h
  simp only [Prod.mk.injEq] at heq
  exact ⟨b, hb, heq⟩

theorem Physical.apart_at {result : PanelResult} (h : Physical config result) {i j : ℕ} (hij : i < j)
    {b b' : PlacedBoard} (hb : result.placed_boards[i]? = some b) (hb' : result.placed_boards[j]? = some b') :
    Disjoint (b.core 0) (b'.core 0) ∧
      ∀ p ∈ b.region, ∀ q ∈ b'.region, (config.spacing_mm : ℝ) ≤ distance p q := by
  obtain ⟨hi, rfl⟩ := List.getElem?_eq_some_iff.mp hb
  obtain ⟨hj, rfl⟩ := List.getElem?_eq_some_iff.mp hb'
  exact pairwise_iff_getElem.mp h.apart i j hi hj hij

-- for `decide` below
attribute [local semireducible] Rat.add Rat.sub Rat.mul Rat.inv Rat.ofScientific

theorem not_physical_mixedHeights : ¬ Physical mixedHeights (generatePanel mixedHeights) := by
  intro h
  have hat : boardAt mixedHeights 4 = some (109, 5, 30, 60, 0) := by decide
  obtain ⟨b, hb, hx, hy, hwidth, hheight, hrotation⟩ := exists_board hat
  have hline : ((generatePanel mixedHeights).v_scores[4]?).map (fun v =>
      (v.orientation, v.position_mm, v.start_mm, v.end_mm)) = some (.horizontal, 46, 0, 200) := by decide
  obtain ⟨v, hv, heq⟩ := Option.map_eq_some_iff.mp hline
  obtain ⟨horient, hpos, hstart, hend⟩ : v.orientation = .horizontal ∧ v.position_mm = 46 ∧ v.start_mm = 0 ∧
      v.end_mm = 200 := by simpa using heq
  have hup : IsUpright b.rotation b.width_mm b.height_mm := hrotation ▸ isUpright_zero _ _
  have hdisjoint := h.scored v (mem_of_getElem? hv) b (mem_of_getElem? hb)
  suffices hboth : ((124, 46) : ℝ × ℝ) ∈ v.points ∧ ((124, 46) : ℝ × ℝ) ∈ b.core 0 from
    Set.disjoint_left.mp hdisjoint hboth.1 hboth.2
  constructor
  · unfold VScoreLine.points
    rw [horient]
    show _ = _ ∧ _ ≤ _ ∧ _ ≤ _
    rw [hpos, hstart, hend]
    norm_num
  · rw [mem_core_iff hup, hx, hy, hwidth, hheight]
    norm_num

theorem not_physical_quarterTurned : ¬ Physical quarterTurned (generatePanel quarterTurned) := by
  intro h
  have hat : boardAt quarterTurned 0 = some (5, 5, 50, 40, 90) := by decide
  have hat' : boardAt quarterTurned 1 = some (5, 47, 50, 40, 90) := by decide
  obtain ⟨b, hb, hx, hy, hwidth, hheight, hrotation⟩ := exists_board hat
  obtain ⟨b', hb', hx', hy', hwidth', hheight', hrotation'⟩ := exists_board hat'
  have hangle : (90 : ℝ) * Real.pi / 180 = Real.pi / 2 := by ring
  suffices hboth : ((30, 46) : ℝ × ℝ) ∈ b.core 0 ∧ ((30, 46) : ℝ × ℝ) ∈ b'.core 0 from
    Set.disjoint_left.mp (h.apart_at one_pos hb hb').1 hboth.1 hboth.2
  constructor
  · show |_| < _ ∧ |_| < _
    simp only [PlacedBoard.inFrame, hx, hy, hwidth, hheight, hrotation, Rat.cast_ofNat, hangle, Real.cos_pi_div_two,
      sin_pi_div_two]
    norm_num
  · show |_| < _ ∧ |_| < _
    simp only [PlacedBoard.inFrame, hx', hy', hwidth', hheight', hrotation', Rat.cast_ofNat, hangle,
      Real.cos_pi_div_two, sin_pi_div_two]
    norm_num [abs_lt]

theorem not_physical_tooNarrow : ¬ Physical tooNarrow (generatePanel tooNarrow) := by
  intro h
  have hat : boardAt tooNarrow 1 = some (57, 5, 50, 40, 0) := by decide
  obtain ⟨b, hb, hx, hy, hwidth, hheight, hrotation⟩ := exists_board hat
  have hup : IsUpright b.rotation b.width_mm b.height_mm := hrotation ▸ isUpright_zero _ _
  have hmem : ((107, 5) : ℝ × ℝ) ∈ b.region := by
    rw [mem_region_iff hup, hx, hy, hwidth, hheight]
    norm_num
  obtain ⟨-, hright, -⟩ := h.inside b (mem_of_getElem? hb) hmem
  norm_num [tooNarrow] at hright

theorem not_physical_offGrid : ¬ Physical offGrid (generatePanel offGrid) := by
  intro h
  have hat : boardAt offGrid 0 = some (5, 5, 10.0004, 40, 0) := by decide
  have hat' : boardAt offGrid 1 = some (17, 5, 10.0004, 40, 0) := by decide
  obtain ⟨b, hb, hx, hy, hwidth, hheight, hrotation⟩ := exists_board hat
  obtain ⟨b', hb', hx', hy', hwidth', hheight', hrotation'⟩ := exists_board hat'
  have hup : IsUpright b.rotation b.width_mm b.height_mm := hrotation ▸ isUpright_zero _ _
  have hup' : IsUpright b'.rotation b'.width_mm b'.height_mm := hrotation' ▸ isUpright_zero _ _
  have hp : ((15.0004, 5) : ℝ × ℝ) ∈ b.region := by
    rw [mem_region_iff hup, hx, hy, hwidth, hheight]
    norm_num
  have hq : ((17, 5) : ℝ × ℝ) ∈ b'.region := by
    rw [mem_region_iff hup', hx', hy', hwidth', hheight']
    norm_num
  have hle := (h.apart_at one_pos hb hb').2 _ hp _ hq
  have hdistance : distance (15.0004, 5) (17, 5) = 1.9996 := by
    rw [distance, sqrt_eq_iff_mul_self_eq (by positivity) (by norm_num)]
    norm_num
  rw [hdistance] at hle
  norm_num [offGrid] at hle

/-- Score lines across other types, rotations, panels that are too small and lengths off the grid each make a
layout that is not physical. -/
theorem not_physical_generatePanel :
    ¬ Physical mixedHeights (generatePanel mixedHeights) ∧ ¬ Physical quarterTurned (generatePanel quarterTurned) ∧
      ¬ Physical tooNarrow (generatePanel tooNarrow) ∧ ¬ Physical offGrid (generatePanel offGrid) :=
  ⟨not_physical_mixedHeights, not_physical_quarterTurned, not_physical_tooNarrow, not_physical_offGrid⟩

end ZapTrace.Panel
