import ZapTrace.Algo.CopperPour

/-!
# Panels

`multiboard/panel.py`: copies of several boards are laid out on a panel. Each board type is a grid of copies,
and the types stand next to each other from left to right, with one cursor for the left edge of the next type.
With V-scoring, each type adds score lines around and between its copies; a line runs over the whole panel.

Lengths are rational numbers in millimetres; positions are rounded to three digits.
-/

namespace ZapTrace.Panel

open CopperPour (roundTo)

inductive PanelSeparationMethod
  | vScore | tabRoute | stampHoles
  deriving DecidableEq

/-- Placement specification for a board within a panel. -/
structure BoardInstance where
  board_id : String
  width_mm : ℚ := 50
  height_mm : ℚ := 40
  count_x : ℕ := 2
  count_y : ℕ := 2
  rotation : ℚ := 0
  one_le_count_x : 1 ≤ count_x
  one_le_count_y : 1 ≤ count_y

structure FiducialSpec where
  x : ℚ
  y : ℚ
  copper_diameter_mm : ℚ := 1
  mask_clearance_mm : ℚ := 2

structure ToolingHoleSpec where
  x : ℚ
  y : ℚ
  diameter_mm : ℚ := 3.2
  plated : Bool := false

inductive Orientation
  | horizontal | vertical
  deriving DecidableEq

/-- V-score groove line across a panel. -/
structure VScoreLine where
  orientation : Orientation
  position_mm : ℚ
  start_mm : ℚ
  end_mm : ℚ

/-- Breakout tab with perforation. -/
structure RouteTab where
  x : ℚ
  y : ℚ
  width_mm : ℚ := 5
  mouse_bites : Bool := true
  hole_count : ℤ := 5
  hole_diameter_mm : ℚ := 0.5

/-- Complete specification for panel array fabrication. -/
structure PanelConfig where
  name : String := "panel-array"
  panel_width_mm : ℚ := 200
  panel_height_mm : ℚ := 150
  rail_width_mm : ℚ := 5
  spacing_mm : ℚ := 2
  separation : PanelSeparationMethod := .vScore
  boards : List BoardInstance := []
  auto_rails : Bool := true
  auto_fiducials : Bool := true
  auto_tooling_holes : Bool := true

structure PlacedBoard where
  board_id : String
  index : ℕ
  x : ℚ
  y : ℚ
  width_mm : ℚ
  height_mm : ℚ
  rotation : ℚ := 0

/-- Computed panel layout. -/
structure PanelResult where
  config : PanelConfig
  panel_width_mm : ℚ
  panel_height_mm : ℚ
  total_boards : ℕ
  placed_boards : List PlacedBoard
  v_scores : List VScoreLine
  tabs : List RouteTab
  fiducials : List FiducialSpec
  tooling_holes : List ToolingHoleSpec
  utilization_pct : ℚ

/-! ## One board type -/

/-- The rows and columns of the copies, in the order of the loops. -/
def cells (bi : BoardInstance) : List (ℕ × ℕ) :=
  (List.range bi.count_y).flatMap fun row => (List.range bi.count_x).map fun col => (row, col)

def placedAt (bi : BoardInstance) (cursor_x cursor_y spacing : ℚ) (start_idx : ℕ) (cell : ℕ × ℕ) : PlacedBoard where
  board_id := bi.board_id
  index := start_idx + (cell.1 * bi.count_x + cell.2)
  x := roundTo 3 (cursor_x + cell.2 * (bi.width_mm + spacing))
  y := roundTo 3 (cursor_y + cell.1 * (bi.height_mm + spacing))
  width_mm := bi.width_mm
  height_mm := bi.height_mm
  rotation := bi.rotation

/-- The tabs in the middle of each side of the copy in a cell. -/
def tabsAt (bi : BoardInstance) (cursor_x cursor_y spacing : ℚ) (cell : ℕ × ℕ) : List RouteTab :=
  let bx := cursor_x + cell.2 * (bi.width_mm + spacing)
  let by' := cursor_y + cell.1 * (bi.height_mm + spacing)
  [{ x := bx + bi.width_mm / 2, y := by', width_mm := 4 },
    { x := bx + bi.width_mm / 2, y := by' + bi.height_mm, width_mm := 4 },
    { x := bx, y := by' + bi.height_mm / 2, width_mm := 4 },
    { x := bx + bi.width_mm, y := by' + bi.height_mm / 2, width_mm := 4 }]

/-- `_place_single_board_item`: the copies of a board type, their tabs and their area. -/
def placeSingleBoardItem (bi : BoardInstance) (cursor_x cursor_y spacing : ℚ) (separation : PanelSeparationMethod)
    (start_idx : ℕ) : List PlacedBoard × List RouteTab × ℚ :=
  ((cells bi).map (placedAt bi cursor_x cursor_y spacing start_idx),
    if separation = .tabRoute then (cells bi).flatMap (tabsAt bi cursor_x cursor_y spacing) else [],
    ((cells bi).map fun _ => bi.width_mm * bi.height_mm).sum)

/-- Where a type is scored along one axis: at both ends, and in the middle of each gap. -/
def cutAt (cursor size spacing : ℚ) (count k : ℕ) : ℚ :=
  cursor + k * (size + spacing) - if 0 < k ∧ k < count then spacing / 2 else 0

def createVScores (bi : BoardInstance) (cursor_x cursor_y spacing panel_w panel_h : ℚ) : List VScoreLine :=
  (List.range (bi.count_x + 1)).map (fun col =>
      { orientation := .vertical
        position_mm := roundTo 3 (cutAt cursor_x bi.width_mm spacing bi.count_x col)
        start_mm := 0
        end_mm := panel_h }) ++
    (List.range (bi.count_y + 1)).map fun row =>
      { orientation := .horizontal
        position_mm := roundTo 3 (cutAt cursor_y bi.height_mm spacing bi.count_y row)
        start_mm := 0
        end_mm := panel_w }

/-! ## The panel -/

def generateFiducials (config : PanelConfig) : List FiducialSpec :=
  if config.auto_fiducials then
    let pw := config.panel_width_mm
    let ph := config.panel_height_mm
    let offset := config.rail_width_mm / 2
    [{ x := offset, y := offset }, { x := pw - offset, y := offset }, { x := offset, y := ph - offset }]
  else []

def generateToolingHoles (config : PanelConfig) : List ToolingHoleSpec :=
  if config.auto_tooling_holes then
    let pw := config.panel_width_mm
    let ph := config.panel_height_mm
    let offset := config.rail_width_mm / 2
    [{ x := offset, y := offset }, { x := pw - offset, y := offset }, { x := offset, y := ph - offset },
      { x := pw - offset, y := ph - offset }]
  else []

/-- What the loop over the board types carries. -/
structure Layout where
  placed_boards : List PlacedBoard := []
  v_scores : List VScoreLine := []
  tabs : List RouteTab := []
  cursor_x : ℚ
  total_board_area : ℚ := 0

/-- One round of the loop over the board types. -/
def Layout.add (config : PanelConfig) (layout : Layout) (bi : BoardInstance) : Layout :=
  let (boards, b_tabs, area) := placeSingleBoardItem bi layout.cursor_x config.rail_width_mm config.spacing_mm
    config.separation layout.placed_boards.length
  { placed_boards := layout.placed_boards ++ boards
    tabs := layout.tabs ++ b_tabs
    total_board_area := layout.total_board_area + area
    v_scores := layout.v_scores ++
      if config.separation = .vScore then
        createVScores bi layout.cursor_x config.rail_width_mm config.spacing_mm config.panel_width_mm
          config.panel_height_mm
      else []
    cursor_x := layout.cursor_x + bi.count_x * (bi.width_mm + config.spacing_mm) }

def generatePanel (config : PanelConfig) : PanelResult :=
  let layout := config.boards.foldl (Layout.add config) { cursor_x := config.rail_width_mm }
  let panel_area := config.panel_width_mm * config.panel_height_mm
  let util_pct := if 0 < panel_area then layout.total_board_area / panel_area * 100 else 0
  { config
    panel_width_mm := config.panel_width_mm
    panel_height_mm := config.panel_height_mm
    total_boards := layout.placed_boards.length
    placed_boards := layout.placed_boards
    v_scores := layout.v_scores
    tabs := layout.tabs
    fiducials := generateFiducials config
    tooling_holes := generateToolingHoles config
    utilization_pct := roundTo 2 util_pct }

end ZapTrace.Panel
