import Mathlib.Data.List.DropRight
import ZapTrace.Algo.GridRouter
import ZapTrace.Core.Schema
import ZapTrace.Library.Bresenham
import ZapTrace.Library.Flood
import ZapTrace.Library.PyValue
import ZapTrace.Library.RayCast

/-!
# Copper pours

A pour covers what is left free on a grid over the board. Cells outside of the outline of the board are blocked, and
cells in cutouts, around mounting holes, in the keepouts of components and near the traces of the layer. The free cells
that the middle of the grid leads to are the pour, or all free cells when the middle is blocked. The area that comes of
it is one polygon, the walk around the pour from its first cell; the area has no cutouts.

Lengths are rational numbers, and a grid says of each cell whether it is blocked.
-/

namespace ZapTrace.CopperPour

open RayCast (Cell edges)

/-- A point on the board, in millimetres. -/
abbrev Point := ℚ × ℚ

/-- `round` to a number of digits. -/
def roundTo (digits : ℕ) (q : ℚ) : ℚ := pyRound (q * 10 ^ digits) / 10 ^ digits

/-- `_DEFAULT_RESOLUTION`: millimetres for a cell -/
def defaultResolution : ℚ := 1 / 4

/-! ## Grid helpers -/

/-- Cells by column and row. Only those of the width and height are read. -/
structure Grid where
  width : ℕ
  height : ℕ
  blocked : Cell → Bool

def Grid.Has (grid : Grid) (c : Cell) : Prop := 0 ≤ c.1 ∧ c.1 < grid.width ∧ 0 ≤ c.2 ∧ c.2 < grid.height

instance (grid : Grid) (c : Cell) : Decidable (grid.Has c) := inferInstanceAs (Decidable (_ ∧ _ ∧ _ ∧ _))

def Grid.Free (grid : Grid) (c : Cell) : Prop := grid.Has c ∧ grid.blocked c = false

instance (grid : Grid) (c : Cell) : Decidable (grid.Free c) := inferInstanceAs (Decidable (_ ∧ _))

/-- The cells row by row. -/
def Grid.cells (grid : Grid) : List Cell :=
  (List.range grid.height).flatMap fun y : ℕ => (List.range grid.width).map fun x : ℕ => ((x : ℤ), (y : ℤ))

/-- A loop over the cells that blocks some more of them. -/
def Grid.block (grid : Grid) (marked : Cell → Bool) : Grid :=
  { grid with blocked := fun c => grid.blocked c || marked c }

def gridToMm (res : ℚ) (pt : Cell) : Point := (roundTo 3 (pt.1 * res), roundTo 3 (pt.2 * res))

/-- The cell of a point, as far as the place of a hole, a trace or a pad goes. -/
def gridPoint (res : ℚ) (point : Point) : Cell := (pyRound (point.1 / res), pyRound (point.2 / res))

/-- The ray from `(x, y)` to the right crosses an edge. -/
def rayCrosses (x y : ℚ) (edge : Point × Point) : Bool :=
  let (xi, yi) := edge.1
  let (xj, yj) := edge.2
  (decide (yi > y) != decide (yj > y)) && decide (x < (xj - xi) * (y - yi) / (yj - yi) + xi)

/-- Ray-casting point-in-polygon test. -/
def inPolygon (pt : Cell) (poly : List Point) (res : ℚ) : Bool :=
  (edges poly).foldl (fun inside edge => if rayCrosses (pt.1 * res) (pt.2 * res) edge then !inside else inside) false

/-! ## Obstacle helpers -/

def box (x y half_width half_height : ℚ) : List Point :=
  [(x - half_width, y - half_height), (x + half_width, y - half_height), (x + half_width, y + half_height),
    (x - half_width, y + half_height)]

/-- The courtyard of the footprint, or a box of 10 by 10 mm, with the clearance around it. -/
def componentKeepout (comp : Schema.Component) (position : Option Point) (clearance : ℚ) : List Point :=
  let pos := position.getD (0, 0)
  match comp.footprint_def with
  | some footprint =>
    let (cw, ch) := footprint.courtyard
    let (ox, oy) := pos
    [(ox - cw / 2 - clearance, oy - ch / 2 - clearance), (ox + cw / 2 + clearance, oy - ch / 2 - clearance),
      (ox + cw / 2 + clearance, oy + ch / 2 + clearance), (ox - cw / 2 - clearance, oy + ch / 2 + clearance)]
  | none => box pos.1 pos.2 (5 + clearance) (5 + clearance)

/-- The board of a design: its definition, or the legacy configuration. -/
abbrev Board := Schema.BoardDefinition ⊕ Schema.BoardConfig

def boardOf (design : Schema.Design) : Board :=
  match design.board_def with
  | some board_def => .inl board_def
  | none => .inr design.board

def Board.width : Board → ℚ
  | .inl board => board.width
  | .inr board => board.width_mm

def Board.height : Board → ℚ
  | .inl board => board.height
  | .inr board => board.height_mm

/-- The outline of the board if it has one, or the rectangle of its width and height. -/
def boardOutlinePoints (board : Board) : List Point :=
  let rectangle := [(0, 0), (board.width, 0), (board.width, board.height), (0, board.height)]
  match board with
  | .inl board => if board.outline ≠ [] then board.outline else rectangle
  | .inr _ => rectangle

section Generator

variable (res : ℚ)

def gridSize (board : Board) : ℕ × ℕ :=
  ((max (board.width / res).ceil 1).toNat, (max (board.height / res).ceil 1).toNat)

/-! ## Grid blocking -/

def blockOutsideBoard (outline : List Point) (grid : Grid) : Grid :=
  if outline = [] then grid else grid.block fun c => !inPolygon c outline res

/-- Block all cells inside a polygon, looking within its bounding box only. -/
def blockPolygon (polygon : List Point) (grid : Grid) : Grid :=
  if polygon = [] then grid
  else
    let xs := polygon.map Prod.fst
    let ys := polygon.map Prod.snd
    let min_x := max 0 ((xs.min?.getD 0) / res).floor
    let max_x := min (grid.width - 1 : ℤ) ((xs.max?.getD 0) / res).ceil
    let min_y := max 0 ((ys.min?.getD 0) / res).floor
    let max_y := min (grid.height - 1 : ℤ) ((ys.max?.getD 0) / res).ceil
    grid.block fun c =>
      decide (min_x ≤ c.1 ∧ c.1 ≤ max_x ∧ min_y ≤ c.2 ∧ c.2 ≤ max_y) && inPolygon c polygon res

def blockCircle (cx cy radius : ℤ) (grid : Grid) : Grid :=
  grid.block fun c =>
    let dx := c.1 - cx
    let dy := c.2 - cy
    decide ((-radius ≤ dy ∧ dy ≤ radius) ∧ (-radius ≤ dx ∧ dx ≤ radius) ∧ dx * dx + dy * dy ≤ radius * radius)

def blockMountingHole (mounting_hole : Schema.MountingHole) (grid : Grid) : Grid :=
  let radius := ((mounting_hole.diameter / 2 + 0.2) / res).ceil
  let centre := gridPoint res mounting_hole.position
  blockCircle centre.1 centre.2 radius grid

/-- The cutouts and the mounting holes. A legacy configuration has none. -/
def blockBoardHoles (board : Board) (grid : Grid) : Grid :=
  match board with
  | .inr _ => grid
  | .inl board =>
    let grid := board.cutouts.foldl (fun grid cutout => blockPolygon res cutout grid) grid
    board.mounting_holes.foldl (fun grid mounting_hole => blockMountingHole res mounting_hole grid) grid

def blockBoardFeatures (board : Board) (grid : Grid) : Grid :=
  blockBoardHoles res board (blockOutsideBoard res (boardOutlinePoints board) grid)

/-- A function that gives the keepout of a component in place of the default. -/
abbrev KeepoutFn := Schema.Component → Option Point → List Point

/-- `positions.get(component.id) or positions.get(component.ref)` -/
def positionOf (positions : Dict String Point) (component : Schema.Component) : Option Point :=
  positions.get? component.id <|> positions.get? component.ref

def keepoutOf (positions : Dict String Point) (component_clearance : ℚ) (keepout_fn : Option KeepoutFn)
    (component : Schema.Component) : List Point :=
  let position := positionOf positions component
  match keepout_fn with
  | some keepout_fn => keepout_fn component position
  | none => componentKeepout component position component_clearance

def blockComponentKeepouts (design : Schema.Design) (positions : Dict String Point) (component_clearance : ℚ)
    (keepout_fn : Option KeepoutFn) (grid : Grid) : Grid :=
  design.components.values.foldl
    (fun grid component => blockPolygon res (keepoutOf positions component_clearance keepout_fn component) grid) grid

def blockRadiusAt (radius : ℤ) (grid : Grid) (centre : Cell) : Grid :=
  grid.block fun c =>
    decide ((-radius ≤ c.2 - centre.2 ∧ c.2 - centre.2 ≤ radius) ∧ -radius ≤ c.1 - centre.1 ∧ c.1 - centre.1 ≤ radius)

def blockLine (start stop : Cell) (radius : ℤ) (grid : Grid) : Grid :=
  (Bresenham.line start.1 start.2 stop.1 stop.2).foldl (blockRadiusAt radius) grid

def blockTrace (layer : String) (grid : Grid) (seg : Schema.TraceSegment) : Grid :=
  if seg.layer ≠ layer then grid
  else
    let half_cells := max (0.15 / res).ceil 1
    let w2 := (seg.width / res / 2).ceil
    blockLine (gridPoint res seg.start) (gridPoint res seg.end) (max w2 half_cells) grid

def blockTraces (design : Schema.Design) (layer : String) (grid : Grid) : Grid :=
  match design.routing with
  | none => grid
  | some routing => routing.traces.foldl (blockTrace res layer) grid

def emptyGrid (board : Board) : Grid where
  width := (gridSize res board).1
  height := (gridSize res board).2
  blocked _ := false

def preparePourGrid (design : Schema.Design) (positions : Dict String Point) (layer : String)
    (component_clearance : ℚ) (keepout_fn : Option KeepoutFn) : Grid :=
  let board := boardOf design
  let grid := blockBoardFeatures res board (emptyGrid res board)
  let grid := blockComponentKeepouts res design positions component_clearance keepout_fn grid
  blockTraces res design layer grid

/-! ## Flood fill -/

def aroundCell (point : Cell) : List Cell :=
  [(-1, 0), (1, 0), (0, -1), (0, 1), (-1, -1), (-1, 1), (1, -1), (1, 1)].map fun d : Cell =>
    (point.1 + d.1, point.2 + d.2)

def freeNeighbors (grid : Grid) (point : Cell) : List Cell := (aroundCell point).filter fun c => grid.Free c

/-- Breadth first from a seed, over free cells. -/
def floodFill (grid : Grid) (seed : Cell) : List Cell :=
  if grid.Free seed then Flood.flood (freeNeighbors grid) (grid.width * grid.height) seed else []

def fillAllFreeCells (grid : Grid) : List Cell := grid.cells.filter fun c => grid.Free c

def Grid.centre (grid : Grid) : Cell := ((grid.width / 2 : ℕ), (grid.height / 2 : ℕ))

def filledPourCells (grid : Grid) : List Cell :=
  let filled := floodFill grid grid.centre
  if filled ≠ [] then filled else fillAllFreeCells grid

/-! ## Outline tracing -/

/-- The cell around another in each of eight directions, clockwise from the right. -/
def mooreCell (current : Cell) (idx : ℕ) : Cell :=
  let d := [(1, 0), (1, 1), (0, 1), (-1, 1), (-1, 0), (-1, -1), (0, -1), (1, -1)].getD idx ((0, 0) : Cell)
  (current.1 + d.1, current.2 + d.2)

/-- The first filled cell around the current one, clockwise from the direction of the cell before it. -/
def nextOutlineCell (filled : List Cell) (current : Cell) (prev_dir : ℕ) : Option (Cell × ℕ) :=
  (List.range 8).findSome? fun offset =>
    let idx := (prev_dir + 1 + offset) % 8
    if mooreCell current idx ∈ filled then some (mooreCell current idx, (idx + 4) % 8) else none

/-- The walk from a cell, until it is on the start again or has made a number of steps. -/
def walkOutline (filled : List Cell) (start : Cell) : ℕ → Cell → ℕ → List Cell
  | 0, _, _ => []
  | steps + 1, current, prev_dir =>
    match nextOutlineCell filled current prev_dir with
    | none => []
    | some (nb, prev_dir) => nb :: if nb = start then [] else walkOutline filled start steps nb prev_dir

/-- The top-leftmost of the cells. -/
def firstCell (start : Cell) (filled : List Cell) : Cell :=
  filled.foldl (fun first p => if p.2 < first.2 ∨ (p.2 = first.2 ∧ p.1 < first.1) then p else first) start

/-- The cells of the walk around the pour, without the start at its end. -/
def outlineCells (filled : List Cell) (gw gh : ℕ) : List Cell :=
  match filled with
  | [] => []
  | p :: ps =>
    let start := firstCell p ps
    start :: (walkOutline filled start (gw * gh) start 7).rdropWhile (· = start)

def traceOutline (filled : List Cell) (gw gh : ℕ) : List Point := (outlineCells filled gw gh).map (gridToMm res)

/-! ## Thermal reliefs -/

/-- How Python reads the names of pads and pins. -/
structure Words where
  lower : String → String
  isDigits : String → Bool

/-- The reliefs so far, and the places seen. -/
structure Reliefs where
  reliefs : List Schema.ThermalRelief := []
  seen : List Point := []

def addRelief (filled : List Cell) (key place : Point) (pad_diameter : ℚ) (state : Reliefs) : Reliefs :=
  if key ∈ state.seen then state
  else
    { reliefs :=
        if gridPoint res place ∈ filled then
          state.reliefs ++ [{ pad_position := place, pad_diameter := pad_diameter }]
        else state.reliefs
      seen := state.seen ++ [key] }

/-- Reliefs only for routing vias with explicit matching net identity. -/
def routingViaReliefs (design : Schema.Design) (filled : List Cell) (net_id : String) (state : Reliefs) : Reliefs :=
  match design.routing with
  | none => state
  | some routing =>
    routing.vias.foldl
      (fun state via =>
        match via with
        | .four .. => state
        | .five x y pad_diameter _ net =>
          if net ≠ net_id then state
          else addRelief res filled (roundTo 2 x, roundTo 2 y) (x, y) pad_diameter state)
      state

def thermalReliefForPad (position : Point) (pad : Schema.Pad) (filled : List Cell) (state : Reliefs) : Reliefs :=
  let place := (roundTo 3 (position.1 + pad.position.1), roundTo 3 (position.2 + pad.position.2))
  addRelief res filled place place (max pad.size.1 pad.size.2) state

def logicalPinAliases (words : Words) (pin_name : String) : List String :=
  let raw := words.lower (pyStrip pin_name)
  let number := (raw.drop 1).toString
  raw :: ((if raw.startsWith "p" ∧ words.isDigits number then [number] else []) ++
    if words.isDigits raw then ["p" ++ raw] else [])

def netById (design : Schema.Design) (net_id : String) : Option Schema.Net :=
  match (design.nets.get? net_id).filter fun net => net.id = net_id with
  | some direct => some direct
  | none => design.nets.values.find? fun net => net.id = net_id

def physicalPadIdsForNet (words : Words) (design : Schema.Design) (component : Schema.Component) (net_id : String) :
    List String :=
  match netById design net_id, component.footprint_def with
  | some net, some footprint =>
    let logical_aliases := net.nodes.flatMap fun node =>
      if node.component_ref = component.id ∨ node.component_ref = component.ref then
        logicalPinAliases words node.pin_name
      else []
    let shared := fun name => (logicalPinAliases words name).any (· ∈ logical_aliases)
    if component.package_pin_map.items ≠ [] then
      (component.package_pin_map.items.filter fun (_, logical_pin) => shared logical_pin).map Prod.fst
    else (footprint.pads.map Schema.Pad.id).filter shared
  | _, _ => []

def componentPadReliefs (words : Words) (design : Schema.Design) (positions : Dict String Point) (filled : List Cell)
    (net_id : String) (state : Reliefs) : Reliefs :=
  design.components.values.foldl
    (fun state component =>
      match positionOf positions component, component.footprint_def with
      | some position, some footprint =>
        let allowed_pad_ids := (physicalPadIdsForNet words design component net_id).map words.lower
        (footprint.pads.filter fun pad => words.lower (pyStrip pad.id) ∈ allowed_pad_ids).foldl
          (fun state pad => thermalReliefForPad res position pad filled state) state
      | _, _ => state)
    state

/-- Thermal reliefs only for pads and vias proven to belong to the pour net. -/
def generateThermalReliefs (words : Words) (design : Schema.Design) (positions : Dict String Point)
    (filled : List Cell) (net_id : String) : List Schema.ThermalRelief :=
  (componentPadReliefs res words design positions filled net_id
    (routingViaReliefs res design filled net_id {})).reliefs

/-! ## Stitching vias -/

def occupiedStitchingPositions (design : Schema.Design) (positions : Dict String Point) : List Point :=
  design.components.values.filterMap fun comp =>
    (positionOf positions comp).map fun position => (roundTo 1 position.1, roundTo 1 position.2)

def isFillEdge (point : Cell) (filled : List Cell) : Bool :=
  [(-1, 0), (1, 0), (0, -1), (0, 1)].any fun d : Cell => (point.1 + d.1, point.2 + d.2) ∉ filled

/-- Every component is at least 3 mm away. -/
def isClearOfComponents (position : Point) (occupied : List Point) : Bool :=
  occupied.all fun component_position =>
    decide ((9 : ℚ) ≤ (position.1 - component_position.1) ^ 2 + (position.2 - component_position.2) ^ 2)

/-- The vias so far, the edge cells counted, and the count at the last via. -/
structure Stitches where
  vias : List Point := []
  count : ℤ := 0
  last_placed : ℤ

def addStitch (occupied : List Point) (step : ℤ) (filled : List Cell) (state : Stitches) (point : Cell) : Stitches :=
  if isFillEdge point filled = false then state
  else
    let count := state.count + 1
    let position := gridToMm res point
    if count - state.last_placed < step ∨ isClearOfComponents position occupied = false then
      { state with count := count }
    else { vias := state.vias ++ [position], count := count, last_placed := count }

/-- Vias near the pour boundary at regular intervals, avoiding component positions. -/
def generateStitchingVias (design : Schema.Design) (positions : Dict String Point) (filled : List Cell)
    (spacing : ℚ) : List Point :=
  let occupied := occupiedStitchingPositions design positions
  let step := max (pyRound (spacing / res)) 5
  let rows := filled.mergeSort fun a b => a.2 < b.2 ∨ (a.2 = b.2 ∧ a.1 ≤ b.1)
  (rows.foldl (addStitch res occupied step filled) { last_placed := -step }).vias

/-! ## The area -/

/-- What a pour is generated with. -/
structure Options where
  layer : String := "F.Cu"
  net_id : String := "GND"
  add_thermal_reliefs : Bool := true
  add_stitching_vias : Bool := true
  stitch_spacing : ℚ := 5
  component_clearance : ℚ := 3 / 10
  keepout_fn : Option KeepoutFn := none

def pourCells (design : Schema.Design) (positions : Dict String Point) (options : Options) : List Cell :=
  filledPourCells (preparePourGrid res design positions options.layer options.component_clearance options.keepout_fn)

def generateGroundPour (words : Words) (design : Schema.Design) (positions : Dict String Point) (options : Options) :
    Schema.CopperPourArea :=
  let grid := preparePourGrid res design positions options.layer options.component_clearance options.keepout_fn
  let filled := filledPourCells grid
  { layer := options.layer
    net_id := options.net_id
    polygon := traceOutline res filled grid.width grid.height
    thermal_reliefs :=
      if options.add_thermal_reliefs then generateThermalReliefs res words design positions filled options.net_id
      else []
    stitching_vias :=
      if options.add_stitching_vias then
        generateStitchingVias res design positions filled options.stitch_spacing
      else [] }

end Generator

end ZapTrace.CopperPour
