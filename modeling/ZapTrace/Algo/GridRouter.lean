import Mathlib.Data.Rat.Defs
import ZapTrace.Algo.ObstacleMap
import ZapTrace.Library.Dict
import ZapTrace.Library.Heap

/-!
# The grid router

Nets are planned one after the other on one obstacle map. A net's route points become grid positions,
a spanning tree of these is found, and each edge of the tree is routed by A* from the one position to
the other; the path is simplified to its corners, and each of its segments is reserved with the
clearance of the net. A net is planned on a copy of the map, which replaces the map when every edge is
routed.

The costs of the search are of any type `κ` with the operations the search uses; no law of arithmetic
is assumed, so the rounding of floating point numbers does not matter to what is proved without one.
Lengths on the board are rational numbers.
-/

namespace ZapTrace

/-! ## Numbers -/

/-- `round`: to the next integer, and to the even one from the middle. -/
def pyRound (q : ℚ) : ℤ :=
  if q - q.floor < 1 / 2 then q.floor
  else if 1 / 2 < q - q.floor then q.floor + 1
  else if q.floor % 2 = 0 then q.floor else q.floor + 1

/-- `int`: towards zero. -/
def pyInt (q : ℚ) : ℤ := if 0 ≤ q then q.floor else q.ceil

/-! ## The design, as far as the router reads it -/

inductive NetClass
  | signalLow | signalHigh | signalAnalog
  | powerLow | powerMed | powerHigh
  | ground | differential | rf
  deriving DecidableEq

structure NetClassRule where
  trace_width : ℚ
  clearance : ℚ

/-- The routing rules of the net classes. -/
structure KnowledgeBase where
  getRule : NetClass → NetClassRule

structure Pad where
  id : String
  position : ℚ × ℚ
  /-- The copper layers of the pad on a board with that many layers. -/
  copper_layers : ℤ → List ℤ

structure Footprint where
  courtyard : ℚ × ℚ
  pads : List Pad

structure Component where
  id : String
  ref : String
  /-- The footprint of the component, given or generated from its package. -/
  footprint_def : Option Footprint
  position : Option (ℚ × ℚ)

structure NetNode where
  component_ref : String
  pin_name : String

structure Net where
  id : String
  nodes : List NetNode

/-- A design. Its nets are a dictionary by net id. -/
structure RoutedDesign where
  components : List Component
  nets : List Net
  nets_nodup : (nets.map Net.id).Nodup
  /-- The classes that the classification has given to the nets. -/
  net_classes : Dict String NetClass
  /-- Width, height and copper layers of the board. -/
  width : ℚ
  height : ℚ
  layers : ℤ

/-- `get_net_class` of a classified design. -/
def getNetClass (design : RoutedDesign) (net_id : String) : NetClass :=
  (design.net_classes.get? net_id).getD NetClass.signalLow

/-- Where a pin is on its component: the pad of a pin, the point a track leaves the component at, and
a vector turned by an angle in degrees. -/
structure PinGeometry where
  padForPin : Component → String → Option Pad
  routePointForNode : Component → String → ℚ × ℚ → ℚ × ℚ
  rotatedOffset : ℚ → ℚ → ℚ → ℚ × ℚ

/-! ## Search -/

/-- The eight directions of a planar move. -/
def directions8 : List (ℤ × ℤ) :=
  [(0, 1), (0, -1), (1, 0), (-1, 0), (1, 1), (-1, 1), (1, -1), (-1, -1)]

/-- A node of the search. Of the nodes up its chain of parents only the positions are read. -/
structure Node (κ : Type) where
  pos : GridPos
  g : κ
  h : κ
  f : κ
  parents : List GridPos

/-- The positions from the start to a node. -/
def Node.reconstruct {κ : Type} (node : Node κ) : List GridPos := (node.pos :: node.parents).reverse

def Node.previousDirection {κ : Type} (node : Node κ) : ℤ × ℤ :=
  match node.parents with
  | [] => (0, 0)
  | parent :: _ => (node.pos.x - parent.x, node.pos.y - parent.y)

structure GridRouter (κ : Type) where
  resolution : ℚ
  via_cost : κ
  turn_penalty : κ
  max_iterations : ℤ
  pad_aware : Bool
  /-- The constant `SQRT2` among the costs. -/
  sqrt2 : κ

/-- The position one planar step away. -/
def GridPos.move (pos : GridPos) (d : ℤ × ℤ) : GridPos := ⟨pos.x + d.1, pos.y + d.2, pos.layer⟩

/-- A planar step is open: the corridor of the cell it leads to is free, and for a diagonal step the
corridors of the two cells it passes by. -/
def ObstacleMap.isStepFree (obs : ObstacleMap) (pos : GridPos) (d : ℤ × ℤ) (net_id : Option String)
    (clear_cells : ℤ) : Bool :=
  obs.isCorridorFree (pos.move d) net_id clear_cells &&
    (decide (d.1 = 0) || decide (d.2 = 0) ||
      (obs.isCorridorFree (pos.move (d.1, 0)) net_id clear_cells &&
        obs.isCorridorFree (pos.move (0, d.2)) net_id clear_cells))

/-- The search for the free cell next to a position, as a queue of positions with their distances. -/
def nearestFreeFrom (obs : ObstacleMap) (max_radius : ℤ) (net_id : Option String) :
    ℕ → List (GridPos × ℤ) → List GridPos → Option GridPos
  | 0, _, _ => none
  | _ + 1, [], _ => none
  | fuel + 1, (current, dist) :: q, visited =>
    if obs.isFree current net_id then some current
    else if dist ≥ max_radius then nearestFreeFrom obs max_radius net_id fuel q visited
    else
      let next := directions8.foldl (fun (acc : List (GridPos × ℤ) × List GridPos) d =>
        if obs.inBounds (current.move d) ∧ current.move d ∉ acc.2 then
          (acc.1 ++ [(current.move d, dist + 1)], current.move d :: acc.2)
        else acc) (q, visited)
      nearestFreeFrom obs max_radius net_id fuel next.1 next.2

/-- `_nearest_free` with its radius of 48 cells; no position is in the queue twice. -/
def nearestFree (obs : ObstacleMap) (pos : GridPos) (net_id : Option String) : Option GridPos :=
  nearestFreeFrom obs 48 net_id ((obs.width * obs.height).toNat + 2) [(pos, 0)] [pos]

/-- An end of a path: the position when it is free, else a free cell next to it unless another net has
the position. -/
def resolveAstarEndpoint (obs : ObstacleMap) (position : GridPos) (net_id : Option String) :
    Option GridPos :=
  if obs.isFree position net_id then some position
  else if obs.owner position ≠ none ∧ obs.owner position ≠ net_id then none
  else nearestFree obs position net_id

section Search

variable {κ : Type} [Zero κ] [One κ] [Add κ] [Sub κ] [Mul κ] [IntCast κ] [LT κ] [DecidableLT κ]

/-- Nodes are ordered by `f`. -/
def Node.lt (a b : Node κ) : Bool := decide (a.f < b.f)

def octile (sqrt2 : κ) (a b : GridPos) (via_cost : κ) : κ :=
  ((max |a.x - b.x| |a.y - b.y| : ℤ) : κ) + (sqrt2 - 1) * ((min |a.x - b.x| |a.y - b.y| : ℤ) : κ) +
    ((|a.layer - b.layer| : ℤ) : κ) * via_cost

namespace GridRouter

variable (router : GridRouter κ)

/-- The cost of a planar step, as the table of directions has it. -/
def moveCost (d : ℤ × ℤ) : κ := if d.1 ≠ 0 ∧ d.2 ≠ 0 then router.sqrt2 else 1

/-- The node of a position reached from `current` at the cost `cost`. -/
def child (current : Node κ) (goal position : GridPos) (cost : κ) : Node κ :=
  let heuristic := octile router.sqrt2 position goal router.via_cost
  ⟨position, cost, heuristic, cost + heuristic, current.pos :: current.parents⟩

def pushPlanarNeighbors (open_set : List (Node κ)) (closed : List GridPos) (obs : ObstacleMap)
    (current : Node κ) (goal : GridPos) (net_id : Option String) (clear_cells : ℤ) : List (Node κ) :=
  directions8.foldl (fun open_set d =>
    if ¬ obs.isStepFree current.pos d net_id clear_cells then open_set
    else if current.pos.move d ∈ closed then open_set
    else
      let turn := if d ≠ current.previousDirection then router.turn_penalty else 0
      Heap.push Node.lt open_set
        (router.child current goal (current.pos.move d) (current.g + router.moveCost d + turn))) open_set

def pushViaNeighbors (open_set : List (Node κ)) (closed : List GridPos) (obs : ObstacleMap)
    (current : Node κ) (goal : GridPos) (net_id : Option String) : List (Node κ) :=
  [-1, 1].foldl (fun open_set (layer_delta : ℤ) =>
    let position : GridPos := ⟨current.pos.x, current.pos.y, current.pos.layer + layer_delta⟩
    if ¬ (0 ≤ position.layer ∧ position.layer < obs.layers) then open_set
    else if ¬ obs.isFree position net_id then open_set
    else if position ∈ closed then open_set
    else
      Heap.push Node.lt open_set (router.child current goal position (current.g + router.via_cost)))
    open_set

/-- The loop of the search, for a number of iterations. -/
def searchFrom (obs : ObstacleMap) (goal : GridPos) (net_id : Option String) (clear_cells : ℤ) :
    ℕ → List (Node κ) → List GridPos → Option (List GridPos)
  | 0, _, _ => none
  | iterations + 1, open_set, closed =>
    match Heap.pop Node.lt open_set with
    | none => none
    | some (current, open_set) =>
      if current.pos ∈ closed then searchFrom obs goal net_id clear_cells iterations open_set closed
      else if current.pos = goal then some current.reconstruct
      else
        let planar := router.pushPlanarNeighbors open_set (current.pos :: closed) obs current goal
          net_id clear_cells
        searchFrom obs goal net_id clear_cells iterations
          (if router.pad_aware then planar
            else router.pushViaNeighbors planar (current.pos :: closed) obs current goal net_id)
          (current.pos :: closed)

def startNode (start goal : GridPos) : Node κ :=
  let h := octile router.sqrt2 start goal router.via_cost
  ⟨start, 0, h, 0 + h, []⟩

def astar (obs : ObstacleMap) (start goal : GridPos) (net_id : Option String) (clear_cells : ℤ) :
    Option (List GridPos) :=
  if router.pad_aware ∧ (¬ obs.isFree start net_id ∨ ¬ obs.isFree goal net_id) then none
  else
    (resolveAstarEndpoint obs start net_id).bind fun resolved_start =>
      (resolveAstarEndpoint obs goal net_id).bind fun resolved_goal =>
        router.searchFrom obs resolved_goal net_id clear_cells router.max_iterations.toNat
          (Heap.push Node.lt [] (router.startNode resolved_start resolved_goal)) []

end GridRouter

end Search

/-! ## Simplification -/

/-- Three positions of a path go on in one direction on one layer. -/
def isCollinear (prev cur nxt : GridPos) : Bool :=
  decide (cur.layer = prev.layer ∧ prev.layer = nxt.layer ∧
    (cur.x - prev.x) * (nxt.y - cur.y) = (nxt.x - cur.x) * (cur.y - prev.y))

/-- The inner positions of a path that stay. -/
def innerCorners : List GridPos → List GridPos
  | prev :: cur :: nxt :: rest =>
    if isCollinear prev cur nxt then innerCorners (cur :: nxt :: rest)
    else cur :: innerCorners (cur :: nxt :: rest)
  | _ => []

def simplifyPath (path : List GridPos) : List GridPos :=
  if path.length ≤ 2 then path
  else path.head?.toList ++ innerCorners path ++ path.getLast?.toList

/-- The pairs of consecutive positions. -/
def segments : List GridPos → List (GridPos × GridPos)
  | p :: q :: rest => (p, q) :: segments (q :: rest)
  | _ => []

/-! ## Spanning tree -/

def manhattanDist (a b : ℤ × ℤ) : ℤ := |a.1 - b.1| + |a.2 - b.2|

/-- The first of the shortest edges from a point in the tree to a point that is not. -/
def nearestMstEdge (points : List (ℤ × ℤ)) (in_mst : List Bool) : Option (ℕ × ℕ) :=
  let marked := (points.zip in_mst).zipIdx
  let candidates := (marked.filter fun source => source.1.2).flatMap fun source =>
    (marked.filter fun target => !target.1.2).map fun target =>
      (manhattanDist source.1.1 target.1.1, source.2, target.2)
  (candidates.foldl (fun (best : Option (ℤ × ℕ × ℕ)) candidate =>
    match best with
    | none => some candidate
    | some b => if candidate.1 < b.1 then some candidate else some b) none).map Prod.snd

/-- The rounds of Prim's algorithm. -/
def mstEdges (points : List (ℤ × ℤ)) : ℕ → List Bool → List (ℕ × ℕ)
  | 0, _ => []
  | rounds + 1, in_mst =>
    match nearestMstEdge points in_mst with
    | none => []
    | some edge => edge :: mstEdges points rounds (in_mst.set edge.2 true)

def mst (points : List (ℤ × ℤ)) : List (ℕ × ℕ) :=
  if points.length < 2 then []
  else mstEdges points (points.length - 1) ((List.replicate points.length false).set 0 true)

/-! ## Planning -/

/-- The map and what a net is planned with. -/
structure GridRouteContext where
  obstacles : ObstacleMap
  grid_w : ℤ
  grid_h : ℤ
  num_layers : ℤ
  ref_positions : Dict String (ℚ × ℚ)
  component_by_ref : Dict String Component
  rotation_by_ref : Dict String ℚ

structure GridNetPlan where
  routable : Bool
  success : Bool
  net_id : String
  width_mm : ℚ
  edge_paths : List (List GridPos)

/-- The layer of a net class, `-1` for nets that are not routed. -/
def layerForNetClass (net_class : NetClass) (num_layers : ℤ) : ℤ :=
  match net_class with
  | .powerHigh | .powerMed | .powerLow => 0
  | .ground => -1
  | .signalAnalog => 0
  | .signalHigh | .rf | .differential => if num_layers ≥ 4 then 1 else max 0 (num_layers - 1)
  | .signalLow => max 0 (num_layers - 1)

/-- The net takes the cells around an endpoint that are not on the edge of the board. -/
def unblockEndpoint (obs : ObstacleMap) (pos : GridPos) (radius : ℤ) :
    Option String → ObstacleMap
  | none => (window pos radius).foldl (fun obs probe =>
      if (0 < probe.x ∧ probe.x < obs.width - 1) ∧ 0 < probe.y ∧ probe.y < obs.height - 1 then
        obs.unblock probe
      else obs) obs
  | some net_id => (window pos radius).foldl (fun obs probe =>
      if (0 < probe.x ∧ probe.x < obs.width - 1) ∧ 0 < probe.y ∧ probe.y < obs.height - 1 then
        obs.openForNet probe net_id
      else obs) obs

/-- The segments of a path are reserved one after the other. -/
def reservePath (net_id : String) (clear_cells : ℤ) :
    List (GridPos × GridPos) → ObstacleMap → Except String ObstacleMap
  | [], obs => Except.ok obs
  | (first, second) :: rest, obs =>
    match obs.blockLine first second clear_cells (some net_id) with
    | .error e => Except.error e
    | .ok obs' => reservePath net_id clear_cells rest obs'

/-- `_pad_for_pin` of a node, when its component is known. -/
def padOfNode (pins : PinGeometry) (context : GridRouteContext) (node : NetNode) : Option Pad :=
  (context.component_by_ref.get? node.component_ref).bind fun comp =>
    pins.padForPin comp node.pin_name

namespace GridRouter

variable {κ : Type} [Zero κ] [One κ] [Add κ] [Sub κ] [Mul κ] [IntCast κ] [LT κ] [DecidableLT κ]
variable (router : GridRouter κ) (kb : KnowledgeBase) (pins : PinGeometry) (design : RoutedDesign)
  (positions : Dict String (ℚ × ℚ))

def toGridPoint (point : ℚ × ℚ) (context : GridRouteContext) : ℤ × ℤ :=
  (max 1 (min (context.grid_w - 2) (pyRound (point.1 / router.resolution))),
    max 1 (min (context.grid_h - 2) (pyRound (point.2 / router.resolution))))

def collectNetRoutePoints (net : Net) (context : GridRouteContext) : List (ℚ × ℚ) :=
  net.nodes.filterMap fun node =>
    match context.component_by_ref.get? node.component_ref,
      context.ref_positions.get? node.component_ref with
    | some component, some component_position =>
      if router.pad_aware then
        match pins.padForPin component node.pin_name, component.footprint_def with
        | some pad, some _ =>
          let d := pins.rotatedOffset pad.position.1 pad.position.2
            ((context.rotation_by_ref.get? node.component_ref).getD 0)
          some (component_position.1 + d.1, component_position.2 + d.2)
        | _, _ => none
      else some (pins.routePointForNode component node.pin_name component_position)
    | _, _ => none

/-- The edges of the spanning tree are routed one after the other on the map of the plan. -/
def routeMstPaths (grid_positions : List (ℤ × ℤ)) (layer clear_cells : ℤ) (net_id : String) :
    List (ℕ × ℕ) → ObstacleMap → Option (List (List GridPos) × ObstacleMap)
  | [], obs => some ([], obs)
  | (first, second) :: edges, obs =>
    match grid_positions[first]?, grid_positions[second]? with
    | some p, some q =>
      match router.astar obs ⟨p.1, p.2, layer⟩ ⟨q.1, q.2, layer⟩ (some net_id)
          (if router.pad_aware then clear_cells else 0) with
      | none | some [] => none
      | some (cell :: path) =>
        match reservePath net_id clear_cells (segments (simplifyPath (cell :: path))) obs with
        | .error _ => none
        | .ok obs' =>
          (routeMstPaths grid_positions layer clear_cells net_id edges obs').map fun rest =>
            (simplifyPath (cell :: path) :: rest.1, rest.2)
    | _, _ => none

def clearCells (net_id : String) : ℤ :=
  max ((kb.getRule (getNetClass design net_id)).clearance / router.resolution).ceil 1

/-- The layers on which every pad of the net has copper, when every node has a pad. -/
def accessibleLayers (net : Net) (context : GridRouteContext) : Option (List ℤ) :=
  net.nodes.foldl (fun accessible node =>
    accessible.bind fun layers => (padOfNode pins context node).map fun pad =>
      layers.filter fun layer => decide (layer ∈ pad.copper_layers context.num_layers))
    (some (intRange 0 context.num_layers))

/-- The layer a net with route points is planned on, unless it cannot be connected there exactly. -/
def planLayer (net : Net) (layer : ℤ) (route_points : List (ℚ × ℚ)) (grid_positions : List (ℤ × ℤ))
    (context : GridRouteContext) : Option ℤ :=
  if ¬ router.pad_aware then some layer
  else if route_points.length ≠ net.nodes.length ∨
      (route_points.zip grid_positions).any fun pg =>
        decide (|pg.1.1 - pg.2.1 * router.resolution| > 1 / 1000000 ∨
          |pg.1.2 - pg.2.2 * router.resolution| > 1 / 1000000) then none
  else
    match accessibleLayers pins net context with
    | none => none
    | some accessible =>
      if layer ∈ accessible then some layer else accessible.min?

def planGridNet (net : Net) (context : GridRouteContext) : GridNetPlan × GridRouteContext :=
  let layer := layerForNetClass (getNetClass design net.id) context.num_layers
  let route_points := collectNetRoutePoints router pins net context
  let grid_positions := route_points.map fun point => router.toGridPoint point context
  if layer < 0 then (⟨false, false, net.id, 0, []⟩, context)
  else if route_points.length < 2 then
    (⟨router.pad_aware && decide (2 ≤ net.nodes.length), false, net.id, 0, []⟩, context)
  else
    match planLayer router pins net layer route_points grid_positions context with
    | none => (⟨true, false, net.id, 0, []⟩, context)
    | some layer =>
      let clear_cells := clearCells router kb design net.id
      let width := (kb.getRule (getNetClass design net.id)).trace_width
      -- the net is planned on a copy of the map
      let staged :=
        if router.pad_aware then context.obstacles
        else grid_positions.foldl (fun obs g =>
          unblockEndpoint obs ⟨g.1, g.2, layer⟩ (max clear_cells 1) (some net.id)) context.obstacles
      match router.routeMstPaths grid_positions layer clear_cells net.id (mst grid_positions) staged with
      | none => (⟨true, false, net.id, width, []⟩, context)
      | some (edge_paths, staged) =>
        (⟨true, true, net.id, width, edge_paths⟩, { context with obstacles := staged })

/-! ## The map of a design -/

def blockBoardEdges (obs : ObstacleMap) (gw gh : ℤ) (n_layers : ℤ) : ObstacleMap :=
  (intRange 0 n_layers).foldl (fun obs lyr =>
    (((obs.blockRect 0 0 (gw - 1) 0 lyr).blockRect 0 (gh - 1) (gw - 1) (gh - 1) lyr).blockRect
      0 0 0 (gh - 1) lyr).blockRect (gw - 1) 0 (gw - 1) (gh - 1) lyr) obs

/-- The courtyards of the placed components are blocked on every layer. -/
def blockComponents (obs : ObstacleMap) : ObstacleMap :=
  design.components.foldl (fun obs comp =>
    match (positions.get? comp.id).or (positions.get? comp.ref), comp.footprint_def with
    | some pos, some fp =>
      if fp.courtyard = (0, 0) then obs
      else
        let gx0 := max 1 (pyInt ((pos.1 - fp.courtyard.1 / 2) / router.resolution))
        let gy0 := max 1 (pyInt ((pos.2 - fp.courtyard.2 / 2) / router.resolution))
        let gx1 := min (obs.width - 2) (pyInt ((pos.1 + fp.courtyard.1 / 2) / router.resolution))
        let gy1 := min (obs.height - 2) (pyInt ((pos.2 + fp.courtyard.2 / 2) / router.resolution))
        (intRange 0 obs.layers).foldl (fun obs layer => obs.blockRect gx0 gy0 gx1 gy1 layer) obs
    | _, _ => obs) obs

/-- The positions of the components: of the placement by id, by ref, and else of the component. -/
def refPositions : Dict String (ℚ × ℚ) :=
  design.components.foldl (fun ref_positions comp =>
    match (positions.get? comp.ref).or (positions.get? comp.id) with
    | some pos => ref_positions.set comp.ref pos
    | none =>
      match comp.position, ref_positions.get? comp.ref with
      | some pos, none => ref_positions.set comp.ref pos
      | _, _ => ref_positions) Dict.empty

/-- The context of a design without pad copper, that is with `pad_aware = false`. -/
def prepareRouteContext : GridRouteContext :=
  let num_layers := max design.layers 1
  let grid_w := max (design.width / router.resolution).ceil 1
  let grid_h := max (design.height / router.resolution).ceil 1
  { obstacles := blockComponents router design positions
      (blockBoardEdges (ObstacleMap.empty grid_w grid_h num_layers) grid_w grid_h num_layers)
    grid_w := grid_w
    grid_h := grid_h
    num_layers := num_layers
    ref_positions := refPositions design positions
    component_by_ref :=
      design.components.foldl (fun d comp => d.set comp.ref comp) Dict.empty
    rotation_by_ref := Dict.empty }

/-! ## A run over a list of nets -/

/-- The plans of the nets that are routed, from which the traces and vias are made, and the others. -/
structure RouteState where
  routed : List GridNetPlan
  unsuccessful : List String
  total_routable : ℕ

/-- The next net of the list. -/
def routeNet (s : GridRouteContext × RouteState) (net : Net) : GridRouteContext × RouteState :=
  match planGridNet router kb pins design net s.1 with
  | (plan, context) =>
    if ¬ plan.routable then (context, s.2)
    else if ¬ plan.success then
      (context, { s.2 with
        total_routable := s.2.total_routable + 1
        unsuccessful := s.2.unsuccessful ++ [net.id] })
    else
      (context, { s.2 with
        total_routable := s.2.total_routable + 1
        routed := s.2.routed ++ [plan] })

/-- Nets are planned in the order given, each on the map the ones before it leave. -/
def routeOrderedNets (nets : List Net) : GridRouteContext × RouteState :=
  nets.foldl (routeNet router kb pins design)
    (prepareRouteContext router design positions, ⟨[], [], 0⟩)

end GridRouter

end ZapTrace
