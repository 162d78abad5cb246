import ZapTrace.Algo.PadCopper
import ZapTrace.Core.Routing
import ZapTrace.Library.EvenOdd
import ZapTrace.Library.Lists

/-!
# The cells that the profile of a board blocks

Copper keeps away from the outline of the board, from its cutouts and from its mounting holes. A polygon is checked
before it is used: edges that are not next to each other must not meet. A cell is judged by its grid point, with half
of the diagonal of a cell added to the clearance.
-/

namespace ZapTrace.BoardKeepout

open Plane (Point InBox orient)
open scoped Plane
open EvenOdd (edges inside)
open Euclid (hypot)

structure BoardConstraints (K : Type) where
  min_trace_power : K
  min_clearance : K
  min_clearance_high_voltage : K
  default_trace_signal : K
  default_trace_power : K

structure BoardDefinition (K : Type) where
  width : K
  height : K
  outline : List (Point K) := []
  cutouts : List (List (Point K)) := []
  mounting_holes : List (Routing.MountingHole K) := []
  constraints : BoardConstraints K

variable {K : Type} [Field K] [LinearOrder K]

/-! ## Polygons -/

def segmentsIntersect (a b c d : Point K) : Prop :=
  let o1 := orient a b c
  let o2 := orient a b d
  let o3 := orient c d a
  let o4 := orient c d b
  (o1 * o2 < 0 ∧ o3 * o4 < 0) ∨
    (o1 = 0 ∧ InBox a c b) ∨ (o2 = 0 ∧ InBox a d b) ∨ (o3 = 0 ∧ InBox c a d) ∨ (o4 = 0 ∧ InBox c b d)

instance (a b c d : Point K) : Decidable (segmentsIntersect a b c d) :=
  inferInstanceAs (Decidable (_ ∨ _))

/-- Twice the area of a polygon, with a sign. -/
def area2 (poly : List (Point K)) : K := ((edges poly).map fun (a, b) => a.1 * b.2 - b.1 * a.2).sum

/-- A vertex, counted around. -/
def vertex (poly : List (Point K)) (i : ℕ) : Point K := poly.getD (i % poly.length) (0, 0)

/-- The polygon without a last vertex that is the first one again. -/
def opened (vertices : List (Point K)) : List (Point K) :=
  if vertices.head? = vertices.getLast? then vertices.dropLast else vertices

/-- An edge against a later one, unless they have a vertex in common. -/
def checkPair (poly : List (Point K)) (i j : ℕ) : Except String Unit :=
  if j = i + 1 ∨ (i = 0 ∧ j = poly.length - 1) then .ok ()
  else if segmentsIntersect (vertex poly i) (vertex poly (i + 1)) (vertex poly j) (vertex poly (j + 1)) then
    .error "Board polygon is self-intersecting"
  else .ok ()

/-- An edge, and all that come later. -/
def checkEdge (poly : List (Point K)) (i : ℕ) : Except String Unit :=
  if vertex poly i = vertex poly (i + 1) then .error "Board polygon has repeated adjacent vertices"
  else (List.range' (i + 1) (poly.length - (i + 1))).forM (checkPair poly i)

/-- `_check_polygon`; numbers are finite. -/
def checkPolygon (vertices : List (Point K)) : Except String (List (Point K)) :=
  if vertices.length < 3 then .error "Board polygon must have at least three finite vertices"
  else
    let poly := opened vertices
    if poly.length < 3 then .error "Board polygon has fewer than three unique vertices"
    else if |area2 poly| ≤ 1 / 10 ^ 9 then .error "Board polygon has zero enclosed area"
    else do
      (List.range poly.length).forM (checkEdge poly)
      pure poly

/-! ## Cells -/

variable (sqrt : K → K)

def distanceToSegment (point : Point K) (e : Point K × Point K) : Except String K :=
  let (a, b) := e
  let vx := b.1 - a.1
  let vy := b.2 - a.2
  let denominator := vx * vx + vy * vy
  if denominator ≤ 0 then .error "Board polygon includes a zero-length edge"
  else
    let t := max 0 (min 1 (((point.1 - a.1) * vx + (point.2 - a.2) * vy) / denominator))
    .ok (hypot sqrt (point.1 - (a.1 + t * vx)) (point.2 - (a.2 + t * vy)))

def nearEdge (point : Point K) (poly : List (Point K)) (margin : K) : Except String Bool :=
  (edges poly).anyM fun e => do
    let distance ← distanceToSegment sqrt point e
    pure (decide (distance ≤ margin))

/-- The copper clearance and half of the width of a trace. -/
def ruleMargin (c : BoardConstraints K) : K :=
  max c.min_clearance c.min_clearance_high_voltage +
    max (max c.default_trace_signal c.default_trace_power) c.min_trace_power / 2

/-- A hole with the distance that is kept from its centre, when it is in the board. -/
def checkHole (outline : List (Point K)) (margin : K) (hole : Routing.MountingHole K) :
    Except String (Point K × K) :=
  if 0 < hole.diameter ∧ inside hole.position outline = true then .ok (hole.position, hole.diameter / 2 + margin)
  else .error "Mounting drill must have finite positive size inside the board outline"

/-- Whether a point is outside of the outline, in a cutout, or near an edge or a hole. -/
def excluded (outline : List (Point K)) (cutouts : List (List (Point K))) (holes : List (Point K × K)) (margin : K)
    (point : Point K) : Except String Bool := do
  if inside point outline = false then return true
  if ← nearEdge sqrt point outline margin then return true
  if ← cutouts.anyM fun cutout => do
      if inside point cutout then return true
      nearEdge sqrt point cutout margin
    then return true
  return holes.any fun (center, radius) => hypot sqrt (point.1 - center.1) (point.2 - center.2) ≤ radius

def outlineOf (board : BoardDefinition K) : List (Point K) :=
  if board.outline = [] then [(0, 0), (board.width, 0), (board.width, board.height), (0, board.height)]
  else board.outline

/-- `blocked_profile_cells`; numbers are finite. -/
def blockedProfileCells (board : BoardDefinition K) (resolution_mm : K) (width_cells height_cells : ℤ) :
    Except String (List (ℤ × ℤ)) :=
  if ¬0 < resolution_mm then .error "Board raster resolution must be finite and positive"
  else
    let margin := ruleMargin board.constraints + resolution_mm / sqrt 2
    if margin ≤ 0 then .error "Board edge clearance rules must be finite and positive"
    else do
      let outline ← checkPolygon (outlineOf board)
      let cutouts ← board.cutouts.mapM checkPolygon
      let holes ← board.mounting_holes.mapM (checkHole outline margin)
      PadCopper.collect (fun cell => excluded sqrt outline cutouts holes margin
        (cell.1 * resolution_mm, cell.2 * resolution_mm))
        (PadCopper.window 0 (width_cells - 1) 0 (height_cells - 1))

end ZapTrace.BoardKeepout
