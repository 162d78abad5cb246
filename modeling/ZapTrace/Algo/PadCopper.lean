import Mathlib.Algebra.Order.Floor.Ring
import ZapTrace.Algo.ObstacleMap
import ZapTrace.Export.PadCentres
import ZapTrace.Library.Euclid

/-!
# The cells of a pad

The grid router blocks the cells that the copper of a pad reaches. A cell is a square, and the distance of the copper
is taken at its middle, so the clearance is widened by half of the diagonal of a cell. Only the cells in a window around
the pad are looked at.
-/

namespace ZapTrace.PadCopper

open Plane (Point)
open scoped Plane
open Euclid (hypot)
open Fabrication.PadCentres (rotatedOffset)

variable {K : Type} [Field K] [LinearOrder K]

def distanceInLocalShape (sqrt : K → K) (dx dy : K) (pad : Fabrication.Pad K) : Except String K :=
  let w := pad.size.1
  let h := pad.size.2
  if min w h ≤ 0 then .error "Pad copper dimensions must be finite and positive"
  else
    match pad.shape with
    | .circle => .ok (max 0 (hypot sqrt dx dy - max w h / 2))
    | .rect => .ok (hypot sqrt (max (|dx| - w / 2) 0) (max (|dy| - h / 2) 0))
    | .oval =>
      if h ≤ w then .ok (max 0 (hypot sqrt (max (|dx| - (w - h) / 2) 0) dy - h / 2))
      else .ok (max 0 (hypot sqrt dx (max (|dy| - (h - w) / 2) 0) - w / 2))
    | .roundrect | .custom => .error "Custom pad copper geometry cannot be projected safely"

/-- The cells of a window, row by row. -/
def window (x0 x1 y0 y1 : ℤ) : List (ℤ × ℤ) :=
  (intRange y0 (y1 + 1)).flatMap fun gy => (intRange x0 (x1 + 1)).map fun gx => (gx, gy)

/-- The cells that pass a test, which may fail. -/
def collect (test : ℤ × ℤ → Except String Bool) : List (ℤ × ℤ) → Except String (List (ℤ × ℤ))
  | [] => .ok []
  | cell :: cells => do
    let passes ← test cell
    let points ← collect test cells
    pure (if passes then cell :: points else points)

variable [FloorRing K] (sqrt : K → K) (trig : Fabrication.Trig K)

/-- Whether a cell is in the mask of a pad with its centre at a place, turned by an angle. -/
def covers (pad : Fabrication.Pad K) (centre : Point K) (theta resolution_mm margin : K) (cell : ℤ × ℤ) :
    Except String Bool := do
  let dx := cell.1 * resolution_mm - centre.1
  let dy := cell.2 * resolution_mm - centre.2
  let local_x := trig.cos theta * dx + trig.sin theta * dy
  let local_y := -trig.sin theta * dx + trig.cos theta * dy
  let distance ← distanceInLocalShape sqrt local_x local_y pad
  pure (decide (distance ≤ margin))

/-- `pad_cells`; numbers are finite. -/
def padCells (pad : Fabrication.Pad K) (position_mm : Point K) (footprint_rotation_deg resolution_mm : K)
    (width_cells height_cells : ℤ) (clearance_mm : K) : Except String (List (ℤ × ℤ)) :=
  if ¬ 0 < resolution_mm then .error "Grid resolution must be finite and positive"
  else if ¬ 0 ≤ clearance_mm then .error "Copper clearance must be non-negative"
  else if pad.shape = .custom then .error "Custom pad copper geometry cannot be projected safely"
  else if min pad.size.1 pad.size.2 ≤ 0 then .error "Pad copper dimensions must be finite and positive"
  else
    let p := rotatedOffset trig pad.position footprint_rotation_deg
    let cx := position_mm.1 + p.1
    let cy := position_mm.2 + p.2
    if ¬ ((0 ≤ cx ∧ cx < width_cells * resolution_mm) ∧ 0 ≤ cy ∧ cy < height_cells * resolution_mm) then
      .error "Pad centre lies outside the routing grid"
    else
      let theta := trig.radians (-(pad.rotation + footprint_rotation_deg))
      let margin := clearance_mm + resolution_mm / sqrt 2
      let extent := hypot sqrt pad.size.1 pad.size.2 / 2 + margin
      let x0 := max 0 ⌊(cx - extent) / resolution_mm⌋
      let x1 := min (width_cells - 1) ⌈(cx + extent) / resolution_mm⌉
      let y0 := max 0 ⌊(cy - extent) / resolution_mm⌋
      let y1 := min (height_cells - 1) ⌈(cy + extent) / resolution_mm⌉
      collect (covers sqrt trig pad (cx, cy) theta resolution_mm margin) (window x0 x1 y0 y1)

end ZapTrace.PadCopper
