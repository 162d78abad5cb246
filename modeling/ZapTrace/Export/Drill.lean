import ZapTrace.Export.Board

/-!
# Holes and slots of the drill files

The round holes and the routed slots of pads; and all round holes of a routed design: those of the pads of placed
components, the mounting holes of the board, and the vias. Traces that are marked as vias are not among them.
-/

namespace ZapTrace.Fabrication.Drill

open Plane

structure DrillHole (K : Type) where
  place : Point K
  diameter : K
  plated : Bool

/-- A routed slot by the ends of its centre line. -/
structure RoutedSlot (K : Type) where
  start : Point K
  stop : Point K
  tool_width : K
  plated : Bool

section Collection

variable {K : Type} [Field K] [LinearOrder K]

def padDrillHole (position : Point K) (pad : Pad K) : Option (DrillHole K) :=
  match pad.drill with
  | none => none
  | some drill =>
    if drill ≤ 0 then none
    else some ⟨(position.1 + pad.position.1, position.2 + pad.position.2), drill, pad.plated⟩

variable (trig : Trig K)

/-- The slot of a pad of a component at a position. A pad has no round hole besides it. -/
def padDrillSlot (position : Point K) (ref : String) (pad : Pad K) : Except String (Option (RoutedSlot K)) :=
  match pad.drill_slot with
  | none => .ok none
  | some slot =>
    if pad.drill.isSome then
      .error ("Pad " ++ ref ++ "." ++ pad.id ++ " defines both round and slotted drills")
    else
      let tool_width := min slot.width slot.height
      let run := (max slot.width slot.height - tool_width) / 2
      let axis := if slot.height < slot.width then (run, 0) else (0, run)
      let angle := trig.radians pad.rotation
      let dx := axis.1 * trig.cos angle - axis.2 * trig.sin angle
      let dy := axis.1 * trig.sin angle + axis.2 * trig.cos angle
      let x := position.1 + pad.position.1
      let y := position.2 + pad.position.2
      .ok (some ⟨(x - dx, y - dy), (x + dx, y + dy), tool_width, pad.plated⟩)

end Collection

end ZapTrace.Fabrication.Drill

namespace ZapTrace.Routing.Excellon

open Plane

structure DrillHole (K : Type) where
  place : Point K
  diameter : K
  plated : Bool

variable {K : Type} [Field K] [LinearOrder K]

def padDrillHole (position : Point K) (pad : Pad K) : Option (DrillHole K) :=
  match pad.drill with
  | none => none
  | some drill =>
    if drill ≤ 0 then none
    else some ⟨(position.1 + pad.position.1, position.2 + pad.position.2), drill, pad.plated⟩

def componentDrillHoles (design : Design K) : List (DrillHole K) :=
  design.components.values.flatMap fun component =>
    match component.footprint_def, component.position with
    | some footprint, some position => footprint.pads.filterMap (padDrillHole position)
    | _, _ => []

def mountingDrillHoles (design : Design K) : List (DrillHole K) :=
  match design.board_def with
  | none => []
  | some board_def => board_def.mounting_holes.map fun hole => ⟨hole.position, hole.diameter, hole.plated⟩

def routingDrillHoles (design : Design K) : List (DrillHole K) :=
  match design.routing with
  | none => []
  | some routing => routing.vias.map fun via => ⟨(via.x, via.y), via.hole, true⟩

def collectDrillHoles (design : Design K) : List (DrillHole K) :=
  componentDrillHoles design ++ mountingDrillHoles design ++ routingDrillHoles design

end ZapTrace.Routing.Excellon
