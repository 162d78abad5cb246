import Mathlib.Algebra.Order.Floor.Ring
import ZapTrace.Core.Routing

/-!
# The design that the fabrication exports read

Footprints with the geometry of their pads, components with their places, and areas of copper pour. Traces,
vias and mounting holes are those of the routed board. Functions of real numbers are a parameter of the
exports.
-/

namespace ZapTrace.Fabrication

open Plane

inductive PadShape
  | rect | circle | oval | roundrect | custom
  deriving DecidableEq

inductive LayerSet
  | top | bottom | all | inner
  deriving DecidableEq

/-- An oval drill: positive, and longer one way than the other. -/
structure DrillSlot (K : Type) [Zero K] [LT K] where
  width : K
  height : K
  width_pos : 0 < width
  height_pos : 0 < height
  ne : width ≠ height

structure Pad (K : Type) [Zero K] [LT K] where
  id : String
  layer : LayerSet := .top
  shape : PadShape := .rect
  position : Point K
  size : K × K
  /-- The diameter of a round hole. -/
  drill : Option K := none
  drill_slot : Option (DrillSlot K) := none
  plated : Bool := true
  /-- Degrees. -/
  rotation : K := 0

structure FootprintDef (K : Type) [Zero K] [LT K] where
  pads : List (Pad K) := []

structure Component (K : Type) [Zero K] [LT K] where
  id : String
  ref : String
  footprint_def : Option (FootprintDef K) := none
  /-- Pads of the package with the pins they belong to. -/
  package_pin_map : Dict String String := Dict.empty
  /-- The entry of the properties with this name, a number of degrees. -/
  rotation : Option K := none
  position : Option (Point K) := none

/-- The place of a component, a tuple of two numbers and perhaps a rotation. -/
structure Placement (K : Type) where
  x : K
  y : K
  rotation : Option K := none

structure ThermalRelief (K : Type) where
  pad_position : Point K
  pad_diameter : K
  spoke_count : ℕ
  spoke_width : K
  gap : K

structure CopperPourArea (K : Type) where
  layer : String
  polygon : List (Point K) := []
  cutouts : List (List (Point K)) := []
  thermal_reliefs : List (ThermalRelief K) := []

structure Net where
  id : String
  nodes : List Models.NetNode := []

structure Design (K : Type) [Zero K] [LT K] where
  components : Dict String (Component K) := Dict.empty
  nets : List Net := []
  /-- The mounting holes, when there is a board definition. -/
  mounting_holes : Option (List (Routing.MountingHole K)) := none
  placement : Option (Dict String (Placement K)) := none
  routing : Option (Routing.RouteResult K) := none
  copper_pours : Dict String (CopperPourArea K) := Dict.empty

/-- The functions of Python's `math` that turn a vector. -/
structure Trig (K : Type) where
  radians : K → K
  cos : K → K
  sin : K → K

end ZapTrace.Fabrication
