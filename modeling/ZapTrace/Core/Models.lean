import Mathlib.Data.Rat.Defs
import ZapTrace.Library.Dict

/-!
# The design model

A design has components and nets, both in dictionaries by an identifier. A node of a net names a pin
of a component, and the component by its identifier or by its reference designator. Lengths are
rational numbers.

Python's checks of field values on construction are left to the parser; here are the fields that
comparison and rule checks read.
-/

namespace ZapTrace.Models

inductive PinType
  | power | input | output | bidirectional | passive | noConnect
  deriving DecidableEq

inductive NetType
  | power | signal | differential | clock | data | analog | ground
  deriving DecidableEq

structure Pin where
  name : String
  type : PinType
  net : Option String := none
  deriving DecidableEq

/-- A connection point: the identifier or the reference designator of a component, and a pin. -/
structure NetNode where
  component_ref : String
  pin_name : String
  deriving DecidableEq

/-- A net of two or more pins. -/
structure Net where
  id : String
  name : String
  type : NetType := .signal
  nodes : List NetNode := []
  deriving DecidableEq

/-- A part on the board. -/
structure Component where
  id : String
  ref : String
  type : String
  value : Option String := none
  footprint : String := ""
  pins : Dict String Pin := Dict.empty

/-- The legacy board configuration. -/
structure BoardConfig where
  width_mm : ℚ := 100
  height_mm : ℚ := 80
  layers : ℤ := 2
  deriving DecidableEq

structure Design where
  components : Dict String Component := Dict.empty
  nets : Dict String Net := Dict.empty
  board : BoardConfig := {}

namespace Design

variable (design : Design)

/-- A component by its internal identifier or its reference designator. -/
def getComponent (component_ref : String) : Option Component :=
  match design.components.get? component_ref with
  | some component => some component
  | none => design.components.values.find? fun candidate => candidate.ref = component_ref

/-- The net connected to a pin: the first net with a node that names the pin. -/
def getNetForPin (component_ref pin_name : String) : Option Net :=
  design.nets.values.find? fun net =>
    net.nodes.any fun node => node.component_ref = component_ref ∧ node.pin_name = pin_name

def getComponentsOnNet (net_id : String) : List Component :=
  match design.nets.get? net_id with
  | none => []
  | some net =>
    let refs := net.nodes.map NetNode.component_ref
    design.components.values.filter fun c => c.ref ∈ refs

end Design

end ZapTrace.Models
