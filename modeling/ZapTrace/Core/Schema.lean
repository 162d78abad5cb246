import Mathlib.Data.Rat.Defs
import ZapTrace.Library.Codec

/-!
# The classes of a design file

A design file holds a design with all the fields of schema version one. Each class is a structure
with the fields of the source in their order, and its fields are described once more as a codec: the
name in the file, the type, and whether there is a default.

A value with a check of its own is a subtype: the name of a net is not blank, an oval drill has two
distinct positive diameters, a distance of an intent is not negative. Lengths and ratings are
rational numbers. Values of any type are Python values.

The fields of a design outside the schema are at their defaults, so they are not here.
-/

namespace ZapTrace.Schema

/-! ## Enumerations -/

inductive PinType
  | power | input | output | bidirectional | passive | noConnect
  deriving DecidableEq

inductive NetType
  | power | signal | differential | clock | data | analog | ground
  deriving DecidableEq

inductive Lifecycle
  | active | nrnd | obsolete
  deriving DecidableEq

inductive PadShape
  | rect | circle | oval | roundrect | custom
  deriving DecidableEq

inductive LayerSet
  | top | bottom | all | inner
  deriving DecidableEq

inductive NetClass
  | signalLow | signalHigh | signalAnalog | powerLow | powerMed | powerHigh | ground | differential | rf
  deriving DecidableEq

inductive DRCSeverity
  | error | warning | info
  deriving DecidableEq

def PinType.value : PinType → String
  | power => "power"
  | input => "input"
  | output => "output"
  | bidirectional => "bidirectional"
  | passive => "passive"
  | noConnect => "no_connect"

def NetType.value : NetType → String
  | power => "power"
  | signal => "signal"
  | differential => "differential"
  | clock => "clock"
  | data => "data"
  | analog => "analog"
  | ground => "ground"

def Lifecycle.value : Lifecycle → String
  | active => "active"
  | nrnd => "nrnd"
  | obsolete => "obsolete"

def PadShape.value : PadShape → String
  | rect => "rect"
  | circle => "circle"
  | oval => "oval"
  | roundrect => "roundrect"
  | custom => "custom"

def LayerSet.value : LayerSet → String
  | top => "top"
  | bottom => "bottom"
  | all => "all"
  | inner => "inner"

def NetClass.value : NetClass → String
  | signalLow => "signal_low"
  | signalHigh => "signal_high"
  | signalAnalog => "signal_analog"
  | powerLow => "power_low"
  | powerMed => "power_med"
  | powerHigh => "power_high"
  | ground => "ground"
  | differential => "differential"
  | rf => "rf"

def DRCSeverity.value : DRCSeverity → String
  | error => "error"
  | warning => "warning"
  | info => "info"

def PinType.codec : Codec PinType :=
  .enum value [.power, .input, .output, .bidirectional, .passive, .noConnect]
    fun a => by cases a <;> decide

def NetType.codec : Codec NetType :=
  .enum value [.power, .signal, .differential, .clock, .data, .analog, .ground]
    fun a => by cases a <;> decide

def Lifecycle.codec : Codec Lifecycle :=
  .enum value [.active, .nrnd, .obsolete] fun a => by cases a <;> decide

def PadShape.codec : Codec PadShape :=
  .enum value [.rect, .circle, .oval, .roundrect, .custom] fun a => by cases a <;> decide

def LayerSet.codec : Codec LayerSet :=
  .enum value [.top, .bottom, .all, .inner] fun a => by cases a <;> decide

def NetClass.codec : Codec NetClass :=
  .enum value
    [.signalLow, .signalHigh, .signalAnalog, .powerLow, .powerMed, .powerHigh, .ground,
      .differential, .rf]
    fun a => by cases a <;> decide

def DRCSeverity.codec : Codec DRCSeverity :=
  .enum value [.error, .warning, .info] fun a => by cases a <;> decide

section

variable (p : Pydantic)

/-- `tuple[float, float]` -/
def point : Codec (ℚ × ℚ) := p.float.pair p.float

/-- A float with the bound `ge=0`. -/
def nonNegative : Codec { q : ℚ // 0 ≤ q } := p.float.subtype _

/-! ## Pins and nets -/

/-- A single pin on a component. -/
structure Pin where
  name : String
  type : PinType
  net : Option String := none
  position : Option (ℚ × ℚ) := none
  voltage_level : Option String := none
  description : String := ""
  pin_function : Option String := none
  current_domain : Option String := none

def Pin.fields :=
  (Fields.start Pin.mk)
    |>.field "name" p.str.required Pin.name
    |>.field "type" PinType.codec.required Pin.type
    |>.field "net" p.str.nullable Pin.net
    |>.field "position" (point p).nullable Pin.position
    |>.field "voltage_level" p.str.nullable Pin.voltage_level
    |>.field "description" (p.str.withDefault "") Pin.description
    |>.field "pin_function" p.str.nullable Pin.pin_function
    |>.field "current_domain" p.str.nullable Pin.current_domain

def Pin.codec : Codec Pin := (Pin.fields p).model

/-- Connection point referencing a component pin. -/
structure NetNode where
  component_ref : String
  pin_name : String

def NetNode.fields :=
  (Fields.start NetNode.mk)
    |>.field "component_ref" p.str.required NetNode.component_ref
    |>.field "pin_name" p.str.required NetNode.pin_name

def NetNode.codec : Codec NetNode := (NetNode.fields p).model

structure NetConstraints where
  impedance_target : Option ℚ := none
  length_match_group : Option String := none
  max_length_mm : Option ℚ := none
  diff_pair_partner : Option String := none
  diff_pair_gap_mm : Option ℚ := none
  is_high_current : Bool := false
  min_trace_width_mm : Option ℚ := none
  return_path_net : Option String := none
  creepage_group : Option String := none

def NetConstraints.fields :=
  (Fields.start NetConstraints.mk)
    |>.field "impedance_target" p.float.nullable NetConstraints.impedance_target
    |>.field "length_match_group" p.str.nullable NetConstraints.length_match_group
    |>.field "max_length_mm" p.float.nullable NetConstraints.max_length_mm
    |>.field "diff_pair_partner" p.str.nullable NetConstraints.diff_pair_partner
    |>.field "diff_pair_gap_mm" p.float.nullable NetConstraints.diff_pair_gap_mm
    |>.field "is_high_current" (p.bool.withDefault false) NetConstraints.is_high_current
    |>.field "min_trace_width_mm" p.float.nullable NetConstraints.min_trace_width_mm
    |>.field "return_path_net" p.str.nullable NetConstraints.return_path_net
    |>.field "creepage_group" p.str.nullable NetConstraints.creepage_group

def NetConstraints.codec : Codec NetConstraints := (NetConstraints.fields p).model

/-- A logical net connecting two or more component pins. -/
structure Net where
  id : String
  /-- The name is not blank. -/
  name : { s : String // pyStrip s ≠ "" }
  type : NetType := .signal
  nodes : List NetNode := []
  constraints : Option NetConstraints := none

def Net.fields (nodes : Codec (List NetNode)) :=
  (Fields.start Net.mk)
    |>.field "id" p.str.required Net.id
    |>.field "name" (p.str.subtype _).required Net.name
    |>.field "type" (NetType.codec.withDefault .signal) Net.type
    |>.field "nodes" (nodes.withDefault []) Net.nodes
    |>.field "constraints" (NetConstraints.codec p).nullable Net.constraints

def Net.codec : Codec Net := (Net.fields p (NetNode.codec p).list).model

/-! ## Symbols and footprints -/

/-- A single drawing primitive for symbols and footprints. -/
structure DrawCommand where
  type : String
  params : Dict String PyValue := Dict.empty

def DrawCommand.fields :=
  (Fields.start DrawCommand.mk)
    |>.field "type" p.str.required DrawCommand.type
    |>.field "params" (p.anyDict.withDefault Dict.empty) DrawCommand.params

def DrawCommand.codec : Codec DrawCommand := (DrawCommand.fields p).model

structure SymbolPin where
  id : String
  name : String := ""
  position : ℚ × ℚ := (0, 0)
  length : ℚ := 5
  orientation : String := "left"
  electrical_type : String := "passive"

def SymbolPin.fields :=
  (Fields.start SymbolPin.mk)
    |>.field "id" p.str.required SymbolPin.id
    |>.field "name" (p.str.withDefault "") SymbolPin.name
    |>.field "position" ((point p).withDefault (0, 0)) SymbolPin.position
    |>.field "length" (p.float.withDefault 5) SymbolPin.length
    |>.field "orientation" (p.str.withDefault "left") SymbolPin.orientation
    |>.field "electrical_type" (p.str.withDefault "passive") SymbolPin.electrical_type

def SymbolPin.codec : Codec SymbolPin := (SymbolPin.fields p).model

/-- Vector symbol definition for schematic rendering. -/
structure SymbolDef where
  pins : List SymbolPin := []
  body : List DrawCommand := []
  origin : ℚ × ℚ := (0, 0)
  height : ℚ := 20
  width : ℚ := 20

def SymbolDef.fields :=
  (Fields.start SymbolDef.mk)
    |>.field "pins" ((SymbolPin.codec p).list.withDefault []) SymbolDef.pins
    |>.field "body" ((DrawCommand.codec p).list.withDefault []) SymbolDef.body
    |>.field "origin" ((point p).withDefault (0, 0)) SymbolDef.origin
    |>.field "height" (p.float.withDefault 20) SymbolDef.height
    |>.field "width" (p.float.withDefault 20) SymbolDef.width

def SymbolDef.codec : Codec SymbolDef := (SymbolDef.fields p).model

/-- A single pad in a PCB footprint. -/
structure Pad where
  id : String
  layer : LayerSet := .top
  shape : PadShape := .rect
  position : ℚ × ℚ := (0, 0)
  size : ℚ × ℚ := (1, 1)
  drill : Option ℚ := none
  /-- An oval drill has distinct positive width and height. -/
  drill_slot : Option { slot : ℚ × ℚ // 0 < slot.1 ∧ 0 < slot.2 ∧ slot.1 ≠ slot.2 } := none
  roundrect_rratio : Option ℚ := none
  plated : Bool := true
  solder_paste : Bool := true
  rotation : ℚ := 0
  deriving DecidableEq

def Pad.fields :=
  (Fields.start Pad.mk)
    |>.field "id" p.str.required Pad.id
    |>.field "layer" (LayerSet.codec.withDefault .top) Pad.layer
    |>.field "shape" (PadShape.codec.withDefault .rect) Pad.shape
    |>.field "position" ((point p).withDefault (0, 0)) Pad.position
    |>.field "size" ((point p).withDefault (1, 1)) Pad.size
    |>.field "drill" p.float.nullable Pad.drill
    |>.field "drill_slot" ((point p).subtype _).nullable Pad.drill_slot
    |>.field "roundrect_rratio" p.float.nullable Pad.roundrect_rratio
    |>.field "plated" (p.bool.withDefault true) Pad.plated
    |>.field "solder_paste" (p.bool.withDefault true) Pad.solder_paste
    |>.field "rotation" (p.float.withDefault 0) Pad.rotation

def Pad.codec : Codec Pad := (Pad.fields p).model

/-- PCB land pattern (footprint) definition. -/
structure FootprintDef where
  pads : List Pad := []
  outline : List DrawCommand := []
  courtyard : ℚ × ℚ := (0, 0)
  height : ℚ := 0
  thermal_pads : Option (List String) := none
  description : String := ""
  source : String := ""

def FootprintDef.fields :=
  (Fields.start FootprintDef.mk)
    |>.field "pads" ((Pad.codec p).list.withDefault []) FootprintDef.pads
    |>.field "outline" ((DrawCommand.codec p).list.withDefault []) FootprintDef.outline
    |>.field "courtyard" ((point p).withDefault (0, 0)) FootprintDef.courtyard
    |>.field "height" (p.float.withDefault 0) FootprintDef.height
    |>.field "thermal_pads" p.str.list.nullable FootprintDef.thermal_pads
    |>.field "description" (p.str.withDefault "") FootprintDef.description
    |>.field "source" (p.str.withDefault "") FootprintDef.source

def FootprintDef.codec : Codec FootprintDef := (FootprintDef.fields p).model

/-! ## Components -/

/-- A physical component (part) placed on the PCB. -/
structure Component where
  id : String
  ref : String
  type : String
  value : Option String := none
  footprint : String := ""
  footprint_asset : Option String := none
  pins : Dict String Pin := Dict.empty
  package_pin_map : Dict String String := Dict.empty
  lifecycle : Lifecycle := .active
  datasheet_url : Option String := none
  mpn : Option String := none
  manufacturer : Option String := none
  voltage_supply : String := ""
  properties : Dict String PyValue := Dict.empty
  position : Option (ℚ × ℚ) := none
  dnp : Bool := false
  variants : Dict String Bool := Dict.empty
  lcsc_id : Option String := none
  basic_part : Option Bool := none
  stock : Option ℤ := none
  alternates : List String := []
  distributor_links : Dict String String := Dict.empty
  price_usd : Option ℚ := none
  supply_fetched_at : Option String := none
  symbol : Option SymbolDef := none
  footprint_def : Option FootprintDef := none
  voltage_rating : Option ℚ := none
  current_rating : Option ℚ := none
  frequency_rating : Option ℚ := none

/-- The fields of a component, over the pins and the footprint that it is given. -/
def Component.fields (pins : Codec (Dict String Pin)) (footprint_def : Codec FootprintDef) :=
  (Fields.start Component.mk)
    |>.field "id" p.str.required Component.id
    |>.field "ref" p.str.required Component.ref
    |>.field "type" p.str.required Component.type
    |>.field "value" p.str.nullable Component.value
    |>.field "footprint" (p.str.withDefault "") Component.footprint
    |>.field "footprint_asset" p.str.nullable Component.footprint_asset
    |>.field "pins" (pins.withDefault Dict.empty) Component.pins
    |>.field "package_pin_map" ((p.dict p.str).withDefault Dict.empty) Component.package_pin_map
    |>.field "lifecycle" (Lifecycle.codec.withDefault .active) Component.lifecycle
    |>.field "datasheet_url" p.str.nullable Component.datasheet_url
    |>.field "mpn" p.str.nullable Component.mpn
    |>.field "manufacturer" p.str.nullable Component.manufacturer
    |>.field "voltage_supply" (p.str.withDefault "") Component.voltage_supply
    |>.field "properties" (p.anyDict.withDefault Dict.empty) Component.properties
    |>.field "position" (point p).nullable Component.position
    |>.field "dnp" (p.bool.withDefault false) Component.dnp
    |>.field "variants" ((p.dict p.bool).withDefault Dict.empty) Component.variants
    |>.field "lcsc_id" p.str.nullable Component.lcsc_id
    |>.field "basic_part" p.bool.nullable Component.basic_part
    |>.field "stock" p.int.nullable Component.stock
    |>.field "alternates" (p.str.list.withDefault []) Component.alternates
    |>.field "distributor_links" ((p.dict p.str).withDefault Dict.empty) Component.distributor_links
    |>.field "price_usd" p.float.nullable Component.price_usd
    |>.field "supply_fetched_at" p.str.nullable Component.supply_fetched_at
    |>.field "symbol" (SymbolDef.codec p).nullable Component.symbol
    |>.field "footprint_def" footprint_def.nullable Component.footprint_def
    |>.field "voltage_rating" p.float.nullable Component.voltage_rating
    |>.field "current_rating" p.float.nullable Component.current_rating
    |>.field "frequency_rating" p.float.nullable Component.frequency_rating

def Component.codec : Codec Component :=
  (Component.fields p (p.dict (Pin.codec p)) (FootprintDef.codec p)).model

/-- A functional grouping of components. -/
structure Block where
  id : String
  name : String
  components : List String := []
  position : Option (ℚ × ℚ) := none

def Block.fields :=
  (Fields.start Block.mk)
    |>.field "id" p.str.required Block.id
    |>.field "name" p.str.required Block.name
    |>.field "components" (p.str.list.withDefault []) Block.components
    |>.field "position" (point p).nullable Block.position

def Block.codec : Codec Block := (Block.fields p).model

/-! ## The board -/

/-- Definition of a single PCB layer. -/
structure LayerSpec where
  name : String
  type : String := "signal"
  thickness : ℚ := 0.035
  material : String := "copper"

def LayerSpec.fields :=
  (Fields.start LayerSpec.mk)
    |>.field "name" p.str.required LayerSpec.name
    |>.field "type" (p.str.withDefault "signal") LayerSpec.type
    |>.field "thickness" (p.float.withDefault 0.035) LayerSpec.thickness
    |>.field "material" (p.str.withDefault "copper") LayerSpec.material

def LayerSpec.codec : Codec LayerSpec := (LayerSpec.fields p).model

structure MountingHole where
  position : ℚ × ℚ := (0, 0)
  diameter : ℚ := 3
  plated : Bool := false

def MountingHole.fields :=
  (Fields.start MountingHole.mk)
    |>.field "position" ((point p).withDefault (0, 0)) MountingHole.position
    |>.field "diameter" (p.float.withDefault 3) MountingHole.diameter
    |>.field "plated" (p.bool.withDefault false) MountingHole.plated

def MountingHole.codec : Codec MountingHole := (MountingHole.fields p).model

/-- Manufacturing constraints for the PCB. -/
structure BoardConstraints where
  min_trace : ℚ := 0.15
  min_trace_power : ℚ := 0.3
  min_clearance : ℚ := 0.15
  min_clearance_high_voltage : ℚ := 0.3
  min_hole : ℚ := 0.15
  min_annular_ring : ℚ := 0.13
  min_solder_mask_sliver : ℚ := 0.1
  via_pad : ℚ := 0.45
  via_hole : ℚ := 0.2
  default_trace_signal : ℚ := 0.2
  default_trace_power : ℚ := 0.5

def BoardConstraints.fields :=
  (Fields.start BoardConstraints.mk)
    |>.field "min_trace" (p.float.withDefault 0.15) BoardConstraints.min_trace
    |>.field "min_trace_power" (p.float.withDefault 0.3) BoardConstraints.min_trace_power
    |>.field "min_clearance" (p.float.withDefault 0.15) BoardConstraints.min_clearance
    |>.field "min_clearance_high_voltage" (p.float.withDefault 0.3)
      BoardConstraints.min_clearance_high_voltage
    |>.field "min_hole" (p.float.withDefault 0.15) BoardConstraints.min_hole
    |>.field "min_annular_ring" (p.float.withDefault 0.13) BoardConstraints.min_annular_ring
    |>.field "min_solder_mask_sliver" (p.float.withDefault 0.1)
      BoardConstraints.min_solder_mask_sliver
    |>.field "via_pad" (p.float.withDefault 0.45) BoardConstraints.via_pad
    |>.field "via_hole" (p.float.withDefault 0.2) BoardConstraints.via_hole
    |>.field "default_trace_signal" (p.float.withDefault 0.2) BoardConstraints.default_trace_signal
    |>.field "default_trace_power" (p.float.withDefault 0.5) BoardConstraints.default_trace_power

def BoardConstraints.codec : Codec BoardConstraints := (BoardConstraints.fields p).model

structure BoardDefinition where
  width : ℚ := 100
  height : ℚ := 80
  layers : ℤ := 2
  layer_stack : List LayerSpec := []
  outline : List (ℚ × ℚ) := []
  cutouts : List (List (ℚ × ℚ)) := []
  mounting_holes : List MountingHole := []
  constraints : BoardConstraints := {}
  copper_pour_gnd : Bool := true

/-- Legacy board configuration. -/
structure BoardConfig where
  width_mm : ℚ := 100
  height_mm : ℚ := 80
  layers : ℤ := 2
  copper_pour_gnd : Bool := true
  min_trace_width_mm : ℚ := 0.2
  min_clearance_mm : ℚ := 0.2
  min_via_diameter_mm : ℚ := 0.6

def BoardConfig.fields :=
  (Fields.start BoardConfig.mk)
    |>.field "width_mm" (p.float.withDefault 100) BoardConfig.width_mm
    |>.field "height_mm" (p.float.withDefault 80) BoardConfig.height_mm
    |>.field "layers" (p.int.withDefault 2) BoardConfig.layers
    |>.field "copper_pour_gnd" (p.bool.withDefault true) BoardConfig.copper_pour_gnd
    |>.field "min_trace_width_mm" (p.float.withDefault 0.2) BoardConfig.min_trace_width_mm
    |>.field "min_clearance_mm" (p.float.withDefault 0.2) BoardConfig.min_clearance_mm
    |>.field "min_via_diameter_mm" (p.float.withDefault 0.6) BoardConfig.min_via_diameter_mm

def BoardConfig.codec : Codec BoardConfig := (BoardConfig.fields p).model

/-! ## Routing, checks and pours -/

structure TraceSegment where
  layer : String
  start : ℚ × ℚ
  «end» : ℚ × ℚ
  width : ℚ := 0.2
  net_id : String := ""
  via : Bool := false
  via_diameter : ℚ := 0.45
  via_hole : ℚ := 0.2

def TraceSegment.fields :=
  (Fields.start TraceSegment.mk)
    |>.field "layer" p.str.required TraceSegment.layer
    |>.field "start" (point p).required TraceSegment.start
    |>.field "end" (point p).required TraceSegment.end
    |>.field "width" (p.float.withDefault 0.2) TraceSegment.width
    |>.field "net_id" (p.str.withDefault "") TraceSegment.net_id
    |>.field "via" (p.bool.withDefault false) TraceSegment.via
    |>.field "via_diameter" (p.float.withDefault 0.45) TraceSegment.via_diameter
    |>.field "via_hole" (p.float.withDefault 0.2) TraceSegment.via_hole

def TraceSegment.codec : Codec TraceSegment := (TraceSegment.fields p).model

/-- A via: its place, its diameter and its hole, and in a tuple of five also its net. -/
inductive Via
  | four (x y diameter hole : ℚ)
  | five (x y diameter hole : ℚ) (net : String)
  deriving DecidableEq

/-- Result of the PCB routing step. -/
structure RouteResult where
  traces : List TraceSegment := []
  vias : List Via := []
  layers_used : List String := []
  total_trace_length_mm : ℚ := 0
  net_count : ℤ := 0
  routed_net_count : ℤ := 0

/-- A single DRC violation. -/
structure DRCViolation where
  rule_id : String
  severity : DRCSeverity
  message : String
  location : Option String := none
  net_id : Option String := none
  component_id : Option String := none

def DRCViolation.fields :=
  (Fields.start DRCViolation.mk)
    |>.field "rule_id" p.str.required DRCViolation.rule_id
    |>.field "severity" DRCSeverity.codec.required DRCViolation.severity
    |>.field "message" p.str.required DRCViolation.message
    |>.field "location" p.str.nullable DRCViolation.location
    |>.field "net_id" p.str.nullable DRCViolation.net_id
    |>.field "component_id" p.str.nullable DRCViolation.component_id

def DRCViolation.codec : Codec DRCViolation := (DRCViolation.fields p).model

/-- Complete DRC result for a design. -/
structure DRCResult where
  design_name : String := ""
  total_violations : ℤ := 0
  errors : ℤ := 0
  warnings : ℤ := 0
  info : ℤ := 0
  violations : List DRCViolation := []
  passed : Bool := true

def DRCResult.fields :=
  (Fields.start DRCResult.mk)
    |>.field "design_name" (p.str.withDefault "") DRCResult.design_name
    |>.field "total_violations" (p.int.withDefault 0) DRCResult.total_violations
    |>.field "errors" (p.int.withDefault 0) DRCResult.errors
    |>.field "warnings" (p.int.withDefault 0) DRCResult.warnings
    |>.field "info" (p.int.withDefault 0) DRCResult.info
    |>.field "violations" ((DRCViolation.codec p).list.withDefault []) DRCResult.violations
    |>.field "passed" (p.bool.withDefault true) DRCResult.passed

def DRCResult.codec : Codec DRCResult := (DRCResult.fields p).model

/-- Thermal relief spokes connecting a pad to a copper pour. -/
structure ThermalRelief where
  pad_position : ℚ × ℚ
  pad_diameter : ℚ := 0.45
  spoke_count : ℤ := 4
  spoke_width : ℚ := 0.3
  gap : ℚ := 0.2

def ThermalRelief.fields :=
  (Fields.start ThermalRelief.mk)
    |>.field "pad_position" (point p).required ThermalRelief.pad_position
    |>.field "pad_diameter" (p.float.withDefault 0.45) ThermalRelief.pad_diameter
    |>.field "spoke_count" (p.int.withDefault 4) ThermalRelief.spoke_count
    |>.field "spoke_width" (p.float.withDefault 0.3) ThermalRelief.spoke_width
    |>.field "gap" (p.float.withDefault 0.2) ThermalRelief.gap

def ThermalRelief.codec : Codec ThermalRelief := (ThermalRelief.fields p).model

/-- A copper pour (flood fill) region on a PCB layer. -/
structure CopperPourArea where
  layer : String := "F.Cu"
  net_id : String := "GND"
  polygon : List (ℚ × ℚ) := []
  cutouts : List (List (ℚ × ℚ)) := []
  thermal_reliefs : List ThermalRelief := []
  stitching_vias : List (ℚ × ℚ) := []

def CopperPourArea.fields :=
  (Fields.start CopperPourArea.mk)
    |>.field "layer" (p.str.withDefault "F.Cu") CopperPourArea.layer
    |>.field "net_id" (p.str.withDefault "GND") CopperPourArea.net_id
    |>.field "polygon" ((point p).list.withDefault []) CopperPourArea.polygon
    |>.field "cutouts" ((point p).list.list.withDefault []) CopperPourArea.cutouts
    |>.field "thermal_reliefs" ((ThermalRelief.codec p).list.withDefault [])
      CopperPourArea.thermal_reliefs
    |>.field "stitching_vias" ((point p).list.withDefault []) CopperPourArea.stitching_vias

def CopperPourArea.codec : Codec CopperPourArea := (CopperPourArea.fields p).model

/-! ## Constraint intents -/

/-- Electrical voltage-domain intent for checks and agents. -/
structure VoltageDomainConstraint where
  id : String
  nominal : String
  tolerance : String := ""

def VoltageDomainConstraint.fields :=
  (Fields.start VoltageDomainConstraint.mk)
    |>.field "id" p.str.required VoltageDomainConstraint.id
    |>.field "nominal" p.str.required VoltageDomainConstraint.nominal
    |>.field "tolerance" (p.str.withDefault "") VoltageDomainConstraint.tolerance

def VoltageDomainConstraint.codec : Codec VoltageDomainConstraint :=
  (VoltageDomainConstraint.fields p).model

structure PlacementIntent where
  component : String
  edge : Option String := none
  near : Option String := none
  max_distance_mm : Option { q : ℚ // 0 ≤ q } := none
  reason : String := ""

def PlacementIntent.fields :=
  (Fields.start PlacementIntent.mk)
    |>.field "component" p.str.required PlacementIntent.component
    |>.field "edge" p.str.nullable PlacementIntent.edge
    |>.field "near" p.str.nullable PlacementIntent.near
    |>.field "max_distance_mm" (nonNegative p).nullable PlacementIntent.max_distance_mm
    |>.field "reason" (p.str.withDefault "") PlacementIntent.reason

def PlacementIntent.codec : Codec PlacementIntent := (PlacementIntent.fields p).model

structure RoutingIntent where
  net : String
  differential_pair : Bool := false
  impedance_ohm : Option { q : ℚ // 0 ≤ q } := none
  length_match_mm : Option { q : ℚ // 0 ≤ q } := none
  copper_pour : Bool := false
  stitching_vias : Bool := false
  reason : String := ""

def RoutingIntent.fields :=
  (Fields.start RoutingIntent.mk)
    |>.field "net" p.str.required RoutingIntent.net
    |>.field "differential_pair" (p.bool.withDefault false) RoutingIntent.differential_pair
    |>.field "impedance_ohm" (nonNegative p).nullable RoutingIntent.impedance_ohm
    |>.field "length_match_mm" (nonNegative p).nullable RoutingIntent.length_match_mm
    |>.field "copper_pour" (p.bool.withDefault false) RoutingIntent.copper_pour
    |>.field "stitching_vias" (p.bool.withDefault false) RoutingIntent.stitching_vias
    |>.field "reason" (p.str.withDefault "") RoutingIntent.reason

def RoutingIntent.codec : Codec RoutingIntent := (RoutingIntent.fields p).model

/-- Manufacturing profile and profile-derived constraint intent. A width is a number or a text such
as `profile`. -/
structure ManufacturingIntent where
  profile : String := ""
  min_trace_mm : Option (ℚ ⊕ String) := none
  min_space_mm : Option (ℚ ⊕ String) := none
  reason : String := ""
  deriving DecidableEq

def ManufacturingIntent.fields :=
  (Fields.start ManufacturingIntent.mk)
    |>.field "profile" (p.str.withDefault "") ManufacturingIntent.profile
    |>.field "min_trace_mm" p.floatOrStr.nullable ManufacturingIntent.min_trace_mm
    |>.field "min_space_mm" p.floatOrStr.nullable ManufacturingIntent.min_space_mm
    |>.field "reason" (p.str.withDefault "") ManufacturingIntent.reason

def ManufacturingIntent.codec : Codec ManufacturingIntent := (ManufacturingIntent.fields p).model

structure ConstraintSet where
  voltage_domains : List VoltageDomainConstraint := []
  placement : List PlacementIntent := []
  routing : List RoutingIntent := []
  manufacturing : ManufacturingIntent := {}

def ConstraintSet.fields :=
  (Fields.start ConstraintSet.mk)
    |>.field "voltage_domains" ((VoltageDomainConstraint.codec p).list.withDefault [])
      ConstraintSet.voltage_domains
    |>.field "placement" ((PlacementIntent.codec p).list.withDefault []) ConstraintSet.placement
    |>.field "routing" ((RoutingIntent.codec p).list.withDefault []) ConstraintSet.routing
    |>.field "manufacturing" ((ManufacturingIntent.codec p).withDefault {})
      ConstraintSet.manufacturing

def ConstraintSet.codec : Codec ConstraintSet := (ConstraintSet.fields p).model

/-! ## Designs -/

/-- Metadata for a PCB design. -/
structure DesignMeta where
  name : String
  version : String := "0.1.0"
  author : String := ""
  description : String := ""
  revision : ℤ := 1
  tags : List String := []

def DesignMeta.fields :=
  (Fields.start DesignMeta.mk)
    |>.field "name" p.str.required DesignMeta.name
    |>.field "version" (p.str.withDefault "0.1.0") DesignMeta.version
    |>.field "author" (p.str.withDefault "") DesignMeta.author
    |>.field "description" (p.str.withDefault "") DesignMeta.description
    |>.field "revision" (p.int.withDefault 1) DesignMeta.revision
    |>.field "tags" (p.str.list.withDefault []) DesignMeta.tags

def DesignMeta.codec : Codec DesignMeta := (DesignMeta.fields p).model

end

/-- Top-level PCB design model. -/
structure Design where
  «meta» : DesignMeta
  components : Dict String Component := Dict.empty
  nets : Dict String Net := Dict.empty
  blocks : List Block := []
  board : BoardConfig := {}
  board_def : Option BoardDefinition := none
  placement : Option (Dict String (ℚ × ℚ)) := none
  routing : Option RouteResult := none
  net_classes : Option (Dict String NetClass) := none
  drc_result : Option DRCResult := none
  copper_pours : Dict String CopperPourArea := Dict.empty
  constraints : ConstraintSet := {}

end ZapTrace.Schema
