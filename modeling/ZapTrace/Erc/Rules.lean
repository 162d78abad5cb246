import Mathlib.Algebra.GroupWithZero.Nat
import Mathlib.Data.List.Infix
import Mathlib.Data.String.Basic
import ZapTrace.Erc.Graph

/-!
# Electrical rule checks

Seven rules over a design. A violation names components by their reference designators and nets by
their identifiers; its texts are left out.

What the rules read in types, values and pin names depends on `str.lower`, `str.upper` and one regular
expression, which come as parameters.
-/

namespace ZapTrace.Models

open ElectricalGraph

/-- The functions of texts that the rules use. -/
structure ErcText where
  /-- `str.lower` -/
  lower : String → String
  /-- `str.upper` -/
  upper : String → String
  /-- `_RS485_DE_RE_RE.match` -/
  rs485DeRe : String → Bool

inductive ERCSeverity
  | error | warning | info
  deriving DecidableEq

structure ERCViolation where
  rule_id : String
  severity : ERCSeverity
  component_refs : List String := []
  net_refs : List String := []
  deriving DecidableEq

def hasKeyword (keywords : List String) (text : String) : Bool :=
  keywords.any fun keyword => keyword.toList <:+: text.toList

def passiveTypeKeywords : List String :=
  ["res", "cap", "ind", "ferrite", "bead", "led", "diode", "zener", "tvs", "crystal", "xtal",
    "resonator", "oscillator", "fuse", "jumper", "testpoint", "antenna", "switch", "button", "relay"]

def connectorTypeKeywords : List String :=
  ["conn", "header", "usb", "jack", "socket", "terminal", "receptacle"]

def capTypes : List String := ["CAP", "CAPACITOR", "C"]

def decoupleCapValues : List String := ["100nf", "0.1uf", "10nf", "1uf", "4.7uf", "10uf", "22uf"]

variable (text : ErcText) (design : Design)

def hasPowerPin (comp : Component) : Bool := comp.pins.values.any fun pin => pin.type = .power

def isIc (comp : Component) : Bool :=
  hasPowerPin comp && !hasKeyword (passiveTypeKeywords ++ connectorTypeKeywords) (text.lower comp.type)

def Net.hasNodeOf (net : Net) (component_ref : String) : Bool :=
  net.nodes.any fun node => node.component_ref = component_ref

def componentNetIds (component_ref : String) : List String :=
  (design.nets.values.filter fun net => net.hasNodeOf component_ref).map Net.id

def isCap (comp : Component) : Bool := text.upper comp.type ∈ capTypes

def bridgesToGround (power_net_id : String) (ground_net_ids : List String) (comp : Component) : Bool :=
  (componentNetIds design comp.ref).any fun n => n ≠ power_net_id ∧ n ∈ ground_net_ids

def netOwnsDecoupling (power_net_id : String) (ground_net_ids : List String) : Bool :=
  (design.getComponentsOnNet power_net_id).any fun comp =>
    isCap text comp && bridgesToGround design power_net_id ground_net_ids comp

/-! ## Unconnected pins -/

def unassignedPins (type : PinType) (comp : Component) : List String :=
  (comp.pins.items.filter fun item => item.2.type = type ∧ item.2.net = none).map Prod.fst

/-- The part of both rules for one component: pins that no node connects either. -/
def floatingPinViolations (type : PinType) (rule_id : String) (severity : ERCSeverity)
    (comp : Component) : List ERCViolation :=
  ((unassignedPins type comp).filter fun pin_name => design.getNetForPin comp.ref pin_name = none).map
    fun _ => { rule_id := rule_id, severity := severity, component_refs := [comp.ref] }

def erc001Violations : Component → List ERCViolation :=
  floatingPinViolations design .power "ERC001" .error

def erc002Violations : Component → List ERCViolation :=
  floatingPinViolations design .input "ERC002" .warning

/-- Power pins without a net. -/
def ruleErc001 : List ERCViolation := design.components.values.flatMap (erc001Violations design)

/-- Input pins without a net. -/
def ruleErc002 : List ERCViolation := design.components.values.flatMap (erc002Violations design)

/-! ## Decoupling -/

def powerPins (comp : Component) : List String :=
  (comp.pins.items.filter fun item => item.2.type = .power).map Prod.fst

/-- `_component_power_net_state`: the power nets, as a set. -/
def connectedPowerNets (comp : Component) : List String :=
  ((powerPins comp).filterMap fun pin_name => (design.getNetForPin comp.ref pin_name).bind fun net =>
    if net.type = .power then some net.id else none).dedup

/-- `_component_power_net_state`: a power pin has no net. -/
def hasUnconnectedPowerPin (comp : Component) : Bool :=
  (powerPins comp).any fun pin_name => design.getNetForPin comp.ref pin_name = none

def groundNetIds : List String :=
  (design.nets.items.filter fun item => item.2.type = .ground).map Prod.fst

def lenientHasCap : Bool :=
  design.components.values.any fun comp =>
    text.lower (comp.value.getD "") ∈ decoupleCapValues ∧ isCap text comp

/-- The power nets without a decoupling capacitor, sorted. -/
def missingDecoupling (comp : Component) : List String :=
  ((connectedPowerNets design comp).filter fun net_id =>
    !netOwnsDecoupling text design net_id (groundNetIds design)).mergeSort fun a b => a ≤ b

/-- `_erc003_violation` -/
def erc003Violation (comp : Component) : Option ERCViolation :=
  if connectedPowerNets design comp ≠ [] then
    if missingDecoupling text design comp = [] then none
    else some
      { rule_id := "ERC003", severity := .warning, component_refs := [comp.ref]
        net_refs := missingDecoupling text design comp }
  else if !hasUnconnectedPowerPin design comp ∨ lenientHasCap text design then none
  else some { rule_id := "ERC003", severity := .warning, component_refs := [comp.ref] }

def erc003Violations (comp : Component) : List ERCViolation :=
  if isIc text comp then (erc003Violation text design comp).toList else []

/-- ICs without a decoupling capacitor on a power net. -/
def ruleErc003 : List ERCViolation := design.components.values.flatMap (erc003Violations text design)

/-! ## Pull-ups -/

/-- I2C nets without a pull-up resistor. -/
def ruleErc005 : List ERCViolation :=
  design.nets.values.filterMap fun net =>
    if (net.name ∈ ["I2C_SDA", "I2C_SCL"] ∨ hasKeyword ["i2c"] (text.lower net.name)) ∧
        !(fromDesign design).hasResistorToPower text.upper net.id
          (some ["4.7k", "10k", "2.2k", "1k"]) then
      some { rule_id := "ERC005", severity := .warning, net_refs := [net.id] }
    else none

/-! ## Crystals -/

def isCrystalComponent (comp : Component) : Bool :=
  hasKeyword ["xtal", "crystal", "32khz", "32.768khz"] (text.lower comp.type)

def isLoadCapacitor (comp : Component) (node : NetNode) : Bool :=
  node.component_ref ≠ comp.ref ∧
    ∃ other ∈ design.getComponent node.component_ref, text.lower other.type ∈ ["cap", "capacitor"]

def connectedCapacitorCount (comp : Component) : ℕ :=
  ((design.nets.values.filter fun net => net.hasNodeOf comp.ref).map fun net =>
    net.nodes.countP (isLoadCapacitor text design comp)).sum

/-- `_erc010_violation` -/
def erc010Violation (comp : Component) : Option ERCViolation :=
  if !isCrystalComponent text comp ∨ connectedCapacitorCount text design comp ≥ 2 then none
  else some { rule_id := "ERC010", severity := .warning, component_refs := [comp.ref] }

def erc010Violations (comp : Component) : List ERCViolation := (erc010Violation text design comp).toList

/-- Crystals without load capacitors. -/
def ruleErc010 : List ERCViolation := design.components.values.flatMap (erc010Violations text design)

/-! ## Termination of connectors and transceivers -/

def isUsbC (comp : Component) : Bool :=
  hasKeyword ["usb-c", "usbc", "usb_c", "type-c", "typec", "usb_type_c"] (text.lower comp.type)

def isCcPin (pin_name : String) : Bool := text.upper pin_name ∈ ["CC", "CC1", "CC2"]

/-- The part of the rule for one pin. -/
def erc021Violation (comp : Component) (pin_name : String) : Option ERCViolation :=
  match design.getNetForPin comp.ref pin_name with
  | none => none
  | some net =>
    if (fromDesign design).hasResistorToPower text.upper net.id
        (some ["5.1k", "5k1", "5.1K", "5K1"]) then none
    else some
      { rule_id := "ERC021", severity := .warning, component_refs := [comp.ref], net_refs := [net.id] }

def erc021Violations (comp : Component) : List ERCViolation :=
  if isUsbC text comp then
    (comp.pins.keys.filter (isCcPin text)).filterMap (erc021Violation text design comp)
  else []

/-- USB-C connectors without termination of their configuration pins. -/
def ruleErc021 : List ERCViolation := design.components.values.flatMap (erc021Violations text design)

def isRs485Component (comp : Component) : Bool :=
  hasKeyword ["rs485", "rs-485", "sp3485", "max485", "sn75176", "lt1785", "max3485"]
    (text.lower comp.type)

/-- `_erc024_violation` -/
def erc024Violation (comp : Component) (pin_name : String) : Option ERCViolation :=
  match design.getNetForPin comp.ref pin_name with
  | none => some { rule_id := "ERC024", severity := .error, component_refs := [comp.ref] }
  | some net =>
    if (fromDesign design).isPowerNet net.id ∨
        (fromDesign design).hasResistorToPower text.upper net.id
          (some ["1k", "4.7k", "10k", "22k", "47k", "100k"]) then none
    else some
      { rule_id := "ERC024", severity := .warning, component_refs := [comp.ref], net_refs := [net.id] }

def erc024Violations (comp : Component) : List ERCViolation :=
  if isRs485Component text comp then
    (comp.pins.keys.filter text.rs485DeRe).filterMap (erc024Violation text design comp)
  else []

/-- RS485 transceivers whose direction control is not in a defined state. -/
def ruleErc024 : List ERCViolation := design.components.values.flatMap (erc024Violations text design)

def ercRules : List (Design → List ERCViolation) :=
  [ruleErc001, ruleErc002, ruleErc003 text, ruleErc005 text, ruleErc010 text, ruleErc021 text,
    ruleErc024 text]

end ZapTrace.Models
