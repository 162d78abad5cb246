import ZapTrace.Erc.NamingInvariance

/-!
# Which designs the naming of nodes does not matter for

Two renamings decide whether the condition holds at a component: the one that hides all nodes, and the
one that keeps the nodes of a single pin on a single net. What a rule reports under the first is what it
reports without the nodes of movable components, and the second shows each net of a pin by itself.

## Main results

* `robustAt_of_unmoved`: where no renaming changes what is reported, the condition holds
* `renaming_sameVerdict_iff_robust`: no renaming changes the verdict exactly when the condition holds at
  every component
-/

namespace ZapTrace.Models

open List

variable {text : ErcText} {design : Design}

/-- No renaming changes what the rules report at the component. -/
def Unmoved (text : ErcText) (design : Design) (comp : Component) : Prop :=
  ∀ design', Renaming design design' → ∀ rule ∈ componentRules text, ∀ nets,
    ReportsAt (rule design comp) nets ↔ ReportsAt (rule design' comp) nets
variable {comp : Component}

theorem Unmoved.hideAll (h : Unmoved text design comp) {rule : Design → Component → List ERCViolation}
    (hrule : rule ∈ componentRules text) (nets : List String) :
    ReportsAt (rule design comp) nets ↔ ReportsAt (rule (hideAll design) comp) nets :=
  h _ (renaming_renameNodes design _) rule hrule nets

theorem Unmoved.keepPin (h : Unmoved text design comp) {rule : Design → Component → List ERCViolation}
    (hrule : rule ∈ componentRules text) (key component_ref pin_name : String) (nets : List String) :
    ReportsAt (rule design comp) nets ↔
      ReportsAt (rule (keepPin design key component_ref pin_name) comp) nets :=
  h _ (renaming_renameNodes design _) rule hrule nets

/-! ## Decoupling under the two renamings -/

theorem firmlyDecoupled_of_hideAll (hnamed : Named design) {n : String}
    (hown : netOwnsDecoupling text (hideAll design) n (groundNetIds (hideAll design)) = true) :
    FirmlyDecoupled text design n := by
  have hr : Renaming design (hideAll design) := renaming_renameNodes design _
  obtain ⟨cap, hcap, htype, hd⟩ := netOwnsDecoupling_iff.mp hown
  rw [hr.components] at hcap
  refine ⟨cap, hcap, fun hmovable => ?_, htype, hr.decouples_old hnamed hcap hd⟩
  obtain ⟨⟨net', hnet', hon⟩, -⟩ := hd
  rw [hasNodeOf_hideAll hnamed hnet' hcap hmovable] at hon
  cases hon

theorem firmlyDecoupled_of_keepPin (hnamed : Named design) (hcomp : comp ∈ design.components.values) {key p : String}
    {net : Net} (hnet : (key, net) ∈ design.nets.items)
    (hown : netOwnsDecoupling text (keepPin design key comp.ref p) net.id (groundNetIds (keepPin design key comp.ref p)) = true) :
    FirmlyDecoupled text design net.id := by
  have hr : Renaming design (keepPin design key comp.ref p) := renaming_renameNodes design _
  obtain ⟨cap, hcap, htype, hd⟩ := netOwnsDecoupling_iff.mp hown
  rw [hr.components] at hcap
  refine ⟨cap, hcap, fun hmovable => ?_, htype, hr.decouples_old hnamed hcap hd⟩
  obtain ⟨-, ground', hground', hon, hne, -⟩ := hd
  obtain ⟨⟨k, ground'⟩, hitem, rfl⟩ := mem_map.mp hground'
  obtain ⟨node, hnode, href⟩ := hasNodeOf_iff.mp hon
  obtain ⟨-, rfl, -⟩ := kept_of_keepPin hnamed hcomp hcap hmovable hitem hnode href
  obtain ⟨ground, hground, hrenamed⟩ := hr.exists_old hitem
  have hsame : ground = net :=
    Option.some.inj ((Dict.get?_eq_some_iff.mpr hground).symm.trans (Dict.get?_eq_some_iff.mpr hnet))
  exact hne (hsame ▸ hrenamed.id)

/-! ## The condition -/

section Converse

variable (hnamed : Named design) {comp : Component} (hcomp : comp ∈ design.components.values)
  (h : Unmoved text design comp)
include hnamed hcomp

theorem exists_floating_of_hideAll {type : PinType} {rule_id : String} {severity : ERCSeverity}
    (hsame : ReportsAt (floatingPinViolations design type rule_id severity comp) [] ↔
      ReportsAt (floatingPinViolations (hideAll design) type rule_id severity comp) [])
    (hmovable : Movable comp) (hpins : unassignedPins type comp ≠ []) :
    ∃ p ∈ unassignedPins type comp, design.getNetForPin comp.ref p = none := by
  obtain ⟨p, hp⟩ := exists_mem_of_ne_nil _ hpins
  have hhidden : ReportsAt (floatingPinViolations (hideAll design) type rule_id severity comp) [] :=
    reportsAt_floating_iff.mpr ⟨rfl, p, hp, getNetForPin_hideAll hnamed hcomp hmovable p⟩
  exact (reportsAt_floating_iff.mp (hsame.mpr hhidden)).2

variable {p : String} {net : Net}

theorem exists_keepPin (hmovable : Movable comp) (hpin : PinOn design comp.ref p net) :
    ∃ key, (key, net) ∈ design.nets.items ∧ ∃ net',
      (keepPin design key comp.ref p).getNetForPin comp.ref p = some net' ∧ net'.id = net.id ∧
        net'.type = net.type := by
  obtain ⟨hnet, hnode⟩ := hpin
  obtain ⟨⟨key, net⟩, hitem, rfl⟩ := mem_map.mp hnet
  exact ⟨key, hitem, (getNetForPin_keepPin hnamed hcomp hmovable hitem hnode).1⟩

theorem connectedPowerNets_hideAll (hmovable : Movable comp) :
    connectedPowerNets (hideAll design) comp = [] := by
  rw [eq_nil_iff_forall_not_mem]
  intro n hn
  obtain ⟨p, -, net, hnet, -⟩ := mem_connectedPowerNets_iff.mp hn
  rw [getNetForPin_hideAll hnamed hcomp hmovable] at hnet
  cases hnet

theorem exists_mem_connectedPowerNets_keepPin (hmovable : Movable comp) (hp : p ∈ powerPins comp)
    (hpin : PinOn design comp.ref p net) (htype : net.type = .power) : ∃ key, (key, net) ∈ design.nets.items ∧
      net.id ∈ connectedPowerNets (keepPin design key comp.ref p) comp := by
  obtain ⟨key, hkey, net', hnet', hid, htype'⟩ := exists_keepPin hnamed hcomp hmovable hpin
  exact ⟨key, hkey, mem_connectedPowerNets_iff.mpr ⟨p, hp, net', hnet', htype'.trans htype, hid⟩⟩

include h

theorem fixed_ic_of_unmoved (hfixed : ¬ Movable comp) (hic : isIc text comp = true) {n : String}
    (hn : n ∈ connectedPowerNets design comp)
    (hown : netOwnsDecoupling text design n (groundNetIds design) = true) :
    FirmlyDecoupled text design n := by
  have hr : Renaming design (hideAll design) := renaming_renameNodes design _
  have hconn := connectedPowerNets_of_fixed hnamed hr hcomp hfixed
  have hne : connectedPowerNets design comp ≠ [] := ne_nil_of_mem hn
  apply firmlyDecoupled_of_hideAll hnamed
  by_contra hnot
  rw [Bool.not_eq_true] at hnot
  -- the net is missing when all nodes are hidden, so it was missing before
  have hmissing : n ∈ missingDecoupling text (hideAll design) comp :=
    mem_missingDecoupling_iff.mpr ⟨by rwa [hconn], hnot⟩
  have hhidden : ReportsAt (erc003Violations text (hideAll design) comp)
      (missingDecoupling text (hideAll design) comp) :=
    reportsAt_erc003_iff.mpr ⟨hic, .inl ⟨by rwa [hconn], ne_nil_of_mem hmissing, rfl⟩⟩
  have hold := (h.hideAll (by simp [componentRules]) _).mpr hhidden
  obtain ⟨-, ⟨-, -, heq⟩ | ⟨hnil, -⟩⟩ := reportsAt_erc003_iff.mp hold
  · rw [heq] at hmissing
    rw [(mem_missingDecoupling_iff.mp hmissing).2] at hown
    cases hown
  · exact hne hnil

theorem movable_ic_of_unmoved (hmovable : Movable comp) (hic : isIc text comp = true)
    (hlenient : lenientHasCap text design = true) (hp : p ∈ powerPins comp) (hpin : PinOn design comp.ref p net)
    (htype : net.type = .power) : FirmlyDecoupled text design net.id := by
  have hr : Renaming design (hideAll design) := renaming_renameNodes design _
  obtain ⟨key, hkey, hmem⟩ :=
    exists_mem_connectedPowerNets_keepPin hnamed hcomp hmovable hp hpin htype
  apply firmlyDecoupled_of_keepPin (p := p) hnamed hcomp hkey
  by_contra hnot
  rw [Bool.not_eq_true] at hnot
  -- the pin by itself is reported, and nothing is when all nodes are hidden
  have hmissing : net.id ∈ missingDecoupling text (keepPin design key comp.ref p) comp :=
    mem_missingDecoupling_iff.mpr ⟨hmem, hnot⟩
  have hkept := reportsAt_erc003_iff.mpr
    ⟨hic, .inl ⟨ne_nil_of_mem hmem, ne_nil_of_mem hmissing, rfl⟩⟩
  have hold := (h.keepPin (by simp [componentRules]) _ _ _ _).mpr hkept
  have hhidden := (h.hideAll (by simp [componentRules]) _).mp hold
  rw [reportsAt_erc003_iff, connectedPowerNets_hideAll hnamed hcomp hmovable, lenientHasCap_eq hr,
    hlenient] at hhidden
  obtain ⟨-, ⟨hne, -⟩ | ⟨-, -, hcap, -⟩⟩ := hhidden
  · exact hne rfl
  · cases hcap

theorem bare_ic_of_unmoved (hmovable : Movable comp) (hic : isIc text comp = true)
    (hlenient : lenientHasCap text design = false) :
    (∀ p ∈ powerPins comp, ∀ net, PinOn design comp.ref p net → net.type ≠ .power) ∧
      hasUnconnectedPowerPin design comp = true := by
  have hr : Renaming design (hideAll design) := renaming_renameNodes design _
  have hpins : ∃ p, p ∈ powerPins comp := by
    simp only [isIc, Bool.and_eq_true] at hic
    obtain ⟨pin, hpin, htype⟩ := any_eq_true.mp hic.1
    obtain ⟨⟨p, pin⟩, hitem, rfl⟩ := mem_map.mp hpin
    exact ⟨p, mem_map.mpr ⟨_, mem_filter.mpr ⟨hitem, htype⟩, rfl⟩⟩
  obtain ⟨p, hp⟩ := hpins
  have hunconnected : hasUnconnectedPowerPin (hideAll design) comp = true :=
    any_eq_true.mpr ⟨p, hp, by simp [getNetForPin_hideAll hnamed hcomp hmovable]⟩
  -- when all nodes are hidden, the IC is reported without nets
  have hhidden : ReportsAt (erc003Violations text (hideAll design) comp) [] :=
    reportsAt_erc003_iff.mpr ⟨hic, .inr ⟨connectedPowerNets_hideAll hnamed hcomp hmovable, hunconnected,
      (lenientHasCap_eq hr).trans hlenient, rfl⟩⟩
  have hold := (h.hideAll (by simp [componentRules]) _).mpr hhidden
  constructor
  · intro q hq net hpin htype
    obtain ⟨key, -, hmem⟩ := exists_mem_connectedPowerNets_keepPin hnamed hcomp hmovable hq hpin htype
    have hkept := (h.keepPin (by simp [componentRules]) key comp.ref q []).mp hold
    obtain ⟨-, ⟨-, hne, heq⟩ | ⟨hnil, -⟩⟩ := reportsAt_erc003_iff.mp hkept
    · exact hne heq.symm
    · rw [hnil] at hmem
      cases hmem
  · obtain ⟨-, ⟨-, hne, heq⟩ | ⟨-, hpin, -⟩⟩ := reportsAt_erc003_iff.mp hold
    · exact absurd heq.symm hne
    · exact hpin

theorem crystal_of_unmoved (hmovable : Movable comp) (hcrystal : isCrystalComponent text comp = true) :
    connectedCapacitorCount text design comp < 2 := by
  have hcount : connectedCapacitorCount text (hideAll design) comp = 0 := by
    have hnets : ((hideAll design).nets.values.filter fun net => net.hasNodeOf comp.ref) = [] := by
      rw [filter_eq_nil_iff]
      intro net hnet
      obtain ⟨⟨key, net⟩, hitem, rfl⟩ := mem_map.mp hnet
      simp [hasNodeOf_hideAll hnamed hitem hcomp hmovable]
    rw [connectedCapacitorCount, hnets]
    rfl
  have hhidden : ReportsAt (erc010Violations text (hideAll design) comp) [] :=
    reportsAt_erc010_iff.mpr ⟨rfl, hcrystal, by omega⟩
  have hold := (h.hideAll (by simp [componentRules]) _).mpr hhidden
  exact (reportsAt_erc010_iff.mp hold).2.2

theorem usb_c_of_unmoved (hmovable : Movable comp) (husb : isUsbC text comp = true) (hp : p ∈ comp.pins.keys)
    (hcc : isCcPin text p = true) (hpin : PinOn design comp.ref p net) : Terminated text design net.id := by
  obtain ⟨key, -, net', hnet', hid, -⟩ := exists_keepPin hnamed hcomp hmovable hpin
  have hr : Renaming design (keepPin design key comp.ref p) := renaming_renameNodes design _
  unfold Terminated
  by_contra hnot
  rw [Bool.not_eq_true, ← hid, ← hr.hasResistorToPower_eq hnamed] at hnot
  have hkept := reportsAt_erc021_iff.mpr ⟨husb, p, hp, hcc, net', hnet', hnot, rfl⟩
  have hold := (h.keepPin (by simp [componentRules]) _ _ _ _).mpr hkept
  obtain ⟨-, q, -, -, hidden, hhidden, -⟩ :=
    reportsAt_erc021_iff.mp ((h.hideAll (by simp [componentRules]) _).mp hold)
  rw [getNetForPin_hideAll hnamed hcomp hmovable] at hhidden
  cases hhidden

theorem rs485_of_unmoved (hmovable : Movable comp) (hrs : isRs485Component text comp = true)
    (hpins : comp.pins.keys.filter text.rs485DeRe ≠ []) :
    (∃ p ∈ comp.pins.keys.filter text.rs485DeRe, design.getNetForPin comp.ref p = none) ∧
      ∀ p ∈ comp.pins.keys.filter text.rs485DeRe, ∀ net, PinOn design comp.ref p net →
        Settled text design net.id := by
  constructor
  · obtain ⟨p, hp⟩ := exists_mem_of_ne_nil _ hpins
    have hhidden : ReportsAt (erc024Violations text (hideAll design) comp) [] :=
      reportsAt_erc024_iff.mpr ⟨hrs, p, hp, .inl ⟨getNetForPin_hideAll hnamed hcomp hmovable p, rfl⟩⟩
    have hold := (h.hideAll (by simp [componentRules]) _).mpr hhidden
    obtain ⟨-, q, hq, ⟨hnone, -⟩ | ⟨net, -, -, -, hnets⟩⟩ := reportsAt_erc024_iff.mp hold
    · exact ⟨q, hq, hnone⟩
    · cases hnets
  · intro p hp net hpin
    obtain ⟨key, -, net', hnet', hid, -⟩ := exists_keepPin hnamed hcomp hmovable hpin
    have hr : Renaming design (keepPin design key comp.ref p) := renaming_renameNodes design _
    unfold Settled
    by_contra hnot
    rw [not_or, Bool.not_eq_true, Bool.not_eq_true, ← hid, ← hr.isPowerNet_eq,
      ← hr.hasResistorToPower_eq hnamed] at hnot
    have hkept := reportsAt_erc024_iff.mpr ⟨hrs, p, hp, .inr ⟨net', hnet', hnot.1, hnot.2, rfl⟩⟩
    have hold := (h.keepPin (by simp [componentRules]) _ _ _ _).mpr hkept
    obtain ⟨-, q, -, ⟨-, hnets⟩ | ⟨hidden, hhidden, -⟩⟩ :=
      reportsAt_erc024_iff.mp ((h.hideAll (by simp [componentRules]) _).mp hold)
    · cases hnets
    · rw [getNetForPin_hideAll hnamed hcomp hmovable] at hhidden
      cases hhidden

/-- Where no renaming changes what the rules report, the component is robust. -/
theorem robustAt_of_unmoved : RobustAt text design comp where
  power_pins := exists_floating_of_hideAll hnamed hcomp (h _ (renaming_renameNodes design _)
    erc001Violations (by simp [componentRules]) [])
  input_pins := exists_floating_of_hideAll hnamed hcomp (h _ (renaming_renameNodes design _)
    erc002Violations (by simp [componentRules]) [])
  fixed_ic hfixed hic _ hn hown := fixed_ic_of_unmoved hnamed hcomp h hfixed hic hn hown
  movable_ic hmovable hic hlenient _ hp _ hpin htype :=
    movable_ic_of_unmoved hnamed hcomp h hmovable hic hlenient hp hpin htype
  bare_ic hmovable hic hlenient := bare_ic_of_unmoved hnamed hcomp h hmovable hic hlenient
  crystal hmovable hcrystal := crystal_of_unmoved hnamed hcomp h hmovable hcrystal
  usb_c hmovable husb _ hp hcc _ hpin := usb_c_of_unmoved hnamed hcomp h hmovable husb hp hcc hpin
  rs485 hmovable hrs hpins := rs485_of_unmoved hnamed hcomp h hmovable hrs hpins

end Converse

/-- **The naming of nodes**: it does not matter to the verdict exactly when each component is robust. -/
theorem renaming_sameVerdict_iff_robust (hnamed : Named design) :
    (∀ design', Renaming design design' → SameVerdict text design design') ↔
      ∀ comp ∈ design.components.values, RobustAt text design comp := by
  constructor
  · intro hsame comp hcomp
    apply robustAt_of_unmoved hnamed hcomp
    intro design' hr rule hrule nets
    exact (sameVerdict_iff_reportsAt hnamed hr).mp (hsame design' hr) rule hrule comp hcomp nets
  · intro hrobust design' hr
    rw [sameVerdict_iff_reportsAt hnamed hr]
    intro rule hrule comp hcomp nets
    exact reportsAt_of_robust hnamed hr hcomp (hrobust comp hcomp) hrule nets

/-! ### A power pin on a net that is named by the identifier -/

def asciiText : ErcText where
  lower s := String.ofList (s.toList.map Char.toLower)
  upper s := String.ofList (s.toList.map Char.toUpper)
  rs485DeRe p := String.ofList (p.toList.map Char.toLower) ∈
    ["de", "re", "oe", "nre", "de_re", "driver_enable", "receiver_enable"]

def poweredComponent : Component where
  id := "u1"
  ref := "U1"
  type := "MCU"
  pins := Dict.empty.set "VCC" { name := "VCC", type := .power }

def supplyNet : Net where
  id := "vcc"
  name := "VCC"
  type := .power
  nodes := [⟨"U1", "VCC"⟩]

/-- A component with a power pin, which a node of a power net connects. -/
def poweredDesign : Design where
  components := Dict.empty.set "u1" poweredComponent
  nets := Dict.empty.set "vcc" supplyNet

theorem named_poweredDesign : Named poweredDesign := by
  have hcomponents : poweredDesign.components.items = [("u1", poweredComponent)] := rfl
  have hnets : poweredDesign.nets.items = [("vcc", supplyNet)] := rfl
  refine ⟨?_, ?_, ?_, ?_⟩
  · intro key comp hitem
    rw [hcomponents, mem_singleton] at hitem
    cases hitem
    rfl
  · intro key net hitem
    rw [hnets, mem_singleton] at hitem
    cases hitem
    rfl
  · intro comp hcomp other hother _
    simp only [Dict.values, hcomponents, map_cons, map_nil, mem_singleton] at hcomp hother
    rw [hcomp, hother]
  · intro comp hcomp other hother _
    simp only [Dict.values, hcomponents, map_cons, map_nil, mem_singleton] at hcomp hother
    rw [hcomp, hother]

theorem renaming_sameVerdict_iff_robust_poweredDesign :
    (∀ design', Renaming poweredDesign design' → SameVerdict asciiText poweredDesign design') ↔
      ∀ comp ∈ poweredDesign.components.values, RobustAt asciiText poweredDesign comp :=
  renaming_sameVerdict_iff_robust named_poweredDesign

/-- The node names the component by its identifier now, and the pin is reported. -/
theorem not_sameVerdict_poweredDesign : ¬ ∀ (text : ErcText) (design design' : Design), Named design →
    Renaming design design' → SameVerdict text design design' := by
  intro hall
  have hsame := hall asciiText poweredDesign (hideAll poweredDesign) named_poweredDesign
    (renaming_renameNodes poweredDesign _)
  have hafter : Reports (ruleErc001 (hideAll poweredDesign)) ["U1"] [] :=
    ⟨{ rule_id := "ERC001", severity := .error, component_refs := ["U1"] }, by decide, rfl, rfl⟩
  have hbefore : ruleErc001 poweredDesign = [] := by decide
  obtain ⟨v, hv, -⟩ := (hsame ruleErc001 (by simp [ercRules]) ["U1"] []).mpr hafter
  rw [hbefore] at hv
  cases hv

end ZapTrace.Models
