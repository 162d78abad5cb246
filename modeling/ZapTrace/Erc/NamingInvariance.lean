import ZapTrace.Erc.NamingQueries

/-!
# When the rule checks do not depend on how nodes name components

The graph resolves a node by identifier and by reference designator, the other queries compare with the
reference designator only. So a renaming may change the verdict of the rules, and it changes it for no
choice of nodes exactly when, at each component whose identifier is not its reference designator, the
rules find what they would find without its nodes, and at the others, the capacitors they rely on are
not such components.

## Main results

* `sameVerdict_iff_reportsAt`: the verdict, component by component
* `renaming_sameVerdict_iff_robust`: no renaming changes the verdict exactly when the condition holds at
  every component
-/

namespace ZapTrace.Models

open Option hiding map mem_map
open ElectricalGraph List

/-! ## Verdicts -/

def Reports (violations : List ERCViolation) (components nets : List String) : Prop :=
  ∃ v ∈ violations, v.component_refs = components ∧ v.net_refs = nets

/-- The rules report violations for the same components and nets. -/
def SameVerdict (text : ErcText) (design design' : Design) : Prop :=
  ∀ rule ∈ ercRules text, ∀ components nets,
    Reports (rule design) components nets ↔ Reports (rule design') components nets

def ReportsAt (violations : List ERCViolation) (nets : List String) : Prop :=
  ∃ v ∈ violations, v.net_refs = nets

def componentRules (text : ErcText) : List (Design → Component → List ERCViolation) :=
  [erc001Violations, erc002Violations, erc003Violations text, erc010Violations text,
    erc021Violations text, erc024Violations text]

variable {text : ErcText} {design design' : Design}
variable {comp : Component}

theorem component_refs_of_mem_componentRules {rule : Design → Component → List ERCViolation}
    (hrule : rule ∈ componentRules text) {v : ERCViolation} (hv : v ∈ rule design comp) :
    v.component_refs = [comp.ref] := by
  simp only [componentRules, mem_cons, not_mem_nil, or_false] at hrule
  rcases hrule with rfl | rfl | rfl | rfl | rfl | rfl
  · obtain ⟨pin_name, -, rfl⟩ := mem_map.mp hv
    rfl
  · obtain ⟨pin_name, -, rfl⟩ := mem_map.mp hv
    rfl
  · unfold erc003Violations at hv
    split at hv
    · rw [mem_toList] at hv
      unfold erc003Violation at hv
      split at hv
      · split at hv <;> cases hv
        rfl
      · split at hv <;> cases hv
        rfl
    · cases hv
  · rw [erc010Violations, mem_toList] at hv
    unfold erc010Violation at hv
    split at hv <;> cases hv
    rfl
  · unfold erc021Violations at hv
    split at hv
    · obtain ⟨pin_name, -, hv⟩ := mem_filterMap.mp hv
      unfold erc021Violation at hv
      split at hv
      · cases hv
      · split at hv <;> cases hv
        rfl
    · cases hv
  · unfold erc024Violations at hv
    split at hv
    · obtain ⟨pin_name, -, hv⟩ := mem_filterMap.mp hv
      unfold erc024Violation at hv
      split at hv
      · cases hv
        rfl
      · split at hv <;> cases hv
        rfl
    · cases hv

theorem reports_flatMap_iff (hnamed : Named design) {rule : Design → Component → List ERCViolation}
    (hrule : rule ∈ componentRules text) (d : Design) (hcomp : comp ∈ design.components.values) (nets : List String) :
    Reports (design.components.values.flatMap (rule d)) [comp.ref] nets ↔ ReportsAt (rule d comp) nets := by
  constructor
  · rintro ⟨v, hv, href, hnets⟩
    obtain ⟨other, hother, hv⟩ := mem_flatMap.mp hv
    rw [component_refs_of_mem_componentRules hrule hv, cons.injEq] at href
    obtain rfl := hnamed.ref_unique other hother comp hcomp href.1
    exact ⟨v, hv, hnets⟩
  · rintro ⟨v, hv, hnets⟩
    exact ⟨v, mem_flatMap.mpr ⟨comp, hcomp, hv⟩, component_refs_of_mem_componentRules hrule hv, hnets⟩

theorem Renaming.reports_erc005_iff (hnamed : Named design) (h : Renaming design design')
    (components nets : List String) : Reports (ruleErc005 text design) components nets ↔
      Reports (ruleErc005 text design') components nets := by
  have heq : ruleErc005 text design' = ruleErc005 text design := by
    unfold ruleErc005
    have hnets := h.values
    simp only [h.hasResistorToPower_eq hnamed]
    generalize design.nets.values = xs at hnets ⊢
    generalize design'.nets.values = ys at hnets ⊢
    induction hnets with
    | nil => rfl
    | @cons net net' xs ys hr _ ih => simp only [filterMap_cons, hr.name, hr.id, ih]
  rw [heq]

/-- **The verdict**, component by component. -/
theorem sameVerdict_iff_reportsAt (hnamed : Named design) (h : Renaming design design') :
    SameVerdict text design design' ↔ ∀ rule ∈ componentRules text, ∀ comp ∈ design.components.values,
      ∀ nets, ReportsAt (rule design comp) nets ↔ ReportsAt (rule design' comp) nets := by
  have hrules : ∀ P : (Design → List ERCViolation) → Prop, (∀ rule ∈ ercRules text, P rule) ↔
      (∀ rule ∈ componentRules text, P fun d => d.components.values.flatMap (rule d)) ∧
        P (ruleErc005 text) := by
    intro P
    simp only [ercRules, componentRules, mem_cons, not_mem_nil, or_false, forall_eq_or_imp,
      forall_eq]
    constructor
    · rintro ⟨h1, h2, h3, h5, h10, h21, h24⟩
      exact ⟨⟨h1, h2, h3, h10, h21, h24⟩, h5⟩
    · rintro ⟨⟨h1, h2, h3, h10, h21, h24⟩, h5⟩
      exact ⟨h1, h2, h3, h5, h10, h21, h24⟩
  rw [SameVerdict, hrules]
  rw [and_iff_left (h.reports_erc005_iff hnamed)]
  refine forall₂_congr fun rule hrule => ?_
  simp only [h.components]
  constructor
  · intro hsame comp hcomp nets
    rw [← reports_flatMap_iff hnamed hrule design hcomp, ← reports_flatMap_iff hnamed hrule design' hcomp]
    exact hsame [comp.ref] nets
  · intro hsame components nets
    have hat : ∀ d, Reports (design.components.values.flatMap (rule d)) components nets →
        ∃ comp ∈ design.components.values, components = [comp.ref] := by
      rintro d ⟨v, hv, href, -⟩
      obtain ⟨comp, hcomp, hv⟩ := mem_flatMap.mp hv
      exact ⟨comp, hcomp, href.symm.trans (component_refs_of_mem_componentRules hrule hv)⟩
    constructor
    · intro hreports
      obtain ⟨comp, hcomp, rfl⟩ := hat design hreports
      rw [reports_flatMap_iff hnamed hrule design' hcomp]
      exact (hsame comp hcomp nets).mp ((reports_flatMap_iff hnamed hrule design hcomp nets).mp hreports)
    · intro hreports
      obtain ⟨comp, hcomp, rfl⟩ := hat design' hreports
      rw [reports_flatMap_iff hnamed hrule design hcomp]
      exact (hsame comp hcomp nets).mpr ((reports_flatMap_iff hnamed hrule design' hcomp nets).mp hreports)

/-! ## The condition -/

/-- A capacitor whose identifier is its reference designator decouples the power net. -/
def FirmlyDecoupled (text : ErcText) (design : Design) (power_net_id : String) : Prop :=
  ∃ comp ∈ design.components.values, ¬ Movable comp ∧ isCap text comp = true ∧
    Decouples design power_net_id comp

/-- A configuration pin on the net is terminated. -/
def Terminated (text : ErcText) (design : Design) (net_id : String) : Prop :=
  (fromDesign design).hasResistorToPower text.upper net_id
    (some ["5.1k", "5k1", "5.1K", "5K1"]) = true

/-- A direction pin on the net is in a defined state: the net is a rail, or has a resistor to one. -/
def Settled (text : ErcText) (design : Design) (net_id : String) : Prop :=
  (fromDesign design).isPowerNet net_id = true ∨
    (fromDesign design).hasResistorToPower text.upper net_id
      (some ["1k", "4.7k", "10k", "22k", "47k", "100k"]) = true

structure RobustAt (text : ErcText) (design : Design) (comp : Component) : Prop where
  /-- Of the unassigned power pins of a movable component, one has no net. -/
  power_pins : Movable comp → unassignedPins .power comp ≠ [] →
    ∃ p ∈ unassignedPins .power comp, design.getNetForPin comp.ref p = none
  input_pins : Movable comp → unassignedPins .input comp ≠ [] →
    ∃ p ∈ unassignedPins .input comp, design.getNetForPin comp.ref p = none
  /-- The power nets of a fixed IC are decoupled by fixed capacitors, or not at all. -/
  fixed_ic : ¬ Movable comp → isIc text comp = true → ∀ n ∈ connectedPowerNets design comp,
    netOwnsDecoupling text design n (groundNetIds design) = true → FirmlyDecoupled text design n
  /-- The power nets of a movable IC are decoupled by fixed capacitors, where some capacitor is enough
  for an IC without power nets. -/
  movable_ic : Movable comp → isIc text comp = true → lenientHasCap text design = true →
    ∀ p ∈ powerPins comp, ∀ net, PinOn design comp.ref p net → net.type = .power →
      FirmlyDecoupled text design net.id
  /-- A movable IC has no power nets, and a power pin without a net, where no capacitor is. -/
  bare_ic : Movable comp → isIc text comp = true → lenientHasCap text design = false →
    (∀ p ∈ powerPins comp, ∀ net, PinOn design comp.ref p net → net.type ≠ .power) ∧
      hasUnconnectedPowerPin design comp = true
  /-- A movable crystal has less than two load capacitors. -/
  crystal : Movable comp → isCrystalComponent text comp = true →
    connectedCapacitorCount text design comp < 2
  /-- The configuration pins of a movable USB-C connector are terminated on all their nets. -/
  usb_c : Movable comp → isUsbC text comp = true → ∀ p ∈ comp.pins.keys, isCcPin text p = true →
    ∀ net, PinOn design comp.ref p net → Terminated text design net.id
  /-- Of the direction pins of a movable transceiver, one has no net, and all nets are settled. -/
  rs485 : Movable comp → isRs485Component text comp = true →
    comp.pins.keys.filter text.rs485DeRe ≠ [] →
    (∃ p ∈ comp.pins.keys.filter text.rs485DeRe, design.getNetForPin comp.ref p = none) ∧
      ∀ p ∈ comp.pins.keys.filter text.rs485DeRe, ∀ net, PinOn design comp.ref p net →
        Settled text design net.id

/-! ## What the rules report at a component -/
variable {nets : List String}

theorem reportsAt_floating_iff {type : PinType} {rule_id : String} {severity : ERCSeverity} :
    ReportsAt (floatingPinViolations design type rule_id severity comp) nets ↔
      nets = [] ∧ ∃ p ∈ unassignedPins type comp, design.getNetForPin comp.ref p = none := by
  simp only [ReportsAt, floatingPinViolations, mem_map, mem_filter, decide_eq_true_eq]
  constructor
  · rintro ⟨v, ⟨p, ⟨hp, hnone⟩, rfl⟩, rfl⟩
    exact ⟨rfl, p, hp, hnone⟩
  · rintro ⟨rfl, p, hp, hnone⟩
    exact ⟨_, ⟨p, ⟨hp, hnone⟩, rfl⟩, rfl⟩

theorem reportsAt_erc010_iff :
    ReportsAt (erc010Violations text design comp) nets ↔ nets = [] ∧ isCrystalComponent text comp = true ∧
      connectedCapacitorCount text design comp < 2 := by
  unfold ReportsAt erc010Violations erc010Violation
  split
  · rename_i h
    simp only [toList_none, not_mem_nil, false_and, exists_false, false_iff]
    rintro ⟨-, hcrystal, hcount⟩
    simp only [hcrystal, Bool.not_true, Bool.false_eq_true, false_or] at h
    omega
  · rename_i h
    simp only [Bool.not_eq_true', not_or, Bool.not_eq_false, not_le] at h
    simp [h, eq_comm]

theorem reportsAt_erc021_iff :
    ReportsAt (erc021Violations text design comp) nets ↔ isUsbC text comp = true ∧
      ∃ p ∈ comp.pins.keys, isCcPin text p = true ∧ ∃ net, design.getNetForPin comp.ref p = some net ∧
        (fromDesign design).hasResistorToPower text.upper net.id
          (some ["5.1k", "5k1", "5.1K", "5K1"]) = false ∧ nets = [net.id] := by
  unfold ReportsAt erc021Violations
  split
  · rename_i husb
    simp only [mem_filterMap, mem_filter, husb, true_and]
    constructor
    · rintro ⟨v, ⟨p, ⟨hp, hcc⟩, hv⟩, rfl⟩
      unfold erc021Violation at hv
      split at hv
      · cases hv
      · rename_i net hnet
        split at hv
        · cases hv
        · rename_i hres
          cases hv
          exact ⟨p, hp, hcc, net, hnet, by simpa using hres, rfl⟩
    · rintro ⟨p, hp, hcc, net, hnet, hres, rfl⟩
      have hv : erc021Violation text design comp p = some
          { rule_id := "ERC021", severity := .warning, component_refs := [comp.ref]
            net_refs := [net.id] } := by
        simp [erc021Violation, hnet, hres]
      exact ⟨_, ⟨p, ⟨hp, hcc⟩, hv⟩, rfl⟩
  · rename_i husb
    simp [husb]

theorem reportsAt_erc024_iff :
    ReportsAt (erc024Violations text design comp) nets ↔ isRs485Component text comp = true ∧
      ∃ p ∈ comp.pins.keys.filter text.rs485DeRe,
        (design.getNetForPin comp.ref p = none ∧ nets = []) ∨
        ∃ net, design.getNetForPin comp.ref p = some net ∧
          (fromDesign design).isPowerNet net.id = false ∧
          (fromDesign design).hasResistorToPower text.upper net.id
            (some ["1k", "4.7k", "10k", "22k", "47k", "100k"]) = false ∧ nets = [net.id] := by
  unfold ReportsAt erc024Violations
  split
  · rename_i hrs
    simp only [mem_filterMap, hrs, true_and]
    constructor
    · rintro ⟨v, ⟨p, hp, hv⟩, rfl⟩
      refine ⟨p, hp, ?_⟩
      unfold erc024Violation at hv
      split at hv
      · rename_i hnone
        cases hv
        exact .inl ⟨hnone, rfl⟩
      · rename_i net hnet
        split at hv
        · cases hv
        · rename_i hsettled
          cases hv
          simp only [not_or, Bool.not_eq_true] at hsettled
          exact .inr ⟨net, hnet, hsettled.1, hsettled.2, rfl⟩
    · rintro ⟨p, hp, ⟨hnone, rfl⟩ | ⟨net, hnet, hpower, hres, rfl⟩⟩
      · have hv : erc024Violation text design comp p = some
            { rule_id := "ERC024", severity := .error, component_refs := [comp.ref] } := by
          simp [erc024Violation, hnone]
        exact ⟨_, ⟨p, hp, hv⟩, rfl⟩
      · have hv : erc024Violation text design comp p = some
            { rule_id := "ERC024", severity := .warning, component_refs := [comp.ref]
              net_refs := [net.id] } := by
          simp [erc024Violation, hnet, hpower, hres]
        exact ⟨_, ⟨p, hp, hv⟩, rfl⟩
  · rename_i hrs
    simp [hrs]

theorem mem_connectedPowerNets_iff {n : String} :
    n ∈ connectedPowerNets design comp ↔ ∃ p ∈ powerPins comp, ∃ net,
      design.getNetForPin comp.ref p = some net ∧ net.type = .power ∧ net.id = n := by
  simp only [connectedPowerNets, mem_dedup, mem_filterMap, bind_eq_some_iff,
    ite_none_right_eq_some, some.injEq]

theorem mem_missingDecoupling_iff {n : String} :
    n ∈ missingDecoupling text design comp ↔ n ∈ connectedPowerNets design comp ∧
      netOwnsDecoupling text design n (groundNetIds design) = false := by
  simp [missingDecoupling, mem_mergeSort]

theorem reportsAt_erc003_iff :
    ReportsAt (erc003Violations text design comp) nets ↔ isIc text comp = true ∧
      (connectedPowerNets design comp ≠ [] ∧ missingDecoupling text design comp ≠ [] ∧
          nets = missingDecoupling text design comp ∨
        connectedPowerNets design comp = [] ∧ hasUnconnectedPowerPin design comp = true ∧
          lenientHasCap text design = false ∧ nets = []) := by
  unfold ReportsAt erc003Violations
  cases hic : isIc text comp with
  | false => simp
  | true =>
    rw [if_pos rfl]
    simp only [mem_toList, true_and, erc003Violation]
    by_cases hconn : connectedPowerNets design comp = []
    · cases hpin : hasUnconnectedPowerPin design comp <;> cases hcap : lenientHasCap text design <;>
        simp [hconn]
    · by_cases hmiss : missingDecoupling text design comp = []
      · simp [hconn, hmiss]
      · simp only [hconn, hmiss, ne_eq, not_false_eq_true, if_true, if_false, some.injEq,
          exists_eq_left', true_and, false_and, or_false]
        exact ⟨Eq.symm, Eq.symm⟩

/-! ## Robust components -/

section Robust

variable (hnamed : Named design) (h : Renaming design design') {comp : Component}
  (hcomp : comp ∈ design.components.values)
include hnamed h hcomp

theorem getNetForPin_eq_none_iff_of_fixed (hfixed : ¬ Movable comp) (p : String) :
    design'.getNetForPin comp.ref p = none ↔ design.getNetForPin comp.ref p = none := by
  have hmap := h.getNetForPin_self hnamed hcomp (not_not.mp hfixed) p
  rw [← map_eq_none_iff, hmap, map_eq_none_iff]

theorem reportsAt_floating_of_robust {type : PinType} {rule_id : String} {severity : ERCSeverity}
    (hrobust : Movable comp → unassignedPins type comp ≠ [] →
      ∃ p ∈ unassignedPins type comp, design.getNetForPin comp.ref p = none) (nets : List String) :
    ReportsAt (floatingPinViolations design type rule_id severity comp) nets ↔
      ReportsAt (floatingPinViolations design' type rule_id severity comp) nets := by
  rw [reportsAt_floating_iff, reportsAt_floating_iff]
  refine and_congr_right fun _ => ?_
  by_cases hmovable : Movable comp
  · constructor
    · rintro ⟨p, hp, hnone⟩
      exact ⟨p, hp, h.getNetForPin_none hnamed hcomp hnone⟩
    · rintro ⟨p, hp, -⟩
      exact hrobust hmovable (ne_nil_of_mem hp)
  · simp only [getNetForPin_eq_none_iff_of_fixed hnamed h hcomp hmovable]

omit hcomp in
theorem netOwnsDecoupling_of_firmly {n : String} (hfirm : FirmlyDecoupled text design n) :
    netOwnsDecoupling text design' n (groundNetIds design') = true := by
  obtain ⟨cap, hcap, hfixed, htype, hd⟩ := hfirm
  refine netOwnsDecoupling_iff.mpr ⟨cap, h.components ▸ hcap, htype, ?_⟩
  exact (h.decouples_self_iff hnamed hcap (not_not.mp hfixed)).mpr hd

omit hcomp in
theorem netOwnsDecoupling_old {n : String}
    (hown : netOwnsDecoupling text design' n (groundNetIds design') = true) :
    netOwnsDecoupling text design n (groundNetIds design) = true := by
  obtain ⟨cap, hcap, htype, hd⟩ := netOwnsDecoupling_iff.mp hown
  rw [h.components] at hcap
  exact netOwnsDecoupling_iff.mpr ⟨cap, hcap, htype, h.decouples_old hnamed hcap hd⟩

omit hnamed hcomp in
theorem lenientHasCap_eq : lenientHasCap text design' = lenientHasCap text design := by
  rw [lenientHasCap, h.components, lenientHasCap]

theorem connectedPowerNets_of_fixed (hfixed : ¬ Movable comp) :
    connectedPowerNets design' comp = connectedPowerNets design comp := by
  have hpins : ∀ p, ((design'.getNetForPin comp.ref p).bind fun net =>
      if net.type = .power then some net.id else none) =
      (design.getNetForPin comp.ref p).bind fun net =>
        if net.type = .power then some net.id else none := by
    intro p
    have hmap := h.getNetForPin_self hnamed hcomp (not_not.mp hfixed) p
    cases hold : design.getNetForPin comp.ref p with
    | none =>
      rw [hold, map_none, map_eq_none_iff] at hmap
      rw [hmap]
    | some net =>
      rw [hold, map_some, map_eq_some_iff] at hmap
      obtain ⟨net', hnet', heq⟩ := hmap
      rw [Prod.mk.injEq] at heq
      rw [hnet', bind_some, bind_some, heq.1, heq.2]
  rw [connectedPowerNets, connectedPowerNets]
  simp only [hpins]

theorem reportsAt_erc003_of_fixed (hfixed : ¬ Movable comp) (hrobust : isIc text comp = true →
    ∀ n ∈ connectedPowerNets design comp,
      netOwnsDecoupling text design n (groundNetIds design) = true → FirmlyDecoupled text design n)
    (nets : List String) : ReportsAt (erc003Violations text design comp) nets ↔
      ReportsAt (erc003Violations text design' comp) nets := by
  rw [reportsAt_erc003_iff, reportsAt_erc003_iff]
  refine and_congr_right fun hic => ?_
  have hconn := connectedPowerNets_of_fixed hnamed h hcomp hfixed
  have hmissing : missingDecoupling text design' comp = missingDecoupling text design comp := by
    unfold missingDecoupling
    rw [hconn]
    congr 1
    apply filter_congr
    intro n hn
    rw [Bool.not_inj_iff, Bool.eq_iff_iff]
    refine ⟨netOwnsDecoupling_old hnamed h, fun hown => ?_⟩
    exact netOwnsDecoupling_of_firmly hnamed h (hrobust hic n hn hown)
  have hpin : hasUnconnectedPowerPin design' comp = hasUnconnectedPowerPin design comp := by
    unfold hasUnconnectedPowerPin
    simp only [getNetForPin_eq_none_iff_of_fixed hnamed h hcomp hfixed]
  rw [hconn, hmissing, hpin, lenientHasCap_eq h]

theorem exists_pinOn_of_mem_connectedPowerNets {n : String} (hn : n ∈ connectedPowerNets design' comp) :
    ∃ p ∈ powerPins comp, ∃ net, PinOn design comp.ref p net ∧ net.type = .power ∧ net.id = n := by
  obtain ⟨p, hp, net', hnet', htype, rfl⟩ := mem_connectedPowerNets_iff.mp hn
  obtain ⟨net, hpin, hid, htype'⟩ := h.pinOn_old hnamed hcomp (pinOn_of_getNetForPin hnet')
  exact ⟨p, hp, net, hpin, htype' ▸ htype, hid.symm⟩

theorem not_reportsAt_erc003 (hlenient : lenientHasCap text design = true)
    (hrobust : ∀ p ∈ powerPins comp, ∀ net, PinOn design comp.ref p net → net.type = .power →
      FirmlyDecoupled text design net.id) (nets : List String) :
    ¬ ReportsAt (erc003Violations text design' comp) nets := by
  rw [reportsAt_erc003_iff, lenientHasCap_eq h, hlenient]
  rintro ⟨-, ⟨-, hmissing, -⟩ | ⟨-, -, hcap, -⟩⟩
  · obtain ⟨n, hn⟩ := exists_mem_of_ne_nil _ hmissing
    obtain ⟨hconn, hnot⟩ := mem_missingDecoupling_iff.mp hn
    obtain ⟨p, hp, net, hpin, htype, rfl⟩ := exists_pinOn_of_mem_connectedPowerNets hnamed h hcomp hconn
    rw [netOwnsDecoupling_of_firmly hnamed h (hrobust p hp net hpin htype)] at hnot
    cases hnot
  · cases hcap

theorem reportsAt_erc003_iff_of_bare (hlenient : lenientHasCap text design = false)
    (hic : isIc text comp = true)
    (hrobust : (∀ p ∈ powerPins comp, ∀ net, PinOn design comp.ref p net → net.type ≠ .power) ∧
      hasUnconnectedPowerPin design comp = true) (nets : List String) :
    ReportsAt (erc003Violations text design' comp) nets ↔ nets = [] := by
  have hconn : connectedPowerNets design' comp = [] := by
    rw [eq_nil_iff_forall_not_mem]
    intro n hn
    obtain ⟨p, hp, net, hpin, htype, -⟩ := exists_pinOn_of_mem_connectedPowerNets hnamed h hcomp hn
    exact hrobust.1 p hp net hpin htype
  have hpin : hasUnconnectedPowerPin design' comp = true := by
    obtain ⟨p, hp, hnone⟩ := any_eq_true.mp hrobust.2
    refine any_eq_true.mpr ⟨p, hp, ?_⟩
    rw [decide_eq_true_eq] at hnone ⊢
    exact h.getNetForPin_none hnamed hcomp hnone
  rw [reportsAt_erc003_iff, lenientHasCap_eq h, hconn, hpin, hlenient, hic]
  simp

theorem exists_getNetForPin_of_fixed (hfixed : ¬ Movable comp) (p : String) (P : String → Prop) :
    (∃ net, design.getNetForPin comp.ref p = some net ∧ P net.id) ↔
      ∃ net, design'.getNetForPin comp.ref p = some net ∧ P net.id := by
  have hmap := h.getNetForPin_self hnamed hcomp (not_not.mp hfixed) p
  constructor
  · rintro ⟨net, hnet, hP⟩
    rw [hnet, map_some, map_eq_some_iff] at hmap
    obtain ⟨net', hnet', heq⟩ := hmap
    rw [Prod.mk.injEq] at heq
    exact ⟨net', hnet', heq.1 ▸ hP⟩
  · rintro ⟨net', hnet', hP⟩
    rw [hnet', map_some] at hmap
    obtain ⟨net, hnet, heq⟩ := map_eq_some_iff.mp hmap.symm
    rw [Prod.mk.injEq] at heq
    exact ⟨net, hnet, heq.1 ▸ hP⟩

theorem reportsAt_erc021_of_robust (hrobust : Movable comp → isUsbC text comp = true →
    ∀ p ∈ comp.pins.keys, isCcPin text p = true → ∀ net, PinOn design comp.ref p net →
      Terminated text design net.id) (nets : List String) :
    ReportsAt (erc021Violations text design comp) nets ↔
      ReportsAt (erc021Violations text design' comp) nets := by
  rw [reportsAt_erc021_iff, reportsAt_erc021_iff]
  refine and_congr_right fun husb => exists_congr fun p => and_congr_right fun hp =>
    and_congr_right fun hcc => ?_
  simp only [h.hasResistorToPower_eq hnamed]
  by_cases hmovable : Movable comp
  · constructor
    · rintro ⟨net, hnet, hres, -⟩
      have hterm := hrobust hmovable husb p hp hcc net (pinOn_of_getNetForPin hnet)
      rw [Terminated, hres] at hterm
      cases hterm
    · rintro ⟨net', hnet', hres, -⟩
      obtain ⟨net, hpin, hid, -⟩ := h.pinOn_old hnamed hcomp (pinOn_of_getNetForPin hnet')
      have hterm := hrobust hmovable husb p hp hcc net hpin
      rw [Terminated, ← hid, hres] at hterm
      cases hterm
  · exact exists_getNetForPin_of_fixed hnamed h hcomp hmovable p fun net_id =>
      (fromDesign design).hasResistorToPower text.upper net_id
        (some ["5.1k", "5k1", "5.1K", "5K1"]) = false ∧ nets = [net_id]

theorem reportsAt_erc024_iff_of_robust (hrs : isRs485Component text comp = true)
    (hrobust : comp.pins.keys.filter text.rs485DeRe ≠ [] →
      (∃ p ∈ comp.pins.keys.filter text.rs485DeRe, design.getNetForPin comp.ref p = none) ∧
        ∀ p ∈ comp.pins.keys.filter text.rs485DeRe, ∀ net, PinOn design comp.ref p net →
          Settled text design net.id) (nets : List String) :
    ReportsAt (erc024Violations text design' comp) nets ↔
      nets = [] ∧ comp.pins.keys.filter text.rs485DeRe ≠ [] := by
  rw [reportsAt_erc024_iff]
  constructor
  · rintro ⟨-, p, hp, ⟨-, hnets⟩ | ⟨net', hnet', hpower, hres, -⟩⟩
    · exact ⟨hnets, ne_nil_of_mem hp⟩
    · obtain ⟨net, hpin, hid, -⟩ := h.pinOn_old hnamed hcomp (pinOn_of_getNetForPin hnet')
      rw [h.isPowerNet_eq, hid] at hpower
      rw [h.hasResistorToPower_eq hnamed, hid] at hres
      rcases (hrobust (ne_nil_of_mem hp)).2 p hp net hpin with hsettled | hsettled
      · rw [hpower] at hsettled
        cases hsettled
      · rw [hres] at hsettled
        cases hsettled
  · rintro ⟨rfl, hpins⟩
    obtain ⟨p, hp, hnone⟩ := (hrobust hpins).1
    exact ⟨hrs, p, hp, .inl ⟨h.getNetForPin_none hnamed hcomp hnone, rfl⟩⟩

theorem reportsAt_erc024_of_fixed (hfixed : ¬ Movable comp) (nets : List String) :
    ReportsAt (erc024Violations text design comp) nets ↔
      ReportsAt (erc024Violations text design' comp) nets := by
  rw [reportsAt_erc024_iff, reportsAt_erc024_iff]
  refine and_congr_right fun _ => exists_congr fun p => and_congr_right fun _ => ?_
  simp only [h.hasResistorToPower_eq hnamed, h.isPowerNet_eq]
  apply or_congr
  · rw [getNetForPin_eq_none_iff_of_fixed hnamed h hcomp hfixed]
  · exact exists_getNetForPin_of_fixed hnamed h hcomp hfixed p fun net_id =>
      (fromDesign design).isPowerNet net_id = false ∧
        (fromDesign design).hasResistorToPower text.upper net_id
          (some ["1k", "4.7k", "10k", "22k", "47k", "100k"]) = false ∧ nets = [net_id]

/-! ### Crystals -/

omit hnamed h hcomp in
theorem not_capacitor_of_isCrystal (hcrystal : isCrystalComponent text comp = true) :
    text.lower comp.type ∉ ["cap", "capacitor"] := by
  intro hcap
  unfold isCrystalComponent at hcrystal
  simp only [mem_cons, not_mem_nil, or_false] at hcap
  rcases hcap with hcap | hcap
  · rw [hcap] at hcrystal
    exact absurd hcrystal (by decide)
  · rw [hcap] at hcrystal
    exact absurd hcrystal (by decide)

omit h in
theorem isLoadCapacitor_renamed (hcrystal : isCrystalComponent text comp = true) {node node' : NetNode}
    (hr : RenamedNode design node node') :
    isLoadCapacitor text design comp node' = isLoadCapacitor text design comp node := by
  rcases hr with rfl | ⟨other, hother, href, rfl⟩
  · rfl
  · unfold isLoadCapacitor
    simp only [href, hnamed.getComponent_id hother, hnamed.getComponent_ref hother, mem_some_iff,
      exists_eq_left']
    by_cases hself : other = comp
    · -- a node of the crystal itself counts under neither name
      subst hself
      simp [not_capacitor_of_isCrystal hcrystal]
    · have hrefne : other.ref ≠ comp.ref := fun heq => hself (hnamed.ref_unique other hother comp hcomp heq)
      have hidne : other.id ≠ comp.ref := fun heq => hself (hnamed.id_ne_ref other hother comp hcomp heq)
      simp [hrefne, hidne]

theorem capacitorCount_renamed (hcrystal : isCrystalComponent text comp = true) {net net' : Net}
    (hr : RenamedNet design net net') : net'.nodes.countP (isLoadCapacitor text design' comp) =
      net.nodes.countP (isLoadCapacitor text design comp) := by
  have hload : isLoadCapacitor text design' comp = isLoadCapacitor text design comp := by
    funext node
    rw [isLoadCapacitor, h.getComponent_eq, isLoadCapacitor]
  rw [hload]
  have hnodes := hr.nodes
  generalize net.nodes = nodes at hnodes ⊢
  generalize net'.nodes = nodes' at hnodes ⊢
  induction hnodes with
  | nil => rfl
  | cons hr _ ih =>
    rw [countP_cons, countP_cons, ih, isLoadCapacitor_renamed hnamed hcomp hcrystal hr]

/-- A renaming takes load capacitors away, and none of a fixed crystal. -/
theorem connectedCapacitorCount_renamed (hcrystal : isCrystalComponent text comp = true) :
    connectedCapacitorCount text design' comp ≤ connectedCapacitorCount text design comp ∧
      (¬ Movable comp →
        connectedCapacitorCount text design' comp = connectedCapacitorCount text design comp) := by
  have hcount : ∀ net net', RenamedNet design net net' →
      net'.nodes.countP (isLoadCapacitor text design' comp) =
        net.nodes.countP (isLoadCapacitor text design comp) :=
    fun net net' hr => capacitorCount_renamed hnamed h hcomp hcrystal hr
  unfold connectedCapacitorCount
  have hvalues := h.values
  generalize design.nets.values = nets at hvalues ⊢
  generalize design'.nets.values = nets' at hvalues ⊢
  induction hvalues with
  | nil => exact ⟨le_rfl, fun _ => rfl⟩
  | @cons net net' nets nets' hr _ ih =>
    cases hold : net.hasNodeOf comp.ref with
    | true =>
      cases hnew : net'.hasNodeOf comp.ref with
      | true =>
        simp only [filter_cons, hold, hnew, if_true, map_cons, sum_cons, hcount net net' hr]
        exact ⟨Nat.add_le_add_left ih.1 _, fun hfixed => congrArg _ (ih.2 hfixed)⟩
      | false =>
        simp only [filter_cons, hold, hnew, if_true, Bool.false_eq_true, if_false, map_cons,
          sum_cons]
        refine ⟨ih.1.trans (Nat.le_add_left _ _), fun hfixed => ?_⟩
        have := (hr.hasNodeOf_self_iff hnamed hcomp (not_not.mp hfixed)).mpr hold
        rw [hnew] at this
        cases this
    | false =>
      have hnew : net'.hasNodeOf comp.ref = false := by
        rw [Bool.eq_false_iff] at hold ⊢
        exact fun hnode => hold (hr.hasNodeOf_old hnamed hcomp hnode)
      simp only [filter_cons, hold, hnew, Bool.false_eq_true, if_false]
      exact ih

theorem reportsAt_erc010_of_robust (hrobust : Movable comp → isCrystalComponent text comp = true →
    connectedCapacitorCount text design comp < 2) (nets : List String) :
    ReportsAt (erc010Violations text design comp) nets ↔
      ReportsAt (erc010Violations text design' comp) nets := by
  rw [reportsAt_erc010_iff, reportsAt_erc010_iff]
  refine and_congr_right fun _ => and_congr_right fun hcrystal => ?_
  obtain ⟨hle, heq⟩ := connectedCapacitorCount_renamed hnamed h hcomp hcrystal
  by_cases hmovable : Movable comp
  · have hlt := hrobust hmovable hcrystal
    exact ⟨fun _ => hle.trans_lt hlt, fun _ => hlt⟩
  · rw [heq hmovable]

/-- **A robust component** is reported as before. -/
theorem reportsAt_of_robust (hrobust : RobustAt text design comp)
    {rule : Design → Component → List ERCViolation} (hrule : rule ∈ componentRules text)
    (nets : List String) : ReportsAt (rule design comp) nets ↔ ReportsAt (rule design' comp) nets := by
  simp only [componentRules, mem_cons, not_mem_nil, or_false] at hrule
  rcases hrule with rfl | rfl | rfl | rfl | rfl | rfl
  · exact reportsAt_floating_of_robust hnamed h hcomp hrobust.power_pins nets
  · exact reportsAt_floating_of_robust hnamed h hcomp hrobust.input_pins nets
  · by_cases hmovable : Movable comp
    · cases hic : isIc text comp with
      | false => simp [reportsAt_erc003_iff, hic]
      | true =>
        cases hlenient : lenientHasCap text design with
        | true =>
          have hnot := hrobust.movable_ic hmovable hic hlenient
          exact iff_of_false (not_reportsAt_erc003 hnamed (Renaming.refl design) hcomp hlenient hnot nets)
            (not_reportsAt_erc003 hnamed h hcomp hlenient hnot nets)
        | false =>
          have hbare := hrobust.bare_ic hmovable hic hlenient
          rw [reportsAt_erc003_iff_of_bare hnamed (Renaming.refl design) hcomp hlenient hic hbare,
            reportsAt_erc003_iff_of_bare hnamed h hcomp hlenient hic hbare]
    · exact reportsAt_erc003_of_fixed hnamed h hcomp hmovable (hrobust.fixed_ic hmovable) nets
  · exact reportsAt_erc010_of_robust hnamed h hcomp hrobust.crystal nets
  · exact reportsAt_erc021_of_robust hnamed h hcomp hrobust.usb_c nets
  · by_cases hmovable : Movable comp
    · cases hrs : isRs485Component text comp with
      | false => simp [reportsAt_erc024_iff, hrs]
      | true =>
        have hpins := hrobust.rs485 hmovable hrs
        rw [reportsAt_erc024_iff_of_robust hnamed (Renaming.refl design) hcomp hrs hpins,
          reportsAt_erc024_iff_of_robust hnamed h hcomp hrs hpins]
    · exact reportsAt_erc024_of_fixed hnamed h hcomp hmovable nets

end Robust

end ZapTrace.Models
