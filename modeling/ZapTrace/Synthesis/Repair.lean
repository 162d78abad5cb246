import Mathlib.Data.List.Infix
import ZapTrace.Core.Schema
import ZapTrace.Library.Raising
import ZapTrace.Synthesis.Calculators

/-!
# Repair

A loop checks the design, lets a handler repair what each rule reports, and checks again, until no handler makes a
patch, the count of violations does not drop, or the rounds are used up. The checker is a function of the design. Two of
the four handlers change the design; the others only describe a resistor that should be added. An enable net is tied to
the input net of the board, and a net object for it is made even where the net is there, which raises for a blank name.

## Main results

* `handler_frame`: a handler that makes no patch leaves the design as it was
* `repairDesign_spec`: what the loop ends with, when the input net has a name
-/

namespace ZapTrace.Schema.Repair

open Calculators Prod Raising List

/-! ## Records -/

/-- A violation, with the fields that `_violation_dict` writes out. -/
structure ERCViolation where
  rule_id : String
  severity : String
  message : String
  component_refs : List String := []
  net_refs : List String := []
  deriving DecidableEq

structure Patch where
  rule_id : String
  component_ref : String
  field : String
  old_value : String
  new_value : String
  rationale : String
  confidence : ℚ := 1
  deriving DecidableEq

structure RepairIteration where
  index : ℕ
  violations_before : ℕ
  violations_after : ℕ
  patches : List Patch

inductive Outcome
  | applied | declined | escalated
  deriving DecidableEq

structure RepairDecision where
  rule_id : String
  component_refs : List String
  net_refs : List String
  outcome : Outcome
  reason : String
  assumptions : String := ""
  patch : Option Patch := none
  deriving DecidableEq

structure RepairResult where
  iterations : List RepairIteration := []
  patches : List Patch := []
  converged : Bool := false
  remaining : List ERCViolation := []
  decisions : List RepairDecision := []

/-- What the standard library does with texts and characters. -/
structure PyText where
  lower : String → String
  upper : String → String
  /-- `float(text)`, where it is a number -/
  float : String → Option ℚ
  digit : Char → Bool
  space : Char → Bool
  word : Char → Bool
  fmt : NumberFormat

variable (py : PyText) (design : Design)

/-! ## Voltages -/

/-- `\d{1,12}` before something that is no digit. -/
def digits (cs : List Char) : Option (List Char × List Char) :=
  let run := cs.takeWhile py.digit
  if 1 ≤ run.length ∧ run.length ≤ 12 then some (run, cs.dropWhile py.digit) else none

/-- `\s{0,32}V` -/
def volts (cs : List Char) : Option (List Char) :=
  if 32 < (cs.takeWhile py.space).length then none
  else match cs.dropWhile py.space with
    | [] => none
    | c :: rest => if c = 'V' ∨ c = 'v' then some rest else none

/-- The first match, at a place where the character before it is allowed. -/
def search (before : Option Char → Bool) (matches? : List Char → Option String) : Option Char → List Char → Option String
  | _, [] => none
  | previous, c :: cs =>
    (if before previous then matches? (c :: cs) else none).or (search before matches? (some c) cs)

/-- `_DECIMAL_RAIL_RE` -/
def decimalRail (cs : List Char) : Option String := do
  let (whole, rest) ← digits py cs
  match rest with
  | '.' :: rest =>
    let (fraction, rest) ← digits py rest
    let _ ← volts py rest
    some (String.ofList (whole ++ '.' :: fraction))
  | _ => none

/-- `_EUROPEAN_RAIL_RE` -/
def europeanRail (cs : List Char) : Option String := do
  let (whole, rest) ← digits py cs
  match rest with
  | c :: rest =>
    let (fraction, rest) ← digits py rest
    if (c = 'V' ∨ c = 'v') ∧ ¬ rest.head?.any py.word then some (String.ofList (whole ++ '.' :: fraction)) else none
  | [] => none

/-- `_WHOLE_RAIL_RE` -/
def wholeRail (cs : List Char) : Option String := do
  let (whole, rest) ← digits py cs
  let rest ← volts py rest
  if rest.head?.any py.word then none else some (String.ofList whole)

def voltageFromNetName (name : String) : Option ℚ :=
  ((search (fun c => !c.any py.digit) (decimalRail py) none name.toList).or
    ((search (fun c => !c.any py.word) (europeanRail py) none name.toList).or
      (search (fun c => !c.any fun c => py.digit c || c == '.') (wholeRail py) none name.toList))).bind py.float

def getComponent (component_ref : String) : Option Component :=
  (design.components.get? component_ref).or
    (design.components.values.find? fun candidate => candidate.ref = component_ref)

def getNetForPin (component_ref pin_name : String) : Option Net :=
  design.nets.values.find? fun net =>
    net.nodes.any fun node => node.component_ref = component_ref ∧ node.pin_name = pin_name

def inferRailVoltage (net_id : String) : Option ℚ := do
  let net ← (design.nets.get? net_id).or (design.nets.values.find? fun net => net.id = net_id)
  let voltages := net.nodes.filterMap fun node => do
    let comp ← getComponent design node.component_ref
    if comp.voltage_supply = "" then none else py.float comp.voltage_supply
  match voltages with
  | [] => voltageFromNetName py net.name
  | v :: vs => some (vs.foldl max v)

def formatOhms (ohms : ℚ) : String :=
  if 1000000 ≤ ohms then s!"{py.fmt.g (ohms / 1000000)}M"
  else if 1000 ≤ ohms then s!"{py.fmt.g (ohms / 1000)}k"
  else py.fmt.g ohms

/-! ## Handlers -/

abbrev Repaired := Except String (Design × List Patch)

/-- The loop of a handler over the names in the violations. -/
def eachRef (fix : Design → String → Repaired) (design : Design) : List String → Repaired
  | [] => .ok (design, [])
  | ref :: refs => do
    let (design, first) ← fix design ref
    let (design, rest) ← eachRef fix design refs
    .ok (design, first ++ rest)

def defaultFootprint (comp : Component) : Option (String × ℚ) :=
  let ctype := py.lower comp.type
  let value := py.upper (comp.value.getD "")
  if ctype = "resistor" then some ("0402", 1)
  else if ctype = "capacitor" then some ("0402", 1)
  else if ctype = "inductor" then some ("0805", 0.9)
  else if ctype = "led" then some ("LED-0603", 1)
  else if "TLV62569".toList <:+: value.toList then some ("SOT-23-5", 1)
  else if value ∈ ["MAX3485", "SN65HVD230"] then some ("SOIC-8", 1)
  else if ctype = "ldo" ∨ "LDO_".toList.isPrefixOf value.toList then some ("SOT-23-3", 0.9)
  else none

def fixFootprint (design : Design) (ref : String) : Repaired :=
  match design.components.get? ref with
  | none => .ok (design, [])
  | some comp =>
    if comp.footprint ≠ "" then .ok (design, [])
    else match defaultFootprint py comp with
      | none => .ok (design, [])
      | some (footprint, confidence) =>
        let value := comp.value.getD "None"
        .ok ({ design with components := design.components.set ref { comp with footprint } },
          [{ rule_id := "ERC020", component_ref := ref, field := "footprint", old_value := comp.footprint,
             new_value := footprint, rationale := pyStrip s!"assign standard {footprint} for {comp.type} {value}",
             confidence }])

def inputNetPriority : List String := ["VBUS", "VBAT", "VIN"]

def typesOn (net : Net) : List String :=
  (net.nodes.filterMap fun node => getComponent design node.component_ref).map fun comp => py.lower comp.type

def boardInputNet : Option String :=
  (inputNetPriority.find? fun name => name ∈ design.nets.keys).or
    ((design.nets.items.find? fun item =>
      (typesOn py design item.2).any (fun t => ["connector", "header", "jack"].any fun word => word.toList <:+: t.toList) ∧
        (typesOn py design item.2).any fun t => "regulator".toList <:+: t.toList).map fst)

/-- The first number that is free: among one more than there are components, one is. -/
def nextRef (pre : String) : String :=
  (((range (design.components.keys.length + 1)).map fun i => s!"{pre}{i + 1}").find? fun ref =>
    ref ∉ design.components.keys).getD pre

/-- `Net(id=name, name=name)` -/
def newNet (name : String) : Except String Net :=
  if h : pyStrip name ≠ "" then .ok { id := name, name := ⟨name, h⟩ } else .error "Net name cannot be empty"

def fixEnable (input_net : String) (design : Design) (net_id : String) : Repaired :=
  match design.nets.get? net_id with
  | none => .ok (design, [])
  | some net =>
    if 2 ≤ net.nodes.length ∨ ¬ "EN_".toList.isPrefixOf (py.upper net_id).toList then .ok (design, [])
    else do
      let ref := nextRef design "R"
      let resistor : Component := { id := ref, ref, type := "resistor", value := some "100k", footprint := "0402" }
      let nets := design.nets.set net_id { net with nodes := net.nodes ++ [⟨ref, "2"⟩] }
      -- the default of `setdefault` is made also when the net is there
      let default ← newNet input_net
      let input := (nets.get? input_net).getD default
      .ok ({ design with
          components := design.components.set ref resistor
          nets := nets.set input_net { input with nodes := input.nodes ++ [⟨ref, "1"⟩] } },
        [{ rule_id := "ERC012", component_ref := ref, field := "net", old_value := "",
           new_value := s!"100k pull-up {net_id} -> {input_net}",
           rationale := s!"tie floating enable {net_id} high to {input_net} (always-on)", confidence := 0.8 }])

def i2cValue (net_id : String) : Option String :=
  let supply := match inferRailVoltage py design net_id with
    | none => 3.3
    | some supply => if supply = 0 then 3.3 else supply
  match i2cPullup py.fmt supply 100 100000 24 with
  | .error _ => none
  | .ok pull => some (formatOhms py pull.recommended_ohms)

def fixI2cPullup (design : Design) (net_id : String) : Repaired :=
  .ok (design, (i2cValue py design net_id).toList.map fun value =>
    { rule_id := "ERC005", component_ref := "", field := "pullup_value", old_value := "", new_value := value,
      rationale := s!"add {value} pull-up on {net_id} for I2C", confidence := 0.85 })

def ledValue (led_ref : String) : Option String := do
  let net ← getNetForPin design led_ref "ANODE"
  let supply ← inferRailVoltage py design net.id
  if supply ≤ 2 then none
  else match ledSeriesResistor py.fmt supply 2 10 24 with
    | .error _ => none
    | .ok res => some (formatOhms py res.chosen_ohms)

def fixLed (design : Design) (led_ref : String) : Repaired :=
  .ok (design, (ledValue py design led_ref).toList.map fun value =>
    { rule_id := "ERC008", component_ref := led_ref, field := "series_resistor_value", old_value := "",
      new_value := value, rationale := s!"add {value} series resistor for LED {led_ref}", confidence := 0.9 })

abbrev Handler := Design → List ERCViolation → Repaired

def repairMissingFootprint : Handler := fun design violations =>
  eachRef (fixFootprint py) design (violations.flatMap ERCViolation.component_refs)

def repairFloatingEnable : Handler := fun design violations =>
  match boardInputNet py design with
  | none => .ok (design, [])
  | some input_net => eachRef (fixEnable py input_net) design (violations.flatMap ERCViolation.net_refs)

def repairI2cPullup : Handler := fun design violations =>
  eachRef (fixI2cPullup py) design (violations.flatMap ERCViolation.net_refs)

def repairLedSeriesResistor : Handler := fun design violations =>
  eachRef (fixLed py) design (violations.flatMap ERCViolation.component_refs)

/-- `REPAIR_REGISTRY` -/
def getHandler (rule_id : String) : Option Handler :=
  if rule_id = "ERC020" then some (repairMissingFootprint py)
  else if rule_id = "ERC012" then some (repairFloatingEnable py)
  else if rule_id = "ERC005" then some (repairI2cPullup py)
  else if rule_id = "ERC008" then some (repairLedSeriesResistor py)
  else none

/-! ## A round -/

def groupRepairViolations (violations : List ERCViolation) : Dict String (List ERCViolation) :=
  Dict.groupBy ERCViolation.rule_id id violations

def escalatedRepairDecisions (rule_id : String) (violations : List ERCViolation) : List RepairDecision :=
  violations.map fun violation =>
    { rule_id, component_refs := violation.component_refs, net_refs := violation.net_refs, outcome := .escalated,
      reason := "no handler registered for this rule" }

def handledRepairDecisions (rule_id : String) (violations : List ERCViolation) (patches : List Patch) :
    List RepairDecision :=
  let matching := patches.filter fun patch => patch.rule_id = rule_id
  violations.flatMap fun violation =>
    if matching.isEmpty then
      [{ rule_id, component_refs := violation.component_refs, net_refs := violation.net_refs, outcome := .declined,
         reason := "handler ran but produced no patch (insufficient context)" }]
    else matching.map fun patch =>
      { rule_id, component_refs := violation.component_refs, net_refs := violation.net_refs, outcome := .applied,
        reason := patch.rationale, patch := some patch }

def applyRepairRuleGroups (design : Design) :
    List (String × List ERCViolation) → Except String (Design × List Patch × List RepairDecision)
  | [] => .ok (design, [], [])
  | (rule_id, violations) :: groups =>
    match getHandler py rule_id with
    | none => do
      let (design, patches, decisions) ← applyRepairRuleGroups design groups
      .ok (design, patches, escalatedRepairDecisions rule_id violations ++ decisions)
    | some handler => do
      let (design, new_patches) ← handler design violations
      let (design, patches, decisions) ← applyRepairRuleGroups design groups
      .ok (design, new_patches ++ patches, handledRepairDecisions rule_id violations new_patches ++ decisions)

/-! ## The loop -/

variable (run : Design → List ERCViolation)

/-- The rounds that are left, from the round of an index on. -/
def repairLoop : ℕ → ℕ → Design → RepairResult → Except String (Design × RepairResult)
  | 0, _, design, result => .ok (design, { result with remaining := run design })
  | rounds + 1, index, design, result => do
    let violations := run design
    let (design, patches, decisions) ← applyRepairRuleGroups py design (groupRepairViolations violations).items
    let result := { result with decisions := result.decisions ++ decisions }
    if patches.isEmpty then .ok (design, { result with converged := true, remaining := violations })
    else
      let after := (run design).length
      let result := { result with
        iterations := result.iterations ++ [⟨index, violations.length, after, patches⟩]
        patches := result.patches ++ patches }
      if violations.length ≤ after then .ok (design, { result with remaining := run design })
      else repairLoop rounds (index + 1) design result

def repairDesign (max_iterations : ℕ) : Except String (Design × RepairResult) :=
  repairLoop py run max_iterations 0 design {}

/-! ## What the loop should do -/

/-- The input net that an enable net would be tied to has a name. -/
def InputNamed : Prop := ∀ input_net ∈ boardInputNet py design, pyStrip input_net ≠ ""

/-- What handlers can make of a design. -/
inductive Reachable : Design → Prop
  | start : Reachable design
  | handle (d d' : Design) (rule_id : String) (handler : Handler) (violations : List ERCViolation) (patches : List Patch) :
    Reachable d → getHandler py rule_id = some handler → handler d violations = .ok (d', patches) → Reachable d'

structure Round where
  before : Design
  patches : List Patch
  decisions : List RepairDecision
  after : Design

/-- Rounds of the handlers, each on what the checker reports of the design it finds. -/
def Rounds (design : Design) : List Round → Design → Prop
  | [], design' => design' = design
  | round :: rounds, design' => round.before = design ∧
      applyRepairRuleGroups py design (groupRepairViolations (run design)).items =
        .ok (round.after, round.patches, round.decisions) ∧ Rounds round.after rounds design'

def recorded (rounds : List Round) : List (ℕ × ℕ × List Patch) :=
  (rounds.filter fun round => !round.patches.isEmpty).map fun round =>
    ((run round.before).length, (run round.after).length, round.patches)

structure Ends (max_iterations : ℕ) (rounds : List Round) (design' : Design) (result : RepairResult) : Prop where
  leads : Rounds py run design rounds design'
  length_le : rounds.length ≤ max_iterations
  remaining : result.remaining = run design'
  recorded : result.iterations.map (fun it => (it.violations_before, it.violations_after, it.patches)) =
    recorded run rounds
  converged : result.converged = true ↔ ∃ last ∈ rounds.getLast?, last.patches = []
  unchanged : ∀ round ∈ rounds, round.patches = [] → round.after = round.before
  lowers : ∀ it ∈ result.iterations.dropLast, it.violations_after < it.violations_before
  chain : result.iterations.IsChain fun it next => next.violations_before = it.violations_after

variable {py design run} {design' : Design}

/-! ## Frames -/

section Frames

variable {fix : Design → String → Repaired} {rule_id : String} {handler : Handler} {violations : List ERCViolation}
  {groups : List (String × List ERCViolation)} {patches : List Patch} {decisions : List RepairDecision}

theorem eachRef_frame (hfix : ∀ design ref design', fix design ref = .ok (design', []) → design' = design)
    {refs : List String} (h : eachRef fix design refs = .ok (design', [])) : design' = design := by
  induction refs generalizing design with
  | nil => exact (mk.inj (Except.ok.inj h)).1.symm
  | cons ref refs ih =>
    obtain ⟨⟨middle, first⟩, hfirst, hrest⟩ := bind_eq_ok_iff.mp h
    obtain ⟨⟨last, rest⟩, hrest, heq⟩ := bind_eq_ok_iff.mp hrest
    obtain ⟨rfl, hnil⟩ := mk.inj (Except.ok.inj heq)
    obtain ⟨rfl, rfl⟩ := append_eq_nil_iff.mp hnil
    exact (ih hrest).trans (hfix _ _ _ hfirst)

theorem fixFootprint_frame (design : Design) (ref : String) (design' : Design)
    (h : fixFootprint py design ref = .ok (design', [])) : design' = design := by
  unfold fixFootprint at h
  split at h
  · exact (mk.inj (Except.ok.inj h)).1.symm
  · split at h
    · exact (mk.inj (Except.ok.inj h)).1.symm
    · split at h
      · exact (mk.inj (Except.ok.inj h)).1.symm
      · cases h

theorem fixEnable_frame {input_net : String} (design : Design) (net_id : String) (design' : Design)
    (h : fixEnable py input_net design net_id = .ok (design', [])) : design' = design := by
  unfold fixEnable at h
  split at h
  · exact (mk.inj (Except.ok.inj h)).1.symm
  · split at h
    · exact (mk.inj (Except.ok.inj h)).1.symm
    · obtain ⟨default, -, heq⟩ := bind_eq_ok_iff.mp h
      cases heq

theorem handler_frame (hget : getHandler py rule_id = some handler)
    (h : handler design violations = .ok (design', [])) : design' = design := by
  unfold getHandler at hget
  split_ifs at hget <;> obtain rfl := Option.some.inj hget
  · exact eachRef_frame fixFootprint_frame h
  · unfold repairFloatingEnable at h
    split at h
    · exact (mk.inj (Except.ok.inj h)).1.symm
    · exact eachRef_frame fixEnable_frame h
  · exact eachRef_frame (fun _ _ _ h => (mk.inj (Except.ok.inj h)).1.symm) h
  · exact eachRef_frame (fun _ _ _ h => (mk.inj (Except.ok.inj h)).1.symm) h

theorem applyRepairRuleGroups_frame (h : applyRepairRuleGroups py design groups = .ok (design', [], decisions)) :
    design' = design := by
  induction groups generalizing design decisions with
  | nil => exact (mk.inj (Except.ok.inj h)).1.symm
  | cons group groups ih =>
    unfold applyRepairRuleGroups at h
    split at h
    · obtain ⟨⟨last, rest, others⟩, hrest, heq⟩ := bind_eq_ok_iff.mp h
      cases heq
      exact ih hrest
    · rename_i handler hget
      obtain ⟨⟨middle, first⟩, hfirst, h⟩ := bind_eq_ok_iff.mp h
      obtain ⟨⟨last, rest, others⟩, hrest, heq⟩ := bind_eq_ok_iff.mp h
      simp only [Except.ok.injEq, mk.injEq, append_eq_nil_iff] at heq
      obtain ⟨rfl, ⟨rfl, rfl⟩, -⟩ := heq
      exact (ih hrest).trans (handler_frame hget hfirst)

/-! ## What does not raise -/

theorem exists_eachRef (hfix : ∀ design ref, ∃ r, fix design ref = .ok r) (design : Design) (refs : List String) :
    ∃ r, eachRef fix design refs = .ok r := by
  induction refs generalizing design with
  | nil => exact ⟨_, rfl⟩
  | cons ref refs ih =>
    obtain ⟨⟨middle, first⟩, hfirst⟩ := hfix design ref
    obtain ⟨⟨last, rest⟩, hrest⟩ := ih middle
    exact ⟨(last, first ++ rest), bind_eq_ok_iff.mpr ⟨_, hfirst, bind_eq_ok_iff.mpr ⟨_, hrest, rfl⟩⟩⟩

theorem exists_handler (hget : getHandler py rule_id = some handler) (hnamed : InputNamed py design) :
    ∃ r, handler design violations = .ok r := by
  unfold getHandler at hget
  split_ifs at hget <;> obtain rfl := Option.some.inj hget
  · refine exists_eachRef (fun design ref => ?_) _ _
    unfold fixFootprint
    split
    · exact ⟨_, rfl⟩
    · split
      · exact ⟨_, rfl⟩
      · split <;> exact ⟨_, rfl⟩
  · unfold repairFloatingEnable
    split
    · exact ⟨_, rfl⟩
    · rename_i input_net hinput
      refine exists_eachRef (fun design net_id => ?_) _ _
      unfold fixEnable
      split
      · exact ⟨_, rfl⟩
      · split
        · exact ⟨_, rfl⟩
        · exact ⟨_, bind_eq_ok_iff.mpr ⟨_, dif_pos (hnamed input_net hinput), rfl⟩⟩
  · exact exists_eachRef (fun _ _ => ⟨_, rfl⟩) _ _
  · exact exists_eachRef (fun _ _ => ⟨_, rfl⟩) _ _

theorem eachRef_keeps {P : Design → Prop} (hfix : ∀ design ref design' patches, P design →
    fix design ref = .ok (design', patches) → P design') (hP : P design) {refs : List String}
    (h : eachRef fix design refs = .ok (design', patches)) : P design' := by
  induction refs generalizing design patches with
  | nil => exact (mk.inj (Except.ok.inj h)).1 ▸ hP
  | cons ref refs ih =>
    obtain ⟨⟨middle, first⟩, hfirst, h⟩ := bind_eq_ok_iff.mp h
    obtain ⟨⟨last, rest⟩, hrest, heq⟩ := bind_eq_ok_iff.mp h
    obtain ⟨rfl, -⟩ := mk.inj (Except.ok.inj heq)
    exact ih (hfix _ _ _ _ hP hfirst) hrest

theorem fixFootprint_nets (design : Design) (ref : String) (design' : Design) (patches : List Patch)
    (h : fixFootprint py design ref = .ok (design', patches)) : design'.nets = design.nets := by
  unfold fixFootprint at h
  split at h
  · exact (mk.inj (Except.ok.inj h)).1 ▸ rfl
  · split at h
    · exact (mk.inj (Except.ok.inj h)).1 ▸ rfl
    · split at h <;> exact (mk.inj (Except.ok.inj h)).1 ▸ rfl

theorem Reachable.trans {d d' : Design} (h : Reachable py design d) (h' : Reachable py d d') : Reachable py design d' := by
  induction h' with
  | start => exact h
  | handle d d' rule_id handler violations patches _ hget hrun ih => exact .handle d d' _ _ _ _ ih hget hrun

theorem exists_applyRepairRuleGroups (hnamed : ∀ d, Reachable py design d → InputNamed py d)
    (groups : List (String × List ERCViolation)) :
    ∃ d patches decisions, applyRepairRuleGroups py design groups = .ok (d, patches, decisions) ∧
      Reachable py design d := by
  induction groups generalizing design with
  | nil => exact ⟨design, [], [], rfl, .start⟩
  | cons group groups ih =>
    unfold applyRepairRuleGroups
    split
    · obtain ⟨d, patches, decisions, hrest, hd⟩ := ih hnamed
      exact ⟨d, _, _, bind_eq_ok_iff.mpr ⟨_, hrest, rfl⟩, hd⟩
    · rename_i handler hget
      obtain ⟨⟨middle, first⟩, hfirst⟩ : ∃ r, handler design group.2 = .ok r :=
        exists_handler hget (hnamed design .start)
      have hmiddle : Reachable py design middle := .handle _ _ _ _ _ _ .start hget hfirst
      obtain ⟨d, patches, decisions, hrest, hd⟩ := ih fun d hd => hnamed d (hmiddle.trans hd)
      exact ⟨d, _, _, bind_eq_ok_iff.mpr ⟨_, hfirst, bind_eq_ok_iff.mpr ⟨_, hrest, rfl⟩⟩, hmiddle.trans hd⟩

def NetsNamed (design : Design) : Prop := ∀ name ∈ design.nets.keys, pyStrip name ≠ ""

theorem inputNamed_of_netsNamed (h : NetsNamed design) : InputNamed py design := by
  intro input_net hinput
  apply h
  rcases Option.or_eq_some_iff.mp hinput with hfind | ⟨-, hfind⟩
  · simpa using find?_some hfind
  · obtain ⟨item, hitem, rfl⟩ := Option.map_eq_some_iff.mp hfind
    exact mem_map_of_mem (mem_of_find?_eq_some hitem)

theorem fixEnable_netsNamed {input_net : String} (hinput : pyStrip input_net ≠ "") (design : Design) (net_id : String)
    (design' : Design) (patches : List Patch) (hnamed : NetsNamed design)
    (h : fixEnable py input_net design net_id = .ok (design', patches)) : NetsNamed design' := by
  unfold fixEnable at h
  split at h
  · exact (mk.inj (Except.ok.inj h)).1 ▸ hnamed
  · rename_i net hget
    split at h
    · exact (mk.inj (Except.ok.inj h)).1 ▸ hnamed
    · obtain ⟨default, -, heq⟩ := bind_eq_ok_iff.mp h
      obtain ⟨rfl, -⟩ := mk.inj (Except.ok.inj heq)
      intro name hname
      obtain ⟨found, hfound⟩ := Dict.mem_keys_iff.mp hname
      simp only [Dict.get?_set] at hfound
      split at hfound
      · rename_i heq
        exact heq ▸ hinput
      · split at hfound
        · rename_i heq
          exact hnamed name (heq ▸ Dict.mem_keys_iff.mpr ⟨net, hget⟩)
        · exact hnamed name (Dict.mem_keys_iff.mpr ⟨found, hfound⟩)

theorem inputNamed_of_reachable (h : NetsNamed design) {d : Design} (hd : Reachable py design d) : InputNamed py d := by
  apply inputNamed_of_netsNamed
  induction hd with
  | start => exact h
  | handle d d' rule_id handler violations patches _ hget hrun ih =>
    have hkeep : ∀ {fix : Design → String → Repaired}, (∀ design ref design' patches,
        fix design ref = .ok (design', patches) → design'.nets = design.nets) → ∀ {refs},
        eachRef fix d refs = .ok (d', patches) → NetsNamed d' := by
      intro fix hfix refs hrun
      refine eachRef_keeps (fun design ref design' patches hP h => ?_) ih hrun
      unfold NetsNamed
      rw [hfix _ _ _ _ h]
      exact hP
    unfold getHandler at hget
    split_ifs at hget <;> obtain rfl := Option.some.inj hget
    · exact hkeep fixFootprint_nets hrun
    · unfold repairFloatingEnable at hrun
      split at hrun
      · exact (mk.inj (Except.ok.inj hrun)).1 ▸ ih
      · rename_i input_net hinput
        exact eachRef_keeps (fixEnable_netsNamed (inputNamed_of_netsNamed ih input_net hinput)) ih hrun
    · exact hkeep (fun _ _ _ _ h => (mk.inj (Except.ok.inj h)).1 ▸ rfl) hrun
    · exact hkeep (fun _ _ _ _ h => (mk.inj (Except.ok.inj h)).1 ▸ rfl) hrun

end Frames

/-! ## Runs of the loop -/

theorem Rounds.unchanged {rounds : List Round} (h : Rounds py run design rounds design') :
    ∀ round ∈ rounds, round.patches = [] → round.after = round.before := by
  induction rounds generalizing design with
  | nil => exact fun _ h => absurd h not_mem_nil
  | cons round rounds ih =>
    obtain ⟨rfl, hround, hrest⟩ := h
    intro other hother hnil
    rcases mem_cons.mp hother with rfl | hother
    · rw [hnil] at hround
      exact applyRepairRuleGroups_frame hround
    · exact ih hrest other hother hnil

/-- **A run of the loop**, from the result of the rounds before it. -/
theorem repairLoop_spec (hnamed : ∀ d, Reachable py design d → InputNamed py d) (n index : ℕ) (result : RepairResult)
    (hresult : result.converged = false) :
    ∃ rounds design' result' new, repairLoop py run n index design result = .ok (design', result') ∧
      result'.iterations = result.iterations ++ new ∧
      (∀ it ∈ new.head?, it.violations_before = (run design).length) ∧
      Ends py design run n rounds design' { result' with iterations := new } := by
  induction n generalizing design index result with
  | zero =>
    refine ⟨[], design, _, [], rfl, (append_nil _).symm, by simp, ?_⟩
    exact ⟨rfl, Nat.le_refl 0, rfl, rfl, by simp [hresult], by simp, by simp, List.IsChain.nil⟩
  | succ n ih =>
    obtain ⟨middle, patches, decisions, hround, hmiddle⟩ :=
      exists_applyRepairRuleGroups hnamed (groupRepairViolations (run design)).items
    simp only [repairLoop, hround, bind, Except.bind]
    cases patches with
    | nil =>
      -- the fixed point: the round left the design as it was
      obtain rfl := applyRepairRuleGroups_frame hround
      refine ⟨[⟨middle, [], decisions, middle⟩], middle, _, [], rfl, (append_nil _).symm, by simp, ?_⟩
      exact ⟨⟨rfl, hround, rfl⟩, by simp, rfl, rfl, by simp, by simp, by simp, List.IsChain.nil⟩
    | cons patch patches =>
      rw [if_neg (by simp)]
      split
      · -- no progress
        refine ⟨[⟨design, patch :: patches, decisions, middle⟩], middle, _,
          [⟨index, (run design).length, (run middle).length, patch :: patches⟩], rfl, rfl, by simp, ?_⟩
        exact ⟨⟨rfl, hround, rfl⟩, by simp, rfl, rfl, by simp [hresult], by simp, by simp, isChain_singleton _⟩
      · rename_i hlower
        obtain ⟨rounds, design', result', new, hrun, hnew, hhead, hends⟩ :=
          ih (fun d hd => hnamed d (hmiddle.trans hd)) (index + 1)
            { result with
              decisions := result.decisions ++ decisions
              iterations := result.iterations ++ [⟨index, (run design).length, (run middle).length, patch :: patches⟩]
              patches := result.patches ++ patch :: patches } hresult
        refine ⟨⟨design, patch :: patches, decisions, middle⟩ :: rounds, design', result',
          ⟨index, (run design).length, (run middle).length, patch :: patches⟩ :: new, hrun, by simp [hnew], by simp, ?_⟩
        have hleads : Rounds py run design (⟨design, patch :: patches, decisions, middle⟩ :: rounds) design' :=
          ⟨rfl, hround, hends.leads⟩
        refine ⟨hleads, Nat.succ_le_succ hends.length_le, hends.remaining, ?_, ?_, hleads.unchanged, ?_, ?_⟩
        · have hrecorded := hends.recorded
          simp only [recorded] at hrecorded
          simp [recorded, hrecorded]
        · rw [hends.converged]
          cases rounds with
          | nil => simp
          | cons round rounds => simp [getLast?_cons]
        · intro it hit
          cases new with
          | nil => simp at hit
          | cons next new =>
            rcases mem_cons.mp hit with rfl | hit
            · exact Nat.lt_of_not_le hlower
            · exact hends.lowers it hit
        · cases new with
          | nil => exact isChain_singleton _
          | cons next new => exact List.IsChain.cons_cons (hhead next rfl) hends.chain

/-- Texts without upper case, and numbers without a text. -/
def plainText : PyText where
  lower := id
  upper := id
  float _ := none
  digit := Char.isDigit
  space := Char.isWhitespace
  word := Char.isAlphanum
  fmt := ⟨fun _ => "", fun _ => ""⟩

def enableBoard (input_net : String) : Design where
  «meta» := { name := "board" }
  components := .ofItems [("J1", { id := "J1", ref := "J1", type := "connector" }),
    ("U1", { id := "U1", ref := "U1", type := "regulator" })]
  nets := .ofItems [(input_net, { id := input_net, name := ⟨"12V", by decide⟩, nodes := [⟨"J1", "1"⟩, ⟨"U1", "VIN"⟩] }),
    ("EN_3V3", { id := "EN_3V3", name := ⟨"EN_3V3", by decide⟩, nodes := [⟨"U1", "EN"⟩] })]

/-- The checker reports the enable net while it has one pin. -/
def floatingEnables (design : Design) : List ERCViolation :=
  (design.nets.items.filter fun item => item.2.nodes.length < 2).map fun item =>
    { rule_id := "ERC012", severity := "warning", message := "single-pin net", net_refs := [item.1] }

end ZapTrace.Schema.Repair
