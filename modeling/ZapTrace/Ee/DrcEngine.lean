import Mathlib.Data.List.Sort
import ZapTrace.Ee.DrcRules

/-!
# The design rule engine

The engine runs its checks one after the other on a design and sorts what they report. Three of the
checks change the design: two give classes to nets, and one replaces the references of the routing by
identifiers. Here the engine has no profile of a manufacturer.

## Main results

* `getNetClass_eq`, `foldl_lookup`: lookups of classes, apart from what they leave behind
* `checkTraceWidth_eq`, `checkViaCount_eq`: the checks that look up classes
* `mem_clearanceViolations`: what the clearance check reports
-/

set_option linter.unusedSectionVars false

namespace ZapTrace.Routing.Drc

open Plane List

variable {K : Type} [Field K] [LinearOrder K]

/-! ## Runs -/

/-- What a run reports. -/
structure DRCResult where
  violations : List DRCViolation
  total_violations : ℕ
  errors : ℕ
  warnings : ℕ
  info : ℕ
  passed : Bool
  deriving DecidableEq

/-- A check, and the rule under which it reports. -/
structure DRCCheck (K : Type) where
  rule_id : String
  check : Design K → List DRCViolation × Design K

def DRCCheck.reads (rule_id : String) (check : Design K → List DRCViolation) : DRCCheck K :=
  ⟨rule_id, fun design => (check design, design)⟩

structure DRCEngine (K : Type) where
  fmt : EngineFormat K
  classifier : Classifier
  knowledge_base : KnowledgeBase K
  /-- All rules, if it is not set. -/
  enabled_rules : Option (List String) := none

namespace DRCEngine

variable (engine : DRCEngine K)

def allChecks : List (DRCCheck K) :=
  [.reads "ERC-001" checkUnconnectedNets,
    .reads "DRC-001" (checkClearance engine.fmt.toFormat),
    ⟨"DRC-002", checkTraceWidth engine.fmt engine.knowledge_base engine.classifier⟩,
    .reads "DRC-003" (checkRightAngle engine.fmt),
    ⟨"DRC-005", checkUnroutedNets⟩,
    ⟨"DRC-006", checkViaCount engine.fmt.toFormat engine.knowledge_base engine.classifier⟩,
    .reads "DRC-010" checkMissingNetClass,
    .reads "DRC-011" (checkComponentOutsideBoard engine.fmt),
    .reads "DRC-020" (checkMinAnnularRing engine.fmt.toFormat),
    .reads "DRC-021" (checkBoardEdgeClearance engine.fmt),
    .reads "DRC-022" (checkSolderMaskSliver engine.fmt),
    .reads "DRC-023" (checkAcidTrap engine.fmt),
    .reads "DRC-024" (checkHighVoltageClearance engine.fmt),
    .reads "DRC-025" checkCopperBalance,
    .reads "DRC-012" (checkHighCurrentTraceWidth engine.fmt),
    .reads "DRC-013" (checkHoleToHoleClearance engine.fmt.toFormat)]

def Enables (rule_id : String) : Prop := ∀ rules ∈ engine.enabled_rules, rule_id ∈ rules

instance (rule_id : String) : Decidable (engine.Enables rule_id) :=
  inferInstanceAs (Decidable (∀ rules ∈ engine.enabled_rules, rule_id ∈ rules))

/-- The checks of a list, one after the other, with what they report and the design that they leave. -/
def runChecks : List (DRCCheck K) → Design K → List DRCViolation × Design K
  | [], design => ([], design)
  | check :: checks, design =>
    if engine.Enables check.rule_id then
      let (violations, design) := check.check design
      let (all_violations, design) := runChecks checks design
      (violations ++ all_violations, design)
    else runChecks checks design

end DRCEngine

def DRCSeverity.order : DRCSeverity → ℕ
  | error => 0
  | warning => 1
  | info => 2

/-- Errors come first. -/
def sortBySeverity (violations : List DRCViolation) : List DRCViolation :=
  violations.insertionSort fun first second => first.severity.order ≤ second.severity.order

def countOf (severity : DRCSeverity) (violations : List DRCViolation) : ℕ :=
  violations.countP fun violation => violation.severity = severity

def resultOf (all_violations : List DRCViolation) : DRCResult :=
  let all_violations := sortBySeverity all_violations
  let errors := countOf .error all_violations
  { violations := all_violations
    total_violations := all_violations.length
    errors := errors
    warnings := countOf .warning all_violations
    info := countOf .info all_violations
    passed := errors = 0 }

/-- Nets are classified before the checks, when the design has no classes. -/
def ensureClassified (classifier : Classifier) (design : Design K) : Design K :=
  if (design.net_classes.getD Dict.empty).items = [] then classifyDesign classifier design else design

def DRCEngine.run (engine : DRCEngine K) (design : Design K) : DRCResult × Design K :=
  let (all_violations, design) := engine.runChecks engine.allChecks (ensureClassified engine.classifier design)
  (resultOf all_violations, design)

/-- Two results have the same violations and the same verdict. -/
def SameReport (first second : DRCResult) : Prop :=
  first.violations.Perm second.violations ∧ first.passed = second.passed

theorem sortBySeverity_perm (violations : List DRCViolation) : (sortBySeverity violations).Perm violations :=
  perm_insertionSort _ violations

theorem sameReport_resultOf_iff {first second : List DRCViolation} :
    SameReport (resultOf first) (resultOf second) ↔ first.Perm second := by
  have hfirst := sortBySeverity_perm first
  have hsecond := sortBySeverity_perm second
  constructor
  · rintro ⟨hperm, -⟩
    exact hfirst.symm.trans (hperm.trans hsecond)
  · intro hperm
    have hsorted := hfirst.trans (hperm.trans hsecond.symm)
    refine ⟨hsorted, ?_⟩
    -- the verdict counts violations, in whatever order they are
    have herrors : countOf .error (sortBySeverity first) = countOf .error (sortBySeverity second) :=
      hsorted.countP_eq _
    show decide (countOf .error (sortBySeverity first) = 0) = decide (countOf .error (sortBySeverity second) = 0)
    rw [herrors]

/-! ## Classes of nets -/

section Classes

variable (classifier : Classifier)

def netClasses (design : Design K) : Dict String NetClass := design.net_classes.getD Dict.empty

/-- The class of a net, if it has one, or what classification gives it. -/
def classOf (design : Design K) (net_id : String) : NetClass :=
  (((netClasses design).get? net_id).or
    ((design.nets.get? net_id).map (classifier.netClass net_id))).getD .signalLow

/-- The design after the classes of some nets are looked up. -/
def settle (design : Design K) (net_ids : List String) : Design K :=
  if ∀ net_id ∈ net_ids, net_id ∈ (netClasses design).keys then design else classifyDesign classifier design

theorem get?_classifyDesign (design : Design K) (net_id : String) :
    (netClasses (classifyDesign classifier design)).get? net_id =
      ((netClasses design).get? net_id).or ((design.nets.get? net_id).map (classifier.netClass net_id)) := by
  have hget := Dict.get?_foldl_setDefault (fun item : String × Net K => classifier.netClass item.1 item.2)
    design.nets.items (netClasses design) net_id
  have hnet : design.nets.get? net_id = (Table.find Prod.fst design.nets.items net_id).map Prod.snd := rfl
  refine hget.trans ?_
  rw [hnet]
  cases hfind : Table.find Prod.fst design.nets.items net_id with
  | none => rfl
  | some item =>
    obtain ⟨-, rfl⟩ := Table.mem_of_find hfind
    rfl

theorem mem_keys_classifyDesign (design : Design K) (net_id : String) :
    net_id ∈ (netClasses (classifyDesign classifier design)).keys ↔
      net_id ∈ (netClasses design).keys ∨ net_id ∈ design.nets.keys := by
  simp only [Dict.mem_keys_iff, ← Option.isSome_iff_exists, get?_classifyDesign, Option.isSome_or,
    Option.isSome_map, Bool.or_eq_true]

theorem classifyDesign_of_classified {design : Design K} {net_classes : Dict String NetClass}
    (hclasses : design.net_classes = some net_classes)
    (h : ∀ net_id ∈ design.nets.keys, net_id ∈ net_classes.keys) :
    classifyDesign classifier design = design := by
  have hall : ∀ item ∈ design.nets.items, item.1 ∈ net_classes.keys := fun item hitem =>
    h item.1 (mem_map_of_mem hitem)
  have hfold := Dict.foldl_setDefault_of_mem (fun item => classifier.netClass item.1 item.2) hall
  obtain ⟨components, nets, board, board_def, placement, routing, classes, pours⟩ := design
  cases hclasses
  exact congrArg (fun classes => Design.mk components nets board board_def placement routing (some classes) pours)
    hfold

theorem classifyDesign_classifyDesign (design : Design K) :
    classifyDesign classifier (classifyDesign classifier design) = classifyDesign classifier design := by
  have hclasses : (classifyDesign classifier design).net_classes =
      some (netClasses (classifyDesign classifier design)) := rfl
  apply classifyDesign_of_classified classifier hclasses
  intro net_id hnet
  exact (mem_keys_classifyDesign classifier design net_id).mpr (.inr hnet)

@[simp] theorem settle_nil (design : Design K) : settle classifier design [] = design := by
  simp [settle]

theorem getNetClass_eq (design : Design K) (net_id : String) :
    getNetClass classifier design net_id = (classOf classifier design net_id, settle classifier design [net_id]) := by
  have hunfold : getNetClass classifier design net_id =
      let settled := if net_id ∈ (netClasses design).keys then design else classifyDesign classifier design
      (((netClasses settled).get? net_id).getD .signalLow, settled) := rfl
  rw [hunfold]
  by_cases hmem : net_id ∈ (netClasses design).keys
  · -- the net has a class
    obtain ⟨nc, hnc⟩ := Dict.mem_keys_iff.mp hmem
    have hsettle : settle classifier design [net_id] = design := if_pos (forall_mem_singleton.mpr hmem)
    rw [if_pos hmem, hsettle, classOf]
    dsimp only
    rw [hnc]
    rfl
  · have hsettle : settle classifier design [net_id] = classifyDesign classifier design :=
      if_neg fun hall => hmem (forall_mem_singleton.mp hall)
    rw [if_neg hmem, hsettle, classOf, ← get?_classifyDesign]

theorem classOf_classifyDesign (design : Design K) :
    classOf classifier (classifyDesign classifier design) = classOf classifier design := by
  ext net_id
  rw [classOf, get?_classifyDesign, classOf, Option.or_assoc]
  show (((netClasses design).get? net_id).or (((design.nets.get? net_id).map (classifier.netClass net_id)).or
    ((design.nets.get? net_id).map (classifier.netClass net_id)))).getD .signalLow = _
  rw [Option.or_self]

@[simp] theorem classOf_settle (design : Design K) (net_ids : List String) :
    classOf classifier (settle classifier design net_ids) = classOf classifier design := by
  unfold settle
  split
  · rfl
  · exact classOf_classifyDesign classifier design

theorem settle_classifyDesign (design : Design K) (net_ids : List String) :
    settle classifier (classifyDesign classifier design) net_ids = classifyDesign classifier design := by
  unfold settle
  split
  · rfl
  · exact classifyDesign_classifyDesign classifier design

theorem settle_settle (design : Design K) (first second : List String) :
    settle classifier (settle classifier design first) second = settle classifier design (first ++ second) := by
  by_cases hfirst : ∀ net_id ∈ first, net_id ∈ (netClasses design).keys
  · have hsettle : settle classifier design first = design := if_pos hfirst
    rw [hsettle, settle, settle]
    congr 1
    rw [forall_mem_append, eq_iff_iff]
    exact (and_iff_right hfirst).symm
  · have hall : ¬ ∀ net_id ∈ first ++ second, net_id ∈ (netClasses design).keys := fun h =>
      hfirst (forall_mem_append.mp h).1
    have hsettle : settle classifier design first = classifyDesign classifier design := if_neg hfirst
    rw [hsettle, settle_classifyDesign, settle, if_neg hall]

theorem settle_congr {first second : List String} (h : ∀ net_id, net_id ∈ first ↔ net_id ∈ second)
    (design : Design K) : settle classifier design first = settle classifier design second := by
  rw [settle, settle]
  congr 1
  rw [eq_iff_iff]
  exact forall_congr' fun net_id => by rw [h net_id]

theorem nets_settle (design : Design K) (net_ids : List String) :
    (settle classifier design net_ids).nets = design.nets := by
  unfold settle
  split <;> rfl

theorem routing_settle (design : Design K) (net_ids : List String) :
    (settle classifier design net_ids).routing = design.routing := by
  unfold settle
  split <;> rfl

theorem foldl_lookup {α : Type} (net_id : α → String) (violation : NetClass → α → Option DRCViolation)
    {step : List DRCViolation × Design K → α → List DRCViolation × Design K} (design : Design K)
    (hstep : ∀ vio (settled : Design K) x, settled.nets = design.nets → step (vio, settled) x =
      (vio ++ (violation (getNetClass classifier settled (net_id x)).1 x).toList,
        (getNetClass classifier settled (net_id x)).2)) (xs : List α) :
    xs.foldl step ([], design) =
      (xs.filterMap fun x => violation (classOf classifier design (net_id x)) x,
        settle classifier design (xs.map net_id)) := by
  induction xs using reverseRecOn with
  | nil => simp
  | append_singleton xs x ih =>
    rw [foldl_append, ih, foldl_cons, foldl_nil,
      hstep _ _ _ (nets_settle classifier design _), getNetClass_eq, classOf_settle, settle_settle,
      filterMap_append, map_append]
    cases hviolation : violation (classOf classifier design (net_id x)) x <;> simp [hviolation]

end Classes

/-! ## What the checks report -/

section Checks

variable (fmt : EngineFormat K) (kb : KnowledgeBase K) (classifier : Classifier)

theorem checkTraceWidth_eq (design : Design K) :
    checkTraceWidth fmt kb classifier design =
      ((traceSegments design).filterMap fun seg =>
          widthViolation fmt kb (classOf classifier design seg.net_id) seg,
        settle classifier design ((traceSegments design).map TraceSegment.net_id)) :=
  foldl_lookup classifier TraceSegment.net_id (widthViolation fmt kb) design (fun _ _ _ _ => rfl) _

/-- The violation of a net with vias, given its class. -/
def viaCountReport (nets : Dict String (Net K)) (nc : NetClass) (item : String × ℕ) : Option DRCViolation :=
  let rule := kb.getRule nc
  if rule.max_vias < item.2 then
    some
      { rule_id := "DRC-006"
        severity := .error
        message := s!"Net '{fmt.net (nets.get? item.1)}' ({item.1}) has {item.2} vias, " ++
          s!"exceeds {nc.value} limit of {rule.max_vias}"
        net_id := some item.1 }
  else none

theorem viaCountViolation_eq (design : Design K) (net_id : String) (count : ℕ) :
    viaCountViolation fmt.toFormat kb classifier design net_id count =
      (viaCountReport fmt kb (getNetClass classifier design net_id).2.nets (getNetClass classifier design net_id).1
          (net_id, count),
        (getNetClass classifier design net_id).2) := by
  unfold viaCountViolation viaCountReport
  dsimp only
  split <;> rfl

/-- The nets with vias and how many they have. -/
def viaCounts (design : Design K) : List (String × ℕ) :=
  match design.routing with
  | none => []
  | some routing => (viaCount routing).items

theorem checkViaCount_eq (design : Design K) :
    checkViaCount fmt.toFormat kb classifier design =
      ((viaCounts design).filterMap fun item =>
          viaCountReport fmt kb design.nets (classOf classifier design item.1) item,
        settle classifier design ((viaCounts design).map Prod.fst)) := by
  unfold checkViaCount viaCounts
  cases design.routing with
  | none => simp
  | some routing =>
    refine foldl_lookup classifier Prod.fst (viaCountReport fmt kb design.nets) design ?_ _
    rintro vio settled ⟨net_id, count⟩ hnets
    dsimp only
    rw [viaCountViolation_eq, getNetClass_eq, nets_settle, hnets]

/-- Two traces of different nets on one layer have too small a clearance. -/
def Conflict (m : K) (first second : TraceSegment K) : Prop :=
  first.net_id ≠ second.net_id ∧ first.layer = second.layer ∧ ¬ (tracePairClearance first second).AtLeast m

/-- The violation of two traces that are in conflict. -/
def clearanceReport (fmt : Format K) (m : K) (first second : TraceSegment K) : DRCViolation where
  rule_id := "DRC-001"
  severity := .error
  message := s!"Clearance violation: net '{first.net_id}' and '{second.net_id}' " ++
    s!"are {fmt.gap3 (tracePairClearance first second)}mm apart (min {fmt.shown m}mm)"
  location := some s!"{first.layer}: {formatTraceLocation fmt first} | {formatTraceLocation fmt second}"
  net_id := some first.net_id

/-- The contact of two traces is among some contacts. -/
def Reported (fmt : Format K) (reported : List (ContactKey K)) (first second : TraceSegment K) : Prop :=
  ∃ key ∈ clearanceContactKey fmt first second, key ∈ reported

section Clearance

variable (fmt : Format K) (m : K) {reported : List (ContactKey K)} {first second : TraceSegment K}

theorem clearanceViolation_of_not_conflict (h : ¬ Conflict m first second) :
    clearanceViolation fmt m reported first second = (none, reported) := by
  unfold clearanceViolation
  split
  · rfl
  · rename_i hpair
    obtain ⟨hnet, hlayer⟩ := not_or.mp hpair
    rw [if_pos (not_not.mp fun hfar => h ⟨hnet, not_not.mp hlayer, hfar⟩)]

theorem clearanceViolation_of_reported (h : Reported fmt reported first second) :
    clearanceViolation fmt m reported first second = (none, reported) := by
  unfold clearanceViolation
  split
  · rfl
  · dsimp only
    split
    · rfl
    · exact if_pos h

theorem clearanceViolation_of_conflict (h : Conflict m first second) (hnew : ¬ Reported fmt reported first second) :
    clearanceViolation fmt m reported first second =
      (some (clearanceReport fmt m first second), (clearanceContactKey fmt first second).toList ++ reported) := by
  obtain ⟨hnet, hlayer, hfar⟩ := h
  unfold clearanceViolation
  rw [if_neg (not_or.mpr ⟨hnet, not_not.mpr hlayer⟩), if_neg hfar]
  exact if_neg hnew

end Clearance

/-- What is reported is the violation of a pair in conflict. -/
theorem mem_clearanceViolations (fmt : Format K) (m : K) {reported : List (ContactKey K)}
    {pairs : List (TraceSegment K × TraceSegment K)} {v : DRCViolation}
    (h : v ∈ clearanceViolations fmt m reported pairs) :
    ∃ pair ∈ pairs, Conflict m pair.1 pair.2 ∧ v = clearanceReport fmt m pair.1 pair.2 := by
  induction pairs generalizing reported with
  | nil => exact absurd h not_mem_nil
  | cons pair pairs ih =>
    rcases mem_append.mp h with hv | hv
    · -- the first pair is reported
      replace hv : v ∈ (clearanceViolation fmt m reported pair.1 pair.2).1.toList := hv
      by_cases hconflict : Conflict m pair.1 pair.2
      · by_cases hreported : Reported fmt reported pair.1 pair.2
        · rw [clearanceViolation_of_reported fmt m hreported] at hv
          exact absurd hv not_mem_nil
        · rw [clearanceViolation_of_conflict fmt m hconflict hreported] at hv
          exact ⟨pair, mem_cons_self, hconflict, mem_singleton.mp hv⟩
      · rw [clearanceViolation_of_not_conflict fmt m hconflict] at hv
        exact absurd hv not_mem_nil
    · obtain ⟨other, hother, hrest⟩ := ih hv
      exact ⟨other, mem_cons_of_mem _ hother, hrest⟩

end Checks

end ZapTrace.Routing.Drc
