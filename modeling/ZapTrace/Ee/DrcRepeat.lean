import ZapTrace.Ee.DrcReports
import ZapTrace.Library.Lists

/-!
# Running the design rule engine twice

The rule for nets that are not routed replaces the references of the routing by identifiers. The checks
before it see a routing as it is written, and in the next run they see the references replaced. So a
second run reports what the first one reports only where the names that are replaced do not count: not
for clearances, not for widths, not for corners, and not for the moment at which nets are classified.

## Main results

* `agree_iff`: only the checks before the replacement and those that read classes can differ
-/

set_option linter.unusedSectionVars false

namespace ZapTrace.Routing.Drc

open Plane DRCEngine

variable {K : Type} [Field K] [LinearOrder K]

/-! ## References -/

/-- What a reference is replaced by. -/
def canonicalRef (nets : Dict String (Net K)) (ref : String) : String := (canonicalNetId nets ref).getD ref

/-- The trace names its net as the engine does after the replacement. -/
def Identified (nets : Dict String (Net K)) (seg : TraceSegment K) : Prop :=
  canonicalRef nets seg.net_id = seg.net_id

instance (nets : Dict String (Net K)) (seg : TraceSegment K) : Decidable (Identified nets seg) :=
  inferInstanceAs (Decidable (_ = _))

/-- A design with the references of its routing replaced. -/
def replaceRefs (design : Design K) : Design K :=
  { design with routing := design.routing.map (canonicalRoutingNetIds design.nets) }

/-- Replacing the references once more changes nothing. -/
def Settled (design : Design K) : Prop :=
  (replaceRefs (replaceRefs design)).routing = (replaceRefs design).routing

theorem normalizeTrace_eq (nets : Dict String (Net K)) (seg : TraceSegment K) :
    normalizeTrace nets seg = { seg with net_id := canonicalRef nets seg.net_id } := by
  unfold normalizeTrace canonicalRef
  cases canonicalNetId nets seg.net_id <;> rfl

theorem normalizeTrace_of_identified {nets : Dict String (Net K)} {seg : TraceSegment K}
    (h : Identified nets seg) : normalizeTrace nets seg = seg := by
  rw [normalizeTrace_eq, h]

theorem traceSegments_replaceRefs (design : Design K) :
    traceSegments (replaceRefs design) = (traceSegments design).map (normalizeTrace design.nets) := by
  unfold traceSegments replaceRefs
  cases design.routing <;> rfl

theorem replaceRefs_replaceRefs {design : Design K} (h : Settled design) :
    replaceRefs (replaceRefs design) = replaceRefs design :=
  congrArg (fun routing => { design with routing := routing }) h

theorem Settled.identified {design : Design K} (h : Settled design) :
    ∀ seg ∈ traceSegments design, Identified design.nets (normalizeTrace design.nets seg) := by
  have htraces := congrArg traceSegments (replaceRefs_replaceRefs h)
  rw [traceSegments_replaceRefs, traceSegments_replaceRefs, List.map_map] at htraces
  intro seg hseg
  have hnormal := congrArg TraceSegment.net_id (List.map_inj_left.mp htraces seg hseg)
  rw [Function.comp_apply] at hnormal
  have hnet : ∀ seg : TraceSegment K,
      (normalizeTrace design.nets seg).net_id = canonicalRef design.nets seg.net_id := by
    intro seg
    rw [normalizeTrace_eq]
  exact (hnet _).symm.trans hnormal

/-! ## The designs of a run -/

section Designs

variable (engine : DRCEngine K)

/-- The design after the references are replaced, if the rule that does it is enabled. -/
def DRCEngine.replaced (design : Design K) : Design K :=
  if engine.Enables "DRC-005" then replaceRefs design else design

/-- The nets of which the width check looks up the class. -/
def DRCEngine.widthNets (design : Design K) : List String :=
  if engine.Enables "DRC-002" then (traceSegments design).map TraceSegment.net_id else []

/-- The nets of which the via count looks up the class. -/
def DRCEngine.viaNets (design : Design K) : List String :=
  if engine.Enables "DRC-006" then (viaCounts design).map Prod.fst else []

variable {design : Design K}

theorem apply_settle {β : Type} {classifier : Classifier} {read : Design K → β}
    (h : read (classifyDesign classifier design) = read design) (net_ids : List String) :
    read (settle classifier design net_ids) = read design := by
  unfold settle
  split
  · rfl
  · exact h

theorem replaceRefs_settle (classifier : Classifier) (design : Design K) (net_ids : List String) :
    replaceRefs (settle classifier design net_ids) = settle classifier (replaceRefs design) net_ids := by
  by_cases h : ∀ net_id ∈ net_ids, net_id ∈ (netClasses design).keys
  · have hleft : settle classifier design net_ids = design := if_pos h
    have hright : settle classifier (replaceRefs design) net_ids = replaceRefs design := if_pos h
    rw [hleft, hright]
  · have hleft : settle classifier design net_ids = classifyDesign classifier design := if_neg h
    have hright : settle classifier (replaceRefs design) net_ids = classifyDesign classifier (replaceRefs design) :=
      if_neg h
    rw [hleft, hright]
    rfl

variable {engine}

theorem replaced_settle (design : Design K) (net_ids : List String) :
    engine.replaced (settle engine.classifier design net_ids) =
      settle engine.classifier (engine.replaced design) net_ids := by
  unfold replaced
  split
  · exact replaceRefs_settle engine.classifier design net_ids
  · rfl

theorem replaced_replaced (h : engine.Enables "DRC-005" → Settled design) :
    engine.replaced (engine.replaced design) = engine.replaced design := by
  unfold replaced
  split
  · rename_i henabled
    exact replaceRefs_replaceRefs (h henabled)
  · rfl

@[simp] theorem widthNets_settle (design : Design K) (net_ids : List String) :
    engine.widthNets (settle engine.classifier design net_ids) = engine.widthNets design :=
  have h : engine.widthNets (classifyDesign engine.classifier design) = engine.widthNets design := rfl
  apply_settle h net_ids

@[simp] theorem viaNets_settle (design : Design K) (net_ids : List String) :
    engine.viaNets (settle engine.classifier design net_ids) = engine.viaNets design :=
  have h : engine.viaNets (classifyDesign engine.classifier design) = engine.viaNets design := rfl
  apply_settle h net_ids

/-! ## After each check -/

theorem after_reads (rule_id : String) (check : Design K → List DRCViolation) (design : Design K) :
    engine.after (.reads rule_id check) design = design := ite_self _

theorem after_width (design : Design K) :
    engine.after ⟨"DRC-002", checkTraceWidth engine.fmt engine.knowledge_base engine.classifier⟩ design =
      settle engine.classifier design (engine.widthNets design) := by
  unfold after widthNets
  dsimp only
  rw [checkTraceWidth_eq]
  split
  · rfl
  · rw [settle_nil]

theorem checkUnroutedNets_snd (design : Design K) : (checkUnroutedNets design).2 = replaceRefs design := by
  unfold checkUnroutedNets replaceRefs
  obtain ⟨components, nets, board, board_def, placement, routing, classes, pours⟩ := design
  cases routing <;> rfl

theorem after_unrouted (design : Design K) :
    engine.after ⟨"DRC-005", checkUnroutedNets⟩ design = engine.replaced design := by
  unfold after replaced
  dsimp only
  rw [checkUnroutedNets_snd]

theorem after_vias (design : Design K) :
    engine.after ⟨"DRC-006", checkViaCount engine.fmt.toFormat engine.knowledge_base engine.classifier⟩ design =
      settle engine.classifier design (engine.viaNets design) := by
  unfold after viaNets
  dsimp only
  rw [checkViaCount_eq]
  split
  · rfl
  · rw [settle_nil]

variable (engine)

/-- The design that a run leaves. -/
def DRCEngine.finished (design : Design K) : Design K :=
  settle engine.classifier (engine.replaced design)
    (engine.widthNets design ++ engine.viaNets (engine.replaced design))

/-- The design that a second run leaves. -/
def DRCEngine.finishedTwice (design : Design K) : Design K :=
  settle engine.classifier (engine.replaced design)
    ((engine.widthNets design ++ engine.viaNets (engine.replaced design)) ++
      engine.widthNets (engine.replaced design))

variable {engine}

theorem settle_replaced_settle (design : Design K) :
    settle engine.classifier (engine.replaced (settle engine.classifier design (engine.widthNets design)))
        (engine.viaNets (engine.replaced (settle engine.classifier design (engine.widthNets design)))) =
      engine.finished design := by
  rw [replaced_settle, viaNets_settle, settle_settle]
  rfl

theorem runChecks_snd (design : Design K) :
    (engine.runChecks engine.allChecks design).2 = engine.finished design := by
  have hfold : ∀ (checks : List (DRCCheck K)) (design : Design K),
      (engine.runChecks checks design).2 = checks.foldl (fun design check => engine.after check design) design := by
    intro checks
    induction checks with
    | nil => exact fun _ => rfl
    | cons check checks ih =>
      intro design
      rw [runChecks_cons, List.foldl_cons, ← ih]
  rw [hfold]
  simp only [allChecks, List.foldl_cons, List.foldl_nil, after_reads, after_width, after_unrouted,
    after_vias]
  exact settle_replaced_settle design

theorem widthNets_finished (design : Design K) :
    engine.widthNets (engine.finished design) = engine.widthNets (engine.replaced design) :=
  widthNets_settle _ _

theorem finished_finished (h : engine.Enables "DRC-005" → Settled design) :
    engine.finished (engine.finished design) = engine.finishedTwice design := by
  have hreplaced : engine.replaced (engine.finished design) = engine.finished design := by
    rw [finished, replaced_settle, replaced_replaced h]
  rw [finished, hreplaced, widthNets_finished]
  show settle engine.classifier (settle engine.classifier (engine.replaced design) _)
    (_ ++ engine.viaNets (settle engine.classifier (engine.replaced design) _)) = _
  rw [viaNets_settle, settle_settle]
  -- the vias are counted after the replacement in both runs
  apply settle_congr
  intro net_id
  simp only [List.mem_append]
  tauto

/-! ## Which checks can differ -/

theorem checkUnroutedNets_congr {design design' : Design K} (hnets : design.nets = design'.nets)
    (hrouting : (replaceRefs design).routing = (replaceRefs design').routing) :
    (checkUnroutedNets design).1 = (checkUnroutedNets design').1 := by
  obtain ⟨components, nets, board, board_def, placement, routing, classes, pours⟩ := design
  obtain ⟨components', nets', board', board_def', placement', routing', classes', pours'⟩ := design'
  cases hnets
  cases routing with
  | none =>
    cases routing' with
    | none => rfl
    | some routing' => cases hrouting
  | some routing =>
    cases routing' with
    | none => cases hrouting
    | some routing' =>
      have heq : canonicalRoutingNetIds nets routing = canonicalRoutingNetIds nets routing' := Option.some.inj hrouting
      unfold checkUnroutedNets
      dsimp only
      rw [heq]

theorem checkViaCount_congr (first second : List String) :
    (checkViaCount engine.fmt.toFormat engine.knowledge_base engine.classifier
        (settle engine.classifier design first)).1 =
      (checkViaCount engine.fmt.toFormat engine.knowledge_base engine.classifier
        (settle engine.classifier design second)).1 := by
  have hcounts : ∀ net_ids, viaCounts (settle engine.classifier design net_ids) = viaCounts design :=
    apply_settle rfl
  simp only [checkViaCount_eq, classOf_settle, nets_settle, hcounts]

theorem checkTraceWidth_congr (design : Design K) (net_ids : List String) :
    (checkTraceWidth engine.fmt engine.knowledge_base engine.classifier
        (settle engine.classifier design net_ids)).1 =
      (checkTraceWidth engine.fmt engine.knowledge_base engine.classifier design).1 := by
  have hsegments : traceSegments (settle engine.classifier design net_ids) = traceSegments design :=
    apply_settle rfl net_ids
  simp only [checkTraceWidth_eq, classOf_settle, hsegments]

/-- **Two runs report the same** exactly when the checks before the replacement do on the references as they
are written and replaced, and the checks that read classes do on the classes that the two runs leave. -/
theorem agree_iff (h : engine.Enables "DRC-005" → Settled design) :
    engine.Agree engine.allChecks design (engine.finished design) ↔
      (engine.Enables "DRC-001" → (checkClearance engine.fmt.toFormat design).Perm
        (checkClearance engine.fmt.toFormat (engine.replaced design))) ∧
      (engine.Enables "DRC-002" →
        (checkTraceWidth engine.fmt engine.knowledge_base engine.classifier design).1.Perm
          (checkTraceWidth engine.fmt engine.knowledge_base engine.classifier (engine.replaced design)).1) ∧
      (engine.Enables "DRC-003" → (checkRightAngle engine.fmt design).Perm
        (checkRightAngle engine.fmt (engine.replaced design))) ∧
      (engine.Enables "DRC-010" → (checkMissingNetClass (engine.finished design)).Perm
        (checkMissingNetClass (engine.finishedTwice design))) ∧
      (engine.Enables "DRC-024" → (checkHighVoltageClearance engine.fmt (engine.finished design)).Perm
        (checkHighVoltageClearance engine.fmt (engine.finishedTwice design))) := by
  -- what reads neither classes nor references
  have hsame : ∀ check : Design K → List DRCViolation,
      check (classifyDesign engine.classifier (engine.replaced design)) = check (engine.replaced design) →
        (check (engine.finished design)).Perm (check (engine.finishedTwice design)) := by
    intro check hcheck
    have hfirst : check (engine.finished design) = check (engine.replaced design) := apply_settle hcheck _
    have hsecond : check (engine.finishedTwice design) = check (engine.replaced design) := apply_settle hcheck _
    rw [hfirst, hsecond]
  have hnets : (engine.replaced design).nets = design.nets := by
    unfold replaced
    split <;> rfl
  have hreplaced : engine.replaced (engine.finished design) = engine.finished design := by
    rw [finished, replaced_settle, replaced_replaced h]
  have hunconnected : checkUnconnectedNets (engine.finished design) = checkUnconnectedNets design := by
    unfold checkUnconnectedNets
    rw [finished, nets_settle, hnets]
  have hclearance : checkClearance engine.fmt.toFormat (engine.finished design) =
      checkClearance engine.fmt.toFormat (engine.replaced design) :=
    apply_settle rfl _
  have hwidth : (checkTraceWidth engine.fmt engine.knowledge_base engine.classifier (engine.finished design)).1 =
      (checkTraceWidth engine.fmt engine.knowledge_base engine.classifier (engine.replaced design)).1 :=
    checkTraceWidth_congr _ _
  have hcorner : checkRightAngle engine.fmt
        (settle engine.classifier (engine.finished design) (engine.widthNets (engine.finished design))) =
      checkRightAngle engine.fmt (engine.replaced design) :=
    (apply_settle rfl _).trans (apply_settle rfl _)
  have hcorner' : checkRightAngle engine.fmt (settle engine.classifier design (engine.widthNets design)) =
      checkRightAngle engine.fmt design :=
    apply_settle rfl _
  -- the references are replaced in both runs when nets without traces are looked for
  have hunrouted : engine.Enables "DRC-005" →
      (checkUnroutedNets (settle engine.classifier design (engine.widthNets design))).1 =
        (checkUnroutedNets
          (settle engine.classifier (engine.finished design) (engine.widthNets (engine.finished design)))).1 := by
    intro henabled
    have hreplace : engine.replaced design = replaceRefs design := if_pos henabled
    apply checkUnroutedNets_congr
    · rw [nets_settle, nets_settle, finished, nets_settle, hnets]
    · rw [replaceRefs_settle, routing_settle, replaceRefs_settle, routing_settle, finished,
        replaceRefs_settle, routing_settle, hreplace, replaceRefs_replaceRefs (h henabled)]
  have hvias : (checkViaCount engine.fmt.toFormat engine.knowledge_base engine.classifier
        (engine.replaced (settle engine.classifier design (engine.widthNets design)))).1 =
      (checkViaCount engine.fmt.toFormat engine.knowledge_base engine.classifier (engine.replaced
        (settle engine.classifier (engine.finished design) (engine.widthNets (engine.finished design))))).1 := by
    rw [replaced_settle, replaced_settle, hreplaced, finished, settle_settle]
    exact checkViaCount_congr _ _
  have hfirst := @settle_replaced_settle K _ _ engine design
  have hsecond := @settle_replaced_settle K _ _ engine (engine.finished design)
  rw [finished_finished h] at hsecond
  simp only [allChecks, DRCEngine.Agree, after_reads, after_width, after_unrouted, after_vias, hfirst, hsecond]
  simp only [DRCCheck.reads, and_true]
  rw [hunconnected, hclearance, hwidth, hcorner, hcorner', hvias]
  constructor
  · rintro ⟨-, hclearance, hwidth, hcorner, -, -, hclasses, -, -, -, -, -, hvoltage, -⟩
    exact ⟨hclearance, hwidth, hcorner, hclasses, hvoltage⟩
  · rintro ⟨hclearance, hwidth, hcorner, hclasses, hvoltage⟩
    exact ⟨fun _ => .rfl, hclearance, hwidth, hcorner, fun henabled => .of_eq (hunrouted henabled), fun _ => .rfl,
      hclasses, fun _ => hsame _ rfl, fun _ => hsame _ rfl, fun _ => hsame _ rfl, fun _ => hsame _ rfl,
      fun _ => hsame _ rfl, hvoltage, fun _ => hsame _ rfl, fun _ => hsame _ rfl, fun _ => hsame _ rfl⟩

end Designs

end ZapTrace.Routing.Drc
