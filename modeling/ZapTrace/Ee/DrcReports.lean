import ZapTrace.Ee.DrcEngine

/-!
# Reports of the design rule engine

Every check reports under its own rule, so what a run reports can be taken apart by the checks.

## Main results

* `rule_id_of_mem`: a check reports under its own rule
* `DRCEngine.perm_runChecks_iff`: two runs report the same exactly when each check does
-/

set_option linter.unusedSectionVars false

namespace ZapTrace.Routing.Drc

open List

variable {K : Type} [Field K] [LinearOrder K]

def OfRule (rule_id : String) (violations : List DRCViolation) : Prop :=
  ∀ violation ∈ violations, violation.rule_id = rule_id

theorem OfRule.filterMap {α : Type} {rule_id : String} {violation : α → Option DRCViolation}
    (h : ∀ x, OfRule rule_id (violation x).toList) (xs : List α) : OfRule rule_id (xs.filterMap violation) := by
  intro v hv
  obtain ⟨x, -, hx⟩ := mem_filterMap.mp hv
  exact h x v (Option.mem_toList.mpr hx)

theorem OfRule.map {α : Type} {rule_id : String} {violation : α → DRCViolation}
    (h : ∀ x, (violation x).rule_id = rule_id) (xs : List α) : OfRule rule_id (xs.map violation) := by
  intro v hv
  obtain ⟨x, -, rfl⟩ := mem_map.mp hv
  exact h x

theorem OfRule.flatMap {α : Type} {rule_id : String} {violations : α → List DRCViolation}
    (h : ∀ x, OfRule rule_id (violations x)) (xs : List α) : OfRule rule_id (xs.flatMap violations) := by
  intro v hv
  obtain ⟨x, -, hx⟩ := mem_flatMap.mp hv
  exact h x v hx

theorem ofRule_nil (rule_id : String) : OfRule rule_id [] := fun _ hv => absurd hv not_mem_nil

theorem ofRule_clearanceViolations (fmt : Format K) (m : K) (reported : List (ContactKey K))
    (pairs : List (TraceSegment K × TraceSegment K)) :
    OfRule "DRC-001" (clearanceViolations fmt m reported pairs) := by
  intro v hv
  obtain ⟨pair, -, -, rfl⟩ := mem_clearanceViolations fmt m hv
  rfl

theorem rule_id_of_mem (engine : DRCEngine K) {check : DRCCheck K} (hcheck : check ∈ engine.allChecks)
    (design : Design K) : OfRule check.rule_id (check.check design).1 := by
  revert check
  simp only [DRCEngine.allChecks, forall_mem_cons, DRCCheck.reads]
  refine ⟨?unconnected, ?clearance, ?width, ?corner, ?unrouted, ?vias, ?classes, ?outside, ?ring, ?edge, ?mask,
    ?acid, ?voltage, ?copper, ?current, ?holes, fun _ h => absurd h not_mem_nil⟩
  case unconnected =>
    apply OfRule.filterMap
    intro item v hv
    unfold unconnectedNetViolation at hv
    grind
  case clearance => exact ofRule_clearanceViolations _ _ _ _
  case width =>
    rw [checkTraceWidth_eq]
    apply OfRule.filterMap
    intro seg v hv
    unfold widthViolation at hv
    grind
  case corner =>
    apply OfRule.flatMap
    intro group
    apply OfRule.map
    intro joint
    rfl
  case unrouted =>
    unfold checkUnroutedNets
    split
    · apply OfRule.map
      intro item
      rfl
    · apply OfRule.map
      intro item
      rfl
  case vias =>
    rw [checkViaCount_eq]
    apply OfRule.filterMap
    intro item v hv
    unfold viaCountReport at hv
    grind
  case classes =>
    unfold checkMissingNetClass
    split
    · exact ofRule_nil _
    · apply OfRule.filterMap
      intro item v hv
      unfold missingNetClassViolation at hv
      grind
  case outside =>
    unfold checkComponentOutsideBoard
    split
    · exact ofRule_nil _
    · apply OfRule.filterMap
      intro item v hv
      unfold componentOutsideViolation at hv
      grind
  case ring =>
    unfold checkMinAnnularRing
    split
    · exact ofRule_nil _
    · apply OfRule.filterMap
      intro seg v hv
      unfold annularRingViolation at hv
      grind
  case edge =>
    unfold checkBoardEdgeClearance
    dsimp only
    split
    · exact ofRule_nil _
    · apply OfRule.filterMap
      intro seg v hv
      obtain ⟨point, -, hpoint⟩ := exists_of_findSome?_eq_some (Option.mem_toList.mp hv)
      grind
  case mask =>
    apply OfRule.filterMap
    intro pair v hv
    unfold solderMaskSliverViolation at hv
    grind
  case acid =>
    apply OfRule.flatMap
    intro group
    apply OfRule.map
    intro joint
    rfl
  case voltage =>
    unfold checkHighVoltageClearance
    dsimp only
    split
    · exact ofRule_nil _
    · apply OfRule.filterMap
      intro pair v hv
      unfold highVoltageClearanceViolation at hv
      grind
  case copper =>
    intro v hv
    unfold checkCopperBalance at hv
    grind
  case current =>
    unfold checkHighCurrentTraceWidth
    split
    · exact ofRule_nil _
    · apply OfRule.flatMap
      intro item
      split
      · exact ofRule_nil _
      · apply OfRule.filterMap
        intro seg v hv
        unfold highCurrentViolation at hv
        grind
  case holes =>
    unfold checkHoleToHoleClearance
    split
    · exact ofRule_nil _
    · apply OfRule.filterMap
      intro pair v hv
      unfold holeClearanceViolation at hv
      grind

theorem perm_append_iff {rule_id : String} {first first' rest rest' : List DRCViolation}
    (hfirst : OfRule rule_id first) (hfirst' : OfRule rule_id first')
    (hrest : ∀ v ∈ rest, v.rule_id ≠ rule_id) (hrest' : ∀ v ∈ rest', v.rule_id ≠ rule_id) :
    (first ++ rest).Perm (first' ++ rest') ↔ first.Perm first' ∧ rest.Perm rest' := by
  have hselect : ∀ {xs ys : List DRCViolation}, OfRule rule_id xs → (∀ v ∈ ys, v.rule_id ≠ rule_id) →
      (xs ++ ys).filter (fun v => v.rule_id = rule_id) = xs ∧
        (xs ++ ys).filter (fun v => ¬ v.rule_id = rule_id) = ys := by
    intro xs ys hxs hys
    rw [filter_append, filter_append,
      filter_eq_self.mpr fun v hv => decide_eq_true (hxs v hv),
      filter_eq_nil_iff.mpr fun v hv => by simpa using hys v hv,
      filter_eq_nil_iff.mpr fun v hv => by simpa using hxs v hv,
      filter_eq_self.mpr fun v hv => by simpa using hys v hv]
    exact ⟨append_nil xs, rfl⟩
  constructor
  · intro h
    have heq := h.filter fun v => v.rule_id = rule_id
    have hne := h.filter fun v => ¬ v.rule_id = rule_id
    rw [(hselect hfirst hrest).1, (hselect hfirst' hrest').1] at heq
    rw [(hselect hfirst hrest).2, (hselect hfirst' hrest').2] at hne
    exact ⟨heq, hne⟩
  · rintro ⟨heq, hne⟩
    exact heq.append hne

namespace DRCEngine

variable (engine : DRCEngine K)

def reports (check : DRCCheck K) (design : Design K) : List DRCViolation :=
  if engine.Enables check.rule_id then (check.check design).1 else []

def after (check : DRCCheck K) (design : Design K) : Design K :=
  if engine.Enables check.rule_id then (check.check design).2 else design

/-- The checks of a list report the same on two designs, when each is run on what the ones before it leave. -/
def Agree : List (DRCCheck K) → Design K → Design K → Prop
  | [], _, _ => True
  | check :: checks, design, design' =>
    (engine.Enables check.rule_id → (check.check design).1.Perm (check.check design').1) ∧
      Agree checks (engine.after check design) (engine.after check design')

theorem runChecks_cons (check : DRCCheck K) (checks : List (DRCCheck K)) (design : Design K) :
    engine.runChecks (check :: checks) design =
      (engine.reports check design ++ (engine.runChecks checks (engine.after check design)).1,
        (engine.runChecks checks (engine.after check design)).2) := by
  rw [runChecks, reports, after]
  split <;> rfl

theorem rule_id_of_mem_runChecks {checks : List (DRCCheck K)}
    (hrule : ∀ check ∈ checks, ∀ design, OfRule check.rule_id (check.check design).1) (design : Design K) :
    ∀ v ∈ (engine.runChecks checks design).1, v.rule_id ∈ checks.map DRCCheck.rule_id := by
  induction checks generalizing design with
  | nil => exact fun v hv => absurd hv not_mem_nil
  | cons check checks ih =>
    intro v hv
    rw [runChecks_cons] at hv
    rcases mem_append.mp hv with hv | hv
    · unfold reports at hv
      split at hv
      · rw [hrule check mem_cons_self design v hv]
        exact mem_cons_self
      · exact absurd hv not_mem_nil
    · exact mem_cons_of_mem _
        (ih (fun other hother => hrule other (mem_cons_of_mem _ hother)) _ v hv)

/-- **Two runs report the same** exactly when each check does. -/
theorem perm_runChecks_iff {checks : List (DRCCheck K)} (hnodup : (checks.map DRCCheck.rule_id).Nodup)
    (hrule : ∀ check ∈ checks, ∀ design, OfRule check.rule_id (check.check design).1) (design design' : Design K) :
    (engine.runChecks checks design).1.Perm (engine.runChecks checks design').1 ↔
      engine.Agree checks design design' := by
  induction checks generalizing design design' with
  | nil => exact iff_of_true (List.Perm.refl _) trivial
  | cons check checks ih =>
    have hrest : ∀ other ∈ checks, ∀ design, OfRule other.rule_id (other.check design).1 :=
      fun other hother => hrule other (mem_cons_of_mem _ hother)
    obtain ⟨hnew, hnodup⟩ := nodup_cons.mp hnodup
    have hhead : ∀ design, OfRule check.rule_id (engine.reports check design) := by
      intro design
      unfold reports
      split
      · exact hrule check mem_cons_self design
      · exact ofRule_nil _
    have htail : ∀ design, ∀ v ∈ (engine.runChecks checks design).1, v.rule_id ≠ check.rule_id :=
      fun design v hv heq => hnew (heq ▸ engine.rule_id_of_mem_runChecks hrest design v hv)
    rw [runChecks_cons, runChecks_cons, perm_append_iff (hhead _) (hhead _) (htail _) (htail _), ih hnodup hrest, Agree]
    apply and_congr_left'
    unfold reports
    split
    · rename_i henabled
      exact ⟨fun hperm _ => hperm, fun hperm => hperm henabled⟩
    · rename_i hdisabled
      exact iff_of_true (List.Perm.refl _) fun henabled => absurd henabled hdisabled

theorem nodup_rule_ids : (engine.allChecks.map DRCCheck.rule_id).Nodup := by
  show ["ERC-001", "DRC-001", "DRC-002", "DRC-003", "DRC-005", "DRC-006", "DRC-010", "DRC-011", "DRC-020", "DRC-021",
    "DRC-022", "DRC-023", "DRC-024", "DRC-025", "DRC-012", "DRC-013"].Nodup
  decide

end DRCEngine

end ZapTrace.Routing.Drc
