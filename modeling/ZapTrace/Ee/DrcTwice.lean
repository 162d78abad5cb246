import ZapTrace.Ee.DrcRepeat

/-!
# When a second run reports the same

The checks before the replacement of references agree in two runs exactly when no reference that is
replaced takes part in what they find. The checks that read classes agree exactly when no net is
classified too late to count in the first run.

## Main results

* `checkClearance_perm_iff`, `checkTraceWidth_perm_iff`: the checks before the replacement
* `checkMissingNetClass_perm_iff`, `checkHighVoltageClearance_perm_iff`: the checks of classes
* `sameReport_iff_repeatable`: exactly when two runs report the same
-/

set_option linter.unusedSectionVars false

namespace ZapTrace.Routing.Drc

open Plane DRCEngine List

variable {K : Type} [Field K] [LinearOrder K]

/-! ## Clearances -/

section Clearance

variable (fmt : EngineFormat K)

theorem message_clearanceReport (m : K) (first second : TraceSegment K) :
    (clearanceReport fmt.toFormat m first second).message.toList =
      ("Clearance violation: net '" ++ first.net_id ++ "' and '").toList ++
        (second.net_id.toList ++ '\'' :: (" are ".toList ++ (fmt.gap3 (tracePairClearance first second)).toList)) ++
          ("mm apart (min " ++ fmt.shown m ++ "mm)").toList := by
  have hquote : "' ".toList = ['\'', ' '] := rfl
  have hare : " are ".toList = ' ' :: "are ".toList := rfl
  show ("Clearance violation: net '" ++ first.net_id ++ "' and '" ++ second.net_id ++ "' " ++
    ("are " ++ fmt.gap3 (tracePairClearance first second) ++ "mm apart (min " ++ fmt.shown m ++ "mm)")).toList = _
  simp only [String.toList_append, hquote, hare, append_assoc, cons_append, nil_append]

theorem net_id_eq_of_clearanceReport {m : K} {first second first' second' : TraceSegment K}
    (h : clearanceReport fmt.toFormat m first second = clearanceReport fmt.toFormat m first' second') :
    first.net_id = first'.net_id ∧ second.net_id = second'.net_id := by
  have hfirst : first.net_id = first'.net_id := Option.some.inj (congrArg DRCViolation.net_id h)
  refine ⟨hfirst, String.toList_inj.mp ?_⟩
  have hmessage := congrArg (fun v => v.message.toList) h
  simp only [message_clearanceReport, hfirst] at hmessage
  have hplain : ∀ gap, '\'' ∉ " are ".toList ++ (fmt.gap3 gap).toList := fun gap hmem =>
    (mem_append.mp hmem).elim (by decide) (fmt.gap3_plain gap)
  exact Lists.eq_of_append_cons (hplain _) (hplain _)
    (append_cancel_left (append_cancel_right hmessage))

/-- Traces in conflict that are reported as the ones after the replacement are, were not replaced. -/
theorem identified_of_reports {nets : Dict String (Net K)} {m : K} {reported : List (ContactKey K)}
    {pairs : List (TraceSegment K × TraceSegment K)}
    (hreports : ∀ v ∈ clearanceViolations fmt.toFormat m reported pairs, ∃ first second,
      Identified nets first ∧ Identified nets second ∧ v = clearanceReport fmt.toFormat m first second)
    (hcontacts : ∀ key ∈ reported, canonicalRef nets key.nets.1 = key.nets.1 ∧ canonicalRef nets key.nets.2 = key.nets.2) :
    ∀ pair ∈ pairs, Conflict m pair.1 pair.2 → Identified nets pair.1 ∧ Identified nets pair.2 := by
  induction pairs generalizing reported with
  | nil => exact fun pair hpair => absurd hpair not_mem_nil
  | cons pair pairs ih =>
    -- the nets of a contact are those of its pair
    have hkey : ∀ key ∈ clearanceContactKey fmt.toFormat pair.1 pair.2,
        key.nets = (pair.1.net_id, pair.2.net_id) ∨ key.nets = (pair.2.net_id, pair.1.net_id) := by
      intro key hkey
      obtain ⟨point, -, rfl⟩ := Option.map_eq_some_iff.mp hkey
      dsimp only
      split
      · exact .inr rfl
      · exact .inl rfl
    by_cases hconflict : Conflict m pair.1 pair.2
    · by_cases hknown : Reported fmt.toFormat reported pair.1 pair.2
      · have hpair : Identified nets pair.1 ∧ Identified nets pair.2 := by
          obtain ⟨key, hmem, hreported⟩ := hknown
          have hids := hcontacts key hreported
          rcases hkey key hmem with hnets | hnets
          · rwa [hnets] at hids
          · rw [hnets] at hids
            exact hids.symm
        have hrest : clearanceViolations fmt.toFormat m reported (pair :: pairs) =
            clearanceViolations fmt.toFormat m reported pairs := by
          rw [clearanceViolations, clearanceViolation_of_reported fmt.toFormat m hknown]
          rfl
        rw [hrest] at hreports
        exact forall_mem_cons.mpr ⟨fun _ => hpair, ih hreports hcontacts⟩
      · have hrest : clearanceViolations fmt.toFormat m reported (pair :: pairs) =
            clearanceReport fmt.toFormat m pair.1 pair.2 :: clearanceViolations fmt.toFormat m
              ((clearanceContactKey fmt.toFormat pair.1 pair.2).toList ++ reported) pairs := by
          rw [clearanceViolations, clearanceViolation_of_conflict fmt.toFormat m hconflict hknown]
          rfl
        rw [hrest] at hreports
        obtain ⟨⟨first, second, hfirst, hsecond, hreport⟩, hreports⟩ := forall_mem_cons.mp hreports
        obtain ⟨hnet, hnet'⟩ := net_id_eq_of_clearanceReport fmt hreport
        have hpair : Identified nets pair.1 ∧ Identified nets pair.2 := by
          unfold Identified
          rw [hnet, hnet']
          exact ⟨hfirst, hsecond⟩
        refine forall_mem_cons.mpr ⟨fun _ => hpair, ih hreports fun key hmem => ?_⟩
        rcases mem_append.mp hmem with hmem | hmem
        · rcases hkey key (Option.mem_toList.mp hmem) with hnets | hnets
          · rw [hnets]
            exact hpair
          · rw [hnets]
            exact hpair.symm
        · exact hcontacts key hmem
    · have hrest : clearanceViolations fmt.toFormat m reported (pair :: pairs) =
          clearanceViolations fmt.toFormat m reported pairs := by
        rw [clearanceViolations, clearanceViolation_of_not_conflict fmt.toFormat m hconflict]
        rfl
      rw [hrest] at hreports
      exact forall_mem_cons.mpr ⟨fun h => absurd h hconflict, ih hreports hcontacts⟩

theorem clearanceViolations_map {nets : Dict String (Net K)} {m : K} (reported : List (ContactKey K))
    {pairs : List (TraceSegment K × TraceSegment K)}
    (h : ∀ pair ∈ pairs, Conflict m pair.1 pair.2 → Identified nets pair.1 ∧ Identified nets pair.2) :
    clearanceViolations fmt.toFormat m reported
        (pairs.map (Prod.map (normalizeTrace nets) (normalizeTrace nets))) =
      clearanceViolations fmt.toFormat m reported pairs := by
  induction pairs generalizing reported with
  | nil => rfl
  | cons pair pairs ih =>
    obtain ⟨hpair, hpairs⟩ := forall_mem_cons.mp h
    have hhead : clearanceViolation fmt.toFormat m reported (normalizeTrace nets pair.1) (normalizeTrace nets pair.2) =
        clearanceViolation fmt.toFormat m reported pair.1 pair.2 := by
      by_cases hconflict : Conflict m pair.1 pair.2
      · obtain ⟨hfirst, hsecond⟩ := hpair hconflict
        rw [normalizeTrace_of_identified hfirst, normalizeTrace_of_identified hsecond]
      · -- the replacement does not separate nets, and leaves the copper where it is
        have hnormal : ¬ Conflict m (normalizeTrace nets pair.1) (normalizeTrace nets pair.2) := by
          rw [normalizeTrace_eq, normalizeTrace_eq]
          rintro ⟨hnet, hlayer, hfar⟩
          exact hconflict ⟨fun heq => hnet (congrArg (canonicalRef nets) heq), hlayer, hfar⟩
        rw [clearanceViolation_of_not_conflict fmt.toFormat m hconflict,
          clearanceViolation_of_not_conflict fmt.toFormat m hnormal]
    rw [map_cons]
    show _ ++ clearanceViolations fmt.toFormat m
      (clearanceViolation fmt.toFormat m reported (normalizeTrace nets pair.1) (normalizeTrace nets pair.2)).2 _ = _
    rw [ih _ hpairs]
    show (clearanceViolation fmt.toFormat m reported (normalizeTrace nets pair.1)
      (normalizeTrace nets pair.2)).1.toList ++ _ = _
    rw [hhead]
    rfl

/-- **DRC-001** reports the same exactly when no replaced trace is in conflict with another. -/
theorem checkClearance_perm_iff {design : Design K} (h : Settled design) :
    (checkClearance fmt.toFormat design).Perm (checkClearance fmt.toFormat (replaceRefs design)) ↔
      (traceSegments design).Pairwise fun first second => Conflict design.board.min_clearance_mm first second →
        Identified design.nets first ∧ Identified design.nets second := by
  have hreplaced : checkClearance fmt.toFormat (replaceRefs design) =
      clearanceViolations fmt.toFormat design.board.min_clearance_mm [] ((tracePairs (traceSegments design)).map
        (Prod.map (normalizeTrace design.nets) (normalizeTrace design.nets))) := by
    rw [checkClearance, traceSegments_replaceRefs, tracePairs_map]
    rfl
  have hpairwise : (∀ pair ∈ tracePairs (traceSegments design), _) ↔ _ := forall_tracePairs_iff (R := fun first second =>
    Conflict design.board.min_clearance_mm first second →
      Identified design.nets first ∧ Identified design.nets second)
  rw [hreplaced, ← hpairwise]
  constructor
  · intro hperm
    refine identified_of_reports fmt (fun v (hv : v ∈ clearanceViolations fmt.toFormat _ [] _) => ?_) fun key hkey =>
      absurd hkey not_mem_nil
    -- the report is also one of the routing with its references replaced
    obtain ⟨pair, hpair, -, rfl⟩ := mem_clearanceViolations fmt.toFormat _ (hperm.mem_iff.mp hv)
    obtain ⟨origin, horigin, rfl⟩ := mem_map.mp hpair
    obtain ⟨hfirst, hsecond⟩ := mem_of_mem_tracePairs horigin
    exact ⟨_, _, h.identified _ hfirst, h.identified _ hsecond, rfl⟩
  · intro hall
    rw [clearanceViolations_map fmt [] hall]
    exact .rfl

end Clearance

/-! ## Widths -/

section Widths

variable (engine : DRCEngine K)

/-- The trace is narrower than the class of its net wants it. -/
def TooNarrow (design : Design K) (seg : TraceSegment K) : Prop :=
  seg.width < (engine.knowledge_base.getRule (classOf engine.classifier design seg.net_id)).trace_width - 1 / 1000

instance (design : Design K) (seg : TraceSegment K) : Decidable (TooNarrow engine design seg) :=
  inferInstanceAs (Decidable (_ < _))

variable {engine}

theorem widthViolation_eq_none_iff {design : Design K} {seg : TraceSegment K} :
    widthViolation engine.fmt engine.knowledge_base (classOf engine.classifier design seg.net_id) seg = none ↔
      ¬ TooNarrow engine design seg := by
  unfold widthViolation TooNarrow
  dsimp only
  split
  · rename_i hnarrow
    exact iff_of_false (Option.some_ne_none _) (not_not.mpr hnarrow)
  · rename_i hwide
    exact iff_of_true rfl hwide

theorem net_id_of_widthViolation {fmt : EngineFormat K} {kb : KnowledgeBase K} {nc : NetClass}
    {seg : TraceSegment K} {v : DRCViolation} (h : widthViolation fmt kb nc seg = some v) :
    v.net_id = some seg.net_id := by
  unfold widthViolation at h
  dsimp only at h
  split at h
  · cases h
    rfl
  · cases h

/-- **DRC-002** reports the same exactly when no replaced trace is too narrow, before or after. -/
theorem checkTraceWidth_perm_iff {design : Design K} (h : Settled design) :
    (checkTraceWidth engine.fmt engine.knowledge_base engine.classifier design).1.Perm
        (checkTraceWidth engine.fmt engine.knowledge_base engine.classifier (replaceRefs design)).1 ↔
      ∀ seg ∈ traceSegments design, ¬ Identified design.nets seg →
        ¬ TooNarrow engine design seg ∧ ¬ TooNarrow engine design (normalizeTrace design.nets seg) := by
  -- both are selections from the same traces
  let before := fun seg => widthViolation engine.fmt engine.knowledge_base
    (classOf engine.classifier design seg.net_id) seg
  have hbefore : (checkTraceWidth engine.fmt engine.knowledge_base engine.classifier design).1 =
      (traceSegments design).filterMap before := by
    rw [checkTraceWidth_eq]
  have hafter : (checkTraceWidth engine.fmt engine.knowledge_base engine.classifier (replaceRefs design)).1 =
      (traceSegments design).filterMap fun seg => before (normalizeTrace design.nets seg) := by
    rw [checkTraceWidth_eq, traceSegments_replaceRefs]
    exact filterMap_map
  have hsame : ∀ seg, Identified design.nets seg → before (normalizeTrace design.nets seg) = before seg := by
    intro seg hseg
    rw [normalizeTrace_of_identified hseg]
  rw [hbefore, hafter]
  constructor
  · intro hperm
    have hsilent : ∀ seg ∈ traceSegments design, ¬ Identified design.nets seg → before seg = none := by
      intro seg hseg hnot
      by_contra hsome
      obtain ⟨v, hv⟩ := Option.ne_none_iff_exists'.mp hsome
      -- the report would be one of the replaced routing, which has identifiers only
      obtain ⟨other, hother, hreport⟩ := mem_filterMap.mp (hperm.mem_iff.mp (mem_filterMap.mpr ⟨seg, hseg, hv⟩))
      have hnet := (net_id_of_widthViolation hv).symm.trans (net_id_of_widthViolation hreport)
      have hidentified := h.identified other hother
      unfold Identified at hidentified hnot
      rw [← Option.some.inj hnet] at hidentified
      exact hnot hidentified
    have hle : ∀ seg ∈ traceSegments design, before seg ≠ none → before (normalizeTrace design.nets seg) = before seg := by
      intro seg hseg hsome
      by_cases hid : Identified design.nets seg
      · exact hsame seg hid
      · exact absurd (hsilent seg hseg hid) hsome
    intro seg hseg hnot
    have heq := Lists.filterMap_eq_of_length hle hperm.length_eq seg hseg
    have hnone := hsilent seg hseg hnot
    exact ⟨widthViolation_eq_none_iff.mp hnone, widthViolation_eq_none_iff.mp (heq.trans hnone)⟩
  · intro hall
    apply List.Perm.of_eq
    apply filterMap_congr
    intro seg hseg
    by_cases hid : Identified design.nets seg
    · exact (hsame seg hid).symm
    · obtain ⟨hraw, hnormal⟩ := hall seg hseg hid
      exact (widthViolation_eq_none_iff.mpr hraw).trans (widthViolation_eq_none_iff.mpr hnormal).symm

end Widths

/-! ## Classes -/

section Classes

def HighVoltage (design : Design K) (net_id : String) : Prop :=
  (netClasses design).get? net_id = some .powerHigh

/-- **DRC-010** reports nothing after classification, so the same only if it reports nothing before. -/
theorem checkMissingNetClass_perm_iff (classifier : Classifier) {design : Design K} {net_classes : Dict String NetClass}
    (h : design.net_classes = some net_classes) :
    (checkMissingNetClass design).Perm (checkMissingNetClass (classifyDesign classifier design)) ↔
      ∀ net_id ∈ design.nets.keys, net_id ∈ (netClasses design).keys := by
  have hclasses : netClasses design = net_classes := by
    rw [netClasses, h]
    rfl
  have hafter : checkMissingNetClass (classifyDesign classifier design) = [] := by
    refine filterMap_eq_nil_iff.mpr fun item hitem => if_pos ?_
    exact (mem_keys_classifyDesign classifier design item.1).mpr (.inr (mem_map_of_mem hitem))
  have hbefore : checkMissingNetClass design =
      design.nets.items.filterMap fun item => missingNetClassViolation (netClasses design) item.1 item.2 := by
    unfold checkMissingNetClass
    rw [h, hclasses]
  rw [hafter, hbefore, perm_nil, filterMap_eq_nil_iff]
  constructor
  · intro hnone net_id hnet
    obtain ⟨item, hitem, rfl⟩ := mem_map.mp hnet
    by_contra hmissing
    have hviolation := hnone item hitem
    rw [missingNetClassViolation, if_neg hmissing] at hviolation
    cases hviolation
  · intro hall item hitem
    exact if_pos (hall item.1 (mem_map_of_mem hitem))

theorem mem_highVoltageNetIds_iff {design : Design K} {net_id : String} :
    net_id ∈ highVoltageNetIds design ↔ HighVoltage design net_id := by
  rw [HighVoltage, Dict.get?_eq_some_iff]
  show net_id ∈ ((netClasses design).items.filter _).map Prod.fst ↔ _
  simp only [mem_map, mem_filter, decide_eq_true_eq]
  constructor
  · rintro ⟨⟨net_id, nc⟩, ⟨hmem, rfl⟩, rfl⟩
    exact hmem
  · intro hmem
    exact ⟨(net_id, .powerHigh), ⟨hmem, rfl⟩, rfl⟩

variable (fmt : EngineFormat K)

theorem highVoltageClearanceViolation_ne_none_iff {nets : List String} {m : K} {first second : TraceSegment K} :
    highVoltageClearanceViolation fmt nets m first second ≠ none ↔
      Conflict (m - 1 / 1000) first second ∧ (first.net_id ∈ nets ∨ second.net_id ∈ nets) := by
  unfold highVoltageClearanceViolation Conflict
  dsimp only
  split_ifs <;> simp_all <;> tauto

theorem highVoltageClearanceViolation_congr {nets nets' : List String} (hsub : nets ⊆ nets') {m : K}
    {first second : TraceSegment K} (h : highVoltageClearanceViolation fmt nets m first second ≠ none) :
    highVoltageClearanceViolation fmt nets' m first second = highVoltageClearanceViolation fmt nets m first second := by
  obtain ⟨⟨hnet, hlayer, hfar⟩, hhigh⟩ := (highVoltageClearanceViolation_ne_none_iff fmt).mp h
  have hpair : ¬ (first.net_id = second.net_id ∨ first.layer ≠ second.layer) :=
    not_or.mpr ⟨hnet, not_not.mpr hlayer⟩
  have hsome : ¬ (first.net_id ∉ nets ∧ second.net_id ∉ nets) := fun hnone => hhigh.elim hnone.1 hnone.2
  have hsome' : ¬ (first.net_id ∉ nets' ∧ second.net_id ∉ nets') := fun hnone =>
    hhigh.elim (fun hmem => hnone.1 (hsub hmem)) fun hmem => hnone.2 (hsub hmem)
  unfold highVoltageClearanceViolation
  rw [if_neg hpair, if_neg hpair, if_neg hsome, if_neg hsome']

theorem checkHighVoltageClearance_eq (design : Design K) :
    checkHighVoltageClearance fmt design =
      (tracePairs (traceSegments design)).filterMap fun pair =>
        highVoltageClearanceViolation fmt (highVoltageNetIds design) (highVoltageMinClearance design) pair.1 pair.2 := by
  unfold checkHighVoltageClearance
  dsimp only
  split
  · rename_i hempty
    symm
    apply filterMap_eq_nil_iff.mpr
    intro pair _
    by_contra hsome
    obtain ⟨-, hmem⟩ := (highVoltageClearanceViolation_ne_none_iff fmt).mp hsome
    rw [isEmpty_iff.mp hempty] at hmem
    exact hmem.elim not_mem_nil not_mem_nil
  · rfl

/-- **DRC-024** reports the same before and after classification exactly when no pair of traces is in conflict
because of a net that only classification gives high voltage. -/
theorem checkHighVoltageClearance_perm_iff (classifier : Classifier) (design : Design K) :
    (checkHighVoltageClearance fmt design).Perm (checkHighVoltageClearance fmt (classifyDesign classifier design)) ↔
      (traceSegments design).Pairwise fun first second =>
        Conflict (highVoltageMinClearance design - 1 / 1000) first second →
          HighVoltage (classifyDesign classifier design) first.net_id ∨
            HighVoltage (classifyDesign classifier design) second.net_id →
          HighVoltage design first.net_id ∨ HighVoltage design second.net_id := by
  have hsub : highVoltageNetIds design ⊆ highVoltageNetIds (classifyDesign classifier design) := by
    intro net_id hnet
    rw [mem_highVoltageNetIds_iff, HighVoltage] at hnet ⊢
    rw [get?_classifyDesign, hnet]
    rfl
  have hpairwise : (∀ pair ∈ tracePairs (traceSegments design), _) ↔ _ := forall_tracePairs_iff (R := fun first second =>
    Conflict (highVoltageMinClearance design - 1 / 1000) first second →
      HighVoltage (classifyDesign classifier design) first.net_id ∨
        HighVoltage (classifyDesign classifier design) second.net_id →
      HighVoltage design first.net_id ∨ HighVoltage design second.net_id)
  rw [checkHighVoltageClearance_eq, checkHighVoltageClearance_eq, ← hpairwise]
  show (filterMap (fun pair => highVoltageClearanceViolation fmt (highVoltageNetIds design)
    (highVoltageMinClearance design) pair.1 pair.2) (tracePairs (traceSegments design))).Perm
      (filterMap (fun pair => highVoltageClearanceViolation fmt
        (highVoltageNetIds (classifyDesign classifier design)) (highVoltageMinClearance design) pair.1 pair.2)
          (tracePairs (traceSegments design))) ↔ _
  constructor
  · intro hperm pair hpair hconflict hhigh
    have heq := Lists.filterMap_eq_of_length
      (fun pair _ => highVoltageClearanceViolation_congr fmt hsub) hperm.length_eq pair hpair
    simp only [← mem_highVoltageNetIds_iff] at hhigh ⊢
    have hsome := (highVoltageClearanceViolation_ne_none_iff fmt).mpr ⟨hconflict, hhigh⟩
    rw [heq] at hsome
    exact ((highVoltageClearanceViolation_ne_none_iff fmt).mp hsome).2
  · intro hall
    apply List.Perm.of_eq
    apply filterMap_congr
    intro pair hpair
    by_cases hsome : highVoltageClearanceViolation fmt (highVoltageNetIds design) (highVoltageMinClearance design)
        pair.1 pair.2 = none
    · rw [hsome]
      by_contra hafter
      -- it would be reported before, too
      obtain ⟨hconflict, hhigh⟩ := (highVoltageClearanceViolation_ne_none_iff fmt).mp (Ne.symm hafter)
      simp only [mem_highVoltageNetIds_iff] at hhigh
      have hbefore := hall pair hpair hconflict hhigh
      simp only [← mem_highVoltageNetIds_iff] at hbefore
      exact (highVoltageClearanceViolation_ne_none_iff fmt).mpr ⟨hconflict, hbefore⟩ hsome
    · exact (highVoltageClearanceViolation_congr fmt hsub hsome).symm

end Classes

/-! ## Two runs -/

section Runs

variable (engine : DRCEngine K)

/-- The second run classifies nets and the first one does not: the nets that the first run looks up have
classes, and some net that the width check looks up after the replacement has none. -/
def LateClassified (design : Design K) : Prop :=
  (∀ net_id ∈ engine.widthNets design ++ engine.viaNets (replaceRefs design), net_id ∈ (netClasses design).keys) ∧
    ¬ ∀ net_id ∈ engine.widthNets (replaceRefs design), net_id ∈ (netClasses design).keys

/-- No reference that is replaced takes part in what the enabled rules find. -/
structure Unaffected (design : Design K) : Prop where
  /-- No replaced trace is in conflict with another. -/
  clearance : engine.Enables "DRC-001" → (traceSegments design).Pairwise fun first second =>
    Conflict design.board.min_clearance_mm first second →
      Identified design.nets first ∧ Identified design.nets second
  /-- No replaced trace is too narrow for its net, by either name. -/
  width : engine.Enables "DRC-002" → ∀ seg ∈ traceSegments design, ¬ Identified design.nets seg →
    ¬ TooNarrow engine design seg ∧ ¬ TooNarrow engine design (normalizeTrace design.nets seg)
  /-- The right-angle corners are those of the replaced traces. -/
  corner : engine.Enables "DRC-003" →
    (checkRightAngle engine.fmt design).Perm (checkRightAngle engine.fmt (replaceRefs design))
  /-- Where classification comes late, no net was without a class. -/
  classes : LateClassified engine design → engine.Enables "DRC-010" →
    ∀ net_id ∈ design.nets.keys, net_id ∈ (netClasses design).keys
  /-- Where classification comes late, no conflict comes from a net that it gives high voltage. -/
  voltage : LateClassified engine design → engine.Enables "DRC-024" →
    (traceSegments (replaceRefs design)).Pairwise fun first second =>
      Conflict (highVoltageMinClearance design - 1 / 1000) first second →
        HighVoltage (classifyDesign engine.classifier design) first.net_id ∨
          HighVoltage (classifyDesign engine.classifier design) second.net_id →
        HighVoltage design first.net_id ∨ HighVoltage design second.net_id

/-! ### Classes before the checks -/

theorem ensureClassified_classifyDesign (classifier : Classifier) (design : Design K) :
    ensureClassified classifier (classifyDesign classifier design) = classifyDesign classifier design := by
  unfold ensureClassified
  split
  · exact classifyDesign_classifyDesign classifier design
  · rfl

theorem ensureClassified_ensureClassified (classifier : Classifier) (design : Design K) :
    ensureClassified classifier (ensureClassified classifier design) = ensureClassified classifier design := by
  by_cases h : (design.net_classes.getD Dict.empty).items = []
  · have hstart : ensureClassified classifier design = classifyDesign classifier design := if_pos h
    rw [hstart, ensureClassified_classifyDesign]
  · have hstart : ensureClassified classifier design = design := if_neg h
    rw [hstart, hstart]

theorem ensureClassified_replaceRefs (classifier : Classifier) (design : Design K) :
    ensureClassified classifier (replaceRefs design) = replaceRefs (ensureClassified classifier design) := by
  by_cases h : (design.net_classes.getD Dict.empty).items = []
  · have hleft : ensureClassified classifier (replaceRefs design) = classifyDesign classifier (replaceRefs design) :=
      if_pos h
    have hright : ensureClassified classifier design = classifyDesign classifier design := if_pos h
    rw [hleft, hright]
    rfl
  · have hleft : ensureClassified classifier (replaceRefs design) = replaceRefs design := if_neg h
    have hright : ensureClassified classifier design = design := if_neg h
    rw [hleft, hright]

variable {engine}

variable {design : Design K}

theorem ensureClassified_finished (h : ensureClassified engine.classifier design = design) :
    ensureClassified engine.classifier (engine.finished design) = engine.finished design := by
  have hreplaced : ensureClassified engine.classifier (engine.replaced design) = engine.replaced design := by
    unfold replaced
    split
    · rw [ensureClassified_replaceRefs, h]
    · exact h
  unfold finished settle
  split
  · exact hreplaced
  · exact ensureClassified_classifyDesign engine.classifier _

theorem exists_net_classes {classifier : Classifier} (h : ensureClassified classifier design = design) :
    ∃ net_classes, design.net_classes = some net_classes := by
  cases hclasses : design.net_classes with
  | some net_classes => exact ⟨net_classes, rfl⟩
  | none =>
    have hempty : (design.net_classes.getD Dict.empty).items = [] := by
      rw [hclasses]
      rfl
    have hsome := congrArg Design.net_classes ((if_pos hempty).symm.trans h)
    rw [hclasses] at hsome
    cases hsome

/-! ### Late classification -/

theorem finished_of_late (henabled : engine.Enables "DRC-005") (hlate : LateClassified engine design) :
    engine.finished design = replaceRefs design ∧
      engine.finishedTwice design = classifyDesign engine.classifier (replaceRefs design) := by
  have hreplaced : engine.replaced design = replaceRefs design := if_pos henabled
  obtain ⟨hfirst, hsecond⟩ := hlate
  rw [finished, finishedTwice, hreplaced]
  exact ⟨if_pos hfirst, if_neg fun hall => hsecond (forall_mem_append.mp hall).2⟩

theorem finished_of_not_late (henabled : engine.Enables "DRC-005") (hlate : ¬ LateClassified engine design) :
    engine.finished design = engine.finishedTwice design := by
  have hreplaced : engine.replaced design = replaceRefs design := if_pos henabled
  rw [finished, finishedTwice, hreplaced]
  by_cases hfirst : ∀ net_id ∈ engine.widthNets design ++ engine.viaNets (replaceRefs design),
      net_id ∈ (netClasses (replaceRefs design)).keys
  · -- what the second run looks up has classes, too
    have hsecond := not_not.mp fun hnot => hlate ⟨hfirst, hnot⟩
    rw [settle, if_pos hfirst, settle, if_pos (forall_mem_append.mpr ⟨hfirst, hsecond⟩)]
  · rw [settle, if_neg hfirst, settle, if_neg fun hall => hfirst (forall_mem_append.mp hall).1]

/-! ### The condition -/

/-- Checks agree with what they report of what they leave exactly when no replaced reference takes part. -/
theorem agree_finished_iff (hstart : ensureClassified engine.classifier design = design)
    (h : engine.Enables "DRC-005" → Settled design) :
    engine.Agree engine.allChecks design (engine.finished design) ↔
      (engine.Enables "DRC-005" → Unaffected engine design) := by
  rw [agree_iff h]
  by_cases henabled : engine.Enables "DRC-005"
  · have hsettled := h henabled
    have hreplaced : engine.replaced design = replaceRefs design := if_pos henabled
    obtain ⟨net_classes, hclasses⟩ := exists_net_classes hstart
    have hsome : (replaceRefs design).net_classes = some net_classes := hclasses
    have hmissing := checkMissingNetClass_perm_iff engine.classifier hsome
    have hvoltage := checkHighVoltageClearance_perm_iff engine.fmt engine.classifier (replaceRefs design)
    rw [hreplaced, checkClearance_perm_iff engine.fmt hsettled, checkTraceWidth_perm_iff hsettled]
    constructor
    · rintro ⟨hclearance, hwidth, hcorner, hten, htwentyFour⟩ -
      refine ⟨hclearance, hwidth, hcorner, fun hlate hrule => ?_, fun hlate hrule => ?_⟩
      · obtain ⟨hfirst, hsecond⟩ := finished_of_late henabled hlate
        have hperm := hten hrule
        rw [hfirst, hsecond] at hperm
        exact hmissing.mp hperm
      · obtain ⟨hfirst, hsecond⟩ := finished_of_late henabled hlate
        have hperm := htwentyFour hrule
        rw [hfirst, hsecond] at hperm
        exact hvoltage.mp hperm
    · intro hunaffected
      obtain ⟨hclearance, hwidth, hcorner, hten, htwentyFour⟩ := hunaffected henabled
      refine ⟨hclearance, hwidth, hcorner, fun hrule => ?_, fun hrule => ?_⟩
      · by_cases hlate : LateClassified engine design
        · obtain ⟨hfirst, hsecond⟩ := finished_of_late henabled hlate
          rw [hfirst, hsecond]
          exact hmissing.mpr (hten hlate hrule)
        · rw [finished_of_not_late henabled hlate]
      · by_cases hlate : LateClassified engine design
        · obtain ⟨hfirst, hsecond⟩ := finished_of_late henabled hlate
          rw [hfirst, hsecond]
          exact hvoltage.mpr (htwentyFour hlate hrule)
        · rw [finished_of_not_late henabled hlate]
  · -- nothing is replaced, and both runs are on one routing
    have hreplaced : engine.replaced design = design := if_neg henabled
    have hsame : engine.finished design = engine.finishedTwice design := by
      rw [finished, finishedTwice, hreplaced]
      apply settle_congr
      intro net_id
      simp only [mem_append]
      tauto
    rw [hreplaced, hsame]
    exact iff_of_true ⟨fun _ => .rfl, fun _ => .rfl, fun _ => .rfl, fun _ => .rfl, fun _ => .rfl⟩
      fun h => absurd h henabled

/-- Where replaced references stay as they are, a second run reports the same exactly when no replaced
reference takes part in what the enabled rules find. -/
theorem sameReport_iff (engine : DRCEngine K) (h : engine.Enables "DRC-005" → Settled design) :
    SameReport (engine.run design).1 (engine.run (engine.run design).2).1 ↔
      (engine.Enables "DRC-005" → Unaffected engine (ensureClassified engine.classifier design)) := by
  have hstart := ensureClassified_ensureClassified engine.classifier design
  have hsettled : engine.Enables "DRC-005" → Settled (ensureClassified engine.classifier design) := by
    intro henabled
    unfold ensureClassified
    split
    · exact h henabled
    · exact h henabled
  have hleft : (engine.run design).2 = engine.finished (ensureClassified engine.classifier design) :=
    runChecks_snd _
  rw [hleft, ← agree_finished_iff hstart hsettled,
    ← engine.perm_runChecks_iff engine.nodup_rule_ids fun check hcheck design => rule_id_of_mem engine hcheck design,
    ← sameReport_resultOf_iff]
  have hsecond := ensureClassified_finished hstart
  show SameReport (resultOf (engine.runChecks engine.allChecks (ensureClassified engine.classifier design)).1)
    (resultOf (engine.runChecks engine.allChecks (ensureClassified engine.classifier
      (engine.finished (ensureClassified engine.classifier design)))).1) ↔ _
  rw [hsecond]

/-- The rule that replaces references is not enabled, or replacing them twice is replacing them once and no
reference that is replaced takes part in a finding. -/
def Repeatable (engine : DRCEngine K) (design : Design K) : Prop :=
  engine.Enables "DRC-005" → Settled design ∧ Unaffected engine (ensureClassified engine.classifier design)

/-- An engine, for where texts and angles do not matter. -/
def plainEngine : DRCEngine ℚ where
  fmt :=
    { plainFormat with
      gap3_plain := fun _ => not_mem_nil
      fixed0 := fun _ => ""
      round6 := id
      sqrt := id
      acos := id
      degrees := id
      rpow := fun x _ => x }
  classifier :=
    { classifyByName := fun _ => none
      classifyPowerByVoltage := fun _ => none
      classifyByPinTypes := fun _ _ => .signalLow }
  knowledge_base := { getRule := fun _ => { trace_width := 3 / 20, max_vias := 20 } }

/-- A net with two traces, one of which has the name of the net for its identifier. -/
def aliasBoard (y : ℚ) : Design ℚ where
  nets := Dict.ofItems [("n1", { id := "n1", name := "VCC", nodes := [⟨"R1", "1"⟩, ⟨"R2", "1"⟩] })]
  board := { width_mm := 100, height_mm := 80, copper_pour_gnd := false, min_clearance_mm := 1 / 5 }
  routing := some
    { traces := [traceOf "top" "n1" (1 / 5) (10, 10) (20, 10), traceOf "top" "VCC" (1 / 5) (10, y) (20, y)] }

instance (m : K) (first second : TraceSegment K) : Decidable (Conflict m first second) :=
  inferInstanceAs (Decidable (_ ∧ _))

-- for `decide` below
attribute [local semireducible] Rat.add Rat.sub Rat.mul Rat.inv

end Runs

end ZapTrace.Routing.Drc
