import ZapTrace.Ee.DrcTwice

/-!
# The design rule engine on a board with identifiers

Where every trace names its net by the identifier, the engine reports the same list on the design as it is, on the
design with the references of its vias replaced, and on the design that a run leaves.

## Main results

* `finished_settle_replaceRefs`: what a run leaves of what a run leaves
* `run_eq_of_identified`: the engine reports the same list on all of them
-/

set_option linter.unusedSectionVars false

namespace ZapTrace.Routing.Drc

open Plane DRCEngine

variable {K : Type} [Field K] [LinearOrder K] {engine : DRCEngine K} {design : Design K}

theorem traceSegments_replaceRefs_of_identified (h : ∀ seg ∈ traceSegments design, Identified design.nets seg) :
    traceSegments (replaceRefs design) = traceSegments design := by
  rw [traceSegments_replaceRefs]
  conv_rhs => rw [← List.map_id (traceSegments design)]
  exact List.map_congr_left fun seg hseg => normalizeTrace_of_identified (h seg hseg)

theorem traceSegments_settle (classifier : Classifier) (net_ids : List String) :
    traceSegments (settle classifier design net_ids) = traceSegments design :=
  apply_settle rfl net_ids

theorem classOf_replaceRefs (classifier : Classifier) : classOf classifier (replaceRefs design) = classOf classifier design :=
  rfl

theorem widthNets_of_traceSegments {design' : Design K} (h : traceSegments design' = traceSegments design) :
    engine.widthNets design' = engine.widthNets design := by
  unfold widthNets
  rw [h]

theorem finished_settle_replaceRefs (henabled : engine.Enables "DRC-005") (hsettled : Settled design)
    (htraces : ∀ seg ∈ traceSegments design, Identified design.nets seg) (net_ids : List String) :
    engine.finished (settle engine.classifier (replaceRefs design) net_ids) =
      settle engine.classifier (replaceRefs design)
        (net_ids ++ (engine.widthNets design ++ engine.viaNets (replaceRefs design))) := by
  have hreplaced : engine.replaced (settle engine.classifier (replaceRefs design) net_ids) =
      settle engine.classifier (replaceRefs design) net_ids := by
    rw [replaced_settle]
    have hagain : engine.replaced (replaceRefs design) = replaceRefs (replaceRefs design) := if_pos henabled
    rw [hagain, replaceRefs_replaceRefs hsettled]
  have hwidth := @widthNets_of_traceSegments K _ _ engine _ _ (traceSegments_replaceRefs_of_identified htraces)
  rw [finished, hreplaced, widthNets_settle, viaNets_settle, settle_settle, hwidth]

/-- **The checks report the same list** on the design as it is and on what replacement and lookups leave of it. -/
theorem runChecks_eq_of_identified (henabled : engine.Enables "DRC-005") (hsettled : Settled design)
    (htraces : ∀ seg ∈ traceSegments design, Identified design.nets seg) {net_ids : List String}
    (hfinished : engine.finished (settle engine.classifier (replaceRefs design) net_ids) = engine.finished design) :
    (engine.runChecks engine.allChecks (settle engine.classifier (replaceRefs design) net_ids)).1 =
      (engine.runChecks engine.allChecks design).1 := by
  obtain ⟨after, hafter⟩ : ∃ after, after = settle engine.classifier (replaceRefs design) net_ids := ⟨_, rfl⟩
  rw [← hafter] at hfinished ⊢
  have hsegments : traceSegments after = traceSegments design := by
    rw [hafter, traceSegments_settle, traceSegments_replaceRefs_of_identified htraces]
  have hnets : after.nets = design.nets := by
    rw [hafter, nets_settle]
    rfl
  have hboard : after.board = design.board := by
    rw [hafter]
    exact apply_settle rfl net_ids
  have hclass : classOf engine.classifier after = classOf engine.classifier design := by
    rw [hafter, classOf_settle, classOf_replaceRefs]
  have hreplaced : engine.replaced after = after := by
    have hagain : engine.replaced (replaceRefs design) = replaceRefs (replaceRefs design) := if_pos henabled
    rw [hafter, replaced_settle, hagain, replaceRefs_replaceRefs hsettled]
  have hreplace : engine.replaced design = replaceRefs design := if_pos henabled
  -- the checks before the replacement read traces, and the classes that lookups find
  have hunconnected : checkUnconnectedNets after = checkUnconnectedNets design := by
    unfold checkUnconnectedNets
    rw [hnets]
  have hclearance : checkClearance engine.fmt.toFormat after = checkClearance engine.fmt.toFormat design := by
    unfold checkClearance
    rw [hsegments, hboard]
  have hwidth : (checkTraceWidth engine.fmt engine.knowledge_base engine.classifier after).1 =
      (checkTraceWidth engine.fmt engine.knowledge_base engine.classifier design).1 := by
    rw [checkTraceWidth_eq, checkTraceWidth_eq, hsegments, hclass]
  have hcorner : checkRightAngle engine.fmt (settle engine.classifier after (engine.widthNets after)) =
      checkRightAngle engine.fmt (settle engine.classifier design (engine.widthNets design)) := by
    unfold checkRightAngle
    rw [traceSegments_settle, traceSegments_settle, hsegments]
  -- the references are replaced in both runs when nets without traces are looked for
  have hunrouted : (checkUnroutedNets (settle engine.classifier after (engine.widthNets after))).1 =
      (checkUnroutedNets (settle engine.classifier design (engine.widthNets design))).1 := by
    apply checkUnroutedNets_congr
    · rw [nets_settle, nets_settle, hnets]
    · rw [replaceRefs_settle, routing_settle, replaceRefs_settle, routing_settle, hafter, replaceRefs_settle,
        routing_settle, replaceRefs_replaceRefs hsettled]
  have hvias : (checkViaCount engine.fmt.toFormat engine.knowledge_base engine.classifier
        (engine.replaced (settle engine.classifier after (engine.widthNets after)))).1 =
      (checkViaCount engine.fmt.toFormat engine.knowledge_base engine.classifier
        (engine.replaced (settle engine.classifier design (engine.widthNets design)))).1 := by
    rw [replaced_settle, replaced_settle, hreplaced, hreplace, hafter, settle_settle]
    exact checkViaCount_congr _ _
  have hfirst := @settle_replaced_settle K _ _ engine design
  have hsecond := @settle_replaced_settle K _ _ engine after
  rw [hfinished] at hsecond
  simp only [allChecks, runChecks_cons, after_reads, after_width, after_unrouted, after_vias,
    hfirst, hsecond]
  simp only [reports, DRCCheck.reads, hunconnected, hclearance, hwidth, hcorner, hunrouted, hvias]
  rfl

theorem run_eq_of_identified (henabled : engine.Enables "DRC-005") (hsettled : Settled design)
    (htraces : ∀ seg ∈ traceSegments design, Identified design.nets seg) :
    engine.run (replaceRefs design) = engine.run design ∧
      engine.run (engine.run design).2 = engine.run design := by
  obtain ⟨start, hstart⟩ : ∃ start, start = ensureClassified engine.classifier design := ⟨_, rfl⟩
  have hroutingStart : Settled start ∧ (∀ seg ∈ traceSegments start, Identified start.nets seg) := by
    rw [hstart]
    unfold ensureClassified
    split
    · exact ⟨hsettled, htraces⟩
    · exact ⟨hsettled, htraces⟩
  obtain ⟨hsettledStart, htracesStart⟩ := hroutingStart
  have hclassified : ensureClassified engine.classifier start = start := by
    rw [hstart, ensureClassified_ensureClassified]
  have hunfold : ∀ design, engine.run design =
      (resultOf (engine.runChecks engine.allChecks (ensureClassified engine.classifier design)).1,
        engine.finished (ensureClassified engine.classifier design)) := by
    intro design
    rw [← runChecks_snd]
    rfl
  have hrun := hunfold design
  rw [← hstart] at hrun
  have hfinished := @finished_settle_replaceRefs K _ _ engine start henabled hsettledStart htracesStart
  have hreplace : engine.replaced start = replaceRefs start := if_pos henabled
  constructor
  · have hnil := hfinished []
    have hsame : engine.finished (settle engine.classifier (replaceRefs start) []) = engine.finished start := by
      rw [hnil, finished, hreplace]
      rfl
    have hchecks := runChecks_eq_of_identified henabled hsettledStart htracesStart hsame
    rw [settle_nil] at hnil hchecks
    have hleft := hunfold (replaceRefs design)
    rw [ensureClassified_replaceRefs, ← hstart] at hleft
    rw [hleft, hrun, hchecks, hnil, finished, hreplace]
    rfl
  · have hleaves : engine.finished start = settle engine.classifier (replaceRefs start)
        (engine.widthNets start ++ engine.viaNets (replaceRefs start)) := by
      rw [finished, hreplace]
    have hagain : engine.finished (engine.finished start) = engine.finished start := by
      rw [hleaves, hfinished]
      apply settle_congr
      intro net_id
      simp only [List.mem_append]
      tauto
    have hchecks := @runChecks_eq_of_identified K _ _ engine start henabled hsettledStart htracesStart
      (engine.widthNets start ++ engine.viaNets (replaceRefs start)) (hleaves ▸ hagain)
    rw [← hleaves] at hchecks
    have hleft := hunfold (engine.finished start)
    rw [ensureClassified_finished hclassified] at hleft
    rw [hrun]
    show engine.run (engine.finished start) = _
    rw [hleft, hchecks, hagain]

end ZapTrace.Routing.Drc
