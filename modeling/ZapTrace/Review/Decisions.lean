import ZapTrace.Review.Workflow

/-!
# One decision

A review session records at most one decision, and nothing in it changes afterwards. The decision keeps
the checklist as it is, and one that approves or accepts the risk has the checklist it needs.

## Main results

* `ReviewSession.Settled.after`, `ReviewSession.Settled.runCalls`: calls keep a session settled
* `runCalls_of_finalized`: calls on a finalized session change nothing
* `decision_final`: every sequence of calls records at most one decision, which stays true
-/

namespace ZapTrace.Review

/-- A decision agrees with the checklist of a session. -/
structure ReviewDecision.Holds (d : ReviewDecision) (session : ReviewSession) : Prop where
  results : d.checklist_results = session.checklistResults
  blocking : d.decision = .approve ∨ d.decision = .accept_risk → ∀ item ∈ session.checklist.values,
    item.is_blocking = true → item.status = .approved ∨ item.status = .waived
  none_rejected : d.decision = .approve ∨ d.decision = .accept_risk →
    ∀ item ∈ session.checklist.values, item.status ≠ .rejected
  some_waived : d.decision = .accept_risk → ∃ item ∈ session.checklist.values, item.status = .waived

/-- A session has at most one decision, and it agrees with the checklist. -/
structure ReviewSession.Settled (session : ReviewSession) : Prop where
  single : session.decisions.length ≤ 1
  holds : ∀ d ∈ session.decisions, d.Holds session
variable {session : ReviewSession}

theorem ReviewSession.settled_of_no_decision (h : session.decisions = []) :
    session.Settled where
  single := by simp [h]
  holds := by simp [h]

theorem settled_createReviewSession (args : CreateArgs) : (createReviewSession args).Settled :=
  ReviewSession.settled_of_no_decision rfl

theorem decisionRecord_holds {decision : DecisionType} (h : Permits session decision)
    (actor rationale waiver_notes : String) (drawn : Drawn) (now : String) :
    (decisionRecord session decision actor rationale waiver_notes drawn).Holds
      (withDecision session (decisionRecord session decision actor rationale waiver_notes drawn) now) where
  results := rfl
  blocking hdecision := session.allApproved_iff.mp (h.1 hdecision).2
  none_rejected hdecision := session.anyRejected_eq_false_iff.mp (h.1 hdecision).1
  some_waived hdecision := session.anyWaived_iff.mp (h.2 hdecision)

/-! ## One call -/

theorem decisions_eq_nil_of_open (h : session.finalized = false) : session.decisions = [] :=
  (session.finalized_eq_false_iff.mp h).2

theorem ReviewSession.settled_run {session session' : ReviewSession} {c : ReviewCall} (h : c.run session = .ok session') :
    session'.Settled := by
  obtain ⟨hopen, hchanged⟩ := ReviewCall.run_cases h
  have hnone := decisions_eq_nil_of_open hopen
  rcases hchanged with ⟨item_id, item, later, rfl⟩ | ⟨decision, actor, rationale, notes, drawn, hpermits, rfl⟩
  · exact ReviewSession.settled_of_no_decision hnone
  · constructor
    · simp [withDecision, hnone]
    · intro d hd
      rw [show (withDecision session (decisionRecord session decision actor rationale notes drawn)
        drawn.now).decisions = [decisionRecord session decision actor rationale notes drawn] by
          simp [withDecision, hnone], List.mem_singleton] at hd
      subst hd
      exact decisionRecord_holds hpermits actor rationale notes drawn drawn.now

theorem after_of_finalized (h : session.finalized = true) (c : ReviewCall) : c.after session = session := by
  unfold ReviewCall.after
  cases hrun : c.run session with
  | error e => rfl
  | ok session' =>
    have := (ReviewCall.run_cases hrun).1
    rw [h] at this
    cases this

/-! ## Runs of calls -/

theorem ReviewSession.Settled.after (h : session.Settled) (c : ReviewCall) : (c.after session).Settled := by
  unfold ReviewCall.after
  cases hrun : c.run session with
  | error e => exact h
  | ok session' => exact ReviewSession.settled_run hrun

theorem ReviewSession.Settled.runCalls (h : session.Settled) (calls : List ReviewCall) :
    (runCalls session calls).Settled := by
  induction calls generalizing session with
  | nil => exact h
  | cons c calls ih => exact ih (h.after c)

theorem runCalls_of_finalized (h : session.finalized = true) (calls : List ReviewCall) :
    runCalls session calls = session := by
  induction calls with
  | nil => rfl
  | cons c calls ih =>
    show runCalls (c.after session) calls = session
    rw [after_of_finalized h, ih]

/-- The sessions that come from calls on new ones. -/
inductive ReviewSession.Reachable : ReviewSession → Prop
  | created (args : CreateArgs) : Reachable (createReviewSession args)
  | called {session : ReviewSession} (h : Reachable session) (c : ReviewCall) :
      Reachable (c.after session)

theorem ReviewSession.Reachable.settled (h : session.Reachable) : session.Settled := by
  induction h with
  | created args => exact settled_createReviewSession args
  | called _ c ih => exact ih.after c

/-- Every sequence of calls on a review session records at most one decision. Once it is recorded, later
calls change nothing, the decision keeps the statuses of the final checklist, and the items that an
approval or an acceptance of the risk needs have them there. -/
theorem decision_final {session : ReviewSession} (h : session.Reachable) (before after : List ReviewCall) :
    let decided := runCalls session before
    let final := runCalls decided after
    decided.decisions.length ≤ 1 ∧
    (decided.decisions ≠ [] → final.checklist = decided.checklist ∧ final.decisions = decided.decisions ∧
      final.status = decided.status) ∧
    ∀ d ∈ decided.decisions, d.checklist_results = final.checklistResults ∧
      (d.decision = .approve ∨ d.decision = .accept_risk →
        (∀ item ∈ final.checklist.values, item.is_blocking = true →
          item.status = .approved ∨ item.status = .waived) ∧
        ∀ item ∈ final.checklist.values, item.status ≠ .rejected) ∧
      (d.decision = .accept_risk → ∃ item ∈ final.checklist.values, item.status = .waived) := by
  intro decided final
  have hsettled : decided.Settled := h.settled.runCalls before
  have hfinal : decided.decisions ≠ [] → final = decided := by
    intro hdecided
    apply runCalls_of_finalized
    simp [ReviewSession.finalized, hdecided]
  refine ⟨hsettled.single, fun hdecided => ?_, fun d hd => ?_⟩
  · rw [hfinal hdecided]
    exact ⟨rfl, rfl, rfl⟩
  · rw [hfinal (List.ne_nil_of_mem hd)]
    have hholds := hsettled.holds d hd
    exact ⟨hholds.results, fun hdecision => ⟨hholds.blocking hdecision, hholds.none_rejected hdecision⟩,
      hholds.some_waived⟩

/-- A review of one panel, whose item is waived before the risk is accepted, and approved too late. -/
def waivedReview : ReviewSession :=
  createReviewSession { design_name := "board", panel_ids := some ["erc"], session_token := "t", now := "1" }

def waiveErc : ReviewCall := .waive "erc-review" "eve" "known" "n/a" ⟨"2", "2", "", ""⟩

def acceptRisk : ReviewCall := .resolve .accept_risk "eve" "known" "" ⟨"3", "3", "d", "a"⟩

def approveErc : ReviewCall := .approve "erc-review" "eve" "late" ⟨"4", "4", "", ""⟩

theorem decision_final_waivedReview :
    (runCalls waivedReview [waiveErc, acceptRisk]).decisions.length = 1 ∧
    (runCalls (runCalls waivedReview [waiveErc, acceptRisk]) [approveErc]).status = .risk_accepted := by
  have hfinal := decision_final (.created { design_name := "board", panel_ids := some ["erc"], session_token := "t", now := "1" })
    [waiveErc, acceptRisk] [approveErc]
  refine ⟨by decide, ?_⟩
  exact (hfinal.2.1 (by decide)).2.2.trans (by decide)

end ZapTrace.Review
