import Mathlib.Logic.Function.Basic
import ZapTrace.Library.Run
import ZapTrace.Review.Decisions

/-!
# Processes that share a review

The records of review sessions are shared by processes, each of which keeps the sessions it has seen in
memory. A process checks a call on its own copy of the session, and then writes the whole copy over the
record. A copy that is not the record any more overwrites what others have written.

## Main results

* `Serves.step`: a fresh step keeps the record what the calls leave in their order
* `shared_review_of_fresh`: at most one decision returns, and the record does not change after it
-/

namespace ZapTrace.Review

open List hiding after
open ReviewCall

open Function (update)

variable {ι : Type} [DecidableEq ι]

/-- The memory of each process, the records by their parent and their own identifiers, and the calls that
have returned so far. -/
structure Processes (ι : Type) where
  caches : ι → Dict String ReviewSession
  records : Dict (String × String) ReviewSession
  returned : List ReviewCall := []

/-- A process looks the session up, or calls an operation on the copy it has. -/
inductive Action (ι : Type)
  | get (p : ι)
  | call (p : ι) (c : ReviewCall)

def persistReviewSession (session : ReviewSession) (records : Dict (String × String) ReviewSession) :
    Dict (String × String) ReviewSession :=
  if session.design_session_id = "" then records
  else records.set (session.design_session_id, session.session_id) session

/-- `hydrate_review_session`, for the record that it finds. -/
def hydrateReviewSession (session_id design_session_id : String)
    (records : Dict (String × String) ReviewSession) : Option ReviewSession :=
  if design_session_id = "" then none else records.get? (design_session_id, session_id)

/-- The memory of a process after `get_review_session`. -/
def getReviewSession (session_id design_session_id : String) (cache : Dict String ReviewSession)
    (records : Dict (String × String) ReviewSession) : Dict String ReviewSession :=
  match cache.get? session_id with
  | some _ => cache
  | none =>
    match hydrateReviewSession session_id design_session_id records with
    | none => cache
    | some restored => cache.set session_id restored

/-- The processes after `create_review_session` in one of them. -/
def Processes.create (s : Processes ι) (p : ι) (args : CreateArgs) : Processes ι :=
  let session := createReviewSession args
  { s with
    caches := update s.caches p ((s.caches p).set session.session_id session)
    records := persistReviewSession session s.records }

section

variable (session_id design_session_id : String)

/-- One step. A process that has no copy cannot call. -/
def Processes.step (s : Processes ι) : Action ι → Option (Processes ι)
  | .get p => some { s with
      caches := update s.caches p (getReviewSession session_id design_session_id (s.caches p) s.records) }
  | .call p c =>
    match (s.caches p).get? session_id with
    | none => none
    | some copy =>
      match c.run copy with
      | .error _ => some s
      | .ok changed => some {
          caches := update s.caches p ((s.caches p).set session_id changed)
          records := persistReviewSession changed s.records
          returned := s.returned ++ [c] }

def Processes.record (s : Processes ι) : Option ReviewSession := s.records.get? (design_session_id, session_id)

/-- A call that its copy admits is made on a copy that is the record. -/
def Fresh (s : Processes ι) : Action ι → Prop
  | .get _ => True
  | .call p c => ∀ copy, (s.caches p).get? session_id = some copy → c.Admitted copy →
      s.record session_id design_session_id = some copy

end

/-- The calls are admitted one after the other, each by the session that those before it leave. -/
def AllAdmitted (session : ReviewSession) : List ReviewCall → Prop
  | [] => True
  | c :: calls => c.Admitted session ∧ AllAdmitted (c.after session) calls

/-- The calls that record a decision. -/
def ReviewCall.resolves : ReviewCall → Bool
  | .resolve .. => true
  | .approve .. | .reject .. | .waive .. => false

/-- The record is what the calls that have returned leave, each admitted by what those before it left. -/
structure Serves (session_id design_session_id : String) (initial : ReviewSession) (s : Processes ι) : Prop where
  record : s.record session_id design_session_id = some (runCalls initial s.returned)
  admitted : AllAdmitted initial s.returned

/-! ## Calls one after the other -/

theorem runCalls_concat (session : ReviewSession) (calls : List ReviewCall) (c : ReviewCall) :
    runCalls session (calls ++ [c]) = c.after (runCalls session calls) := by
  simp [runCalls]

theorem allAdmitted_concat {session : ReviewSession} {calls : List ReviewCall} {c : ReviewCall} :
    AllAdmitted session (calls ++ [c]) ↔ AllAdmitted session calls ∧ c.Admitted (runCalls session calls) := by
  induction calls generalizing session with
  | nil => simp [AllAdmitted, runCalls]
  | cons first calls ih =>
    show first.Admitted session ∧ AllAdmitted (first.after session) (calls ++ [c]) ↔ _
    rw [ih, ← and_assoc]
    rfl

theorem AllAdmitted.append {session : ReviewSession} {calls calls' : List ReviewCall}
    (h : AllAdmitted session (calls ++ calls')) : AllAdmitted (runCalls session calls) calls' := by
  induction calls generalizing session with
  | nil => exact h
  | cons first calls ih => exact ih h.2

theorem ReviewCall.Admitted.not_finalized {c : ReviewCall} {session : ReviewSession} (h : c.Admitted session) :
    session.finalized = false := by
  cases c <;> exact h.1

theorem finalized_after_of_resolves {c : ReviewCall} {session : ReviewSession} (h : c.Admitted session)
    (hc : c.resolves = true) : (c.after session).finalized = true := by
  cases c with
  | approve | reject | waive => cases hc
  | resolve decision decided_by reason waiver_notes drawn =>
    obtain ⟨session', hrun⟩ := run_eq_ok_iff.mpr h
    obtain ⟨recorded, hrecorded⟩ := run_discard.mp hrun
    obtain ⟨-, -, -, -, -, rfl⟩ := resolveDecision_eq_ok_iff.mp hrecorded
    simp [after, hrun, withDecision, ReviewSession.finalized]

theorem AllAdmitted.resolve_last {session : ReviewSession} {calls calls' : List ReviewCall} {c : ReviewCall}
    (h : AllAdmitted session (calls ++ c :: calls')) (hc : c.resolves = true) : calls' = [] := by
  have hrest : AllAdmitted (runCalls session calls) (c :: calls') := h.append
  cases calls' with
  | nil => rfl
  | cons next calls' =>
    have hopen := hrest.2.1.not_finalized
    rw [finalized_after_of_resolves hrest.1 hc] at hopen
    cases hopen

theorem AllAdmitted.countP_resolves {session : ReviewSession} {calls : List ReviewCall}
    (h : AllAdmitted session calls) : calls.countP resolves ≤ 1 := by
  induction calls generalizing session with
  | nil => exact Nat.zero_le _
  | cons c calls ih =>
    cases hc : c.resolves with
    | true =>
      have hnil : calls = [] := @AllAdmitted.resolve_last session [] calls c h hc
      simp [hnil, hc]
    | false =>
      rw [countP_cons_of_neg (by simp [hc])]
      exact ih h.2

/-! ## Steps and runs -/

theorem ids_after (c : ReviewCall) (session : ReviewSession) :
    (c.after session).session_id = session.session_id ∧
      (c.after session).design_session_id = session.design_session_id := by
  unfold after
  cases hrun : c.run session with
  | error e => exact ⟨rfl, rfl⟩
  | ok session' =>
    rcases (run_cases hrun).2 with ⟨_, _, _, rfl⟩ | ⟨_, _, _, _, _, _, rfl⟩ <;> exact ⟨rfl, rfl⟩

theorem ids_runCalls (session : ReviewSession) (calls : List ReviewCall) :
    (runCalls session calls).session_id = session.session_id ∧
      (runCalls session calls).design_session_id = session.design_session_id := by
  induction calls generalizing session with
  | nil => exact ⟨rfl, rfl⟩
  | cons c calls ih =>
    have hfirst := ids_after c session
    exact ⟨(ih _).1.trans hfirst.1, (ih _).2.trans hfirst.2⟩

section

variable {session_id design_session_id : String} {initial : ReviewSession}

/-- A fresh step keeps the record what the calls leave. -/
theorem Serves.step {s s' : Processes ι} {a : Action ι} (hpersisted : initial.design_session_id ≠ "")
    (hids : initial.session_id = session_id ∧ initial.design_session_id = design_session_id)
    (h : Serves session_id design_session_id initial s) (hfresh : Fresh session_id design_session_id s a)
    (hstep : s.step session_id design_session_id a = some s') :
    Serves session_id design_session_id initial s' := by
  cases a with
  | get p =>
    cases hstep
    exact ⟨h.record, h.admitted⟩
  | call p c =>
    simp only [Processes.step] at hstep
    split at hstep
    · cases hstep
    · rename_i copy hcopy
      split at hstep
      · cases hstep
        exact h
      · rename_i changed hrun
        cases hstep
        have hadmitted := run_eq_ok_iff.mp ⟨changed, hrun⟩
        -- the copy is the record, which is what the calls before this one leave
        have hcurrent : copy = runCalls initial s.returned :=
          Option.some.inj ((hfresh copy hcopy hadmitted).symm.trans h.record)
        subst hcurrent
        have hchanged : changed = runCalls initial (s.returned ++ [c]) := by
          rw [runCalls_concat, after, hrun]
        have hchanged_ids := ids_runCalls initial (s.returned ++ [c])
        constructor
        · show (persistReviewSession changed s.records).get? (design_session_id, session_id) = _
          rw [hchanged, persistReviewSession, if_neg (by rw [hchanged_ids.2]; exact hpersisted),
            hchanged_ids.1, hchanged_ids.2, hids.1, hids.2, Dict.get?_set_self]
        · exact allAdmitted_concat.mpr ⟨h.admitted, hadmitted⟩

theorem returned_prefix_step {s s' : Processes ι} {a : Action ι}
    (hstep : s.step session_id design_session_id a = some s') : s.returned <+: s'.returned := by
  cases a with
  | get p =>
    cases hstep
    exact prefix_rfl
  | call p c =>
    simp only [Processes.step] at hstep
    split at hstep
    · cases hstep
    · split at hstep
      · cases hstep
        exact prefix_rfl
      · cases hstep
        exact prefix_append _ _

theorem returned_prefix_exec {s s' : Processes ι} {acts : List (Action ι)}
    (hrun : Run.exec (Processes.step session_id design_session_id) s acts = some s') :
    s.returned <+: s'.returned :=
  Run.exec_preserves (P := fun t => s.returned <+: t.returned)
    (fun _ _ _ h hstep => h.trans (returned_prefix_step hstep)) prefix_rfl hrun

/-- The session has a record, and no call on it has returned yet. -/
structure Started (session_id design_session_id : String) (initial : ReviewSession) (s : Processes ι) : Prop where
  record : s.record session_id design_session_id = some initial
  ids : initial.session_id = session_id ∧ initial.design_session_id = design_session_id
  persisted : initial.design_session_id ≠ ""
  returned : s.returned = []

theorem started_create (s : Processes ι) (p : ι) (args : CreateArgs) (hreturned : s.returned = [])
    (hpersisted : args.design_session_id ≠ "") :
    Started (createReviewSession args).session_id args.design_session_id (createReviewSession args)
      (s.create p args) where
  record := by
    show (persistReviewSession (createReviewSession args) s.records).get? _ = _
    rw [persistReviewSession, if_neg (show (createReviewSession args).design_session_id ≠ "" from hpersisted)]
    exact Dict.get?_set_self _ _ _
  ids := ⟨rfl, rfl⟩
  persisted := hpersisted
  returned := hreturned

/-- When every call that its copy admits is made on a copy that is the record, at most one decision
returns over all processes, every call that returns is in the record, and once a decision has returned the
record does not change. -/
theorem shared_review_of_fresh {s₀ s s' : Processes ι} {before after : List (Action ι)}
    (hstart : Started session_id design_session_id initial s₀)
    (hbefore : Run.exec (Processes.step session_id design_session_id) s₀ before = some s)
    (hafter : Run.exec (Processes.step session_id design_session_id) s after = some s')
    (hfresh : Run.EachStep (Processes.step session_id design_session_id) s₀ (before ++ after)
      (Fresh session_id design_session_id)) :
    s'.returned.countP resolves ≤ 1 ∧
    (s'.record session_id design_session_id = some (runCalls initial s'.returned) ∧
      AllAdmitted initial s'.returned) ∧
    ((∃ c ∈ s.returned, c.resolves = true) →
      s'.record session_id design_session_id = s.record session_id design_session_id) := by
  have hinit : Serves session_id design_session_id initial s₀ := by
    constructor
    · rw [hstart.record, hstart.returned]
      rfl
    · rw [hstart.returned]
      trivial
  have hserves := Run.always_of_eachStep hinit
    (fun _ _ _ hs hC hs' => hs.step hstart.persisted hstart.ids hC hs') hfresh
  have hs := hserves before (prefix_append _ _) s hbefore
  have hs' := hserves (before ++ after) prefix_rfl s' (by rw [Run.exec_append, hbefore]; exact hafter)
  refine ⟨hs'.admitted.countP_resolves, ⟨hs'.record, hs'.admitted⟩, ?_⟩
  rintro ⟨c, hc, hresolves⟩
  -- no call returns after a decision
  obtain ⟨rest, hrest⟩ := returned_prefix_exec hafter
  obtain ⟨front, back, hsplit⟩ := append_of_mem hc
  have hadmitted := hs'.admitted
  rw [← hrest, hsplit, append_assoc, cons_append] at hadmitted
  have hlast : back ++ rest = [] := hadmitted.resolve_last hresolves
  have hrest_nil : rest = [] := (append_eq_nil_iff.mp hlast).2
  rw [hs'.record, hs.record, ← hrest, hrest_nil, append_nil]

end

/-! ## Two processes -/

def boardReview : CreateArgs :=
  { design_name := "board", panel_ids := some ["simulation"], design_session_id := "design", session_token := "t"
    now := "1" }

/-- A process has made the review, and the other has looked it up. -/
def sharedReview : Processes Bool := Processes.create { caches := fun _ => Dict.empty, records := Dict.empty } true boardReview

def approveBoard : ReviewCall := .resolve .approve "eve" "complete" "" ⟨"2", "2", "d", "a"⟩

def rejectBoard : ReviewCall := .resolve .reject "mallory" "unsafe" "" ⟨"3", "3", "e", ""⟩

/-- The other process looks the review up before the decision, and decides after it. -/
def twoDecisions : List (Action Bool) := [.get false, .call true approveBoard, .call false rejectBoard]

theorem shared_review_of_fresh_approveBoard :
    ∃ s, Run.exec (Processes.step "session-t" "design") sharedReview [.call true approveBoard] = some s ∧
      s.returned.countP resolves ≤ 1 := by
  have hstart : Started "session-t" "design" (createReviewSession boardReview) sharedReview :=
    started_create _ true boardReview rfl (by decide)
  obtain ⟨s, hs⟩ : ∃ s, Processes.step "session-t" "design" sharedReview (.call true approveBoard) = some s := ⟨_, rfl⟩
  have hbefore : Run.exec (Processes.step "session-t" "design") sharedReview [.call true approveBoard] = some s :=
    Run.exec_cons.mpr ⟨s, hs, rfl⟩
  -- the process that made the review has the record
  have hcache : sharedReview.record "session-t" "design" = (sharedReview.caches true).get? "session-t" := rfl
  refine ⟨s, hbefore, (shared_review_of_fresh hstart hbefore (Run.exec_nil s) ?_).1⟩
  exact .cons (fun copy hcopy _ => hcache.trans hcopy) hs .nil

/-- Both decisions return, and the second is written over the first. -/
theorem not_single_decision_twoDecisions :
    ∃ s, Run.exec (Processes.step "session-t" "design") sharedReview twoDecisions = some s ∧
      s.returned.countP resolves = 2 ∧
      (s.record "session-t" "design").map ReviewSession.status = some .rejected :=
  ⟨_, rfl, by decide, by decide⟩

end ZapTrace.Review
