import ZapTrace.Agent.Workflow
import ZapTrace.Library.Run

/-!
# Which runs of a workflow are lawful

A workflow that is completed should have all its steps passed or skipped, and one that was aborted
should stay so. The operations write the status of the workflow without a look at the status it has
or at the steps other than their own, so both hold of exactly the runs whose calls keep to an order:
the last step is completed after the others, and after an abort no step is begun, the last step is
not completed, and nothing is resumed.

## Main results

* `WorkflowCheckpoint.lawful_iff_keepsOrder`: a run is lawful throughout exactly when its calls keep
  to the order
-/

namespace ZapTrace

open WorkflowStatus Prog

/-- A step that needs no more work. -/
def WorkflowStepRecord.Done (step : WorkflowStepRecord) : Prop :=
  step.status = .passed ∨ step.status = .skipped

namespace WorkflowCheckpoint

def AllDone (c : WorkflowCheckpoint) : Prop := ∀ step ∈ c.steps, step.Done

/-- Every step but the one with the identifier. -/
def OthersDone (c : WorkflowCheckpoint) (step_id : String) : Prop :=
  ∀ step ∈ c.steps, step.step_id ≠ step_id → step.Done

def HasStep (c : WorkflowCheckpoint) (step_id : String) : Prop := ∃ step ∈ c.steps, step.step_id = step_id

theorem step?_eq_none_iff {c : WorkflowCheckpoint} {step_id : String} :
    c.step? step_id = none ↔ ¬ c.HasStep step_id := by
  rw [step?, List.find?_eq_none]
  exact ⟨fun h ⟨_, hs, hid⟩ => h _ hs (decide_eq_true hid),
    fun h _ hs hid => h ⟨_, hs, of_decide_eq_true hid⟩⟩

theorem index_lt_iff {c : WorkflowCheckpoint} {step_id : String} :
    c.index step_id < c.steps.length ↔ c.HasStep step_id := by
  simp [index, HasStep, List.findIdx_lt_length]

end WorkflowCheckpoint

/-! ## What the operations write -/

open WorkflowCheckpoint

theorem getStep_of_hasStep {c : WorkflowCheckpoint} {step_id : String} (h : c.HasStep step_id) :
    ∃ step, c.step? step_id = some step ∧ getStep step_id c = (.ok step, c) := by
  cases hstep : c.step? step_id with
  | none => exact absurd h (step?_eq_none_iff.mp hstep)
  | some step => exact ⟨step, rfl, by simp [getStep, hstep]⟩

theorem getStep_of_not_hasStep {c : WorkflowCheckpoint} {step_id : String} (h : ¬ c.HasStep step_id) :
    getStep step_id c = (.error (.unknownStep step_id), c) := by
  simp [getStep, step?_eq_none_iff.mpr h]

def SameProgress (c c' : WorkflowCheckpoint) : Prop := c'.status = c.status ∧ c'.steps = c.steps

theorem recordRecovery_keeps (decision : RecoveryDecision) (args : RecoveryArgs)
    (step_id rollback_id : String) (c : WorkflowCheckpoint) :
    Prog.Triple (fun t => t = c) (recordRecovery decision args step_id rollback_id)
      (fun _ t => t = c) fun _ t => t = c := by
  have htarget : Prog.Triple (fun t => t = c) (recoveryStep step_id) (fun _ t => t = c)
      fun _ t => t = c := by
    apply Prog.Triple.get_bind
    rintro s rfl
    split
    · exact fun _ h => h
    · split <;> exact fun _ h => h
  have haudit : ∀ audit, Prog.Triple (fun t => t = c) (auditRecovery args audit) (fun _ t => t = c)
      fun _ t => t = c := by
    intro audit s hs
    unfold auditRecovery
    cases args.audit_session with
    | none => exact hs
    | some record => cases hr : record audit <;> simpa [hr, Except.mapError] using hs
  refine htarget.bind fun target => Prog.Triple.get_bind fun s hs => ?_
  subst hs
  exact (haudit _).bind fun event t ht => ht

theorem keepRecovery_sameProgress (decision : RecoveryDecision) (args : RecoveryArgs)
    (step_id rollback_id : String) (c : WorkflowCheckpoint) :
    SameProgress c (keepRecovery decision args step_id rollback_id c).2 := by
  have hrecord : Prog.Triple (fun t => t = c) (recordRecovery decision args step_id rollback_id)
      (fun _ t => t = c) fun _ => SameProgress c :=
    (recordRecovery_keeps decision args step_id rollback_id c).consequence (fun _ h => h)
      (fun _ _ h => h) fun _ _ h => h ▸ ⟨rfl, rfl⟩
  have hkeep : Prog.Triple (fun t => t = c) (keepRecovery decision args step_id rollback_id)
      (fun _ => SameProgress c) fun _ => SameProgress c :=
    hrecord.bind fun event s hs => hs ▸ ⟨rfl, rfl⟩
  exact hkeep.snd rfl

variable {c : WorkflowCheckpoint} {step_id : String}

theorem getStep_bind_of_not_hasStep {α : Type} (h : ¬ c.HasStep step_id)
    (f : WorkflowStepRecord → WorkflowOp α) : ((getStep step_id >>= f) c).2 = c := by
  rw [bind_of_error (getStep_of_not_hasStep h)]

theorem beginStep_of_hasStep (h : c.HasStep step_id) (now : String) :
    (beginStep step_id now c).2.status = .running := by
  obtain ⟨step, -, hget⟩ := getStep_of_hasStep h
  rw [beginStep, bind_of_ok hget]
  rfl

theorem completeStep_of_hasStep (h : c.HasStep step_id) (outcome : StepOutcome) (now : String) :
    (completeStep step_id outcome now c).2.steps =
        (c.updateStep step_id (WorkflowStepRecord.complete outcome)).steps ∧
      (completeStep step_id outcome now c).2.status =
        if c.index step_id + 1 = c.steps.length then .completed else c.status := by
  obtain ⟨step, -, hget⟩ := getStep_of_hasStep h
  have hlt := index_lt_iff.mpr h
  have hlen : (c.updateStep step_id (WorkflowStepRecord.complete outcome)).steps.length =
      c.steps.length := by simp [updateStep]
  rw [completeStep, bind_of_ok hget]
  simp only [modify_bind, touchCheckpoint, modify_apply, hlen]
  by_cases hlast : c.index step_id + 1 = c.steps.length
  · rw [if_pos hlast, if_pos (by omega)]
    exact ⟨rfl, rfl⟩
  · rw [if_neg hlast, if_neg (by omega)]
    exact ⟨rfl, rfl⟩

theorem failStep_status_of_hasStep (h : c.HasStep step_id) (kind : FailureKind) (error : String)
    (evidence : Option Evidence) (now : String) :
    (failStep step_id kind error evidence now c).2.status = .aborted ∨
      (failStep step_id kind error evidence now c).2.status = .failed := by
  obtain ⟨step, -, hget⟩ := getStep_of_hasStep h
  rw [failStep, bind_of_ok hget]
  by_cases hkind : kind = .user_abort
  · left
    show (if kind = .user_abort then aborted else .failed) = .aborted
    rw [if_pos hkind]
  · right
    show (if kind = .user_abort then aborted else .failed) = .failed
    rw [if_neg hkind]

theorem resumeWorkflow_of_resumable (h : c.status ∈ [failed, .paused])
    (args : RecoveryArgs) : (resumeWorkflow args c).2.status = .running := by
  rw [resumeWorkflow, get_bind, if_neg (not_not.mpr h), modify_bind]
  exact (keepRecovery_sameProgress .resume args "" "" _).1

theorem resumeWorkflow_of_not_resumable (h : c.status ∉ [failed, .paused])
    (args : RecoveryArgs) : (resumeWorkflow args c).2 = c := by
  rw [resumeWorkflow, get_bind, if_pos h]
  rfl

theorem abortWorkflow_status (args : RecoveryArgs) (c : WorkflowCheckpoint) :
    (abortWorkflow args c).2.status = .aborted := by
  rw [abortWorkflow, modify_bind]
  exact (keepRecovery_sameProgress .abort args "" "" _).1

theorem rollbackAfterResume_sameProgress (step_id : String) (args : RecoveryArgs)
    (c : WorkflowCheckpoint) : SameProgress c (rollbackAfterResume step_id args c).2 := by
  by_cases h : c.HasStep step_id
  · obtain ⟨step, -, hget⟩ := getStep_of_hasStep h
    rw [rollbackAfterResume, bind_of_ok hget]
    split
    · exact ⟨rfl, rfl⟩
    · exact keepRecovery_sameProgress .rollback args step_id step.rollback_id c
  · rw [rollbackAfterResume, getStep_bind_of_not_hasStep h]
    exact ⟨rfl, rfl⟩

/-! ## Completed steps -/

namespace WorkflowCheckpoint

variable {f : WorkflowStepRecord → WorkflowStepRecord}

theorem allDone_updateStep_iff (hf : ∀ step, (f step).Done) : (c.updateStep step_id f).AllDone ↔
      ∀ (j : ℕ) step, c.steps[j]? = some step → j ≠ c.index step_id → step.Done := by
  constructor
  · intro hall j step hj hne
    apply hall step
    rw [List.mem_iff_getElem?]
    exact ⟨j, by simp [updateStep, hj, Ne.symm hne]⟩
  · intro hother step hstep
    obtain ⟨j, hj⟩ := List.mem_iff_getElem?.mp hstep
    simp only [updateStep, List.getElem?_modify, Option.map_eq_map, Option.map_eq_some_iff] at hj
    obtain ⟨old, hold, rfl⟩ := hj
    split
    · exact hf old
    · rename_i hne
      exact hother j old hold (Ne.symm hne)

theorem AllDone.updateStep (h : c.AllDone) (hf : ∀ step, (f step).Done) : (c.updateStep step_id f).AllDone :=
  (allDone_updateStep_iff hf).mpr fun _ step hj _ => h step (List.mem_of_getElem? hj)

theorem allDone_updateStep_last_iff (hf : ∀ step, (f step).Done) (hlast : c.index step_id + 1 = c.steps.length) :
    (c.updateStep step_id f).AllDone ↔ c.OthersDone step_id := by
  rw [allDone_updateStep_iff hf]
  have hat : ∀ step, c.steps[c.index step_id]? = some step → step.step_id = step_id := by
    intro step hstep
    have hid := c.steps.findIdx_of_getElem?_eq_some hstep
    exact of_decide_eq_true hid
  constructor
  · intro hother step hstep hne
    obtain ⟨j, hj⟩ := List.mem_iff_getElem?.mp hstep
    apply hother j step hj
    rintro rfl
    exact hne (hat step hj)
  · intro hother j step hj hne
    have hlt : j < c.steps.length := (List.getElem?_eq_some_iff.mp hj).1
    have hbefore : j < c.index step_id := by omega
    have hid := List.not_of_lt_findIdx hbefore
    rw [(List.getElem?_eq_some_iff.mp hj).2] at hid
    exact hother step (List.mem_of_getElem? hj) (by simpa using hid)

/-! ## Lawful runs -/

/-- A completed workflow has all its steps done, and one that was aborted is neither running nor
completed. -/
structure LawfulAt (c : WorkflowCheckpoint) (aborted : Prop) : Prop where
  completed : c.status = .completed → c.AllDone
  aborted : aborted → c.status ≠ .running ∧ c.status ≠ .completed

/-- The condition on a call: after an abort no step is begun, the last step is not completed, and
nothing is resumed; and the last step is completed after the others. -/
def KeepsOrder (c : WorkflowCheckpoint) (aborted : Prop) : WorkflowCall → Prop
  | .beginStep step_id _ => aborted → ¬ c.HasStep step_id
  | .completeStep step_id _ _ =>
    c.index step_id + 1 = c.steps.length → c.OthersDone step_id ∧ ¬ aborted
  | .resumeWorkflow _ => aborted → c.status ≠ .failed ∧ c.status ≠ .paused
  | .failStep .. | .abortWorkflow _ | .rollbackAfterResume .. => True

variable {aborted : Prop}

theorem LawfulAt.of_sameProgress (h : c.LawfulAt aborted) {c' : WorkflowCheckpoint}
    (hsame : SameProgress c c') : c'.LawfulAt aborted := by
  obtain ⟨hstatus, hsteps⟩ := hsame
  exact ⟨fun hc => by simpa [AllDone, hsteps] using h.completed (hstatus ▸ hc),
    fun ha => hstatus ▸ h.aborted ha⟩

theorem lawfulAt_of_stopped (h : c.status = .aborted ∨ c.status = .failed) : c.LawfulAt aborted := by
  constructor
  · intro hc
    rcases h with h | h <;> cases h.symm.trans hc
  · intro _
    rcases h with h | h <;> simp [h]

theorem lawfulAt_running_iff (h : c.status = .running) : c.LawfulAt aborted ↔ ¬ aborted := by
  constructor
  · exact fun hlawful ha => (hlawful.aborted ha).1 h
  · intro hna
    exact ⟨fun hc => absurd (h.symm.trans hc) (by decide), fun ha => absurd ha hna⟩

theorem lawfulAt_completed_iff (h : c.status = .completed) :
    c.LawfulAt aborted ↔ c.AllDone ∧ ¬ aborted := by
  constructor
  · exact fun hlawful => ⟨hlawful.completed h, fun ha => (hlawful.aborted ha).2 h⟩
  · rintro ⟨hall, hna⟩
    exact ⟨fun _ => hall, fun ha => absurd ha hna⟩

theorem lawfulAt_beginStep_iff (h : c.LawfulAt aborted) (step_id now : String) :
    (beginStep step_id now c).2.LawfulAt aborted ↔ (aborted → ¬ c.HasStep step_id) := by
  by_cases hstep : c.HasStep step_id
  · rw [lawfulAt_running_iff (beginStep_of_hasStep hstep now)]
    exact ⟨fun hna ha => absurd ha hna, fun hn ha => hn ha hstep⟩
  · rw [beginStep, getStep_bind_of_not_hasStep hstep]
    exact ⟨fun _ _ => hstep, fun _ => h⟩

theorem lawfulAt_completeStep_iff (h : c.LawfulAt aborted) (step_id : String) (outcome : StepOutcome)
    (now : String) : (completeStep step_id outcome now c).2.LawfulAt aborted ↔
      (c.index step_id + 1 = c.steps.length → c.OthersDone step_id ∧ ¬ aborted) := by
  have hdone : ∀ step, (WorkflowStepRecord.complete outcome step).Done := fun _ => .inl rfl
  by_cases hstep : c.HasStep step_id
  · obtain ⟨hsteps, hstatus⟩ := completeStep_of_hasStep hstep outcome now
    have hall : (completeStep step_id outcome now c).2.AllDone ↔
        (c.updateStep step_id (WorkflowStepRecord.complete outcome)).AllDone := by
      rw [AllDone, hsteps, AllDone]
    by_cases hlast : c.index step_id + 1 = c.steps.length
    · rw [if_pos hlast] at hstatus
      rw [lawfulAt_completed_iff hstatus, hall, allDone_updateStep_last_iff hdone hlast]
      exact ⟨fun hr _ => hr, fun hr => hr hlast⟩
    · -- the workflow keeps its status, and one more step is done
      rw [if_neg hlast] at hstatus
      refine ⟨fun _ hl => absurd hl hlast, fun _ => ⟨fun hc => ?_, fun ha => ?_⟩⟩
      · exact hall.mpr ((h.completed (hstatus ▸ hc)).updateStep hdone)
      · rw [hstatus]
        exact h.aborted ha
  · rw [completeStep, getStep_bind_of_not_hasStep hstep]
    refine ⟨fun _ hl => absurd (index_lt_iff.mp ?_) hstep, fun _ => h⟩
    omega

theorem lawfulAt_failStep (h : c.LawfulAt aborted) (step_id : String) (kind : FailureKind)
    (error : String) (evidence : Option Evidence) (now : String) :
    (failStep step_id kind error evidence now c).2.LawfulAt aborted := by
  by_cases hstep : c.HasStep step_id
  · exact lawfulAt_of_stopped (failStep_status_of_hasStep hstep kind error evidence now)
  · rw [failStep, getStep_bind_of_not_hasStep hstep]
    exact h

theorem lawfulAt_resumeWorkflow_iff (h : c.LawfulAt aborted) (args : RecoveryArgs) :
    (resumeWorkflow args c).2.LawfulAt aborted ↔
      (aborted → c.status ≠ .failed ∧ c.status ≠ .paused) := by
  by_cases hresume : c.status ∈ [failed, .paused]
  · rw [lawfulAt_running_iff (resumeWorkflow_of_resumable hresume args)]
    refine ⟨fun hna ha => absurd ha hna, fun hn ha => ?_⟩
    obtain ⟨hfailed, hpaused⟩ := hn ha
    simp [hfailed, hpaused] at hresume
  · rw [resumeWorkflow_of_not_resumable hresume]
    refine ⟨fun _ _ => ?_, fun _ => h⟩
    simpa using hresume

/-- **What one call preserves.** -/
theorem lawfulAt_run_iff (h : c.LawfulAt aborted) (call : WorkflowCall) :
    (call.run c).LawfulAt aborted ↔ c.KeepsOrder aborted call := by
  cases call with
  | beginStep step_id now => exact lawfulAt_beginStep_iff h step_id now
  | completeStep step_id outcome now => exact lawfulAt_completeStep_iff h step_id outcome now
  | failStep step_id kind error evidence now =>
    exact iff_true_intro (lawfulAt_failStep h step_id kind error evidence now)
  | resumeWorkflow args => exact lawfulAt_resumeWorkflow_iff h args
  | abortWorkflow args =>
    exact iff_true_intro (lawfulAt_of_stopped (.inl (abortWorkflow_status args c)))
  | rollbackAfterResume step_id args =>
    exact iff_true_intro (h.of_sameProgress (rollbackAfterResume_sameProgress step_id args c))

/-- Some state the run has passed is aborted. -/
def WasAborted (c : WorkflowCheckpoint) (calls : List WorkflowCall) : Prop :=
  ∃ earlier, earlier <+: calls ∧ (c.runCalls earlier).status = .aborted

def LawfulRun (c : WorkflowCheckpoint) (calls : List WorkflowCall) : Prop :=
  (c.runCalls calls).LawfulAt (c.WasAborted calls)

theorem runCalls_concat (c : WorkflowCheckpoint) (calls : List WorkflowCall) (call : WorkflowCall) :
    c.runCalls (calls ++ [call]) = call.run (c.runCalls calls) := by
  simp [runCalls]

theorem wasAborted_concat (c : WorkflowCheckpoint) (calls : List WorkflowCall) (call : WorkflowCall) :
    c.WasAborted (calls ++ [call]) ↔
      c.WasAborted calls ∨ (c.runCalls (calls ++ [call])).status = .aborted := by
  simp only [WasAborted, List.prefix_concat_iff]
  constructor
  · rintro ⟨earlier, rfl | hpre, hstatus⟩
    · exact .inr hstatus
    · exact .inl ⟨earlier, hpre, hstatus⟩
  · rintro (⟨earlier, hpre, hstatus⟩ | hstatus)
    · exact ⟨earlier, .inr hpre, hstatus⟩
    · exact ⟨calls ++ [call], .inl rfl, hstatus⟩

theorem lawfulAt_or_aborted_iff : c.LawfulAt (aborted ∨ c.status = .aborted) ↔ c.LawfulAt aborted := by
  constructor
  · exact fun h => ⟨h.completed, fun ha => h.aborted (.inl ha)⟩
  · refine fun h => ⟨h.completed, ?_⟩
    rintro (ha | hstatus)
    · exact h.aborted ha
    · simp [hstatus]

theorem lawfulRun_concat_iff {calls : List WorkflowCall} (h : c.LawfulRun calls) (call : WorkflowCall) :
    c.LawfulRun (calls ++ [call]) ↔ (c.runCalls calls).KeepsOrder (c.WasAborted calls) call := by
  rw [LawfulRun, wasAborted_concat, lawfulAt_or_aborted_iff, runCalls_concat]
  exact lawfulAt_run_iff h call

/-- **Lawful runs**: from a new checkpoint, every state of a run is lawful exactly when every call
keeps to the order. -/
theorem lawful_iff_keepsOrder (workflow_id design_name : String) (steps : List WorkflowStepInput)
    (created_at updated_at : String) (calls : List WorkflowCall) :
    (∀ pre, pre <+: calls →
      (createCheckpoint workflow_id design_name steps created_at updated_at).LawfulRun pre) ↔
    ∀ pre call, pre ++ [call] <+: calls →
      ((createCheckpoint workflow_id design_name steps created_at updated_at).runCalls pre).KeepsOrder
        ((createCheckpoint workflow_id design_name steps created_at updated_at).WasAborted pre) call := by
  apply Run.forall_prefix_iff
  · apply (lawfulAt_running_iff rfl).mpr
    rintro ⟨earlier, hpre, hstatus⟩
    rw [List.prefix_nil.mp hpre] at hstatus
    cases hstatus
  · exact fun pre call h => lawfulRun_concat_iff h call

def twoSteps : WorkflowCheckpoint :=
  createCheckpoint "wf" "board"
    [.spec { step_id := "layout", name := "Layout" }, .spec { step_id := "validate", name := "Validate" }]
    "" ""

/-- A workflow is completed with its first step pending, and an aborted one runs again. -/
theorem not_lawfulRun_twoSteps :
    (twoSteps.steps.map WorkflowStepRecord.step_id).Nodup ∧
      ¬ twoSteps.LawfulRun [.completeStep "validate" {} ""] ∧
      ¬ twoSteps.LawfulRun [.abortWorkflow ⟨"", none, "", "", "", ""⟩, .beginStep "layout" ""] := by
  refine ⟨by decide, fun h => ?_, fun h => ?_⟩
  · have hdone := h.completed rfl ⟨"layout", "Layout", "", false, .pending, 0, "", "", "", false, [], none, ""⟩
      List.mem_cons_self
    rcases hdone with hdone | hdone <;> cases hdone
  · have haborted : twoSteps.WasAborted
        [.abortWorkflow ⟨"", none, "", "", "", ""⟩, .beginStep "layout" ""] :=
      ⟨[.abortWorkflow ⟨"", none, "", "", "", ""⟩], List.prefix_append _ [_], rfl⟩
    exact (h.aborted haborted).1 rfl

end WorkflowCheckpoint

end ZapTrace
