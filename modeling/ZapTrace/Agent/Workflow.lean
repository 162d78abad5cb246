import ZapTrace.Library.Dict
import ZapTrace.Library.Prog
import ZapTrace.Library.PyValue

/-!
# Workflow checkpoints

A checkpoint keeps the status of a long-running workflow, the position it has reached, and a record of
each step. Six operations write it, in any order and for any step. An operation may raise after it has
changed the status, and the change stays.

What the audit log answers and the times come with the call.
-/

namespace ZapTrace

open Prog

/-! ## Records -/

inductive WorkflowStatus
  | running | paused | failed | aborted | completed
  deriving DecidableEq

inductive StepStatus
  | pending | running | passed | failed | skipped
  deriving DecidableEq

inductive FailureKind
  | tool_error | timeout | validation_gate | user_abort
  deriving DecidableEq

inductive RecoveryDecision
  | resume | rollback | abort | retry
  deriving DecidableEq

/-- Named evidence of a step. -/
abbrev Evidence := Dict String PyValue

structure WorkflowStepRecord where
  step_id : String
  name : String
  tool : String := ""
  mutates_design : Bool := false
  status : StepStatus := .pending
  attempts : ℕ := 0
  transaction_id : String := ""
  diff_summary : String := ""
  rollback_id : String := ""
  rollback_available : Bool := false
  evidence : List Evidence := []
  failure_kind : Option FailureKind := none
  error : String := ""

structure WorkflowRecoveryEvent where
  timestamp : String
  decision : RecoveryDecision
  reason : String
  step_id : String := ""
  rollback_id : String := ""
  audit_event_id : String := ""

structure WorkflowCheckpoint where
  schema_version : String := "1.0"
  workflow_id : String
  design_name : String
  status : WorkflowStatus := .running
  current_step_index : ℕ := 0
  resume_count : ℕ := 0
  steps : List WorkflowStepRecord := []
  recovery_events : List WorkflowRecoveryEvent := []
  proof_evidence : List Evidence := []
  created_at : String
  updated_at : String

structure WorkflowStepSpec where
  step_id : String
  name : String
  tool : String := ""
  mutates_design : Bool := false

/-- A step as the creator of a checkpoint gives it: a specification, or a dictionary, which stands
here as the record it is validated to. -/
inductive WorkflowStepInput
  | spec (spec : WorkflowStepSpec)
  | dict (record : WorkflowStepRecord)

/-- `WorkflowStepRecord.model_validate` -/
def WorkflowStepInput.record : WorkflowStepInput → WorkflowStepRecord
  | spec s =>
    { step_id := s.step_id, name := s.name, tool := s.tool, mutates_design := s.mutates_design }
  | dict r => r

def createCheckpoint (workflow_id design_name : String) (steps : List WorkflowStepInput)
    (created_at updated_at : String) : WorkflowCheckpoint where
  workflow_id := workflow_id
  design_name := design_name
  steps := steps.map WorkflowStepInput.record
  created_at := created_at
  updated_at := updated_at

/-! ## Operations -/

/-- Why an operation raises: one of its checks, a position past the last step, or the audit log. -/
inductive WorkflowError
  | unknownStep (step_id : String)
  | cannotResume (status : WorkflowStatus)
  | rollbackUnavailable (step_id : String)
  | indexError
  | audit (message : String)
  deriving DecidableEq

/-- An operation on a checkpoint. -/
abbrev WorkflowOp := Prog WorkflowCheckpoint WorkflowError

namespace WorkflowCheckpoint

variable (checkpoint : WorkflowCheckpoint)

/-- The first step with the identifier. -/
def step? (step_id : String) : Option WorkflowStepRecord :=
  checkpoint.steps.find? fun item => item.step_id = step_id

/-- `steps.index(step)` for the step that `step` returns. It is the first with its identifier, so no
step before it is equal to it. -/
def index (step_id : String) : ℕ := checkpoint.steps.findIdx fun item => item.step_id = step_id

/-- Write to the step that `step` returns. -/
def updateStep (step_id : String) (f : WorkflowStepRecord → WorkflowStepRecord) : WorkflowCheckpoint :=
  { checkpoint with steps := checkpoint.steps.modify (checkpoint.index step_id) f }

end WorkflowCheckpoint

/-- `WorkflowCheckpoint.step` -/
def getStep (step_id : String) : WorkflowOp WorkflowStepRecord := do
  let checkpoint ← get
  match checkpoint.step? step_id with
  | some step => pure step
  | none => raise (.unknownStep step_id)

/-- `_touch` -/
def touchCheckpoint (now : String) : WorkflowOp Unit := modify fun c => { c with updated_at := now }

def beginStep (step_id now : String) : WorkflowOp Unit := do
  let _ ← getStep step_id
  modify fun c =>
    { c.updateStep step_id fun step =>
        { step with status := .running, attempts := step.attempts + 1 } with
      status := .running, current_step_index := c.index step_id }
  touchCheckpoint now

/-- `{"step_id": step_id, **evidence}` -/
def stepEvidence (step_id : String) (evidence : Evidence) : Evidence :=
  evidence.items.foldl (fun d item => d.set item.1 item.2) (Dict.empty.set "step_id" (.str step_id))

/-- The fields that a completed step keeps of what it is given. -/
structure StepOutcome where
  evidence : Option Evidence := none
  transaction_id : String := ""
  diff_summary : String := ""
  rollback_id : String := ""

/-- What completing a step writes to its record. -/
def WorkflowStepRecord.complete (outcome : StepOutcome) (step : WorkflowStepRecord) : WorkflowStepRecord :=
  { step with
    status := .passed
    evidence := step.evidence ++ outcome.evidence.toList
    transaction_id := if outcome.transaction_id ≠ "" then outcome.transaction_id else step.transaction_id
    diff_summary := if outcome.diff_summary ≠ "" then outcome.diff_summary else step.diff_summary
    rollback_id := if outcome.rollback_id ≠ "" then outcome.rollback_id else step.rollback_id
    rollback_available := if outcome.rollback_id ≠ "" then true else step.rollback_available }

def completeStep (step_id : String) (outcome : StepOutcome) (now : String) : WorkflowOp Unit := do
  let _ ← getStep step_id
  modify fun c =>
    { c.updateStep step_id (WorkflowStepRecord.complete outcome) with
      proof_evidence := c.proof_evidence ++ (outcome.evidence.map (stepEvidence step_id)).toList
      current_step_index := min c.steps.length (c.index step_id + 1) }
  modify fun c =>
    if c.current_step_index ≥ c.steps.length then { c with status := .completed } else c
  touchCheckpoint now

def failStep (step_id : String) (kind : FailureKind) (error : String) (evidence : Option Evidence)
    (now : String) : WorkflowOp Unit := do
  let _ ← getStep step_id
  modify fun c =>
    { c.updateStep step_id fun step =>
        { step with
          status := .failed
          failure_kind := some kind
          error := error
          evidence := step.evidence ++ evidence.toList } with
      proof_evidence := c.proof_evidence ++ (evidence.map (stepEvidence step_id)).toList
      status := if kind = .user_abort then .aborted else .failed
      current_step_index := c.index step_id }
  touchCheckpoint now

structure RecoveryAudit where
  session_id : String
  actor : String
  decision : RecoveryDecision
  reason : String
  workflow_id : String
  design_name : String
  status : WorkflowStatus
  step_id : String
  rollback_id : String
  resume_count : ℕ

/-- The arguments of a recovery operation. The audit log of the session, where there is one, answers
with the identifier of the event, or raises. -/
structure RecoveryArgs where
  reason : String
  audit_session : Option (RecoveryAudit → Except String String) := none
  session_id : String := "agent-workflow"
  actor : String := "agent-runtime"
  timestamp : String
  updated_at : String

/-- `step_id or checkpoint.steps[checkpoint.current_step_index].step_id` -/
def recoveryStep (step_id : String) : WorkflowOp String := do
  let checkpoint ← get
  if step_id ≠ "" then pure step_id
  else match checkpoint.steps[checkpoint.current_step_index]? with
    | some step => pure step.step_id
    | none => raise .indexError

/-- The identifier of the audit event, and no text without an audit log. -/
def auditRecovery (args : RecoveryArgs) (audit : RecoveryAudit) : WorkflowOp String :=
  match args.audit_session with
  | none => pure ""
  | some record => ofExcept ((record audit).mapError .audit)

def recordRecovery (decision : RecoveryDecision) (args : RecoveryArgs) (step_id rollback_id : String) :
    WorkflowOp WorkflowRecoveryEvent := do
  let target ← recoveryStep step_id
  let checkpoint ← get
  let audit_event_id ← auditRecovery args
    { session_id := args.session_id, actor := args.actor, decision := decision, reason := args.reason
      workflow_id := checkpoint.workflow_id, design_name := checkpoint.design_name
      status := checkpoint.status, step_id := target, rollback_id := rollback_id
      resume_count := checkpoint.resume_count }
  pure { timestamp := args.timestamp, decision := decision, reason := args.reason, step_id := target
         rollback_id := rollback_id, audit_event_id := audit_event_id }

/-- The end of a recovery operation: the decision is recorded and kept. -/
def keepRecovery (decision : RecoveryDecision) (args : RecoveryArgs) (step_id rollback_id : String) :
    WorkflowOp Unit := do
  let event ← recordRecovery decision args step_id rollback_id
  modify fun c => { c with recovery_events := c.recovery_events ++ [event] }
  touchCheckpoint args.updated_at

def resumeWorkflow (args : RecoveryArgs) : WorkflowOp Unit := do
  let checkpoint ← get
  if checkpoint.status ∉ [WorkflowStatus.failed, .paused] then
    raise (.cannotResume checkpoint.status)
  else do
    modify fun c => { c with resume_count := c.resume_count + 1, status := .running }
    keepRecovery .resume args "" ""

def abortWorkflow (args : RecoveryArgs) : WorkflowOp Unit := do
  modify fun c => { c with status := .aborted }
  keepRecovery .abort args "" ""

def rollbackAfterResume (step_id : String) (args : RecoveryArgs) : WorkflowOp Unit := do
  let step ← getStep step_id
  if !step.rollback_available ∨ step.rollback_id = "" then
    raise (.rollbackUnavailable step_id)
  else keepRecovery .rollback args step_id step.rollback_id

/-! ## Calls -/

inductive WorkflowCall
  | beginStep (step_id now : String)
  | completeStep (step_id : String) (outcome : StepOutcome) (now : String)
  | failStep (step_id : String) (kind : FailureKind) (error : String) (evidence : Option Evidence)
      (now : String)
  | resumeWorkflow (args : RecoveryArgs)
  | abortWorkflow (args : RecoveryArgs)
  | rollbackAfterResume (step_id : String) (args : RecoveryArgs)

namespace WorkflowCall

def op : WorkflowCall → WorkflowOp Unit
  | beginStep step_id now => ZapTrace.beginStep step_id now
  | completeStep step_id outcome now => ZapTrace.completeStep step_id outcome now
  | failStep step_id kind error evidence now => ZapTrace.failStep step_id kind error evidence now
  | resumeWorkflow args => ZapTrace.resumeWorkflow args
  | abortWorkflow args => ZapTrace.abortWorkflow args
  | rollbackAfterResume step_id args => ZapTrace.rollbackAfterResume step_id args

/-- The checkpoint that a call leaves, also when it raises. -/
def run (c : WorkflowCall) (checkpoint : WorkflowCheckpoint) : WorkflowCheckpoint :=
  (c.op checkpoint).2

end WorkflowCall

def WorkflowCheckpoint.runCalls (checkpoint : WorkflowCheckpoint) (calls : List WorkflowCall) :
    WorkflowCheckpoint :=
  calls.foldl (fun c call => call.run c) checkpoint

end ZapTrace
