import ZapTrace.Agent.ReleaseGate
import ZapTrace.Library.Dict

/-!
# Design transactions

A transaction holds a candidate for a design of the session. It is previewed, validated and committed
or rolled back, while the design itself may be edited directly or by other transactions. Its record
keeps the hash of the design it was previewed from, which a commit compares with the design it finds.
-/

namespace ZapTrace

open Prog

/-! ## Records -/

inductive TransactionState
  | previewed
  | validated
  | rejected
  | rolledBack
  | committed
deriving DecidableEq

def TransactionState.text : TransactionState → String
  | previewed => "previewed"
  | validated => "validated"
  | rejected => "rejected"
  | rolledBack => "rolled_back"
  | committed => "committed"

inductive TransactionValidation
  | notRun
  | passed (erc_errors erc_warnings erc_info : ℕ)
  | failed (erc_errors erc_warnings erc_info : ℕ)
deriving DecidableEq

structure DiffEntry where
  type : String
  ref : String
  detail : String
  old_value : Option String
  new_value : Option String

/-- A transaction without its candidate. -/
structure TransactionPublicRecord where
  transaction_id : String
  session_id : String
  design_name : String
  operation : String
  params : PyValue
  state : TransactionState
  reason : String
  parent_state_hash : String
  preview_state_hash : String
  changed_entities : List String
  semantic_diff : List DiffEntry
  validation : TransactionValidation
  approval_id : Option String
  committed_state_hash : Option String

structure TransactionRecord (δ : Type) extends TransactionPublicRecord where
  candidate_design : δ

/-- A session: its designs, its transactions, and the records of those that ended. -/
structure TransactionSession (δ : Type) where
  designs : Dict String δ
  transactions : Dict String (TransactionRecord δ)
  transaction_history : List TransactionPublicRecord

/-- Why a tool raises: one of its own checks, the operation on the candidate, or a durable write. -/
inductive TransactionError
  | valueError (message : String)
  | operation (message : String)
  | durable
deriving DecidableEq

/-- The durable writes of a call: the design, the record of the transaction, and its record in the
history. -/
inductive DurableWrite
  | design
  | record
  | history
deriving DecidableEq

/-- `design_state_hash`, `_apply_transaction_operation`, `diff_designs` and `ERCRunner.run`; the
operation works on a copy. -/
structure TransactionFunctions (δ : Type) where
  design_state_hash : δ → String
  apply_transaction_operation : String → PyValue → δ → Except String δ
  diff_designs : δ → δ → List DiffEntry
  erc_run : δ → ErcResult

variable {δ : Type}

abbrev TransactionTool (δ : Type) := Prog (TransactionSession δ) TransactionError

/-! ## Tools -/

section Tools

variable (fns : TransactionFunctions δ) (fault : Option DurableWrite)

/-- A durable write, which raises when it is the one that fails. -/
def persist (write : DurableWrite) : TransactionTool δ Unit :=
  if fault = some write then raise .durable else pure ()

/-- `_set_design`: the store comes first. -/
def setTransactionDesign (design_name : String) (design : δ) : TransactionTool δ Unit := do
  persist fault .design
  modify fun session => { session with designs := session.designs.set design_name design }

def setRecord (transaction_id : String) (record : TransactionRecord δ) : TransactionTool δ Unit :=
  modify fun session =>
    { session with transactions := session.transactions.set transaction_id record }

def appendHistory (record : TransactionPublicRecord) : TransactionTool δ Unit :=
  modify fun session =>
    { session with transaction_history := session.transaction_history ++ [record] }

def findTransaction (transaction_id : String) : TransactionTool δ (TransactionRecord δ) := do
  let session ← get
  match session.transactions.get? transaction_id with
  | none => raise (.valueError s!"Transaction '{transaction_id}' not found")
  | some record => pure record

/-- `tool_design_transaction_preview` under the identifier that was drawn. -/
def toolDesignTransactionPreview (session_id tx_id design_name operation : String)
    (params : PyValue) (reason : String) : TransactionTool δ TransactionPublicRecord := do
  let session ← get
  match session.designs.get? design_name with
  | none => raise (.valueError s!"Design '{design_name}' not found")
  | some design =>
    match fns.apply_transaction_operation operation params design with
    | .error message => raise (.operation message)
    | .ok candidate =>
      let entries := fns.diff_designs design candidate
      let record : TransactionRecord δ :=
        { transaction_id := tx_id
          session_id := session_id
          design_name := design_name
          operation := operation
          params := params
          state := .previewed
          reason := reason
          parent_state_hash := fns.design_state_hash design
          preview_state_hash := fns.design_state_hash candidate
          changed_entities := entries.map DiffEntry.ref
          semantic_diff := entries
          validation := .notRun
          approval_id := none
          committed_state_hash := none
          candidate_design := candidate }
      setRecord tx_id record
      persist fault .record
      pure record.toTransactionPublicRecord

def validationOf (result : ErcResult) : TransactionValidation :=
  if result.passed then .passed result.total_errors result.total_warnings result.total_info
  else .failed result.total_errors result.total_warnings result.total_info

def toolDesignTransactionValidate (transaction_id : String) :
    TransactionTool δ TransactionPublicRecord := do
  let record ← findTransaction transaction_id
  if record.state = .previewed ∨ record.state = .validated then
    let result := fns.erc_run record.candidate_design
    let record := { record with
      validation := validationOf result
      state := if result.passed then .validated else .rejected }
    setRecord transaction_id record
    persist fault .record
    pure record.toTransactionPublicRecord
  else
    raise <| .valueError
      s!"Transaction '{transaction_id}' cannot be validated from state {record.state.text}"

/-- Whether the status of a validation is "passed". -/
def TransactionValidation.isPassed : TransactionValidation → Bool
  | passed .. => true
  | _ => false

def toolDesignTransactionCommit (transaction_id approval_id : String) :
    TransactionTool δ TransactionPublicRecord := do
  if pyStrip approval_id = "" then
    raise (.valueError "approval_id is required to commit a transaction")
  else
    let record ← findTransaction transaction_id
    if record.state ≠ .validated then
      raise <| .valueError
        s!"Transaction '{transaction_id}' must be validated before commit"
    else if !record.validation.isPassed then
      raise (.valueError s!"Transaction '{transaction_id}' validation did not pass")
    else
      let session ← get
      match session.designs.get? record.design_name with
      | none =>
        let design_name := record.design_name
        raise (.valueError s!"Design '{design_name}' not found")
      | some previous =>
        if fns.design_state_hash previous ≠ record.parent_state_hash then
          setRecord transaction_id { record with state := .rejected }
          persist fault .record
          raise <| .valueError
            "Primary design state changed since preview; re-preview is required"
        else
          setTransactionDesign fault record.design_name record.candidate_design
          let record := { record with
            state := .committed
            approval_id := some approval_id
            committed_state_hash := some (fns.design_state_hash record.candidate_design) }
          setRecord transaction_id record
          appendHistory record.toTransactionPublicRecord
          persist fault .record
          persist fault .history
          pure record.toTransactionPublicRecord

def toolDesignTransactionRollback (transaction_id : String) :
    TransactionTool δ TransactionPublicRecord := do
  let record ← findTransaction transaction_id
  if record.state = .committed then
    raise <| .valueError
      "Committed transactions cannot be rolled back by preview rollback"
  else
    let record := { record with state := .rolledBack }
    setRecord transaction_id record
    appendHistory record.toTransactionPublicRecord
    persist fault .record
    persist fault .history
    pure record.toTransactionPublicRecord

end Tools

/-! ## Runs -/

/-- A step: a call on a transaction, with the durable write that fails in it, if one does, or a direct
edit, which may also remove a design. -/
inductive TransactionAction (δ : Type)
  | preview (fault : Option DurableWrite) (tx_id design_name operation : String) (params : PyValue)
      (reason : String)
  | validate (fault : Option DurableWrite) (transaction_id : String)
  | commit (fault : Option DurableWrite) (transaction_id approval_id : String)
  | rollback (fault : Option DurableWrite) (transaction_id : String)
  | edit (design_name : String) (design : Option δ)

namespace TransactionAction

variable (fns : TransactionFunctions δ) (session_id : String)

/-- What an action runs; the record that a call returns is dropped. -/
def run : TransactionAction δ → TransactionTool δ Unit
  | preview fault tx_id design_name operation params reason => do
    let _ ← toolDesignTransactionPreview fns fault session_id tx_id design_name operation params reason
    pure ()
  | validate fault transaction_id => do
    let _ ← toolDesignTransactionValidate fns fault transaction_id
    pure ()
  | commit fault transaction_id approval_id => do
    let _ ← toolDesignTransactionCommit fns fault transaction_id approval_id
    pure ()
  | rollback fault transaction_id => do
    let _ ← toolDesignTransactionRollback fault transaction_id
    pure ()
  | edit design_name design =>
    modify fun session =>
      { session with
        designs := match design with
          | some design => session.designs.set design_name design
          | none => session.designs.erase design_name }

/-- A preview draws an identifier that is not in use. -/
def drawsFresh (session : TransactionSession δ) : TransactionAction δ → Bool
  | preview _ tx_id .. => (session.transactions.get? tx_id).isNone
  | _ => true

/-- A step leads to what the action leaves, also when it raises. -/
def step (session : TransactionSession δ) (action : TransactionAction δ) :
    Option (TransactionSession δ) :=
  if action.drawsFresh session then some (action.run fns session_id session).2 else none

def Commits (session : TransactionSession δ) (action : TransactionAction δ)
    (transaction_id : String) : Prop :=
  (∃ fault approval_id, action = commit fault transaction_id approval_id) ∧
    (action.run fns session_id session).1 = .ok ()

/-- The action is a call that raises. -/
def Fails (session : TransactionSession δ) (action : TransactionAction δ) : Prop :=
  ∃ e, (action.run fns session_id session).1 = .error e

end TransactionAction

end ZapTrace
