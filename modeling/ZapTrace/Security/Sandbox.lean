import Mathlib.Data.Rat.Defs
import ZapTrace.Library.Dict
import ZapTrace.Library.Prog
import ZapTrace.Library.PyValue

/-!
# The agent sandbox

Every session has a sandbox, made when it is first used: budgets for its tool calls, a counter of the
dangerous ones, and an emergency stop. A call of a tool first passes the budget, which records it, and
is then classified. Texts are not scanned here.

The clock is read by the caller, once for a call.
-/

namespace ZapTrace

inductive ActionRisk
  | safe | suspicious | dangerous
  deriving DecidableEq

structure ToolHistoryEntry where
  tool : String
  timestamp : ℚ
  call_number : ℕ

/-- The sandbox of a session: its limits, its counters and flags, and the calls it has passed. -/
structure SandboxState where
  max_tool_calls : ℕ := 500
  max_tool_call_duration_s : ℚ := 300
  max_consecutive_dangerous : ℕ := 3
  call_count : ℕ := 0
  start_time : ℚ
  dangerous_count : ℕ := 0
  emergency_stopped : Bool := false
  emergency_reason : String := ""
  tool_history : List ToolHistoryEntry := []

abbrev Sandboxes := Dict String SandboxState

/-- The `RuntimeError`s of the budget. -/
inductive BudgetError
  | emergencyStopped (session_id : String)
  | callBudgetExceeded (max_tool_calls : ℕ)
  | durationBudgetExceeded (max_tool_call_duration_s : ℚ)
  deriving DecidableEq

/-! ## Dangerous calls -/

def dangerousTools : List String := ["design_rollback"]

def suspiciousSequences : List (String × String) :=
  [("design_inspect", "component_remove"), ("export_kicad", "export_gerber"),
    ("design_rollback", "design_commit")]

def massDeleteThreshold : ℕ := 5

/-- Among the last twenty calls, those that remove a component. -/
def SandboxState.recentRemoves (sb : SandboxState) : ℕ :=
  (sb.tool_history.drop (sb.tool_history.length - 20)).countP fun h => h.tool = "component_remove"

/-- A deletion after many others. -/
def MassDeletion (sb : SandboxState) (tool_name : String) (params : Dict String PyValue) : Prop :=
  tool_name = "component_remove" ∧ "component_id" ∈ params.keys ∧ massDeleteThreshold ≤ sb.recentRemoves

instance (sb : SandboxState) (tool_name : String) (params : Dict String PyValue) :
    Decidable (MassDeletion sb tool_name params) :=
  inferInstanceAs (Decidable (_ ∧ _ ∧ _))

/-- The call follows one that it is not expected after. -/
def SuspiciousSequence (sb : SandboxState) (tool_name : String) : Prop :=
  ∃ last ∈ sb.tool_history.getLast?, (last.tool, tool_name) ∈ suspiciousSequences

instance (sb : SandboxState) (tool_name : String) : Decidable (SuspiciousSequence sb tool_name) :=
  inferInstanceAs (Decidable (∃ last ∈ sb.tool_history.getLast?, _))

/-- A call that classification counts: an always dangerous tool, or a mass deletion. -/
def CountsDangerous (sb : SandboxState) (tool_name : String) (params : Dict String PyValue) : Prop :=
  tool_name ∈ dangerousTools ∨ MassDeletion sb tool_name params

instance (sb : SandboxState) (tool_name : String) (params : Dict String PyValue) :
    Decidable (CountsDangerous sb tool_name params) :=
  inferInstanceAs (Decidable (_ ∨ _))

/-! ## Operations -/

def sandboxOf (sandboxes : Sandboxes) (session_id : String) (now : ℚ) : SandboxState :=
  (sandboxes.get? session_id).getD { start_time := now }

abbrev SandboxOp := Prog Sandboxes BudgetError

def getSandbox (session_id : String) (now : ℚ) : SandboxOp SandboxState := do
  let sandboxes ← Prog.get
  let sb := sandboxOf sandboxes session_id now
  Prog.set (sandboxes.set session_id sb)
  pure sb

def putSandbox (session_id : String) (sb : SandboxState) : SandboxOp Unit :=
  Prog.modify fun sandboxes => sandboxes.set session_id sb

def checkToolBudget (session_id tool_name : String) (now : ℚ) : SandboxOp Unit := do
  let sb ← getSandbox session_id now
  if sb.emergency_stopped then Prog.raise (.emergencyStopped session_id)
  else if sb.call_count ≥ sb.max_tool_calls then Prog.raise (.callBudgetExceeded sb.max_tool_calls)
  else if now - sb.start_time > sb.max_tool_call_duration_s then
    Prog.raise (.durationBudgetExceeded sb.max_tool_call_duration_s)
  else
    putSandbox session_id { sb with
      call_count := sb.call_count + 1
      tool_history := sb.tool_history ++ [⟨tool_name, now, sb.call_count + 1⟩] }

def emergencyStop (session_id reason : String) (now : ℚ) : SandboxOp Unit := do
  let sb ← getSandbox session_id now
  putSandbox session_id { sb with emergency_stopped := true, emergency_reason := pyStrip reason }

def classifyToolCall (session_id tool_name : String) (params : Dict String PyValue) (now : ℚ) :
    SandboxOp ActionRisk := do
  let sb ← getSandbox session_id now
  if tool_name ∈ dangerousTools then do
    putSandbox session_id { sb with dangerous_count := sb.dangerous_count + 1 }
    pure .dangerous
  else if MassDeletion sb tool_name params then do
    putSandbox session_id { sb with dangerous_count := sb.dangerous_count + 1 }
    pure .dangerous
  else if SuspiciousSequence sb tool_name then pure .suspicious
  else if sb.dangerous_count ≥ sb.max_consecutive_dangerous then do
    emergencyStop session_id "Exceeded consecutive dangerous action threshold" now
    pure .dangerous
  else pure .safe

def emergencyReset (session_id : String) (now : ℚ) : SandboxOp Unit := do
  let sb ← getSandbox session_id now
  putSandbox session_id { sb with emergency_stopped := false, emergency_reason := "" }

def resetSandbox (session_id : String) (now : ℚ) : SandboxOp Unit :=
  putSandbox session_id { start_time := now }

/-! ## Calls -/

inductive SandboxCall
  | classifyToolCall (session_id tool_name : String) (params : Dict String PyValue) (now : ℚ)
  | checkToolBudget (session_id tool_name : String) (now : ℚ)
  | emergencyStop (session_id reason : String) (now : ℚ)
  | emergencyReset (session_id : String) (now : ℚ)
  | resetSandbox (session_id : String) (now : ℚ)

/-- The sandboxes that a call leaves, also when it raises. -/
def SandboxCall.run : SandboxCall → Sandboxes → Sandboxes
  | classifyToolCall session_id tool_name params now, s =>
    (ZapTrace.classifyToolCall session_id tool_name params now s).2
  | checkToolBudget session_id tool_name now, s => (ZapTrace.checkToolBudget session_id tool_name now s).2
  | emergencyStop session_id reason now, s => (ZapTrace.emergencyStop session_id reason now s).2
  | emergencyReset session_id now, s => (ZapTrace.emergencyReset session_id now s).2
  | resetSandbox session_id now, s => (ZapTrace.resetSandbox session_id now s).2

end ZapTrace
