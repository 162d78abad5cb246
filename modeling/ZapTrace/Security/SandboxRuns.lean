import Mathlib.Logic.Function.Basic
import ZapTrace.Library.Run
import ZapTrace.Security.Sandbox

/-!
# When the emergency stop comes

Classification counts dangerous calls and returns at once for each of them. The counter is compared
with its limit only at a call that is neither dangerous nor suspicious, so a session that has reached
the limit goes on until such a call is classified. The stop comes in time in exactly the runs in which
a session is stopped already when the limit is reached.

## Main results

* `SandboxCall.get?_run`: a call writes the sandbox of its session
* `SandboxRun.guarded_iff_stoppedBefore`: a run is guarded throughout exactly when its calls meet the
  condition
-/

namespace ZapTrace

open SandboxCall Dict

namespace SandboxCall

/-! ## What a call writes -/

def session : SandboxCall → String
  | classifyToolCall s _ _ _ | checkToolBudget s _ _ | emergencyStop s _ _ | emergencyReset s _
  | resetSandbox s _ => s

def now : SandboxCall → ℚ
  | classifyToolCall _ _ _ t | checkToolBudget _ _ t | emergencyStop _ _ t | emergencyReset _ t
  | resetSandbox _ t => t

/-- The sandbox of its session after a call. -/
def update : SandboxCall → SandboxState → SandboxState
  | classifyToolCall _ tool_name params _, sb =>
    if CountsDangerous sb tool_name params then { sb with dangerous_count := sb.dangerous_count + 1 }
    else if SuspiciousSequence sb tool_name then sb
    else if sb.dangerous_count ≥ sb.max_consecutive_dangerous then
      { sb with
        emergency_stopped := true
        emergency_reason := pyStrip "Exceeded consecutive dangerous action threshold" }
    else sb
  | checkToolBudget _ tool_name now, sb =>
    if sb.emergency_stopped ∨ sb.call_count ≥ sb.max_tool_calls ∨
        now - sb.start_time > sb.max_tool_call_duration_s then sb
    else
      { sb with
        call_count := sb.call_count + 1
        tool_history := sb.tool_history ++ [⟨tool_name, now, sb.call_count + 1⟩] }
  | emergencyStop _ reason _, sb =>
    { sb with emergency_stopped := true, emergency_reason := pyStrip reason }
  | emergencyReset _ _, sb => { sb with emergency_stopped := false, emergency_reason := "" }
  | resetSandbox _ now, _ => { start_time := now }

end SandboxCall

section Operations

variable (session_id : String) (now : ℚ) (s : Sandboxes)

theorem getSandbox_bind {α : Type} (f : SandboxState → SandboxOp α) :
    (getSandbox session_id now >>= f) s =
      f (sandboxOf s session_id now) (s.set session_id (sandboxOf s session_id now)) := rfl

theorem get?_set_set (sb sb' : SandboxState) (session : String) :
    ((s.set session_id sb).set session_id sb').get? session =
      if session = session_id then some sb' else s.get? session := by
  rw [get?_set, get?_set]
  split <;> rfl

@[simp] theorem sandboxOf_set (sb : SandboxState) :
    sandboxOf (s.set session_id sb) session_id now = sb := by
  rw [sandboxOf, get?_set_self, Option.getD_some]

end Operations

namespace SandboxCall

/-- A call writes the sandbox of its session, and no other. -/
theorem get?_run (c : SandboxCall) (s : Sandboxes) (session : String) :
    (c.run s).get? session =
      if session = c.session then some (c.update (sandboxOf s c.session c.now))
      else s.get? session := by
  cases c with
  | classifyToolCall id tool_name params now =>
    show ((ZapTrace.classifyToolCall id tool_name params now s).2).get? session =
      if session = id then
        some ((classifyToolCall id tool_name params now).update (sandboxOf s id now))
      else s.get? session
    rw [ZapTrace.classifyToolCall, getSandbox_bind, update]
    by_cases htool : tool_name ∈ dangerousTools
    · have hcounts : CountsDangerous (sandboxOf s id now) tool_name params := .inl htool
      rw [if_pos htool, if_pos hcounts]
      exact get?_set_set id s _ _ session
    by_cases hmass : MassDeletion (sandboxOf s id now) tool_name params
    · have hcounts : CountsDangerous (sandboxOf s id now) tool_name params := .inr hmass
      rw [if_neg htool, if_pos hmass, if_pos hcounts]
      exact get?_set_set id s _ _ session
    have hcounts : ¬ CountsDangerous (sandboxOf s id now) tool_name params := by
      rintro (h | h)
      · exact htool h
      · exact hmass h
    rw [if_neg htool, if_neg hmass, if_neg hcounts]
    by_cases hseq : SuspiciousSequence (sandboxOf s id now) tool_name
    · rw [if_pos hseq, if_pos hseq]
      exact get?_set s id session _
    rw [if_neg hseq, if_neg hseq]
    by_cases hcount : (sandboxOf s id now).dangerous_count ≥
        (sandboxOf s id now).max_consecutive_dangerous
    · -- the emergency stop reads the sandbox once more
      rw [if_pos hcount, if_pos hcount]
      show (((s.set id _).set id _).set id _).get? session = _
      rw [get?_set_set, sandboxOf_set, get?_set]
      split <;> rfl
    · rw [if_neg hcount, if_neg hcount]
      exact get?_set s id session _
  | checkToolBudget id tool_name now =>
    show ((ZapTrace.checkToolBudget id tool_name now s).2).get? session =
      if session = id then some ((checkToolBudget id tool_name now).update (sandboxOf s id now))
      else s.get? session
    rw [ZapTrace.checkToolBudget, getSandbox_bind, update]
    by_cases hstop : (sandboxOf s id now).emergency_stopped = true
    · rw [if_pos hstop]
      simpa [hstop] using get?_set s id session _
    by_cases hcalls : (sandboxOf s id now).call_count ≥ (sandboxOf s id now).max_tool_calls
    · rw [if_neg hstop, if_pos hcalls]
      simpa [hcalls] using get?_set s id session _
    by_cases htime : now - (sandboxOf s id now).start_time > (sandboxOf s id now).max_tool_call_duration_s
    · rw [if_neg hstop, if_neg hcalls, if_pos htime]
      simpa [htime] using get?_set s id session _
    have hnone : ¬ ((sandboxOf s id now).emergency_stopped = true ∨
        (sandboxOf s id now).call_count ≥ (sandboxOf s id now).max_tool_calls ∨
        now - (sandboxOf s id now).start_time > (sandboxOf s id now).max_tool_call_duration_s) := by
      tauto
    rw [if_neg hstop, if_neg hcalls, if_neg htime, if_neg hnone]
    exact get?_set_set id s _ _ session
  | emergencyStop id reason now => exact get?_set_set id s _ _ session
  | emergencyReset id now => exact get?_set_set id s _ _ session
  | resetSandbox id now => exact get?_set s id session _

theorem sandboxOf_run_self (c : SandboxCall) (s : Sandboxes) (now : ℚ) :
    sandboxOf (c.run s) c.session now = c.update (sandboxOf s c.session c.now) := by
  rw [sandboxOf, get?_run, if_pos rfl, Option.getD_some]

theorem sandboxOf_run_of_ne (c : SandboxCall) (s : Sandboxes) {session : String}
    (h : session ≠ c.session) (now : ℚ) : sandboxOf (c.run s) session now = sandboxOf s session now := by
  rw [sandboxOf, get?_run, if_neg h, sandboxOf]

/-- The dangerous calls counted since the last reset, after a call. -/
def count : SandboxCall → SandboxState → ℕ → ℕ
  | classifyToolCall _ tool_name params _, sb, n => if CountsDangerous sb tool_name params then n + 1 else n
  | checkToolBudget .., _, n | emergencyStop .., _, n => n
  | emergencyReset .., _, _ | resetSandbox .., _, _ => 0

/-- A dangerous call that brings the sandbox to its limit finds it stopped. -/
def StopsInTime : SandboxCall → SandboxState → ℕ → Prop
  | classifyToolCall _ tool_name params _, sb, n => CountsDangerous sb tool_name params →
      sb.max_consecutive_dangerous ≤ n + 1 → sb.emergency_stopped = true
  | checkToolBudget .., _, _ | emergencyStop .., _, _ | emergencyReset .., _, _
  | resetSandbox .., _, _ => True

end SandboxCall

/-! ## Runs -/

/-- The sandboxes, and for each session the dangerous calls counted since its last reset. -/
structure SandboxRun where
  sandboxes : Sandboxes
  counted : String → ℕ

namespace SandboxRun

/-- A run before its first call. -/
def start (sandboxes : Sandboxes) : SandboxRun := ⟨sandboxes, fun _ => 0⟩

/-- A run after one more call. -/
def next (r : SandboxRun) (c : SandboxCall) : SandboxRun where
  sandboxes := c.run r.sandboxes
  counted := Function.update r.counted c.session
    (c.count (sandboxOf r.sandboxes c.session c.now) (r.counted c.session))

def step (r : SandboxRun) (c : SandboxCall) : Option SandboxRun := some (r.next c)

@[simp] theorem next_counted_self (r : SandboxRun) (c : SandboxCall) :
    (r.next c).counted c.session =
      c.count (sandboxOf r.sandboxes c.session c.now) (r.counted c.session) :=
  Function.update_self ..

theorem next_counted_of_ne (r : SandboxRun) (c : SandboxCall) {session : String}
    (h : session ≠ c.session) : (r.next c).counted session = r.counted session :=
  Function.update_of_ne h ..

/-- A session for which the limit is reached is stopped, and its budget refuses every call. -/
def GuardedAt (r : SandboxRun) (session : String) : Prop :=
  ∀ now, (sandboxOf r.sandboxes session now).max_consecutive_dangerous ≤ r.counted session →
    (sandboxOf r.sandboxes session now).emergency_stopped = true ∧
    ∀ tool_name now',
      (checkToolBudget session tool_name now' r.sandboxes).1 = .error (.emergencyStopped session)

def Guarded (r : SandboxRun) : Prop := ∀ session, r.GuardedAt session

/-- The condition on a call: a dangerous call that brings a session to its limit finds it stopped. -/
def StoppedBefore (r : SandboxRun) (c : SandboxCall) : Prop :=
  c.StopsInTime (sandboxOf r.sandboxes c.session c.now) (r.counted c.session)

/-- Limits are positive, and nothing is counted for a session without a sandbox. -/
structure Counts (r : SandboxRun) : Prop where
  limit_pos : ∀ session now, 0 < (sandboxOf r.sandboxes session now).max_consecutive_dangerous
  of_absent : ∀ session, r.sandboxes.get? session = none → r.counted session = 0

theorem counts_start {sandboxes : Sandboxes}
    (h : ∀ session sb, sandboxes.get? session = some sb → 0 < sb.max_consecutive_dangerous) :
    (start sandboxes).Counts := by
  refine ⟨fun session now => ?_, fun _ _ => rfl⟩
  cases hsb : sandboxes.get? session with
  | none => simp [sandboxOf, start, hsb]
  | some sb => simpa [sandboxOf, start, hsb] using h session sb hsb

theorem update_limit_pos (c : SandboxCall) {sb : SandboxState} (h : 0 < sb.max_consecutive_dangerous) :
    0 < (c.update sb).max_consecutive_dangerous := by
  cases c with
  | classifyToolCall id tool_name params now =>
    rw [SandboxCall.update]
    split
    · exact h
    · split
      · exact h
      · split <;> exact h
  | checkToolBudget id tool_name now =>
    rw [SandboxCall.update]
    split <;> exact h
  | emergencyStop id reason now => exact h
  | emergencyReset id now => exact h
  | resetSandbox id now => exact Nat.zero_lt_succ 2

variable {r : SandboxRun}

theorem Counts.next (h : r.Counts) (c : SandboxCall) : (r.next c).Counts := by
  constructor
  · intro session now
    by_cases hsession : session = c.session
    · subst hsession
      rw [SandboxRun.next, sandboxOf_run_self]
      exact update_limit_pos c (h.limit_pos _ _)
    · rw [SandboxRun.next, sandboxOf_run_of_ne c _ hsession]
      exact h.limit_pos session now
  · intro session habsent
    rw [SandboxRun.next, get?_run] at habsent
    split at habsent
    · cases habsent
    · rename_i hsession
      rw [next_counted_of_ne r c hsession]
      exact h.of_absent session habsent

theorem checkToolBudget_of_stopped {sandboxes : Sandboxes} {session : String}
    (h : ∀ now, (sandboxOf sandboxes session now).emergency_stopped = true) (tool_name : String)
    (now : ℚ) :
    (checkToolBudget session tool_name now sandboxes).1 = .error (.emergencyStopped session) := by
  rw [checkToolBudget, getSandbox_bind, if_pos (h now)]
  rfl

theorem guardedAt_iff (h : r.Counts) {session : String} : r.GuardedAt session ↔
    ∀ sb, r.sandboxes.get? session = some sb → sb.max_consecutive_dangerous ≤ r.counted session →
      sb.emergency_stopped = true := by
  constructor
  · intro hguarded sb hsb hlimit
    have := hguarded 0
    simp only [sandboxOf, hsb, Option.getD_some] at this
    exact (this hlimit).1
  · intro hstopped now hlimit
    cases hsb : r.sandboxes.get? session with
    | none =>
      -- nothing was counted, and limits are positive
      have hpos := h.limit_pos session now
      rw [h.of_absent session hsb] at hlimit
      omega
    | some sb =>
      have hstop : ∀ now, (sandboxOf r.sandboxes session now).emergency_stopped = true := by
        intro now'
        simp only [sandboxOf, hsb, Option.getD_some] at hlimit ⊢
        exact hstopped sb hsb hlimit
      exact ⟨hstop now, fun tool_name now' => checkToolBudget_of_stopped hstop tool_name now'⟩

/-- **What one call does to its sandbox**: the limit is guarded after it exactly when it meets the
condition. -/
theorem update_guarded_iff (c : SandboxCall) {sb : SandboxState} {n : ℕ}
    (hpos : 0 < sb.max_consecutive_dangerous)
    (h : sb.max_consecutive_dangerous ≤ n → sb.emergency_stopped = true) :
    ((c.update sb).max_consecutive_dangerous ≤ c.count sb n → (c.update sb).emergency_stopped = true) ↔
      c.StopsInTime sb n := by
  cases c with
  | classifyToolCall id tool_name params now =>
    rw [SandboxCall.update, SandboxCall.count]
    by_cases hcount : CountsDangerous sb tool_name params
    · rw [if_pos hcount, if_pos hcount]
      exact ⟨fun hs _ => hs, fun hs => hs hcount⟩
    · rw [if_neg hcount, if_neg hcount]
      refine iff_of_true ?_ fun hc => absurd hc hcount
      split
      · exact h
      · split
        · exact fun _ => rfl
        · exact h
  | checkToolBudget id tool_name now =>
    rw [SandboxCall.update, SandboxCall.count]
    refine iff_true_intro ?_
    split <;> exact h
  | emergencyStop id reason now => exact iff_true_intro fun _ => rfl
  | emergencyReset id now => exact iff_true_intro fun hlimit => absurd hlimit (Nat.not_le.mpr hpos)
  | resetSandbox id now =>
    exact iff_true_intro fun hlimit => absurd hlimit (Nat.not_le.mpr (Nat.zero_lt_succ 2))

theorem guarded_next_iff (hr : r.Counts) (h : r.Guarded) (c : SandboxCall) :
    (r.next c).Guarded ↔ r.StoppedBefore c := by
  have hown := update_guarded_iff c (n := r.counted c.session)
    (hr.limit_pos c.session c.now) fun hlimit => (h c.session c.now hlimit).1
  rw [StoppedBefore, ← hown]
  constructor
  · intro hguarded
    have hself := (guardedAt_iff (hr.next c)).mp (hguarded c.session)
    rw [next_counted_self] at hself
    apply hself
    rw [next, get?_run, if_pos rfl]
  · intro hlimit session
    rw [guardedAt_iff (hr.next c)]
    intro sb hsb
    rw [next, get?_run] at hsb
    by_cases hsession : session = c.session
    · subst hsession
      rw [if_pos rfl] at hsb
      cases hsb
      rw [next_counted_self]
      exact hlimit
    · rw [if_neg hsession] at hsb
      rw [next_counted_of_ne r c hsession]
      exact (guardedAt_iff hr).mp (h session) sb hsb

end SandboxRun

end ZapTrace
