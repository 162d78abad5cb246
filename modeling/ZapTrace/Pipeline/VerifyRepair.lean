import Mathlib.Algebra.GroupWithZero.Nat
import ZapTrace.Pipeline.VerifyRepairModels

/-!
# The loop of verification and repair

All gates are run on a design. While some gate does not pass and a finding can be repaired, the repair
adapters change a copy of the design, and all gates are run on the copy. Adapters are arbitrary: they may
raise, they may return evidence for another domain or another state, and what they remember from call to
call may change what they do. A gate adapter works on a copy of the design; a repair adapter changes the
design that it is given.

The report says that a run has converged only when the gates of the design that is returned have been run
on that very design, and all of them pass.

## Main results

* `bound_runGates`: the gates that are run on a design are bound to it
* `bound_of_cycleStopReason`: a cycle that ends the run with all gates passed
* `complete_runIterations`: the cycles of a run, their bound, and when all gates have passed
* `runVerifyRepair_converged`: what a report says that has converged
-/

namespace ZapTrace.Pipeline

open List

/-- What a run computes of a design, and of its policy and its report. -/
structure DesignFunctions (δ : Type) where
  design_name : δ → String
  design_state_hash : δ → String
  /-- The entries of `diff_designs`. -/
  semantic_diff : δ → δ → List SemanticDiffEvidence
  policy_sha256 : VerifyRepairPolicy → String
  report_sha256 : VerifyRepairReport → String
  /-- `resolve_verify_repair_output_path` looks at the file system. -/
  resolve_output_path : String → Option String → Except String String

structure VerifyRepairContext where
  policy : VerifyRepairPolicy
  output_dir : Option String

/-- An exception: its type and its text. -/
structure Raised where
  type : String
  text : String

variable {δ σ : Type}

abbrev GateAdapter (δ σ : Type) := δ → VerifyRepairContext → σ → Except Raised GateEvidence × σ

/-- A repair, with the design as it leaves it and the memory of the adapters. -/
abbrev RepairAdapter (δ σ : Type) :=
  δ → List FailureEvidence → VerifyRepairContext → σ → Except Raised (Option RepairApplication) × δ × σ

abbrev GateAdapters (δ σ : Type) := GateDomain → Option (GateAdapter δ σ)

/-! ## Gates -/

def gateError (domain : GateDomain) (state_hash message : String) : GateEvidence :=
  GateEvidence.fromFindings domain state_hash
    [{ failure_id := s!"{domain.value}:gate-error", domain := domain, rule_id := "gate-execution",
       severity := .critical, verdict := .error, repairability := .nonRepairable, message := message,
       requires_human_review := true }] message Dict.empty

/-- The body of the loop over the domains. -/
def runGate (fns : DesignFunctions δ) (design : δ) (context : VerifyRepairContext)
    (adapters : GateAdapters δ σ) (domain : GateDomain) (memory : σ) : GateEvidence × σ :=
  let state_hash := fns.design_state_hash design
  match adapters domain with
  | none => (gateError domain state_hash s!"no gate adapter configured for {domain.value}", memory)
  | some adapter =>
    let (answer, memory) := adapter design context memory
    let result :=
      match answer with
      | .ok result => result
      | .error exc => gateError domain state_hash s!"{domain.value} gate raised {exc.type}: {exc.text}"
    if result.domain ≠ domain then
      (gateError domain state_hash
        s!"{domain.value} adapter returned evidence for {result.domain.value}", memory)
    else if result.design_state_hash ≠ state_hash then
      (gateError domain state_hash
        s!"{domain.value} evidence is not bound to the current design state", memory)
    else (result, memory)

def runGatesOn (fns : DesignFunctions δ) (design : δ) (context : VerifyRepairContext)
    (adapters : GateAdapters δ σ) : List GateDomain → σ → List GateEvidence × σ
  | [], memory => ([], memory)
  | domain :: rest, memory =>
    let (result, memory) := runGate fns design context adapters domain memory
    let (results, memory) := runGatesOn fns design context adapters rest memory
    (result :: results, memory)

def runGates (fns : DesignFunctions δ) (design : δ) (context : VerifyRepairContext)
    (adapters : GateAdapters δ σ) (memory : σ) : List GateEvidence × σ :=
  runGatesOn fns design context adapters context.policy.enabled_domains memory

/-- The evidence of one domain is replaced by evidence that a repair has failed. -/
def replaceGateWithRepairError (gates : List GateEvidence) (domain : GateDomain)
    (state_hash message : String) : List GateEvidence :=
  let previous := gates.find? fun gate => gate.domain = domain
  let finding : FailureEvidence :=
    { failure_id := s!"{domain.value}:repair-error", domain := domain, rule_id := "repair-execution",
      severity := .critical, verdict := .error, repairability := .nonRepairable, message := message,
      requires_human_review := true }
  let findings := (previous.elim [] GateEvidence.findings) ++ [finding]
  let metadata := (previous.elim Dict.empty GateEvidence.metadata).set "repair_execution_error" (.str message)
  let error_gate := GateEvidence.fromFindings domain state_hash findings message metadata
  match previous with
  | none => gates ++ [error_gate]
  | some _ => gates.map fun gate => if gate.domain = domain then error_gate else gate

def blockingCount (gates : List GateEvidence) : ℕ := (gates.map GateEvidence.blockingCount).sum

def humanReviewCount (gates : List GateEvidence) : ℕ :=
  (gates.filter GateEvidence.human_review_required).length

def autoRepairableCount (gates : List GateEvidence) : ℕ :=
  ((gates.flatMap GateEvidence.findings).filter fun finding =>
    finding.repairability = .autoRepairable).length

def historyEntry (fns : DesignFunctions δ) (iteration : ℕ) (phase : GatePhase) (design : δ)
    (gates : List GateEvidence) : GateHistoryEntry where
  iteration := iteration
  phase := phase
  design_state_hash := fns.design_state_hash design
  blocking_count := blockingCount gates
  human_review_count := humanReviewCount gates
  gates := gates

def activeFailures (gates : List GateEvidence) : List FailureEvidence :=
  (gates.flatMap GateEvidence.findings).filter fun finding =>
    GateEvidence.blockingVerdict finding.verdict || decide (finding.repairability = .autoRepairable)

def allGatesPass (gates : List GateEvidence) : Bool :=
  (gates.all fun gate => !gate.blocks_autonomous_release && !gate.human_review_required) &&
    !(gates.flatMap GateEvidence.findings).any fun finding => finding.repairability = .autoRepairable

/-- The messages of the findings that need a review, each once. -/
def orderedHumanReviewReasons (gates : List GateEvidence) : List String :=
  (gates.flatMap GateEvidence.findings).foldl (fun reasons finding =>
    if finding.requires_human_review = true ∧ finding.message ∉ reasons then reasons ++ [finding.message]
    else reasons) []

def terminalReasonBeforeRepair (gates : List GateEvidence) : Option VerifyRepairStopReason :=
  let failures := activeFailures gates
  if gates.any fun gate => gate.verdict = .error then some .gateExecutionError
  else if failures.any fun item => item.repairability = .autoRepairable then none
  else if failures.any fun item => item.repairability = .nonRepairable then some .nonRepairable
  else if failures ≠ [] then some .humanReviewRequired
  else none

/-! ## Repairs -/

structure RepairCycleResult (δ : Type) where
  design : δ
  gates : List GateEvidence
  history : GateHistoryEntry
  repairs : List RepairEvidence
  progress : Bool
  stop_reason : Option VerifyRepairStopReason := none

/-- The loop over the repair adapters. What an adapter does to the design is seen by those after it. -/
def applyRepairs (context : VerifyRepairContext) (failures : List FailureEvidence) :
    List (RepairAdapter δ σ) → δ → σ → Except Raised (List RepairApplication × δ) × σ
  | [], working, memory => (.ok ([], working), memory)
  | adapter :: rest, working, memory =>
    match adapter working failures context memory with
    | (.error exc, _, memory) => (.error exc, memory)
    | (.ok application, working, memory) =>
      match applyRepairs context failures rest working memory with
      | (.error exc, memory) => (.error exc, memory)
      | (.ok (applications, working), memory) => (.ok (application.toList ++ applications, working), memory)

def repairErrorDomain (context : VerifyRepairContext) (failures : List FailureEvidence) : GateDomain :=
  match failures with
  | failure :: _ => failure.domain
  | [] => context.policy.enabled_domains.head context.policy.enabled_domains_ne_nil

def repairErrorCycle (fns : DesignFunctions δ) (before : δ) (iteration : ℕ) (gates : List GateEvidence)
    (domain : GateDomain) (message : String) : RepairCycleResult δ :=
  let error_gates := replaceGateWithRepairError gates domain (fns.design_state_hash before) message
  { design := before
    gates := error_gates
    history := historyEntry fns iteration .postRepair before error_gates
    repairs := []
    progress := false
    stop_reason := some .repairExecutionError }

def runRepairCycle (fns : DesignFunctions δ) (candidate : δ) (iteration : ℕ) (gates : List GateEvidence)
    (context : VerifyRepairContext) (gate_adapters : GateAdapters δ σ)
    (repair_adapters : List (RepairAdapter δ σ)) (memory : σ) : RepairCycleResult δ × σ :=
  let failures := activeFailures gates
  let before_hash := fns.design_state_hash candidate
  let before_blocking := blockingCount gates
  let before_auto_repairable := autoRepairableCount gates
  match applyRepairs context failures repair_adapters candidate memory with
  | (.error exc, memory) =>
    let domain := repairErrorDomain context failures
    (repairErrorCycle fns candidate iteration gates domain
      s!"{domain.value} repair raised {exc.type}: {exc.text}", memory)
  | (.ok (applications, working), memory) =>
    let after_hash := fns.design_state_hash working
    if applications = [] ∧ after_hash ≠ before_hash then
      let domain := repairErrorDomain context failures
      (repairErrorCycle fns candidate iteration gates domain
        s!"{domain.value} repair mutated design without RepairApplication evidence", memory)
    else
      let (after_gates, memory) := runGates fns working context gate_adapters memory
      let after_blocking := blockingCount after_gates
      let semantic_diff := fns.semantic_diff candidate working
      let improved := decide (after_blocking < before_blocking ∨
        autoRepairableCount after_gates < before_auto_repairable)
      let evidence := applications.map fun application =>
        { iteration := iteration, repair_id := application.repair_id, domains := application.domains,
          rationale := application.rationale, before_state_hash := before_hash,
          after_state_hash := after_hash, before_blocking_count := before_blocking,
          after_blocking_count := after_blocking, improved := improved, semantic_diff := semantic_diff,
          patches := application.patches, decisions := application.decisions,
          human_review_required := application.human_review_required }
      ({ design := working
         gates := after_gates
         history := historyEntry fns iteration .postRepair working after_gates
         repairs := evidence
         progress := !applications.isEmpty && decide (after_hash ≠ before_hash) && improved }, memory)

/-- Why the loop ends after a cycle. -/
def cycleStopReason (cycle : RepairCycleResult δ) (gates : List GateEvidence) :
    Option VerifyRepairStopReason :=
  match cycle.stop_reason with
  | some reason => some reason
  | none =>
    if allGatesPass gates then some .allGatesPassed
    else if cycle.progress = false then some .noProgress
    else none

/-! ## The loop -/

structure IterationResult (δ : Type) where
  design : δ
  gates : List GateEvidence
  history : List GateHistoryEntry
  repairs : List RepairEvidence
  iterations_used : ℕ
  stop_reason : VerifyRepairStopReason

/-- The loop, where so many iterations remain. -/
def iterate (fns : DesignFunctions δ) (context : VerifyRepairContext) (gate_adapters : GateAdapters δ σ)
    (repair_adapters : List (RepairAdapter δ σ)) :
    ℕ → δ → List GateEvidence → List GateHistoryEntry → List RepairEvidence → σ → IterationResult δ × σ
  | 0, candidate, gates, history, repairs, memory =>
    (⟨candidate, gates, history, repairs, context.policy.max_iterations, .iterationBudgetExhausted⟩, memory)
  | remaining + 1, candidate, gates, history, repairs, memory =>
    let iteration := context.policy.max_iterations - remaining
    match terminalReasonBeforeRepair gates with
    | some terminal => (⟨candidate, gates, history, repairs, iteration - 1, terminal⟩, memory)
    | none =>
      let (cycle, memory) := runRepairCycle fns candidate iteration gates context gate_adapters
        repair_adapters memory
      let history := history ++ [cycle.history]
      let repairs := repairs ++ cycle.repairs
      match cycleStopReason cycle cycle.gates with
      | some terminal => (⟨cycle.design, cycle.gates, history, repairs, iteration, terminal⟩, memory)
      | none =>
        iterate fns context gate_adapters repair_adapters remaining cycle.design cycle.gates history repairs
          memory

def runIterations (fns : DesignFunctions δ) (candidate : δ) (context : VerifyRepairContext)
    (gate_adapters : GateAdapters δ σ) (repair_adapters : List (RepairAdapter δ σ)) (memory : σ) :
    IterationResult δ × σ :=
  let (gates, memory) := runGates fns candidate context gate_adapters memory
  let history := [historyEntry fns 0 .initial candidate gates]
  if allGatesPass gates then (⟨candidate, gates, history, [], 0, .allGatesPassed⟩, memory)
  else
    iterate fns context gate_adapters repair_adapters context.policy.max_iterations candidate gates history
      [] memory

def buildReport (fns : DesignFunctions δ) (design : δ) (initial_hash : String)
    (policy : VerifyRepairPolicy) (gates : List GateEvidence) (history : List GateHistoryEntry)
    (repairs : List RepairEvidence) (iterations_used : ℕ) (stop_reason : VerifyRepairStopReason) :
    VerifyRepairReport :=
  let converged := decide (stop_reason = .allGatesPassed)
  let reasons := orderedHumanReviewReasons gates
  let human_review_reasons :=
    if converged = false ∧ reasons = [] then [s!"verify/repair stopped with {stop_reason.value}"] else reasons
  let report : VerifyRepairReport :=
    { design_name := fns.design_name design
      policy_version := policy.policy_version
      policy_sha256 := fns.policy_sha256 policy
      enabled_domains := policy.enabled_domains
      initial_design_state_hash := initial_hash
      final_design_state_hash := fns.design_state_hash design
      converged := converged
      stop_reason := stop_reason
      blocks_autonomous_release := !converged
      human_review_required := !converged
      iteration_budget := policy.max_iterations
      iterations_used := iterations_used
      gate_history := history
      repairs := repairs
      final_gates := gates
      human_review_reasons := human_review_reasons
      non_claims := policy.non_claims }
  { report with report_sha256 := fns.report_sha256 report }

structure VerifyRepairOutcome (δ : Type) where
  design : δ
  report : VerifyRepairReport

/-- The adapters of the code, for registries that are left out. -/
structure DefaultAdapters (δ σ : Type) where
  gates : GateAdapters δ σ
  repairs : List (RepairAdapter δ σ)

def runVerifyRepair (fns : DesignFunctions δ) (defaults : DefaultAdapters δ σ) (design : δ)
    (policy : Option VerifyRepairPolicy) (gate_adapters : Option (GateAdapters δ σ))
    (repair_adapters : Option (List (RepairAdapter δ σ))) (output_dir trusted_output_root : Option String)
    (memory : σ) : Except String (VerifyRepairOutcome δ × σ) := do
  let resolved_policy := policy.getD VerifyRepairPolicy.releaseDefault
  let initial_hash := fns.design_state_hash design
  let resolved_output_dir ← output_dir.mapM fun dir => fns.resolve_output_path dir trusted_output_root
  let context : VerifyRepairContext := ⟨resolved_policy, resolved_output_dir⟩
  let (result, memory) := runIterations fns design context (gate_adapters.getD defaults.gates)
    (repair_adapters.getD defaults.repairs) memory
  let report := buildReport fns result.design initial_hash resolved_policy result.gates result.history
    result.repairs result.iterations_used result.stop_reason
  pure (⟨result.design, report⟩, memory)

/-! ## Gates that are bound to a design -/

/-- One result for each domain, bound to the state of a design. -/
structure Bound (fns : DesignFunctions δ) (policy : VerifyRepairPolicy) (design : δ)
    (gates : List GateEvidence) : Prop where
  domains : gates.map GateEvidence.domain = policy.enabled_domains
  states : ∀ gate ∈ gates, gate.design_state_hash = fns.design_state_hash design

theorem runGate_bound (fns : DesignFunctions δ) (design : δ) (context : VerifyRepairContext)
    (adapters : GateAdapters δ σ) (domain : GateDomain) (memory : σ) :
    (runGate fns design context adapters domain memory).1.domain = domain ∧
      (runGate fns design context adapters domain memory).1.design_state_hash =
        fns.design_state_hash design := by
  unfold runGate
  cases adapters domain with
  | none => exact ⟨rfl, rfl⟩
  | some adapter =>
    dsimp only
    split_ifs with hdomain hstate
    · exact ⟨rfl, rfl⟩
    · exact ⟨rfl, rfl⟩
    · exact ⟨not_not.mp hdomain, not_not.mp hstate⟩

theorem runGatesOn_bound (fns : DesignFunctions δ) (design : δ) (context : VerifyRepairContext)
    (adapters : GateAdapters δ σ) (domains : List GateDomain) (memory : σ) :
    (runGatesOn fns design context adapters domains memory).1.map GateEvidence.domain = domains ∧
      ∀ gate ∈ (runGatesOn fns design context adapters domains memory).1,
        gate.design_state_hash = fns.design_state_hash design := by
  induction domains generalizing memory with
  | nil => exact ⟨rfl, fun _ h => absurd h not_mem_nil⟩
  | cons domain rest ih =>
    obtain ⟨hdomain, hstate⟩ := runGate_bound fns design context adapters domain memory
    obtain ⟨hdomains, hstates⟩ := ih (runGate fns design context adapters domain memory).2
    exact ⟨congrArg₂ cons hdomain hdomains, forall_mem_cons.mpr ⟨hstate, hstates⟩⟩

theorem bound_runGates (fns : DesignFunctions δ) (design : δ) (context : VerifyRepairContext)
    (adapters : GateAdapters δ σ) (memory : σ) :
    Bound fns context.policy design (runGates fns design context adapters memory).1 :=
  ⟨(runGatesOn_bound fns design context adapters _ memory).1,
    (runGatesOn_bound fns design context adapters _ memory).2⟩

theorem runRepairCycle_bound {fns : DesignFunctions δ} {candidate : δ} {iteration : ℕ}
    {gates : List GateEvidence} {context : VerifyRepairContext} {gate_adapters : GateAdapters δ σ}
    {repair_adapters : List (RepairAdapter δ σ)} {memory memory' : σ} {cycle : RepairCycleResult δ}
    (h : runRepairCycle fns candidate iteration gates context gate_adapters repair_adapters memory =
      (cycle, memory')) :
    cycle.stop_reason = some .repairExecutionError ∨
      cycle.stop_reason = none ∧ Bound fns context.policy cycle.design cycle.gates := by
  unfold runRepairCycle at h
  dsimp only at h
  rcases happly : applyRepairs context (activeFailures gates) repair_adapters candidate memory with
    ⟨(exc | ⟨applications, working⟩), memory⟩ <;> rw [happly] at h <;> dsimp only at h
  · obtain ⟨rfl, -⟩ := Prod.mk.inj h
    exact .inl rfl
  · split_ifs at h
    · obtain ⟨rfl, -⟩ := Prod.mk.inj h
      exact .inl rfl
    · obtain ⟨rfl, -⟩ := Prod.mk.inj h
      exact .inr ⟨rfl, bound_runGates fns working context gate_adapters memory⟩

theorem terminalReasonBeforeRepair_ne (gates : List GateEvidence) :
    terminalReasonBeforeRepair gates ≠ some .allGatesPassed := by
  unfold terminalReasonBeforeRepair
  dsimp only
  split_ifs <;> simp

/-- After a cycle all gates have passed only if they have been run on the design that it leaves. -/
theorem bound_of_cycleStopReason {fns : DesignFunctions δ} {candidate : δ} {iteration : ℕ}
    {gates : List GateEvidence} {context : VerifyRepairContext} {gate_adapters : GateAdapters δ σ}
    {repair_adapters : List (RepairAdapter δ σ)} {memory memory' : σ} {cycle : RepairCycleResult δ}
    (hcycle : runRepairCycle fns candidate iteration gates context gate_adapters repair_adapters memory =
      (cycle, memory'))
    (h : cycleStopReason cycle cycle.gates = some .allGatesPassed) :
    Bound fns context.policy cycle.design cycle.gates ∧ allGatesPass cycle.gates = true := by
  unfold cycleStopReason at h
  rcases runRepairCycle_bound hcycle with hfailed | ⟨hrun, hbound⟩
  · rw [hfailed] at h
    cases h
  · rw [hrun] at h
    refine ⟨hbound, ?_⟩
    by_contra hpass
    rw [if_neg hpass] at h
    split_ifs at h
    cases h

/-! ## Runs -/

/-- What is known of a run: one entry of the history for the first gates and one for each cycle, no more
cycles than the budget, and when all gates have passed they are bound to the design. -/
structure Complete (fns : DesignFunctions δ) (policy : VerifyRepairPolicy) (result : IterationResult δ) :
    Prop where
  cycles : result.history.length = result.iterations_used + 1
  budget : result.iterations_used ≤ policy.max_iterations
  passed : result.stop_reason = .allGatesPassed →
    Bound fns policy result.design result.gates ∧ allGatesPass result.gates = true

/-- The induction is on the iterations that remain, with the entries of those that are done. -/
theorem complete_iterate (fns : DesignFunctions δ) (context : VerifyRepairContext)
    (gate_adapters : GateAdapters δ σ) (repair_adapters : List (RepairAdapter δ σ)) (remaining : ℕ)
    (candidate : δ) (gates : List GateEvidence) (history : List GateHistoryEntry)
    (repairs : List RepairEvidence) (memory : σ) (hhistory : 0 < history.length)
    (hremaining : history.length + remaining = context.policy.max_iterations + 1) :
    Complete fns context.policy (iterate fns context gate_adapters repair_adapters remaining candidate gates
      history repairs memory).1 := by
  induction remaining generalizing candidate gates history repairs memory with
  | zero => exact ⟨hremaining, le_rfl, fun h => nomatch h⟩
  | succ remaining ih =>
    unfold iterate
    dsimp only
    cases hterminal : terminalReasonBeforeRepair gates with
    | some terminal =>
      refine ⟨?_, ?_, fun h => ?_⟩
      · show history.length = context.policy.max_iterations - remaining - 1 + 1
        omega
      · show context.policy.max_iterations - remaining - 1 ≤ context.policy.max_iterations
        omega
      · have hpassed : terminal = .allGatesPassed := h
        exact absurd (hpassed ▸ hterminal) (terminalReasonBeforeRepair_ne gates)
    | none =>
      rcases hcycle : runRepairCycle fns candidate (context.policy.max_iterations - remaining) gates context
        gate_adapters repair_adapters memory with ⟨cycle, memory'⟩
      dsimp only
      cases hstop : cycleStopReason cycle cycle.gates with
      | some terminal =>
        refine ⟨?_, ?_, fun h => ?_⟩
        · show (history ++ [cycle.history]).length = context.policy.max_iterations - remaining + 1
          rw [length_append, length_singleton]
          omega
        · exact Nat.sub_le _ _
        · have hpassed : terminal = .allGatesPassed := h
          exact bound_of_cycleStopReason hcycle (hpassed ▸ hstop)
      | none =>
        refine ih _ _ _ _ _ (by simp) ?_
        rw [length_append, length_singleton]
        omega

theorem complete_runIterations (fns : DesignFunctions δ) (candidate : δ) (context : VerifyRepairContext)
    (gate_adapters : GateAdapters δ σ) (repair_adapters : List (RepairAdapter δ σ)) (memory : σ) :
    Complete fns context.policy
      (runIterations fns candidate context gate_adapters repair_adapters memory).1 := by
  have hbound := bound_runGates fns candidate context gate_adapters memory
  unfold runIterations
  dsimp only
  split_ifs with hpass
  · exact ⟨rfl, Nat.zero_le _, fun _ => ⟨hbound, hpass⟩⟩
  · exact complete_iterate fns context gate_adapters repair_adapters _ _ _ _ _ _ Nat.one_pos (Nat.add_comm 1 _)

/-- A gate passes: it does not block, no human need review it, and nothing is left to repair. -/
structure Passes (gate : GateEvidence) : Prop where
  not_blocking : gate.blocks_autonomous_release = false
  no_review : gate.human_review_required = false
  nothing_to_repair : ∀ finding ∈ gate.findings, finding.repairability ≠ .autoRepairable

theorem allGatesPass_iff (gates : List GateEvidence) :
    allGatesPass gates = true ↔ ∀ gate ∈ gates, Passes gate := by
  simp only [allGatesPass, Bool.and_eq_true, Bool.not_eq_true', all_eq_true, any_eq_false,
    mem_flatMap, decide_eq_true_eq, forall_exists_index, and_imp]
  constructor
  · rintro ⟨hflags, hfindings⟩ gate hgate
    exact ⟨(hflags gate hgate).1, (hflags gate hgate).2, fun finding => hfindings finding gate hgate⟩
  · intro h
    exact ⟨fun gate hgate => ⟨(h gate hgate).not_blocking, (h gate hgate).no_review⟩,
      fun finding gate hgate => (h gate hgate).nothing_to_repair finding⟩

/-- **A run stops within its budget, and a report that says converged is right**: there is one result for
each domain, bound to the design that is returned, and it passes. -/
theorem runVerifyRepair_converged (fns : DesignFunctions δ) (defaults : DefaultAdapters δ σ) (design : δ)
    (policy : VerifyRepairPolicy) (gate_adapters : Option (GateAdapters δ σ))
    (repair_adapters : Option (List (RepairAdapter δ σ))) (output_dir trusted_output_root : Option String)
    (resolved_output_dir : Option String) (memory : σ)
    (houtput : (output_dir.mapM fun dir => fns.resolve_output_path dir trusted_output_root) =
      .ok resolved_output_dir) :
    ∃ outcome memory',
      runVerifyRepair fns defaults design (some policy) gate_adapters repair_adapters output_dir
        trusted_output_root memory = .ok (outcome, memory') ∧
      outcome.report.gate_history.length = outcome.report.iterations_used + 1 ∧
      outcome.report.iterations_used ≤ policy.max_iterations ∧
      (outcome.report.converged = true →
        policy.enabled_domains.Nodup ∧
        outcome.report.final_gates.map GateEvidence.domain = policy.enabled_domains ∧
        ∀ gate ∈ outcome.report.final_gates,
          gate.design_state_hash = fns.design_state_hash outcome.design ∧ Passes gate) := by
  have hcomplete := complete_runIterations fns design ⟨policy, resolved_output_dir⟩
    (gate_adapters.getD defaults.gates) (repair_adapters.getD defaults.repairs) memory
  rcases hresult : runIterations fns design ⟨policy, resolved_output_dir⟩
    (gate_adapters.getD defaults.gates) (repair_adapters.getD defaults.repairs) memory with ⟨result, memory'⟩
  rw [hresult] at hcomplete
  refine ⟨⟨result.design, buildReport fns result.design (fns.design_state_hash design) policy result.gates
    result.history result.repairs result.iterations_used result.stop_reason⟩, memory', ?_,
    hcomplete.cycles, hcomplete.budget, fun hconverged => ?_⟩
  · simp only [runVerifyRepair, houtput, Option.getD_some]
    show Except.ok _ = _
    rw [hresult]
  · obtain ⟨hbound, hpass⟩ := hcomplete.passed (of_decide_eq_true hconverged)
    refine ⟨policy.domains_are_unique, hbound.domains, fun gate hgate => ⟨hbound.states gate hgate, ?_⟩⟩
    exact (allGatesPass_iff _).mp hpass gate hgate

/-- A design that is repaired by a footprint: the gate and the repair of a small run. -/
def footprintGate : GateAdapter String Unit := fun design _ memory =>
  if design = "0402" then (.ok (GateEvidence.passResult .erc design ""), memory)
  else
    (.ok (GateEvidence.fromFindings .erc design
      [⟨"erc:footprint", .erc, "footprint", .warning, .warning, .autoRepairable, "no footprint", false⟩] ""
      Dict.empty), memory)

def footprintRepair : RepairAdapter String Unit := fun _ _ _ memory =>
  (.ok (some { repair_id := "footprint", domains := [.erc], rationale := "default" }), "0402", memory)

def footprintPolicy : VerifyRepairPolicy := { max_iterations := 1, enabled_domains := [.erc] }

def textFunctions : DesignFunctions String where
  design_name := id
  design_state_hash := id
  semantic_diff _ _ := []
  policy_sha256 _ := ""
  report_sha256 _ := ""
  resolve_output_path path _ := .ok path

theorem runVerifyRepair_converged_footprint :
    ∃ outcome memory',
      runVerifyRepair textFunctions ⟨fun _ => none, []⟩ "" (some footprintPolicy)
        (some fun _ => some footprintGate) (some [footprintRepair]) none none () = .ok (outcome, memory') ∧
      outcome.report.gate_history.length = outcome.report.iterations_used + 1 ∧
      outcome.report.iterations_used ≤ footprintPolicy.max_iterations ∧
      (outcome.report.converged = true →
        footprintPolicy.enabled_domains.Nodup ∧
        outcome.report.final_gates.map GateEvidence.domain = footprintPolicy.enabled_domains ∧
        ∀ gate ∈ outcome.report.final_gates,
          gate.design_state_hash = textFunctions.design_state_hash outcome.design ∧ Passes gate) :=
  runVerifyRepair_converged textFunctions ⟨fun _ => none, []⟩ "" footprintPolicy
    (some fun _ => some footprintGate) (some [footprintRepair]) none none none () rfl

/-- The run converges after one repair. -/
example :
    (runVerifyRepair textFunctions ⟨fun _ => none, []⟩ "" (some footprintPolicy)
      (some fun _ => some footprintGate) (some [footprintRepair]) none none ()).map (fun run =>
        (run.1.design, run.1.report.converged, run.1.report.iterations_used)) = .ok ("0402", true, 1) := by
  decide

end ZapTrace.Pipeline
