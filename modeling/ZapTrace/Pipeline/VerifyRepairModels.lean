import ZapTrace.Library.Dict
import ZapTrace.Library.PyValue

/-!
# Evidence of verification and repair

The records that gates and repairs give to the loop that runs them, and the policy of a run. A policy has
at least one domain and no domain twice, and a budget of one to sixteen repair cycles.
-/

namespace ZapTrace.Pipeline

inductive GateDomain
  | erc | drc | kicadOracle | dfm | simulation | supplyChain | proofPack
  deriving DecidableEq

def GateDomain.value : GateDomain → String
  | .erc => "erc"
  | .drc => "drc"
  | .kicadOracle => "kicad-oracle"
  | .dfm => "dfm"
  | .simulation => "simulation"
  | .supplyChain => "supply-chain"
  | .proofPack => "proof-pack"

/-- `list(GateDomain)` -/
def GateDomain.all : List GateDomain :=
  [.erc, .drc, .kicadOracle, .dfm, .simulation, .supplyChain, .proofPack]

inductive GateVerdict
  | pass | warning | blocked | humanReviewRequired | skipped | error
  deriving DecidableEq

inductive FailureSeverity
  | info | warning | error | critical
  deriving DecidableEq

inductive Repairability
  | autoRepairable | humanRepairable | nonRepairable
  deriving DecidableEq

inductive VerifyRepairStopReason
  | allGatesPassed | humanReviewRequired | nonRepairable | noProgress | iterationBudgetExhausted
  | gateExecutionError | repairExecutionError
  deriving DecidableEq

def VerifyRepairStopReason.value : VerifyRepairStopReason → String
  | .allGatesPassed => "all-gates-passed"
  | .humanReviewRequired => "human-review-required"
  | .nonRepairable => "non-repairable"
  | .noProgress => "no-progress"
  | .iterationBudgetExhausted => "iteration-budget-exhausted"
  | .gateExecutionError => "gate-execution-error"
  | .repairExecutionError => "repair-execution-error"

structure FailureEvidence where
  failure_id : String
  domain : GateDomain
  rule_id : String
  severity : FailureSeverity
  verdict : GateVerdict
  repairability : Repairability
  message : String
  requires_human_review : Bool := false

structure GateEvidence where
  domain : GateDomain
  verdict : GateVerdict
  design_state_hash : String
  summary : String := ""
  blocks_autonomous_release : Bool := false
  human_review_required : Bool := false
  findings : List FailureEvidence := []
  metadata : Dict String PyValue := Dict.empty

namespace GateEvidence

def blockingVerdict : GateVerdict → Bool
  | .blocked | .humanReviewRequired | .error => true
  | .pass | .warning | .skipped => false

/-- `count or int(self.blocks_autonomous_release)` -/
def blockingCount (gate : GateEvidence) : ℕ :=
  let count := (gate.findings.filter fun item => blockingVerdict item.verdict).length
  if count ≠ 0 then count else if gate.blocks_autonomous_release then 1 else 0

def passResult (domain : GateDomain) (design_state_hash : String) (summary : String) : GateEvidence where
  domain := domain
  verdict := .pass
  design_state_hash := design_state_hash
  summary := summary

/-- The gravest verdict of the findings. -/
def worstVerdict (verdicts : List GateVerdict) : GateVerdict :=
  if .error ∈ verdicts then .error
  else if .blocked ∈ verdicts then .blocked
  else if .humanReviewRequired ∈ verdicts then .humanReviewRequired
  else if .warning ∈ verdicts then .warning
  else if .skipped ∈ verdicts then .skipped
  else .pass

def fromFindings (domain : GateDomain) (design_state_hash : String) (findings : List FailureEvidence)
    (summary : String) (metadata : Dict String PyValue) : GateEvidence :=
  let verdict := worstVerdict (findings.map FailureEvidence.verdict)
  { domain := domain
    verdict := verdict
    design_state_hash := design_state_hash
    summary := summary
    blocks_autonomous_release :=
      decide (verdict ∈ [GateVerdict.blocked, .humanReviewRequired, .skipped, .error])
    human_review_required :=
      findings.any FailureEvidence.requires_human_review || decide (verdict = .humanReviewRequired)
    findings := findings
    metadata := metadata }

end GateEvidence

/-- A change of a design that a repair has made. -/
structure SemanticDiffEvidence where
  type : String
  ref : String
  detail : String
  old_value : Option String := none
  new_value : Option String := none

/-- What a repair adapter returns. -/
structure RepairApplication where
  repair_id : String
  domains : List GateDomain
  rationale : String
  patches : List (Dict String PyValue) := []
  decisions : List (Dict String PyValue) := []
  human_review_required : Bool := false

/-- A repair with the states before and after it. -/
structure RepairEvidence where
  iteration : ℕ
  repair_id : String
  domains : List GateDomain
  rationale : String
  before_state_hash : String
  after_state_hash : String
  before_blocking_count : ℕ
  after_blocking_count : ℕ
  improved : Bool
  semantic_diff : List SemanticDiffEvidence
  patches : List (Dict String PyValue)
  decisions : List (Dict String PyValue)
  human_review_required : Bool

inductive GatePhase
  | initial | postRepair
  deriving DecidableEq

/-- All gates at a state of the design. -/
structure GateHistoryEntry where
  iteration : ℕ
  phase : GatePhase
  design_state_hash : String
  blocking_count : ℕ
  human_review_count : ℕ
  gates : List GateEvidence

/-- The domains of a run and its budget, with the checks that are made of them. -/
structure VerifyRepairPolicy where
  schema_version : String := "1.0"
  policy_version : String := "1.0"
  max_iterations : ℕ := 3
  enabled_domains : List GateDomain := GateDomain.all
  fab_profile : String := "jlcpcb-2layer"
  strict_simulation : Bool := true
  erc_warnings_require_review : Bool := true
  drc_warnings_require_review : Bool := false
  non_claims : List String :=
    ["Convergence is bounded software evidence, not electrical or fabrication approval.",
      "Skipped, missing, high-risk, or unsupported evidence never becomes an autonomous pass.",
      "Physical validation and qualified human engineering review remain separate evidence domains."]
  one_le_max_iterations : 1 ≤ max_iterations := by decide
  max_iterations_le : max_iterations ≤ 16 := by decide
  enabled_domains_ne_nil : enabled_domains ≠ [] := by decide
  domains_are_unique : enabled_domains.Nodup := by decide

def VerifyRepairPolicy.releaseDefault : VerifyRepairPolicy := {}

structure VerifyRepairReport where
  schema_version : String := "1.0"
  design_name : String
  policy_version : String
  policy_sha256 : String
  enabled_domains : List GateDomain
  initial_design_state_hash : String
  final_design_state_hash : String
  converged : Bool
  stop_reason : VerifyRepairStopReason
  blocks_autonomous_release : Bool
  human_review_required : Bool
  iteration_budget : ℕ
  iterations_used : ℕ
  gate_history : List GateHistoryEntry
  repairs : List RepairEvidence
  final_gates : List GateEvidence
  human_review_reasons : List String
  non_claims : List String
  report_sha256 : String := ""

end ZapTrace.Pipeline
