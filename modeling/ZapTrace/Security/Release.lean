import Mathlib.Data.List.Sort
import Mathlib.Logic.Function.Basic
import ZapTrace.Library.PyValue

/-!
# The release gate

A release export needs current ERC and DRC evidence for the exact design state, complete component
coverage, a fabrication profile or an approved reason to skip it, and an engineering review that does
not stand in the way. What the gate has seen is summarised in an evidence identity, to which the
approval identifier of the call is bound.

## Main results

* `bindReleaseApproval_ok`: a binding that succeeds is that of the evidence, and stays in the map
* `bindReleaseApproval_of_bound`: a bound identifier is accepted for its own evidence only
-/

namespace ZapTrace

open Function (update)

inductive ReleaseEvidenceStatus
  | pass
  | fail
  | missing_evidence
  | skip_approved
  | skip_unapproved
  | human_review_required
deriving DecidableEq

/-- The text of a status. -/
def ReleaseEvidenceStatus.value : ReleaseEvidenceStatus → String
  | .pass => "pass"
  | .fail => "fail"
  | .missing_evidence => "missing-evidence"
  | .skip_approved => "skip-approved"
  | .skip_unapproved => "skip-unapproved"
  | .human_review_required => "human-review-required"

def RELEASE_GATE_VERSION : String := "2.1"

/-! ## Engineering review -/

inductive DecisionType
  | approve
  | reject
  | request_repair
  | accept_risk
  | rollback
deriving DecidableEq

/-- The text of a decision. -/
def DecisionType.value : DecisionType → String
  | .approve => "approve"
  | .reject => "reject"
  | .request_repair => "request-repair"
  | .accept_risk => "accept-risk"
  | .rollback => "rollback"

structure ReviewDecision where
  decision_id : String
  design_state_hash : String
  decision : DecisionType
  decided_by : String
  decided_at : String
  reason : String
  waiver_notes : String
  checklist_results : List (String × String)
  approval_id : String
deriving DecidableEq

structure ReviewSession where
  session_id : String
  design_name : String
  design_session_id : String
  latest_decision : Option ReviewDecision
deriving DecidableEq

/-- The review evidence a gate takes up. -/
structure EngineeringReview where
  schema_version : String
  status : String
  review_session_id : String
  decision_id : String
  decision : String
  reviewer_id : String
  decided_at : String
  reason : String
  waiver_notes : String
  design_state_hash : String
  approval_id : String
  current : Bool
  approval_id_matched : Bool
  checklist_results : List (String × String)
deriving DecidableEq

def decisionEvidence (session : ReviewSession) (decision : ReviewDecision) (status : String)
    (current approval_id_matched : Bool) : EngineeringReview where
  schema_version := "1.0"
  status := status
  review_session_id := session.session_id
  decision_id := decision.decision_id
  decision := decision.decision.value
  reviewer_id := decision.decided_by
  decided_at := decision.decided_at
  reason := decision.reason
  waiver_notes := decision.waiver_notes
  design_state_hash := decision.design_state_hash
  approval_id := decision.approval_id
  current := current
  approval_id_matched := approval_id_matched
  checklist_results := decision.checklist_results

def defaultEvidence (design_state_hash : String) : EngineeringReview where
  schema_version := "1.0"
  status := "human-review-required"
  review_session_id := ""
  decision_id := ""
  decision := ""
  reviewer_id := ""
  decided_at := ""
  reason := "No current matching engineering review approval was supplied."
  waiver_notes := ""
  design_state_hash := design_state_hash
  approval_id := ""
  current := false
  approval_id_matched := false
  checklist_results := []

/-- `_terminal_sessions`: the decided reviews of a design, the latest first. -/
def terminalSessions (reviews : List ReviewSession) (design_session_id design_name : String) :
    List (ReviewSession × ReviewDecision) :=
  (reviews.filterMap fun session =>
    if session.design_session_id = design_session_id ∧ session.design_name = design_name then
      session.latest_decision.map fun decision => (session, decision)
    else none).insertionSort fun a b => b.2.decided_at ≤ a.2.decided_at

def blockingStatus : DecisionType → Option String
  | .reject => some "rejected"
  | .request_repair => some "repair-requested"
  | .rollback => some "rolled-back"
  | _ => none

def matchedReviewStatus (decision : ReviewDecision) (current : Bool) : String :=
  if !current then "stale-review"
  else if decision.decision = .approve then "human-approved"
  else "risk-accepted"

def resolveEngineeringReviewEvidence (reviews : List ReviewSession)
    (design_session_id design_name design_state_hash approval_id : String) : EngineeringReview :=
  let sessions := terminalSessions reviews design_session_id design_name
  let current_sessions := sessions.filter fun s => s.2.design_state_hash = design_state_hash
  let unblocked :=
    match sessions.filter fun s => s.2.approval_id ≠ "" ∧ s.2.approval_id = pyStrip approval_id with
    | (session, decision) :: _ =>
      let current := decide (decision.design_state_hash = design_state_hash)
      decisionEvidence session decision (matchedReviewStatus decision current) current true
    | [] =>
      match current_sessions with
      | (session, decision) :: _ =>
        decisionEvidence session decision "human-review-required" true false
      | [] => defaultEvidence design_state_hash
  match current_sessions with
  | (session, decision) :: _ =>
    match blockingStatus decision.decision with
    | some status => decisionEvidence session decision status true false
    | none => unblocked
  | [] => unblocked

/-! ## Validation evidence -/

/-- `_persistent_design_identity`: the content and the version of the durable head. -/
structure PersistentIdentity where
  persistent_content_id : String
  persistent_version_id : String
deriving DecidableEq

/-- ERC evidence, bound to the design state it evaluated. -/
structure ErcEvidence where
  status : ReleaseEvidenceStatus
  design_state_hash : String
  passed : Bool
  total_errors : ℕ
  total_warnings : ℕ
  total_info : ℕ
  identity : Option PersistentIdentity
deriving DecidableEq

/-- DRC evidence with the fabrication profile it was made for. -/
structure DrcEvidence where
  status : ReleaseEvidenceStatus
  design_state_hash : String
  passed : Bool
  total_violations : ℕ
  fab_profile : String
  identity : Option PersistentIdentity
deriving DecidableEq

/-- The view of the ERC and DRC evidence of a design when its validation status was recorded. -/
structure ValidationStatus where
  design_state_hash : String
  erc : Option ErcEvidence
  drc : Option DrcEvidence
  identity : Option PersistentIdentity
deriving DecidableEq

/-- `require_current_validation`: fresh passing ERC and DRC for the current design state. -/
def requireCurrentValidation (design_name current_hash : String) :
    Option ValidationStatus → Except String (ErcEvidence × DrcEvidence)
  | none => .error <|
      s!"Release export for '{design_name}' requires fresh ERC and DRC validation " ++
        "for the current design state"
  | some validation =>
    match validation.erc with
    | none => .error s!"Release export for '{design_name}' requires fresh passing ERC evidence"
    | some erc =>
      if erc.design_state_hash ≠ current_hash then
        .error s!"Release export for '{design_name}' requires fresh ERC for the current design state"
      else if !erc.passed then
        .error s!"Release export for '{design_name}' requires passing ERC validation"
      else
        match validation.drc with
        | none => .error s!"Release export for '{design_name}' requires fresh passing DRC evidence"
        | some drc =>
          if drc.design_state_hash ≠ current_hash then
            .error
              s!"Release export for '{design_name}' requires fresh DRC for the current design state"
          else if !drc.passed then
            .error s!"Release export for '{design_name}' requires passing DRC validation"
          else .ok (erc, drc)

/-! ## Fabrication profile -/

structure FabProfilePolicy where
  status : ReleaseEvidenceStatus
  fab_profile : String
  skip_reason : String
  skip_approval_id : String
deriving DecidableEq

def buildFabProfilePolicy (fab_profile skip_reason skip_approval_id : String) :
    FabProfilePolicy where
  status :=
    if pyStrip fab_profile ≠ "" then .pass
    else if pyStrip skip_reason ≠ "" ∧ pyStrip skip_approval_id ≠ "" then .skip_approved
    else if pyStrip skip_reason ≠ "" then .skip_unapproved
    else .missing_evidence
  fab_profile := pyStrip fab_profile
  skip_reason := pyStrip skip_reason
  skip_approval_id := pyStrip skip_approval_id

def requireApprovedFabProfilePolicy (design_name : String) (policy : FabProfilePolicy) :
    Except String Unit :=
  match policy.status with
  | .skip_unapproved => .error <|
      s!"Release export for '{design_name}' has an unapproved fabrication-profile skip; " ++
        "provide fab_profile_skip_approval_id"
  | .missing_evidence => .error <|
      s!"Release export for '{design_name}' requires a fabrication profile " ++
        "or an explicit approved skip reason"
  | _ => .ok ()

/-! ## Evidence identity -/

section Identity

variable {δ γ : Type}

/-- What an evidence identity is the digest of. -/
structure IdentityMaterial (γ : Type) where
  gate_version : String
  design_state_hash : String
  erc : ErcEvidence
  drc : DrcEvidence
  component_coverage : γ
  fab_profile_policy : FabProfilePolicy
  engineering_review : EngineeringReview

structure EvidenceIdentity (γ : Type) where
  material : IdentityMaterial γ
  evidence_identity_hash : String

/-- What a release gate computes of a design, and its digests: the hash of a design state, the
component coverage with its status, and the SHA-256 of canonical JSON. -/
structure ReleaseFunctions (δ γ : Type) where
  design_state_hash : δ → String
  component_coverage : δ → Bool → String → γ
  coverage_status : γ → ReleaseEvidenceStatus
  identity_sha256 : IdentityMaterial γ → String
  binding_sha256 : String → String → String → String

def requireCompleteComponentCoverage (fns : ReleaseFunctions δ γ) (design_name : String)
    (coverage : γ) : Except String Unit :=
  if fns.coverage_status coverage ≠ .pass then
    .error <|
      s!"Release export for '{design_name}' requires complete footprint and risky-package " ++
        s!"evidence (status={(fns.coverage_status coverage).value})"
  else .ok ()

def buildReleaseEvidenceIdentity (fns : ReleaseFunctions δ γ) (design_state_hash : String)
    (erc : ErcEvidence) (drc : DrcEvidence) (component_coverage : γ)
    (fab_profile_policy : FabProfilePolicy) (engineering_review : EngineeringReview) :
    EvidenceIdentity γ :=
  let material : IdentityMaterial γ :=
    ⟨RELEASE_GATE_VERSION, design_state_hash, erc, drc, component_coverage, fab_profile_policy,
      engineering_review⟩
  ⟨material, fns.identity_sha256 material⟩

/-- The record of an approval that is bound. -/
structure ApprovalBinding where
  approval_id : String
  gate_version : String
  evidence_identity_hash : String
  approval_binding_hash : String
deriving DecidableEq

/-- The map from approval identifiers to their bindings. -/
abbrev ApprovalStore := String → Option ApprovalBinding

/-- `bind_release_approval`: bind one approval identifier to exactly one immutable evidence
identity. -/
def bindReleaseApproval (fns : ReleaseFunctions δ γ) (approval_store : ApprovalStore)
    (approval_id : String) (evidence_identity : EvidenceIdentity γ) :
    Except String (ApprovalBinding × ApprovalStore) :=
  let normalized := pyStrip approval_id
  let evidence_hash := evidence_identity.evidence_identity_hash
  if normalized = "" then .error "approval_id is required for release-export operations"
  else if evidence_hash = "" then
    .error "release evidence identity hash is required before approval"
  else
    match approval_store normalized with
    | some existing =>
      if existing.evidence_identity_hash ≠ evidence_hash then
        .error s!"approval_id '{normalized}' is already bound to different release evidence"
      else .ok (existing, approval_store)
    | none =>
      let gate_version :=
        if evidence_identity.material.gate_version = "" then RELEASE_GATE_VERSION
        else evidence_identity.material.gate_version
      let record : ApprovalBinding :=
        ⟨normalized, gate_version, evidence_hash,
          fns.binding_sha256 normalized gate_version evidence_hash⟩
      .ok (record, update approval_store normalized (some record))

variable {fns : ReleaseFunctions δ γ} {store store' : ApprovalStore} {approval_id : String}
  {identity : EvidenceIdentity γ} {binding : ApprovalBinding}

/-- **A binding that succeeds** is that of the evidence, whether it was there or is new, and every
other binding stays. -/
theorem bindReleaseApproval_ok
    (h : bindReleaseApproval fns store approval_id identity = .ok (binding, store')) :
    binding.evidence_identity_hash = identity.evidence_identity_hash ∧
      store' = update store (pyStrip approval_id) (some binding) ∧
        (store (pyStrip approval_id) = none ∨ store (pyStrip approval_id) = some binding) := by
  by_cases hblank : pyStrip approval_id = ""
  · simp [bindReleaseApproval, hblank] at h
  by_cases hhash : identity.evidence_identity_hash = ""
  · simp [bindReleaseApproval, hblank, hhash] at h
  cases hold : store (pyStrip approval_id) with
  | none =>
    simp only [bindReleaseApproval, hblank, hhash, hold, if_false] at h
    cases h
    exact ⟨rfl, rfl, .inl rfl⟩
  | some existing =>
    by_cases hsame : existing.evidence_identity_hash = identity.evidence_identity_hash
    · simp only [bindReleaseApproval, hblank, hhash, hold, hsame, ne_eq, not_true_eq_false,
        if_false] at h
      cases h
      refine ⟨hsame, ?_, .inr rfl⟩
      rw [← hold, Function.update_eq_self]
    · simp [bindReleaseApproval, hblank, hhash, hold, hsame] at h

/-- A bound identifier is accepted for the evidence it is bound to only. -/
theorem bindReleaseApproval_of_bound {existing : ApprovalBinding}
    (hold : store (pyStrip approval_id) = some existing)
    (h : bindReleaseApproval fns store approval_id identity = .ok (binding, store')) :
    binding = existing ∧ existing.evidence_identity_hash = identity.evidence_identity_hash := by
  obtain ⟨hhash, -, hcase⟩ := bindReleaseApproval_ok h
  rw [hold] at hcase
  obtain rfl : existing = binding := by simpa using hcase
  exact ⟨rfl, hhash⟩

theorem bindReleaseApproval_of_new (fns : ReleaseFunctions δ γ)
    (hblank : pyStrip approval_id ≠ "")
    (hhash : identity.evidence_identity_hash ≠ "") (hnone : store (pyStrip approval_id) = none) :
    ∃ result, bindReleaseApproval fns store approval_id identity = .ok result := by
  simp [bindReleaseApproval, hblank, hhash, hnone]

end Identity

end ZapTrace
