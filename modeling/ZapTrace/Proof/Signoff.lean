import Mathlib.Data.List.Basic

/-!
# The policy of the autonomous sign-off

A list of evidence gets the most conservative status: unsafe before unsupported, before blocked, before human review.
It passes when there is evidence and every item of it is clean.

## Main results

* `evaluate_pass_iff`: the policy passes exactly the lists of clean items that are not empty
-/

namespace ZapTrace.Proof

inductive AutonomousSignoffStatus
  | autonomousPass | humanReviewRequired | blockedInsufficientEvidence | unsupportedDomain | unsafeToFabricate
  deriving DecidableEq

inductive SignoffCheckStatus
  | pass | warning | fail | skipped | unknown
  deriving DecidableEq

structure SignoffEvidence where
  name : String
  status : SignoffCheckStatus
  source : String := "zaptrace"
  summary : String := ""
  release_blocking : Bool := true
  evidence_required : Bool := true
  human_review_required : Bool := false
  unsupported : Bool := false
  is_unsafe : Bool := false
  approval_id : String := ""
  deriving DecidableEq

namespace SignoffEvidence

variable (item : SignoffEvidence)

def isMissingRequiredEvidence : Bool :=
  item.evidence_required && (item.status == .skipped || item.status == .unknown)

def isReleaseBlockingFailure : Bool := item.release_blocking && item.status == .fail

def requiresHumanReview : Bool := item.human_review_required || item.status == .warning

def blocks : Bool := item.isReleaseBlockingFailure || item.isMissingRequiredEvidence

/-- Nothing about the item keeps a list from passing. -/
def Clean : Prop :=
  item.is_unsafe = false ∧ item.unsupported = false ∧ item.blocks = false ∧ item.requiresHumanReview = false

end SignoffEvidence

structure AutonomousSignoffDecision where
  status : AutonomousSignoffStatus
  summary : String
  evidence : List SignoffEvidence := []
  blocking_checks : List String := []
  human_review_checks : List String := []
  unsupported_checks : List String := []
  unsafe_checks : List String := []

def commaJoin (names : List String) : String := ", ".intercalate names

/-- The most conservative status of the evidence. -/
def evaluate (evidence : List SignoffEvidence) : AutonomousSignoffDecision :=
  let unsafes := (evidence.filter SignoffEvidence.is_unsafe).map SignoffEvidence.name
  let unsupported := (evidence.filter SignoffEvidence.unsupported).map SignoffEvidence.name
  let blocking := (evidence.filter SignoffEvidence.blocks).map SignoffEvidence.name
  let human_review := (evidence.filter fun item => item.requiresHumanReview && item.name ∉ blocking &&
    item.name ∉ unsafes && item.name ∉ unsupported).map SignoffEvidence.name
  if evidence = [] then
    { status := .blockedInsufficientEvidence
      summary := "No sign-off evidence was provided."
      blocking_checks := ["missing-signoff-evidence"] }
  else if unsafes ≠ [] then
    { status := .unsafeToFabricate
      summary := s!"Unsafe-to-fabricate evidence present: {commaJoin unsafes}."
      evidence := evidence
      unsafe_checks := unsafes
      unsupported_checks := unsupported
      blocking_checks := blocking
      human_review_checks := human_review }
  else if unsupported ≠ [] then
    { status := .unsupportedDomain
      summary := s!"Design is outside the supported autonomous domain: {commaJoin unsupported}."
      evidence := evidence
      unsupported_checks := unsupported
      blocking_checks := blocking
      human_review_checks := human_review }
  else if blocking ≠ [] then
    { status := .blockedInsufficientEvidence
      summary := s!"Required sign-off evidence failed or is missing: {commaJoin blocking}."
      evidence := evidence
      blocking_checks := blocking
      human_review_checks := human_review }
  else if human_review ≠ [] then
    { status := .humanReviewRequired
      summary := s!"Human engineering review is required for: {commaJoin human_review}."
      evidence := evidence
      human_review_checks := human_review }
  else
    { status := .autonomousPass
      summary := "All required sign-off evidence passed for the supported autonomous domain."
      evidence := evidence }

theorem filter_map_eq_nil_iff {p : SignoffEvidence → Bool} {evidence : List SignoffEvidence} :
    (evidence.filter p).map SignoffEvidence.name = [] ↔ ∀ item ∈ evidence, p item = false := by
  rw [List.map_eq_nil_iff, List.filter_eq_nil_iff]
  simp only [Bool.not_eq_true]

/-- The policy passes exactly the lists of clean items that are not empty. -/
theorem evaluate_pass_iff (evidence : List SignoffEvidence) :
    (evaluate evidence).status = .autonomousPass ↔ evidence ≠ [] ∧ ∀ item ∈ evidence, item.Clean := by
  unfold evaluate
  -- the branches of the policy, in its order
  by_cases hnil : evidence = []
  · simp [hnil]
  by_cases hhazard : (evidence.filter SignoffEvidence.is_unsafe).map SignoffEvidence.name = []
  case neg =>
    rw [if_neg hnil, if_pos hhazard]
    rw [filter_map_eq_nil_iff] at hhazard
    exact iff_of_false (by simp) fun h => hhazard fun item hitem => (h.2 item hitem).1
  by_cases hunsupported : (evidence.filter SignoffEvidence.unsupported).map SignoffEvidence.name = []
  case neg =>
    rw [if_neg hnil, if_neg (not_not.mpr hhazard), if_pos hunsupported]
    rw [filter_map_eq_nil_iff] at hunsupported
    exact iff_of_false (by simp) fun h => hunsupported fun item hitem => (h.2 item hitem).2.1
  by_cases hblocking : (evidence.filter SignoffEvidence.blocks).map SignoffEvidence.name = []
  case neg =>
    rw [if_neg hnil, if_neg (not_not.mpr hhazard), if_neg (not_not.mpr hunsupported), if_pos hblocking]
    rw [filter_map_eq_nil_iff] at hblocking
    exact iff_of_false (by simp) fun h => hblocking fun item hitem => (h.2 item hitem).2.2.1
  rw [if_neg hnil, if_neg (not_not.mpr hhazard), if_neg (not_not.mpr hunsupported), if_neg (not_not.mpr hblocking)]
  rw [hhazard, hunsupported, hblocking]
  rw [filter_map_eq_nil_iff] at hhazard hunsupported hblocking
  -- nothing blocks, so every item that needs a review is listed
  split
  · rename_i hreview
    rw [ne_eq, filter_map_eq_nil_iff] at hreview
    refine iff_of_false (by simp) fun h => hreview fun item hitem => ?_
    rw [(h.2 item hitem).2.2.2]
    rfl
  · rename_i hreview
    rw [not_ne_iff, filter_map_eq_nil_iff] at hreview
    refine iff_of_true rfl ⟨hnil, fun item hitem => ?_⟩
    refine ⟨hhazard item hitem, hunsupported item hitem, hblocking item hitem, ?_⟩
    simpa using hreview item hitem

end ZapTrace.Proof
