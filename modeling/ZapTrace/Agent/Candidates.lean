import Mathlib.Data.List.MinMax
import ZapTrace.Library.PyValue

/-!
# Candidates of a design

A log holds the candidates for one requirement. Each is verified, the best verified one is selected, and a candidate is
released with an approval. The three operations set the status of candidates: verification rejects a candidate that
fails, selection selects one and rejects the others, and the release gate makes a candidate ready. None of them reads the
status that a candidate has before it promotes it.

The scores are of any linear order.
-/

namespace ZapTrace.Candidates

open PyValue (str)

inductive CandidateStatus
  | sandbox | rejected | selected | release_ready
  deriving DecidableEq

inductive ValidationStatus
  | not_run | passed | failed
  deriving DecidableEq

structure DesignCandidate (K : Type) where
  candidate_id : String
  status : CandidateStatus := .sandbox
  /-- The total of the score. -/
  score : K
  validation_status : ValidationStatus := .not_run
  rejected_reasons : List String := []
  evidence : List PyValue := []
  human_approval_id : String := ""

/-- A decision log. No two candidates have one identifier. -/
structure CandidateDecisionLog (K : Type) where
  selected_candidate_id : String := ""
  candidates : List (DesignCandidate K)
  distinct : (candidates.map DesignCandidate.candidate_id).Nodup

section Operations

variable {K : Type}

/-- `reasons or default` -/
def orReasons (reasons : Option (List String)) (default : List String) : List String :=
  match reasons with
  | some (reason :: rest) => reason :: rest
  | _ => default

def markVerificationResult (candidate : DesignCandidate K) (passed : Bool) (reasons : Option (List String)) :
    DesignCandidate K :=
  let evidence := candidate.evidence ++
    [.dict [(str "kind", str "verification"), (str "passed", .bool passed),
      (str "reasons", .list ((orReasons reasons []).map str))]]
  if passed then { candidate with validation_status := .passed, evidence := evidence }
  else
    { candidate with
      validation_status := .failed
      evidence := evidence
      status := .rejected
      rejected_reasons := candidate.rejected_reasons ++ orReasons reasons ["verification failed"] }

/-- What the release gate answers. -/
inductive GateResult
  | refused (code message : String)
  | allowed (candidate_id approval_id : String)
  deriving DecidableEq

def releaseGate (candidate : DesignCandidate K) (approval_id : String) : GateResult × DesignCandidate K :=
  if candidate.validation_status ≠ .passed then
    (.refused "CANDIDATE_VALIDATION_REQUIRED" "candidate must pass verification before release", candidate)
  else if approval_id = "" then
    (.refused "CANDIDATE_APPROVAL_REQUIRED" "approval_id is required before release export", candidate)
  else
    (.allowed candidate.candidate_id approval_id,
      { candidate with
        human_approval_id := approval_id
        status := .release_ready
        evidence := candidate.evidence ++
          [.dict [(str "kind", str "release_gate"), (str "approval_id", str approval_id), (str "allowed", .bool true)]] })

namespace CandidateDecisionLog

/-- Each candidate of the log is changed, and keeps its identifier. -/
def update (log : CandidateDecisionLog K) (f : DesignCandidate K → DesignCandidate K)
    (hf : ∀ c, (f c).candidate_id = c.candidate_id) : CandidateDecisionLog K where
  selected_candidate_id := log.selected_candidate_id
  candidates := log.candidates.map f
  distinct := by
    have hmap : (log.candidates.map f).map DesignCandidate.candidate_id =
        log.candidates.map DesignCandidate.candidate_id := by
      rw [List.map_map]
      exact List.map_congr_left fun c _ => hf c
    rw [hmap]
    exact log.distinct

def candidate? (log : CandidateDecisionLog K) (candidate_id : String) : Option (DesignCandidate K) :=
  log.candidates.find? fun c => c.candidate_id = candidate_id

def updateOne (log : CandidateDecisionLog K) (candidate_id : String) (f : DesignCandidate K → DesignCandidate K)
    (hf : ∀ c, (f c).candidate_id = c.candidate_id) : CandidateDecisionLog K :=
  log.update (fun c => if c.candidate_id = candidate_id then f c else c) fun c => by
    split
    · exact hf c
    · rfl

variable [LinearOrder K]

/-- `max(verified, key=...)`: the first of the verified candidates with the highest score. -/
def bestVerified (log : CandidateDecisionLog K) : Option (DesignCandidate K) :=
  (log.candidates.filter fun c => c.validation_status = .passed).argmax DesignCandidate.score

end CandidateDecisionLog

/-- What becomes of a candidate when one is selected. -/
def afterSelection (selected c : DesignCandidate K) : DesignCandidate K :=
  if c.candidate_id = selected.candidate_id then { c with status := .selected }
  else if c.status ≠ .rejected then
    { c with
      status := .rejected
      rejected_reasons := c.rejected_reasons ++ [s!"lower score than selected {selected.candidate_id}"] }
  else c

theorem candidate_id_afterSelection (selected c : DesignCandidate K) :
    (afterSelection selected c).candidate_id = c.candidate_id := by
  unfold afterSelection
  split
  · rfl
  · split
    · rfl
    · rfl

def selectBestVerifiedCandidate [LinearOrder K] (log : CandidateDecisionLog K) :
    Option (DesignCandidate K) × CandidateDecisionLog K :=
  match log.bestVerified with
  | none => (none, log)
  | some selected =>
    (some (afterSelection selected selected),
      { log.update (afterSelection selected) (candidate_id_afterSelection selected) with
        selected_candidate_id := selected.candidate_id })

theorem candidate_id_markVerificationResult (passed : Bool) (reasons : Option (List String))
    (c : DesignCandidate K) : (markVerificationResult c passed reasons).candidate_id = c.candidate_id := by
  unfold markVerificationResult
  dsimp only
  split
  · rfl
  · rfl

theorem candidate_id_releaseGate (approval_id : String) (c : DesignCandidate K) :
    (releaseGate c approval_id).2.candidate_id = c.candidate_id := by
  unfold releaseGate
  split
  · rfl
  · split
    · rfl
    · rfl

/-! ## Runs -/

/-- A call of one of the operations, on the log or on one of its candidates. -/
inductive Call
  | mark (candidate_id : String) (passed : Bool) (reasons : Option (List String))
  | select
  | release (candidate_id approval_id : String)

variable [LinearOrder K]

def step (log : CandidateDecisionLog K) : Call → CandidateDecisionLog K
  | .mark candidate_id passed reasons =>
    log.updateOne candidate_id (fun c => markVerificationResult c passed reasons)
      (candidate_id_markVerificationResult passed reasons)
  | .select => (selectBestVerifiedCandidate log).2
  | .release candidate_id approval_id =>
    log.updateOne candidate_id (fun c => (releaseGate c approval_id).2) (candidate_id_releaseGate approval_id)

def after (log : CandidateDecisionLog K) (calls : List Call) (i : ℕ) : CandidateDecisionLog K :=
  (calls.take i).foldl step log

end Operations

end ZapTrace.Candidates
