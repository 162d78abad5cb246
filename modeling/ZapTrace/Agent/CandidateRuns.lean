import Mathlib.Data.List.Nodup
import ZapTrace.Agent.Candidates

/-!
# Runs of operations on candidates

A run is lawful when at every time at most the candidate that the log names is selected or ready, no rejected candidate
becomes selected or ready again, and a candidate is ready only when it was selected before. Since no operation reads the
status that a candidate has, a run is lawful exactly when the calls see to it: the candidate that is selected must not be
rejected, and a candidate that the gate lets through must be selected or ready already.

## Main results

* `rejected_step`, `ready_step`, `named_step`: what a careful call keeps
* `live_after_select`: after a selection only the selected candidate is selected or ready
* `lawful_iff`: a run is lawful exactly when it starts well and all its calls are careful
-/

namespace ZapTrace.Candidates

open CandidateDecisionLog List Nat

variable {K : Type} [LinearOrder K]

/-! ## Laws -/

def Live (status : Option CandidateStatus) : Prop := status = some .selected ∨ status = some .release_ready

def CandidateDecisionLog.statusOf (log : CandidateDecisionLog K) (candidate_id : String) : Option CandidateStatus :=
  (log.candidate? candidate_id).map DesignCandidate.status

/-- At most one candidate is selected or ready, and the log names it. -/
structure Named (log : CandidateDecisionLog K) : Prop where
  unique : ∀ c ∈ log.candidates, ∀ c' ∈ log.candidates, Live (some c.status) → Live (some c'.status) → c = c'
  named : ∀ c ∈ log.candidates, Live (some c.status) → c.candidate_id = log.selected_candidate_id

/-- The law of a run. -/
structure Lawful (log : CandidateDecisionLog K) (calls : List Call) : Prop where
  named : ∀ i ≤ calls.length, Named (after log calls i)
  final : ∀ i j, i ≤ j → j ≤ calls.length → ∀ candidate_id,
    (after log calls i).statusOf candidate_id = some .rejected → ¬ Live ((after log calls j).statusOf candidate_id)
  earned : ∀ j ≤ calls.length, ∀ candidate_id, (after log calls j).statusOf candidate_id = some .release_ready →
    ∃ i < j, (after log calls i).statusOf candidate_id = some .selected

/-- The call promotes no candidate that it must not promote. -/
def Careful (log : CandidateDecisionLog K) : Call → Prop
  | .mark .. => True
  | .select => ∀ c, log.bestVerified = some c → c.status ≠ .rejected
  | .release candidate_id approval_id =>
    ∀ c, log.candidate? candidate_id = some c → c.validation_status = .passed → approval_id ≠ "" →
      Live (some c.status)

/-! ## Statuses -/

section Statuses

omit [LinearOrder K]

variable {log : CandidateDecisionLog K} {candidate_id : String}
variable {c : DesignCandidate K}

theorem mem_of_candidate? (h : log.candidate? candidate_id = some c) :
    c ∈ log.candidates ∧ c.candidate_id = candidate_id := by
  refine ⟨mem_of_find?_eq_some h, ?_⟩
  have hid := find?_some h
  exact of_decide_eq_true hid

theorem candidate?_of_mem (h : c ∈ log.candidates) : log.candidate? c.candidate_id = some c := by
  cases hfind : log.candidate? c.candidate_id with
  | none =>
    have hnone := find?_eq_none.mp hfind c h
    exact absurd (decide_eq_true rfl) hnone
  | some c' =>
    obtain ⟨hmem, hid⟩ := mem_of_candidate? hfind
    exact congrArg some (inj_on_of_nodup_map log.distinct hmem h hid)

theorem statusOf_of_mem (h : c ∈ log.candidates) : log.statusOf c.candidate_id = some c.status := by
  rw [statusOf, candidate?_of_mem h]
  rfl

theorem statusOf_eq_some_iff {status : CandidateStatus} :
    log.statusOf candidate_id = some status ↔
      ∃ c ∈ log.candidates, c.candidate_id = candidate_id ∧ c.status = status := by
  constructor
  · intro h
    obtain ⟨c, hc, hstatus⟩ := Option.map_eq_some_iff.mp h
    obtain ⟨hmem, hid⟩ := mem_of_candidate? hc
    exact ⟨c, hmem, hid, hstatus⟩
  · rintro ⟨c, hmem, rfl, rfl⟩
    exact statusOf_of_mem hmem

theorem candidate?_update {f : DesignCandidate K → DesignCandidate K} (hf : ∀ c, (f c).candidate_id = c.candidate_id) :
    (log.update f hf).candidate? candidate_id = (log.candidate? candidate_id).map f := by
  unfold candidate?
  show find? _ (log.candidates.map f) = _
  rw [find?_map]
  congr 2
  funext c
  simp [hf c]

end Statuses

def statusAfter (log : CandidateDecisionLog K) (call : Call) (c : DesignCandidate K) : CandidateStatus :=
  match call with
  | .mark candidate_id passed _ => if c.candidate_id = candidate_id ∧ passed = false then .rejected else c.status
  | .select =>
    match log.bestVerified with
    | none => c.status
    | some selected => if c.candidate_id = selected.candidate_id then .selected else .rejected
  | .release candidate_id approval_id =>
    if c.candidate_id = candidate_id ∧ c.validation_status = .passed ∧ approval_id ≠ "" then .release_ready
    else c.status

omit [LinearOrder K] in
theorem status_afterSelection (selected c : DesignCandidate K) :
    (afterSelection selected c).status = if c.candidate_id = selected.candidate_id then .selected else .rejected := by
  unfold afterSelection
  split
  · rfl
  · split
    · rfl
    next hrejected => exact not_not.mp hrejected

/-- **What a call does** to the status of each candidate. -/
theorem statusOf_step (log : CandidateDecisionLog K) (call : Call) (candidate_id : String) :
    (step log call).statusOf candidate_id = (log.candidate? candidate_id).map (statusAfter log call) := by
  cases call with
  | mark marked passed reasons =>
    unfold step statusOf updateOne
    rw [candidate?_update, Option.map_map]
    congr 1
    funext c
    show (if c.candidate_id = marked then markVerificationResult c passed reasons else c).status =
      if c.candidate_id = marked ∧ passed = false then .rejected else c.status
    cases passed with
    | true => simp [markVerificationResult, apply_ite DesignCandidate.status]
    | false => simp [markVerificationResult, apply_ite DesignCandidate.status]
  | select =>
    unfold step selectBestVerifiedCandidate statusOf statusAfter
    cases log.bestVerified with
    | none => rfl
    | some selected =>
      show ((log.update (afterSelection selected) (candidate_id_afterSelection selected)).candidate? candidate_id).map _ =
        _
      rw [candidate?_update, Option.map_map]
      congr 1
      funext c
      exact status_afterSelection selected c
  | release released approval_id =>
    unfold step statusOf updateOne
    rw [candidate?_update, Option.map_map]
    congr 1
    funext c
    show (if c.candidate_id = released then (releaseGate c approval_id).2 else c).status =
      if c.candidate_id = released ∧ c.validation_status = .passed ∧ approval_id ≠ "" then .release_ready else c.status
    unfold releaseGate
    by_cases hid : c.candidate_id = released
    · by_cases hpassed : c.validation_status = .passed
      · by_cases happroval : approval_id = ""
        · simp [hid, hpassed, happroval]
        · simp [hid, hpassed, happroval]
      · simp [hid, hpassed]
    · simp [hid]

/-! ## One call -/

variable {log : CandidateDecisionLog K} {candidate_id : String} {call : Call}

theorem rejected_step (hcareful : Careful log call) (h : log.statusOf candidate_id = some .rejected) :
    (step log call).statusOf candidate_id = some .rejected := by
  obtain ⟨c, hc, hrejected⟩ := Option.map_eq_some_iff.mp h
  rw [statusOf_step, hc]
  refine congrArg some ?_
  cases call with
  | mark marked passed reasons =>
    show (if _ then _ else c.status) = _
    rw [hrejected, ite_self]
  | select =>
    unfold statusAfter
    cases hbest : log.bestVerified with
    | none => exact hrejected
    | some selected =>
      -- the selected candidate is not rejected, so this is another one
      refine if_neg fun hid => ?_
      have hmem : selected ∈ log.candidates := (mem_filter.mp (argmax_mem hbest)).1
      have heq : c = selected :=
        inj_on_of_nodup_map log.distinct (mem_of_candidate? hc).1 hmem hid
      exact hcareful selected hbest (heq ▸ hrejected)
  | release released approval_id =>
    show (if c.candidate_id = released ∧ _ then _ else c.status) = _
    split
    next hallowed =>
      obtain ⟨hid, hpassed, happroval⟩ := hallowed
      have hfound : log.candidate? released = some c := hid ▸ candidate?_of_mem (mem_of_candidate? hc).1
      have hlive := hcareful c hfound hpassed happroval
      rw [hrejected] at hlive
      rcases hlive with hlive | hlive
      · cases hlive
      · cases hlive
    next => exact hrejected

/-- A careful call makes a candidate ready only when it was selected or ready. -/
theorem ready_step (hcareful : Careful log call) (h : (step log call).statusOf candidate_id = some .release_ready) :
    Live (log.statusOf candidate_id) := by
  rw [statusOf_step] at h
  obtain ⟨c, hc, hready⟩ := Option.map_eq_some_iff.mp h
  rw [statusOf, hc]
  cases call with
  | mark marked passed reasons =>
    have hready : (if c.candidate_id = marked ∧ passed = false then .rejected else c.status) =
      CandidateStatus.release_ready := hready
    split at hready
    · cases hready
    · exact .inr (congrArg some hready)
  | select =>
    unfold statusAfter at hready
    cases hbest : log.bestVerified with
    | none =>
      rw [hbest] at hready
      exact .inr (congrArg some hready)
    | some selected =>
      rw [hbest] at hready
      dsimp only at hready
      split at hready
      · cases hready
      · cases hready
  | release released approval_id =>
    have hready : (if c.candidate_id = released ∧ c.validation_status = .passed ∧ approval_id ≠ "" then .release_ready
      else c.status) = CandidateStatus.release_ready := hready
    split at hready
    next hallowed =>
      obtain ⟨hid, hpassed, happroval⟩ := hallowed
      exact hcareful c (hid ▸ candidate?_of_mem (mem_of_candidate? hc).1) hpassed happroval
    next => exact .inr (congrArg some hready)

theorem sandbox_step (h : (step log call).statusOf candidate_id = some .sandbox) :
    log.statusOf candidate_id = some .sandbox := by
  rw [statusOf_step] at h
  obtain ⟨c, hc, hsandbox⟩ := Option.map_eq_some_iff.mp h
  rw [statusOf, hc]
  refine congrArg some ?_
  cases call with
  | mark marked passed reasons =>
    have hsandbox : (if c.candidate_id = marked ∧ passed = false then .rejected else c.status) =
      CandidateStatus.sandbox := hsandbox
    split at hsandbox
    · cases hsandbox
    · exact hsandbox
  | select =>
    unfold statusAfter at hsandbox
    cases hbest : log.bestVerified with
    | none =>
      rw [hbest] at hsandbox
      exact hsandbox
    | some selected =>
      rw [hbest] at hsandbox
      dsimp only at hsandbox
      split at hsandbox
      · cases hsandbox
      · cases hsandbox
  | release released approval_id =>
    have hsandbox : (if c.candidate_id = released ∧ c.validation_status = .passed ∧ approval_id ≠ "" then .release_ready
      else c.status) = CandidateStatus.sandbox := hsandbox
    split at hsandbox
    · cases hsandbox
    · exact hsandbox

omit [LinearOrder K] in
theorem named_iff :
    Named log ↔ ∀ candidate_id, Live (log.statusOf candidate_id) → candidate_id = log.selected_candidate_id := by
  constructor
  · intro h candidate_id hlive
    have hfound : ∃ status, log.statusOf candidate_id = some status ∧ Live (some status) := by
      rcases hlive with hlive | hlive
      · exact ⟨_, hlive, .inl rfl⟩
      · exact ⟨_, hlive, .inr rfl⟩
    obtain ⟨status, hstatus, hlive⟩ := hfound
    obtain ⟨c, hmem, rfl, rfl⟩ := statusOf_eq_some_iff.mp hstatus
    exact h.named c hmem hlive
  · intro h
    have hnamed : ∀ c ∈ log.candidates, Live (some c.status) → c.candidate_id = log.selected_candidate_id :=
      fun c hmem hlive => h c.candidate_id (statusOf_of_mem hmem ▸ hlive)
    refine ⟨fun c hmem c' hmem' hlive hlive' => ?_, hnamed⟩
    exact inj_on_of_nodup_map log.distinct hmem hmem' ((hnamed c hmem hlive).trans (hnamed c' hmem' hlive').symm)

/-- After a selection exactly the selected candidate is selected or ready, the log names it, and the others are
rejected. -/
theorem live_after_select {selected : DesignCandidate K} (h : log.bestVerified = some selected) :
    (step log .select).selected_candidate_id = selected.candidate_id ∧
      ∀ c ∈ (step log .select).candidates,
        c.status = if c.candidate_id = selected.candidate_id then .selected else .rejected := by
  have hstep : step log .select =
      { log.update (afterSelection selected) (candidate_id_afterSelection selected) with
        selected_candidate_id := selected.candidate_id } := by
    unfold step selectBestVerifiedCandidate
    rw [h]
  rw [hstep]
  refine ⟨rfl, fun c hc => ?_⟩
  obtain ⟨c', -, rfl⟩ := mem_map.mp hc
  rw [status_afterSelection, candidate_id_afterSelection]

/-- A careful call keeps the log the name of the only candidate that is selected or ready. -/
theorem named_step (hcareful : Careful log call) (h : Named log) : Named (step log call) := by
  have hnamed := named_iff.mp h
  rw [named_iff]
  intro candidate_id hlive
  have hlive' := hlive
  rw [statusOf_step] at hlive'
  cases hc : log.candidate? candidate_id with
  | none =>
    rw [hc] at hlive'
    exact hlive'.elim nofun nofun
  | some c =>
    rw [hc] at hlive'
    have hid := (mem_of_candidate? hc).2
    have hbefore : Live (some c.status) → candidate_id = log.selected_candidate_id := by
      intro hstatus
      refine hnamed candidate_id ?_
      rw [statusOf, hc]
      exact hstatus
    cases call with
    | mark marked passed reasons =>
      refine hbefore ?_
      have hafter : Live (some (if c.candidate_id = marked ∧ passed = false then .rejected else c.status)) := hlive'
      split at hafter
      · exact hafter.elim nofun nofun
      · exact hafter
    | select =>
      cases hbest : log.bestVerified with
      | none =>
        have hstep : step log .select = log := by
          unfold step selectBestVerifiedCandidate
          rw [hbest]
        rw [hstep] at hlive ⊢
        exact hnamed candidate_id hlive
      | some selected =>
        rw [(live_after_select hbest).1, ← hid]
        by_contra hne
        have hafter : Live (some (statusAfter log .select c)) := hlive'
        rw [statusAfter, hbest] at hafter
        simp only at hafter
        rw [if_neg hne] at hafter
        exact hafter.elim nofun nofun
    | release released approval_id =>
      refine hbefore ?_
      have hafter : Live (some (if c.candidate_id = released ∧ c.validation_status = .passed ∧ approval_id ≠ "" then
        .release_ready else c.status)) := hlive'
      split at hafter
      next hallowed =>
        obtain ⟨hreleased, hpassed, happroval⟩ := hallowed
        exact hcareful c (hreleased ▸ hid ▸ hc) hpassed happroval
      next => exact hafter

/-! ## Runs -/
variable {calls : List Call}

theorem after_succ (log : CandidateDecisionLog K) {i : ℕ} (hi : i < calls.length) :
    after log calls (i + 1) = step (after log calls i) calls[i] := by
  unfold after
  rw [take_succ_eq_append_getElem hi, foldl_append]
  rfl

/-- The log names the only candidate that is selected or ready, none is ready, and all calls are careful. -/
structure CarefulRun (log : CandidateDecisionLog K) (calls : List Call) : Prop where
  named : Named log
  none_ready : ∀ c ∈ log.candidates, c.status ≠ .release_ready
  careful : ∀ i (hi : i < calls.length), Careful (after log calls i) calls[i]

theorem CarefulRun.lawful (h : CarefulRun log calls) : Lawful log calls := by
  have hfinal : ∀ i j, i ≤ j → j ≤ calls.length → ∀ candidate_id,
      (after log calls i).statusOf candidate_id = some .rejected →
        (after log calls j).statusOf candidate_id = some .rejected := by
    intro i j hij
    induction j, hij using le_induction with
    | base => exact fun _ _ hrejected => hrejected
    | succ j hij ih =>
      intro hj candidate_id hrejected
      rw [after_succ log hj]
      exact rejected_step (h.careful j hj) (ih (le_of_lt hj) candidate_id hrejected)
  constructor
  · intro i hi
    induction i with
    | zero => exact h.named
    | succ i ih =>
      rw [after_succ log hi]
      exact named_step (h.careful i hi) (ih (le_of_lt hi))
  · intro i j hij hj candidate_id hrejected hlive
    rw [hfinal i j hij hj candidate_id hrejected] at hlive
    exact hlive.elim nofun nofun
  · intro j hj candidate_id hready
    induction j with
    | zero =>
      obtain ⟨c, hmem, -, hstatus⟩ := statusOf_eq_some_iff.mp hready
      exact absurd hstatus (h.none_ready c hmem)
    | succ j ih =>
      rw [after_succ log hj] at hready
      rcases ready_step (h.careful j hj) hready with hselected | hready
      · exact ⟨j, lt_succ_self j, hselected⟩
      · obtain ⟨i, hi, hselected⟩ := ih (le_of_lt hj) hready
        exact ⟨i, lt_succ_of_lt hi, hselected⟩

theorem Lawful.careful (h : Lawful log calls) {i : ℕ} (hi : i < calls.length) :
    Careful (after log calls i) calls[i] := by
  have hnext := after_succ log hi
  have hfinal : ∀ candidate_id, (after log calls i).statusOf candidate_id = some .rejected →
      ¬ Live ((step (after log calls i) calls[i]).statusOf candidate_id) := by
    intro candidate_id hrejected
    rw [← hnext]
    exact h.final i (i + 1) (le_succ i) hi candidate_id hrejected
  have hearned : ∀ candidate_id, (step (after log calls i) calls[i]).statusOf candidate_id = some .release_ready →
      ∃ k < i + 1, (after log calls k).statusOf candidate_id = some .selected := by
    intro candidate_id hready
    rw [← hnext] at hready
    exact h.earned (i + 1) hi candidate_id hready
  generalize hcall : calls[i] = call at hfinal hearned
  cases call with
  | mark => exact trivial
  | select =>
    intro selected hbest hrejected
    have hmem : selected ∈ (after log calls i).candidates := (mem_filter.mp (argmax_mem hbest)).1
    refine hfinal selected.candidate_id ((statusOf_of_mem hmem).trans (congrArg some hrejected)) (.inl ?_)
    rw [statusOf_step, candidate?_of_mem hmem]
    refine congrArg some ?_
    unfold statusAfter
    rw [hbest]
    exact if_pos rfl
  | release released approval_id =>
    intro c hc hpassed happroval
    obtain ⟨hmem, hid⟩ := mem_of_candidate? hc
    have hready : (step (after log calls i) (.release released approval_id)).statusOf released =
        some .release_ready := by
      rw [statusOf_step, hc]
      exact congrArg some (if_pos ⟨hid, hpassed, happroval⟩)
    have hstatus : (after log calls i).statusOf released = some c.status := hid ▸ statusOf_of_mem hmem
    cases hcase : c.status with
    | selected => exact .inl rfl
    | release_ready => exact .inr rfl
    | rejected => exact absurd (.inr hready) (hfinal released (hcase ▸ hstatus))
    | sandbox =>
      -- what is in the sandbox was never selected
      obtain ⟨k, hk, hselected⟩ := hearned released hready
      have hsandbox : ∀ m, k ≤ m → m ≤ calls.length → (after log calls m).statusOf released = some .sandbox →
          (after log calls k).statusOf released = some .sandbox := by
        intro m hkm
        induction m, hkm using le_induction with
        | base => exact fun _ hm => hm
        | succ m hkm ih =>
          intro hm hsandbox
          rw [after_succ log hm] at hsandbox
          exact ih (le_of_lt hm) (sandbox_step hsandbox)
      have hk' := hsandbox i (le_of_lt_succ hk) (le_of_lt hi) (hcase ▸ hstatus)
      cases hselected.symm.trans hk'

/-- **A run is lawful** exactly when it starts well and all its calls are careful; and after every selection exactly the
selected candidate is selected or ready. -/
theorem lawful_iff (log : CandidateDecisionLog K) (calls : List Call) :
    (Lawful log calls ↔ CarefulRun log calls) ∧
      ∀ i (hi : i < calls.length) selected, calls[i] = .select → (after log calls i).bestVerified = some selected →
        (after log calls (i + 1)).selected_candidate_id = selected.candidate_id ∧
          ∀ c ∈ (after log calls (i + 1)).candidates,
            c.status = if c.candidate_id = selected.candidate_id then .selected else .rejected := by
  constructor
  · refine ⟨fun h => ⟨h.named 0 (zero_le _), fun c hmem hready => ?_, fun i hi => h.careful hi⟩,
      CarefulRun.lawful⟩
    obtain ⟨i, hi, -⟩ := h.earned 0 (zero_le _) c.candidate_id
      ((statusOf_of_mem hmem).trans (congrArg some hready))
    exact absurd hi (not_lt_zero i)
  · intro i hi selected hcall hbest
    rw [after_succ log hi, hcall]
    exact live_after_select hbest

/-! ## Two candidates -/

def twoCandidates : CandidateDecisionLog ℕ where
  candidates := [{ candidate_id := "cand-01", score := 2 }, { candidate_id := "cand-02", score := 1 }]
  distinct := by decide

/-- Both pass, the first is selected, and the second is released. -/
def releasesOther : List Call :=
  [.mark "cand-01" true none, .mark "cand-02" true none, .select, .release "cand-02" "approval-1"]

/-- The second candidate is rejected for the selection of the first, and then it is ready. -/
theorem not_lawful_releasesOther : ¬ Lawful twoCandidates releasesOther := by
  intro h
  refine h.final 3 4 (by decide) (by decide) "cand-02" ?_ (.inr ?_)
  · decide
  · decide

end ZapTrace.Candidates
