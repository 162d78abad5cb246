import ZapTrace.Agent.Transactions
import ZapTrace.Library.Run

/-!
# Transactions lose no update

A commit that returns replaces the design its transaction was previewed from by the candidate that
was validated, at most once for a transaction. A call that raises changes no design, except for a
commit whose durable record cannot be written after the design was.

## Main results

* `transactionEffect_run`: what each step does to the records
* `always_provenance`, `settled_exec`: every record has its preview in the run, and a settled
  transaction stays settled
* `transactionSafe_iff`: the runs without late faults are those that are safe
-/

namespace ZapTrace

open TransactionAction Prog Run Dict List

variable {δ : Type} {fns : TransactionFunctions δ} {session_id : String}
  {s s' : TransactionSession δ} {fault : Option DurableWrite}

/-! ## What the tools leave -/

theorem persist_bind {α : Type} (write : DurableWrite) (f : Unit → TransactionTool δ α) :
    (persist fault write >>= f) s =
      if fault = some write then (.error .durable, s) else f () s := by
  unfold persist
  split <;> rfl
variable {id : String}

theorem findTransaction_bind_none {α : Type} (h : s.transactions.get? id = none)
    (f : TransactionRecord δ → TransactionTool δ α) :
    ((findTransaction id >>= f) s) =
      (.error (.valueError s!"Transaction '{id}' not found"), s) := by
  rw [findTransaction, bind_assoc, get_bind, h]
  rfl

theorem findTransaction_bind_some {α : Type} {r : TransactionRecord δ} (h : s.transactions.get? id = some r)
    (f : TransactionRecord δ → TransactionTool δ α) : (findTransaction id >>= f) s = f r s := by
  rw [findTransaction, bind_assoc, get_bind, h]
  rfl

/-- What a call does to the record of its transaction. -/
inductive RecordMove (fns : TransactionFunctions δ) : TransactionRecord δ → TransactionRecord δ → Prop
  | validate (r : TransactionRecord δ) (h : r.state = .previewed ∨ r.state = .validated) :
      RecordMove fns r { r with
        validation := validationOf (fns.erc_run r.candidate_design)
        state := if (fns.erc_run r.candidate_design).passed then .validated else .rejected }
  | reject (r : TransactionRecord δ) (h : r.state = .validated) :
      RecordMove fns r { r with state := .rejected }
  | commit (r : TransactionRecord δ) (h : r.state = .validated) (approval_id hash : Option String) :
      RecordMove fns r { r with
        state := .committed, approval_id := approval_id, committed_state_hash := hash }
  | rollback (r : TransactionRecord δ) (h : r.state ≠ .committed) :
      RecordMove fns r { r with state := .rolledBack }

/-- What a step does to the records: nothing, a new record, or a move of one. -/
inductive TransactionEffect (fns : TransactionFunctions δ) (s s' : TransactionSession δ)
    (action : TransactionAction δ) : Prop
  | same (h : s'.transactions = s.transactions)
  | fresh (fault : Option DurableWrite) (tx_id operation : String) (params : PyValue) (reason : String)
      (r : TransactionRecord δ) (design : δ)
      (haction : action = .preview fault tx_id r.design_name operation params reason)
      (hdesign : s.designs.get? r.design_name = some design)
      (hcandidate : fns.apply_transaction_operation operation params design = .ok r.candidate_design)
      (hhash : r.parent_state_hash = fns.design_state_hash design)
      (hstate : r.state = .previewed)
      (h : s'.transactions = s.transactions.set tx_id r)
  | moved (id : String) (r r' : TransactionRecord δ) (hr : s.transactions.get? id = some r)
      (hmove : RecordMove fns r r') (h : s'.transactions = s.transactions.set id r')

section Effects

variable {tx_id design_name operation reason : String} {params : PyValue}

theorem preview_effect :
    (toolDesignTransactionPreview fns fault session_id tx_id design_name operation params reason
        s).2.designs = s.designs ∧
      TransactionEffect fns s (toolDesignTransactionPreview fns fault session_id tx_id design_name
        operation params reason s).2
        (.preview fault tx_id design_name operation params reason) := by
  unfold toolDesignTransactionPreview
  rw [get_bind]
  cases hdesign : s.designs.get? design_name with
  | none => exact ⟨rfl, .same rfl⟩
  | some design =>
    dsimp only
    cases hcandidate : fns.apply_transaction_operation operation params design with
    | error message => exact ⟨rfl, .same rfl⟩
    | ok candidate =>
      simp only [setRecord, modify_bind, persist_bind]
      refine ⟨?_, .fresh fault tx_id operation params reason
        { transaction_id := tx_id, session_id := session_id, design_name := design_name,
          operation := operation, params := params, state := .previewed, reason := reason,
          parent_state_hash := fns.design_state_hash design,
          preview_state_hash := fns.design_state_hash candidate,
          changed_entities := (fns.diff_designs design candidate).map DiffEntry.ref,
          semantic_diff := fns.diff_designs design candidate,
          validation := .notRun, approval_id := none, committed_state_hash := none,
          candidate_design := candidate } design rfl hdesign hcandidate rfl rfl ?_⟩
      · split <;> rfl
      · split <;> rfl

theorem validate_effect {id : String} :
    (toolDesignTransactionValidate fns fault id s).2.designs = s.designs ∧
      TransactionEffect fns s (toolDesignTransactionValidate fns fault id s).2
        (.validate fault id) := by
  unfold toolDesignTransactionValidate
  cases hr : s.transactions.get? id with
  | none =>
    rw [findTransaction_bind_none hr]
    exact ⟨rfl, .same rfl⟩
  | some r =>
    rw [findTransaction_bind_some hr]
    split
    · rename_i hstate
      simp only [setRecord, modify_bind, persist_bind]
      refine ⟨?_, .moved id r _ hr (.validate r hstate) ?_⟩
      · split <;> rfl
      · split <;> rfl
    · exact ⟨rfl, .same rfl⟩

theorem rollback_effect (fns : TransactionFunctions δ) {id : String} :
    (toolDesignTransactionRollback fault id s).2.designs = s.designs ∧
      TransactionEffect fns s (toolDesignTransactionRollback fault id s).2 (.rollback fault id) := by
  unfold toolDesignTransactionRollback
  cases hr : s.transactions.get? id with
  | none =>
    rw [findTransaction_bind_none hr]
    exact ⟨rfl, .same rfl⟩
  | some r =>
    rw [findTransaction_bind_some hr]
    split
    · exact ⟨rfl, .same rfl⟩
    · rename_i hstate
      simp only [setRecord, appendHistory, modify_bind, persist_bind]
      refine ⟨?_, .moved id r _ hr (.rollback r hstate) ?_⟩
      all_goals
        split
        · rfl
        · split <;> rfl

end Effects

/-! ## Commits -/

/-- A commit meets its checks: its transaction is validated, and the design has the hash of the one
it was previewed from. -/
structure Admitted (fns : TransactionFunctions δ) (s : TransactionSession δ) (id approval_id : String)
    (r : TransactionRecord δ) (previous : δ) : Prop where
  approval : pyStrip approval_id ≠ ""
  record : s.transactions.get? id = some r
  state : r.state = .validated
  validation : r.validation.isPassed = true
  design : s.designs.get? r.design_name = some previous
  hash : fns.design_state_hash previous = r.parent_state_hash

def committedRecord (fns : TransactionFunctions δ) (r : TransactionRecord δ) (approval_id : String) :
    TransactionRecord δ :=
  { r with
    state := .committed
    approval_id := some approval_id
    committed_state_hash := some (fns.design_state_hash r.candidate_design) }

/-- A commit that meets its checks sets the design, unless the write of the design fails; it returns
when no write fails. -/
theorem commit_of_admitted {id approval_id : String} {r : TransactionRecord δ} {previous : δ}
    (h : Admitted fns s id approval_id r previous) :
    toolDesignTransactionCommit fns fault id approval_id s =
      if fault = some .design then (.error .durable, s)
      else
        (if fault = some .record ∨ fault = some .history then .error .durable
          else .ok (committedRecord fns r approval_id).toTransactionPublicRecord,
        { designs := s.designs.set r.design_name r.candidate_design
          transactions := s.transactions.set id (committedRecord fns r approval_id)
          transaction_history := s.transaction_history ++
            [(committedRecord fns r approval_id).toTransactionPublicRecord] }) := by
  obtain ⟨happroval, hr, hstate, hvalidation, hdesign, hhash⟩ := h
  rw [toolDesignTransactionCommit, if_neg happroval, findTransaction_bind_some hr,
    if_neg (by simp [hstate]), if_neg (by simp [hvalidation]), get_bind, hdesign]
  dsimp only
  rw [if_neg (by simp [hhash])]
  simp only [setTransactionDesign, setRecord, appendHistory, bind_assoc, modify_bind,
    persist_bind, committedRecord]
  rcases fault with _ | _ | _ | _ <;> rfl

/-- A commit that does not meet its checks raises and changes no design; when the design was changed
since the preview it rejects the transaction. -/
theorem commit_of_not_admitted (fault : Option DurableWrite) {id approval_id : String}
    (h : ∀ r previous, ¬ Admitted fns s id approval_id r previous) :
    (∃ e, (toolDesignTransactionCommit fns fault id approval_id s).1 = .error e) ∧
      (toolDesignTransactionCommit fns fault id approval_id s).2.designs = s.designs ∧
      TransactionEffect fns s (toolDesignTransactionCommit fns fault id approval_id s).2
        (.commit fault id approval_id) := by
  unfold toolDesignTransactionCommit
  by_cases happroval : pyStrip approval_id = ""
  · rw [if_pos happroval]
    exact ⟨⟨_, rfl⟩, rfl, .same rfl⟩
  rw [if_neg happroval]
  cases hr : s.transactions.get? id with
  | none =>
    rw [findTransaction_bind_none hr]
    exact ⟨⟨_, rfl⟩, rfl, .same rfl⟩
  | some r =>
    rw [findTransaction_bind_some hr]
    by_cases hstate : r.state = .validated
    swap
    · rw [if_pos hstate]
      exact ⟨⟨_, rfl⟩, rfl, .same rfl⟩
    rw [if_neg (by simp [hstate])]
    cases hvalidation : r.validation.isPassed with
    | false => exact ⟨⟨_, rfl⟩, rfl, .same rfl⟩
    | true =>
      rw [if_neg (by simp), get_bind]
      cases hdesign : s.designs.get? r.design_name with
      | none => exact ⟨⟨_, rfl⟩, rfl, .same rfl⟩
      | some previous =>
        have hhash : fns.design_state_hash previous ≠ r.parent_state_hash := fun hhash =>
          h r previous ⟨happroval, hr, hstate, hvalidation, hdesign, hhash⟩
        dsimp only
        rw [if_pos hhash]
        simp only [setRecord, modify_bind, persist_bind, raise_apply]
        refine ⟨?_, ?_, .moved id r _ hr (.reject r hstate) ?_⟩
        · split <;> exact ⟨_, rfl⟩
        · split <;> rfl
        · split <;> rfl

theorem transactionEffect_run (fns : TransactionFunctions δ) (session_id : String)
    (s : TransactionSession δ) (action : TransactionAction δ) :
    TransactionEffect fns s (action.run fns session_id s).2 action := by
  cases action with
  | preview fault tx_id design_name operation params reason =>
    rw [run, bind_pure_snd]
    exact preview_effect.2
  | validate fault id =>
    rw [run, bind_pure_snd]
    exact validate_effect.2
  | rollback fault id =>
    rw [run, bind_pure_snd]
    exact (rollback_effect fns).2
  | edit design_name design => exact .same rfl
  | commit fault id approval_id =>
    rw [run, bind_pure_snd]
    by_cases h : ∃ r previous, Admitted fns s id approval_id r previous
    · obtain ⟨r, previous, h⟩ := h
      rw [commit_of_admitted h]
      split
      · exact .same rfl
      · exact .moved id r _ h.record (.commit r h.state _ _) rfl
    · exact (commit_of_not_admitted fault fun r previous hr => h ⟨r, previous, hr⟩).2.2

/-! ## Calls that return and calls that raise -/

variable {action : TransactionAction δ}

theorem commits_iff :
    action.Commits fns session_id s id ↔
      ∃ approval_id r previous, action = .commit none id approval_id ∧
        Admitted fns s id approval_id r previous := by
  constructor
  · rintro ⟨⟨fault, approval_id, rfl⟩, hok⟩
    rw [run, bind_pure_fst] at hok
    by_cases h : ∃ r previous, Admitted fns s id approval_id r previous
    · obtain ⟨r, previous, h⟩ := h
      rw [commit_of_admitted h] at hok
      rcases fault with _ | _ | _ | _
      · exact ⟨approval_id, r, previous, rfl, h⟩
      · cases hok
      · cases hok
      · cases hok
    · obtain ⟨⟨e, he⟩, -⟩ := commit_of_not_admitted fault
        fun r previous hr => h ⟨r, previous, hr⟩
      rw [he] at hok
      cases hok
  · rintro ⟨approval_id, r, previous, rfl, h⟩
    refine ⟨⟨none, approval_id, rfl⟩, ?_⟩
    rw [run, bind_pure_fst, commit_of_admitted h]
    rfl

/-- A commit whose checks are met and whose record or history cannot be written after the design was
set, when the candidate is another design. -/
def LateFault (fns : TransactionFunctions δ) (s : TransactionSession δ) :
    TransactionAction δ → Prop
  | .commit fault id approval_id =>
    (fault = some .record ∨ fault = some .history) ∧
      ∃ r previous, Admitted fns s id approval_id r previous ∧ r.candidate_design ≠ previous
  | _ => False

theorem fails_of_lateFault (h : LateFault fns s action) : action.Fails fns session_id s := by
  cases action with
  | commit fault id approval_id =>
    obtain ⟨hfault, r, previous, hadm, -⟩ := h
    refine ⟨.durable, ?_⟩
    rw [run, bind_pure_fst, commit_of_admitted hadm]
    rcases hfault with rfl | rfl
    · rfl
    · rfl
  | preview => exact h.elim
  | validate => exact h.elim
  | rollback => exact h.elim
  | edit => exact h.elim

/-- A call that raises leaves every design as it was exactly when it is not a late fault. -/
theorem designs_of_fails_iff (h : action.Fails fns session_id s) :
    (∀ design_name, (action.run fns session_id s).2.designs.get? design_name =
      s.designs.get? design_name) ↔ ¬ LateFault fns s action := by
  cases action with
  | preview fault tx_id design_name operation params reason =>
    rw [run, bind_pure_snd, preview_effect.1]
    exact iff_of_true (fun _ => rfl) id
  | validate fault id =>
    rw [run, bind_pure_snd, validate_effect.1]
    exact iff_of_true (fun _ => rfl) fun h => h
  | rollback fault id =>
    rw [run, bind_pure_snd, (rollback_effect fns).1]
    exact iff_of_true (fun _ => rfl) fun h => h
  | edit design_name design =>
    obtain ⟨e, he⟩ := h
    cases he
  | commit fault id approval_id =>
    rw [run, bind_pure_snd]
    by_cases hadm : ∃ r previous, Admitted fns s id approval_id r previous
    · obtain ⟨r, previous, hadm⟩ := hadm
      have hlate : LateFault fns s (.commit fault id approval_id) ↔
          (fault = some .record ∨ fault = some .history) ∧ r.candidate_design ≠ previous := by
        refine and_congr_right fun _ => ⟨?_, fun hne => ⟨r, previous, hadm, hne⟩⟩
        rintro ⟨r', previous', hadm', hne⟩
        obtain rfl := Option.some.inj (hadm.record.symm.trans hadm'.record)
        obtain rfl := Option.some.inj (hadm.design.symm.trans hadm'.design)
        exact hne
      have hset : (∀ design_name, (s.designs.set r.design_name r.candidate_design).get? design_name =
          s.designs.get? design_name) ↔ r.candidate_design = previous := by
        constructor
        · intro hsame
          have := hsame r.design_name
          rw [get?_set_self, hadm.design] at this
          exact Option.some.inj this
        · rintro rfl design_name
          rw [get?_set]
          split
          · rename_i hname
            rw [hname, hadm.design]
          · rfl
      rw [hlate, commit_of_admitted hadm]
      rcases fault with _ | _ | _ | _
      · -- without a fault the commit returns
        obtain ⟨e, he⟩ := h
        rw [run, bind_pure_fst, commit_of_admitted hadm] at he
        cases he
      · simp
      · simpa using hset
      · simpa using hset
    · have hrefused := commit_of_not_admitted fault
        fun r previous hr => hadm ⟨r, previous, hr⟩
      rw [hrefused.2.1]
      refine iff_of_true (fun _ => rfl) ?_
      rintro ⟨-, r, previous, hr, -⟩
      exact hadm ⟨r, previous, hr⟩

/-! ## Settled transactions -/

/-- The transaction was rejected, rolled back or committed. -/
def Settled (s : TransactionSession δ) (id : String) : Prop :=
  ∃ r, s.transactions.get? id = some r ∧
    (r.state = .rejected ∨ r.state = .rolledBack ∨ r.state = .committed)

theorem step_eq_some :
    step fns session_id s action = some s' ↔
      action.drawsFresh s = true ∧ (action.run fns session_id s).2 = s' := by
  simp [step]

theorem RecordMove.settled {r r' : TransactionRecord δ} (h : RecordMove fns r r')
    (hr : r.state = .rejected ∨ r.state = .rolledBack ∨ r.state = .committed) :
    r'.state = .rolledBack := by
  cases h with
  | validate h => rcases h with h | h <;> simp [h] at hr
  | reject h => simp [h] at hr
  | commit h => simp [h] at hr
  | rollback h => rfl

/-- **The step lemma**: a settled transaction stays settled. -/
theorem settled_step (hs : Settled s id) (hstep : step fns session_id s action = some s') :
    Settled s' id := by
  obtain ⟨hfresh, rfl⟩ := step_eq_some.mp hstep
  obtain ⟨r, hr, hstate⟩ := hs
  cases transactionEffect_run fns session_id s action with
  | same h =>
    refine ⟨r, ?_, hstate⟩
    rw [h]
    exact hr
  | fresh fault tx_id operation params reason r₁ design haction _ _ _ _ h =>
    have hne : id ≠ tx_id := by
      rintro rfl
      simp [haction, drawsFresh, hr] at hfresh
    refine ⟨r, ?_, hstate⟩
    rw [h, get?_set_of_ne _ _ hne]
    exact hr
  | moved id' r₁ r₁' hr₁ hmove h =>
    by_cases hid : id = id'
    · subst hid
      obtain rfl := Option.some.inj (hr.symm.trans hr₁)
      refine ⟨r₁', ?_, .inr (.inl (hmove.settled hstate))⟩
      rw [h, get?_set_self]
    · refine ⟨r, ?_, hstate⟩
      rw [h, get?_set_of_ne _ _ hid]
      exact hr

theorem settled_exec {acts : List (TransactionAction δ)} (hs : Settled s id)
    (hrun : exec (step fns session_id) s acts = some s') : Settled s' id :=
  exec_preserves (P := fun s => Settled s id) (fun _ _ _ h hstep => settled_step h hstep) hs hrun

theorem not_commits_of_settled (hs : Settled s id) : ¬ action.Commits fns session_id s id := by
  intro hcommit
  obtain ⟨approval_id, r, previous, -, hadm⟩ := commits_iff.mp hcommit
  obtain ⟨r', hr', hstate⟩ := hs
  obtain rfl := Option.some.inj (hadm.record.symm.trans hr')
  simp [hadm.state] at hstate

theorem settled_of_commits (hcommit : action.Commits fns session_id s id) :
    Settled (action.run fns session_id s).2 id := by
  obtain ⟨approval_id, r, previous, rfl, hadm⟩ := commits_iff.mp hcommit
  rw [run, bind_pure_snd, commit_of_admitted hadm]
  exact ⟨committedRecord fns r approval_id, get?_set_self _ _ _, .inr (.inr rfl)⟩

/-! ## Provenance -/

section Provenance

variable {s₀ : TransactionSession δ} {pre acts : List (TransactionAction δ)}

/-- The run has a preview of the transaction, which found the design and made the candidate of it. -/
def PreviewedFrom (fns : TransactionFunctions δ) (session_id : String) (s₀ : TransactionSession δ)
    (acts : List (TransactionAction δ)) (id design_name : String) (candidate design : δ) : Prop :=
  ∃ pre fault operation params reason s,
    pre ++ [.preview fault id design_name operation params reason] <+: acts ∧
    exec (step fns session_id) s₀ pre = some s ∧
    s.designs.get? design_name = some design ∧
    fns.apply_transaction_operation operation params design = .ok candidate

theorem PreviewedFrom.mono {id design_name : String} {candidate design : δ}
    (h : PreviewedFrom fns session_id s₀ pre id design_name candidate design) (hpre : pre <+: acts) :
    PreviewedFrom fns session_id s₀ acts id design_name candidate design := by
  obtain ⟨pre', fault, operation, params, reason, s, hprefix, hrest⟩ := h
  exact ⟨pre', fault, operation, params, reason, s, hprefix.trans hpre, hrest⟩

/-- What the record of a transaction says about the run. -/
structure RecordProvenance (fns : TransactionFunctions δ) (session_id : String)
    (s₀ : TransactionSession δ) (acts : List (TransactionAction δ)) (id : String)
    (r : TransactionRecord δ) : Prop where
  previewed : ∃ design,
    PreviewedFrom fns session_id s₀ acts id r.design_name r.candidate_design design ∧
      r.parent_state_hash = fns.design_state_hash design
  validated : r.state = .validated → r.validation = validationOf (fns.erc_run r.candidate_design) ∧
    (fns.erc_run r.candidate_design).passed = true

variable {id : String}

/-- A move keeps the design, the hash and the candidate of a record, and validates by the result for
that candidate. -/
theorem RecordProvenance.move {r r' : TransactionRecord δ} (h : RecordProvenance fns session_id s₀ acts id r)
    (hmove : RecordMove fns r r') : RecordProvenance fns session_id s₀ acts id r' := by
  cases hmove with
  | validate hstate =>
    refine ⟨h.previewed, fun hvalid => ⟨rfl, ?_⟩⟩
    by_contra hfailed
    simp [hfailed] at hvalid
  | reject hstate => exact ⟨h.previewed, fun hvalid => by cases hvalid⟩
  | commit hstate => exact ⟨h.previewed, fun hvalid => by cases hvalid⟩
  | rollback hstate => exact ⟨h.previewed, fun hvalid => by cases hvalid⟩

/-- **The run lemma**: every record has its preview in the run, and is validated only by a passed
result for its candidate. -/
theorem provenance_exec (hempty : s₀.transactions = empty)
    (hrun : exec (step fns session_id) s₀ acts = some s) {r : TransactionRecord δ}
    (hr : s.transactions.get? id = some r) : RecordProvenance fns session_id s₀ acts id r := by
  induction acts using reverseRecOn generalizing s id r with
  | nil =>
    cases hrun
    rw [hempty] at hr
    cases hr
  | append_singleton pre action ih =>
    obtain ⟨s₁, hs₁, hstep⟩ := exec_concat.mp hrun
    obtain ⟨-, rfl⟩ := step_eq_some.mp hstep
    have hold : ∀ id r, s₁.transactions.get? id = some r →
        RecordProvenance fns session_id s₀ (pre ++ [action]) id r := fun id r hr => by
      obtain ⟨⟨design, hpreview, hhash⟩, hvalidated⟩ := ih hs₁ hr
      exact ⟨⟨design, hpreview.mono (prefix_append pre [action]), hhash⟩, hvalidated⟩
    cases transactionEffect_run fns session_id s₁ action with
    | same h => exact hold id r (h ▸ hr)
    | fresh fault tx_id operation params reason r₁ design haction hdesign hcandidate hhash hstate h =>
      rw [h, get?_set] at hr
      split at hr
      · rename_i hid
        obtain rfl := Option.some.inj hr
        subst hid haction
        refine ⟨⟨design, ⟨pre, fault, operation, params, reason, s₁, prefix_rfl, hs₁, hdesign,
          hcandidate⟩, hhash⟩, fun hvalid => ?_⟩
        rw [hstate] at hvalid
        cases hvalid
      · exact hold id r hr
    | moved id' r₁ r₁' hr₁ hmove h =>
      rw [h, get?_set] at hr
      split at hr
      · rename_i hid
        obtain rfl := Option.some.inj hr
        subst hid
        exact (hold _ r₁ hr₁).move hmove
      · exact hold id r hr

/-! ## Safety of runs -/

/-- What holds of a commit that returns: its transaction is validated by a passed result for its
candidate, the design is the one it was previewed from, and the candidate replaces it. -/
def CommitValid (fns : TransactionFunctions δ) (session_id : String) (s₀ : TransactionSession δ)
    (pre : List (TransactionAction δ)) (s : TransactionSession δ) (action : TransactionAction δ)
    (id : String) : Prop :=
  ∃ r design, s.transactions.get? id = some r ∧ r.state = .validated ∧
    r.validation = validationOf (fns.erc_run r.candidate_design) ∧
    (fns.erc_run r.candidate_design).passed = true ∧
    PreviewedFrom fns session_id s₀ pre id r.design_name r.candidate_design design ∧
    s.designs.get? r.design_name = some design ∧
    (action.run fns session_id s).2.designs.get? r.design_name = some r.candidate_design

/-- The safety of a run: commits that return are valid, a transaction has at most one, a settled
transaction has none, and a call that raises leaves every design as it was. -/
structure TransactionSafe (fns : TransactionFunctions δ) (session_id : String)
    (s₀ : TransactionSession δ) (acts : List (TransactionAction δ)) : Prop where
  valid : ∀ pre action id s, pre ++ [action] <+: acts →
    exec (step fns session_id) s₀ pre = some s →
    action.Commits fns session_id s id → CommitValid fns session_id s₀ pre s action id
  once : ∀ pre₁ pre₂ action₁ action₂ id s₁ s₂, pre₁ ++ [action₁] <+: acts →
    pre₂ ++ [action₂] <+: acts →
    exec (step fns session_id) s₀ pre₁ = some s₁ →
    exec (step fns session_id) s₀ pre₂ = some s₂ →
    action₁.Commits fns session_id s₁ id → action₂.Commits fns session_id s₂ id → pre₁ = pre₂
  settled : ∀ pre₁ pre₂ action id s₁ s₂, pre₁ <+: pre₂ → pre₂ ++ [action] <+: acts →
    exec (step fns session_id) s₀ pre₁ = some s₁ →
    exec (step fns session_id) s₀ pre₂ = some s₂ → Settled s₁ id →
    ¬ action.Commits fns session_id s₂ id
  failing : Run.EachStep (step fns session_id) s₀ acts fun s action =>
    action.Fails fns session_id s → ∀ design_name,
      (action.run fns session_id s).2.designs.get? design_name = s.designs.get? design_name

theorem commitValid_of_commits (hhash : Function.Injective fns.design_state_hash)
    (hempty : s₀.transactions = empty) {action : TransactionAction δ}
    (hrun : exec (step fns session_id) s₀ pre = some s)
    (hcommit : action.Commits fns session_id s id) : CommitValid fns session_id s₀ pre s action id := by
  obtain ⟨approval_id, r, previous, rfl, hadm⟩ := commits_iff.mp hcommit
  obtain ⟨⟨design, hpreview, hparent⟩, hvalidated⟩ := provenance_exec hempty hrun hadm.record
  obtain ⟨hvalidation, hpassed⟩ := hvalidated hadm.state
  -- equal hashes are equal designs
  obtain rfl : previous = design := hhash (hadm.hash.trans hparent)
  refine ⟨r, previous, hadm.record, hadm.state, hvalidation, hpassed, hpreview, hadm.design, ?_⟩
  rw [run, bind_pure_snd, commit_of_admitted hadm]
  exact get?_set_self _ _ _

theorem not_commits_after {action₁ action₂ : TransactionAction δ} {pre₁ pre₂ : _} {s₁ s₂ : TransactionSession δ}
    (hpre : pre₁ ++ [action₁] <+: pre₂) (hrun₁ : exec (step fns session_id) s₀ pre₁ = some s₁)
    (hrun₂ : exec (step fns session_id) s₀ pre₂ = some s₂)
    (hcommit : action₁.Commits fns session_id s₁ id) : ¬ action₂.Commits fns session_id s₂ id := by
  obtain ⟨approval_id, r, previous, rfl, -⟩ := commits_iff.mp hcommit
  have hmid : exec (step fns session_id) s₀
      (pre₁ ++ [.commit none id approval_id]) =
        some ((commit none id approval_id).run fns session_id s₁).2 :=
    exec_concat.mpr ⟨s₁, hrun₁, step_eq_some.mpr ⟨rfl, rfl⟩⟩
  obtain ⟨rest, -, hrest⟩ := exec_of_prefix hpre hmid hrun₂
  exact not_commits_of_settled (settled_exec (settled_of_commits hcommit) hrest)

/-- **Safety of transactions**: a run from a session without transactions is safe exactly when none
of its steps is a late fault. -/
theorem transactionSafe_iff (fns : TransactionFunctions δ) (session_id : String)
    (hhash : Function.Injective fns.design_state_hash) (s₀ : TransactionSession δ)
    (hempty : s₀.transactions = empty) (acts : List (TransactionAction δ)) :
    TransactionSafe fns session_id s₀ acts ↔
      Run.EachStep (step fns session_id) s₀ acts fun s action =>
        ¬ LateFault fns s action := by
  constructor
  · intro h pre action hpre s s' hs hstep hlate
    have hfails : action.Fails fns session_id s := fails_of_lateFault hlate
    exact (designs_of_fails_iff hfails).mp (h.failing pre action hpre s s' hs hstep hfails) hlate
  · intro h
    refine ⟨fun pre action id s _ hrun hcommit => commitValid_of_commits hhash hempty hrun hcommit,
      ?_, ?_, fun pre action hpre s s' hs hstep hfails =>
        (designs_of_fails_iff hfails).mpr (h pre action hpre s s' hs hstep)⟩
    · intro pre₁ pre₂ action₁ action₂ id s₁ s₂ hpre₁ hpre₂ hrun₁ hrun₂ hcommit₁ hcommit₂
      -- of two different prefixes the longer one has the commit of the other in it
      rcases lt_trichotomy pre₁.length pre₂.length with hlt | heq | hlt
      · have hpre := prefix_of_prefix_length_le hpre₁ ((prefix_append _ _).trans hpre₂)
          (by rw [length_append]; exact hlt)
        exact absurd hcommit₂ (not_commits_after hpre hrun₁ hrun₂ hcommit₁)
      · exact (append_inj' (prefix_of_prefix_length_le hpre₁ hpre₂ (by simp [heq])
          |>.eq_of_length (by simp [heq])) rfl).1
      · have hpre := prefix_of_prefix_length_le hpre₂ ((prefix_append _ _).trans hpre₁)
          (by rw [length_append]; exact hlt)
        exact absurd hcommit₁ (not_commits_after hpre hrun₂ hrun₁ hcommit₂)
    · intro pre₁ pre₂ action id s₁ s₂ hpre _ hrun₁ hrun₂ hsettled
      obtain ⟨rest, -, hrest⟩ := exec_of_prefix hpre hrun₁ hrun₂
      exact not_commits_of_settled (settled_exec hsettled hrest)

end Provenance

/-! ### Two runs -/

/-- Designs that are the width of their board: an update of the board sets it. -/
def boardFunctions : TransactionFunctions String where
  design_state_hash design := design
  apply_transaction_operation operation params design :=
    if operation = "board_update" then
      match params.getItem "width_mm" with
      | some (.str width_mm) => .ok width_mm
      | _ => .ok design
    else .error s!"Unsupported transaction operation: {operation}"
  diff_designs old new :=
    if old = new then []
    else [⟨"board_changed", "board", "board size changed", some old, some new⟩]
  erc_run _ := ⟨true, 0, 0, 0⟩

/-- A session with one design. -/
def openBoard : TransactionSession String :=
  ⟨empty.set "board" "100", empty, []⟩

/-- A board update is previewed and validated. -/
def previewAndValidate : List (TransactionAction String) :=
  [.preview none "tx-1" "board" "board_update" (.dict [(.str "width_mm", .str "120")]) "wider",
    .validate none "tx-1"]

theorem transactionSafe_previewAndCommit :
    TransactionSafe boardFunctions "s" openBoard
      (previewAndValidate ++ [.commit none "tx-1" "AP-1"]) := by
  refine (transactionSafe_iff boardFunctions "s" (fun _ _ h => h) openBoard rfl _).mpr ?_
  refine .cons id rfl <| .cons id rfl <| .cons ?_ rfl .nil
  rintro ⟨hfault | hfault, -⟩
  · cases hfault
  · cases hfault

/-- The record of the transaction cannot be written: the commit raises, and the board is 120 wide. -/
theorem not_always_transactionSafe :
    ¬ TransactionSafe boardFunctions "s" openBoard
      (previewAndValidate ++ [.commit (some .record) "tx-1" "AP-1"]) := by
  intro h
  have hsame := h.failing previewAndValidate _ prefix_rfl _ _ rfl rfl ⟨.durable, by decide⟩
    "board"
  exact absurd hsame (by decide)

end ZapTrace
