import ZapTrace.Review.Processes
import ZapTrace.Security.ObjectWriteFailures

/-!
# Failed writes of the security stores

The operations on review sessions and on access records change the memory of the process before they
write to the durable store. When that write fails, the caller is told so, and the change stays in the
memory. It does not only where the operation finds in the memory what it was going to put there.

## Main results

* `ReviewCall.after_eq_self_iff`: a call that writes what is there
* `failed_write_keeps_memory_iff`: a failed write leaves the memory as it was exactly for the operations
  that are harmless
-/

namespace ZapTrace.Review

open Prog AccessState Faulty ReviewCall

open Faulty (lift)

/-! ## Calls that change nothing -/

/-- The item has already what the operation writes to it. -/
def RepeatsItem (status : ChecklistStatus) (notes : Option String) (item_id decided_by reason : String)
    (drawn : Drawn) (session : ReviewSession) : Prop :=
  session.updated_at = drawn.later ∧ ∃ item, session.checklist.get? item_id = some item ∧
    item.status = status ∧ item.decided_by = decided_by ∧ item.decided_at = drawn.now ∧ item.reason = reason ∧
    ∀ n ∈ notes, item.waiver_notes = n

/-- The session has already what a call writes to it. A decision is never there already. -/
def ReviewCall.Repeats : ReviewCall → ReviewSession → Prop
  | .approve item_id decided_by reason drawn, session =>
    RepeatsItem .approved none item_id decided_by reason drawn session
  | .reject item_id decided_by reason drawn, session =>
    RepeatsItem .rejected none item_id decided_by reason drawn session
  | .waive item_id decided_by reason waiver_notes drawn, session =>
    RepeatsItem .waived (some waiver_notes) item_id decided_by reason drawn session
  | .resolve .., _ => False

theorem withItem_eq_self_iff {session : ReviewSession} {item_id later : String} {item : HumanChecklistItem} :
    withItem session item_id item later = session ↔
      session.updated_at = later ∧ session.checklist.get? item_id = some item := by
  constructor
  · intro h
    exact ⟨(congrArg ReviewSession.updated_at h).symm,
      Dict.set_eq_self_iff.mp (congrArg ReviewSession.checklist h)⟩
  · rintro ⟨rfl, hitem⟩
    rw [withItem, Dict.set_eq_self_iff.mpr hitem]

theorem decidedItem_eq_self_iff {item : HumanChecklistItem} {status : ChecklistStatus} {notes : Option String}
    {decided_by reason : String} {drawn : Drawn} :
    decidedItem item status notes decided_by reason drawn = item ↔
      item.status = status ∧ item.decided_by = decided_by ∧ item.decided_at = drawn.now ∧ item.reason = reason ∧
        ∀ n ∈ notes, item.waiver_notes = n := by
  constructor
  · intro h
    rw [← h]
    refine ⟨rfl, rfl, rfl, rfl, fun n hn => ?_⟩
    rw [Option.mem_def] at hn
    simp [decidedItem, hn]
  · rintro ⟨rfl, rfl, hat, rfl, hnotes⟩
    cases notes with
    | none => rw [decidedItem, ← hat]; rfl
    | some n => rw [decidedItem, ← hat, Option.getD_some, ← hnotes n rfl]
variable {session session' : ReviewSession}

theorem decideItem_after_eq_self_iff {status : ChecklistStatus} {notes : Option String}
    {item_id decided_by reason : String} {drawn : Drawn}
    (h : Prod.snd <$> ((fun _ => ()) <$> decideItem status notes item_id decided_by reason drawn).run session = .ok session') :
    session' = session ↔ RepeatsItem status notes item_id decided_by reason drawn session := by
  obtain ⟨decided, hrun⟩ := run_discard.mp h
  obtain ⟨-, item, hitem, rfl, rfl⟩ := decideItem_eq_ok_iff.mp hrun
  rw [withItem_eq_self_iff, hitem, Option.some.injEq, eq_comm (a := item), decidedItem_eq_self_iff, RepeatsItem, hitem]
  constructor
  · rintro ⟨hlater, hsame⟩
    exact ⟨hlater, item, rfl, hsame⟩
  · rintro ⟨hlater, found, hfound, hsame⟩
    obtain rfl : item = found := Option.some.inj hfound
    exact ⟨hlater, hsame⟩

theorem ReviewCall.run_eq_self_iff {c : ReviewCall} (h : c.run session = .ok session') :
    session' = session ↔ c.Repeats session := by
  cases c with
  | approve item_id decided_by reason drawn => exact decideItem_after_eq_self_iff h
  | reject item_id decided_by reason drawn => exact decideItem_after_eq_self_iff h
  | waive item_id decided_by reason waiver_notes drawn => exact decideItem_after_eq_self_iff h
  | resolve decision decided_by reason waiver_notes drawn =>
    obtain ⟨recorded, hrun⟩ := run_discard.mp h
    obtain ⟨-, -, -, -, -, rfl⟩ := resolveDecision_eq_ok_iff.mp hrun
    refine iff_of_false (fun hsame => ?_) id
    have hlength := congrArg (fun s => s.decisions.length) hsame
    simp [withDecision] at hlength

/-! ## The store of reviews -/

/-- The sessions in memory, and the durable ones unless persistence is disabled. -/
structure ReviewTables where
  sessions : Dict String ReviewSession := Dict.empty
  records : Option (Dict (String × String) ReviewSession)

/-- An operation on the sessions whose durable writes may fail. -/
abbrev ReviewStoreOp := Prog (Faulty ReviewTables) (Raised ReviewError)

/-- `persist_review_session`, whose write may fail. -/
def persist (session : ReviewSession) : ReviewStoreOp Unit := do
  let t ← get
  if session.design_session_id ≠ "" ∧ t.state.records.isSome then
    Faulty.write fun t => { t with records := t.records.map (persistReviewSession session) }
  else pure ()

/-- An operation on the sessions: a new session, or a call on a session in memory. -/
inductive ReviewMutation
  | create (args : CreateArgs)
  | call (session_id : String) (c : ReviewCall)

namespace ReviewMutation

/-- The operation. The session of a call is mutated before it is persisted. -/
def run : ReviewMutation → ReviewStoreOp Unit
  | create args => do
    let session := createReviewSession args
    lift (modify fun t => { t with sessions := t.sessions.set session.session_id session })
    persist session
  | call session_id c => do
    let t ← get
    match t.state.sessions.get? session_id with
    | none => pure ()
    | some session => do
      let changed ← lift (ofExcept (c.run session))
      lift (modify fun t => { t with sessions := t.sessions.set session_id changed })
      persist changed

/-- The operation has no durable write, or nothing to change in memory. -/
def Harmless : ReviewMutation → ReviewTables → Prop
  | create args, t =>
    t.records = none ∨ args.design_session_id = "" ∨
      t.sessions.get? (createReviewSession args).session_id = some (createReviewSession args)
  | call session_id c, t => ∀ session, t.sessions.get? session_id = some session → c.Admitted session →
      t.records = none ∨ session.design_session_id = "" ∨ c.Repeats session

end ReviewMutation

/-- A session is put into memory and persisted: a failed write leaves the memory as it was exactly when
there is no durable write or the session is there already. -/
theorem keeps_put_iff (session_id : String) (session : ReviewSession) (t : ReviewTables) :
    Faulty.Keeps ReviewTables.sessions (do
      lift (modify fun t => { t with sessions := t.sessions.set session_id session })
      persist session) t ↔
      t.records = none ∨ session.design_session_id = "" ∨ t.sessions.get? session_id = some session := by
  have hrun : ∀ failures, (do
      lift (modify fun t => { t with sessions := t.sessions.set session_id session })
      persist session : ReviewStoreOp Unit) ⟨t, failures⟩ =
        persist session ⟨{ t with sessions := t.sessions.set session_id session }, failures⟩ :=
    fun failures => bind_of_ok (lift_of_ok (modify_apply _ _))
  constructor
  · intro hkeep
    by_contra hnot
    rw [not_or, not_or] at hnot
    obtain ⟨hrecords, hparent, hthere⟩ := hnot
    have hfail : persist session ⟨{ t with sessions := t.sessions.set session_id session }, [true]⟩ =
        (.error .storage, ⟨{ t with sessions := t.sessions.set session_id session }, []⟩) := by
      simp [persist, hparent, Option.isSome_iff_ne_none.mpr hrecords, Faulty.write]
    exact hthere (Dict.set_eq_self_iff.mp (hkeep [true] _ ((hrun [true]).trans hfail)))
  · intro hharmless failures t' ht'
    rw [hrun] at ht'
    by_cases hwrites : session.design_session_id ≠ "" ∧ t.records.isSome = true
    · -- the session is there already
      have hsame : t.sessions.set session_id session = t.sessions := by
        rcases hharmless with hrecords | hparent | hthere
        · rw [hrecords] at hwrites
          cases hwrites.2
        · exact absurd hparent hwrites.1
        · exact Dict.set_eq_self_iff.mpr hthere
      rw [hsame] at ht'
      have hquiet : Prog.Triple (fun u : Faulty ReviewTables => u.state.sessions = t.sessions) (persist session)
          (fun _ u => u.state.sessions = t.sessions) fun _ u => u.state.sessions = t.sessions := by
        apply Prog.Triple.get_bind
        intro u hu
        split
        · have hwrite := write_triple (ε := ReviewError)
            (f := fun t : ReviewTables => { t with records := t.records.map (persistReviewSession session) })
            (P := fun v => v.sessions = t.sessions) (Q := fun v => v.sessions = t.sessions)
            (E := fun _ v => v.state.sessions = t.sessions) (fun _ hv => hv) fun _ hv => hv
          exact hwrite.pre fun v hv => by rw [hv]; exact hu
        · exact fun v hv => by rw [hv]; exact hu
      exact hquiet.of_error rfl ht'
    · have hnone : persist session ⟨{ t with sessions := t.sessions.set session_id session }, failures⟩ =
          (.ok (), ⟨{ t with sessions := t.sessions.set session_id session }, failures⟩) := by
        unfold persist
        rw [get_bind]
        rw [if_neg hwrites]
        rfl
      rw [hnone] at ht'
      cases ht'

theorem ReviewCall.design_session_id_of_run {c : ReviewCall} (h : c.run session = .ok session') :
    session'.design_session_id = session.design_session_id := by
  have := (ids_after c session).2
  rwa [after, h] at this

theorem ReviewMutation.keeps_iff (m : ReviewMutation) (t : ReviewTables) :
    Faulty.Keeps ReviewTables.sessions m.run t ↔ m.Harmless t := by
  cases m with
  | create args => exact keeps_put_iff _ (createReviewSession args) t
  | call session_id c =>
    cases hsession : t.sessions.get? session_id with
    | none =>
      refine iff_of_true (fun failures t' ht' => ?_) fun session h => ?_
      · have hrun : (ReviewMutation.call session_id c).run ⟨t, failures⟩ = (.ok (), ⟨t, failures⟩) := by
          rw [run, get_bind, hsession]
          rfl
        rw [hrun] at ht'
        cases ht'
      · rw [hsession] at h
        cases h
    | some session =>
      have hharmless : (ReviewMutation.call session_id c).Harmless t ↔ (c.Admitted session →
          t.records = none ∨ session.design_session_id = "" ∨ c.Repeats session) := by
        simp only [Harmless, hsession, Option.some.injEq, forall_eq']
      rw [hharmless]
      rcases Raising.error_or_ok (c.run session) with ⟨e, hraise⟩ | ⟨changed, hrun⟩
      · refine iff_of_true (fun failures t' ht' => ?_) fun hadmitted => ?_
        · have hrefused : (ReviewMutation.call session_id c).run ⟨t, failures⟩ =
              (.error (.refused e), ⟨t, failures⟩) := by
            rw [run, get_bind, hsession]
            exact bind_of_error (lift_of_error (by rw [hraise]; rfl))
          rw [hrefused] at ht'
          cases ht'
        · obtain ⟨session', hok⟩ := run_eq_ok_iff.mpr hadmitted
          rw [hraise] at hok
          cases hok
      · have hput : Faulty.Keeps ReviewTables.sessions (ReviewMutation.call session_id c).run t ↔
            Faulty.Keeps ReviewTables.sessions (do
              lift (modify fun t => { t with sessions := t.sessions.set session_id changed })
              persist changed) t := by
          have hmutate : ∀ failures, (ReviewMutation.call session_id c).run ⟨t, failures⟩ = (do
              lift (modify fun t => { t with sessions := t.sessions.set session_id changed })
              persist changed : ReviewStoreOp Unit) ⟨t, failures⟩ := by
            intro failures
            rw [run, get_bind, hsession]
            exact bind_of_ok (lift_of_ok (by rw [hrun]; rfl))
          simp only [Faulty.Keeps, hmutate]
        rw [hput, keeps_put_iff, design_session_id_of_run hrun, hsession, Option.some.injEq,
          eq_comm (a := session), run_eq_self_iff hrun]
        exact ⟨fun h _ => h, fun h => h (run_eq_ok_iff.mp ⟨changed, hrun⟩)⟩

/-! ## Both stores -/

open ObjectWrites (HasNoEffect)

variable {τ : Type}

/-- An operation on the access records. -/
inductive AccessMutation (τ : Type)
  | claim (key : ObjectKey) (args : AuthorizeArgs τ)
  | delegate (key : ObjectKey) (args : DelegateArgs τ)
  | revoke (key : ObjectKey) (args : DelegateArgs τ)
  | remove (key : ObjectKey) (cascade : Bool)

namespace AccessMutation

/-- The operation, when authorization may go to the depth. -/
def run (depth : ℕ) : AccessMutation τ → AccessState τ → ObjectWrites.AccessOp τ Unit
  | claim key args, _ => (fun _ => ()) <$> ObjectWrites.authorizeObject (depth + 1) key args
  | delegate key args, _ => (fun _ => ()) <$> ObjectWrites.delegateObjectAccess (depth + 1) key args
  | revoke key args, _ => (fun _ => ()) <$> ObjectWrites.revokeObjectAccess key args
  | remove key cascade, s => ObjectWrites.removeObjectAccess cascade (s.cache.keys.length + 1) key

/-- An authorization is a claim. -/
def Applies : AccessMutation τ → AccessState τ → Prop
  | claim key args, s => Claims s key args
  | delegate .., _ | revoke .., _ | remove .., _ => True

/-- The operation has no durable write, or nothing to change in memory. -/
def Harmless : AccessMutation τ → AccessState τ → Prop
  | claim _ _, s => s.store = none
  | delegate key args, s => HasNoEffect delegation key args s
  | revoke key args, s => HasNoEffect revocation key args s
  | remove key cascade, s => s.store = none ∨ s.cache.get? key = none ∧
      (cascade = true → Links.children (fun record => some record.parentKey) s.cache key = [])

end AccessMutation

theorem AccessMutation.keeps_iff (depth : ℕ) {m : AccessMutation τ} {s : AccessState τ} (h : m.Applies s) :
    Faulty.Keeps cache (m.run depth s) s ↔ m.Harmless s := by
  cases m with
  | claim key args => exact keeps_map_iff.trans (ObjectWrites.keeps_claim_iff depth h)
  | delegate key args => exact keeps_map_iff.trans ObjectWrites.keeps_delegateObjectAccess_iff
  | revoke key args => exact keeps_map_iff.trans ObjectWrites.keeps_revokeObjectAccess_iff
  | remove key cascade => exact ObjectWrites.keeps_removeObjectAccess_iff

/-- A durable write that fails inside an operation leaves the memory as it was before, whichever write it
is, exactly for the operations that have no durable write or nothing to change in memory. -/
theorem failed_write_keeps_memory_iff (depth : ℕ) :
    (∀ (m : ReviewMutation) (t : ReviewTables), Faulty.Keeps ReviewTables.sessions m.run t ↔ m.Harmless t) ∧
    ∀ (m : AccessMutation τ) (s : AccessState τ), m.Applies s →
      (Faulty.Keeps cache (m.run depth s) s ↔ m.Harmless s) :=
  ⟨fun m t => m.keeps_iff t, fun _ _ h => AccessMutation.keeps_iff depth h⟩

/-- A claim on an object without a record, in a new process without persistence. -/
theorem failed_write_keeps_memory_iff_transient :
    Faulty.Keeps cache ((AccessMutation.claim ⟨"design", "d1"⟩
      { principal := { principal_id := "eve", actor := "eve" }, action := "write", request_id := "r"
        allow_claim := true, now := 0 }).run 0 (init ℕ false)) (init ℕ false) := by
  refine ((failed_write_keeps_memory_iff (τ := ℕ) 0).2 _ _ ?_).mpr ?_
  · exact ⟨rfl, by decide, rfl⟩
  · exact (rfl : (init ℕ false).store = none)

/-- The store of a process that has made a review and persisted it. -/
def savedReview : ReviewTables := ((ReviewMutation.create boardReview).run ⟨{ records := some Dict.empty }, []⟩).2.state

def approveSimulation : ReviewMutation := .call "session-t" (.approve "simulation-review" "eve" "ok" ⟨"2", "2", "", ""⟩)

/-- The status of the item of the review in memory. -/
def simulationStatus (t : ReviewTables) : Option ChecklistStatus :=
  (t.sessions.get? "session-t").bind fun session =>
    (session.checklist.get? "simulation-review").map HumanChecklistItem.status

/-- The approval fails, and the item is approved in memory all the same. -/
theorem approved_after_failed_write :
    ∃ t', approveSimulation.run ⟨savedReview, [true]⟩ = (.error .storage, t') ∧
      simulationStatus savedReview = some .pending ∧ simulationStatus t'.state = some .approved :=
  ⟨_, rfl, by decide, by decide⟩

end ZapTrace.Review
