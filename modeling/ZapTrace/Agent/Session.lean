import Mathlib.Logic.Function.Basic
import Mathlib.Data.List.Sort
import ZapTrace.Library.Prog
import ZapTrace.Library.PyValue

/-!
# The parent session and its commit

A session is a dictionary whose `designs` entry is either an ordinary dictionary or a mapping bound
to the durable store. A worker's state is committed by clearing and refilling the session and
replacing the designs of the mapping; when that raises, the previous snapshot is put back by the
same routine.

## Main results

* `restoreSessionState_apply`: what a restore leaves
* `commitSessionState_of_replaceAll_fault`: a store failure leaves the previous designs in an
  ordinary dictionary
* `not_commitFailureSafe_of_replaceAll_fault`: a store failure always loses the durable mapping
-/

namespace ZapTrace

open Prog

open Function (update)

abbrev Designs := String → Option PyValue

/-- The `designs` entry of a session: an ordinary dictionary, or the persistence-backed mapping
of `PersistentDesignDict`, bound to a session of the durable store. -/
inductive DesignMapping
  | dict (items : Designs)
  | persistent (session_id : String) (items : Designs)

/-- The designs a mapping holds in memory. -/
def DesignMapping.items : DesignMapping → Designs
  | .dict items => items
  | .persistent _ items => items

/-- A session: its `designs` entry, absent while a commit refills it, and its other entries. -/
structure Session where
  designs : Option DesignMapping
  entries : String → Option PyValue

/-- `session.get("designs", {})` -/
def Session.getDesigns (session : Session) : DesignMapping :=
  session.designs.getD (.dict fun _ => none)

/-- Two sessions are equal as Python dictionaries: a persistence-backed mapping equals an ordinary
dictionary with the same items. -/
def Session.SameValue (s t : Session) : Prop :=
  s.designs.map DesignMapping.items = t.designs.map DesignMapping.items ∧ s.entries = t.entries

/-- What a commit can touch: one parent session, whether it was destroyed, and the durable design
heads of every session. -/
structure ParentState where
  session : Session
  destroyed : Bool
  heads : String → Designs

/-- Where a commit can raise: cloning the session, merging the audit events, or replacing the
designs in the durable store. -/
inductive SessionFault
  | clone (e : PyError)
  | merge (e : PyError)
  | replaceAll (e : PyError)
deriving DecidableEq

/-! ## Audit events -/

section Audit

variable (py : PyText)

/-- `_audit_event_identity`: a stable identity for audit de-duplication. -/
def auditEventIdentity (event : PyValue) : String :=
  match event.getItem "event_id" with
  | some event_id => if event_id.truthy then py.str event_id else py.repr event
  | none => py.repr event

/-- One collection of `_unique_audit_events`: the events whose identity was not seen before. -/
def collectUnique : List PyValue → List PyValue × List String → List PyValue × List String
  | [], acc => acc
  | event :: events, (combined, seen) =>
    if auditEventIdentity py event ∈ seen then collectUnique events (combined, seen)
    else collectUnique events (combined ++ [event], auditEventIdentity py event :: seen)

/-- `_unique_audit_events`: a collection that is not a list is skipped. -/
def uniqueAuditEvents (collections : List PyValue) : List PyValue :=
  (collections.foldl (fun acc collection =>
    match collection with
    | .list events => collectUnique py events acc
    | _ => acc) ([], [])).1

def eventTimestamp (event : PyValue) : Option String :=
  match event.getItem "timestamp" with
  | some (.str timestamp) => some timestamp
  | _ => none

/-- `_merge_audit_events`: the unique events, sorted when every one carries a timestamp. -/
def mergeAuditEvents (incoming current : PyValue) : List PyValue :=
  let combined := uniqueAuditEvents py [incoming, current]
  if combined.all fun event => (eventTimestamp event).isSome then
    combined.mergeSort fun a b => (eventTimestamp a).getD "" ≤ (eventTimestamp b).getD ""
  else combined

end Audit

/-! ## Replacing the state of a session -/

/-- `_get_session` for a session that is loaded: a destroyed session raises
`SessionDestroyedError`. -/
def getSession : Prog ParentState PyError Session := do
  let parent ← get
  if parent.destroyed then raise .runtimeError else pure parent.session

/-- `_clone_session_state`: the clone holds its designs in an ordinary dictionary. -/
def cloneSessionState (session : Session) : Session where
  designs := some (.dict session.getDesigns.items)
  entries := session.entries

/-- `PersistentDesignDict.replace_all`: the durable heads are replaced in one transaction, which
raises without effect, and then the mapping is refilled. -/
def replaceAll (fault : Option SessionFault) (session_id : String) (designs : Designs) :
    Prog ParentState PyError DesignMapping :=
  match fault with
  | some (.replaceAll e) => raise e
  | _ => do
    modify fun parent => { parent with heads := update parent.heads session_id designs }
    pure (.persistent session_id designs)

/-- The entries that replace those of the session: the incoming ones, with the audit events of
both when they are merged. -/
def replacementEntries (py : PyText) (current incoming : Session) (merge_current_audit : Bool) :
    String → Option PyValue :=
  let merged := mergeAuditEvents py ((incoming.entries "audit_events").getD (.list []))
    ((current.entries "audit_events").getD (.list []))
  if merge_current_audit ∧ merged ≠ [] then
    update incoming.entries "audit_events" (some (.list merged))
  else incoming.entries

/-- `_replace_session_state`: the session is cleared and refilled before its designs are replaced,
so that it has no `designs` entry while the store is written. A mapping that persists but cannot
replace all designs at once does not exist among the mapping types of the repository. -/
def replaceSessionState (py : PyText) (fault : Option SessionFault) (incoming : Session)
    (merge_current_audit : Bool) : Prog ParentState PyError Unit := do
  let current ← getSession
  match fault with
  | some (.merge e) => raise e
  | _ =>
    modify fun parent =>
      { parent with session := ⟨none, replacementEntries py current incoming merge_current_audit⟩ }
    let designs ← match current.getDesigns with
      | .persistent session_id _ => replaceAll fault session_id incoming.getDesigns.items
      | .dict _ => pure (.dict incoming.getDesigns.items)
    modify fun parent =>
      { parent with session := { parent.session with designs := some designs } }

/-- `_restore_session_state`: a failure of the restore is reported as a `RuntimeError`. -/
def restoreSessionState (py : PyText) (fault : Option SessionFault) (previous : Session) :
    Prog ParentState PyError Unit :=
  tryExcept (replaceSessionState py fault previous false) (fun _ => true) fun _ =>
    raise .runtimeError

/-- `_commit_session_state`: commit a worker snapshot and return the exact prior parent state. The
restore after a failed commit meets no second failure. -/
def commitSessionState (py : PyText) (fault : Option SessionFault) (incoming : Session) :
    Prog ParentState PyError Session := do
  let current ← getSession
  match fault with
  | some (.clone e) => raise e
  | _ =>
    let previous := cloneSessionState current
    tryExcept (replaceSessionState py fault incoming true) (fun _ => true) fun e => do
      restoreSessionState py none previous
      raise e
    pure previous

/-! ## What a replacement leaves -/

section Replace

variable (py : PyText)

/-- The state a replacement leaves when nothing raises: the mapping keeps its kind, and the durable
heads follow a persistence-backed one. -/
def replacedState (parent : ParentState) (incoming : Session) (merge_current_audit : Bool) :
    ParentState :=
  let entries := replacementEntries py parent.session incoming merge_current_audit
  match parent.session.getDesigns with
  | .persistent session_id _ =>
    { parent with
      session := ⟨some (.persistent session_id incoming.getDesigns.items), entries⟩
      heads := update parent.heads session_id incoming.getDesigns.items }
  | .dict _ => { parent with session := ⟨some (.dict incoming.getDesigns.items), entries⟩ }

variable {py} {parent : ParentState} {incoming : Session}

theorem getSession_apply (hlive : parent.destroyed = false) :
    getSession parent = (.ok parent.session, parent) := by
  simp [getSession, hlive]

theorem getSession_of_destroyed (h : parent.destroyed = true) :
    getSession parent = (.error .runtimeError, parent) := by
  simp [getSession, h]

theorem replaceSessionState_apply (hlive : parent.destroyed = false) {fault : Option SessionFault}
    (hm : ∀ e, fault ≠ some (.merge e))
    (hr : ∀ e session_id items, fault = some (.replaceAll e) →
      parent.session.getDesigns ≠ .persistent session_id items)
    (merge_current_audit : Bool) :
    replaceSessionState py fault incoming merge_current_audit parent =
      (.ok (), replacedState py parent incoming merge_current_audit) := by
  rw [replaceSessionState, bind_of_ok (getSession_apply hlive)]
  split
  · exact absurd rfl (hm _)
  · cases hd : parent.session.getDesigns with
    | dict items => simp [replacedState, hd]
    | persistent session_id items =>
      have hall : ∀ e, fault ≠ some (.replaceAll e) := fun e he => hr e _ _ he hd
      have hreplace : replaceAll fault session_id incoming.getDesigns.items =
          (do
            modify fun parent =>
              { parent with heads := update parent.heads session_id incoming.getDesigns.items }
            pure (.persistent session_id incoming.getDesigns.items)) := by
        unfold replaceAll
        split
        · exact absurd rfl (hall _)
        · rfl
      simp only [hreplace]
      simp [replacedState, hd]

theorem replaceSessionState_of_merge_fault (hlive : parent.destroyed = false) (e : PyError)
    (merge_current_audit : Bool) :
    replaceSessionState py (some (.merge e)) incoming merge_current_audit parent =
      (.error e, parent) := by
  rw [replaceSessionState, bind_of_ok (getSession_apply hlive)]
  rfl

theorem replaceSessionState_of_replaceAll_fault (hlive : parent.destroyed = false) (e : PyError)
    {session_id : String} {items : Designs}
    (hd : parent.session.getDesigns = .persistent session_id items) (merge_current_audit : Bool) :
    replaceSessionState py (some (.replaceAll e)) incoming merge_current_audit parent =
      (.error e, { parent with
        session := ⟨none, replacementEntries py parent.session incoming merge_current_audit⟩ }) := by
  rw [replaceSessionState, bind_of_ok (getSession_apply hlive)]
  simp only [modify_bind, hd]
  rfl

@[simp] theorem replacedState_destroyed (merge_current_audit : Bool) :
    (replacedState py parent incoming merge_current_audit).destroyed = parent.destroyed := by
  unfold replacedState
  cases parent.session.getDesigns <;> rfl

theorem replacedState_designs (merge_current_audit : Bool) :
    (replacedState py parent incoming merge_current_audit).session.designs.map
      DesignMapping.items = some incoming.getDesigns.items := by
  unfold replacedState
  cases parent.session.getDesigns <;> rfl

theorem replacedState_entries (merge_current_audit : Bool) :
    (replacedState py parent incoming merge_current_audit).session.entries =
      replacementEntries py parent.session incoming merge_current_audit := by
  unfold replacedState
  cases parent.session.getDesigns <;> rfl

theorem restoreSessionState_apply (hlive : parent.destroyed = false) (previous : Session) :
    restoreSessionState py none previous parent =
      (.ok (), replacedState py parent previous false) :=
  tryExcept_of_ok (replaceSessionState_apply hlive (by simp) (by simp) false)

theorem sameValue_replacedState_clone {session : Session} (hd : session.designs.isSome) :
    (replacedState py parent (cloneSessionState session) false).session.SameValue session := by
  obtain ⟨designs, hd⟩ := Option.isSome_iff_exists.mp hd
  refine ⟨?_, ?_⟩
  · rw [replacedState_designs]
    simp [cloneSessionState, Session.getDesigns, DesignMapping.items, hd]
  · rw [replacedState_entries]
    simp [replacementEntries, cloneSessionState]

end Replace

/-! ## What a commit leaves -/

section Commit

variable {py : PyText} {parent : ParentState} {incoming : Session}

theorem commitSessionState_of_destroyed (h : parent.destroyed = true)
    (fault : Option SessionFault) :
    commitSessionState py fault incoming parent = (.error .runtimeError, parent) := by
  rw [commitSessionState, bind_of_error (getSession_of_destroyed h)]

theorem commitSessionState_apply (hlive : parent.destroyed = false) {fault : Option SessionFault}
    (hc : ∀ e, fault ≠ some (.clone e)) (hm : ∀ e, fault ≠ some (.merge e))
    (hr : ∀ e session_id items, fault = some (.replaceAll e) →
      parent.session.getDesigns ≠ .persistent session_id items) :
    commitSessionState py fault incoming parent =
      (.ok (cloneSessionState parent.session), replacedState py parent incoming true) := by
  rw [commitSessionState, bind_of_ok (getSession_apply hlive)]
  split
  · exact absurd rfl (hc _)
  · rw [bind_of_ok (tryExcept_of_ok (replaceSessionState_apply hlive hm hr true))]
    rfl

theorem commitSessionState_of_clone_fault (hlive : parent.destroyed = false) (e : PyError) :
    commitSessionState py (some (.clone e)) incoming parent = (.error e, parent) := by
  rw [commitSessionState, bind_of_ok (getSession_apply hlive)]
  rfl

theorem commitSessionState_of_error (hlive : parent.destroyed = false) {fault : Option SessionFault}
    (hc : ∀ e, fault ≠ some (.clone e)) {e : PyError} {half : ParentState}
    (hhalf : half.destroyed = false)
    (hrun : replaceSessionState py fault incoming true parent = (.error e, half)) :
    commitSessionState py fault incoming parent =
      (.error e, replacedState py half (cloneSessionState parent.session) false) := by
  rw [commitSessionState, bind_of_ok (getSession_apply hlive)]
  split
  · exact absurd rfl (hc _)
  · rw [bind_of_error]
    rw [tryExcept_of_error hrun rfl, bind_of_ok (restoreSessionState_apply hhalf _)]
    rfl

theorem commitSessionState_of_merge_fault (hlive : parent.destroyed = false) (e : PyError) :
    commitSessionState py (some (.merge e)) incoming parent =
      (.error e, replacedState py parent (cloneSessionState parent.session) false) :=
  commitSessionState_of_error hlive (by simp) hlive (replaceSessionState_of_merge_fault hlive e _)

/-- **A store failure demotes the mapping**: the restore finds no `designs` entry, takes the
default of `session.get("designs", {})` for the current mapping, and leaves the previous designs
in an ordinary dictionary. -/
theorem commitSessionState_of_replaceAll_fault (hlive : parent.destroyed = false) (e : PyError)
    {session_id : String} {items : Designs}
    (hd : parent.session.designs = some (.persistent session_id items)) :
    commitSessionState py (some (.replaceAll e)) incoming parent =
      (.error e, { parent with session := ⟨some (.dict items), parent.session.entries⟩ }) := by
  have hget : parent.session.getDesigns = .persistent session_id items := by
    simp [Session.getDesigns, hd]
  rw [commitSessionState_of_error hlive (by simp) (by exact hlive)
    (replaceSessionState_of_replaceAll_fault hlive e hget true)]
  simp [replacedState, replacementEntries, cloneSessionState, Session.getDesigns,
    DesignMapping.items, hd]

theorem commitSessionState_heads_of_dict (hlive : parent.destroyed = false) {items : Designs}
    (hd : parent.session.designs = some (.dict items)) :
    (commitSessionState py none incoming parent).2.heads = parent.heads := by
  rw [commitSessionState_apply hlive (by simp) (by simp) (by simp)]
  simp [replacedState, Session.getDesigns, hd]

/-- A failed commit leaves the session with its mapping and the durable heads as they were, and
the next successful commit of the session reaches the store. -/
def CommitFailureSafe (py : PyText) (session_id : String) (before after : ParentState) : Prop :=
  after.session = before.session ∧ after.heads = before.heads ∧
    ∀ incoming, (commitSessionState py none incoming after).1.isOk →
      (commitSessionState py none incoming after).2.heads session_id = incoming.getDesigns.items

/-- **A store failure during a commit always loses the durable mapping**: whatever the session,
the incoming state and the exception, the session keeps its values and the store its heads, but
the session is no longer bound to the store. -/
theorem not_commitFailureSafe_of_replaceAll_fault (py : PyText) (parent : ParentState)
    (session_id : String) (items : Designs) (incoming : Session) (e : PyError)
    (hlive : parent.destroyed = false)
    (hd : parent.session.designs = some (.persistent session_id items)) :
    let failed := commitSessionState py (some (.replaceAll e)) incoming parent
    failed.1 = .error e ∧ failed.2.session.SameValue parent.session ∧
      failed.2.heads = parent.heads ∧ ¬ CommitFailureSafe py session_id parent failed.2 := by
  rw [commitSessionState_of_replaceAll_fault hlive e hd]
  refine ⟨rfl, ⟨by simp [hd, DesignMapping.items], rfl⟩, rfl, ?_⟩
  rintro ⟨hsession, -, -⟩
  have hdesigns := congrArg Session.designs hsession
  simp [hd] at hdesigns

/-- A session bound to the store under the name `s`, with no designs yet. -/
def freshParentState : ParentState where
  session := ⟨some (.persistent "s" fun _ => none), fun _ => none⟩
  destroyed := false
  heads := fun _ _ => none

/-- An incoming worker state with one design named `board`. -/
def boardSession : Session where
  designs := some (.dict (update (fun _ => none) "board" (some (.str "design"))))
  entries := fun _ => none

theorem not_commitFailureSafe_freshParentState :
    let py : PyText := ⟨fun _ => "", fun _ => ""⟩
    let failed := commitSessionState py (some (.replaceAll .runtimeError)) boardSession
      freshParentState
    failed.1 = .error .runtimeError ∧
      failed.2.session.SameValue freshParentState.session ∧
      failed.2.heads = freshParentState.heads ∧
      ¬ CommitFailureSafe py "s" freshParentState failed.2 :=
  not_commitFailureSafe_of_replaceAll_fault _ freshParentState "s" (fun _ => none) boardSession
    .runtimeError rfl rfl

/-- After a failed commit the worker state of the next, successful commit never reaches the
store. -/
theorem retry_not_durable :
    let py : PyText := ⟨fun _ => "", fun _ => ""⟩
    let failed := (commitSessionState py (some (.replaceAll .runtimeError)) boardSession
      freshParentState).2
    let retried := commitSessionState py none boardSession failed
    retried.1.isOk ∧ retried.2.heads "s" ≠ boardSession.getDesigns.items ∧
      ¬ CommitFailureSafe py "s" freshParentState failed := by
  intro py failed retried
  have hfailed : failed = { freshParentState with
      session := ⟨some (.dict fun _ => none), freshParentState.session.entries⟩ } :=
    congrArg Prod.snd (commitSessionState_of_replaceAll_fault rfl .runtimeError rfl)
  have hok : retried.1.isOk := by
    simp only [retried]
    rw [hfailed, commitSessionState_apply rfl (by simp) (by simp) (by simp)]
    rfl
  have hheads : retried.2.heads "s" ≠ boardSession.getDesigns.items := by
    simp only [retried]
    rw [hfailed, commitSessionState_heads_of_dict rfl rfl]
    intro h
    have hboard := congrFun h "board"
    simp [freshParentState, boardSession, Session.getDesigns, DesignMapping.items] at hboard
  exact ⟨hok, hheads, fun hsafe => hheads (hsafe.2.2 boardSession hok)⟩

end Commit

end ZapTrace
