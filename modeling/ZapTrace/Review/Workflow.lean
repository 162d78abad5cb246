import ZapTrace.Library.Dict
import ZapTrace.Library.PyValue
import ZapTrace.Library.Raising
import ZapTrace.Security.Release

/-!
# The review workflow

A review session has a checklist, whose items are approved, rejected or waived, until one decision on
the whole review is recorded. What a call draws from the clock and from the generator of tokens is given
to it. The labels and descriptions of the items, which no check reads, are left out.

## Main results

* `decideItem_eq_ok_iff`, `resolveDecision_eq_ok_iff`: when an operation returns, and what it leaves
* `ReviewCall.run_eq_ok_iff`: a call returns exactly when it is admitted
* `ReviewCall.run_cases`: a call that returns found the session open
-/

namespace ZapTrace.Review

inductive ChecklistStatus
  | pending
  | approved
  | rejected
  | waived
deriving DecidableEq

inductive ReviewStatus
  | human_review_required
  | human_approved
  | rejected
  | repair_requested
  | risk_accepted
  | rolled_back
deriving DecidableEq

structure HumanChecklistItem where
  item_id : String
  panel_id : String
  status : ChecklistStatus := .pending
  decided_by : String := ""
  decided_at : String := ""
  reason : String := ""
  waiver_notes : String := ""
  is_blocking : Bool := true
deriving DecidableEq

structure ReviewDecision where
  decision_id : String
  review_session_id : String
  design_name : String
  design_state_hash : String
  transaction_id : String := ""
  decision : DecisionType
  decided_by : String
  decided_at : String := ""
  reason : String := ""
  waiver_notes : String := ""
  checklist_results : Dict String ChecklistStatus := Dict.empty
  approval_id : String := ""

structure ReviewSession where
  session_id : String
  design_name : String
  design_state_hash : String := ""
  design_session_id : String := ""
  owner_principal : String := ""
  checklist : Dict String HumanChecklistItem := Dict.empty
  decisions : List ReviewDecision := []
  created_at : String := ""
  updated_at : String := ""
  finalized_at : String := ""

def decisionStatus : DecisionType → ReviewStatus
  | .approve => .human_approved
  | .reject => .rejected
  | .request_repair => .repair_requested
  | .accept_risk => .risk_accepted
  | .rollback => .rolled_back

namespace ReviewSession

variable (session : ReviewSession)

def allApproved : Bool :=
  session.checklist.values.all fun item =>
    !item.is_blocking || item.status = .approved || item.status = .waived

def anyRejected : Bool := session.checklist.values.any fun item => item.status = .rejected

def anyWaived : Bool := session.checklist.values.any fun item => item.status = .waived

def latestDecision : Option ReviewDecision := session.decisions.getLast?

def finalized : Bool := session.finalized_at ≠ "" || !session.decisions.isEmpty

def status : ReviewStatus :=
  match session.latestDecision with
  | none => .human_review_required
  | some latest => decisionStatus latest.decision

/-- The statuses of the items, as a decision keeps them. -/
def checklistResults : Dict String ChecklistStatus :=
  session.checklist.mapValues HumanChecklistItem.status

theorem finalized_eq_false_iff : session.finalized = false ↔ session.finalized_at = "" ∧ session.decisions = [] := by
  simp [finalized]

theorem allApproved_iff : session.allApproved = true ↔ ∀ item ∈ session.checklist.values,
    item.is_blocking = true → item.status = .approved ∨ item.status = .waived := by
  simp only [allApproved, List.all_eq_true, Bool.or_eq_true, Bool.not_eq_true', decide_eq_true_eq]
  refine forall₂_congr fun item _ => ?_
  cases item.is_blocking <;> simp

theorem anyRejected_eq_false_iff :
    session.anyRejected = false ↔ ∀ item ∈ session.checklist.values, item.status ≠ .rejected := by
  simp [anyRejected]

theorem anyWaived_iff : session.anyWaived = true ↔ ∃ item ∈ session.checklist.values, item.status = .waived := by
  simp [anyWaived]

end ReviewSession

/-! ## Operations -/

/-- Why an operation raises. -/
inductive ReviewError
  | reviewTransitionError (message : String)
  | keyError (message : String)
deriving DecidableEq

/-- What a call draws: two readings of the clock, and tokens. -/
structure Drawn where
  now : String
  later : String
  decision_token : String := ""
  approval_token : String := ""
deriving DecidableEq

/-- An operation on a session. An operation that raises has not yet written to it. -/
abbrev ReviewOp := StateT ReviewSession (Except ReviewError)

def generateId (kind token : String) : String := kind ++ "-" ++ token

def ensureMutable (session : ReviewSession) : Except ReviewError Unit :=
  if session.finalized then
    .error (.reviewTransitionError "review session is finalized and cannot be mutated")
  else .ok ()

def requireIdentityAndReason (decided_by reason : String) : Except ReviewError (String × String) :=
  if pyStrip decided_by = "" then
    .error (.reviewTransitionError "authenticated reviewer identity is required")
  else if pyStrip reason = "" then
    .error (.reviewTransitionError "review decision rationale is required")
  else .ok (pyStrip decided_by, pyStrip reason)

/-- The panels of a review when none are given. -/
def defaultPanelIds : List String :=
  ["requirements", "assumptions", "erc", "drc", "dfm", "bom", "supply", "manufacturing", "simulation",
    "proof_pack", "benchmark", "decision_log"]

/-- The checklist of a new session; a panel that is named twice has one item. -/
def newChecklist (ids : List String) : Dict String HumanChecklistItem :=
  Dict.indexBy HumanChecklistItem.item_id <| ids.map fun pid =>
    { item_id := pid ++ "-review", panel_id := pid
      is_blocking := pid ≠ "decision_log" && pid ≠ "simulation" }

/-- The arguments of a new session. -/
structure CreateArgs where
  design_name : String
  design_state_hash : String := ""
  panel_ids : Option (List String) := none
  design_session_id : String := ""
  owner_principal : String := ""
  session_token : String
  now : String

/-- The session that `create_review_session` makes. -/
def createReviewSession (args : CreateArgs) : ReviewSession :=
  let ids := match args.panel_ids with
    | none | some [] => defaultPanelIds
    | some ids => ids
  { session_id := generateId "session" args.session_token
    design_name := args.design_name, design_state_hash := args.design_state_hash
    design_session_id := args.design_session_id, owner_principal := args.owner_principal
    checklist := newChecklist ids, created_at := args.now, updated_at := args.now }

/-- An item after the decision on it. -/
def decidedItem (item : HumanChecklistItem) (status : ChecklistStatus) (notes : Option String)
    (decided_by reason : String) (drawn : Drawn) : HumanChecklistItem :=
  { item with
    status := status, decided_by := decided_by, decided_at := drawn.now, reason := reason
    waiver_notes := notes.getD item.waiver_notes }

def withItem (session : ReviewSession) (item_id : String) (item : HumanChecklistItem) (later : String) :
    ReviewSession :=
  { session with checklist := session.checklist.set item_id item, updated_at := later }

def withDecision (session : ReviewSession) (decision : ReviewDecision) (now : String) : ReviewSession :=
  { session with
    decisions := session.decisions ++ [decision], updated_at := now, finalized_at := now }

/-- The operations on an item are one but for the status, and the notes that a waiver writes. -/
def decideItem (status : ChecklistStatus) (notes : Option String) (item_id decided_by reason : String)
    (drawn : Drawn) : ReviewOp HumanChecklistItem := do
  let session ← get
  ensureMutable session
  match session.checklist.get? item_id with
  | none => throw (.keyError ("Checklist item not found: " ++ item_id))
  | some item =>
    let decided := decidedItem item status notes decided_by reason drawn
    set (withItem session item_id decided drawn.later)
    pure decided

def approveChecklistItem (item_id decided_by reason : String) (drawn : Drawn) : ReviewOp HumanChecklistItem :=
  decideItem .approved none item_id decided_by reason drawn

def rejectChecklistItem (item_id decided_by reason : String) (drawn : Drawn) : ReviewOp HumanChecklistItem :=
  decideItem .rejected none item_id decided_by reason drawn

def addWaiver (item_id decided_by reason waiver_notes : String) (drawn : Drawn) : ReviewOp HumanChecklistItem :=
  decideItem .waived (some waiver_notes) item_id decided_by reason drawn

/-- What `resolve_decision` asks of the checklist. -/
def requireChecklist (session : ReviewSession) (decision : DecisionType) : Except ReviewError Unit :=
  match decision with
  | .approve =>
    if session.anyRejected || !session.allApproved then
      .error (.reviewTransitionError
        "all blocking checklist items must be approved or waived before approval")
    else .ok ()
  | .accept_risk =>
    if session.anyRejected || !session.allApproved then
      .error (.reviewTransitionError
        "all blocking checklist items must be resolved before accepting risk")
    else if !session.anyWaived then
      .error (.reviewTransitionError "accept-risk requires at least one explicit waiver")
    else .ok ()
  | .reject | .request_repair | .rollback => .ok ()

/-- The decision that `resolve_decision` records. -/
def decisionRecord (session : ReviewSession) (decision : DecisionType)
    (actor rationale waiver_notes : String) (drawn : Drawn) : ReviewDecision :=
  { decision_id := generateId "decision" drawn.decision_token
    review_session_id := session.session_id, design_name := session.design_name
    design_state_hash := session.design_state_hash, decision := decision, decided_by := actor
    decided_at := drawn.now, reason := rationale, waiver_notes := pyStrip waiver_notes
    checklist_results := session.checklistResults
    approval_id :=
      if decision = .approve ∨ decision = .accept_risk then generateId "approval" drawn.approval_token
      else "" }

def resolveDecision (decision : DecisionType) (decided_by reason waiver_notes : String) (drawn : Drawn) :
    ReviewOp ReviewDecision := do
  let session ← get
  ensureMutable session
  let (actor, rationale) ← requireIdentityAndReason decided_by reason
  requireChecklist session decision
  let recorded := decisionRecord session decision actor rationale waiver_notes drawn
  set (withDecision session recorded drawn.now)
  pure recorded

/-! ## What the operations leave -/

theorem ensureMutable_eq_ok_iff {session : ReviewSession} {u : Unit} :
    ensureMutable session = .ok u ↔ session.finalized = false := by
  unfold ensureMutable
  split <;> simp_all

theorem requireIdentityAndReason_eq_ok_iff {decided_by reason : String} {p : String × String} :
    requireIdentityAndReason decided_by reason = .ok p ↔
      pyStrip decided_by ≠ "" ∧ pyStrip reason ≠ "" ∧ p = (pyStrip decided_by, pyStrip reason) := by
  unfold requireIdentityAndReason
  split
  · rename_i hactor
    exact iff_of_false nofun fun h => h.1 hactor
  · split
    · rename_i hreason
      exact iff_of_false nofun fun h => h.2.1 hreason
    · rename_i hactor hreason
      rw [Except.ok.injEq]
      exact ⟨fun h => ⟨hactor, hreason, h.symm⟩, fun h => h.2.2.symm⟩

/-- What the checklist must be like for a decision. -/
def Permits (session : ReviewSession) (decision : DecisionType) : Prop :=
  (decision = .approve ∨ decision = .accept_risk →
    session.anyRejected = false ∧ session.allApproved = true) ∧
  (decision = .accept_risk → session.anyWaived = true)

theorem requireChecklist_eq_ok_iff {session : ReviewSession} {decision : DecisionType} {u : Unit} :
    requireChecklist session decision = .ok u ↔ Permits session decision := by
  cases decision <;> cases hr : session.anyRejected <;> cases ha : session.allApproved <;>
    cases hw : session.anyWaived <;> simp [requireChecklist, Permits, hr, ha, hw]

/-- An operation on an item returns exactly when the session is open and has the item. -/
theorem decideItem_eq_ok_iff {status : ChecklistStatus} {notes : Option String}
    {item_id decided_by reason : String} {drawn : Drawn} {session session' : ReviewSession}
    {decided : HumanChecklistItem} :
    (decideItem status notes item_id decided_by reason drawn).run session = .ok (decided, session') ↔
      session.finalized = false ∧ ∃ item, session.checklist.get? item_id = some item ∧
        decided = decidedItem item status notes decided_by reason drawn ∧
        session' = withItem session item_id decided drawn.later := by
  cases hitem : session.checklist.get? item_id with
  | none =>
    simp only [decideItem, bind_pure_comp, StateT.run_bind, StateT.run_get, pure_bind, StateT.run_monadLift,
      Raising.bind_eq_ok_iff, hitem]
    constructor
    · rintro ⟨_, _, h⟩
      cases h
    · rintro ⟨_, _, h, _⟩
      cases h
  | some item =>
    have hrun : (decideItem status notes item_id decided_by reason drawn).run session =
        ensureMutable session >>= fun _ =>
          .ok (decidedItem item status notes decided_by reason drawn,
            withItem session item_id (decidedItem item status notes decided_by reason drawn) drawn.later) := by
      simp [decideItem, hitem]
      rfl
    rw [hrun, Raising.bind_eq_ok_iff]
    simp only [ensureMutable_eq_ok_iff, exists_const, Except.ok.injEq, Prod.mk.injEq, Option.some.injEq]
    constructor
    · rintro ⟨hopen, rfl, rfl⟩
      exact ⟨hopen, item, rfl, rfl, rfl⟩
    · rintro ⟨hopen, _, rfl, rfl, rfl⟩
      exact ⟨hopen, rfl, rfl⟩

/-- A decision is recorded exactly when the session is open, the reviewer and the reason are given and
the checklist permits it. -/
theorem resolveDecision_eq_ok_iff {decision : DecisionType} {decided_by reason waiver_notes : String}
    {drawn : Drawn} {session session' : ReviewSession} {recorded : ReviewDecision} :
    (resolveDecision decision decided_by reason waiver_notes drawn).run session = .ok (recorded, session') ↔
      session.finalized = false ∧ pyStrip decided_by ≠ "" ∧ pyStrip reason ≠ "" ∧ Permits session decision ∧
        recorded = decisionRecord session decision (pyStrip decided_by) (pyStrip reason) waiver_notes drawn ∧
        session' = withDecision session recorded drawn.now := by
  have hrun : (resolveDecision decision decided_by reason waiver_notes drawn).run session =
      ensureMutable session >>= fun _ => requireIdentityAndReason decided_by reason >>= fun p =>
        requireChecklist session decision >>= fun _ =>
          let recorded := decisionRecord session decision p.1 p.2 waiver_notes drawn
          .ok (recorded, withDecision session recorded drawn.now) := by
    simp [resolveDecision]
    rfl
  simp only [hrun, Raising.bind_eq_ok_iff, ensureMutable_eq_ok_iff, requireIdentityAndReason_eq_ok_iff,
    requireChecklist_eq_ok_iff, exists_const, Except.ok.injEq, Prod.mk.injEq]
  constructor
  · rintro ⟨hopen, _, ⟨hactor, hreason, rfl⟩, hpermits, rfl, rfl⟩
    exact ⟨hopen, hactor, hreason, hpermits, rfl, rfl⟩
  · rintro ⟨hopen, hactor, hreason, hpermits, rfl, rfl⟩
    exact ⟨hopen, _, ⟨hactor, hreason, rfl⟩, hpermits, rfl, rfl⟩

/-! ## Calls -/

/-- A call of an operation on a session. -/
inductive ReviewCall
  | approve (item_id decided_by reason : String) (drawn : Drawn)
  | reject (item_id decided_by reason : String) (drawn : Drawn)
  | waive (item_id decided_by reason waiver_notes : String) (drawn : Drawn)
  | resolve (decision : DecisionType) (decided_by reason waiver_notes : String) (drawn : Drawn)

namespace ReviewCall

/-- The operation of a call, for what it leaves. -/
def op : ReviewCall → ReviewOp Unit
  | approve item_id decided_by reason drawn => (fun _ => ()) <$> (approveChecklistItem item_id decided_by reason drawn)
  | reject item_id decided_by reason drawn => (fun _ => ()) <$> (rejectChecklistItem item_id decided_by reason drawn)
  | waive item_id decided_by reason waiver_notes drawn =>
    (fun _ => ()) <$> (addWaiver item_id decided_by reason waiver_notes drawn)
  | resolve decision decided_by reason waiver_notes drawn =>
    (fun _ => ()) <$> (resolveDecision decision decided_by reason waiver_notes drawn)

/-- The session that a call leaves, or its error. -/
def run (c : ReviewCall) (session : ReviewSession) : Except ReviewError ReviewSession :=
  Prod.snd <$> c.op.run session

/-- The item of a call is there, or the reviewer, the reason and the checklist are as a decision needs. -/
def Admitted : ReviewCall → ReviewSession → Prop
  | approve item_id _ _ _, session | reject item_id _ _ _, session | waive item_id _ _ _ _, session =>
    session.finalized = false ∧ ∃ item, session.checklist.get? item_id = some item
  | resolve decision decided_by reason _ _, session =>
    session.finalized = false ∧ pyStrip decided_by ≠ "" ∧ pyStrip reason ≠ "" ∧ Permits session decision

theorem run_discard {α : Type} {m : ReviewOp α} {session session' : ReviewSession} :
    Prod.snd <$> ((fun _ => ()) <$> m).run session = .ok session' ↔ ∃ a, m.run session = .ok (a, session') := by
  cases hm : m.run session with
  | error e => simp [hm]
  | ok p => simp [hm, Prod.ext_iff]

/-- The session after a call, which is what it was when the call raises. -/
def after (c : ReviewCall) (session : ReviewSession) : ReviewSession :=
  match c.run session with
  | .ok session' => session'
  | .error _ => session

theorem exists_decideItem_iff {status : ChecklistStatus} {notes : Option String}
    {item_id decided_by reason : String} {drawn : Drawn} {session : ReviewSession} :
    (∃ session' decided, (decideItem status notes item_id decided_by reason drawn).run session =
      .ok (decided, session')) ↔
      session.finalized = false ∧ ∃ item, session.checklist.get? item_id = some item := by
  simp only [decideItem_eq_ok_iff]
  constructor
  · rintro ⟨_, _, hopen, item, hitem, -, -⟩
    exact ⟨hopen, item, hitem⟩
  · rintro ⟨hopen, item, hitem⟩
    exact ⟨_, _, hopen, item, hitem, rfl, rfl⟩

theorem run_eq_ok_iff {c : ReviewCall} {session : ReviewSession} :
    (∃ session', c.run session = .ok session') ↔ c.Admitted session := by
  cases c with
  | approve item_id decided_by reason drawn => exact (exists_congr fun _ => run_discard).trans exists_decideItem_iff
  | reject item_id decided_by reason drawn => exact (exists_congr fun _ => run_discard).trans exists_decideItem_iff
  | waive item_id decided_by reason waiver_notes drawn =>
    exact (exists_congr fun _ => run_discard).trans exists_decideItem_iff
  | resolve decision decided_by reason waiver_notes drawn =>
    refine (exists_congr fun _ => run_discard).trans ?_
    simp only [resolveDecision_eq_ok_iff]
    constructor
    · rintro ⟨_, _, hopen, hactor, hreason, hpermits, -, -⟩
      exact ⟨hopen, hactor, hreason, hpermits⟩
    · rintro ⟨hopen, hactor, hreason, hpermits⟩
      exact ⟨_, _, hopen, hactor, hreason, hpermits, rfl, rfl⟩

/-- A call that returns finds the session open, and writes an item or a decision. -/
theorem run_cases {c : ReviewCall} {session session' : ReviewSession} (h : c.run session = .ok session') :
    session.finalized = false ∧
    ((∃ item_id item later, session' = withItem session item_id item later) ∨
      ∃ decision actor rationale notes drawn, Permits session decision ∧
        session' = withDecision session (decisionRecord session decision actor rationale notes drawn) drawn.now) := by
  cases c with
  | approve item_id decided_by reason drawn | reject item_id decided_by reason drawn
  | waive item_id decided_by reason waiver_notes drawn =>
    obtain ⟨decided, hdecided⟩ := run_discard.mp h
    obtain ⟨hopen, item, -, -, hsession⟩ := decideItem_eq_ok_iff.mp hdecided
    exact ⟨hopen, .inl ⟨item_id, decided, drawn.later, hsession⟩⟩
  | resolve decision decided_by reason waiver_notes drawn =>
    obtain ⟨recorded, hrecorded⟩ := run_discard.mp h
    obtain ⟨hopen, -, -, hpermits, rfl, hsession⟩ := resolveDecision_eq_ok_iff.mp hrecorded
    exact ⟨hopen, .inr ⟨decision, _, _, waiver_notes, drawn, hpermits, hsession⟩⟩

end ReviewCall

def runCalls (session : ReviewSession) (calls : List ReviewCall) : ReviewSession :=
  calls.foldl (fun s c => c.after s) session

end ZapTrace.Review
