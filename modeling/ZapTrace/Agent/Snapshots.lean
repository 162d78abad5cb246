import ZapTrace.Core.StateStore

/-!
# Design snapshots of a session

The snapshot tools keep snapshots in the memory of a session, by design name and label, and mirror
them as records in the durable store. A session that is not in memory is rebuilt from its records.
-/

namespace ZapTrace

open Prog Dict

variable {δ : Type}

/-! ## Sessions -/

/-- A session in memory. The entries that snapshots set up may be absent; `results` holds the entries
with results by design, `evidence` those with metadata by design. -/
structure AgentSession (δ : Type) where
  designs : Dict String δ
  snapshots : Option (Dict String (Dict String δ))
  snapshots_ancillary : Option (Dict String (Dict String PyValue))
  results : Dict String (Dict String PyValue)
  transactions : Dict String (Dict String PyValue × Option δ)
  transaction_history : List (Dict String PyValue)
  evidence : Dict String (Dict String (Dict String PyValue))

/-- A session whose other entries are absent. -/
def AgentSession.ofDesigns (designs : Dict String δ) : AgentSession δ where
  designs := designs
  snapshots := none
  snapshots_ancillary := none
  results := empty
  transactions := empty
  transaction_history := []
  evidence := empty

/-- A session in memory and the durable store. -/
structure AgentWorld (δ : Type) where
  session : AgentSession δ
  db : Database

/-- Why a tool raises. -/
inductive ToolError
  | valueError (message : String)
  | keyError (key : String)
  | store (e : StoreError)
deriving DecidableEq

abbrev Tool (δ : Type) := Prog (AgentWorld δ) ToolError

/-- A call on the durable store. -/
def onStore {α : Type} (m : Statement α) : Tool δ α :=
  onState AgentWorld.db (fun db w => { w with db := db }) (mapError ToolError.store m)

/-- An update of the session in memory. -/
def modifySession (f : AgentSession δ → AgentSession δ) : Tool δ Unit :=
  modify fun w => { w with session := f w.session }

def AgentSession.snapshotAt (session : AgentSession δ) (design_name label : String) : Option δ :=
  session.snapshots.bind fun snapshots => snapshots.getIn design_name label

/-! ## JSON-safe values -/

/-- `d[key] = value` on the items of a dictionary. -/
def setItem (key : String) (value : PyValue) : List (PyValue × PyValue) → List (PyValue × PyValue)
  | [] => [(.str key, value)]
  | (.str k, v) :: items =>
    if k = key then (.str k, value) :: items else (.str k, v) :: setItem key value items
  | item :: items => item :: setItem key value items

section Json

variable (py : PyText)

/-- `str(value)` -/
def pyStr : PyValue → String
  | .str s => s
  | value => py.str value

mutual

/-- `_json_safe`: keys become strings, sequences and sets lists, and objects dictionaries of their
fields. -/
def jsonSafe : PyValue → PyValue
  | .list xs => .list (jsonSafeList xs)
  | .tuple xs => .list (jsonSafeList xs)
  | .set xs => .list (jsonSafeList xs)
  | .dict items => .dict (jsonSafeItems items [])
  | .object _ fields => .dict (jsonSafeFields fields [])
  | value => value

/-- `_json_safe` on the elements of a list. -/
def jsonSafeList : List PyValue → List PyValue
  | [] => []
  | x :: xs => jsonSafe x :: jsonSafeList xs

/-- `_json_safe` on the items of a dictionary. -/
def jsonSafeItems : List (PyValue × PyValue) → List (PyValue × PyValue) → List (PyValue × PyValue)
  | [], acc => acc
  | (k, v) :: items, acc => jsonSafeItems items (setItem (pyStr py k) (jsonSafe v) acc)

/-- `_json_safe` on the fields of an object. -/
def jsonSafeFields : List (String × PyValue) → List (PyValue × PyValue) → List (PyValue × PyValue)
  | [], acc => acc
  | (k, v) :: fields, acc => jsonSafeFields fields (setItem k (jsonSafe v) acc)

end

end Json

/-! ## Storing designs -/

/-- `PersistentDesignDict.commit_design`, which `_set_design` calls: the store comes first. -/
def setDesign (codec : DesignCodec δ) (session_id design_name : String) (design : δ)
    (operation version_id timestamp : String) : Tool δ Unit := do
  let _ ← onStore <| storeDesign codec session_id design_name design operation true version_id
    timestamp
  modifySession fun session => { session with designs := session.designs.set design_name design }

/-- `PersistentDesignDict.__setitem__`, and an edit in place followed by `persist`: the memory comes
first. -/
def assignDesign (codec : DesignCodec δ) (session_id design_name : String) (design : δ)
    (operation version_id timestamp : String) : Tool δ Unit := do
  modifySession fun session => { session with designs := session.designs.set design_name design }
  let _ ← onStore <| storeDesign codec session_id design_name design operation true version_id
    timestamp
  pure ()

/-! ## The snapshot tools -/

section Tools

variable (codec : DesignCodec δ) (py : PyText) (session_id : String)

def snapshotRecordId (design_name label : String) : String := design_name ++ ":" ++ label

def snapshotMetadata (label : String) (ancillary : PyValue) : Dict String PyValue :=
  (empty.set "label" (.str label)).set "ancillary" (jsonSafe py ancillary)

def snapshotRecord (design_name label : String) (ancillary : PyValue) (timestamp : String) :
    SessionRecord where
  session_id := session_id
  record_type := "snapshot"
  record_id := snapshotRecordId design_name label
  design_name := design_name
  content_id := none
  metadata := snapshotMetadata py label ancillary
  active := true
  protect := false
  created_at := timestamp
  updated_at := timestamp

def persistSnapshot (design_name label : String) (design : δ) (ancillary : PyValue)
    (timestamp : String) : Tool δ Unit := do
  let _ ← onStore <| upsertDesignRecord codec design
    (snapshotRecord py session_id design_name label ancillary timestamp)
  pure ()

/-- The label of a snapshot; one is made up from the time when none is given. -/
def snapshotLabel (label : Option String) (now_ms : ℕ) : String :=
  (label.filter fun label => label ≠ "").getD ("snap-" ++ toString now_ms)

/-- The results that are kept with a snapshot. -/
def ancillaryState (session : AgentSession δ) (design_name : String) : PyValue :=
  .dict <| ["positions", "erc_results", "drc_results", "routing_results"].map fun key =>
    (.str key, (session.results.getIn key design_name).getD .none)

/-- `tool_design_snapshot`; the label of the snapshot. -/
def toolDesignSnapshot (design_name : String) (label : Option String) (now_ms : ℕ)
    (timestamp : String) : Tool δ String := do
  let w ← get
  match w.session.designs.get? design_name with
  | none => raise (.valueError s!"Design '{design_name}' not found")
  | some design =>
    let snapshot_label := snapshotLabel label now_ms
    let ancillary := ancillaryState w.session design_name
    modifySession fun session =>
      { session with
        snapshots := some <|
          (session.snapshots.getD empty).setIn design_name snapshot_label design
        snapshots_ancillary := some <|
          (session.snapshots_ancillary.getD empty).setIn design_name snapshot_label ancillary }
    persistSnapshot codec py session_id design_name snapshot_label design ancillary timestamp
    pure snapshot_label

def snapshotLabels (session : AgentSession δ) (design_name : String) : List String :=
  (session.snapshots.bind fun snapshots => snapshots.get? design_name).elim [] keys

/-- Restore the results that were kept with a snapshot: a missing one is dropped. -/
def restoreResults (design_name : String) :
    List (PyValue × PyValue) → Dict String (Dict String PyValue) →
      Dict String (Dict String PyValue)
  | [], results => results
  | (key, .none) :: items, results =>
    restoreResults design_name items (results.eraseIn (pyStr py key) design_name)
  | (key, value) :: items, results =>
    restoreResults design_name items (results.setIn (pyStr py key) design_name value)

def toolDesignRollback (design_name label version_id timestamp : String) : Tool δ Unit := do
  let w ← get
  match w.session.snapshotAt design_name label with
  | none =>
    let available := py.repr (.list ((snapshotLabels w.session design_name).map .str))
    raise <| .valueError
      s!"Snapshot '{label}' not found for design '{design_name}'. Available: {available}"
  | some design =>
    setDesign codec session_id design_name design "snapshot-rollback" version_id timestamp
    match w.session.snapshots_ancillary.bind fun ancillary => ancillary.getIn design_name label with
    | some (.dict items) =>
      modifySession fun session =>
        { session with results := restoreResults py design_name items session.results }
    | _ => pure ()

/-- `tool_design_commit`; the numbers of the snapshots that were removed and that remain. -/
def toolDesignCommit (design_name : String) (label : Option String) : Tool δ (ℕ × ℕ) := do
  let w ← get
  match label.filter fun label => label ≠ "" with
  | some label =>
    modifySession fun session =>
      { session with
        snapshots := session.snapshots.map fun snapshots => snapshots.eraseIn design_name label
        snapshots_ancillary :=
          session.snapshots_ancillary.map fun ancillary => ancillary.eraseIn design_name label }
    let w' ← get
    let remaining := snapshotLabels w'.session design_name
    match w.session.snapshotAt design_name label with
    | none =>
      let available := py.repr (.list (remaining.map .str))
      raise <| .valueError
        s!"Snapshot '{label}' not found for '{design_name}'. Available: {available}"
    | some _ =>
      let _ ← onStore <| deleteSessionRecord session_id "snapshot"
        (snapshotRecordId design_name label)
      pure (1, remaining.length)
  | none =>
    match w.session.snapshots with
    | none => raise (.keyError "snapshots")
    | some snapshots =>
      modifySession fun session =>
        { session with snapshots := some (snapshots.set design_name empty) }
      match w.session.snapshots_ancillary with
      | none => raise (.keyError "snapshots_ancillary")
      | some ancillary =>
        modifySession fun session =>
          { session with snapshots_ancillary := some (ancillary.set design_name empty) }
        let _ ← onStore <| deleteSessionRecords session_id "snapshot" (some design_name)
        pure ((snapshotLabels w.session design_name).length, 0)

end Tools

/-! ## Rebuilding a session -/

section Rebuild

variable (codec : DesignCodec δ) (py : PyText)

def recordLabel (record : SessionRecord) : String :=
  match record.metadata.get? "label" with
  | some label => if label.truthy then pyStr py label else record.record_id
  | none => record.record_id

/-- The session entry that a record of evidence belongs to. -/
def evidenceKey : String → Option String
  | "erc-evidence" => some "erc_evidence"
  | "drc-evidence" => some "drc_evidence"
  | "validation-status" => some "validation_status"
  | "release-evidence" => some "release_approvals"
  | _ => none

def recordContent (db : Database) (record : SessionRecord) : Except StoreError (Option δ) :=
  match record.content_id.filter fun content_id => content_id ≠ "" with
  | some content_id => (db.loadDesignContent codec content_id).map some
  | none => .ok none

def hydrateSnapshot (record : SessionRecord) (design : δ) (session : AgentSession δ) :
    AgentSession δ :=
  let label := recordLabel py record
  { session with
    snapshots := some <|
      (session.snapshots.getD empty).setIn record.design_name label design
    snapshots_ancillary :=
      match record.metadata.get? "ancillary" with
      | some (.dict items) => some <|
        (session.snapshots_ancillary.getD empty).setIn record.design_name label (.dict items)
      | _ => session.snapshots_ancillary }

/-- A record that is not a snapshot with a content, put back into the session. -/
def hydrateOther (db : Database) (record : SessionRecord) (session : AgentSession δ) :
    Except StoreError (AgentSession δ) :=
  if record.record_type = "transaction" then do
    let candidate ← recordContent codec db record
    pure { session with
      transactions := session.transactions.set record.record_id (record.metadata, candidate) }
  else if record.record_type = "transaction-history" then
    pure { session with
      transaction_history := session.transaction_history ++ [record.metadata] }
  else
    match evidenceKey record.record_type with
    | some target_key =>
      pure { session with
        evidence := session.evidence.setIn target_key record.design_name record.metadata }
    | none => pure session

def hydratePersistentRecord (db : Database) (session : AgentSession δ) (record : SessionRecord) :
    Except StoreError (AgentSession δ) :=
  if record.record_type = "snapshot" then do
    match ← recordContent codec db record with
    | some design => pure (hydrateSnapshot py record design session)
    | none => hydrateOther codec db record session
  else hydrateOther codec db record session

def hydratePersistentSession (db : Database) (session_id : String) (session : AgentSession δ) :
    Except StoreError (AgentSession δ) :=
  (db.listSessionRecords session_id none none).foldlM (hydratePersistentRecord codec py db) session

/-- `_get_session` for a session that is not in memory. -/
def rebuildSession (db : Database) (session_id : String) : Except StoreError (AgentSession δ) := do
  let designs ← db.loadDesigns codec session_id
  hydratePersistentSession codec py db session_id
    (AgentSession.ofDesigns (designs.foldl (fun d item => d.set item.1 item.2) empty))

end Rebuild

/-! ## Runs -/

/-- A step of a session: a snapshot, a commit of snapshots, a rollback, or the storing of a design. -/
inductive SnapshotAction (δ : Type)
  | snapshot (design_name : String) (label : Option String) (now_ms : ℕ) (timestamp : String)
  | commit (design_name : String) (label : Option String)
  | rollback (design_name label version_id timestamp : String)
  | setDesign (design_name : String) (design : δ) (operation version_id timestamp : String)
  | assignDesign (design_name : String) (design : δ) (operation version_id timestamp : String)

namespace SnapshotAction

variable (codec : DesignCodec δ) (py : PyText) (session_id : String)

/-- What a step leaves, also when the tool raises. -/
def after (w : AgentWorld δ) : SnapshotAction δ → AgentWorld δ
  | snapshot design_name label now_ms timestamp =>
    (toolDesignSnapshot codec py session_id design_name label now_ms timestamp w).2
  | commit design_name label => (toolDesignCommit py session_id design_name label w).2
  | rollback design_name label version_id timestamp =>
    (toolDesignRollback codec py session_id design_name label version_id timestamp w).2
  | setDesign design_name design operation version_id timestamp =>
    (ZapTrace.setDesign codec session_id design_name design operation version_id timestamp w).2
  | assignDesign design_name design operation version_id timestamp =>
    (ZapTrace.assignDesign codec session_id design_name design operation version_id timestamp w).2

def step (w : AgentWorld δ) (action : SnapshotAction δ) : Option (AgentWorld δ) :=
  some (action.after codec py session_id w)

end SnapshotAction

end ZapTrace
