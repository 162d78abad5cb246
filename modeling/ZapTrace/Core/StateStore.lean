import Mathlib.Data.List.Sort
import ZapTrace.Library.Dict
import ZapTrace.Library.Prog
import ZapTrace.Library.PyValue

/-!
# The durable state store

Session state is kept in an SQLite database: sessions, content-addressed blobs, design versions with
their lineage, design heads, and typed session records. Every call is one transaction, which a
violated key or foreign key undoes.
-/

namespace ZapTrace

open Prog Table

/-! ## Tables -/

/-- A row of `sessions`. -/
structure SessionRow where
  session_id : String
  created_at : String
  updated_at : String

/-- A row of `content_blobs`; a payload is the text its bytes encode. -/
structure BlobRow where
  content_id : String
  media_type : String
  payload : String
  size_bytes : ℕ
  created_at : String

/-- A row of `design_versions`, the `DesignIdentity` that calls return. -/
structure DesignIdentity where
  version_id : String
  session_id : String
  design_name : String
  content_id : String
  parent_version_id : Option String
  operation : String
  created_at : String
deriving DecidableEq

/-- A row of `design_heads`. -/
structure HeadRow where
  session_id : String
  design_name : String
  version_id : String
  updated_at : String

/-- A row of `session_records`, the `SessionRecord` that calls return; the metadata is the object its
JSON text encodes. -/
structure SessionRecord where
  session_id : String
  record_type : String
  record_id : String
  design_name : String
  content_id : Option String
  metadata : Dict String PyValue
  active : Bool
  protect : Bool
  created_at : String
  updated_at : String

/-- A row of `audit_events`, with what the deletion of a session reads of it. -/
structure AuditRow where
  event_id : String
  session_id : String

structure Database where
  sessions : List SessionRow
  content_blobs : List BlobRow
  design_versions : List DesignIdentity
  design_heads : List HeadRow
  session_records : List SessionRecord
  audit_events : List AuditRow

/-- The primary key of `design_heads`. -/
def HeadRow.key (head : HeadRow) : String × String := (head.session_id, head.design_name)

/-- The primary key of `session_records`. -/
def SessionRecord.key (record : SessionRecord) : String × String × String :=
  (record.session_id, record.record_type, record.record_id)

def Database.empty : Database := ⟨[], [], [], [], [], []⟩

/-- Why a call on the store raises. -/
inductive StoreError
  | integrity
  | corruption
  | notFound
deriving DecidableEq

/-- `_canonical_design_payload`, `Design.model_validate_json` and the SHA-256 of a payload. -/
structure DesignCodec (δ : Type) where
  canonical_design_payload : δ → String
  model_validate_json : String → Option δ
  sha256 : String → String

variable {δ : Type}

def DesignCodec.contentId (codec : DesignCodec δ) (design : δ) : String :=
  "sha256:" ++ codec.sha256 (codec.canonical_design_payload design)

abbrev Statement := Prog Database StoreError

/-! ## Statements -/

namespace Database

/-- Whether the foreign key of a session is met. -/
def hasSession (db : Database) (session_id : String) : Bool :=
  (find SessionRow.session_id db.sessions session_id).isSome

/-- Whether the foreign key of a content is met. -/
def hasBlob (db : Database) (content_id : String) : Bool :=
  (find BlobRow.content_id db.content_blobs content_id).isSome

/-- Whether the foreign key of a version is met. -/
def hasVersion (db : Database) (version_id : String) : Bool :=
  (find DesignIdentity.version_id db.design_versions version_id).isSome

end Database

/-- Go on when a constraint is met. -/
def require (constraint : Bool) : Statement Unit :=
  if constraint then pure () else raise .integrity

def ensureSession (session_id timestamp : String) : Statement Unit :=
  modify fun db =>
    { db with
      sessions := upsert SessionRow.session_id (fun row => { row with updated_at := timestamp })
        ⟨session_id, timestamp, timestamp⟩ db.sessions }

/-- `_store_blob`: a blob whose content is there already is not stored again. -/
def storeBlob (codec : DesignCodec δ) (payload media_type timestamp : String) : Statement String := do
  let content_id := "sha256:" ++ codec.sha256 payload
  modify fun db =>
    { db with
      content_blobs := insertOrIgnore BlobRow.content_id
        ⟨content_id, media_type, payload, payload.utf8ByteSize, timestamp⟩ db.content_blobs }
  pure content_id

def Database.currentVersion (db : Database) (session_id design_name : String) :
    Option DesignIdentity := do
  let head ← find HeadRow.key db.design_heads (session_id, design_name)
  find DesignIdentity.version_id db.design_versions head.version_id

def insertVersion (row : DesignIdentity) : Statement Unit := do
  let db ← get
  require (!db.hasVersion row.version_id)
  require (db.hasSession row.session_id && db.hasBlob row.content_id)
  require (row.parent_version_id.all db.hasVersion)
  modify fun db => { db with design_versions := db.design_versions ++ [row] }

def upsertHead (row : HeadRow) : Statement Unit := do
  let db ← get
  require (db.hasSession row.session_id && db.hasVersion row.version_id)
  modify fun db =>
    { db with
      design_heads := upsert HeadRow.key
        (fun head => { head with version_id := row.version_id, updated_at := row.updated_at })
        row db.design_heads }

/-- `_upsert_record_with_connection` -/
def upsertRecord (row : SessionRecord) : Statement SessionRecord := do
  let db ← get
  let created_at :=
    match find SessionRecord.key db.session_records row.key with
    | some existing => existing.created_at
    | none => row.created_at
  require (db.hasSession row.session_id && row.content_id.all db.hasBlob)
  modify fun db =>
    { db with
      session_records := upsert SessionRecord.key
        (fun record =>
          { record with
            design_name := row.design_name
            content_id := row.content_id
            metadata := row.metadata
            active := row.active
            protect := row.protect
            updated_at := row.updated_at })
        { row with created_at := created_at } db.session_records }
  pure { row with created_at := created_at }

def deleteHeads (p : HeadRow → Bool) : Statement Unit :=
  modify fun db => { db with design_heads := db.design_heads.filter fun row => !p row }

/-- The deletion of records; the number of the rows deleted. -/
def deleteRecords (p : SessionRecord → Bool) : Statement ℕ := do
  let db ← get
  modify fun db => { db with session_records := db.session_records.filter fun row => !p row }
  pure (db.session_records.filter p).length

def deleteAuditEvents (session_id : String) : Statement Unit :=
  modify fun db =>
    { db with audit_events := db.audit_events.filter fun row => row.session_id ≠ session_id }

/-- The deletion of the versions of a session; no row that stays may refer to one. -/
def deleteVersions (session_id : String) : Statement Unit := do
  modify fun db =>
    { db with design_versions := db.design_versions.filter fun row => row.session_id ≠ session_id }
  let db ← get
  require (db.design_heads.all fun head => db.hasVersion head.version_id)
  require (db.design_versions.all fun row => row.parent_version_id.all db.hasVersion)

/-- The deletion of the row of a session; what its foreign keys would cascade to is deleted before
it. -/
def deleteSessionRow (session_id : String) : Statement Unit :=
  modify fun db =>
    { db with sessions := db.sessions.filter fun row => row.session_id ≠ session_id }

/-- The deletion of the blobs that neither a version nor a record refers to. -/
def deleteUnreferencedBlobs : Statement Unit :=
  modify fun db =>
    { db with
      content_blobs := db.content_blobs.filter fun blob =>
        db.design_versions.any (fun row => row.content_id = blob.content_id) ||
          db.session_records.any (fun row => row.content_id = some blob.content_id) }

/-! ## Calls that write -/

def designMediaType : String := "application/vnd.zaptrace.design+json"

def storeDesignWithConnection (codec : DesignCodec δ) (session_id design_name : String) (design : δ)
    (operation : String) (record_duplicate : Bool) (version_id timestamp : String) :
    Statement DesignIdentity := do
  ensureSession session_id timestamp
  let content_id ←
    storeBlob codec (codec.canonical_design_payload design) designMediaType timestamp
  let db ← get
  let current := db.currentVersion session_id design_name
  match current.filter fun row => decide (row.content_id = content_id) && !record_duplicate with
  | some row => pure row
  | none =>
    let row : DesignIdentity :=
      { version_id := version_id
        session_id := session_id
        design_name := design_name
        content_id := content_id
        parent_version_id := current.map DesignIdentity.version_id
        operation := operation
        created_at := timestamp }
    insertVersion row
    upsertHead ⟨session_id, design_name, version_id, timestamp⟩
    pure row

def storeDesign (codec : DesignCodec δ) (session_id design_name : String) (design : δ)
    (operation : String) (record_duplicate : Bool) (version_id timestamp : String) :
    Statement DesignIdentity :=
  transaction <| storeDesignWithConnection codec session_id design_name design operation
    record_duplicate version_id timestamp

/-- `SQLiteStateStore.replace_session_designs`: heads of other names are dropped, and each design is
stored, in the order of the names. -/
def replaceSessionDesigns (codec : DesignCodec δ) (session_id : String)
    (designs : List (String × δ)) (operation : String) (version_ids : String → String)
    (timestamp : String) : Statement Unit :=
  transaction do
    ensureSession session_id timestamp
    deleteHeads fun head =>
      head.session_id = session_id && !designs.any fun item => item.1 = head.design_name
    forEach
      (fun item => do
        let _ ← storeDesignWithConnection codec session_id item.1 item.2 operation true
          (version_ids item.1) timestamp
        pure ())
      (designs.insertionSort fun a b => a.1 ≤ b.1)

def upsertSessionRecord (row : SessionRecord) : Statement SessionRecord :=
  transaction do
    ensureSession row.session_id row.updated_at
    upsertRecord row

def upsertDesignRecord (codec : DesignCodec δ) (design : δ) (row : SessionRecord) :
    Statement SessionRecord :=
  transaction do
    ensureSession row.session_id row.updated_at
    let content_id ←
      storeBlob codec (codec.canonical_design_payload design) designMediaType row.updated_at
    upsertRecord { row with content_id := some content_id }

def deleteSessionRecord (session_id record_type record_id : String) : Statement Bool :=
  transaction do
    let count ← deleteRecords fun row => row.key = (session_id, record_type, record_id)
    pure (0 < count)

def deleteSessionRecords (session_id record_type : String) (design_name : Option String) :
    Statement ℕ :=
  transaction <| deleteRecords fun row =>
    row.session_id = session_id && row.record_type = record_type &&
      design_name.all fun name => row.design_name = name

def deleteSession (session_id : String) : Statement Bool :=
  transaction do
    let db ← get
    deleteHeads fun head => head.session_id = session_id
    let _ ← deleteRecords fun row => row.session_id = session_id
    deleteAuditEvents session_id
    deleteVersions session_id
    deleteSessionRow session_id
    deleteUnreferencedBlobs
    pure (db.hasSession session_id)

/-! ## Calls that read -/

namespace Database

/-- The rows that `load_designs` reads: the names of the heads of a session with their payloads. -/
def designPayloads (db : Database) (session_id : String) : List (String × String) :=
  ((db.design_heads.filter fun head => head.session_id = session_id).insertionSort
      fun a b => a.design_name ≤ b.design_name).filterMap fun head => do
    let version ← find DesignIdentity.version_id db.design_versions head.version_id
    let blob ← find BlobRow.content_id db.content_blobs version.content_id
    pure (head.design_name, blob.payload)

def loadDesigns (codec : DesignCodec δ) (db : Database) (session_id : String) :
    Except StoreError (List (String × δ)) :=
  (db.designPayloads session_id).mapM fun (name, payload) =>
    match codec.model_validate_json payload with
    | some design => .ok (name, design)
    | none => .error .corruption

def listDesignVersions (db : Database) (session_id design_name : String) : List DesignIdentity :=
  db.design_versions.filter fun row => row.session_id = session_id && row.design_name = design_name

def listSessionRecords (db : Database) (session_id : String) (record_type : Option String)
    (active : Option Bool) : List SessionRecord :=
  db.session_records.filter fun row =>
    row.session_id = session_id && record_type.all (fun type => row.record_type = type) &&
      active.all fun active => row.active = active

def loadDesignContent (codec : DesignCodec δ) (db : Database) (content_id : String) :
    Except StoreError δ :=
  match find BlobRow.content_id db.content_blobs content_id with
  | none => .error .notFound
  | some blob =>
    match codec.model_validate_json blob.payload with
    | none => .error .corruption
    | some design => .ok design

end Database

end ZapTrace
