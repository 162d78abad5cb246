import ZapTrace.Core.StateStore
import ZapTrace.Library.Run

/-!
# Integrity and isolation of the state store

In every database that calls on the store reach, heads and parents refer to versions of their own
design, every content that is referred to has a blob, and a call on one session leaves what the
other sessions read as it was.

The two go together: that a blob is deleted only when nothing refers to it is what integrity asks of
a deletion, and that the rows of a session refer to each other only is what isolation needs.

## Main results

* `kept_storeDesignWithConnection`, …, `kept_deleteSession`: what each call keeps
* `loadDesigns_eq`: what a session loads is decided by its own rows
* `state_store_integrity`: what holds over every sequence of calls
-/

namespace ZapTrace

open Database Prog List Table

/-! ## References -/

namespace Database

def VersionOf (db : Database) (session_id design_name version_id : String) : Prop :=
  ∃ v ∈ db.design_versions,
    v.version_id = version_id ∧ v.session_id = session_id ∧ v.design_name = design_name

def Stored (db : Database) (content_id : String) : Prop :=
  ∃ blob ∈ db.content_blobs, blob.content_id = content_id

theorem hasVersion_iff {db : Database} {version_id : String} :
    db.hasVersion version_id = true ↔ ∃ v ∈ db.design_versions, v.version_id = version_id := by
  simp [hasVersion, find]

theorem hasSession_iff {db : Database} {session_id : String} :
    db.hasSession session_id = true ↔ ∃ row ∈ db.sessions, row.session_id = session_id := by
  simp [hasSession, find]

theorem hasBlob_iff {db : Database} {content_id : String} :
    db.hasBlob content_id = true ↔ db.Stored content_id := by
  simp [hasBlob, Stored, find]

end Database

/-- The primary keys and the references of a database. -/
structure Integrity (db : Database) : Prop where
  versions_keyed : Table.Keyed DesignIdentity.version_id db.design_versions
  blobs_keyed : Table.Keyed BlobRow.content_id db.content_blobs
  heads_keyed : Table.Keyed HeadRow.key db.design_heads
  records_keyed : Table.Keyed SessionRecord.key db.session_records
  /-- A head points to a stored version of its own design. -/
  head_version : ∀ head ∈ db.design_heads,
    db.VersionOf head.session_id head.design_name head.version_id
  /-- The content of a version has a blob. -/
  version_blob : ∀ v ∈ db.design_versions, db.Stored v.content_id
  /-- The content of a record, when it has one, has a blob. -/
  record_blob : ∀ record ∈ db.session_records, ∀ c, record.content_id = some c → db.Stored c
  /-- The parent of a version, when it has one, is a version of the same design. -/
  parent_version : ∀ v ∈ db.design_versions, ∀ p, v.parent_version_id = some p →
    db.VersionOf v.session_id v.design_name p

/-- Session `B` has the same rows in both, and the blobs of its designs are kept. -/
structure SameFor (B : String) (db db' : Database) : Prop where
  heads : (db'.design_heads.filter fun row => row.session_id = B) =
    db.design_heads.filter fun row => row.session_id = B
  versions : (db'.design_versions.filter fun row => row.session_id = B) =
    db.design_versions.filter fun row => row.session_id = B
  records : (db'.session_records.filter fun row => row.session_id = B) =
    db.session_records.filter fun row => row.session_id = B
  blobs : ∀ v ∈ db.design_versions, v.session_id = B →
    ∀ blob ∈ db.content_blobs, blob.content_id = v.content_id → blob ∈ db'.content_blobs

/-- What a statement of a call on session `A`, which began in `db₀`, keeps. -/
structure Kept (A : String) (db₀ db : Database) : Prop where
  integrity : Integrity db
  same : ∀ B, B ≠ A → SameFor B db₀ db

theorem Integrity.empty : Integrity empty where
  versions_keyed := keyed_nil
  blobs_keyed := keyed_nil
  heads_keyed := keyed_nil
  records_keyed := keyed_nil
  head_version := fun _ h => by cases h
  version_blob := fun _ h => by cases h
  record_blob := fun _ h => by cases h
  parent_version := fun _ h => by cases h

theorem SameFor.refl (B : String) (db : Database) : SameFor B db db :=
  ⟨rfl, rfl, rfl, fun _ _ _ _ h _ => h⟩

theorem Integrity.kept {db : Database} (h : Integrity db) (A : String) : Kept A db db :=
  ⟨h, fun B _ => SameFor.refl B db⟩

theorem not_mem_selection {A B : String} (hB : B ≠ A) {s : String} (hs : s = A) :
    decide (s = B) = false :=
  decide_eq_false fun h => hB (h.symm.trans hs)

theorem filter_filter_of_ne {ρ : Type} {session : ρ → String} {A B : String} (hB : B ≠ A)
    {p : ρ → Bool} (hp : ∀ row, p row = true → session row = A) (t : List ρ) :
    ((t.filter fun row => !p row).filter fun row => session row = B) =
      t.filter fun row => session row = B := by
  rw [filter_filter]
  refine filter_congr fun row _ => ?_
  cases h : p row with
  | false => simp
  | true => simp [not_mem_selection hB (hp row h)]

/-! ## What each statement keeps -/

variable {δ : Type} {A : String} {db₀ : Database}

/-- The statements of a call may raise, since the call is then undone. -/
abbrev StatementKeeps {α : Type} (P : Database → Prop) (m : Statement α) (Q : α → Database → Prop) :
    Prop :=
  Prog.Triple P m Q fun _ _ => True

theorem StatementKeeps.of_ok {α : Type} {P : Database → Prop} {m : Statement α}
    {Q : α → Database → Prop}
    (h : ∀ db, P db → ∀ a db', m db = (.ok a, db') → Q a db') : StatementKeeps P m Q :=
  Prog.Triple.intro h fun _ _ _ _ _ => trivial
variable {db db' : Database}

@[simp] theorem require_eq_ok {constraint : Bool} {u : Unit} :
    require constraint db = (.ok u, db') ↔ constraint = true ∧ db = db' := by
  cases constraint <;> simp [require, eq_comm]

theorem kept_ensureSession (session_id timestamp : String) :
    StatementKeeps (Kept A db₀) (ensureSession session_id timestamp) fun _ => Kept A db₀ := by
  rintro db ⟨⟨hv, hb, hh, hr, h₁, h₂, h₃, h₄⟩, hsame⟩
  exact ⟨⟨hv, hb, hh, hr, h₁, h₂, h₃, h₄⟩, fun B hB => ⟨(hsame B hB).1, (hsame B hB).2, (hsame B hB).3,
    (hsame B hB).4⟩⟩

theorem kept_deleteAuditEvents (session_id : String) :
    StatementKeeps (Kept A db₀) (deleteAuditEvents session_id) fun _ => Kept A db₀ := by
  rintro db ⟨⟨hv, hb, hh, hr, h₁, h₂, h₃, h₄⟩, hsame⟩
  exact ⟨⟨hv, hb, hh, hr, h₁, h₂, h₃, h₄⟩, fun B hB => ⟨(hsame B hB).1, (hsame B hB).2, (hsame B hB).3,
    (hsame B hB).4⟩⟩

theorem kept_deleteSessionRow (session_id : String) :
    StatementKeeps (Kept A db₀) (deleteSessionRow session_id) fun _ => Kept A db₀ := by
  rintro db ⟨⟨hv, hb, hh, hr, h₁, h₂, h₃, h₄⟩, hsame⟩
  exact ⟨⟨hv, hb, hh, hr, h₁, h₂, h₃, h₄⟩, fun B hB => ⟨(hsame B hB).1, (hsame B hB).2, (hsame B hB).3,
    (hsame B hB).4⟩⟩

theorem kept_storeBlob (codec : DesignCodec δ) (payload media_type timestamp : String) :
    StatementKeeps (Kept A db₀) (storeBlob codec payload media_type timestamp)
      fun content_id db => Kept A db₀ db ∧ db.Stored content_id := by
  rintro db ⟨⟨hv, hb, hh, hr, h₁, h₂, h₃, h₄⟩, hsame⟩
  have hstored : ∀ c, db.Stored c → Database.Stored { db with
      content_blobs := insertOrIgnore BlobRow.content_id
        ⟨"sha256:" ++ codec.sha256 payload, media_type, payload, payload.utf8ByteSize, timestamp⟩
        db.content_blobs } c :=
    fun c ⟨blob, hblob, hc⟩ => ⟨blob, mem_insertOrIgnore_of_mem hblob, hc⟩
  refine ⟨⟨⟨hv, hb.insertOrIgnore, hh, hr, h₁, fun v hv => hstored _ (h₂ v hv),
    fun r hr c hc => hstored c (h₃ r hr c hc), h₄⟩, fun B hB => ?_⟩,
    exists_mem_insertOrIgnore BlobRow.content_id _ _⟩
  obtain ⟨hheads, hversions, hrecords, hblobs⟩ := hsame B hB
  exact ⟨hheads, hversions, hrecords, fun v hv hB blob hblob hc =>
    mem_insertOrIgnore_of_mem (hblobs v hv hB blob hblob hc)⟩

theorem insertVersion_eq_ok {row : DesignIdentity} {u : Unit} (h : insertVersion row db = (.ok u, db')) :
    (∀ v ∈ db.design_versions, v.version_id ≠ row.version_id) ∧ db.Stored row.content_id ∧
      db' = { db with design_versions := db.design_versions ++ [row] } := by
  simp only [insertVersion, bind_eq_ok, require_eq_ok, get_bind, modify_apply,
    Prod.mk.injEq, Bool.and_eq_true] at h
  obtain ⟨-, _, ⟨hnew, rfl⟩, -, _, ⟨⟨-, hblob⟩, rfl⟩, -, _, ⟨-, rfl⟩, -, rfl⟩ := h
  refine ⟨fun v hv hid => ?_, hasBlob_iff.mp hblob, rfl⟩
  simp [hasVersion_iff.mpr ⟨v, hv, hid⟩] at hnew

theorem kept_insertVersion (row : DesignIdentity) (hrow : row.session_id = A) :
    StatementKeeps
      (fun db => Kept A db₀ db ∧
        ∀ p, row.parent_version_id = some p → db.VersionOf A row.design_name p)
      (insertVersion row)
      fun _ db => Kept A db₀ db ∧ db.VersionOf A row.design_name row.version_id := by
  refine StatementKeeps.of_ok ?_
  rintro db ⟨⟨⟨hv, hb, hh, hr, h₁, h₂, h₃, h₄⟩, hsame⟩, hparent⟩ u db' h
  obtain ⟨hnew, hblob, rfl⟩ := insertVersion_eq_ok h
  have hmono : ∀ {s d id}, db.VersionOf s d id → Database.VersionOf { db with
      design_versions := db.design_versions ++ [row] } s d id :=
    fun ⟨v, hv, h⟩ => ⟨v, mem_append_left _ hv, h⟩
  refine ⟨⟨⟨hv.append hnew, hb, hh, hr, fun head hh => hmono (h₁ head hh), ?_, h₃, ?_⟩, fun B hB => ?_⟩,
    row, mem_append_right _ (mem_singleton_self row), rfl, hrow, rfl⟩
  · intro v hv
    rcases mem_append.mp hv with hv | hv
    · exact h₂ v hv
    · rw [mem_singleton.mp hv]
      exact hblob
  · intro v hv p hp
    rcases mem_append.mp hv with hv | hv
    · exact hmono (h₄ v hv p hp)
    · obtain rfl := mem_singleton.mp hv
      rw [hrow]
      exact hmono (hparent p hp)
  · obtain ⟨hheads, hversions, hrecords, hblobs⟩ := hsame B hB
    refine ⟨hheads, ?_, hrecords, hblobs⟩
    rw [filter_append, hversions, filter_cons_of_neg (by simp [not_mem_selection hB hrow])]
    simp

theorem upsertHead_eq_ok {row : HeadRow} {u : Unit} (h : upsertHead row db = (.ok u, db')) :
    db' = { db with
      design_heads := upsert HeadRow.key
        (fun head => { head with version_id := row.version_id, updated_at := row.updated_at })
        row db.design_heads } := by
  simp only [upsertHead, bind_eq_ok, require_eq_ok, get_bind, modify_apply,
    Prod.mk.injEq] at h
  obtain ⟨-, _, ⟨-, rfl⟩, -, rfl⟩ := h
  rfl

theorem kept_upsertHead (row : HeadRow) (hrow : row.session_id = A) :
    StatementKeeps (fun db => Kept A db₀ db ∧ db.VersionOf A row.design_name row.version_id)
      (upsertHead row) fun _ => Kept A db₀ := by
  refine StatementKeeps.of_ok ?_
  rintro db ⟨⟨⟨hv, hb, hh, hr, h₁, h₂, h₃, h₄⟩, hsame⟩, hversion⟩ u db' h
  obtain rfl := upsertHead_eq_ok h
  refine ⟨⟨hv, hb, hh.upsert fun _ => rfl, hr, fun head hh => ?_, h₂, h₃, h₄⟩, fun B hB => ?_⟩
  · rcases mem_upsert hh with ⟨hh, -⟩ | rfl | ⟨old, -, hkey, rfl⟩
    · exact h₁ head hh
    · rw [hrow]
      exact hversion
    · -- the head keeps its key, which is that of the row
      obtain ⟨hs, hd⟩ := Prod.mk.inj hkey
      show Database.VersionOf _ old.session_id old.design_name row.version_id
      rw [hs, hd, hrow]
      exact hversion
  · obtain ⟨hheads, hversions, hrecords, hblobs⟩ := hsame B hB
    refine ⟨?_, hversions, hrecords, hblobs⟩
    rw [← hheads]
    refine filter_upsert (fun _ => rfl) fun head hkey => not_mem_selection hB ?_
    exact (Prod.mk.inj hkey).1.trans hrow

theorem kept_upsertRecord (row : SessionRecord) (hrow : row.session_id = A) :
    StatementKeeps (Kept A db₀) (upsertRecord row) fun _ => Kept A db₀ := by
  refine StatementKeeps.of_ok ?_
  rintro db ⟨⟨hv, hb, hh, hr, h₁, h₂, h₃, h₄⟩, hsame⟩ u db' h
  simp only [upsertRecord, bind_eq_ok, require_eq_ok, get_bind, modify_bind,
    pure_apply, Prod.mk.injEq, Bool.and_eq_true] at h
  obtain ⟨-, _, ⟨⟨-, hcontent⟩, rfl⟩, -, rfl⟩ := h
  have hstored : ∀ c, row.content_id = some c → db.Stored c := fun c hc => by
    rw [hc] at hcontent
    exact hasBlob_iff.mp hcontent
  refine ⟨⟨hv, hb, hh, hr.upsert fun _ => rfl, h₁, h₂, fun r hr c hc => ?_, h₄⟩, fun B hB => ?_⟩
  · rcases mem_upsert hr with ⟨hr, -⟩ | rfl | ⟨old, -, -, rfl⟩
    · exact h₃ r hr c hc
    · exact hstored c hc
    · exact hstored c hc
  · obtain ⟨hheads, hversions, hrecords, hblobs⟩ := hsame B hB
    refine ⟨hheads, hversions, ?_, hblobs⟩
    rw [← hrecords]
    refine filter_upsert (fun _ => rfl) fun r hkey => not_mem_selection hB ?_
    exact (Prod.mk.inj hkey).1.trans hrow

theorem kept_deleteHeads (p : HeadRow → Bool) (hp : ∀ row, p row = true → row.session_id = A) :
    StatementKeeps (Kept A db₀) (deleteHeads p) fun _ => Kept A db₀ := by
  rintro db ⟨⟨hv, hb, hh, hr, h₁, h₂, h₃, h₄⟩, hsame⟩
  refine ⟨⟨hv, hb, hh.filter _, hr, fun head hh => h₁ head (mem_filter.mp hh).1, h₂, h₃, h₄⟩, fun B hB => ?_⟩
  obtain ⟨hheads, hversions, hrecords, hblobs⟩ := hsame B hB
  exact ⟨(filter_filter_of_ne hB hp _).trans hheads, hversions, hrecords, hblobs⟩

theorem kept_deleteRecords (p : SessionRecord → Bool)
    (hp : ∀ row, p row = true → row.session_id = A) :
    StatementKeeps (Kept A db₀) (deleteRecords p) fun _ => Kept A db₀ := by
  rintro db ⟨⟨hv, hb, hh, hr, h₁, h₂, h₃, h₄⟩, hsame⟩
  refine ⟨⟨hv, hb, hh, hr.filter _, h₁, h₂, fun r hr => h₃ r (mem_filter.mp hr).1, h₄⟩, fun B hB => ?_⟩
  obtain ⟨hheads, hversions, hrecords, hblobs⟩ := hsame B hB
  exact ⟨hheads, hversions, (filter_filter_of_ne hB hp _).trans hrecords, hblobs⟩

/-- The versions of `A` are deleted when nothing that stays refers to them; the other versions refer
to versions of their own session. -/
theorem kept_deleteVersions :
    StatementKeeps (Kept A db₀) (deleteVersions A) fun _ => Kept A db₀ := by
  refine StatementKeeps.of_ok ?_
  rintro db ⟨⟨hv, hb, hh, hr, h₁, h₂, h₃, h₄⟩, hsame⟩ u db' h
  simp only [deleteVersions, modify_bind, bind_eq_ok, get_bind, require_eq_ok] at h
  obtain ⟨-, _, ⟨hheads, rfl⟩, -, rfl⟩ := h
  rw [all_eq_true] at hheads
  refine ⟨⟨hv.filter _, hb, hh, hr, ?_, fun v hv => h₂ v (mem_filter.mp hv).1, h₃, ?_⟩, fun B hB => ?_⟩
  · intro head hh
    obtain ⟨v, hvmem, hid, hs, hd⟩ := h₁ head hh
    obtain ⟨v', hv', hid'⟩ := hasVersion_iff.mp (hheads head hh)
    -- the version that stays is the one that the head pointed to
    obtain rfl := hv.eq (mem_filter.mp hv').1 hvmem (hid'.trans hid.symm)
    exact ⟨v', hv', hid, hs, hd⟩
  · intro v hvmem p hp
    obtain ⟨hvmem, hstays⟩ := mem_filter.mp hvmem
    obtain ⟨parent, hparent, hid, hs, hd⟩ := h₄ v hvmem p hp
    exact ⟨parent, mem_filter.mpr ⟨hparent, by rwa [hs]⟩, hid, hs, hd⟩
  · obtain ⟨hheads, hversions, hrecords, hblobs⟩ := hsame B hB
    refine ⟨hheads, ?_, hrecords, hblobs⟩
    rw [← hversions, filter_filter]
    refine filter_congr fun row _ => ?_
    by_cases hrow : row.session_id = B
    · simp [hrow, hB]
    · simp [hrow]

theorem kept_deleteUnreferencedBlobs :
    StatementKeeps (Kept A db₀) deleteUnreferencedBlobs fun _ => Kept A db₀ := by
  rintro db ⟨⟨hv, hb, hh, hr, h₁, h₂, h₃, h₄⟩, hsame⟩
  refine ⟨⟨hv, hb.filter _, hh, hr, h₁, ?_, ?_, h₄⟩, fun B hB => ?_⟩
  · intro v hvmem
    obtain ⟨blob, hblob, hc⟩ := h₂ v hvmem
    refine ⟨blob, mem_filter.mpr ⟨hblob, ?_⟩, hc⟩
    rw [Bool.or_eq_true, any_eq_true]
    exact .inl ⟨v, hvmem, by simp [hc]⟩
  · intro r hr c hrc
    obtain ⟨blob, hblob, hc⟩ := h₃ r hr c hrc
    refine ⟨blob, mem_filter.mpr ⟨hblob, ?_⟩, hc⟩
    rw [Bool.or_eq_true, any_eq_true, any_eq_true]
    exact .inr ⟨r, hr, by simp [hrc, hc]⟩
  · obtain ⟨hheads, hversions, hrecords, hblobs⟩ := hsame B hB
    refine ⟨hheads, hversions, hrecords, fun v hvmem hvB blob hblob hc => ?_⟩
    refine mem_filter.mpr ⟨hblobs v hvmem hvB blob hblob hc, ?_⟩
    -- the version is still there, so its content is still referred to
    have hstays : v ∈ db.design_versions.filter fun row => row.session_id = B := by
      rw [hversions]
      exact mem_filter.mpr ⟨hvmem, by simpa using hvB⟩
    rw [Bool.or_eq_true, any_eq_true]
    exact .inl ⟨v, (mem_filter.mp hstays).1, by simp [hc]⟩

/-! ## What each call keeps -/

theorem versionOf_currentVersion {db : Database} (h : Integrity db) {design_name : String}
    {row : DesignIdentity} (hrow : db.currentVersion A design_name = some row) :
    db.VersionOf A design_name row.version_id := by
  obtain ⟨head, hhead, hfind⟩ := Option.bind_eq_some_iff.mp hrow
  obtain ⟨hmem, hkey⟩ := mem_of_find hhead
  obtain ⟨-, hid⟩ := mem_of_find hfind
  obtain ⟨hs, hd⟩ := Prod.mk.inj hkey
  have := h.head_version head hmem
  rwa [hs, hd, ← hid] at this

theorem kept_storeDesignWithConnection (codec : DesignCodec δ) (design_name : String) (design : δ)
    (operation : String) (record_duplicate : Bool) (version_id timestamp : String) :
    StatementKeeps (Kept A db₀)
      (storeDesignWithConnection codec A design_name design operation record_duplicate version_id
        timestamp) fun _ => Kept A db₀ := by
  refine (kept_ensureSession A timestamp).bind fun _ => ?_
  refine (kept_storeBlob codec _ _ timestamp).bind fun content_id => ?_
  refine Prog.Triple.get_bind fun db hdb => ?_
  dsimp only
  split
  · -- the content is the current one, and no duplicate is recorded
    rintro _ rfl
    exact hdb.1
  · have hparent : ∀ t, t = db → Kept A db₀ t ∧
        ∀ p, (db.currentVersion A design_name).map DesignIdentity.version_id = some p →
          t.VersionOf A design_name p := by
      rintro _ rfl
      refine ⟨hdb.1, fun p hp => ?_⟩
      obtain ⟨row, hrow, rfl⟩ := Option.map_eq_some_iff.mp hp
      exact versionOf_currentVersion hdb.1.integrity hrow
    refine ((kept_insertVersion _ rfl).pre hparent).bind fun _ => ?_
    exact (kept_upsertHead ⟨A, design_name, version_id, timestamp⟩ rfl).bind fun _ db hdb => hdb

theorem kept_transaction {α : Type} {m : Statement α} {db : Database}
    (hm : StatementKeeps (Kept A db) m fun _ => Kept A db) (h : Integrity db) :
    Kept A db (transaction m db).2 := by
  rcases hm.transaction_cases (h.kept A) with ⟨a, db', heq, hkept⟩ | ⟨e, heq⟩
  · rw [heq]
    exact hkept
  · rw [heq]
    exact h.kept A

inductive StoreAction (δ : Type)
  | storeDesign (session_id design_name : String) (design : δ) (operation : String)
      (record_duplicate : Bool) (version_id timestamp : String)
  | replaceSessionDesigns (session_id : String) (designs : List (String × δ)) (operation : String)
      (version_ids : String → String) (timestamp : String)
  | upsertDesignRecord (design : δ) (row : SessionRecord)
  | upsertSessionRecord (row : SessionRecord)
  | deleteSessionRecord (session_id record_type record_id : String)
  | deleteSessionRecords (session_id record_type : String) (design_name : Option String)
  | deleteSession (session_id : String)

namespace StoreAction

/-- The session a call is made for. -/
def session : StoreAction δ → String
  | storeDesign session_id .. => session_id
  | replaceSessionDesigns session_id .. => session_id
  | upsertDesignRecord _ row => row.session_id
  | upsertSessionRecord row => row.session_id
  | deleteSessionRecord session_id .. => session_id
  | deleteSessionRecords session_id .. => session_id
  | deleteSession session_id => session_id

/-- The database after a call, which may have raised. -/
def after (codec : DesignCodec δ) (db : Database) : StoreAction δ → Database
  | storeDesign session_id design_name design operation record_duplicate version_id timestamp =>
    (ZapTrace.storeDesign codec session_id design_name design operation record_duplicate version_id
      timestamp db).2
  | replaceSessionDesigns session_id designs operation version_ids timestamp =>
    (ZapTrace.replaceSessionDesigns codec session_id designs operation version_ids timestamp db).2
  | upsertDesignRecord design row => (ZapTrace.upsertDesignRecord codec design row db).2
  | upsertSessionRecord row => (ZapTrace.upsertSessionRecord row db).2
  | deleteSessionRecord session_id record_type record_id =>
    (ZapTrace.deleteSessionRecord session_id record_type record_id db).2
  | deleteSessionRecords session_id record_type design_name =>
    (ZapTrace.deleteSessionRecords session_id record_type design_name db).2
  | deleteSession session_id => (ZapTrace.deleteSession session_id db).2

/-- A call is possible in every database. -/
def step (codec : DesignCodec δ) (db : Database) (action : StoreAction δ) : Option Database :=
  some (action.after codec db)

end StoreAction

variable {db : Database}

theorem kept_storeDesign (codec : DesignCodec δ) (design_name : String) (design : δ)
    (operation : String) (record_duplicate : Bool) (version_id timestamp : String)
    (h : Integrity db) :
    Kept A db (storeDesign codec A design_name design operation record_duplicate version_id
      timestamp db).2 :=
  kept_transaction (kept_storeDesignWithConnection codec design_name design operation
    record_duplicate version_id timestamp) h

theorem kept_replaceSessionDesigns (codec : DesignCodec δ) (designs : List (String × δ))
    (operation : String) (version_ids : String → String) (timestamp : String) (h : Integrity db) :
    Kept A db (replaceSessionDesigns codec A designs operation version_ids timestamp db).2 := by
  refine kept_transaction ?_ h
  refine (kept_ensureSession A timestamp).bind fun _ => ?_
  refine (kept_deleteHeads _ fun head hp => ?_).bind fun _ => ?_
  · rw [Bool.and_eq_true] at hp
    simpa using hp.1
  · -- the heads that stay are set one by one
    refine Prog.Triple.forEach (I := fun _ => Kept A db) (fun item _ => ?_) _
    exact (kept_storeDesignWithConnection codec item.1 item.2 operation true _ timestamp).bind
      fun _ db hdb => hdb

theorem kept_upsertSessionRecord (row : SessionRecord) (h : Integrity db) :
    Kept row.session_id db (upsertSessionRecord row db).2 := by
  refine kept_transaction ?_ h
  exact (kept_ensureSession row.session_id row.updated_at).bind fun _ => kept_upsertRecord row rfl

theorem kept_upsertDesignRecord (codec : DesignCodec δ) (design : δ) (row : SessionRecord)
    (h : Integrity db) : Kept row.session_id db (upsertDesignRecord codec design row db).2 := by
  refine kept_transaction ?_ h
  refine (kept_ensureSession row.session_id row.updated_at).bind fun _ => ?_
  refine (kept_storeBlob codec _ _ row.updated_at).bind fun content_id => ?_
  refine (kept_upsertRecord _ ?_).pre fun _ hdb => hdb.1
  rfl

theorem kept_deleteSessionRecord (record_type record_id : String) (h : Integrity db) :
    Kept A db (deleteSessionRecord A record_type record_id db).2 := by
  refine kept_transaction ?_ h
  refine (kept_deleteRecords _ fun row hp => ?_).bind fun _ db hdb => hdb
  exact (Prod.mk.inj (of_decide_eq_true hp)).1

theorem kept_deleteSessionRecords (record_type : String) (design_name : Option String)
    (h : Integrity db) : Kept A db (deleteSessionRecords A record_type design_name db).2 := by
  refine kept_transaction ?_ h
  refine kept_deleteRecords _ fun row hp => ?_
  rw [Bool.and_eq_true, Bool.and_eq_true] at hp
  simpa using hp.1.1

theorem kept_deleteSession (h : Integrity db) : Kept A db (deleteSession A db).2 := by
  refine kept_transaction ?_ h
  refine Prog.Triple.get_bind fun db' hdb' => ?_
  have hbegin : ∀ t, t = db' → Kept A db t := by
    rintro _ rfl
    exact hdb'
  refine ((kept_deleteHeads _ fun head hp => of_decide_eq_true hp).pre hbegin).bind fun _ => ?_
  refine (kept_deleteRecords _ fun row hp => of_decide_eq_true hp).bind fun _ => ?_
  refine (kept_deleteAuditEvents A).bind fun _ => ?_
  refine kept_deleteVersions.bind fun _ => ?_
  refine (kept_deleteSessionRow A).bind fun _ => ?_
  exact kept_deleteUnreferencedBlobs.bind fun _ db hdb => hdb

/-- **The step lemma**: a call keeps the references of the database, and the rows of every session
but its own. -/
theorem kept_after (codec : DesignCodec δ) (action : StoreAction δ) (h : Integrity db) :
    Kept action.session db (action.after codec db) := by
  cases action with
  | storeDesign _ design_name design operation record_duplicate version_id timestamp =>
    exact kept_storeDesign codec design_name design operation record_duplicate version_id timestamp h
  | replaceSessionDesigns _ designs operation version_ids timestamp =>
    exact kept_replaceSessionDesigns codec designs operation version_ids timestamp h
  | upsertDesignRecord design row => exact kept_upsertDesignRecord codec design row h
  | upsertSessionRecord row => exact kept_upsertSessionRecord row h
  | deleteSessionRecord _ record_type record_id =>
    exact kept_deleteSessionRecord record_type record_id h
  | deleteSessionRecords _ record_type design_name =>
    exact kept_deleteSessionRecords record_type design_name h
  | deleteSession _ => exact kept_deleteSession h

/-! ## What a session reads -/

theorem designPayloads_eq {B : String} (h : Integrity db) (h' : Integrity db') (hsame : SameFor B db db') :
    db'.designPayloads B = db.designPayloads B := by
  unfold designPayloads
  rw [hsame.heads]
  refine filterMap_congr fun head hhead => ?_
  obtain ⟨hmem, hB⟩ := mem_filter.mp ((perm_insertionSort _ _).mem_iff.mp hhead)
  obtain ⟨v, hv, hid, hs, -⟩ := h.head_version head hmem
  obtain ⟨blob, hblob, hc⟩ := h.version_blob v hv
  have hvB : v.session_id = B := hs.trans (of_decide_eq_true hB)
  have hv' : v ∈ db'.design_versions := by
    have hsel : v ∈ db'.design_versions.filter fun row => row.session_id = B := by
      rw [hsame.versions]
      exact mem_filter.mpr ⟨hv, decide_eq_true hvB⟩
    exact (mem_filter.mp hsel).1
  have hblob' := hsame.blobs v hv hvB blob hblob hc
  -- in both databases the two joins find the same rows
  rw [(find_eq_some_iff h'.versions_keyed).mpr ⟨hv', hid⟩,
    (find_eq_some_iff h.versions_keyed).mpr ⟨hv, hid⟩, Option.bind_eq_bind,
    Option.bind_eq_bind, Option.bind_some, Option.bind_some,
    (find_eq_some_iff h'.blobs_keyed).mpr ⟨hblob', hc⟩,
    (find_eq_some_iff h.blobs_keyed).mpr ⟨hblob, hc⟩]

theorem loadDesigns_eq (codec : DesignCodec δ) {B : String} (h : Integrity db) (h' : Integrity db')
    (hsame : SameFor B db db') : db'.loadDesigns codec B = db.loadDesigns codec B := by
  unfold loadDesigns
  rw [designPayloads_eq h h' hsame]

theorem listDesignVersions_eq {B : String} (hsame : SameFor B db db') (design_name : String) :
    db'.listDesignVersions B design_name = db.listDesignVersions B design_name := by
  have hsplit : ∀ t : List DesignIdentity,
      (t.filter fun row => decide (row.session_id = B) && decide (row.design_name = design_name)) =
        (t.filter fun row => row.session_id = B).filter fun row => row.design_name = design_name :=
    fun t => by
      rw [filter_filter]
      exact filter_congr fun row _ => Bool.and_comm _ _
  unfold listDesignVersions
  rw [hsplit, hsplit, hsame.versions]

theorem always_integrity (codec : DesignCodec δ) (actions : List (StoreAction δ)) :
    Run.Always (StoreAction.step codec) empty actions Integrity :=
  Run.always_of_invariant Integrity.empty fun db action db' h hstep => by
    obtain rfl := Option.some.inj hstep
    exact (kept_after codec action h).integrity

/-- **Integrity and isolation**: in every database that calls reach, heads and parents refer to
versions of their own design and every content has a blob; and no call changes what another session
loads or the versions it lists. -/
theorem state_store_integrity (codec : DesignCodec δ) (actions : List (StoreAction δ)) :
    Run.Always (StoreAction.step codec) empty actions
      (fun db =>
        (∀ head ∈ db.design_heads, db.VersionOf head.session_id head.design_name head.version_id) ∧
        (∀ v ∈ db.design_versions, db.Stored v.content_id) ∧
        (∀ record ∈ db.session_records, ∀ c, record.content_id = some c → db.Stored c) ∧
        ∀ v ∈ db.design_versions, ∀ p, v.parent_version_id = some p →
          db.VersionOf v.session_id v.design_name p) ∧
    Run.EachStep (StoreAction.step codec) empty actions fun db action =>
      ∀ B, B ≠ action.session →
        (action.after codec db).loadDesigns codec B = db.loadDesigns codec B ∧
        ∀ design_name,
          (action.after codec db).listDesignVersions B design_name =
            db.listDesignVersions B design_name := by
  have hall := always_integrity codec actions
  constructor
  · exact hall.mono fun db h => ⟨h.head_version, h.version_blob, h.record_blob, h.parent_version⟩
  · intro pre action hpre db db' hdb _ B hB
    have h := hall pre ((prefix_append pre [action]).trans hpre) db hdb
    have hkept := kept_after codec action h
    have hsame := hkept.same B hB
    exact ⟨loadDesigns_eq codec h hkept.integrity hsame, listDesignVersions_eq hsame⟩

end ZapTrace
