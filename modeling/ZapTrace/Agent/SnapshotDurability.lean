import ZapTrace.Agent.Snapshots
import ZapTrace.Core.StateStoreContents

/-!
# Snapshots survive a rebuild

The memory of a session keys its snapshots by design name and label, the durable store by one text
that joins the two. The two agree as long as no two snapshots in memory have the same text: rebuilding
the session from the store then gives back exactly the snapshots that were in memory, and the step
that takes a snapshot whose text is another's is the step that loses it.

## Main results

* `rebuildSession_snapshotAt`: a rebuilt session has the snapshots that are recorded
* `snapshotsDurable_after_iff`: what a step does to the agreement
* `always_snapshotsDurable_iff`: the runs in which memory and store agree
-/

namespace ZapTrace

open SnapshotAction Prog AgentSession List Dict Prod

variable {δ : Type} {codec : DesignCodec δ} {db : Database}

/-! ## What the calls do to records and blobs -/

theorem storeDesign_frame (hdb : Addressed codec db) (session_id design_name : String) (design : δ)
    (operation : String) (record_duplicate : Bool) (version_id timestamp : String) :
    (storeDesign codec session_id design_name design operation record_duplicate version_id timestamp
        db).2.session_records = db.session_records ∧
      Addressed codec (storeDesign codec session_id design_name design operation record_duplicate
        version_id timestamp db).2 := by
  have hstatement : StatementKeeps
      (fun db' => db'.session_records = db.session_records ∧ Addressed codec db')
      (storeDesignWithConnection codec session_id design_name design operation record_duplicate
        version_id timestamp)
      fun _ db' => db'.session_records = db.session_records ∧ Addressed codec db' := by
    refine StatementKeeps.of_ok ?_
    rintro db₁ ⟨hrecords, haddressed⟩ row db₂ h
    simp only [storeDesignWithConnection, ensureSession, storeBlob, bind_assoc, modify_bind,
      pure_bind, get_bind] at h
    have hblobs := addressed_insert haddressed design designMediaType timestamp
    generalize Option.filter _ (Database.currentVersion _ session_id design_name) = current at h
    rcases current with _ | row
    rotate_left
    · obtain ⟨-, rfl⟩ := mk.inj h
      exact ⟨hrecords, hblobs⟩
    · obtain ⟨_, db₃, hinsert, h⟩ := bind_eq_ok.mp h
      obtain ⟨-, -, rfl⟩ := insertVersion_eq_ok hinsert
      obtain ⟨_, db₄, hhead, h⟩ := bind_eq_ok.mp h
      obtain ⟨-, rfl⟩ := mk.inj h
      obtain rfl := upsertHead_eq_ok hhead
      exact ⟨hrecords, hblobs⟩
  rcases Prog.Triple.transaction_cases hstatement ⟨rfl, hdb⟩ with ⟨row, db', heq, h⟩ | ⟨e, heq⟩
  · rw [storeDesign, heq]
    exact h
  · rw [storeDesign, heq]
    exact ⟨rfl, hdb⟩

/-- What a record that was written holds. -/
structure Written (codec : DesignCodec δ) (design : δ) (row r : SessionRecord) : Prop where
  key : r.key = row.key
  design_name : r.design_name = row.design_name
  content_id : r.content_id = some (codec.contentId design)
  metadata : r.metadata = row.metadata

theorem upsertRecord_spec (codec : DesignCodec δ) (design : δ) (row : SessionRecord) (hsession : db.hasSession row.session_id)
    (hblob : db.Stored (codec.contentId design))
    (hcontent : row.content_id = some (codec.contentId design)) :
    ∃ record db', upsertRecord row db = (.ok record, db') ∧
      db'.content_blobs = db.content_blobs ∧
      (∀ r ∈ db'.session_records, r ∈ db.session_records ∧ r.key ≠ row.key ∨
        Written codec design row r) ∧
      (∀ r ∈ db.session_records, r.key ≠ row.key → r ∈ db'.session_records) ∧
      ∃ r ∈ db'.session_records, Written codec design row r := by
  have hmet : (db.hasSession row.session_id && row.content_id.all db.hasBlob) = true := by
    rw [hsession, hcontent, Option.all_some, Database.hasBlob_iff.mpr hblob]
    rfl
  simp only [upsertRecord, get_bind, hmet, require, if_true, pure_bind, modify_bind,
    pure_apply]
  refine ⟨_, _, rfl, rfl, fun r hr => ?_, fun r hr hkey => Table.mem_upsert_of_ne hr hkey, ?_⟩
  · rcases Table.mem_upsert hr with h | rfl | ⟨old, -, hkey, rfl⟩
    · exact .inl h
    · exact .inr ⟨rfl, rfl, hcontent, rfl⟩
    · exact .inr ⟨hkey, rfl, hcontent, rfl⟩
  · obtain ⟨r, hr, hkey, rfl | ⟨old, rfl⟩⟩ := Table.exists_mem_upsert SessionRecord.key
      (fun record =>
        { record with
          design_name := row.design_name
          content_id := row.content_id
          metadata := row.metadata
          active := row.active
          protect := row.protect
          updated_at := row.updated_at }) (fun _ => rfl) _ db.session_records
    · exact ⟨_, hr, hkey, rfl, hcontent, rfl⟩
    · exact ⟨_, hr, hkey, rfl, hcontent, rfl⟩

/-- The records and blobs after a record of a design is upserted: the row of its key is the one
written, and the others stay. -/
theorem upsertDesignRecord_spec (hdb : Addressed codec db) (design : δ) (row : SessionRecord) :
    let db' := (upsertDesignRecord codec design row db).2
    (∀ r ∈ db'.session_records, r ∈ db.session_records ∧ r.key ≠ row.key ∨
      Written codec design row r) ∧
    (∀ r ∈ db.session_records, r.key ≠ row.key → r ∈ db'.session_records) ∧
    (∃ r ∈ db'.session_records, Written codec design row r) ∧ Addressed codec db' := by
  -- the session and the blob are there when the record is written
  let db₁ : Database :=
    { db with
      sessions := Table.upsert SessionRow.session_id
        (fun r => { r with updated_at := row.updated_at })
        ⟨row.session_id, row.updated_at, row.updated_at⟩ db.sessions
      content_blobs := Table.insertOrIgnore BlobRow.content_id
        ⟨codec.contentId design, designMediaType, codec.canonical_design_payload design,
          (codec.canonical_design_payload design).utf8ByteSize, row.updated_at⟩ db.content_blobs }
  have hsession : db₁.hasSession row.session_id = true := by
    obtain ⟨r, hr, hkey, -⟩ := Table.exists_mem_upsert SessionRow.session_id
      (fun r => { r with updated_at := row.updated_at }) (fun _ => rfl)
      ⟨row.session_id, row.updated_at, row.updated_at⟩ db.sessions
    exact Database.hasSession_iff.mpr ⟨r, hr, hkey⟩
  have hblob : db₁.Stored (codec.contentId design) :=
    Table.exists_mem_insertOrIgnore BlobRow.content_id _ db.content_blobs
  obtain ⟨record, db', heq, hblobs, hrecords⟩ := upsertRecord_spec codec design
    { row with content_id := some (codec.contentId design) } hsession hblob rfl
  have hcall : upsertDesignRecord codec design row db = (.ok record, db') :=
    transaction_of_ok heq
  have hwritten : ∀ r, Written codec design { row with content_id := some (codec.contentId design) } r →
      Written codec design row r := fun r h => ⟨h.key, h.design_name, h.content_id, h.metadata⟩
  rw [hcall]
  refine ⟨fun r hr => (hrecords.1 r hr).imp id (hwritten r), hrecords.2.1, ?_, ?_⟩
  · obtain ⟨r, hr, h⟩ := hrecords.2.2
    exact ⟨r, hr, hwritten r h⟩
  · unfold Addressed
    rw [hblobs]
    exact addressed_insert hdb design designMediaType row.updated_at

/-! ## Recorded snapshots -/

/-- The record holds the snapshot of a design under a label. -/
structure RecordOf (codec : DesignCodec δ) (session_id : String) (r : SessionRecord)
    (design_name label : String) (design : δ) : Prop where
  key : r.key = (session_id, "snapshot", snapshotRecordId design_name label)
  name : r.design_name = design_name
  metadata : r.metadata.get? "label" = some (.str label)
  label_ne : label ≠ ""
  content : r.content_id = some (codec.contentId design)

/-- The store has a record of a snapshot. -/
def Recorded (codec : DesignCodec δ) (session_id : String) (db : Database)
    (design_name label : String) (design : δ) : Prop :=
  ∃ r ∈ db.session_records, RecordOf codec session_id r design_name label design

/-- What the store keeps: keys and references, the payloads of designs, and well-formed snapshot
records. -/
structure SnapshotStore (codec : DesignCodec δ) (session_id : String) (db : Database) : Prop where
  integrity : Integrity db
  addressed : Addressed codec db
  records : ∀ r ∈ db.session_records, r.session_id = session_id → r.record_type = "snapshot" →
    ∃ design_name label design, RecordOf codec session_id r design_name label design

variable {session_id : String} (py : PyText)

variable {r : SessionRecord}

theorem RecordOf.unique (hcodec : codec.Lossless) {n n' l l' : String} {d d' : δ}
    (h : RecordOf codec session_id r n l d) (h' : RecordOf codec session_id r n' l' d') : n = n' ∧ l = l' ∧ d = d' := by
  refine ⟨h.name.symm.trans h'.name, ?_, ?_⟩
  · exact PyValue.str.inj (Option.some.inj (h.metadata.symm.trans h'.metadata))
  · exact hcodec.contentId_injective (Option.some.inj (h.content.symm.trans h'.content))

theorem Recorded.unique (hcodec : codec.Lossless) (hdb : SnapshotStore codec session_id db)
    {n n' l l' : String} {d d' : δ} (h : Recorded codec session_id db n l d)
    (h' : Recorded codec session_id db n' l' d')
    (hid : snapshotRecordId n l = snapshotRecordId n' l') : n = n' ∧ l = l' ∧ d = d' := by
  obtain ⟨r, hr, hof⟩ := h
  obtain ⟨r', hr', hof'⟩ := h'
  have hkey : r.key = r'.key := by rw [hof.key, hof'.key, hid]
  obtain rfl := hdb.integrity.records_keyed.eq hr hr' hkey
  exact hof.unique hcodec hof'

theorem Recorded.stored (hdb : SnapshotStore codec session_id db) {n l : String} {d : δ}
    (h : Recorded codec session_id db n l d) : db.Stored (codec.contentId d) := by
  obtain ⟨r, hr, hof⟩ := h
  exact hdb.integrity.record_blob r hr _ hof.content

/-! ## Rebuilding -/

theorem snapshotAt_hydrateSnapshot (r : SessionRecord) (design : δ) (session : AgentSession δ)
    (n l : String) :
    (hydrateSnapshot py r design session).snapshotAt n l =
      if n = r.design_name ∧ l = recordLabel py r then some design else session.snapshotAt n l := by
  exact getIn_setIn_getD _ _ _ _ _ _

theorem contentId_ne_empty (codec : DesignCodec δ) (design : δ) : codec.contentId design ≠ "" := by
  intro h
  have := congrArg String.length h
  simp [DesignCodec.contentId, String.length_append] at this

theorem hydrate_recordOf (hcodec : codec.Lossless) (hdb : SnapshotStore codec session_id db)
    (hr : r ∈ db.session_records) {n l : String} {d : δ} (h : RecordOf codec session_id r n l d)
    (session : AgentSession δ) :
    ∃ session', hydratePersistentRecord codec py db session r = .ok session' ∧
      ∀ n' l', session'.snapshotAt n' l' =
        if n' = n ∧ l' = l then some d else session.snapshotAt n' l' := by
  have htype : r.record_type = "snapshot" := (mk.inj (mk.inj h.key).2).1
  have hlabel : recordLabel py r = l := by
    simp [recordLabel, h.metadata, PyValue.truthy, h.label_ne, pyStr]
  have hload : recordContent codec db r = .ok (some d) := by
    have hd := loadDesignContent_contentId hcodec hdb.addressed (Recorded.stored hdb ⟨r, hr, h⟩)
    simp [recordContent, h.content, Option.filter, contentId_ne_empty, hd, Except.map]
  refine ⟨hydrateSnapshot py r d session, ?_, fun n' l' => ?_⟩
  · rw [hydratePersistentRecord, if_pos htype, hload]
    rfl
  · rw [snapshotAt_hydrateSnapshot, h.name, hlabel]

theorem hydrate_other (hcodec : codec.Lossless) (hdb : SnapshotStore codec session_id db) (hr : r ∈ db.session_records)
    (htype : r.record_type ≠ "snapshot") (session : AgentSession δ) :
    ∃ session', hydratePersistentRecord codec py db session r = .ok session' ∧
      ∀ n l, session'.snapshotAt n l = session.snapshotAt n l := by
  have hload : ∃ candidate, recordContent codec db r = .ok candidate := by
    unfold recordContent
    split
    · rename_i c hc
      have hcontent := (Option.filter_eq_some_iff.mp hc).1
      obtain ⟨d, hd⟩ := loadDesignContent_ok hcodec hdb.addressed
        (hdb.integrity.record_blob r hr c hcontent)
      exact ⟨some d, by rw [hd]; rfl⟩
    · exact ⟨none, rfl⟩
  obtain ⟨candidate, hcandidate⟩ := hload
  rw [hydratePersistentRecord, if_neg htype, hydrateOther, hcandidate]
  split
  · exact ⟨_, rfl, fun _ _ => rfl⟩
  · split
    · exact ⟨_, rfl, fun _ _ => rfl⟩
    · split
      · exact ⟨_, rfl, fun _ _ => rfl⟩
      · exact ⟨_, rfl, fun _ _ => rfl⟩

/-- Records put back one after the other: a snapshot is there when a record holds it, or when it was
there and no record has its name and label. -/
theorem hydrate_records (hcodec : codec.Lossless) (hdb : SnapshotStore codec session_id db)
    (rows : List SessionRecord)
    (hrows : ∀ r ∈ rows, r ∈ db.session_records ∧ r.session_id = session_id)
    (hkeyed : Table.Keyed SessionRecord.key rows) (session : AgentSession δ) :
    ∃ session', rows.foldlM (hydratePersistentRecord codec py db) session = .ok session' ∧
      ∀ n l d, session'.snapshotAt n l = some d ↔
        (∃ r ∈ rows, RecordOf codec session_id r n l d) ∨
          session.snapshotAt n l = some d ∧
            ∀ r ∈ rows, ∀ d', ¬ RecordOf codec session_id r n l d' := by
  induction rows generalizing session with
  | nil => exact ⟨session, rfl, fun n l d => by simp⟩
  | cons r rows ih =>
    obtain ⟨hr, hsession⟩ := hrows r mem_cons_self
    have htail := fun s => ih (fun r' hr' => hrows r' (mem_cons_of_mem _ hr'))
      (pairwise_cons.mp hkeyed).2 s
    by_cases htype : r.record_type = "snapshot"
    · obtain ⟨n₀, l₀, d₀, hof⟩ := hdb.records r hr hsession htype
      obtain ⟨session₁, hok, hsnap⟩ := hydrate_recordOf py hcodec hdb hr hof session
      obtain ⟨session', hok', hrest⟩ := htail session₁
      refine ⟨session', by rw [foldlM_cons, hok]; exact hok', fun n l d => ?_⟩
      rw [hrest, hsnap]
      by_cases heq : n = n₀ ∧ l = l₀
      · -- no later record has the key of this one
        obtain ⟨rfl, rfl⟩ := heq
        have hnone : ∀ r' ∈ rows, ∀ d', ¬ RecordOf codec session_id r' n l d' :=
          fun r' hr' d' h' => (pairwise_cons.mp hkeyed).1 r' hr' (hof.key.trans h'.key.symm)
        rw [if_pos ⟨rfl, rfl⟩]
        constructor
        · rintro (⟨r', hr', h'⟩ | ⟨hd, -⟩)
          · exact absurd h' (hnone r' hr' d)
          · obtain rfl := Option.some.inj hd
            exact .inl ⟨r, mem_cons_self, hof⟩
        · rintro (⟨r', hr', h'⟩ | ⟨-, hno⟩)
          · rcases mem_cons.mp hr' with rfl | hr'
            · obtain ⟨-, -, rfl⟩ := hof.unique hcodec h'
              exact .inr ⟨rfl, hnone⟩
            · exact absurd h' (hnone r' hr' d)
          · exact absurd hof (hno r mem_cons_self d₀)
      · have hne : ∀ d', ¬ RecordOf codec session_id r n l d' := fun d' h' => by
          obtain ⟨rfl, rfl, -⟩ := hof.unique hcodec h'
          exact heq ⟨rfl, rfl⟩
        rw [if_neg heq]
        simp only [mem_cons, exists_eq_or_imp, forall_eq_or_imp, hne, false_or,
          not_false_eq_true, implies_true, true_and]
    · obtain ⟨session₁, hok, hsnap⟩ := hydrate_other py hcodec hdb hr htype session
      obtain ⟨session', hok', hrest⟩ := htail session₁
      refine ⟨session', by rw [foldlM_cons, hok]; exact hok', fun n l d => ?_⟩
      have hne : ∀ d', ¬ RecordOf codec session_id r n l d' := fun d' h' =>
        htype (mk.inj (mk.inj h'.key).2).1
      rw [hrest, hsnap]
      simp only [mem_cons, exists_eq_or_imp, forall_eq_or_imp, hne, false_or,
        not_false_eq_true, implies_true, true_and]

/-- **A rebuilt session has the snapshots that are recorded.** -/
theorem rebuildSession_snapshotAt (hcodec : codec.Lossless) (hdb : SnapshotStore codec session_id db) :
    ∃ session, rebuildSession codec py db session_id = .ok session ∧
      ∀ n l d, session.snapshotAt n l = some d ↔ Recorded codec session_id db n l d := by
  obtain ⟨designs, hdesigns⟩ := loadDesigns_ok hcodec hdb.addressed session_id
  have hmem : ∀ r, r ∈ db.listSessionRecords session_id none none ↔
      r ∈ db.session_records ∧ r.session_id = session_id := by
    simp [Database.listSessionRecords]
  obtain ⟨session, hok, hsnap⟩ := hydrate_records py hcodec hdb
    (db.listSessionRecords session_id none none) (fun r hr => (hmem r).mp hr)
    (hdb.integrity.records_keyed.filter _)
    (ofDesigns (designs.foldl (fun d item => d.set item.1 item.2) empty))
  refine ⟨session, ?_, fun n l d => ?_⟩
  · rw [rebuildSession, hdesigns]
    exact hok
  · rw [hsnap]
    constructor
    · rintro (⟨r, hr, hof⟩ | ⟨hd, -⟩)
      · exact ⟨r, ((hmem r).mp hr).1, hof⟩
      · cases hd
    · rintro ⟨r, hr, hof⟩
      exact .inl ⟨r, (hmem r).mpr ⟨hr, (mk.inj hof.key).1⟩, hof⟩

/-! ## Steps -/

def SnapshotsDurable (codec : DesignCodec δ) (py : PyText) (session_id : String) (w : AgentWorld δ) :
    Prop :=
  ∃ session, rebuildSession codec py w.db session_id = .ok session ∧
    ∀ design_name label,
      session.snapshotAt design_name label = w.session.snapshotAt design_name label

/-- The text of the snapshot to be taken is that of no other snapshot in memory. -/
def SnapshotAction.KeyUnshared (w : AgentWorld δ) : SnapshotAction δ → Prop
  | .snapshot design_name label now_ms _ =>
    (w.session.designs.get? design_name).isSome → ∀ n l d, w.session.snapshotAt n l = some d →
      n ++ ":" ++ l = design_name ++ ":" ++ snapshotLabel label now_ms →
      n = design_name ∧ l = snapshotLabel label now_ms
  | _ => True

/-- What every step keeps. -/
structure SnapshotInv (codec : DesignCodec δ) (session_id : String) (w : AgentWorld δ) : Prop where
  store : SnapshotStore codec session_id w.db
  ancillary : w.session.snapshots.isSome → w.session.snapshots_ancillary.isSome

/-- Memory and store agree on the snapshots. -/
def SnapshotsAgree (codec : DesignCodec δ) (session_id : String) (w : AgentWorld δ) : Prop :=
  ∀ n l d, w.session.snapshotAt n l = some d ↔ Recorded codec session_id w.db n l d
variable {w : AgentWorld δ}

theorem snapshotsDurable_iff (hcodec : codec.Lossless) (hw : SnapshotInv codec session_id w) :
    SnapshotsDurable codec py session_id w ↔ SnapshotsAgree codec session_id w := by
  obtain ⟨session, hok, hsnap⟩ := rebuildSession_snapshotAt py hcodec hw.store
  constructor
  · rintro ⟨session', hok', hsame⟩ n l d
    obtain rfl := Except.ok.inj (hok.symm.trans hok')
    rw [← hsame, hsnap]
  · intro hagree
    refine ⟨session, hok, fun n l => Option.ext fun d => ?_⟩
    rw [hsnap, hagree]

theorem snapshotLabel_ne_empty (label : Option String) (now_ms : ℕ) :
    snapshotLabel label now_ms ≠ "" := by
  unfold snapshotLabel
  cases hfilter : label.filter fun label => label ≠ "" with
  | none =>
    intro h
    have := congrArg String.length h
    simp [String.length_append] at this
  | some l => simpa using (Option.filter_eq_some_iff.mp hfilter).2

theorem SnapshotStore.of_records {db' : Database} (hdb : SnapshotStore codec session_id db)
    (hintegrity : Integrity db') (haddressed : Addressed codec db')
    (hrecords : ∀ r ∈ db'.session_records, r ∈ db.session_records ∨
      ∃ n l d, RecordOf codec session_id r n l d) : SnapshotStore codec session_id db' := by
  refine ⟨hintegrity, haddressed, fun r hr hs ht => ?_⟩
  rcases hrecords r hr with h | h
  · exact hdb.records r h hs ht
  · exact h

/-! ### What the tools leave -/

theorem onStore_snd {α : Type} (m : Statement α) (w : AgentWorld δ) :
    (onStore m w).2 = { w with db := (m w.db).2 } := by
  rw [onStore, onState_apply, mapError_snd]

section Snapshot

variable {w : AgentWorld δ} {design_name : String} {label : Option String} {now_ms : ℕ}
  {timestamp : String}

theorem toolDesignSnapshot_none (h : w.session.designs.get? design_name = none) :
    (toolDesignSnapshot codec py session_id design_name label now_ms timestamp w).2 = w := by
  simp [toolDesignSnapshot, h]

theorem toolDesignSnapshot_some {design : δ}
    (h : w.session.designs.get? design_name = some design) :
    (toolDesignSnapshot codec py session_id design_name label now_ms timestamp w).2 =
      ⟨{ w.session with
          snapshots := some <| (w.session.snapshots.getD empty).setIn design_name
            (snapshotLabel label now_ms) design
          snapshots_ancillary := some <|
            (w.session.snapshots_ancillary.getD empty).setIn design_name
              (snapshotLabel label now_ms) (ancillaryState w.session design_name) },
        (upsertDesignRecord codec design (snapshotRecord py session_id design_name
          (snapshotLabel label now_ms) (ancillaryState w.session design_name) timestamp) w.db).2⟩ := by
  simp only [toolDesignSnapshot, get_bind, h, modifySession, modify_bind, persistSnapshot,
    bind_pure_snd, onStore_snd]

theorem recordOf_written {design : δ} {l : String} {ancillary : PyValue} (hl : l ≠ "")
    {r : SessionRecord}
    (h : Written codec design (snapshotRecord py session_id design_name l ancillary timestamp) r) :
    RecordOf codec session_id r design_name l design where
  key := h.key
  name := h.design_name
  metadata := by
    rw [h.metadata]
    show (snapshotMetadata py l ancillary).get? "label" = _
    rw [snapshotMetadata, get?_set_of_ne _ _ (by decide), get?_set_self]
  label_ne := hl
  content := h.content_id

theorem recorded_snapshot (hcodec : codec.Lossless) (hdb : SnapshotStore codec session_id db)
    {design : δ} {l : String} (hl : l ≠ "") {ancillary : PyValue} (n' l' : String) (d' : δ) :
    Recorded codec session_id (upsertDesignRecord codec design
        (snapshotRecord py session_id design_name l ancillary timestamp) db).2 n' l' d' ↔
      (n' = design_name ∧ l' = l ∧ d' = design) ∨
        snapshotRecordId n' l' ≠ snapshotRecordId design_name l ∧
          Recorded codec session_id db n' l' d' := by
  obtain ⟨hold, hkept, ⟨r₀, hr₀, hwritten⟩, -⟩ := upsertDesignRecord_spec hdb.addressed design
    (snapshotRecord py session_id design_name l ancillary timestamp)
  constructor
  · rintro ⟨r, hr, hof⟩
    rcases hold r hr with ⟨hr, hkey⟩ | hw
    · refine .inr ⟨fun hid => hkey ?_, r, hr, hof⟩
      rw [hof.key, hid]
      rfl
    · exact .inl (hof.unique hcodec (recordOf_written py hl hw))
  · rintro (⟨rfl, rfl, rfl⟩ | ⟨hid, r, hr, hof⟩)
    · exact ⟨r₀, hr₀, recordOf_written py hl hwritten⟩
    · refine ⟨r, hkept r hr fun hkey => hid ?_, hof⟩
      exact (mk.inj (mk.inj (hof.key.symm.trans hkey)).2).2

theorem snapshotInv_snapshot (hw : SnapshotInv codec session_id w) :
    SnapshotInv codec session_id
      (toolDesignSnapshot codec py session_id design_name label now_ms timestamp w).2 := by
  cases h : w.session.designs.get? design_name with
  | none => rwa [toolDesignSnapshot_none py h]
  | some design =>
    rw [toolDesignSnapshot_some py h]
    obtain ⟨hold, -, -, haddressed⟩ := upsertDesignRecord_spec hw.store.addressed design
      (snapshotRecord py session_id design_name (snapshotLabel label now_ms)
        (ancillaryState w.session design_name) timestamp)
    refine ⟨hw.store.of_records ?_ haddressed fun r hr => ?_, fun _ => rfl⟩
    · exact (kept_upsertDesignRecord codec design _ hw.store.integrity).integrity
    · exact (hold r hr).imp (fun hr => hr.1) fun hwritten =>
        ⟨_, _, _, recordOf_written py (snapshotLabel_ne_empty label now_ms) hwritten⟩

/-- **A snapshot keeps the agreement exactly when its text is not another's.** -/
theorem snapshotsAgree_snapshot_iff (hcodec : codec.Lossless) (hw : SnapshotInv codec session_id w)
    (hagree : SnapshotsAgree codec session_id w) :
    SnapshotsAgree codec session_id
        (toolDesignSnapshot codec py session_id design_name label now_ms timestamp w).2 ↔
      (snapshot design_name label now_ms timestamp : SnapshotAction δ).KeyUnshared w := by
  cases h : w.session.designs.get? design_name with
  | none =>
    rw [toolDesignSnapshot_none py h]
    refine ⟨fun _ hsome => ?_, fun _ => hagree⟩
    rw [h] at hsome
    cases hsome
  | some design =>
    have hl := snapshotLabel_ne_empty label now_ms
    have hmem : ∀ n l, (toolDesignSnapshot codec py session_id design_name label now_ms timestamp
        w).2.session.snapshotAt n l =
          if n = design_name ∧ l = snapshotLabel label now_ms then some design
          else w.session.snapshotAt n l := fun n l => by
      rw [toolDesignSnapshot_some py h]
      exact getIn_setIn_getD _ _ _ _ _ _
    have hrec : ∀ n l d, Recorded codec session_id (toolDesignSnapshot codec py session_id
        design_name label now_ms timestamp w).2.db n l d ↔
          (n = design_name ∧ l = snapshotLabel label now_ms ∧ d = design) ∨
            snapshotRecordId n l ≠ snapshotRecordId design_name (snapshotLabel label now_ms) ∧
              w.session.snapshotAt n l = some d := fun n l d => by
      rw [toolDesignSnapshot_some py h, hagree]
      exact recorded_snapshot py hcodec hw.store hl n l d
    constructor
    · intro hagree' _ n l d hd hid
      by_contra hne
      -- the snapshot is still in memory, but its record was overwritten
      have hd' := (hagree' n l d).mp ((hmem n l).trans ((if_neg hne).trans hd))
      rcases (hrec n l d).mp hd' with ⟨rfl, rfl, -⟩ | ⟨hid', -⟩
      · exact hne ⟨rfl, rfl⟩
      · exact hid' hid
    · intro hunshared n l d
      rw [hmem, hrec]
      by_cases heq : n = design_name ∧ l = snapshotLabel label now_ms
      · obtain ⟨rfl, rfl⟩ := heq
        simp [eq_comm]
      · rw [if_neg heq]
        constructor
        · intro hd
          refine .inr ⟨fun hid => heq (hunshared ?_ n l d hd hid), hd⟩
          rw [h]
          rfl
        · rintro (⟨rfl, rfl, -⟩ | ⟨-, hd⟩)
          · exact absurd ⟨rfl, rfl⟩ heq
          · exact hd

end Snapshot

/-! ### The other tools -/

section Others

variable {w : AgentWorld δ} {design_name : String}

theorem snapshotsAgree_of_frame {w' : AgentWorld δ} (hagree : SnapshotsAgree codec session_id w)
    (hmem : w'.session.snapshots = w.session.snapshots)
    (hrecords : w'.db.session_records = w.db.session_records) :
    SnapshotsAgree codec session_id w' := by
  intro n l d
  have := hagree n l d
  unfold snapshotAt Recorded at this ⊢
  rw [hmem, hrecords, this]

/-- What storing a design leaves alone. -/
structure DesignFrame (codec : DesignCodec δ) (w w' : AgentWorld δ) : Prop where
  snapshots : w'.session.snapshots = w.session.snapshots
  ancillary : w'.session.snapshots_ancillary = w.session.snapshots_ancillary
  records : w'.db.session_records = w.db.session_records
  integrity : Integrity w'.db
  addressed : Addressed codec w'.db

theorem DesignFrame.inv {w' : AgentWorld δ} (h : DesignFrame codec w w')
    (hw : SnapshotInv codec session_id w) : SnapshotInv codec session_id w' where
  store := hw.store.of_records h.integrity h.addressed fun r hr => .inl (h.records ▸ hr)
  ancillary := by
    rw [h.snapshots, h.ancillary]
    exact hw.ancillary

/-- A program that leaves alone what storing a design does. -/
abbrev Frames {α : Type} (codec : DesignCodec δ) (w : AgentWorld δ) (m : Tool δ α) : Prop :=
  Prog.Triple (DesignFrame codec w) m (fun _ => DesignFrame codec w) fun _ => DesignFrame codec w

theorem frames_storeDesign (design : δ) (operation version_id timestamp : String) :
    Frames codec w (onStore (storeDesign codec session_id design_name design operation true
      version_id timestamp)) := by
  refine Prog.Triple.onState fun w' hw' => ?_
  rintro _ rfl
  have hframe := storeDesign_frame hw'.addressed session_id design_name design operation true
    version_id timestamp
  have hkept := kept_storeDesign (A := session_id) codec design_name design operation true version_id
    timestamp hw'.integrity
  have hafter : DesignFrame codec w { w' with
      db := (storeDesign codec session_id design_name design operation true version_id timestamp
        w'.db).2 } :=
    ⟨hw'.snapshots, hw'.ancillary, hframe.1.trans hw'.records, hkept.integrity, hframe.2⟩
  rw [← mapError_snd ToolError.store] at hafter
  split
  · rename_i h
    rwa [h] at hafter
  · rename_i h
    rwa [h] at hafter

theorem frames_setDesign (design : δ) (operation version_id timestamp : String) :
    Frames codec w (setDesign codec session_id design_name design operation version_id timestamp) :=
  (frames_storeDesign design operation version_id timestamp).bind fun _ _ h =>
    ⟨h.snapshots, h.ancillary, h.records, h.integrity, h.addressed⟩

theorem frames_assignDesign (design : δ) (operation version_id timestamp : String) :
    Frames codec w
      (assignDesign codec session_id design_name design operation version_id timestamp) := by
  have hmodify : Frames codec w (modifySession fun session =>
      { session with designs := session.designs.set design_name design }) := fun _ h =>
    ⟨h.snapshots, h.ancillary, h.records, h.integrity, h.addressed⟩
  exact hmodify.bind fun _ =>
    (frames_storeDesign design operation version_id timestamp).bind fun _ _ h => h

theorem frames_toolDesignRollback (label version_id timestamp : String) :
    Frames codec w
      (toolDesignRollback codec py session_id design_name label version_id timestamp) := by
  refine Prog.Triple.get_bind fun w' hw' => ?_
  have hbegin : ∀ t, t = w' → DesignFrame codec w t := by
    rintro _ rfl
    exact hw'
  split
  · rintro _ rfl
    exact hw'
  · refine ((frames_setDesign _ _ version_id timestamp).pre hbegin).bind fun _ => ?_
    split
    · exact fun _ h => ⟨h.snapshots, h.ancillary, h.records, h.integrity, h.addressed⟩
    · exact fun _ h => h

end Others

/-! ### Commits of snapshots -/

section Commit

variable {w : AgentWorld δ} {design_name : String} {label : Option String}

theorem toolDesignCommit_label {l : String} (hl : (label.filter fun label => label ≠ "") = some l) :
    (toolDesignCommit py session_id design_name label w).2 =
      ⟨{ w.session with
          snapshots := w.session.snapshots.map fun snapshots => snapshots.eraseIn design_name l
          snapshots_ancillary :=
            w.session.snapshots_ancillary.map fun ancillary => ancillary.eraseIn design_name l },
        if (w.session.snapshotAt design_name l).isSome then
          (deleteSessionRecord session_id "snapshot" (snapshotRecordId design_name l) w.db).2
        else w.db⟩ := by
  cases h : w.session.snapshotAt design_name l with
  | none =>
    simp only [toolDesignCommit, hl, h, modifySession, get_bind, modify_bind,
      raise_apply, Option.isSome_none, Bool.false_eq_true, if_false]
  | some design =>
    simp only [toolDesignCommit, hl, h, modifySession, get_bind, modify_bind,
      bind_pure_snd, onStore_snd, Option.isSome_some, if_true]

theorem toolDesignCommit_all (hl : (label.filter fun label => label ≠ "") = none)
    {snapshots : Dict String (Dict String δ)} {ancillary : Dict String (Dict String PyValue)}
    (hs : w.session.snapshots = some snapshots)
    (ha : w.session.snapshots_ancillary = some ancillary) :
    (toolDesignCommit py session_id design_name label w).2 =
      ⟨{ w.session with
          snapshots := some (snapshots.set design_name empty)
          snapshots_ancillary := some (ancillary.set design_name empty) },
        (deleteSessionRecords session_id "snapshot" (some design_name) w.db).2⟩ := by
  simp only [toolDesignCommit, hl, hs, ha, modifySession, get_bind, modify_bind,
    bind_pure_snd, onStore_snd]

theorem toolDesignCommit_absent (hl : (label.filter fun label => label ≠ "") = none)
    (hs : w.session.snapshots = none) :
    (toolDesignCommit py session_id design_name label w).2 = w := by
  simp only [toolDesignCommit, hl, hs, get_bind, raise_apply]

theorem recorded_deleteRecord {l : String} (n' l' : String) (d' : δ) :
    Recorded codec session_id
        (deleteSessionRecord session_id "snapshot" (snapshotRecordId design_name l) db).2 n' l' d' ↔
      Recorded codec session_id db n' l' d' ∧
        snapshotRecordId n' l' ≠ snapshotRecordId design_name l := by
  constructor
  · rintro ⟨r, hr, hof⟩
    obtain ⟨hr, hkey⟩ := mem_filter.mp hr
    refine ⟨⟨r, hr, hof⟩, fun hid => ?_⟩
    simp [hof.key, hid] at hkey
  · rintro ⟨⟨r, hr, hof⟩, hid⟩
    refine ⟨r, mem_filter.mpr ⟨hr, ?_⟩, hof⟩
    simp [hof.key, hid]

theorem recorded_deleteRecords (n' l' : String) (d' : δ) :
    Recorded codec session_id
        (deleteSessionRecords session_id "snapshot" (some design_name) db).2 n' l' d' ↔
      Recorded codec session_id db n' l' d' ∧ n' ≠ design_name := by
  constructor
  · rintro ⟨r, hr, hof⟩
    obtain ⟨hr, hsel⟩ := mem_filter.mp hr
    refine ⟨⟨r, hr, hof⟩, fun hname => ?_⟩
    obtain ⟨hs, ht⟩ := mk.inj hof.key
    simp [hs, (mk.inj ht).1, hof.name, hname] at hsel
  · rintro ⟨⟨r, hr, hof⟩, hname⟩
    refine ⟨r, mem_filter.mpr ⟨hr, ?_⟩, hof⟩
    simp [hof.name, hname]

theorem SnapshotStore.deleted {A : String} {db' : Database} (hdb : SnapshotStore codec session_id db)
    (hkept : Kept A db db') (hblobs : db'.content_blobs = db.content_blobs)
    (hrecords : ∀ r ∈ db'.session_records, r ∈ db.session_records) :
    SnapshotStore codec session_id db' := by
  refine hdb.of_records hkept.integrity ?_ fun r hr => .inl (hrecords r hr)
  unfold Addressed
  rw [hblobs]
  exact hdb.addressed

theorem snapshotInv_commit (hw : SnapshotInv codec session_id w) :
    SnapshotInv codec session_id (toolDesignCommit py session_id design_name label w).2 := by
  cases hl : label.filter fun label => label ≠ "" with
  | some l =>
    rw [toolDesignCommit_label py hl]
    refine ⟨?_, fun h => ?_⟩
    · show SnapshotStore codec session_id (if _ then _ else _)
      split
      · exact hw.store.deleted (A := session_id)
          (kept_deleteSessionRecord "snapshot" _ hw.store.integrity) rfl
          fun r hr => (mem_filter.mp hr).1
      · exact hw.store
    · rw [Option.isSome_map] at h ⊢
      exact hw.ancillary h
  | none =>
    cases hs : w.session.snapshots with
    | none => rwa [toolDesignCommit_absent py hl hs]
    | some snapshots =>
      obtain ⟨ancillary, ha⟩ := Option.isSome_iff_exists.mp (hw.ancillary (by rw [hs]; rfl))
      rw [toolDesignCommit_all py hl hs ha]
      exact ⟨hw.store.deleted (A := session_id)
        (kept_deleteSessionRecords "snapshot" _ hw.store.integrity) rfl
        fun r hr => (mem_filter.mp hr).1, fun _ => rfl⟩

theorem snapshotsAgree_commit (hcodec : codec.Lossless) (hw : SnapshotInv codec session_id w)
    (hagree : SnapshotsAgree codec session_id w) :
    SnapshotsAgree codec session_id (toolDesignCommit py session_id design_name label w).2 := by
  cases hl : label.filter fun label => label ≠ "" with
  | some l =>
    have hmem : ∀ n l', (toolDesignCommit py session_id design_name label w).2.session.snapshotAt n l'
        = if n = design_name ∧ l' = l then none else w.session.snapshotAt n l' := fun n l' => by
      rw [toolDesignCommit_label py hl]
      unfold snapshotAt
      cases w.session.snapshots with
      | none => simp
      | some snapshots => exact getIn_eraseIn _ _ _ _ _
    intro n l' d
    rw [hmem, toolDesignCommit_label py hl]
    cases h : w.session.snapshotAt design_name l with
    | none =>
      -- there was no such snapshot, so nothing is erased and no record is deleted
      rw [Option.isSome_none, if_neg Bool.false_ne_true, ← hagree]
      split
      · rename_i heq
        rw [heq.1, heq.2, h]
      · rfl
    | some design =>
      rw [Option.isSome_some, if_pos rfl, recorded_deleteRecord, ← hagree]
      split
      · rename_i heq
        simp [heq.1, heq.2]
      · rename_i hne
        refine ⟨fun hd => ⟨hd, fun hid => hne ?_⟩, fun hd => hd.1⟩
        obtain ⟨hn, hl', -⟩ := Recorded.unique hcodec hw.store ((hagree n l' d).mp hd)
          ((hagree design_name l design).mp h) hid
        exact ⟨hn, hl'⟩
  | none =>
    cases hs : w.session.snapshots with
    | none => rwa [toolDesignCommit_absent py hl hs]
    | some snapshots =>
      obtain ⟨ancillary, ha⟩ := Option.isSome_iff_exists.mp (hw.ancillary (by rw [hs]; rfl))
      have hmem : ∀ n l', (toolDesignCommit py session_id design_name label
          w).2.session.snapshotAt n l' =
            if n = design_name then none else w.session.snapshotAt n l' := fun n l' => by
        rw [toolDesignCommit_all py hl hs ha]
        unfold snapshotAt
        rw [hs]
        exact getIn_set_empty _ _ _ _
      intro n l' d
      rw [hmem, toolDesignCommit_all py hl hs ha, recorded_deleteRecords, ← hagree]
      split
      · rename_i heq
        simp [heq]
      · rename_i hne
        simp [hne]

end Commit

/-! ## Runs -/

/-- The session is new: it has no snapshots in memory, and no snapshot record in the store. -/
structure NewSession (codec : DesignCodec δ) (session_id : String) (w : AgentWorld δ) : Prop where
  integrity : Integrity w.db
  addressed : Addressed codec w.db
  records : ∀ r ∈ w.db.session_records, r.session_id = session_id → r.record_type ≠ "snapshot"
  snapshots : w.session.snapshots = none

theorem NewSession.inv (h : NewSession codec session_id w) :
    SnapshotInv codec session_id w where
  store := ⟨h.integrity, h.addressed, fun r hr hs ht => absurd ht (h.records r hr hs)⟩
  ancillary := fun hs => by
    rw [h.snapshots] at hs
    cases hs

theorem NewSession.agree (h : NewSession codec session_id w) : SnapshotsAgree codec session_id w := by
  intro n l d
  refine ⟨fun hd => ?_, fun ⟨r, hr, hof⟩ => ?_⟩
  · rw [snapshotAt, h.snapshots] at hd
    cases hd
  · obtain ⟨hs, ht⟩ := mk.inj hof.key
    exact absurd (mk.inj ht).1 (h.records r hr hs)

/-- **The step lemma**: a step keeps keys, references and well-formed records. -/
theorem snapshotInv_after (action : SnapshotAction δ) (hw : SnapshotInv codec session_id w) :
    SnapshotInv codec session_id (action.after codec py session_id w) := by
  have hbegin : DesignFrame codec w w := ⟨rfl, rfl, rfl, hw.store.integrity, hw.store.addressed⟩
  cases action with
  | snapshot => exact snapshotInv_snapshot py hw
  | commit => exact snapshotInv_commit py hw
  | rollback _ label version_id timestamp =>
    exact ((frames_toolDesignRollback py label version_id timestamp).snd hbegin).inv hw
  | setDesign _ design operation version_id timestamp =>
    exact ((frames_setDesign design operation version_id timestamp).snd hbegin).inv hw
  | assignDesign _ design operation version_id timestamp =>
    exact ((frames_assignDesign design operation version_id timestamp).snd hbegin).inv hw

/-- **The step lemma**: a step keeps the agreement exactly when it does not take a snapshot under the
text of another. -/
theorem snapshotsAgree_after_iff (hcodec : codec.Lossless) (action : SnapshotAction δ)
    (hw : SnapshotInv codec session_id w) (hagree : SnapshotsAgree codec session_id w) :
    SnapshotsAgree codec session_id (action.after codec py session_id w) ↔ action.KeyUnshared w := by
  have hbegin : DesignFrame codec w w := ⟨rfl, rfl, rfl, hw.store.integrity, hw.store.addressed⟩
  have hframe : ∀ w', DesignFrame codec w w' → SnapshotsAgree codec session_id w' :=
    fun w' h => snapshotsAgree_of_frame hagree h.snapshots h.records
  cases action with
  | snapshot => exact snapshotsAgree_snapshot_iff py hcodec hw hagree
  | commit => exact iff_of_true (snapshotsAgree_commit py hcodec hw hagree) trivial
  | rollback _ label version_id timestamp =>
    exact iff_of_true (hframe _ ((frames_toolDesignRollback py label version_id timestamp).snd hbegin))
      trivial
  | setDesign _ design operation version_id timestamp =>
    exact iff_of_true (hframe _ ((frames_setDesign design operation version_id timestamp).snd hbegin))
      trivial
  | assignDesign _ design operation version_id timestamp =>
    exact iff_of_true
      (hframe _ ((frames_assignDesign design operation version_id timestamp).snd hbegin)) trivial

/-- **The runs in which memory and store agree**: after every step of a run the rebuilt session has
the snapshots that are in memory exactly when no step takes a snapshot under the text of another. -/
theorem always_snapshotsDurable_iff (hcodec : codec.Lossless) {w : AgentWorld δ}
    (hw : NewSession codec session_id w) (actions : List (SnapshotAction δ)) :
    Run.Always (step codec py session_id) w actions
        (SnapshotsDurable codec py session_id) ↔
      Run.EachStep (step codec py session_id) w actions fun w action =>
        action.KeyUnshared w := by
  have hinv : Run.Always (step codec py session_id) w actions
      (SnapshotInv codec session_id) :=
    Run.always_of_invariant hw.inv fun w action w' h hstep => by
      obtain rfl := Option.some.inj hstep
      exact snapshotInv_after py action h
  rw [← Run.always_iff_eachStep (P := SnapshotsAgree codec session_id) hw.inv ?_ hw.agree ?_]
  · exact forall₃_congr fun pre hpre w' => forall_congr' fun hrun =>
      snapshotsDurable_iff py hcodec (hinv pre hpre w' hrun)
  · intro w action w' h hstep
    obtain rfl := Option.some.inj hstep
    exact snapshotInv_after py action h
  · intro w action w' h hagree hstep
    obtain rfl := Option.some.inj hstep
    exact snapshotsAgree_after_iff py hcodec action h hagree

/-! ### Two runs -/

/-- No text conversion is used in the runs below. -/
def plainText : PyText := ⟨fun _ => "", fun _ => ""⟩

def newWorld : AgentWorld String := ⟨ofDesigns empty, Database.empty⟩

theorem newSession_newWorld : NewSession plainCodec "s" newWorld where
  integrity := Integrity.empty
  addressed := fun _ h => by cases h
  records := fun _ h => by cases h
  snapshots := rfl

/-- A design is stored, a snapshot taken, and all its snapshots committed. -/
def keepAndCommit : List (SnapshotAction String) :=
  [.setDesign "a" "X" "parse-file" "version-1" "t", .snapshot "a" (some "b") 0 "t", .commit "a" none]

theorem always_snapshotsDurable_keepAndCommit :
    Run.Always (step plainCodec plainText "s") newWorld keepAndCommit
      (SnapshotsDurable plainCodec plainText "s") := by
  refine (always_snapshotsDurable_iff plainText plainCodec_lossless newSession_newWorld
    keepAndCommit).mpr ?_
  refine Run.EachStep.cons trivial rfl (Run.EachStep.cons ?_ rfl (Run.EachStep.cons trivial rfl
    Run.EachStep.nil))
  -- no snapshot is in memory yet
  intro _ n l d hd
  cases hd

/-- Two designs with a snapshot each: "a:b" with the label "c", and "a" with the label "b:c". -/
def sharedKeyRun : List (SnapshotAction String) :=
  [.setDesign "a:b" "X" "parse-file" "version-1" "t",
    .setDesign "a" "Y" "parse-file" "version-2" "t",
    .snapshot "a:b" (some "c") 0 "t", .snapshot "a" (some "b:c") 0 "t"]

/-- The record of the second snapshot overwrites that of the first, which a rebuild then loses. -/
theorem not_always_snapshotsDurable :
    NewSession plainCodec "s" newWorld ∧
      ¬ Run.Always (step plainCodec plainText "s") newWorld sharedKeyRun
        (SnapshotsDurable plainCodec plainText "s") := by
  refine ⟨newSession_newWorld, fun hall => ?_⟩
  have hsome : (Run.exec (step plainCodec plainText "s") newWorld
      sharedKeyRun).isSome := by decide
  obtain ⟨w, hw⟩ := Option.isSome_iff_exists.mp hsome
  obtain ⟨session, hok, hsame⟩ := hall sharedKeyRun prefix_rfl w hw
  have hmemory : (Run.exec (step plainCodec plainText "s") newWorld
      sharedKeyRun).map (fun w => w.session.snapshotAt "a:b" "c") = some (some "X") := by decide
  have hrebuilt : (Run.exec (step plainCodec plainText "s") newWorld
      sharedKeyRun).map (fun w => (rebuildSession plainCodec plainText w.db "s").toOption.map
        fun session => session.snapshotAt "a:b" "c") = some (some none) := by decide
  have hlost := hsame "a:b" "c"
  simp only [hw, hok, Option.map_some, Except.toOption, Option.some.injEq] at hmemory hrebuilt
  rw [hmemory, hrebuilt] at hlost
  cases hlost

end ZapTrace
