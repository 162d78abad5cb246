import ZapTrace.Core.StateStoreIntegrity

/-!
# The contents of the state store

A blob is stored under the digest of its payload, so a head leads to the design that was stored under
its name, provided that payloads decode to their designs and that digests do not collide. A session
loads its designs by its heads.

## Main results

* `addressed_after`: calls on the store keep the contents addressed
* `mem_loadDesigns_iff`: a session loads what its heads lead to
* `headContent_storeDesign`, `headContent_replaceSessionDesigns`: what the calls do to the heads
-/

namespace ZapTrace

open Prog Database StatementKeeps Table List

variable {δ : Type} {codec : DesignCodec δ} {db : Database}

/-! ## Contents -/

/-- Payloads decode to their designs, and the digests of different payloads differ. -/
structure DesignCodec.Lossless (codec : DesignCodec δ) : Prop where
  load : ∀ design, codec.model_validate_json (codec.canonical_design_payload design) = some design
  digest : ∀ design design',
    codec.sha256 (codec.canonical_design_payload design) =
      codec.sha256 (codec.canonical_design_payload design') →
    codec.canonical_design_payload design = codec.canonical_design_payload design'

/-- Every blob is the payload of a design under its content id. -/
def Addressed (codec : DesignCodec δ) (db : Database) : Prop :=
  ∀ blob ∈ db.content_blobs, ∃ design,
    blob.payload = codec.canonical_design_payload design ∧ blob.content_id = codec.contentId design

theorem DesignCodec.Lossless.contentId_injective (h : codec.Lossless) :
    Function.Injective codec.contentId := by
  intro design design' heq
  have hdigest := h.digest design design' (String.append_right_inj _ |>.mp heq)
  have hload := congrArg codec.model_validate_json hdigest
  rw [h.load, h.load] at hload
  exact Option.some.inj hload

theorem loadDesignContent_contentId (hcodec : codec.Lossless) (hdb : Addressed codec db)
    {design : δ} (hstored : db.Stored (codec.contentId design)) :
    db.loadDesignContent codec (codec.contentId design) = .ok design := by
  unfold loadDesignContent
  obtain ⟨blob, hblob, hid⟩ := hstored
  cases hfind : find BlobRow.content_id db.content_blobs (codec.contentId design) with
  | none => exact absurd hid (find_eq_none.mp hfind blob hblob)
  | some blob' =>
    obtain ⟨hmem, hid'⟩ := mem_of_find hfind
    obtain ⟨design', hpayload, hcontent⟩ := hdb blob' hmem
    obtain rfl := hcodec.contentId_injective (hcontent.symm.trans hid')
    simp [hpayload, hcodec.load]

theorem loadDesignContent_ok (hcodec : codec.Lossless) (hdb : Addressed codec db) {content_id : String}
    (hstored : db.Stored content_id) : ∃ design, db.loadDesignContent codec content_id = .ok design := by
  obtain ⟨blob, hblob, rfl⟩ := hstored
  obtain ⟨design, -, hcontent⟩ := hdb blob hblob
  rw [hcontent]
  exact ⟨design, loadDesignContent_contentId hcodec hdb ⟨blob, hblob, hcontent⟩⟩

theorem loadDesigns_ok (hcodec : codec.Lossless) (hdb : Addressed codec db) (session_id : String) :
    ∃ designs, db.loadDesigns codec session_id = .ok designs := by
  have hpayloads : ∀ item ∈ db.designPayloads session_id, ∃ design,
      item.2 = codec.canonical_design_payload design := by
    intro item hitem
    obtain ⟨head, -, hhead⟩ := mem_filterMap.mp hitem
    obtain ⟨version, -, hversion⟩ := Option.bind_eq_some_iff.mp hhead
    obtain ⟨blob, hfind, hblob⟩ := Option.bind_eq_some_iff.mp hversion
    obtain rfl := Option.some.inj hblob
    obtain ⟨design, hpayload, -⟩ := hdb blob (mem_of_find hfind).1
    exact ⟨design, hpayload⟩
  unfold loadDesigns
  generalize db.designPayloads session_id = items at hpayloads
  induction items with
  | nil => exact ⟨[], rfl⟩
  | cons item items ih =>
    obtain ⟨design, hdesign⟩ := hpayloads item mem_cons_self
    obtain ⟨designs, hrest⟩ := ih fun item hitem => hpayloads item (mem_cons_of_mem _ hitem)
    refine ⟨(item.1, design) :: designs, ?_⟩
    rw [mapM_cons, hrest]
    simp [hdesign, hcodec.load, bind, Except.bind, pure, Except.pure]

theorem addressed_insert (hdb : Addressed codec db) (design : δ) (media_type timestamp : String) :
    ∀ blob ∈ insertOrIgnore BlobRow.content_id
        ⟨codec.contentId design, media_type, codec.canonical_design_payload design,
          (codec.canonical_design_payload design).utf8ByteSize, timestamp⟩ db.content_blobs,
      ∃ design, blob.payload = codec.canonical_design_payload design ∧
        blob.content_id = codec.contentId design := by
  intro blob hblob
  unfold insertOrIgnore at hblob
  split at hblob
  · rcases mem_append.mp hblob with hblob | hblob
    · exact hdb blob hblob
    · obtain rfl := mem_singleton.mp hblob
      exact ⟨design, rfl, rfl⟩
  · exact hdb blob hblob

/-! ## The contents that calls keep -/

theorem addressed_storeBlob (design : δ) (media_type timestamp : String) :
    StatementKeeps (Addressed codec)
      (storeBlob codec (codec.canonical_design_payload design) media_type timestamp)
      fun _ => Addressed codec :=
  fun _ hdb => addressed_insert hdb design media_type timestamp

theorem addressed_insertVersion (row : DesignIdentity) :
    StatementKeeps (Addressed codec) (insertVersion row) fun _ => Addressed codec := by
  refine of_ok fun db hdb _ db' h => ?_
  obtain ⟨-, -, rfl⟩ := insertVersion_eq_ok h
  exact hdb

theorem addressed_upsertHead (row : HeadRow) :
    StatementKeeps (Addressed codec) (upsertHead row) fun _ => Addressed codec := by
  refine of_ok fun db hdb _ db' h => ?_
  obtain rfl := upsertHead_eq_ok h
  exact hdb

theorem addressed_upsertRecord (row : SessionRecord) :
    StatementKeeps (Addressed codec) (upsertRecord row) fun _ => Addressed codec := by
  refine of_ok fun db hdb _ db' h => ?_
  simp only [upsertRecord, bind_eq_ok, require_eq_ok, get_bind, modify_bind,
    pure_apply, Prod.mk.injEq, Bool.and_eq_true] at h
  obtain ⟨-, _, ⟨-, rfl⟩, -, rfl⟩ := h
  exact hdb

theorem addressed_storeDesignWithConnection (session_id design_name : String) (design : δ)
    (operation : String) (record_duplicate : Bool) (version_id timestamp : String) :
    StatementKeeps (Addressed codec)
      (storeDesignWithConnection codec session_id design_name design operation record_duplicate
        version_id timestamp) fun _ => Addressed codec := by
  have hensure : StatementKeeps (Addressed codec) (ensureSession session_id timestamp)
      fun _ => Addressed codec := fun _ hdb => hdb
  refine hensure.bind fun _ => ?_
  refine (addressed_storeBlob design designMediaType timestamp).bind fun _ => ?_
  refine Prog.Triple.get_bind fun db hdb => ?_
  have hbegin : ∀ t, t = db → Addressed codec t := by
    rintro _ rfl
    exact hdb
  dsimp only
  split
  · exact hbegin
  · refine ((addressed_insertVersion _).pre hbegin).bind fun _ => ?_
    exact (addressed_upsertHead _).bind fun _ _ h => h

theorem addressed_deleteHeads (p : HeadRow → Bool) :
    StatementKeeps (Addressed codec) (deleteHeads p) fun _ => Addressed codec :=
  fun _ hdb => hdb

theorem addressed_transaction {α : Type} {m : Statement α}
    (hm : StatementKeeps (Addressed codec) m fun _ => Addressed codec) (hdb : Addressed codec db) :
    Addressed codec (transaction m db).2 := by
  rcases hm.transaction_cases hdb with ⟨a, db', heq, h⟩ | ⟨e, heq⟩
  · rw [heq]
    exact h
  · rw [heq]
    exact hdb

theorem addressed_replaceSessionDesigns (session_id : String) (designs : List (String × δ))
    (operation : String) (version_ids : String → String) (timestamp : String)
    (hdb : Addressed codec db) :
    Addressed codec (replaceSessionDesigns codec session_id designs operation version_ids timestamp
      db).2 := by
  refine addressed_transaction ?_ hdb
  have hensure : StatementKeeps (Addressed codec) (ensureSession session_id timestamp)
      fun _ => Addressed codec := fun _ hdb => hdb
  refine hensure.bind fun _ => ?_
  refine (addressed_deleteHeads _).bind fun _ => ?_
  refine Prog.Triple.forEach (I := fun _ => Addressed codec) (fun item _ => ?_) _
  exact (addressed_storeDesignWithConnection session_id item.1 item.2 operation true _ timestamp).bind
    fun _ _ h => h

theorem addressed_deleteRecords (p : SessionRecord → Bool) :
    StatementKeeps (Addressed codec) (deleteRecords p) fun _ => Addressed codec :=
  fun _ hdb => hdb

theorem addressed_deleteSession (session_id : String) (hdb : Addressed codec db) :
    Addressed codec (deleteSession session_id db).2 := by
  have hversions : StatementKeeps (Addressed codec) (deleteVersions session_id)
      fun _ => Addressed codec := by
    refine of_ok fun db hdb _ db' h => ?_
    simp only [deleteVersions, modify_bind, bind_eq_ok, get_bind, require_eq_ok] at h
    obtain ⟨-, _, ⟨-, rfl⟩, -, rfl⟩ := h
    exact hdb
  have hblobs : StatementKeeps (Addressed codec) deleteUnreferencedBlobs fun _ => Addressed codec :=
    fun _ hdb blob hblob => hdb blob (mem_filter.mp hblob).1
  have hevents : StatementKeeps (Addressed codec) (deleteAuditEvents session_id)
      fun _ => Addressed codec := fun _ hdb => hdb
  have hsession : StatementKeeps (Addressed codec) (deleteSessionRow session_id)
      fun _ => Addressed codec := fun _ hdb => hdb
  refine addressed_transaction ?_ hdb
  refine Prog.Triple.get_bind fun db hdb => ?_
  have hbegin : ∀ t, t = db → Addressed codec t := by
    rintro _ rfl
    exact hdb
  refine ((addressed_deleteHeads _).pre hbegin).bind fun _ => ?_
  refine (addressed_deleteRecords _).bind fun _ => ?_
  refine hevents.bind fun _ => ?_
  refine hversions.bind fun _ => ?_
  refine hsession.bind fun _ => ?_
  exact hblobs.bind fun _ _ h => h

/-- **Calls on the store** keep the contents addressed. -/
theorem addressed_after (action : StoreAction δ) (hdb : Addressed codec db) :
    Addressed codec (action.after codec db) := by
  have hensure : ∀ session_id timestamp, StatementKeeps (Addressed codec)
      (ensureSession session_id timestamp) fun _ => Addressed codec := fun _ _ _ hdb => hdb
  cases action with
  | storeDesign session_id design_name design operation record_duplicate version_id timestamp =>
    exact addressed_transaction (addressed_storeDesignWithConnection session_id design_name design
      operation record_duplicate version_id timestamp) hdb
  | replaceSessionDesigns => exact addressed_replaceSessionDesigns _ _ _ _ _ hdb
  | upsertDesignRecord design row =>
    refine addressed_transaction ?_ hdb
    refine (hensure _ _).bind fun _ => ?_
    exact (addressed_storeBlob design _ _).bind fun _ => addressed_upsertRecord _
  | upsertSessionRecord row =>
    exact addressed_transaction ((hensure _ _).bind fun _ => addressed_upsertRecord row) hdb
  | deleteSessionRecord =>
    exact addressed_transaction ((addressed_deleteRecords _).bind fun _ _ h => h) hdb
  | deleteSessionRecords => exact addressed_transaction (addressed_deleteRecords _) hdb
  | deleteSession session_id => exact addressed_deleteSession session_id hdb

/-! ## Heads -/

def Database.headContent (db : Database) (session_id design_name : String) : Option String :=
  (db.currentVersion session_id design_name).map DesignIdentity.content_id

theorem headContent_eq_some_iff (hdb : Integrity db) {session_id design_name content_id : String} :
    db.headContent session_id design_name = some content_id ↔
      ∃ head ∈ db.design_heads, head.key = (session_id, design_name) ∧
        ∃ v ∈ db.design_versions, v.version_id = head.version_id ∧ v.content_id = content_id := by
  simp only [headContent, currentVersion, Option.map_eq_some_iff,
    Option.bind_eq_bind, Option.bind_eq_some_iff]
  constructor
  · rintro ⟨v, ⟨head, hhead, hv⟩, hcontent⟩
    obtain ⟨hmem, hkey⟩ := mem_of_find hhead
    obtain ⟨hvmem, hid⟩ := mem_of_find hv
    exact ⟨head, hmem, hkey, v, hvmem, hid, hcontent⟩
  · rintro ⟨head, hmem, hkey, v, hvmem, hid, hcontent⟩
    exact ⟨v, ⟨head, (find_eq_some_iff hdb.heads_keyed).mpr ⟨hmem, hkey⟩,
      (find_eq_some_iff hdb.versions_keyed).mpr ⟨hvmem, hid⟩⟩, hcontent⟩

theorem exists_design_of_headContent (hdb : Integrity db) (haddressed : Addressed codec db)
    {session_id design_name content_id : String}
    (h : db.headContent session_id design_name = some content_id) :
    ∃ design, content_id = codec.contentId design := by
  obtain ⟨head, -, -, v, hv, -, rfl⟩ := (headContent_eq_some_iff hdb).mp h
  obtain ⟨blob, hblob, hid⟩ := hdb.version_blob v hv
  obtain ⟨design, -, hcontent⟩ := haddressed blob hblob
  exact ⟨design, hid.symm.trans hcontent⟩

theorem mem_mapM_iff {α β ε : Type} {f : α → Except ε β} {xs : List α} {ys : List β}
    (h : xs.mapM f = .ok ys) {y : β} : y ∈ ys ↔ ∃ x ∈ xs, f x = .ok y := by
  induction xs generalizing ys with
  | nil =>
    cases h
    simp
  | cons x xs ih =>
    rw [mapM_cons] at h
    obtain ⟨b, hb, h⟩ := exceptBind_eq_ok.mp h
    obtain ⟨bs, hbs, h⟩ := exceptBind_eq_ok.mp h
    cases h
    rw [mem_cons, ih hbs]
    simp only [mem_cons, exists_eq_or_imp, hb, Except.ok.injEq]
    exact or_congr_left eq_comm

/-- **A session loads what its heads lead to.** -/
theorem mem_loadDesigns_iff (hcodec : codec.Lossless) (hdb : Integrity db) (haddressed : Addressed codec db)
    {session_id : String} {loaded : List (String × δ)}
    (h : db.loadDesigns codec session_id = .ok loaded) {design_name : String} {design : δ} :
    (design_name, design) ∈ loaded ↔
      db.headContent session_id design_name = some (codec.contentId design) := by
  rw [mem_mapM_iff h, headContent_eq_some_iff hdb]
  constructor
  · rintro ⟨⟨name, payload⟩, hmem, hload⟩
    obtain ⟨head, hhead, hfind⟩ := mem_filterMap.mp hmem
    obtain ⟨hhead, hsession⟩ := mem_filter.mp ((perm_insertionSort _ _).mem_iff.mp hhead)
    obtain ⟨v, hv, hfind⟩ := Option.bind_eq_some_iff.mp hfind
    obtain ⟨blob, hblob, hfind⟩ := Option.bind_eq_some_iff.mp hfind
    cases hfind
    obtain ⟨hv, hid⟩ := mem_of_find hv
    obtain ⟨hblob, hcontent⟩ := mem_of_find hblob
    -- the payload is that of the design
    obtain ⟨stored, hpayload, haddress⟩ := haddressed blob hblob
    simp only [hpayload, hcodec.load, Except.ok.injEq, Prod.mk.injEq] at hload
    obtain ⟨rfl, rfl⟩ := hload
    exact ⟨head, hhead, Prod.ext (of_decide_eq_true hsession) rfl, v, hv, hid,
      hcontent.symm.trans haddress⟩
  · rintro ⟨head, hhead, hkey, v, hv, hid, hcontent⟩
    obtain ⟨hsession, rfl⟩ := Prod.mk.inj hkey
    obtain ⟨blob, hblob, hblobid⟩ := hdb.version_blob v hv
    obtain ⟨stored, hpayload, haddress⟩ := haddressed blob hblob
    obtain rfl := hcodec.contentId_injective (haddress.symm.trans (hblobid.trans hcontent))
    refine ⟨(head.design_name, blob.payload), mem_filterMap.mpr ⟨head, ?_, ?_⟩, ?_⟩
    · exact (perm_insertionSort _ _).mem_iff.mpr (mem_filter.mpr ⟨hhead, decide_eq_true hsession⟩)
    · rw [(find_eq_some_iff hdb.versions_keyed).mpr ⟨hv, hid⟩, Option.bind_eq_bind,
        Option.bind_some, (find_eq_some_iff hdb.blobs_keyed).mpr ⟨hblob, hblobid⟩]
      rfl
    · simp only [hpayload, hcodec.load]

theorem storeDesignWithConnection_eq_ok {session_id design_name operation version_id timestamp : String}
    {design : δ} {row : DesignIdentity} {db' : Database}
    (h : storeDesignWithConnection codec session_id design_name design operation true version_id
      timestamp db = (.ok row, db')) :
    row.version_id = version_id ∧ row.content_id = codec.contentId design ∧
      (∀ v ∈ db.design_versions, v.version_id ≠ version_id) ∧
      db'.design_versions = db.design_versions ++ [row] ∧
      db'.design_heads = upsert HeadRow.key
        (fun head => { head with version_id := version_id, updated_at := timestamp })
        ⟨session_id, design_name, version_id, timestamp⟩ db.design_heads := by
  simp only [storeDesignWithConnection, ensureSession, storeBlob, bind_assoc, modify_bind,
    pure_bind, get_bind, Bool.not_true, Bool.and_false] at h
  have hnone : ∀ o : Option DesignIdentity, o.filter (fun _ => false) = none := by
    intro o
    cases o <;> rfl
  rw [hnone] at h
  obtain ⟨_, db₁, hinsert, h⟩ := bind_eq_ok.mp h
  obtain ⟨hnew, -, rfl⟩ := insertVersion_eq_ok hinsert
  obtain ⟨_, db₂, hhead, h⟩ := bind_eq_ok.mp h
  obtain rfl := upsertHead_eq_ok hhead
  cases h
  exact ⟨rfl, rfl, hnew, rfl, rfl⟩

theorem headContent_storeDesignWithConnection (hdb : Integrity db)
    {session_id design_name operation version_id timestamp : String} {design : δ} {row : DesignIdentity}
    {db' : Database}
    (h : storeDesignWithConnection codec session_id design_name design operation true version_id
      timestamp db = (.ok row, db')) (name : String) :
    db'.headContent session_id name =
      if name = design_name then some (codec.contentId design) else db.headContent session_id name := by
  obtain ⟨hid, hcontent, hnew, hversions, hheads⟩ := storeDesignWithConnection_eq_ok h
  have hfind : ∀ id, find DesignIdentity.version_id db'.design_versions id =
      (find DesignIdentity.version_id db.design_versions id).or
        (if row.version_id = id then some row else none) := by
    intro id
    rw [hversions, find_concat]
  have hkey : ∀ head : HeadRow,
      HeadRow.key { head with version_id := version_id, updated_at := timestamp } = head.key := fun _ => rfl
  rw [headContent, headContent, currentVersion, currentVersion,
    hheads, find_upsert hkey]
  by_cases hname : name = design_name
  · subst hname
    have hnone : find DesignIdentity.version_id db.design_versions version_id = none :=
      find_eq_none.mpr hnew
    have hself : (session_id, name) = HeadRow.key ⟨session_id, name, version_id, timestamp⟩ := rfl
    rw [if_pos hself, if_pos rfl, Option.bind_eq_bind, Option.bind_some, hfind]
    -- the head points to the new version, whether it was there before or not
    cases find HeadRow.key db.design_heads (session_id, name) <;>
      simp [hnone, hid, hcontent]
  · have hne : (session_id, name) ≠ HeadRow.key ⟨session_id, design_name, version_id, timestamp⟩ :=
      fun heq => hname (Prod.mk.inj heq).2
    rw [if_neg hname, if_neg hne]
    cases hhead : find HeadRow.key db.design_heads (session_id, name) with
    | none => rfl
    | some head =>
      obtain ⟨v, hv, hvid, -⟩ := hdb.head_version head (mem_of_find hhead).1
      rw [Option.bind_eq_bind, Option.bind_some, Option.bind_some, hfind,
        (find_eq_some_iff hdb.versions_keyed).mpr ⟨hv, hvid⟩, Option.some_or]

theorem headContent_eq_none {session_id design_name : String}
    (h : ∀ head ∈ db.design_heads, head.key ≠ (session_id, design_name)) :
    db.headContent session_id design_name = none := by
  rw [headContent, currentVersion, find_eq_none.mpr h]
  rfl

/-- Storing designs of different names sets their heads, and leaves the others. -/
theorem headContent_forEach {session_id operation timestamp : String} {version_ids : String → String}
    {designs : List (String × δ)} (hkeyed : Table.Keyed Prod.fst designs) (hdb : Integrity db)
    {db' : Database}
    (h : forEach
      (fun item => do
        let _ ← storeDesignWithConnection codec session_id item.1 item.2 operation true
          (version_ids item.1) timestamp
        pure ()) designs db = (.ok (), db')) (name : String) :
    db'.headContent session_id name =
      ((find Prod.fst designs name).map fun item => codec.contentId item.2).or
        (db.headContent session_id name) := by
  induction designs generalizing db with
  | nil =>
    cases h
    rfl
  | cons item designs ih =>
    obtain ⟨hfirst, hrest⟩ := pairwise_cons.mp hkeyed
    obtain ⟨_, db₁, hstep, h⟩ := bind_eq_ok.mp h
    obtain ⟨row, _, hstore, hpure⟩ := bind_eq_ok.mp hstep
    cases hpure
    have hdb₁ : Integrity db₁ :=
      (Prog.Triple.of_ok (kept_storeDesignWithConnection codec item.1 item.2 operation true
        (version_ids item.1) timestamp) (hdb.kept session_id) hstore).integrity
    rw [ih hrest hdb₁ h, headContent_storeDesignWithConnection hdb hstore]
    by_cases hname : name = item.1
    · subst hname
      have hnone : find Prod.fst designs item.1 = none :=
        find_eq_none.mpr fun other hother heq => hfirst other hother heq.symm
      rw [hnone]
      simp [find]
    · rw [if_neg hname]
      simp [find, Ne.symm hname]

/-- **Storing a design** that does not raise sets the head of its name. -/
theorem headContent_storeDesign (hdb : Integrity db)
    {session_id design_name operation version_id timestamp : String} {design : δ} {row : DesignIdentity}
    {db' : Database}
    (h : storeDesign codec session_id design_name design operation true version_id timestamp db =
      (.ok row, db')) (name : String) :
    db'.headContent session_id name =
      if name = design_name then some (codec.contentId design) else db.headContent session_id name :=
  headContent_storeDesignWithConnection hdb (transaction_eq_ok.mp h) name

/-- **A replacement** that does not raise leaves the heads of the given designs. -/
theorem headContent_replaceSessionDesigns {session_id operation timestamp : String}
    {version_ids : String → String} {designs : List (String × δ)} (hkeyed : Table.Keyed Prod.fst designs)
    (hdb : Integrity db) {db' : Database}
    (h : replaceSessionDesigns codec session_id designs operation version_ids timestamp db =
      (.ok (), db')) (name : String) :
    db'.headContent session_id name =
      (find Prod.fst designs name).map fun item => codec.contentId item.2 := by
  obtain ⟨_, db₁, hensure, h⟩ := bind_eq_ok.mp (transaction_eq_ok.mp h)
  obtain ⟨_, db₂, hdelete, h⟩ := bind_eq_ok.mp h
  cases hensure
  cases hdelete
  have hperm := perm_insertionSort (fun a b : String × δ => a.1 ≤ b.1) designs
  have hensured := Prog.Triple.of_ok (kept_ensureSession session_id timestamp) (hdb.kept session_id) rfl
  have hdeleted := Prog.Triple.of_ok (kept_deleteHeads (fun head : HeadRow =>
    head.session_id = session_id && !designs.any fun item => item.1 = head.design_name) fun row hrow => by
      rw [Bool.and_eq_true] at hrow
      exact of_decide_eq_true hrow.1) hensured rfl
  rw [headContent_forEach (hkeyed.perm hperm) hdeleted.integrity h, find_perm hkeyed hperm]
  cases hfind : find Prod.fst designs name with
  | some item => rfl
  | none =>
    -- the heads of other names were dropped
    apply headContent_eq_none
    intro head hhead hkey
    obtain ⟨-, hkeep⟩ := mem_filter.mp hhead
    obtain ⟨hsession, hdesign⟩ := Prod.mk.inj hkey
    have hany : (designs.any fun item => decide (item.1 = head.design_name)) = false := by
      simpa [hdesign] using find_eq_none.mp hfind
    simp [hsession, hany] at hkeep

/-- Designs that are their own payloads. -/
def plainCodec : DesignCodec String := ⟨id, some, id⟩

theorem plainCodec_lossless : plainCodec.Lossless := ⟨fun _ => rfl, fun _ _ h => h⟩

end ZapTrace
