import ZapTrace.Core.StateStoreContents

/-!
# The persistent mapping of designs

The designs of a session are a dictionary that is bound to the durable store. Its own methods write
the store, an assignment after the memory and the others before it; the methods it inherits change the
memory only. Memory and durable heads agree throughout a run exactly when no assignment of a new value
fails, nothing is deleted, and the mapping is not replaced by itself.

Designs are values: a design that is changed in place and then persisted is a new value.

## Main results

* `agrees_after_iff`: what one call does to the agreement
* `always_agrees_iff`: the runs in which memory and store agree
-/

namespace ZapTrace

open Prog Dict

variable {δ : Type}

/-- The mapping in memory, the session it is bound to, and the store. -/
structure PersistentDesignDict (δ : Type) where
  session_id : String
  items : Dict String δ
  store : Database

/-- What the store contributes to a call: whether its write raises before it does anything, and the
version identifiers and the time of the rows. -/
structure StoreAttempt where
  unavailable : Bool
  version_ids : String → String
  timestamp : String

/-- The exceptions of the calls. -/
inductive MappingError
  | unavailable
  | store (e : StoreError)
  | keyError
  deriving DecidableEq

/-- What a replacement reads: another dictionary, or the mapping itself. -/
inductive DesignSource (δ : Type)
  | other (designs : Dict String δ)
  | itself

namespace PersistentDesignDict

abbrev Method (δ α : Type) := Prog (PersistentDesignDict δ) MappingError α

variable (codec : DesignCodec δ) (attempt : StoreAttempt)

/-- A call on the store, which may be unavailable. -/
def onStore {α : Type} (m : Statement α) : Method δ α :=
  if attempt.unavailable then raise .unavailable
  else onState store (fun db d => { d with store := db }) (mapError MappingError.store m)

/-- `_write`, with the store of the session. -/
def write (key : String) (value : δ) (operation : String) : Method δ Unit := do
  let d ← get
  let _ ← onStore attempt (storeDesign codec d.session_id key value operation true
    (attempt.version_ids key) attempt.timestamp)
  pure ()

/-- `dict.__setitem__` -/
def dictSetItem (key : String) (value : δ) : Method δ Unit :=
  modify fun d => { d with items := d.items.set key value }

def setItem (key : String) (value : δ) : Method δ Unit := do
  dictSetItem key value
  write codec attempt key value "mapping-assignment"

def persist (key operation : String) : Method δ Unit := do
  let d ← get
  match d.items.get? key with
  | some value => write codec attempt key value operation
  | none => pure ()

def commitDesign (key : String) (value : δ) (operation : String) : Method δ Unit := do
  write codec attempt key value operation
  dictSetItem key value

/-- What a replacement reads at the time. -/
def read (d : PersistentDesignDict δ) : DesignSource δ → List (String × δ)
  | .other designs => designs.items
  | .itself => d.items.items

def clear : Method δ Unit := modify fun d => { d with items := empty }

def replaceAll (designs : DesignSource δ) (operation : String) : Method δ Unit := do
  let d ← get
  onStore attempt (replaceSessionDesigns codec d.session_id (d.read designs) operation
    attempt.version_ids attempt.timestamp)
  clear
  let d ← get
  forEach (fun item => dictSetItem item.1 item.2) (d.read designs)

def delItem (key : String) : Method δ Unit := do
  let d ← get
  match d.items.get? key with
  | some _ => modify fun d => { d with items := d.items.erase key }
  | none => raise .keyError

/-- `dict.pop`, with a default or without. -/
def pop (key : String) (default : Option δ) : Method δ δ := do
  let d ← get
  match d.items.get? key, default with
  | some value, _ => do
    modify fun d => { d with items := d.items.erase key }
    pure value
  | none, some value => pure value
  | none, none => raise .keyError

/-- `dict.popitem`: the last item. -/
def popItem : Method δ (String × δ) := do
  let d ← get
  match d.items.items.getLast? with
  | some item => do
    modify fun d => { d with items := d.items.erase item.1 }
    pure item
  | none => raise .keyError

end PersistentDesignDict

inductive MappingCall (δ : Type)
  | setItem (attempt : StoreAttempt) (key : String) (value : δ)
  | commitDesign (attempt : StoreAttempt) (key : String) (value : δ) (operation : String)
  | persist (attempt : StoreAttempt) (key operation : String)
  | replaceAll (attempt : StoreAttempt) (designs : DesignSource δ) (operation : String)
  | delItem (key : String)
  | pop (key : String) (default : Option δ)
  | popItem
  | clear

namespace MappingCall

variable (codec : DesignCodec δ)

/-- The mapping after a call, which may have raised. -/
def after (d : PersistentDesignDict δ) : MappingCall δ → PersistentDesignDict δ
  | setItem attempt key value => (PersistentDesignDict.setItem codec attempt key value d).2
  | commitDesign attempt key value operation =>
    (PersistentDesignDict.commitDesign codec attempt key value operation d).2
  | persist attempt key operation => (PersistentDesignDict.persist codec attempt key operation d).2
  | replaceAll attempt designs operation =>
    (PersistentDesignDict.replaceAll codec attempt designs operation d).2
  | delItem key => (PersistentDesignDict.delItem key d).2
  | pop key default => (PersistentDesignDict.pop key default d).2
  | popItem => (PersistentDesignDict.popItem d).2
  | clear => (PersistentDesignDict.clear d).2

def step (d : PersistentDesignDict δ) (call : MappingCall δ) : Option (PersistentDesignDict δ) :=
  some (call.after codec d)

end MappingCall

/-- `make_design_mapping`: what the session loads, bound to the store. -/
def makeDesignMapping (codec : DesignCodec δ) (session_id : String) (db : Database) :
    Except StoreError (PersistentDesignDict δ) := do
  let loaded ← db.loadDesigns codec session_id
  pure ⟨session_id, ofItems loaded, db⟩

/-- The session loads exactly the items of the mapping. -/
def Agrees (codec : DesignCodec δ) (d : PersistentDesignDict δ) : Prop :=
  ∃ loaded, d.store.loadDesigns codec d.session_id = .ok loaded ∧
    ∀ design_name design, (design_name, design) ∈ loaded ↔ d.items.get? design_name = some design

structure ContentStore (codec : DesignCodec δ) (db : Database) : Prop where
  integrity : Integrity db
  addressed : Addressed codec db

/-- The heads of the session lead to the items of the mapping. -/
def HeadsAgree (codec : DesignCodec δ) (d : PersistentDesignDict δ) : Prop :=
  ∀ design_name, d.store.headContent d.session_id design_name =
    (d.items.get? design_name).map codec.contentId

/-- The store raises in a call on it. -/
def StoreAttempt.Raises {α : Type} (attempt : StoreAttempt) (m : Statement α) (db : Database) : Prop :=
  attempt.unavailable = true ∨ ∃ e, (m db).1 = .error e

/-- The condition on a call: an assignment whose write raises assigns what is there already, a
replacement by the mapping itself finds it empty or raises, and a deletion finds nothing to delete. -/
def KeepsAgreement (codec : DesignCodec δ) (d : PersistentDesignDict δ) : MappingCall δ → Prop
  | .setItem attempt key value =>
    attempt.Raises (storeDesign codec d.session_id key value "mapping-assignment" true
      (attempt.version_ids key) attempt.timestamp) d.store → d.items.get? key = some value
  | .replaceAll attempt .itself operation =>
    attempt.Raises (replaceSessionDesigns codec d.session_id d.items.items operation
      attempt.version_ids attempt.timestamp) d.store ∨ d.items.items = []
  | .delItem key | .pop key _ => d.items.get? key = none
  | .popItem | .clear => d.items.items = []
  | .commitDesign _ _ _ _ | .persist _ _ _ | .replaceAll _ (.other _) _ => True

section Calls

variable {codec : DesignCodec δ} {d : PersistentDesignDict δ}

theorem agrees_iff_headsAgree (hcodec : codec.Lossless) (hd : ContentStore codec d.store) :
    Agrees codec d ↔ HeadsAgree codec d := by
  obtain ⟨loaded, hloaded⟩ := loadDesigns_ok hcodec hd.addressed d.session_id
  have hmem : ∀ n design, (n, design) ∈ loaded ↔
      d.store.headContent d.session_id n = some (codec.contentId design) :=
    fun _ _ => mem_loadDesigns_iff hcodec hd.integrity hd.addressed hloaded
  constructor
  · rintro ⟨loaded', hloaded', hitems⟩ n
    cases hloaded.symm.trans hloaded'
    ext content_id
    rw [Option.map_eq_some_iff]
    constructor
    · intro hcontent
      obtain ⟨design, rfl⟩ := exists_design_of_headContent hd.integrity hd.addressed hcontent
      exact ⟨design, (hitems n design).mp ((hmem n design).mpr hcontent), rfl⟩
    · rintro ⟨design, hdesign, rfl⟩
      exact (hmem n design).mp ((hitems n design).mpr hdesign)
  · intro h
    refine ⟨loaded, hloaded, fun n design => ?_⟩
    rw [hmem, h, Option.map_eq_some_iff]
    constructor
    · rintro ⟨design', hdesign', heq⟩
      rwa [← hcodec.contentId_injective heq]
    · exact fun hdesign => ⟨design, hdesign, rfl⟩

/-! ## The store in a call -/

theorem onStore_cases {α : Type} (attempt : StoreAttempt) (m : Statement α)
    (hm : ∃ statements, m = transaction statements) (d : PersistentDesignDict δ) :
    (attempt.Raises m d.store ∧ ∃ e, PersistentDesignDict.onStore attempt m d = (.error e, d)) ∨
      (¬ attempt.Raises m d.store ∧ ∃ a db', m d.store = (.ok a, db') ∧
        PersistentDesignDict.onStore attempt m d = (.ok a, { d with store := db' })) := by
  obtain ⟨statements, rfl⟩ := hm
  unfold PersistentDesignDict.onStore StoreAttempt.Raises
  cases hunavailable : attempt.unavailable with
  | true => exact .inl ⟨.inl rfl, _, rfl⟩
  | false =>
    rcases hm : transaction statements d.store with ⟨e | a, db'⟩
    · have hsame : db' = d.store := by
        have hsnd := snd_of_transaction_eq_error (congrArg Prod.fst hm)
        rwa [hm] at hsnd
      refine .inl ⟨.inr ⟨e, rfl⟩, .store e, ?_⟩
      simp [onState, mapError, hm, hsame]
    · refine .inr ⟨by simp, a, db', rfl, ?_⟩
      simp [onState, mapError, hm]

theorem write_cases (attempt : StoreAttempt) (key : String) (value : δ) (operation : String)
    (hd : ContentStore codec d.store) :
    (attempt.Raises (storeDesign codec d.session_id key value operation true (attempt.version_ids key)
        attempt.timestamp) d.store ∧
      ∃ e, PersistentDesignDict.write codec attempt key value operation d = (.error e, d)) ∨
    (¬ attempt.Raises (storeDesign codec d.session_id key value operation true (attempt.version_ids key)
        attempt.timestamp) d.store ∧
      ∃ db', PersistentDesignDict.write codec attempt key value operation d =
          (.ok (), { d with store := db' }) ∧
        ContentStore codec db' ∧
        ∀ name, db'.headContent d.session_id name =
          if name = key then some (codec.contentId value) else d.store.headContent d.session_id name) := by
  unfold PersistentDesignDict.write
  rw [get_bind]
  rcases onStore_cases attempt (storeDesign codec d.session_id key value operation true
    (attempt.version_ids key) attempt.timestamp) ⟨_, rfl⟩ d with
    ⟨hraises, e, he⟩ | ⟨hraises, row, db', hstore, hok⟩
  · exact .inl ⟨hraises, e, bind_of_error he⟩
  · refine .inr ⟨hraises, db', bind_of_ok hok, ⟨?_, ?_⟩, headContent_storeDesign hd.integrity hstore⟩
    · have hkept := (kept_storeDesign (A := d.session_id) codec key value operation true
        (attempt.version_ids key) attempt.timestamp hd.integrity).integrity
      rwa [hstore] at hkept
    · have haddressed := addressed_transaction (addressed_storeDesignWithConnection d.session_id key value
        operation true (attempt.version_ids key) attempt.timestamp) hd.addressed
      rwa [← storeDesign, hstore] at haddressed

theorem replace_cases (attempt : StoreAttempt) {designs : List (String × δ)}
    (hkeyed : Table.Keyed Prod.fst designs) (operation : String) (hd : ContentStore codec d.store) :
    (attempt.Raises (replaceSessionDesigns codec d.session_id designs operation attempt.version_ids
        attempt.timestamp) d.store ∧
      ∃ e, PersistentDesignDict.onStore attempt (replaceSessionDesigns codec d.session_id designs operation
        attempt.version_ids attempt.timestamp) d = (.error e, d)) ∨
    (¬ attempt.Raises (replaceSessionDesigns codec d.session_id designs operation attempt.version_ids
        attempt.timestamp) d.store ∧
      ∃ db', PersistentDesignDict.onStore attempt (replaceSessionDesigns codec d.session_id designs operation
          attempt.version_ids attempt.timestamp) d = (.ok (), { d with store := db' }) ∧
        ContentStore codec db' ∧
        ∀ name, db'.headContent d.session_id name =
          (Table.find Prod.fst designs name).map fun item => codec.contentId item.2) := by
  rcases onStore_cases attempt (replaceSessionDesigns codec d.session_id designs operation
    attempt.version_ids attempt.timestamp) ⟨_, rfl⟩ d with
    ⟨hraises, e, he⟩ | ⟨hraises, ⟨⟩, db', hstore, hok⟩
  · exact .inl ⟨hraises, e, he⟩
  · refine .inr ⟨hraises, db', hok, ⟨?_, ?_⟩, headContent_replaceSessionDesigns hkeyed hd.integrity hstore⟩
    · have hkept := (kept_replaceSessionDesigns (A := d.session_id) codec designs operation
        attempt.version_ids attempt.timestamp hd.integrity).integrity
      rwa [hstore] at hkept
    · have haddressed := addressed_replaceSessionDesigns d.session_id designs operation
        attempt.version_ids attempt.timestamp hd.addressed
      rwa [hstore] at haddressed

/-! ## One call -/

theorem HeadsAgree.set (h : HeadsAgree codec d) {key : String} {value : δ} {db' : Database}
    (hheads : ∀ name, db'.headContent d.session_id name =
      if name = key then some (codec.contentId value) else d.store.headContent d.session_id name) :
    HeadsAgree codec { d with items := d.items.set key value, store := db' } := by
  intro name
  rw [hheads, get?_set]
  split
  · rfl
  · exact h name

theorem not_headsAgree_erase (h : HeadsAgree codec d) {key : String} {value : δ}
    (hkey : d.items.get? key = some value) :
    ¬ HeadsAgree codec { d with items := d.items.erase key } := by
  intro herase
  have hhead := h key
  rw [herase key, get?_erase, if_pos rfl, hkey] at hhead
  cases hhead

theorem headsAgree_empty_iff {db' : Database}
    (hheads : ∀ name, db'.headContent d.session_id name = (d.items.get? name).map codec.contentId) :
    HeadsAgree codec { d with items := empty, store := db' } ↔ d.items.items = [] := by
  constructor
  · intro hempty
    refine List.eq_nil_iff_forall_not_mem.mpr fun item hitem => ?_
    have hitem := get?_eq_some_iff.mpr hitem
    have hhead := hheads item.1
    rw [hempty item.1, hitem] at hhead
    cases hhead
  · intro hnil name
    have hnone : d.items.get? name = none := by rw [get?, hnil]; rfl
    rw [hheads, hnone]
    rfl

theorem forEach_dictSetItem (items : List (String × δ)) (d : PersistentDesignDict δ) :
    forEach (fun item => PersistentDesignDict.dictSetItem item.1 item.2) items d =
      (.ok (), { d with items := items.foldl (fun e item => e.set item.1 item.2) d.items }) := by
  induction items generalizing d with
  | nil => rfl
  | cons item items ih => exact ih _

/-- An assignment writes the memory first: when the store raises, the memory is ahead, unless it held the
value before. -/
theorem headsAgree_setItem_iff (hcodec : codec.Lossless) (hd : ContentStore codec d.store)
    (h : HeadsAgree codec d) (attempt : StoreAttempt) (key : String) (value : δ) :
    ContentStore codec (MappingCall.after codec d (.setItem attempt key value)).store ∧
      (HeadsAgree codec (MappingCall.after codec d (.setItem attempt key value)) ↔
        KeepsAgreement codec d (.setItem attempt key value)) := by
  have hrun : MappingCall.after codec d (.setItem attempt key value) =
      (PersistentDesignDict.write codec attempt key value "mapping-assignment"
        { d with items := d.items.set key value }).2 := rfl
  rw [hrun]
  rcases write_cases (d := { d with items := d.items.set key value }) attempt key value
    "mapping-assignment" hd with ⟨hraises, e, he⟩ | ⟨hraises, db', hok, hinv, hheads⟩
  · rw [he]
    refine ⟨hd, fun hset _ => ?_, fun hkeeps name => ?_⟩
    · have hhead := hset key
      rw [get?_set, if_pos rfl] at hhead
      obtain ⟨old, hold, heq⟩ := Option.map_eq_some_iff.mp ((h key).symm.trans hhead)
      rw [hold, hcodec.contentId_injective heq]
    · have hsame : (d.items.set key value).get? name = d.items.get? name := by
        rw [get?_set]
        split
        · rename_i hname
          rw [hname, hkeeps hraises]
        · rfl
      show _ = ((d.items.set key value).get? name).map codec.contentId
      rw [hsame]
      exact h name
  · rw [hok]
    exact ⟨hinv, iff_of_true (h.set hheads) fun hr => absurd hr hraises⟩

theorem headsAgree_commitDesign (hd : ContentStore codec d.store) (h : HeadsAgree codec d)
    (attempt : StoreAttempt) (key : String) (value : δ) (operation : String) :
    ContentStore codec (MappingCall.after codec d (.commitDesign attempt key value operation)).store ∧
      HeadsAgree codec (MappingCall.after codec d (.commitDesign attempt key value operation)) := by
  rcases write_cases attempt key value operation hd with ⟨-, e, he⟩ | ⟨-, db', hok, hinv, hheads⟩
  · have hafter : MappingCall.after codec d (.commitDesign attempt key value operation) = d :=
      congrArg Prod.snd (bind_of_error he)
    rw [hafter]
    exact ⟨hd, h⟩
  · have hafter : MappingCall.after codec d (.commitDesign attempt key value operation) =
        { d with items := d.items.set key value, store := db' } :=
      congrArg Prod.snd (bind_of_ok hok)
    rw [hafter]
    exact ⟨hinv, h.set hheads⟩

theorem headsAgree_persist (hd : ContentStore codec d.store) (h : HeadsAgree codec d)
    (attempt : StoreAttempt) (key operation : String) :
    ContentStore codec (MappingCall.after codec d (.persist attempt key operation)).store ∧
      HeadsAgree codec (MappingCall.after codec d (.persist attempt key operation)) := by
  rw [MappingCall.after, PersistentDesignDict.persist, get_bind]
  cases hkey : d.items.get? key with
  | none => exact ⟨hd, h⟩
  | some value =>
    simp only
    rcases write_cases attempt key value operation hd with ⟨-, e, he⟩ | ⟨-, db', hok, hinv, hheads⟩
    · rw [he]
      exact ⟨hd, h⟩
    · rw [hok]
      refine ⟨hinv, fun name => ?_⟩
      show db'.headContent d.session_id name = (d.items.get? name).map codec.contentId
      rw [hheads]
      split
      · rename_i hname
        rw [hname, hkey]
        rfl
      · exact h name

/-- A replacement writes the store first, and then fills the memory with what it reads after it was
emptied: of another dictionary all, of the mapping itself nothing. -/
theorem headsAgree_replaceAll_iff (hd : ContentStore codec d.store) (h : HeadsAgree codec d)
    (attempt : StoreAttempt) (designs : DesignSource δ) (operation : String) :
    ContentStore codec (MappingCall.after codec d (.replaceAll attempt designs operation)).store ∧
      (HeadsAgree codec (MappingCall.after codec d (.replaceAll attempt designs operation)) ↔
        KeepsAgreement codec d (.replaceAll attempt designs operation)) := by
  have hkeyed : Table.Keyed Prod.fst (d.read designs) := by
    cases designs with
    | other designs => exact designs.keyed
    | itself => exact d.items.keyed
  rw [MappingCall.after, PersistentDesignDict.replaceAll, get_bind]
  rcases replace_cases attempt hkeyed operation hd with ⟨hraises, e, he⟩ | ⟨hraises, db', hok, hinv, hheads⟩
  · rw [bind_of_error he]
    refine ⟨hd, iff_of_true h ?_⟩
    cases designs with
    | other => trivial
    | itself => exact .inl hraises
  · rw [bind_of_ok hok, PersistentDesignDict.clear, modify_bind, get_bind]
    rw [forEach_dictSetItem]
    refine ⟨hinv, ?_⟩
    cases designs with
    | other designs =>
      refine iff_true_intro fun name => ?_
      show db'.headContent d.session_id name =
        ((ofItems designs.items).get? name).map codec.contentId
      rw [hheads, ofItems_items, get?, Option.map_map]
      rfl
    | itself =>
      have hheads' : ∀ name, db'.headContent d.session_id name =
          (d.items.get? name).map codec.contentId := by
        intro name
        rw [hheads, get?, Option.map_map]
        rfl
      exact (headsAgree_empty_iff hheads').trans (or_iff_right hraises).symm

theorem headsAgree_delete_iff (h : HeadsAgree codec d) (key : String) :
    HeadsAgree codec { d with items := d.items.erase key } ↔ d.items.get? key = none := by
  constructor
  · intro herase
    rw [Option.eq_none_iff_forall_ne_some]
    exact fun value hvalue => not_headsAgree_erase h hvalue herase
  · intro hnone
    rw [erase_of_not_mem (not_mem_keys_iff.mpr hnone)]
    exact h

/-- **What one call does to the agreement.** -/
theorem headsAgree_after_iff (hcodec : codec.Lossless) (hd : ContentStore codec d.store)
    (h : HeadsAgree codec d) (call : MappingCall δ) :
    ContentStore codec (call.after codec d).store ∧
      (HeadsAgree codec (call.after codec d) ↔ KeepsAgreement codec d call) := by
  cases call with
  | setItem attempt key value => exact headsAgree_setItem_iff hcodec hd h attempt key value
  | commitDesign attempt key value operation =>
    exact (headsAgree_commitDesign hd h attempt key value operation).imp id iff_true_intro
  | persist attempt key operation =>
    exact (headsAgree_persist hd h attempt key operation).imp id iff_true_intro
  | replaceAll attempt designs operation => exact headsAgree_replaceAll_iff hd h attempt designs operation
  | delItem key =>
    rw [← show _ ↔ KeepsAgreement codec d (.delItem key) from headsAgree_delete_iff h key]
    rw [MappingCall.after, PersistentDesignDict.delItem, get_bind]
    cases hkey : d.items.get? key with
    | none => exact ⟨hd, iff_of_true h ((headsAgree_delete_iff h key).mpr hkey)⟩
    | some value => exact ⟨hd, Iff.rfl⟩
  | pop key default =>
    rw [← show _ ↔ KeepsAgreement codec d (.pop key default) from headsAgree_delete_iff h key]
    rw [MappingCall.after, PersistentDesignDict.pop, get_bind]
    cases hkey : d.items.get? key with
    | none =>
      have hsame := (headsAgree_delete_iff h key).mpr hkey
      cases default <;> exact ⟨hd, iff_of_true h hsame⟩
    | some value => exact ⟨hd, Iff.rfl⟩
  | popItem =>
    rw [MappingCall.after, PersistentDesignDict.popItem, get_bind]
    cases hlast : d.items.items.getLast? with
    | none => exact ⟨hd, iff_of_true h (List.getLast?_eq_none_iff.mp hlast)⟩
    | some item =>
      have hitem : d.items.get? item.1 = some item.2 :=
        get?_eq_some_iff.mpr (List.mem_of_getLast? hlast)
      refine ⟨hd, iff_of_false (not_headsAgree_erase h hitem) fun hnil => ?_⟩
      rw [show d.items.items = [] from hnil] at hlast
      cases hlast
  | clear => exact ⟨hd, headsAgree_empty_iff h⟩

end Calls

/-! ## Runs -/

section Runs

variable {codec : DesignCodec δ}

theorem contentStore_of_exec {before : List (StoreAction δ)} {db : Database}
    (hdb : Run.exec (StoreAction.step codec) Database.empty before = some db) : ContentStore codec db := by
  refine Run.exec_preserves (P := ContentStore codec) ?_ ⟨Integrity.empty, fun _ h => by cases h⟩ hdb
  rintro db action _ ⟨hintegrity, haddressed⟩ ⟨⟩
  exact ⟨(kept_after codec action hintegrity).integrity, addressed_after action haddressed⟩

theorem agrees_makeDesignMapping (hcodec : codec.Lossless) {db : Database} (hdb : ContentStore codec db)
    {session_id : String} {d : PersistentDesignDict δ}
    (hd : makeDesignMapping codec session_id db = .ok d) : d.store = db ∧ Agrees codec d := by
  obtain ⟨loaded, hloaded, hd⟩ := exceptBind_eq_ok.mp hd
  cases hd
  refine ⟨rfl, loaded, hloaded, fun n design => ?_⟩
  -- a head leads to one design
  have hfun : ∀ n design design', (n, design) ∈ loaded → (n, design') ∈ loaded → design = design' := by
    intro n design design' hmem hmem'
    have hhead := (mem_loadDesigns_iff hcodec hdb.integrity hdb.addressed hloaded).mp hmem
    have hhead' := (mem_loadDesigns_iff hcodec hdb.integrity hdb.addressed hloaded).mp hmem'
    exact hcodec.contentId_injective (Option.some.inj (hhead.symm.trans hhead'))
  exact (get?_ofItems_iff hfun).symm

/-- **The runs in which memory and store agree**: from any store that calls lead to, the session loads
what the mapping holds after every call exactly when every call meets the condition. -/
theorem always_agrees_iff (hcodec : codec.Lossless) {before : List (StoreAction δ)} {db : Database}
    (hdb : Run.exec (StoreAction.step codec) Database.empty before = some db) {session_id : String}
    {d : PersistentDesignDict δ} (hd : makeDesignMapping codec session_id db = .ok d)
    (calls : List (MappingCall δ)) :
    Run.Always (MappingCall.step codec) d calls (Agrees codec) ↔
      Run.EachStep (MappingCall.step codec) d calls (KeepsAgreement codec) := by
  have hstore := contentStore_of_exec hdb
  obtain ⟨rfl, hagrees⟩ := agrees_makeDesignMapping hcodec hstore hd
  apply Run.always_iff_eachStep_of_step (I := fun d => ContentStore codec d.store) hstore hagrees
  rintro d call _ hd h ⟨⟩
  obtain ⟨hafter, hiff⟩ := headsAgree_after_iff hcodec hd ((agrees_iff_headsAgree hcodec hd).mp h) call
  exact ⟨hafter, (agrees_iff_headsAgree hcodec hafter).trans hiff⟩

end Runs

/-- A store that takes writes, and one that does not. -/
def writes : StoreAttempt := ⟨false, fun name => "version of " ++ name, "t"⟩

def refuses : StoreAttempt := ⟨true, fun name => "version of " ++ name, "t"⟩

/-- The mapping of a session without designs. -/
def newMapping : PersistentDesignDict String := ⟨"s", empty, Database.empty⟩

theorem always_agrees_assignAndRefuse :
    Run.Always (MappingCall.step plainCodec) newMapping
      [.setItem writes "board" "X", .commitDesign refuses "board" "Y" "edit", .pop "panel" none]
      (Agrees plainCodec) := by
  have hempty : Run.exec (StoreAction.step plainCodec) Database.empty [] = some Database.empty := rfl
  refine (always_agrees_iff plainCodec_lossless hempty rfl _).mpr ?_
  refine Run.EachStep.cons ?_ rfl (Run.EachStep.cons trivial rfl (Run.EachStep.cons ?_ rfl .nil))
  · rintro (hunavailable | ⟨e, he⟩)
    · cases hunavailable
    · cases he
  · rfl

/-- An assignment whose write fails is seen by readers and forgotten by a restart, and a design that is
deleted comes back. -/
theorem not_always_agrees :
    ¬ Run.Always (MappingCall.step plainCodec) newMapping [.setItem refuses "board" "X"]
        (Agrees plainCodec) ∧
      ¬ Run.Always (MappingCall.step plainCodec) newMapping
        [.setItem writes "board" "X", .delItem "board"] (Agrees plainCodec) := by
  constructor
  · intro hall
    obtain ⟨loaded, hloaded, hitems⟩ := hall _ List.prefix_rfl _ rfl
    have hnil : loaded = [] := (Except.ok.inj hloaded).symm
    rw [hnil] at hitems
    exact List.not_mem_nil ((hitems "board" "X").mpr rfl)
  · intro hall
    obtain ⟨loaded, hloaded, hitems⟩ := hall _ List.prefix_rfl _ rfl
    have hboard : loaded = [("board", "X")] := (Except.ok.inj hloaded).symm
    rw [hboard] at hitems
    cases (hitems "board" "X").mp List.mem_cons_self

end ZapTrace
