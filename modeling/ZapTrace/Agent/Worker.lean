import Mathlib.Tactic.Set
import ZapTrace.Agent.Session
import ZapTrace.Library.Json

/-!
# Running a tool in the isolated worker

The parent clones its session and writes it with the arguments of the tool as JSON; the worker reads both,
runs the tool on them and writes the result and the session that the tool leaves, which the parent reads
and commits. Nothing turns what is read back into the types it had: the tool gets, and the parent keeps,
the JSON form of the values. Lists stand there for tuples and sets, and texts for the keys of a
dictionary. What `_default_encoder` writes for an instance of a class is a parameter.

On values that have this form already the way through the worker changes nothing but the audit events,
which a commit merges with those that the parent has.

## Main results

* `dumps_of_isData`: what is written and read again is the JSON form
* `plain_of_isLoaded`: JSON values keep their form
* `isolatedRun_plain`: what a run in the worker leaves
-/

namespace ZapTrace

open Prog List Dict

open PyValue (ofDict keyText stringKey IsLoaded IsLoadedList IsLoadedItems IsData IsDataList IsDataItems)

/-! ## Writing values -/

/-- The conversions that writing JSON uses. -/
structure JsonEncoder where
  py : PyText
  /-- `obj.model_dump(mode="json")` of an instance, when it has this method. -/
  modelDump : String → List (String × PyValue) → Option Json

section Dumps

variable (enc : JsonEncoder)

mutual

/-- `json.dump` with `default=_default_encoder`: a tuple and a set are written as lists, an instance as
the dump of its model or as its text. -/
def dumps : PyValue → Except PyError Json
  | .none => .ok .null
  | .bool b => .ok (.bool b)
  | .int i => .ok (.int i)
  | .float q => .ok (.float q)
  | .str s => .ok (.str s)
  | .list xs => (dumpsList xs).map .arr
  | .tuple xs => (dumpsList xs).map .arr
  | .set xs => (dumpsList xs).map .arr
  | .dict items => (dumpsItems items).map .obj
  | .object cls fields => .ok ((enc.modelDump cls fields).getD (.str (enc.py.str (.object cls fields))))
termination_by structural v => v

def dumpsList : List PyValue → Except PyError (List Json)
  | [] => .ok []
  | x :: xs => (dumps x).bind fun j => (dumpsList xs).map fun js => j :: js
termination_by structural xs => xs

/-- A key that is neither a string, a number, a truth value nor `None` raises a `TypeError`. -/
def dumpsItems : List (PyValue × PyValue) → Except PyError (List (String × Json))
  | [] => .ok []
  | (k, v) :: items =>
    match keyText enc.py k with
    | none => .error .typeError
    | some name => (dumps v).bind fun j => (dumpsItems items).map fun members => (name, j) :: members
termination_by structural items => items

end

end Dumps

/-! ## The JSON form -/

section Plain

variable (py : PyText)

mutual

/-- The JSON form of a value: lists for tuples and sets, and texts for keys. -/
def plain : PyValue → PyValue
  | .list xs => .list (plainList xs)
  | .tuple xs => .list (plainList xs)
  | .set xs => .list (plainList xs)
  | .dict items => ofDict (ofItems (plainItems items))
  | v => v
termination_by structural v => v

def plainList : List PyValue → List PyValue
  | [] => []
  | x :: xs => plain x :: plainList xs
termination_by structural xs => xs

def plainItems : List (PyValue × PyValue) → List (String × PyValue)
  | [] => []
  | (k, v) :: items => ((keyText py k).getD "", plain v) :: plainItems items
termination_by structural items => items

end

mutual

/-- **What is written and read again** is the JSON form. -/
theorem dumps_of_isData (enc : JsonEncoder) : ∀ {v : PyValue}, v.IsData →
    ∃ j, dumps enc v = .ok j ∧ j.toPy = plain enc.py v
  | .none, _ => ⟨_, rfl, rfl⟩
  | .bool _, _ => ⟨_, rfl, rfl⟩
  | .int _, _ => ⟨_, rfl, rfl⟩
  | .float _, _ => ⟨_, rfl, rfl⟩
  | .str _, _ => ⟨_, rfl, rfl⟩
  | .list _, h | .tuple _, h | .set _, h => by
    obtain ⟨js, hjs, hplain⟩ := dumpsList_of_isData enc h
    exact ⟨.arr js, by rw [dumps, hjs]; rfl, by rw [Json.toPy, hplain, plain]⟩
  | .dict _, h => by
    obtain ⟨members, hmembers, hplain⟩ := dumpsItems_of_isData enc h
    exact ⟨.obj members, by rw [dumps, hmembers]; rfl, by rw [Json.toPy, hplain, plain]⟩
  | .object _ _, h => absurd h id

theorem dumpsList_of_isData (enc : JsonEncoder) : ∀ {xs : List PyValue}, IsDataList xs →
    ∃ js, dumpsList enc xs = .ok js ∧ Json.toPyList js = plainList enc.py xs
  | [], _ => ⟨[], rfl, rfl⟩
  | _ :: _, h => by
    obtain ⟨j, hj, hv⟩ := dumps_of_isData enc h.1
    obtain ⟨js, hjs, hxs⟩ := dumpsList_of_isData enc h.2
    exact ⟨j :: js, by rw [dumpsList, hj, hjs]; rfl, by rw [Json.toPyList, hv, hxs, plainList]⟩

theorem dumpsItems_of_isData (enc : JsonEncoder) : ∀ {items : List (PyValue × PyValue)}, IsDataItems items →
    ∃ members, dumpsItems enc items = .ok members ∧
      Json.toPyMembers members = plainItems enc.py items
  | [], _ => ⟨[], rfl, rfl⟩
  | (_, _) :: _, h => by
    obtain ⟨hkey, hvalue, hrest⟩ := h
    obtain ⟨name, hname⟩ := Option.isSome_iff_exists.mp (hkey enc.py)
    obtain ⟨j, hj, hv⟩ := dumps_of_isData enc hvalue
    obtain ⟨members, hmembers, hitems⟩ := dumpsItems_of_isData enc hrest
    refine ⟨(name, j) :: members, by rw [dumpsItems, hname, hj, hmembers]; rfl, ?_⟩
    rw [Json.toPyMembers, hv, hitems, plainItems, hname]
    rfl

end

theorem map_fst_plainItems {items : List (PyValue × PyValue)} (h : IsLoadedItems items) :
    (plainItems py items).map (fun item => some item.1) = items.map fun item => stringKey item.1 := by
  induction items with
  | nil => rfl
  | cons item items ih =>
    obtain ⟨key, value⟩ := item
    obtain ⟨hkey, -, hitems⟩ := h
    cases key with
    | str text => exact congrArg _ (ih hitems)
    | _ => cases hkey

theorem keyed_plainItems {items : List (PyValue × PyValue)} (h : IsLoadedItems items)
    (hnodup : (items.map fun item => stringKey item.1).Nodup) :
    Table.Keyed Prod.fst (plainItems py items) := by
  rw [← map_fst_plainItems py h] at hnodup
  exact (pairwise_map.mp hnodup).imp fun hne heq => hne (congrArg some heq)

mutual

/-- **JSON values keep their form.** -/
theorem plain_of_isLoaded : ∀ {v : PyValue}, IsLoaded v → plain py v = v
  | .none, _ | .bool _, _ | .int _, _ | .float _, _ | .str _, _ => rfl
  | .list _, h => congrArg PyValue.list (plainList_of_isLoaded h)
  | .dict items, h => by
    show PyValue.dict ((ofItems (plainItems py items)).items.map _) = PyValue.dict items
    rw [items_ofItems (keyed_plainItems py h.1 h.2), plainItems_of_isLoaded h.1]
  | .tuple _, h | .set _, h | .object _ _, h => absurd h id

theorem plainList_of_isLoaded : ∀ {xs : List PyValue}, IsLoadedList xs → plainList py xs = xs
  | [], _ => rfl
  | _ :: _, h => congrArg₂ cons (plain_of_isLoaded h.1) (plainList_of_isLoaded h.2)

theorem plainItems_of_isLoaded : ∀ {items : List (PyValue × PyValue)}, IsLoadedItems items →
    (plainItems py items).map (fun item => (PyValue.str item.1, item.2)) = items
  | [], _ => rfl
  | (.str _, _) :: _, h => by
    rw [plainItems, map_cons, plainItems_of_isLoaded h.2.2, plain_of_isLoaded h.2.1]
    rfl

end

theorem isLoaded_plain {v : PyValue} (h : v.IsData) : IsLoaded (plain py v) := by
  obtain ⟨j, -, hj⟩ := dumps_of_isData ⟨py, fun _ _ => none⟩ h
  rw [← hj]
  exact j.isLoaded_toPy

/-! ### Dictionaries with string keys -/

/-- A session, or the arguments of a tool. -/
abbrev Entries := Dict String PyValue

def Entries.IsData (d : Entries) : Prop := ∀ item ∈ d.items, item.2.IsData

def Entries.IsLoaded (d : Entries) : Prop := ∀ item ∈ d.items, PyValue.IsLoaded item.2

/-- The JSON form, entry by entry. -/
def Entries.plain (d : Entries) : Entries where
  items := d.items.map fun item => (item.1, ZapTrace.plain py item.2)
  keyed := by
    apply pairwise_map.mpr
    exact d.keyed

theorem Entries.get?_plain (d : Entries) (k : String) :
    (d.plain py).get? k = (d.get? k).map (ZapTrace.plain py) := by
  refine Option.ext fun v => ?_
  rw [get?_eq_some_iff, Option.map_eq_some_iff]
  simp only [get?_eq_some_iff]
  constructor
  · intro h
    obtain ⟨⟨k', w⟩, hmem, heq⟩ := mem_map.mp h
    obtain ⟨rfl, rfl⟩ := Prod.mk.inj heq
    exact ⟨w, hmem, rfl⟩
  · rintro ⟨w, hmem, rfl⟩
    exact mem_map.mpr ⟨(k, w), hmem, rfl⟩
variable {d : Entries}

theorem Entries.plain_of_isLoaded (h : d.IsLoaded) : d.plain py = d := by
  obtain ⟨items, keyed⟩ := d
  have hitems : items.map (fun item => (item.1, ZapTrace.plain py item.2)) = items := by
    conv_rhs => rw [← map_id items]
    apply map_congr_left
    intro item hitem
    rw [ZapTrace.plain_of_isLoaded py (h item hitem)]
    rfl
  simp only [Entries.plain, hitems]

theorem Entries.isLoaded_plain (h : d.IsData) : (d.plain py).IsLoaded := by
  intro item hitem
  obtain ⟨source, hsource, rfl⟩ := mem_map.mp hitem
  exact ZapTrace.isLoaded_plain py (h source hsource)

theorem Entries.isData_of_isLoaded (h : d.IsLoaded) : d.IsData :=
  fun item hitem => PyValue.isData_of_isLoaded (h item hitem)

end Plain

/-- The members of the object that a dictionary with string keys is written as. -/
def dumpsEntries (enc : JsonEncoder) (d : Entries) : Except PyError (List (String × Json)) :=
  dumpsItems enc (d.items.map fun item => (.str item.1, item.2))

/-- `dict(json.load(..))` of an object. -/
def loadEntries (members : List (String × Json)) : Entries := ofItems (Json.toPyMembers members)

theorem isDataItems_of_entries {items : List (String × PyValue)} (h : ∀ item ∈ items, item.2.IsData) :
    IsDataItems (items.map fun item => (.str item.1, item.2)) := by
  induction items with
  | nil => exact trivial
  | cons item items ih =>
    obtain ⟨hitem, hrest⟩ := forall_mem_cons.mp h
    exact ⟨fun _ => rfl, hitem, ih hrest⟩

theorem plainItems_entries (py : PyText) (items : List (String × PyValue)) :
    plainItems py (items.map fun item => (.str item.1, item.2)) =
      items.map fun item => (item.1, plain py item.2) := by
  induction items with
  | nil => rfl
  | cons item items ih =>
    rw [map_cons, plainItems, ih]
    rfl

/-- **Written and read again**, a dictionary has its JSON form. -/
theorem dumpsEntries_of_isData (enc : JsonEncoder) (h : d.IsData) :
    ∃ members, dumpsEntries enc d = .ok members ∧ loadEntries members = d.plain enc.py := by
  obtain ⟨members, hmembers, hplain⟩ := dumpsItems_of_isData enc (isDataItems_of_entries h)
  refine ⟨members, hmembers, ?_⟩
  rw [loadEntries, hplain, plainItems_entries]
  exact ofItems_items (d.plain enc.py)

/-! ## A run in the worker -/

/-- A tool, as a function of its arguments and the session: what it returns and the session it leaves. -/
abbrev SessionTool := Entries → Entries → Except PyError (PyValue × Entries)

/-- The elements that iterating over a value gives. -/
def iterItems : PyValue → Except PyError (List PyValue)
  | .str s => .ok (s.toList.map fun c => .str (String.singleton c))
  | .list xs | .tuple xs | .set xs => .ok xs
  | .dict items => .ok (items.map Prod.fst)
  | _ => .error .typeError

/-- `dict(value)` with the names of the designs as keys: a dictionary, or a sequence of pairs. -/
def designDict : PyValue → Except PyError (String → Option PyValue)
  | .dict items => .ok fun name => PyValue.lookup name items
  | value => do
    let pairs ← (← iterItems value).mapM fun x => do
      match ← iterItems x with
      | [k, v] => pure (k, v)
      | _ => throw .valueError
    pure fun name => PyValue.lookup name pairs.reverse

/-- The session that a dictionary stands for, with its designs bound to the durable store or not. -/
def sessionOf (binding : Option String) (state : Entries) : Session where
  designs :=
    match state.get? "designs" with
    | some (.dict items) =>
      let designs := fun name => PyValue.lookup name items
      some (match binding with
        | none => .dict designs
        | some session_id => .persistent session_id designs)
    | _ => none
  entries := fun key => if key = "designs" then none else state.get? key

/-- What `_replace_session_state` takes from a dictionary. -/
def incomingSession (state : Entries) : Except PyError Session :=
  (designDict ((state.get? "designs").getD (.dict []))).map fun designs =>
    ⟨some (.dict designs), fun key => if key = "designs" then none else state.get? key⟩

/-- `_clone_session_state`; a session has its designs as a dictionary. -/
def cloneEntries (state : Entries) : Entries :=
  match state.get? "designs" with
  | none => state.set "designs" (.dict [])
  | some _ => state

/-- A tool in the isolated worker: the request with the clone of the session, `_execute_request`, the
response, and `_commit_session_state`. Of the request only the arguments and the session are here. An
exception on the way is the outcome, and then nothing is committed. -/
def isolatedRun (enc : JsonEncoder) (f : SessionTool) (kwargs state : Entries) :
    Prog ParentState PyError PyValue := do
  let request_kwargs ← ofExcept (dumpsEntries enc kwargs)
  let request_state ← ofExcept (dumpsEntries enc (cloneEntries state))
  let response ← ofExcept (f (loadEntries request_kwargs) (loadEntries request_state))
  let result ← ofExcept (dumps enc response.1)
  let session_state ← ofExcept (dumpsEntries enc response.2)
  let incoming ← ofExcept (incomingSession (loadEntries session_state))
  let _ ← commitSessionState enc.py none incoming
  pure result.toPy

/-- A parent whose session is the dictionary. -/
def parentOf (binding : Option String) (heads : String → Designs) (state : Entries) : ParentState where
  session := sessionOf binding state
  destroyed := false
  heads := heads

/-- The worker gives the result of the tool on the session itself, and the parent ends with the session
that the tool leaves. -/
def SameAsDirect (enc : JsonEncoder) (f : SessionTool) (kwargs state : Entries) : Prop :=
  ∀ binding heads result final, f kwargs state = .ok (result, final) →
    let outcome := isolatedRun enc f kwargs state (parentOf binding heads state)
    outcome.1 = .ok result ∧ outcome.2.session.SameValue (sessionOf binding final)

/-- The audit events of a session that is committed: those of both, merged. -/
def mergedEntries (py : PyText) (current incoming : Entries) : Entries :=
  let merged := mergeAuditEvents py ((incoming.get? "audit_events").getD (.list []))
    ((current.get? "audit_events").getD (.list []))
  if merged ≠ [] then incoming.set "audit_events" (.list merged) else incoming

theorem mergedEntries_of_none (py : PyText) {current incoming : Entries}
    (hcurrent : current.get? "audit_events" = none) (hincoming : incoming.get? "audit_events" = none) :
    mergedEntries py current incoming = incoming := by
  have hmerged : mergeAuditEvents py (.list []) (.list []) = [] := by
    simp [mergeAuditEvents, uniqueAuditEvents, collectUnique]
  simp [mergedEntries, hcurrent, hincoming, hmerged]

section Run

variable {enc : JsonEncoder} {f : SessionTool} {kwargs state : Entries}
variable {designs : PyValue}

theorem cloneEntries_of_designs (h : state.get? "designs" = some designs) : cloneEntries state = state := by
  rw [cloneEntries, h]

theorem isolatedRun_eq (hkwargs : kwargs.IsData) (hstate : state.IsData)
    (hdesigns : state.get? "designs" = some designs) :
    isolatedRun enc f kwargs state = (do
      let response ← ofExcept (f (kwargs.plain enc.py) (state.plain enc.py))
      let result ← ofExcept (dumps enc response.1)
      let session_state ← ofExcept (dumpsEntries enc response.2)
      let incoming ← ofExcept (incomingSession (loadEntries session_state))
      let _ ← commitSessionState enc.py none incoming
      pure result.toPy) := by
  obtain ⟨request_kwargs, hrequest, hk⟩ := dumpsEntries_of_isData enc hkwargs
  obtain ⟨request_state, hrequest', hs⟩ := dumpsEntries_of_isData enc hstate
  rw [isolatedRun, cloneEntries_of_designs hdesigns, hrequest, hrequest', ← hk, ← hs]
  rfl

variable {items : List (PyValue × PyValue)} {final : Entries}

theorem incomingSession_eq (h : final.get? "designs" = some (.dict items)) :
    incomingSession final = .ok (sessionOf none final) := by
  rw [incomingSession, sessionOf, h]
  rfl

variable {binding : Option String}

theorem getDesigns_sessionOf (h : final.get? "designs" = some (.dict items)) :
    (sessionOf binding final).designs.map DesignMapping.items =
      some fun name => PyValue.lookup name items := by
  rw [sessionOf, h]
  cases binding <;> rfl

theorem sameValue_replacedState (py : PyText) (binding : Option String) (heads : String → Designs)
    (state final : Entries) (h : final.get? "designs" = some (.dict items)) :
    (replacedState py (parentOf binding heads state) (sessionOf none final) true).session.SameValue
      (sessionOf binding (mergedEntries py state final)) := by
  have hmerged : (mergedEntries py state final).get? "designs" = some (.dict items) := by
    unfold mergedEntries
    dsimp only
    split
    · rw [get?_set_of_ne _ _ (by decide), h]
    · exact h
  constructor
  · rw [replacedState_designs, getDesigns_sessionOf hmerged, sessionOf, h]
    rfl
  · rw [replacedState_entries]
    funext key
    have haudit : ¬ "audit_events" = "designs" := by decide
    simp only [replacementEntries, mergedEntries, sessionOf, parentOf, if_neg haudit, true_and]
    split
    · rename_i hne
      rw [Function.update_apply, get?_set]
      by_cases hkey : key = "audit_events"
      · rw [if_pos hkey, if_pos hkey, if_neg (hkey ▸ haudit)]
      · rw [if_neg hkey, if_neg hkey]
    · rfl

/-- The durable heads after a session without designs is committed. -/
def clearedHeads (binding : Option String) (heads : String → Designs) : String → Designs :=
  match binding with
  | none => heads
  | some session_id => Function.update heads session_id fun _ => none

theorem heads_replacedState (py : PyText) (heads : String → Designs) (state : Entries) {ds : List (PyValue × PyValue)}
    (hstate : state.get? "designs" = some (.dict ds)) (h : final.get? "designs" = some (.dict items))
    (hstore : binding = none ∨ items = []) :
    (replacedState py (parentOf binding heads state) (sessionOf none final) true).heads =
      clearedHeads binding heads := by
  cases binding with
  | none => simp [replacedState, parentOf, sessionOf, hstate, Session.getDesigns, clearedHeads]
  | some session_id =>
    obtain rfl := hstore.resolve_left (Option.some_ne_none _)
    simp [replacedState, parentOf, sessionOf, hstate, h, Session.getDesigns, clearedHeads,
      DesignMapping.items, PyValue.lookup]

/-- The run gives the result, and leaves the session with the audit events of both in the parent. -/
def Commits (enc : JsonEncoder) (f : SessionTool) (kwargs state : Entries) (binding : Option String)
    (heads : String → Designs) (result : PyValue) (final : Entries) : Prop :=
  ∃ after, isolatedRun enc f kwargs state (parentOf binding heads state) = (.ok result, after) ∧
    after.session.SameValue (sessionOf binding (mergedEntries enc.py state final)) ∧
    after.heads = clearedHeads binding heads

theorem isolatedRun_of_error (hkwargs : kwargs.IsData) (hstate : state.IsData)
    (hdesigns : state.get? "designs" = some designs) (parent : ParentState) {e : PyError}
    (hf : f (kwargs.plain enc.py) (state.plain enc.py) = .error e) :
    isolatedRun enc f kwargs state parent = (.error e, parent) := by
  rw [isolatedRun_eq hkwargs hstate hdesigns, hf]
  rfl

variable (enc f kwargs state)

theorem commits_plain (hkwargs : kwargs.IsData) (hstate : state.IsData) {ds : List (PyValue × PyValue)}
    (hdesigns : state.get? "designs" = some (.dict ds)) (heads : String → Designs) {result : PyValue}
    (hf : f (kwargs.plain enc.py) (state.plain enc.py) = .ok (result, final)) (hresult : result.IsData)
    (hfinal : final.IsData) (hitems : final.get? "designs" = some (.dict items)) (hstore : binding = none ∨ items = []) :
    Commits enc f kwargs state binding heads (plain enc.py result) (final.plain enc.py) := by
  obtain ⟨j, hj, hplain⟩ := dumps_of_isData enc hresult
  obtain ⟨members, hmembers, hloaded⟩ := dumpsEntries_of_isData enc hfinal
  have hread : (final.plain enc.py).get? "designs" = some (plain enc.py (.dict items)) := by
    rw [Entries.get?_plain, hitems]
    rfl
  have hcommit : commitSessionState enc.py none (sessionOf none (final.plain enc.py))
      (parentOf binding heads state) = (.ok (cloneSessionState (sessionOf binding state)),
        replacedState enc.py (parentOf binding heads state) (sessionOf none (final.plain enc.py)) true) :=
    commitSessionState_apply rfl (by simp) (by simp) (by simp)
  refine ⟨_, ?_, sameValue_replacedState enc.py binding heads state _ hread,
    heads_replacedState enc.py heads state hdesigns hread (hstore.imp_right ?_)⟩
  · rw [isolatedRun_eq hkwargs hstate hdesigns, hf]
    simp only [ofExcept_ok, pure_bind, hj, hmembers, hloaded, incomingSession_eq hread]
    rw [bind_of_ok hcommit, hplain]
    rfl
  · rintro rfl
    rfl

/-- **A tool in the isolated worker**, on a session and arguments without instances of classes. The tool
gets their JSON form; the outcome is its exception, or the JSON form of its result, and then the parent
has the JSON form of the session that the tool leaves, with the audit events of both. On values that are
read from JSON this is what the tool does on the session itself, up to the audit events. -/
theorem isolated_run {ds : List (PyValue × PyValue)} (hdesigns : state.get? "designs" = some (.dict ds))
    (binding : Option String) (heads : String → Designs) :
    (kwargs.IsData → state.IsData →
      (∀ e, f (kwargs.plain enc.py) (state.plain enc.py) = .error e →
        isolatedRun enc f kwargs state (parentOf binding heads state) =
          (.error e, parentOf binding heads state)) ∧
      ∀ result final, f (kwargs.plain enc.py) (state.plain enc.py) = .ok (result, final) →
        result.IsData → final.IsData → ∀ items, final.get? "designs" = some (.dict items) →
        (binding = none ∨ items = []) →
        Commits enc f kwargs state binding heads (plain enc.py result) (final.plain enc.py)) ∧
    (kwargs.IsLoaded → state.IsLoaded → ∀ result final, f kwargs state = .ok (result, final) →
      result.IsLoaded → final.IsLoaded → ∀ items, final.get? "designs" = some (.dict items) →
      (binding = none ∨ items = []) →
      Commits enc f kwargs state binding heads result final) := by
  refine ⟨fun hkwargs hstate => ⟨fun e he => ?_, fun result final hf hresult hfinal items hitems hstore => ?_⟩,
    fun hkwargs hstate result final hf hresult hfinal items hitems hstore => ?_⟩
  · exact isolatedRun_of_error hkwargs hstate hdesigns _ he
  · exact commits_plain enc f kwargs state hkwargs hstate hdesigns heads hf hresult hfinal hitems hstore
  · -- the JSON form of what is read is what is read
    have hplain := commits_plain enc f kwargs state (Entries.isData_of_isLoaded hkwargs)
      (Entries.isData_of_isLoaded hstate) hdesigns heads
      (by rw [Entries.plain_of_isLoaded _ hkwargs, Entries.plain_of_isLoaded _ hstate, hf])
      (PyValue.isData_of_isLoaded hresult) (Entries.isData_of_isLoaded hfinal) hitems hstore
    rw [plain_of_isLoaded _ hresult, Entries.plain_of_isLoaded _ hfinal] at hplain
    exact hplain

end Run

/-! ### Sessions with a design, a tuple and a marker -/

def identityTool : SessionTool := fun _ state => .ok (.none, state)

def emptyEncoder : JsonEncoder := ⟨⟨fun _ => "", fun _ => ""⟩, fun _ _ => some (.obj [])⟩

def designState : Entries := empty.set "designs" (.dict [(.str "board", .object "Design" [])])

def emptyState : Entries := empty.set "designs" (.dict [])

def tupleState : Entries := emptyState.set "origin" (.tuple [.int 1, .int 2])

theorem isData_tupleState : tupleState.IsData := by
  have hitems : tupleState.items = [("designs", .dict []), ("origin", .tuple [.int 1, .int 2])] := rfl
  intro item hitem
  rw [hitems] at hitem
  rcases mem_cons.mp hitem with rfl | hitem
  · exact trivial
  · obtain rfl := mem_singleton.mp hitem
    exact ⟨trivial, trivial, trivial⟩

/-- After a tool that changes nothing a design is a dictionary, and a tuple is a list. -/
theorem not_sameAsDirect_identityTool :
    ¬ SameAsDirect emptyEncoder identityTool empty designState ∧
      ¬ SameAsDirect emptyEncoder identityTool empty tupleState := by
  constructor
  · intro hsame
    obtain ⟨-, hdesigns, -⟩ := hsame none (fun _ _ => none) .none designState rfl
    have hboard := congrFun (Option.some.inj hdesigns) "board"
    cases hboard
  · intro hsame
    obtain ⟨-, -, hdirect⟩ := hsame none (fun _ _ => none) .none tupleState rfl
    obtain ⟨after, hrun, ⟨-, hafter⟩, -⟩ := commits_plain emptyEncoder identityTool empty tupleState
      (fun item hitem => absurd hitem not_mem_nil) isData_tupleState rfl (fun _ _ => none) rfl trivial
      (Entries.isData_of_isLoaded (Entries.isLoaded_plain _ isData_tupleState)) rfl (.inl rfl)
    rw [hrun, hafter, mergedEntries_of_none _ rfl rfl] at hdirect
    have horigin := congrFun hdirect "origin"
    cases horigin

/-- A tool that leaves a marker in the session and returns it. -/
def markTool : SessionTool := fun kwargs state =>
  match kwargs.get? "marker" with
  | none => .error .typeError
  | some marker => .ok (.dict [(.str "marker", marker)], state.set "markers" (.list [marker]))

theorem isolated_run_markTool :
    Commits emptyEncoder markTool (empty.set "marker" (.str "a")) emptyState none (fun _ _ => none)
      (.dict [(.str "marker", .str "a")]) (emptyState.set "markers" (.list [.str "a"])) := by
  refine (isolated_run emptyEncoder markTool (empty.set "marker" (.str "a")) emptyState rfl none _).2
    ?_ ?_ _ _ rfl ?_ ?_ [] rfl (.inl rfl)
  · intro item hitem
    obtain rfl := mem_singleton.mp hitem
    exact trivial
  · intro item hitem
    obtain rfl := mem_singleton.mp hitem
    exact ⟨trivial, nodup_nil⟩
  · exact ⟨⟨rfl, trivial, trivial⟩, nodup_singleton _⟩
  · intro item hitem
    rcases mem_cons.mp hitem with rfl | hitem
    · exact ⟨trivial, nodup_nil⟩
    · obtain rfl := mem_singleton.mp hitem
      exact ⟨trivial, trivial⟩

end ZapTrace
