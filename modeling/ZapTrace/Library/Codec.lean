import Mathlib.Data.Rat.Defs
import ZapTrace.Library.Dict
import ZapTrace.Library.PyValue

/-!
# Dumping records and validating them again

A codec says how the values of a type are dumped to Python values and how a Python value is
validated as one of them. A record is described field by field: each field has a name under which it
is dumped, and is required, has a default, or may be missing. A dump can leave out the fields that
hold nothing.

A codec carries the proof that a dumped value validates as itself, for the values that it keeps; a
description of a record carries the same for the fields it has so far. So a record that is described
is a record that survives its dump.

## Main results

* `Fields.field`: one more field under a fresh name keeps what was kept, and its own value
* `validateDict_dumpDict`: a dictionary survives its dump when its values do
-/

namespace PyValue

/-- The values that JSON text can hold. -/
inductive IsJson : PyValue → Prop
  | none : IsJson none
  | bool (b : Bool) : IsJson (bool b)
  | int (i : Int) : IsJson (int i)
  | float (q : Rat) : IsJson (float q)
  | str (s : String) : IsJson (str s)
  | list {xs : List PyValue} (h : ∀ x ∈ xs, IsJson x) : IsJson (list xs)
  | dict {items : List (PyValue × PyValue)} (hkeys : ∀ item ∈ items, ∃ k, item.1 = str k)
      (h : ∀ item ∈ items, IsJson item.2) : IsJson (dict items)

theorem lookup_append (key : String) (xs ys : List (PyValue × PyValue)) :
    lookup key (xs ++ ys) = (lookup key xs).or (lookup key ys) := by
  fun_induction lookup key xs with
  | case1 => simp
  | case2 v items => simp [lookup]
  | case3 k v items hne ih => simp [lookup, hne, ih]
  | case4 item items hkey ih =>
    obtain ⟨k, v⟩ := item
    cases k <;> simp_all [lookup]

theorem lookup_eq_none {key : String} {items : List (PyValue × PyValue)}
    (h : ∀ item ∈ items, item.1 ≠ str key) : lookup key items = Option.none := by
  fun_induction lookup key items with
  | case1 => rfl
  | case2 v items => exact absurd rfl (h _ List.mem_cons_self)
  | case3 k v items _ ih => exact ih fun item hitem => h item (List.mem_cons_of_mem _ hitem)
  | case4 item items _ ih => exact ih fun item hitem => h item (List.mem_cons_of_mem _ hitem)

/-- The entry of a dictionary under a name, if there is a value for it. -/
def entry (name : String) (v : Option PyValue) : List (PyValue × PyValue) :=
  (v.map fun v => (str name, v)).toList

@[simp] theorem lookup_entry (key name : String) (v : Option PyValue) :
    lookup key (entry name v) = if name = key then v else Option.none := by
  cases v <;> simp [entry, lookup]

theorem mem_entry {name : String} {v : Option PyValue} {item : PyValue × PyValue}
    (h : item ∈ entry name v) : item.1 = str name := by
  obtain ⟨w, -, rfl⟩ := Option.map_eq_some_iff.mp (Option.mem_toList.mp h)
  rfl

end PyValue

theorem mapM_map_eq_pure {m : Type → Type} [Monad m] [LawfulMonad m] {α β γ : Type} {f : β → m γ}
    {g : α → β} {h : α → γ} {xs : List α} (hfg : ∀ x ∈ xs, f (g x) = pure (h x)) :
    (xs.map g).mapM f = pure (xs.map h) := by
  induction xs with
  | nil => simp
  | cons x xs ih =>
    rw [List.map_cons, List.mapM_cons, hfg x List.mem_cons_self,
      ih fun y hy => hfg y (List.mem_cons_of_mem _ hy)]
    simp

/-! ## Codecs -/

/-- How the values of a type are dumped, with or without the fields that hold nothing, and how they
are validated. -/
structure Codec (α : Type) where
  dump : Bool → α → PyValue
  validate : PyValue → Option α
  /-- The values that survive their dump. -/
  Keeps : α → Prop
  dump_ne_none : ∀ exclude_none a, dump exclude_none a ≠ .none
  validate_dump : ∀ exclude_none a, Keeps a → validate (dump exclude_none a) = some a

namespace Codec

variable {α β : Type}

/-- A list: dumped as one, validated from a list, a tuple or a set. -/
def list (c : Codec α) : Codec (List α) where
  dump exclude_none xs := .list (xs.map (c.dump exclude_none))
  validate
    | .list xs | .tuple xs | .set xs => xs.mapM c.validate
    | _ => none
  Keeps xs := ∀ x ∈ xs, c.Keeps x
  dump_ne_none _ _ := by simp
  validate_dump exclude_none xs h := by
    show (xs.map (c.dump exclude_none)).mapM c.validate = some xs
    rw [mapM_map_eq_pure (h := id) fun x hx => c.validate_dump exclude_none x (h x hx)]
    simp

/-- A tuple of two: dumped as a list. -/
def pair (c : Codec α) (d : Codec β) : Codec (α × β) where
  dump exclude_none x := .list [c.dump exclude_none x.1, d.dump exclude_none x.2]
  validate
    | .list [x, y] | .tuple [x, y] => do return (← c.validate x, ← d.validate y)
    | _ => none
  Keeps x := c.Keeps x.1 ∧ d.Keeps x.2
  dump_ne_none _ _ := by simp
  validate_dump exclude_none x h := by
    simp [c.validate_dump exclude_none x.1 h.1, d.validate_dump exclude_none x.2 h.2]

def enum (text : α → String) (members : List α)
    (h : ∀ a, members.find? (fun e => text e = text a) = some a) : Codec α where
  dump _ a := .str (text a)
  validate
    | .str s => members.find? fun e => text e = s
    | _ => none
  Keeps _ := True
  dump_ne_none _ _ := by simp
  validate_dump _ a _ := h a

/-- A value with a check of its own after its validation. -/
def subtype (c : Codec α) (p : α → Prop) [DecidablePred p] : Codec { a // p a } where
  dump exclude_none a := c.dump exclude_none a.1
  validate v := (c.validate v).bind fun a => if h : p a then some ⟨a, h⟩ else none
  Keeps a := c.Keeps a.1
  dump_ne_none exclude_none a := c.dump_ne_none exclude_none a.1
  validate_dump exclude_none a h := by
    rw [c.validate_dump exclude_none a.1 h, Option.bind_some, dif_pos a.2]

/-- A value that is validated already: it is taken as it is. -/
def given (c : Codec α) (a : α) : Codec α :=
  { c with
    validate := fun _ => some a
    Keeps := fun b => a = b
    validate_dump := by simp }

end Codec

/-! ## Fields -/

/-- A field of a record: what a dump has for it, if anything, and how it is read. -/
structure FieldCodec (α : Type) where
  dump : Bool → α → Option PyValue
  read : Option PyValue → Option α
  Keeps : α → Prop
  read_dump : ∀ exclude_none a, Keeps a → read (dump exclude_none a) = some a

namespace Codec

variable {α : Type} (c : Codec α)

/-- A field without a default. -/
def required : FieldCodec α where
  dump exclude_none a := some (c.dump exclude_none a)
  read v := v.bind c.validate
  Keeps := c.Keeps
  read_dump exclude_none a h := by rw [Option.bind_some, c.validate_dump exclude_none a h]

def withDefault (default : α) : FieldCodec α where
  dump exclude_none a := some (c.dump exclude_none a)
  read
    | some v => c.validate v
    | none => some default
  Keeps := c.Keeps
  read_dump exclude_none a h := c.validate_dump exclude_none a h

/-- A field that may hold nothing, and does by default. -/
def nullable : FieldCodec (Option α) where
  dump exclude_none
    | some a => some (c.dump exclude_none a)
    | none => if exclude_none then none else some .none
  read
    | some .none | none => some none
    | some v => (c.validate v).map some
  Keeps a := ∀ x, a = some x → c.Keeps x
  read_dump exclude_none a h := by
    cases a with
    | none => cases exclude_none <;> rfl
    | some a =>
      have hdump := c.validate_dump exclude_none a (h a rfl)
      cases hv : c.dump exclude_none a with
      | none => exact absurd hv (c.dump_ne_none exclude_none a)
      | _ =>
        rw [hv] at hdump
        simp [hv, hdump]

end Codec

/-- The fields of a record so far: their names, what they hold, how they are dumped in order, and
how they are read from named arguments. -/
structure Fields (names : List String) (σ α : Type) where
  get : σ → α
  dump : Bool → σ → List (PyValue × PyValue)
  read : (String → Option PyValue) → Option α
  Keeps : σ → Prop
  dump_names : ∀ exclude_none s, ∀ item ∈ dump exclude_none s, ∃ n ∈ names, item.1 = .str n
  read_dump : ∀ exclude_none s look, Keeps s →
    (∀ n ∈ names, look n = PyValue.lookup n (dump exclude_none s)) → read look = some (get s)

namespace Fields

variable {names : List String} {σ α β : Type}

def start (mk : α) : Fields [] σ α where
  get _ := mk
  dump _ _ := []
  read _ := some mk
  Keeps _ := True
  dump_names := by simp
  read_dump := by simp

/-- One more field, under a name that the fields so far do not have. -/
def field (f : Fields names σ (β → α)) (name : String) (x : FieldCodec β) (get : σ → β)
    (fresh : name ∉ names := by decide) : Fields (name :: names) σ α where
  get s := f.get s (get s)
  dump exclude_none s :=
    f.dump exclude_none s ++ PyValue.entry name (x.dump exclude_none (get s))
  read look := do
    let mk ← f.read look
    return mk (← x.read (look name))
  Keeps s := f.Keeps s ∧ x.Keeps (get s)
  dump_names exclude_none s item hitem := by
    rcases List.mem_append.mp hitem with hitem | hitem
    · obtain ⟨n, hn, hname⟩ := f.dump_names exclude_none s item hitem
      exact ⟨n, List.mem_cons_of_mem _ hn, hname⟩
    · exact ⟨name, List.mem_cons_self, PyValue.mem_entry hitem⟩
  read_dump exclude_none s look h hlook := by
    -- the earlier fields do not see the new entry, nor the new field theirs
    have hf : ∀ n ∈ names, look n = PyValue.lookup n (f.dump exclude_none s) := by
      intro n hn
      have hne : name ≠ n := fun heq => fresh (heq ▸ hn)
      simp [hlook n (List.mem_cons_of_mem _ hn), PyValue.lookup_append, hne]
    have hx : look name = x.dump exclude_none (get s) := by
      have hnone : PyValue.lookup name (f.dump exclude_none s) = none := by
        apply PyValue.lookup_eq_none
        intro item hitem heq
        obtain ⟨n, hn, hname⟩ := f.dump_names exclude_none s item hitem
        rw [hname, PyValue.str.injEq] at heq
        exact fresh (heq ▸ hn)
      simp [hlook name List.mem_cons_self, PyValue.lookup_append, hnone]
    simp [f.read_dump exclude_none s look h.1 hf, hx, x.read_dump exclude_none (get s) h.2]

def model (f : Fields names σ σ) (h : ∀ s, f.get s = s := by exact fun _ => rfl) : Codec σ where
  dump exclude_none s := .dict (f.dump exclude_none s)
  validate
    | .dict items => f.read fun n => PyValue.lookup n items
    | _ => none
  Keeps := f.Keeps
  dump_ne_none _ _ := by simp
  validate_dump exclude_none s hs := by
    show f.read (fun n => PyValue.lookup n (f.dump exclude_none s)) = some s
    rw [f.read_dump exclude_none s _ hs fun _ _ => rfl, h]

end Fields

/-! ## Scalars and dictionaries -/

/-- A dictionary: its items are dumped one by one. -/
def dumpDict {α : Type} (dump : α → PyValue) (d : Dict String α) : PyValue :=
  .dict (d.items.map fun item => (.str item.1, dump item.2))

/-- A dictionary from a Python one, with its keys and its values validated. -/
def validateDict {α : Type} (key : PyValue → Option String) (validate : PyValue → Option α) :
    PyValue → Option (Dict String α)
  | .dict items => do
    return .ofItems (← items.mapM fun item => return (← key item.1, ← validate item.2))
  | _ => none

theorem validateDict_dumpDict {α : Type} {key : PyValue → Option String}
    {validate : PyValue → Option α} {dump : α → PyValue} {d : Dict String α}
    (hkey : ∀ s, key (.str s) = some s) (h : ∀ item ∈ d.items, validate (dump item.2) = some item.2) :
    validateDict key validate (dumpDict dump d) = some d := by
  have hitems : (d.items.map fun item => (PyValue.str item.1, dump item.2)).mapM
      (fun item => do return (← key item.1, ← validate item.2)) = some d.items := by
    rw [mapM_map_eq_pure (h := id) fun item hitem => by simp [hkey, h item hitem]]
    simp
  simp only [validateDict, dumpDict]
  rw [hitems]
  simp

/-- The validators of scalar fields, and the JSON form of a value of any type. A validator may take
more than the values of its type; it takes these as they are. -/
structure Pydantic where
  toStr : PyValue → Option String
  toFloat : PyValue → Option Rat
  toInt : PyValue → Option Int
  toBool : PyValue → Option Bool
  toFloatOrStr : PyValue → Option (Rat ⊕ String)
  toJson : PyValue → PyValue
  toStr_str : ∀ s, toStr (.str s) = some s
  toFloat_float : ∀ q, toFloat (.float q) = some q
  toInt_int : ∀ i, toInt (.int i) = some i
  toBool_bool : ∀ b, toBool (.bool b) = some b
  toFloatOrStr_float : ∀ q, toFloatOrStr (.float q) = some (.inl q)
  toFloatOrStr_str : ∀ s, toFloatOrStr (.str s) = some (.inr s)
  toJson_eq : ∀ v, v.IsJson → toJson v = v

namespace Pydantic

variable (p : Pydantic)

def str : Codec String where
  dump _ s := .str s
  validate := p.toStr
  Keeps _ := True
  dump_ne_none _ _ := by simp
  validate_dump _ s _ := p.toStr_str s

def float : Codec Rat where
  dump _ q := .float q
  validate := p.toFloat
  Keeps _ := True
  dump_ne_none _ _ := by simp
  validate_dump _ q _ := p.toFloat_float q

def int : Codec Int where
  dump _ i := .int i
  validate := p.toInt
  Keeps _ := True
  dump_ne_none _ _ := by simp
  validate_dump _ i _ := p.toInt_int i

def bool : Codec Bool where
  dump _ b := .bool b
  validate := p.toBool
  Keeps _ := True
  dump_ne_none _ _ := by simp
  validate_dump _ b _ := p.toBool_bool b

/-- `float | str` -/
def floatOrStr : Codec (Rat ⊕ String) where
  dump
    | _, .inl q => .float q
    | _, .inr s => .str s
  validate := p.toFloatOrStr
  Keeps _ := True
  dump_ne_none _ x := by cases x <;> simp
  validate_dump _ x _ := by
    cases x with
    | inl q => exact p.toFloatOrStr_float q
    | inr s => exact p.toFloatOrStr_str s

/-- `dict[str, T]` -/
def dict {α : Type} (c : Codec α) : Codec (Dict String α) where
  dump exclude_none := dumpDict (c.dump exclude_none)
  validate := validateDict p.toStr c.validate
  Keeps d := ∀ item ∈ d.items, c.Keeps item.2
  dump_ne_none _ _ := by simp [dumpDict]
  validate_dump exclude_none _ h :=
    validateDict_dumpDict p.toStr_str fun item hitem => c.validate_dump exclude_none item.2 (h item hitem)

/-- `dict[str, Any]`: the values are dumped in their JSON form and taken as they are. -/
def anyDict : Codec (Dict String PyValue) where
  dump _ := dumpDict p.toJson
  validate := validateDict p.toStr some
  Keeps d := ∀ item ∈ d.items, item.2.IsJson
  dump_ne_none _ _ := by simp [dumpDict]
  validate_dump _ _ h :=
    validateDict_dumpDict p.toStr_str fun item hitem => by rw [p.toJson_eq _ (h item hitem)]

end Pydantic
