import Mathlib.Data.List.Nodup
import ZapTrace.Library.Dict
import ZapTrace.Library.PyValue

/-!
# JSON values

What the reader of a JSON text makes of it. An object lists its members as they stand in the text; it is
read as a dictionary whose keys are strings, and of several members with one name the last stays. The
values that a reader returns are those of `PyValue.IsLoaded`: they have neither tuples, sets nor instances
of classes, and their dictionaries have string keys.

`json.dumps(value, default=str)` escapes characters outside ASCII, writes tuples as lists and the text of a value of
another class, and refuses a dictionary with a key that is no scalar.

## Main results

* `Json.isLoaded_toPy`: what is read is such a value
-/

/-- A JSON text, up to blanks. -/
inductive Json
  | null
  | bool (b : Bool)
  | int (i : Int)
  | float (q : Rat)
  | str (s : String)
  | arr (xs : List Json)
  | obj (members : List (String × Json))

namespace PyValue

/-- A dictionary with string keys. -/
def ofDict (d : Dict String PyValue) : PyValue := dict (d.items.map fun item => (str item.1, item.2))

/-- A key as `json.dump` writes it; keys of other types are refused. -/
def keyText (py : PyText) : PyValue → Option String
  | str s => some s
  | int i => some (toString i)
  | float q => some (py.repr (float q))
  | bool b => some (if b then "true" else "false")
  | none => some "null"
  | _ => Option.none

def stringKey : PyValue → Option String
  | str s => some s
  | _ => Option.none

mutual

/-- The values that `json.load` returns. -/
def IsLoaded : PyValue → Prop
  | none | bool _ | int _ | float _ | str _ => True
  | list xs => IsLoadedList xs
  | dict items => IsLoadedItems items ∧ (items.map fun item => stringKey item.1).Nodup
  | tuple _ | set _ | object _ _ => False
termination_by structural v => v

def IsLoadedList : List PyValue → Prop
  | [] => True
  | x :: xs => IsLoaded x ∧ IsLoadedList xs
termination_by structural xs => xs

def IsLoadedItems : List (PyValue × PyValue) → Prop
  | [] => True
  | (k, v) :: items => (stringKey k).isSome ∧ IsLoaded v ∧ IsLoadedItems items
termination_by structural items => items

end

mutual

/-- Values without instances of classes, whose dictionaries have keys that JSON can write. -/
def IsData : PyValue → Prop
  | none | bool _ | int _ | float _ | str _ => True
  | list xs | tuple xs | set xs => IsDataList xs
  | dict items => IsDataItems items
  | object _ _ => False
termination_by structural v => v

def IsDataList : List PyValue → Prop
  | [] => True
  | x :: xs => IsData x ∧ IsDataList xs
termination_by structural xs => xs

def IsDataItems : List (PyValue × PyValue) → Prop
  | [] => True
  | (k, v) :: items => (∀ py, (keyText py k).isSome) ∧ IsData v ∧ IsDataItems items
termination_by structural items => items

end

mutual

theorem isData_of_isLoaded : ∀ {v : PyValue}, IsLoaded v → IsData v
  | none, _ | bool _, _ | int _, _ | float _, _ | str _, _ => trivial
  | list _, h => isDataList_of_isLoaded h
  | dict _, h => isDataItems_of_isLoaded h.1
  | tuple _, h | set _, h | object _ _, h => absurd h id

theorem isDataList_of_isLoaded : ∀ {xs : List PyValue}, IsLoadedList xs → IsDataList xs
  | [], _ => trivial
  | _ :: _, h => ⟨isData_of_isLoaded h.1, isDataList_of_isLoaded h.2⟩

theorem isDataItems_of_isLoaded : ∀ {items : List (PyValue × PyValue)}, IsLoadedItems items → IsDataItems items
  | [], _ => trivial
  | (str _, _) :: _, h => ⟨fun _ => rfl, isData_of_isLoaded h.2.1, isDataItems_of_isLoaded h.2.2⟩

end

theorem isLoadedItems_iff {items : List (PyValue × PyValue)} :
    IsLoadedItems items ↔ ∀ item ∈ items, (stringKey item.1).isSome ∧ IsLoaded item.2 := by
  induction items with
  | nil => simp [IsLoadedItems]
  | cons item items ih =>
    obtain ⟨k, v⟩ := item
    rw [IsLoadedItems, ih, List.forall_mem_cons, and_assoc]

theorem nodup_stringKeys (d : Dict String PyValue) :
    ((d.items.map fun item => (str item.1, item.2)).map fun item => stringKey item.1).Nodup := by
  have hkeys : (d.items.map fun item => (str item.1, item.2)).map (fun item => stringKey item.1) =
      d.keys.map some := by
    rw [Dict.keys, List.map_map, List.map_map]
    rfl
  rw [hkeys]
  exact d.keys_nodup.map fun _ _ h => Option.some.inj h

theorem isLoaded_ofDict {d : Dict String PyValue} (h : ∀ item ∈ d.items, IsLoaded item.2) :
    IsLoaded (ofDict d) := by
  refine ⟨isLoadedItems_iff.mpr fun item hitem => ?_, nodup_stringKeys d⟩
  obtain ⟨source, hsource, rfl⟩ := List.mem_map.mp hitem
  exact ⟨rfl, h source hsource⟩

end PyValue

namespace Json

open PyValue (IsLoaded)

mutual

/-- `json.load` -/
def toPy : Json → PyValue
  | null => .none
  | bool b => .bool b
  | int i => .int i
  | float q => .float q
  | str s => .str s
  | arr xs => .list (toPyList xs)
  | obj members => .ofDict (Dict.ofItems (toPyMembers members))
termination_by structural j => j

def toPyList : List Json → List PyValue
  | [] => []
  | x :: xs => toPy x :: toPyList xs
termination_by structural xs => xs

def toPyMembers : List (String × Json) → List (String × PyValue)
  | [] => []
  | (name, x) :: members => (name, toPy x) :: toPyMembers members
termination_by structural members => members

end

end Json

theorem Dict.mem_of_mem_ofItems {κ α : Type} [DecidableEq κ] {items : List (κ × α)} {item : κ × α}
    (h : item ∈ (Dict.ofItems items).items) : item ∈ items := by
  induction items using List.reverseRecOn with
  | nil => exact absurd h List.not_mem_nil
  | append_singleton items last ih =>
    rw [Dict.ofItems_concat, ← Dict.get?_eq_some_iff, Dict.get?_set] at h
    split at h
    · rename_i hkey
      refine List.mem_append_right _ (List.mem_singleton.mpr (Prod.ext hkey ?_))
      exact (Option.some.inj h).symm
    · exact List.mem_append_left _ (ih (Dict.get?_eq_some_iff.mp h))

namespace Json

open PyValue (IsLoaded IsLoadedList isLoaded_ofDict)

mutual

/-- **What is read is a value of a JSON text.** -/
theorem isLoaded_toPy : ∀ j : Json, IsLoaded j.toPy
  | null | bool _ | int _ | float _ | str _ => trivial
  | arr xs => isLoaded_toPyList xs
  | obj members => isLoaded_ofDict fun item hitem =>
      isLoaded_toPyMembers members item (Dict.mem_of_mem_ofItems hitem)

theorem isLoaded_toPyList : ∀ xs : List Json, IsLoadedList (toPyList xs)
  | [] => trivial
  | x :: xs => ⟨isLoaded_toPy x, isLoaded_toPyList xs⟩

theorem isLoaded_toPyMembers : ∀ (members : List (String × Json)), ∀ item ∈ toPyMembers members, IsLoaded item.2
  | [], _, h => absurd h List.not_mem_nil
  | (_, x) :: members, item, h => by
    rcases List.mem_cons.mp h with rfl | h
    · exact isLoaded_toPy x
    · exact isLoaded_toPyMembers members item h

end

end Json

/-! ## Writing -/

namespace JsonText

/-- The four hexadecimal digits of a number below `16 ^ 4`. -/
def hex4 (n : Nat) : String :=
  .ofList [Nat.digitChar (n / 4096 % 16), Nat.digitChar (n / 256 % 16), Nat.digitChar (n / 16 % 16),
    Nat.digitChar (n % 16)]

/-- A character inside quotes. One outside the first plane is written as two surrogates. -/
def escapeChar (c : Char) : String :=
  if c = '"' then "\\\""
  else if c = '\\' then "\\\\"
  else if c = '\n' then "\\n"
  else if c = '\r' then "\\r"
  else if c = '\t' then "\\t"
  else if c.toNat = 0x08 then "\\b"
  else if c.toNat = 0x0c then "\\f"
  else if 0x20 ≤ c.toNat ∧ c.toNat ≤ 0x7e then String.singleton c
  else if c.toNat < 0x10000 then "\\u" ++ hex4 c.toNat
  else "\\u" ++ hex4 (0xd800 + (c.toNat - 0x10000) / 0x400) ++ "\\u" ++ hex4 (0xdc00 + (c.toNat - 0x10000) % 0x400)

def quoted (s : String) : String := "\"" ++ String.join (s.toList.map escapeChar) ++ "\""

end JsonText

namespace PyValue

open JsonText (quoted)

mutual

/-- `json.dumps(value, default=str)` -/
def jsonText (py : PyText) : PyValue → Option String
  | none => some "null"
  | bool b => some (if b then "true" else "false")
  | int i => some (toString i)
  | float q => some (py.repr (float q))
  | str s => some (quoted s)
  | list xs => do return "[" ++ ", ".intercalate (← jsonTexts py xs) ++ "]"
  | tuple xs => do return "[" ++ ", ".intercalate (← jsonTexts py xs) ++ "]"
  | dict items => do return "\x7b" ++ ", ".intercalate (← jsonItems py items) ++ "\x7d"
  | set xs => some (quoted (py.str (set xs)))
  | object cls fields => some (quoted (py.str (object cls fields)))
termination_by structural v => v

def jsonTexts (py : PyText) : List PyValue → Option (List String)
  | [] => some []
  | x :: xs => do return (← jsonText py x) :: (← jsonTexts py xs)
termination_by structural xs => xs

def jsonItems (py : PyText) : List (PyValue × PyValue) → Option (List String)
  | [] => some []
  | (k, v) :: items => do
    return (quoted (← keyText py k) ++ ": " ++ (← jsonText py v)) :: (← jsonItems py items)
termination_by structural items => items

end

end PyValue
