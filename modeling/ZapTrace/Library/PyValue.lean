import Mathlib.Data.Rat.Defs

/-!
# Python values

The values a Python program stores in its dictionaries and sends as JSON. Floats are exact
rationals. A dictionary lists its items in insertion order.
-/

inductive PyValue
  | none
  | bool (b : Bool)
  | int (i : Int)
  | float (q : Rat)
  | str (s : String)
  | list (xs : List PyValue)
  | tuple (xs : List PyValue)
  | set (xs : List PyValue)
  | dict (items : List (PyValue × PyValue))
  | object (cls : String) (fields : List (String × PyValue))

namespace PyValue

instance : Inhabited PyValue := ⟨none⟩

/-- Python's truth value: zero, the empty string and empty collections are false. -/
def truthy : PyValue → Bool
  | none => false
  | bool b => b
  | int i => i != 0
  | float q => q != 0
  | str s => s != ""
  | list xs => !xs.isEmpty
  | tuple xs => !xs.isEmpty
  | set xs => !xs.isEmpty
  | dict items => !items.isEmpty
  | object _ _ => true

def lookup (key : String) : List (PyValue × PyValue) → Option PyValue
  | [] => Option.none
  | (str k, v) :: items => if k = key then some v else lookup key items
  | _ :: items => lookup key items

/-- `value.get(key)` where `value` is a dictionary, and nothing otherwise. -/
def getItem (key : String) : PyValue → Option PyValue
  | dict items => lookup key items
  | _ => Option.none

/-- What a loop over a value visits: the elements of a list, a tuple or a set, the keys of a dictionary, the
characters of a text. -/
def elements : PyValue → Option (List PyValue)
  | list xs => some xs
  | tuple xs => some xs
  | set xs => some xs
  | dict items => some (items.map Prod.fst)
  | str s => some (s.toList.map fun c => str (String.singleton c))
  | _ => Option.none

def items? : PyValue → Option (List (PyValue × PyValue))
  | dict items => some items
  | _ => Option.none

/-- The elements of a list or a tuple. -/
def sequence? : PyValue → Option (List PyValue)
  | list xs => some xs
  | tuple xs => some xs
  | _ => Option.none

/-! ## Equality -/

def number? : PyValue → Option Rat
  | bool b => some (if b then 1 else 0)
  | int i => some i
  | float q => some q
  | _ => Option.none

mutual

/-- Python's `==`: numbers are compared by value, dictionaries and sets without an order. -/
def eqv : PyValue → PyValue → Bool
  | none, none => true
  | str s, str t => s = t
  | list xs, list ys => eqvList xs ys
  | tuple xs, tuple ys => eqvList xs ys
  | set xs, set ys => xs.length = ys.length && eqvMembers xs ys
  | dict xs, dict ys => xs.length = ys.length && eqvItems xs ys
  | object c xs, object d ys => c = d && eqvFields xs ys
  | v, w => v.number?.isSome && v.number? = w.number?
termination_by structural v => v

/-- Item by item. -/
def eqvList : List PyValue → List PyValue → Bool
  | [], [] => true
  | x :: xs, y :: ys => eqv x y && eqvList xs ys
  | _, _ => false
termination_by structural xs => xs

/-- Every item is among the others. -/
def eqvMembers : List PyValue → List PyValue → Bool
  | [], _ => true
  | x :: xs, ys => ys.any (fun y => eqv x y) && eqvMembers xs ys
termination_by structural xs => xs

/-- Every item of a dictionary is among the others. -/
def eqvItems : List (PyValue × PyValue) → List (PyValue × PyValue) → Bool
  | [], _ => true
  | (k, v) :: xs, ys => ys.any (fun y => eqv k y.1 && eqv v y.2) && eqvItems xs ys
termination_by structural xs => xs

def eqvFields : List (String × PyValue) → List (String × PyValue) → Bool
  | [], [] => true
  | (n, v) :: xs, (m, w) :: ys => n = m && eqv v w && eqvFields xs ys
  | _, _ => false
termination_by structural xs => xs

end

end PyValue

/-- Python's text conversions. -/
structure PyText where
  /-- `str(value)` -/
  str : PyValue → String
  /-- `repr(value)` -/
  repr : PyValue → String

/-- The exceptions that the modelled code raises and catches. -/
inductive PyError
  | osError
  | valueError
  | typeError
  | keyError
  | runtimeError
deriving DecidableEq

/-- The characters `str.strip` removes. -/
def pyWhitespace : List Nat :=
  [0x09, 0x0a, 0x0b, 0x0c, 0x0d, 0x1c, 0x1d, 0x1e, 0x1f, 0x20, 0x85, 0xa0, 0x1680, 0x2000, 0x2001,
    0x2002, 0x2003, 0x2004, 0x2005, 0x2006, 0x2007, 0x2008, 0x2009, 0x200a, 0x2028, 0x2029, 0x202f,
    0x205f, 0x3000]

/-- `str.isspace` on one character. -/
def pyIsSpace (c : Char) : Bool := pyWhitespace.contains c.toNat

/-- `str.strip` -/
def pyStrip (s : String) : String :=
  String.ofList ((s.toList.dropWhile pyIsSpace).reverse.dropWhile pyIsSpace).reverse
