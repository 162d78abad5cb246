import Mathlib.Algebra.Order.Field.Rat
import Mathlib.Data.Rat.Lemmas
import Mathlib.Tactic.Linarith
import ZapTrace.Export.Spice

/-!
# The magnitudes on the cards

A value is a decimal number with a prefix and a unit. The exporter takes the unit away and writes the rest on the card,
where a simulator reads the letters in any case: `M` is a milli there, and a mega in the value.

## Main results

* `spiceValue_text`: what is written of a quantity
* `magnitude_eq_iff`: when the card has the magnitude of the component
-/

namespace ZapTrace.Spice

open Models List

/-! ## Decimal numbers -/

def isNumeral (c : Char) : Bool := c.isDigit || c ∈ ['.', '+', '-']

/-- The number that is written: its sign, its digits, and as many decimals as digits follow the point. -/
def decimal (cs : List Char) : ℚ :=
  let digits := cs.filter Char.isDigit
  let decimals := (cs.dropWhile (· ≠ '.')).filter Char.isDigit
  (if cs.head? = some '-' then -1 else 1) * (Nat.ofDigitChars 10 digits 0 : ℚ) / 10 ^ decimals.length

/-! ## Values -/

inductive SiPrefix
  | p | n | u | m | k | M | G

def SiPrefix.letter : SiPrefix → Char
  | p => 'p'
  | n => 'n'
  | u => 'u'
  | m => 'm'
  | k => 'k'
  | M => 'M'
  | G => 'G'

def SiPrefix.factor : SiPrefix → ℚ
  | p => 1 / 10 ^ 12
  | n => 1 / 10 ^ 9
  | u => 1 / 10 ^ 6
  | m => 1 / 10 ^ 3
  | k => 10 ^ 3
  | M => 10 ^ 6
  | G => 10 ^ 9

/-- A number with a prefix and a unit, or without them. -/
structure Quantity where
  number : List Char
  number_ne_nil : number ≠ []
  numerals : ∀ c ∈ number, isNumeral c = true
  prefix? : Option SiPrefix
  unit : List Char
  isUnit : unit = [] ∨ isUnit unit = true

namespace Quantity

variable (q : Quantity)

def scaled : List Char := q.number ++ q.prefix?.toList.map SiPrefix.letter

def text : String := String.ofList (q.scaled ++ q.unit)

def magnitude : ℚ := decimal q.number * q.prefix?.elim 1 SiPrefix.factor

end Quantity

/-! ## What a simulator reads -/

/-- The factor of a suffix, which is read in any case; letters behind it are ignored. -/
def suffixFactor (suffix : List Char) : ℚ :=
  match suffix.map Char.toLower with
  | 'm' :: 'e' :: 'g' :: _ => 10 ^ 6
  | 't' :: _ => 10 ^ 12
  | 'g' :: _ => 10 ^ 9
  | 'k' :: _ => 10 ^ 3
  | 'm' :: _ => 1 / 10 ^ 3
  | 'u' :: _ => 1 / 10 ^ 6
  | 'n' :: _ => 1 / 10 ^ 9
  | 'p' :: _ => 1 / 10 ^ 12
  | 'f' :: _ => 1 / 10 ^ 15
  | _ => 1

def readMagnitude (value : String) : ℚ :=
  decimal (value.toList.takeWhile isNumeral) * suffixFactor (value.toList.dropWhile isNumeral)

/-! ## What is written -/

/-- The letters that units begin with. -/
def unitHeads : List Char := ['Ω', 'ω', 'Ω', 'f', 'F', 'h', 'H', 'o', 'O']

theorem mem_unitHeads {c : Char} {rest : List Char} (h : isUnit (c :: rest) = true) : c ∈ unitHeads := by
  match rest with
  | [] => simpa [isUnit, unitHeads, or_assoc] using Or.inl h
  | [b, d] =>
    simp only [isUnit, Bool.and_eq_true] at h
    exact mem_append_right ['Ω', 'ω', 'Ω', 'f', 'F', 'h', 'H'] (of_decide_eq_true h.1.1)
  | [b, d, e] =>
    simp only [isUnit, Bool.and_eq_true] at h
    exact mem_append_right ['Ω', 'ω', 'Ω', 'f', 'F', 'h', 'H'] (of_decide_eq_true h.1.1.1)

theorem dropUnit_append {cs unit : List Char} (hcs : ∀ c ∈ cs, c ∉ unitHeads) (hunit : unit = [] ∨ isUnit unit = true) :
    dropUnit (cs ++ unit) = cs := by
  induction cs with
  | nil =>
    cases unit with
    | nil => rfl
    | cons c rest => rw [nil_append, dropUnit, if_pos (hunit.resolve_left (cons_ne_nil c rest))]
  | cons c cs ih =>
    have hhead : ¬isUnit (c :: (cs ++ unit)) = true := fun h => hcs c mem_cons_self (mem_unitHeads h)
    rw [cons_append, dropUnit, if_neg hhead, ih fun c' hc' => hcs c' (mem_cons_of_mem c hc')]

theorem not_isSpace_of_isNumeral {c : Char} (h : isNumeral c = true) : pyIsSpace c = false := by
  have hspaces : ∀ n ∈ pyWhitespace, ¬(48 ≤ n ∧ n ≤ 57) ∧ n ≠ 43 ∧ n ≠ 45 ∧ n ≠ 46 := by decide
  by_contra hspace
  rw [Bool.not_eq_false, pyIsSpace, contains_iff_mem] at hspace
  obtain ⟨hdigit, hplus, hminus, hpoint⟩ := hspaces c.toNat hspace
  simp only [isNumeral, Bool.or_eq_true, decide_eq_true_eq, mem_cons, not_mem_nil, or_false] at h
  rcases h with h | rfl | rfl | rfl
  · exact hdigit (by simpa [Char.isDigit, UInt32.le_iff_toNat_le] using h)
  · exact hpoint rfl
  · exact hplus rfl
  · exact hminus rfl

theorem not_mem_of_mem_scaled {q : Quantity} {c : Char} (hc : c ∈ q.scaled) : c ∉ unitHeads ∧ pyIsSpace c = false := by
  have hnumerals : ∀ c ∈ unitHeads, isNumeral c = false := by simp [unitHeads, isNumeral, Char.isDigit]
  rcases mem_append.mp hc with hc | hc
  · have hnumeral := q.numerals c hc
    exact ⟨fun h => Bool.false_ne_true ((hnumerals c h).symm.trans hnumeral), not_isSpace_of_isNumeral hnumeral⟩
  · obtain ⟨p, -, rfl⟩ := mem_map.mp hc
    cases p <;> decide

/-- **The exporter** writes the number and the prefix. -/
theorem spiceValue_text {q : Quantity} {raw : String} (hraw : pyStrip raw = q.text) :
    (spiceValue (some raw)).toList = q.scaled := by
  have hdrop : ∀ cs : List Char, (∀ c ∈ cs, pyIsSpace c = false) → cs.dropWhile pyIsSpace = cs := by
    intro cs hcs
    cases cs with
    | nil => rfl
    | cons c cs => rw [dropWhile_cons, hcs c mem_cons_self, if_neg Bool.false_ne_true]
  have hspace : ∀ c ∈ q.scaled, pyIsSpace c = false := fun c hc => (not_mem_of_mem_scaled hc).2
  rw [spiceValue, hraw, Quantity.text, String.toList_ofList,
    dropUnit_append (fun c hc => (not_mem_of_mem_scaled hc).1) q.isUnit, pyStrip, String.toList_ofList, String.toList_ofList,
    hdrop _ hspace, hdrop _ fun c hc => hspace c (mem_reverse.mp hc), reverse_reverse]

theorem readMagnitude_scaled (q : Quantity) {value : String} (hvalue : value.toList = q.scaled) :
    readMagnitude value = decimal q.number * suffixFactor (q.prefix?.toList.map SiPrefix.letter) := by
  have hrest : (q.prefix?.toList.map SiPrefix.letter).takeWhile isNumeral = [] ∧
      (q.prefix?.toList.map SiPrefix.letter).dropWhile isNumeral = q.prefix?.toList.map SiPrefix.letter := by
    rcases q.prefix? with - | p
    · exact ⟨rfl, rfl⟩
    · cases p <;> decide
  rw [readMagnitude, hvalue, Quantity.scaled, takeWhile_append_of_pos q.numerals,
    dropWhile_append_of_pos q.numerals, hrest.1, hrest.2, append_nil]

theorem readMagnitude_eq_iff (q : Quantity) {value : String} (hvalue : value.toList = q.scaled) :
    readMagnitude value = q.magnitude ↔ (q.prefix? = some .M → decimal q.number = 0) := by
  rw [readMagnitude_scaled q hvalue, Quantity.magnitude]
  rcases q.prefix? with - | p
  · exact iff_of_true rfl nofun
  · cases p <;> try exact iff_of_true rfl nofun
    -- a milli on the card, and a mega in the value
    show decimal q.number * (1 / 10 ^ 3) = decimal q.number * 10 ^ 6 ↔ _
    constructor
    · intro h _
      linarith
    · intro h
      rw [h rfl, zero_mul, zero_mul]

def resistorOf (value : String) : Models.Component :=
  { id := "r1", ref := "R1", type := "resistor", value := some value,
    pins := .ofItems [("1", ⟨"1", .passive, none⟩), ("2", ⟨"2", .passive, none⟩)] }

def designOf (value : String) : Design where
  components := .ofItems [("r1", resistorOf value)]

def tenOhms (p : SiPrefix) : Quantity where
  number := ['1', '0']
  number_ne_nil := cons_ne_nil _ _
  numerals := by simp [isNumeral, Char.isDigit]
  prefix? := some p
  unit := ['Ω']
  isUnit := .inr rfl

def cardOf (value written : String) : Card :=
  ⟨"R1", terminal (designOf value) (buildNodeMap (designOf value)) (resistorOf value) "1",
    terminal (designOf value) (buildNodeMap (designOf value)) (resistorOf value) "2", written⟩

end ZapTrace.Spice
