import Mathlib.Data.List.Basic

/-!
# Regular expressions with a preference

A search for a regular expression takes the first place where it matches, and at this place the match that is
preferred: the longest repetition, the first alternative, backing off where the rest does not match. The
expressions here repeat single characters only. They stand for patterns that never match the empty text: a match
has at least one character.

A scan of a text replaces every match by a mark and keeps the other characters. Two texts with one scan differ
only in the characters that are matched.
-/

/-- A regular expression. -/
inductive Regex
  | empty
  | char (p : Char → Bool)
  /-- `[...]{n,}` -/
  | atLeast (n : ℕ) (p : Char → Bool)
  /-- `[...]{n}` -/
  | exactly (n : ℕ) (p : Char → Bool)
  | seq (r s : Regex)
  | alt (r s : Regex)

namespace Regex

/-- `(...)?` -/
def optional (r : Regex) : Regex := alt r empty

/-- A sequence of characters, each compared with one of the pattern. -/
def text (eq : Char → Char → Bool) : List Char → Regex
  | [] => empty
  | c :: cs => seq (char (eq c)) (text eq cs)

/-- The first of several texts. -/
def oneOf (eq : Char → Char → Bool) : List String → Regex
  | [] => char fun _ => false
  | [s] => text eq s.toList
  | s :: rest => alt (text eq s.toList) (oneOf eq rest)

/-- What the ways to match at the start of a text leave, in the order of preference. -/
def rests : Regex → List Char → List (List Char)
  | empty, cs => [cs]
  | char _, [] => []
  | char p, c :: cs => if p c then [cs] else []
  | atLeast n p, cs =>
    let most := (cs.takeWhile p).length
    (List.range (most + 1 - n)).map fun i => cs.drop (most - i)
  | exactly n p, cs => if n ≤ (cs.takeWhile p).length then [cs.drop n] else []
  | seq r s, cs => (r.rests cs).flatMap s.rests
  | alt r s, cs => r.rests cs ++ s.rests cs

/-- What the preferred match at the start of a text leaves. -/
def matchAt (r : Regex) (cs : List Char) : Option (List Char) := (r.rests cs).head?

/-- The scan of a text, with a bound on its length. -/
def scanFrom (r : Regex) : ℕ → List Char → List (Option Char)
  | 0, _ => []
  | _, [] => []
  | fuel + 1, c :: cs =>
    match r.matchAt (c :: cs) with
    | some rest => if rest.length ≤ cs.length then none :: scanFrom r fuel rest else some c :: scanFrom r fuel cs
    | none => some c :: scanFrom r fuel cs

/-- The characters of a text that are not matched, and a mark for each match. -/
def scan (r : Regex) (cs : List Char) : List (Option Char) := r.scanFrom cs.length cs

/-- `re.sub(mark, text)` -/
def sub (r : Regex) (mark cs : List Char) : List Char :=
  (r.scan cs).flatMap fun
    | some c => [c]
    | none => mark

end Regex
