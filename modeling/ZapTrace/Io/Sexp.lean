import Mathlib.Algebra.Order.Group.Nat
import Mathlib.Data.Int.Order.Basic
import Mathlib.Data.List.Basic
import Mathlib.Tactic.Tauto

/-!
# S-expressions

The codec of S-expressions: a tokenizer with locations, a parser and a writer. A text is the list of
its characters. A node is an atom or a list of nodes.

The tokenizer takes characters until a bare word ends; words end at white space, parentheses, quotes,
backslashes and at a semicolon, which starts a comment that goes on to the end of the line. The writer
quotes an atom when a character of its own list is in it, and the semicolon is not on that list. The
parser goes by the text of a token alone, so it does not tell a quoted parenthesis from a bare one.

The loops of the source end because each round takes a character or a token; here they have a number
of rounds as an argument, and `tokenizeFrom_eq` says that more rounds change nothing.

## Main results

* `tokensFrom_cons`: one round of the tokenizer
-/

namespace ZapTrace

open Except List Nat

abbrev Text := List Char

/-- A node: an atom or a list of nodes. -/
inductive SexpNode
  | atom (value : Text)
  | list (items : List SexpNode)

@[elab_as_elim, induction_eliminator]
theorem SexpNode.induct {P : SexpNode → Prop} (atom : ∀ value, P (SexpNode.atom value))
    (list : ∀ items, (∀ i ∈ items, P i) → P (SexpNode.list items)) : ∀ node, P node
  | .atom value => atom value
  | .list items => list items fun i _ => SexpNode.induct atom list i

structure Token where
  value : Text
  line : ℕ
  col : ℕ
  is_quoted : Bool

structure SexpParseError where
  message : String
  line : ℕ
  col : ℕ

/-! ## Tokenizer -/

/-- The line and the column of the cursor. -/
structure Location where
  line : ℕ
  col : ℕ

/-- The location after a character. -/
def Location.advance (loc : Location) (c : Char) : Location :=
  if c = '\n' then ⟨loc.line + 1, 1⟩ else ⟨loc.line, loc.col + 1⟩

/-- What is left of the source, and where that starts. -/
structure TokenizerCursor where
  rest : Text
  loc : Location

/-- A comment goes on to the end of the line. -/
def skipComment : Text → Location → TokenizerCursor
  | [], loc => ⟨[], loc⟩
  | c :: rest, loc => if c = '\n' then ⟨c :: rest, loc⟩ else skipComment rest (loc.advance c)

def decodeEscape (ch : Char) : Char :=
  if ch = 'n' then '\n'
  else if ch = 't' then '\t'
  else if ch = 'r' then '\r'
  else if ch = '0' then '\x00'
  else ch

/-- The characters up to the closing quote, when there is one. -/
def quotedChars : Text → Location → Option (Text × TokenizerCursor)
  | [], _ => none
  | [c], loc => if c = '"' then some ([], ⟨[], loc.advance c⟩) else none
  | c :: d :: rest, loc =>
    if c = '\\' then
      (quotedChars rest ((loc.advance c).advance d)).map fun r => (decodeEscape d :: r.1, r.2)
    else if c = '"' then some ([], ⟨d :: rest, loc.advance c⟩)
    else (quotedChars (d :: rest) (loc.advance c)).map fun r => (c :: r.1, r.2)

def isWhite (c : Char) : Bool := c ∈ [' ', '\t', '\r', '\n']

/-- The characters of a bare word. -/
def isBareChar (c : Char) : Bool := c ∉ [' ', '\t', '\r', '\n', '(', ')', '"', ';', '\\']

def bareChars : Text → Location → Text × TokenizerCursor
  | [], loc => ([], ⟨[], loc⟩)
  | c :: rest, loc =>
    if isBareChar c then (c :: (bareChars rest (loc.advance c)).1, (bareChars rest (loc.advance c)).2)
    else ([], ⟨c :: rest, loc⟩)

/-- One round of the tokenizer, which leaves the rest of the text to `next`. -/
def tokenRound (next : Text → Location → Except SexpParseError (List Token)) (c : Char) (rest : Text)
    (loc : Location) : Except SexpParseError (List Token) :=
  if isWhite c then next rest (loc.advance c)
  else if c = ';' then next (skipComment (c :: rest) loc).rest (skipComment (c :: rest) loc).loc
  else if c = '(' ∨ c = ')' then
    (next rest (loc.advance c)).map fun ts => ⟨[c], loc.line, loc.col, false⟩ :: ts
  else if c = '"' then
    match quotedChars rest (loc.advance c) with
    | none => error ⟨"Unterminated quoted string", loc.line, loc.col⟩
    | some (chars, cursor) =>
      (next cursor.rest cursor.loc).map fun ts => ⟨chars, loc.line, loc.col, true⟩ :: ts
  else if c = '\\' then
    error ⟨"Unexpected backslash outside quoted string", loc.line, loc.col⟩
  else
    (next (bareChars (c :: rest) loc).2.rest (bareChars (c :: rest) loc).2.loc).map fun ts =>
      ⟨(bareChars (c :: rest) loc).1, loc.line, loc.col, false⟩ :: ts

/-- The loop of the tokenizer, for a number of rounds. -/
def tokenizeFrom : ℕ → Text → Location → Except SexpParseError (List Token)
  | 0, _, _ => ok []
  | _ + 1, [], _ => ok []
  | rounds + 1, c :: rest, loc => tokenRound (tokenizeFrom rounds) c rest loc

/-- The tokens of a text that starts at a location. Each round takes a character at least. -/
def tokensFrom (s : Text) (loc : Location) : Except SexpParseError (List Token) :=
  tokenizeFrom s.length s loc

def tokenize (s : Text) : Except SexpParseError (List Token) := tokensFrom s ⟨1, 1⟩

/-! ## Parser -/

mutual

/-- One node from the front of the tokens, for a number of rounds. -/
def parseTokens : ℕ → List Token → Except SexpParseError (SexpNode × List Token)
  | 0, _ => error ⟨"Unexpected end of input", 0, 0⟩
  | _ + 1, [] => error ⟨"Unexpected end of input", 0, 0⟩
  | rounds + 1, tok :: rest =>
    if tok.value = [')'] then error ⟨"Unexpected ')'", tok.line, tok.col⟩
    else if tok.value = ['('] then parseItems rounds tok rest []
    else ok (SexpNode.atom tok.value, rest)

/-- The items of a list that `tok` opens, after those that were found. -/
def parseItems : ℕ → Token → List Token → List SexpNode →
    Except SexpParseError (SexpNode × List Token)
  | 0, _, _, _ => error ⟨"Unexpected end of input", 0, 0⟩
  | _ + 1, tok, [], _ => error ⟨"Unclosed '(' — missing ')'", tok.line, tok.col⟩
  | rounds + 1, tok, next :: rest, items =>
    if next.value = [')'] then ok (SexpNode.list items, rest)
    else
      match parseTokens rounds (next :: rest) with
      | .error e => error e
      | .ok (child, rest') => parseItems rounds tok rest' (items ++ [child])

end

/-- The rounds a text of tokens needs: one for a node, and one for each item. -/
def parseRounds (tokens : List Token) : ℕ := 2 * tokens.length

/-- The nodes of a text. -/
def parseRoots : ℕ → List Token → Except SexpParseError (List SexpNode)
  | 0, _ => ok []
  | _ + 1, [] => ok []
  | rounds + 1, tok :: rest =>
    match parseTokens (parseRounds (tok :: rest)) (tok :: rest) with
    | .error e => error e
    | .ok (node, rest') => (parseRoots rounds rest').map fun roots => node :: roots

def parse (s : Text) : Except SexpParseError SexpNode :=
  match tokenize s with
  | .error e => error e
  | .ok tokens =>
    (parseRoots tokens.length tokens).map fun roots =>
      match roots with
      | [] => SexpNode.list []
      | [root] => root
      | roots => SexpNode.list roots

/-! ## Writer -/

def needsQuote (c : Char) : Bool := c ∈ [' ', '\t', '\n', '\r', '"', '\\', '(', ')']

/-- The characters that are escaped in a quoted atom. -/
def escapeChar (c : Char) : Text :=
  if c = '"' then ['\\', '"']
  else if c = '\\' then ['\\', '\\']
  else if c = '\n' then ['\\', 'n']
  else if c = '\t' then ['\\', 't']
  else [c]

def writeAtom (atom : Text) : Text :=
  if atom = [] then ['"', '"']
  else if atom.any needsQuote then ['"'] ++ atom.flatMap escapeChar ++ ['"']
  else atom

def atomsOnly : List SexpNode → Option (List Text)
  | [] => some []
  | .atom value :: items => (atomsOnly items).map fun atoms => value :: atoms
  | .list _ :: _ => none

/-- `"  " * indent` -/
def padding (indent : ℤ) : Text := replicate (2 * indent.toNat) ' '

mutual

def write (max_inline_items : ℤ) : SexpNode → ℤ → Text
  | .atom value, _ => writeAtom value
  | .list items, indent =>
    if items.isEmpty then ['(', ')']
    else
      match atomsOnly items with
      | some atoms =>
        if (items.length : ℤ) ≤ max_inline_items then
          ['('] ++ [' '].intercalate (atoms.map writeAtom) ++ [')']
        else
          ['(', '\n'] ++ ['\n'].intercalate (writeLines max_inline_items items indent) ++ ['\n'] ++
            padding indent ++ [')']
      | none =>
        ['(', '\n'] ++ ['\n'].intercalate (writeLines max_inline_items items indent) ++ ['\n'] ++
          padding indent ++ [')']

def writeLines (max_inline_items : ℤ) : List SexpNode → ℤ → List Text
  | [], _ => []
  | child :: items, indent =>
    (padding (indent + 1) ++ write max_inline_items child (indent + 1)) ::
      writeLines max_inline_items items indent

end

mutual

/-- The atoms of a node, in order. -/
def SexpNode.atoms : SexpNode → List Text
  | .atom value => [value]
  | .list items => itemAtoms items

def itemAtoms : List SexpNode → List Text
  | [] => []
  | item :: items => item.atoms ++ itemAtoms items

end

theorem itemAtoms_eq (items : List SexpNode) : itemAtoms items = items.flatMap SexpNode.atoms := by
  induction items with
  | nil => rfl
  | cons item items ih => rw [itemAtoms, ih, flatMap_cons]

/-! ## Rounds -/

/-- The characters before the cursor were passed one by one. -/
def ReadUpTo (s : Text) (loc : Location) (cursor : TokenizerCursor) : Prop :=
  ∃ before, s = before ++ cursor.rest ∧ before.foldl Location.advance loc = cursor.loc

theorem ReadUpTo.refl (s : Text) (loc : Location) : ReadUpTo s loc ⟨s, loc⟩ := ⟨[], rfl, rfl⟩

theorem ReadUpTo.cons {rest : Text} {loc : Location} {cursor : TokenizerCursor} {c : Char}
    (h : ReadUpTo rest (loc.advance c) cursor) : ReadUpTo (c :: rest) loc cursor := by
  obtain ⟨before, rfl, hloc⟩ := h
  exact ⟨c :: before, rfl, hloc⟩

theorem ReadUpTo.length_le {s : Text} {loc : Location} {cursor : TokenizerCursor} (h : ReadUpTo s loc cursor) :
    cursor.rest.length ≤ s.length := by
  obtain ⟨before, rfl, -⟩ := h
  simp

theorem readUpTo_skipComment (s : Text) (loc : Location) : ReadUpTo s loc (skipComment s loc) := by
  induction s generalizing loc with
  | nil => exact .refl [] loc
  | cons c rest ih =>
    unfold skipComment
    split
    · exact .refl _ loc
    · exact (ih _).cons

theorem readUpTo_quotedChars {s chars : Text} {loc : Location} {cursor : TokenizerCursor}
    (h : quotedChars s loc = some (chars, cursor)) : ReadUpTo s loc cursor := by
  fun_induction quotedChars s loc generalizing chars cursor with
  | case1 => cases h
  | case2 loc =>
    cases h
    exact (ReadUpTo.refl [] _).cons
  | case3 => cases h
  | case4 loc d rest ih =>
    obtain ⟨⟨chars', cursor'⟩, hr, heq⟩ := Option.map_eq_some_iff.mp h
    cases heq
    exact (ih hr).cons.cons
  | case5 loc d rest hc =>
    cases h
    exact (ReadUpTo.refl _ _).cons
  | case6 loc c d rest hc hq ih =>
    obtain ⟨⟨chars', cursor'⟩, hr, heq⟩ := Option.map_eq_some_iff.mp h
    cases heq
    exact (ih hr).cons

theorem readUpTo_bareChars (s : Text) (loc : Location) : ReadUpTo s loc (bareChars s loc).2 := by
  induction s generalizing loc with
  | nil => exact .refl [] loc
  | cons c rest ih =>
    unfold bareChars
    split
    · exact (ih _).cons
    · exact .refl _ loc

theorem isBareChar_of_not {c : Char} (hwhite : ¬isWhite c) (hsemi : c ≠ ';') (hparen : ¬(c = '(' ∨ c = ')'))
    (hquote : c ≠ '"') (hslash : c ≠ '\\') : isBareChar c := by
  simp only [isWhite, mem_cons, not_mem_nil, or_false, decide_eq_true_eq] at hwhite
  simp only [isBareChar, mem_cons, not_mem_nil, or_false, decide_eq_true_eq]
  tauto

theorem tokenRound_congr {f g : Text → Location → Except SexpParseError (List Token)} {c : Char}
    {rest : Text} {loc : Location} (h : ∀ s l, s.length ≤ rest.length → f s l = g s l) :
    tokenRound f c rest loc = tokenRound g c rest loc := by
  unfold tokenRound
  split
  · exact h _ _ le_rfl
  · rename_i hwhite
    split
    · rename_i hsemi
      refine h _ _ ?_
      rw [skipComment, if_neg (by rw [hsemi]; decide)]
      exact (readUpTo_skipComment rest _).length_le
    · split
      · rw [h _ _ le_rfl]
      · rename_i hsemi hparen
        split
        · cases hq : quotedChars rest (loc.advance c) with
          | none => rfl
          | some r => simp only [h _ _ (readUpTo_quotedChars hq).length_le]
        · rename_i hquote
          split
          · rfl
          · rename_i hslash
            have hbare := isBareChar_of_not hwhite hsemi hparen hquote hslash
            rw [h _ _ (by rw [bareChars, if_pos hbare]; exact (readUpTo_bareChars rest _).length_le)]

theorem tokenizeFrom_eq {m n : ℕ} {s : Text} {loc : Location} (hm : s.length ≤ m)
    (hn : s.length ≤ n) : tokenizeFrom m s loc = tokenizeFrom n s loc := by
  induction m generalizing n s loc with
  | zero =>
    obtain rfl := length_eq_zero_iff.mp (le_zero.mp hm)
    cases n <;> rfl
  | succ m ih =>
    cases s with
    | nil => cases n <;> rfl
    | cons c rest =>
      obtain ⟨n, rfl⟩ : ∃ k, n = k + 1 := exists_eq_succ_of_ne_zero (by rintro rfl; cases hn)
      refine tokenRound_congr fun s l hs => ih ?_ ?_
      · exact hs.trans (le_of_succ_le_succ hm)
      · exact hs.trans (le_of_succ_le_succ hn)

@[simp] theorem tokensFrom_nil (loc : Location) : tokensFrom [] loc = ok [] := rfl

theorem tokensFrom_cons (c : Char) (rest : Text) (loc : Location) :
    tokensFrom (c :: rest) loc = tokenRound tokensFrom c rest loc :=
  tokenRound_congr fun _ _ hs => tokenizeFrom_eq hs le_rfl

end ZapTrace
