import ZapTrace.Io.SexpRoundTrip

/-!
# Where a text is refused

The tokens and the errors of the tokenizer have the locations of characters of the text, and the errors
of the parser those of tokens. A token is a parenthesis by its value, so that an error of the parser can
be at the quote of a quoted parenthesis.

## Main results

* `points_tokenizeFrom`: where tokens and errors of the tokenizer are
* `parse_error`: each error of the codec is at a character that it is about
-/

namespace ZapTrace

open Except List

/-- The character at a location of a text that starts at `loc`. -/
def CharAt (s : Text) (loc found : Location) (c : Char) : Prop :=
  ∃ before after, s = before ++ c :: after ∧ before.foldl Location.advance loc = found

/-- The messages, each with the characters that it can be about. -/
def parseErrors : List (String × Char) :=
  [("Unterminated quoted string", '"'), ("Unexpected backslash outside quoted string", '\\'),
    ("Unexpected ')'", ')'), ("Unexpected ')'", '"'), ("Unclosed '(' — missing ')'", '('),
    ("Unclosed '(' — missing ')'", '"')]

/-! ## The tokenizer -/

/-- Each token is at its first character or at its quote, and an error is at a character it is about. -/
def Points (s : Text) (loc : Location) : Except SexpParseError (List Token) → Prop
  | .error e => ∃ c, CharAt s loc ⟨e.line, e.col⟩ c ∧ (e.message, c) ∈ parseErrors
  | .ok tokens => ∀ t ∈ tokens, ∃ c, CharAt s loc ⟨t.line, t.col⟩ c ∧ (c = '"' ∨ t.value.head? = some c)

variable {s : Text} {loc : Location} {r : Except SexpParseError (List Token)} {e : SexpParseError}
  {tokens tokens' : List Token} {n : ℕ}

theorem Points.of_readUpTo {cursor : TokenizerCursor} (hread : ReadUpTo s loc cursor)
    (h : Points cursor.rest cursor.loc r) : Points s loc r := by
  have hchar : ∀ {found c}, CharAt cursor.rest cursor.loc found c → CharAt s loc found c := by
    rintro found c ⟨before, after, hrest, hfound⟩
    obtain ⟨passed, rfl, hloc⟩ := hread
    exact ⟨passed ++ before, after, by rw [hrest, append_assoc], by rw [foldl_append, hloc, hfound]⟩
  cases r with
  | error e =>
    obtain ⟨c, hc, hmessage⟩ := h
    exact ⟨c, hchar hc, hmessage⟩
  | ok tokens =>
    intro t ht
    obtain ⟨c, hc, hvalue⟩ := h t ht
    exact ⟨c, hchar hc, hvalue⟩

theorem Points.cons {t : Token} {c : Char} (h : Points s loc r) (hchar : CharAt s loc ⟨t.line, t.col⟩ c)
    (hvalue : c = '"' ∨ t.value.head? = some c) : Points s loc (r.map fun ts => t :: ts) := by
  cases r with
  | error e => exact h
  | ok tokens => exact forall_mem_cons.mpr ⟨⟨c, hchar, hvalue⟩, h⟩

/-- **The tokenizer** gives tokens, or an error, at characters of the text. -/
theorem points_tokenizeFrom (n : ℕ) (s : Text) (loc : Location) : Points s loc (tokenizeFrom n s loc) := by
  induction n generalizing s loc with
  | zero => exact fun t ht => absurd ht not_mem_nil
  | succ n ih =>
    cases s with
    | nil => exact fun t ht => absurd ht not_mem_nil
    | cons c rest =>
      have hhere : CharAt (c :: rest) loc ⟨loc.line, loc.col⟩ c := ⟨[], rest, rfl, rfl⟩
      have hnext := (ReadUpTo.refl rest (loc.advance c)).cons
      rw [tokenizeFrom, tokenRound]
      split
      · exact (ih _ _).of_readUpTo hnext
      · rename_i hwhite
        split
        · exact (ih _ _).of_readUpTo (readUpTo_skipComment _ _)
        · rename_i hsemi
          split
          · exact ((ih _ _).of_readUpTo hnext).cons hhere (Or.inr rfl)
          · rename_i hparen
            split
            · rename_i hquote
              subst hquote
              split
              · exact ⟨_, hhere, by simp [parseErrors]⟩
              · rename_i chars cursor hquoted
                exact ((ih _ _).of_readUpTo (readUpTo_quotedChars hquoted).cons).cons hhere (Or.inl rfl)
            · rename_i hquote
              split
              · rename_i hslash
                subst hslash
                exact ⟨_, hhere, by simp [parseErrors]⟩
              · rename_i hslash
                have hbare := isBareChar_of_not hwhite hsemi hparen hquote hslash
                refine ((ih _ _).of_readUpTo (readUpTo_bareChars _ _)).cons hhere (Or.inr ?_)
                rw [bareChars, if_pos hbare]
                rfl

/-! ## The parser -/

/-- The error is at a parenthesis among the tokens. -/
def NamesParen (tokens : List Token) (e : SexpParseError) : Prop :=
  ∃ t ∈ tokens, e.line = t.line ∧ e.col = t.col ∧
    (t.value = [')'] ∧ e.message = "Unexpected ')'" ∨
      t.value = ['('] ∧ e.message = "Unclosed '(' — missing ')'")

theorem NamesParen.mono (h : NamesParen tokens e) (hsub : tokens ⊆ tokens') : NamesParen tokens' e := by
  obtain ⟨t, ht, hat⟩ := h
  exact ⟨t, hsub ht, hat⟩

/-- The parser has rounds enough to find the parenthesis that is wrong. -/
theorem namesParen_of_parse (n : ℕ) :
    (∀ tokens e, tokens ≠ [] → parseRounds tokens ≤ n → parseTokens n tokens = error e →
      NamesParen tokens e) ∧
    ∀ tok tokens items e, tok.value = ['('] → parseRounds tokens + 1 ≤ n →
      parseItems n tok tokens items = error e → NamesParen (tok :: tokens) e := by
  induction n with
  | zero =>
    refine ⟨fun tokens e hne hn => ?_, fun tok tokens items e _ hn => absurd hn (Nat.not_succ_le_zero _)⟩
    have := length_pos_iff.mpr hne
    rw [parseRounds] at hn
    omega
  | succ n ih =>
    obtain ⟨ihNode, ihItems⟩ := ih
    constructor
    · intro tokens e hne hn h
      cases tokens with
      | nil => exact absurd rfl hne
      | cons tok tokens =>
        simp only [parseRounds, length_cons] at hn
        rw [parseTokens] at h
        split at h
        · rename_i hclose
          cases h
          exact ⟨tok, mem_cons_self, rfl, rfl, Or.inl ⟨hclose, rfl⟩⟩
        · split at h
          · rename_i hopen
            exact ihItems _ _ _ _ hopen (by rw [parseRounds]; omega) h
          · cases h
    · intro tok tokens items e hopen hn h
      cases tokens with
      | nil =>
        cases h
        exact ⟨tok, mem_cons_self, rfl, rfl, Or.inr ⟨hopen, rfl⟩⟩
      | cons next tokens =>
        simp only [parseRounds, length_cons] at hn
        rw [parseItems] at h
        split at h
        · cases h
        · cases hchild : parseTokens n (next :: tokens) with
          | error e' =>
            rw [hchild] at h
            cases h
            exact (ihNode _ _ (cons_ne_nil _ _) (by simp only [parseRounds, length_cons]; omega) hchild).mono
              (subset_cons_self _ _)
          | ok child =>
            obtain ⟨child, rest⟩ := child
            rw [hchild] at h
            obtain ⟨taken, htaken, -⟩ := (spells_of_parse _).1 _ _ _ hchild
            have hshort := length_lt_of_parse hchild
            rw [length_cons] at hshort
            rw [htaken]
            exact (ihItems _ _ _ _ hopen (by rw [parseRounds]; omega) h).mono
              (cons_subset_cons _ (subset_append_right _ _))

theorem namesParen_of_parseRoots (h : parseRoots n tokens = error e) : NamesParen tokens e := by
  induction n generalizing tokens with
  | zero => cases h
  | succ n ih =>
    cases tokens with
    | nil => cases h
    | cons tok tokens =>
      rw [parseRoots] at h
      cases hnode : parseTokens (parseRounds (tok :: tokens)) (tok :: tokens) with
      | error e' =>
        rw [hnode] at h
        cases h
        exact (namesParen_of_parse _).1 _ _ (cons_ne_nil _ _) le_rfl hnode
      | ok r =>
        obtain ⟨node, rest⟩ := r
        rw [hnode] at h
        dsimp only at h
        obtain ⟨taken, htaken, -⟩ := (spells_of_parse _).1 _ _ _ hnode
        cases hroots : parseRoots n rest with
        | error e' =>
          rw [hroots] at h
          cases h
          rw [htaken]
          exact (ih hroots).mono (subset_append_right _ _)
        | ok roots =>
          rw [hroots] at h
          cases h

/-- **Each error of the codec** has the line and the column of a character of the text that it is about. -/
theorem parse_error (h : parse s = error e) :
    ∃ c, CharAt s ⟨1, 1⟩ ⟨e.line, e.col⟩ c ∧ (e.message, c) ∈ parseErrors := by
  have hpoints := points_tokenizeFrom s.length s ⟨1, 1⟩
  unfold parse at h
  cases htokens : tokenize s with
  | error e' =>
    rw [htokens] at h
    cases h
    rwa [show tokenizeFrom s.length s ⟨1, 1⟩ = error e from htokens] at hpoints
  | ok tokens =>
    rw [htokens] at h
    rw [show tokenizeFrom s.length s ⟨1, 1⟩ = ok tokens from htokens] at hpoints
    dsimp only at h
    cases hroots : parseRoots tokens.length tokens with
    | ok roots =>
      rw [hroots] at h
      cases h
    | error e' =>
      rw [hroots] at h
      cases h
      obtain ⟨t, ht, hline, hcol, hparen⟩ := namesParen_of_parseRoots hroots
      obtain ⟨c, hchar, hvalue⟩ := hpoints t ht
      refine ⟨c, by rwa [hline, hcol], ?_⟩
      rcases hparen with ⟨hclose, hmessage⟩ | ⟨hopen, hmessage⟩
      · rw [hmessage]
        rcases hvalue with rfl | hvalue
        · decide
        · rw [hclose] at hvalue
          cases hvalue
          decide
      · rw [hmessage]
        rcases hvalue with rfl | hvalue
        · decide
        · rw [hopen] at hvalue
          cases hvalue
          decide

theorem parse_error_unclosed :
    ∃ c, CharAt ['('] ⟨1, 1⟩ ⟨1, 1⟩ c ∧ ("Unclosed '(' — missing ')'", c) ∈ parseErrors :=
  parse_error (s := ['(']) (e := ⟨"Unclosed '(' — missing ')'", 1, 1⟩) rfl

end ZapTrace
