import ZapTrace.Io.Sexp

/-!
# Writing and parsing S-expressions

What the writer writes for an atom is read back as one token with the atom for its value, unless the
atom has a semicolon and nothing that makes the writer quote it: then the rest of the line is taken for
a comment. A token whose value is a parenthesis is taken for the parenthesis, also when it was quoted.
So a node is read back exactly when none of its atoms is a parenthesis, and each atom with a semicolon
is quoted for another of its characters (`parse_write_iff`).

## Main results

* `reads_write`: a node of safe atoms is read as its tokens
* `tame_write`: no token of a text that is written has a bare semicolon
* `parse_write_iff`: when a node is read back
-/

namespace ZapTrace

open SexpNode List Except

/-! ## Texts that are read as tokens -/

/-- The text ends a bare word: nothing is left, or a character that is not one of a bare word. -/
def Delimited (rest : Text) : Prop := ∀ c ∈ rest.head?, isBareChar c = false

/-- Before `rest` the text is read as tokens with these values. -/
def Reads (text rest : Text) (values : List Text) : Prop :=
  ∀ loc, ∃ ts loc', ts.map Token.value = values ∧
    tokensFrom (text ++ rest) loc = (tokensFrom rest loc').map fun ts' => ts ++ ts'

theorem except_map_append {ε α : Type} (ts ts' : List α) (r : Except ε (List α)) :
    (r.map fun x => ts' ++ x).map (fun x => ts ++ x) = r.map fun x => (ts ++ ts') ++ x := by
  cases r with
  | error e => rfl
  | ok x => exact congrArg ok (append_assoc ts ts' x).symm

theorem Reads.nil (rest : Text) : Reads [] rest [] := by
  intro loc
  refine ⟨[], loc, rfl, ?_⟩
  rw [nil_append]
  cases tokensFrom rest loc <;> rfl

theorem Reads.append {text text' rest : Text} {values values' : List Text}
    (h : Reads text (text' ++ rest) values) (h' : Reads text' rest values') :
    Reads (text ++ text') rest (values ++ values') := by
  intro loc
  obtain ⟨ts, loc₁, rfl, heq⟩ := h loc
  obtain ⟨ts', loc₂, rfl, heq'⟩ := h' loc₁
  refine ⟨ts ++ ts', loc₂, map_append, ?_⟩
  rw [append_assoc, heq, heq', except_map_append]

theorem reads_white {c : Char} (hc : isWhite c) (rest : Text) : Reads [c] rest [] := by
  intro loc
  refine ⟨[], loc.advance c, rfl, ?_⟩
  rw [singleton_append, tokensFrom_cons, tokenRound, if_pos hc]
  cases tokensFrom rest (loc.advance c) <;> rfl

theorem reads_paren {c : Char} (hc : c = '(' ∨ c = ')') (rest : Text) : Reads [c] rest [[c]] := by
  intro loc
  refine ⟨[⟨[c], loc.line, loc.col, false⟩], loc.advance c, rfl, ?_⟩
  have hwhite : isWhite c = false := by rcases hc with rfl | rfl <;> rfl
  have hsemi : c ≠ ';' := by rcases hc with rfl | rfl <;> decide
  rw [singleton_append, tokensFrom_cons, tokenRound, hwhite, if_neg Bool.false_ne_true,
    if_neg hsemi, if_pos hc]
  rfl

/-! ## Atoms -/

theorem bareChars_append {word rest : Text} (hword : ∀ c ∈ word, isBareChar c) (hrest : Delimited rest)
    (loc : Location) : ∃ loc', bareChars (word ++ rest) loc = (word, ⟨rest, loc'⟩) := by
  induction word generalizing loc with
  | nil =>
    refine ⟨loc, ?_⟩
    cases rest with
    | nil => rfl
    | cons c rest =>
      have hc : ¬ isBareChar c := by rw [hrest c rfl]; exact Bool.false_ne_true
      rw [nil_append, bareChars, if_neg hc]
  | cons c word ih =>
    obtain ⟨loc', h⟩ := ih (fun d hd => hword d (mem_cons_of_mem c hd)) (loc.advance c)
    refine ⟨loc', ?_⟩
    rw [cons_append, bareChars, if_pos (hword c mem_cons_self), h]

theorem reads_bare {word rest : Text} (hne : word ≠ []) (hword : ∀ c ∈ word, isBareChar c)
    (hrest : Delimited rest) : Reads word rest [word] := by
  intro loc
  obtain ⟨c, word', rfl⟩ := exists_cons_of_ne_nil hne
  obtain ⟨loc', hbare⟩ := bareChars_append hword hrest loc
  refine ⟨[⟨c :: word', loc.line, loc.col, false⟩], loc', rfl, ?_⟩
  have hc := hword c mem_cons_self
  simp only [isBareChar, mem_cons, not_mem_nil, or_false, not_or, decide_eq_true_eq] at hc
  obtain ⟨h1, h2, h3, h4, h5, h6, h7, h8, h9⟩ := hc
  have hwhite : isWhite c = false := by simp [isWhite, h1, h2, h3, h4]
  rw [cons_append] at hbare ⊢
  rw [tokensFrom_cons, tokenRound, hwhite, hbare]
  simp only [Bool.false_eq_true, if_false, h5, h6, h7, h8, h9, or_self]
  rfl

/-- What the writer puts between quotes is read up to the closing quote as it was. -/
theorem quotedChars_escape (atom rest : Text) (loc : Location) :
    ∃ loc', quotedChars (atom.flatMap escapeChar ++ ('"' :: rest)) loc = some (atom, ⟨rest, loc'⟩) := by
  induction atom generalizing loc with
  | nil =>
    refine ⟨loc.advance '"', ?_⟩
    cases rest with
    | nil => rfl
    | cons c rest => rfl
  | cons c atom ih =>
    rw [flatMap_cons, append_assoc]
    -- an escaped character is decoded, the others are not quotes or backslashes
    have hescaped : ∀ e, decodeEscape e = c → ∃ loc',
        quotedChars (['\\', e] ++ (atom.flatMap escapeChar ++ ('"' :: rest))) loc =
          some (c :: atom, ⟨rest, loc'⟩) := by
      intro e he
      obtain ⟨loc', h⟩ := ih ((loc.advance '\\').advance e)
      refine ⟨loc', ?_⟩
      rw [cons_append, singleton_append, quotedChars, if_pos rfl, h, Option.map_some, he]
    rw [escapeChar]
    split
    · rename_i hc
      exact hescaped '"' (by rw [hc]; rfl)
    · rename_i hquote
      split
      · rename_i hc
        exact hescaped '\\' (by rw [hc]; rfl)
      · rename_i hslash
        split
        · rename_i hc
          exact hescaped 'n' (by rw [hc]; rfl)
        · split
          · rename_i hc
            exact hescaped 't' (by rw [hc]; rfl)
          · obtain ⟨loc', h⟩ := ih (loc.advance c)
            refine ⟨loc', ?_⟩
            rw [singleton_append]
            cases hrest : atom.flatMap escapeChar ++ ('"' :: rest) with
            | nil => simp at hrest
            | cons d text =>
              rw [hrest] at h
              rw [quotedChars, if_neg hslash, if_neg hquote, h, Option.map_some]

theorem reads_quoted (atom rest : Text) :
    Reads (['"'] ++ atom.flatMap escapeChar ++ ['"']) rest [atom] := by
  intro loc
  obtain ⟨loc', h⟩ := quotedChars_escape atom rest (loc.advance '"')
  refine ⟨[⟨atom, loc.line, loc.col, true⟩], loc', rfl, ?_⟩
  have htext : ['"'] ++ atom.flatMap escapeChar ++ ['"'] ++ rest =
      '"' :: (atom.flatMap escapeChar ++ ('"' :: rest)) := by simp
  rw [htext, tokensFrom_cons, tokenRound]
  simp only [h]
  rfl

theorem writeAtom_of_needsQuote {atom : Text} (h : atom = [] ∨ ∃ c ∈ atom, needsQuote c) :
    writeAtom atom = ['"'] ++ atom.flatMap escapeChar ++ ['"'] := by
  rcases h with rfl | ⟨c, hc, hquote⟩
  · rfl
  · have hne : atom ≠ [] := ne_nil_of_mem hc
    rw [writeAtom, if_neg hne, if_pos (any_eq_true.mpr ⟨c, hc, hquote⟩)]

theorem writeAtom_of_bare {atom : Text} (hne : atom ≠ []) (h : ∀ c ∈ atom, needsQuote c = false) :
    writeAtom atom = atom := by
  have hany : ¬ atom.any needsQuote := by
    rw [any_eq_true]
    rintro ⟨c, hc, hquote⟩
    rw [h c hc] at hquote
    cases hquote
  rw [writeAtom, if_neg hne, if_neg hany]

theorem isBareChar_iff (c : Char) : isBareChar c ↔ needsQuote c = false ∧ c ≠ ';' := by
  simp only [isBareChar, needsQuote, mem_cons, not_mem_nil, or_false, decide_eq_true_eq,
    decide_eq_false_iff_not]
  tauto

theorem reads_writeAtom {atom rest : Text} (h : ';' ∈ atom → ∃ c ∈ atom, needsQuote c)
    (hrest : Delimited rest) : Reads (writeAtom atom) rest [atom] := by
  by_cases hquote : atom = [] ∨ ∃ c ∈ atom, needsQuote c
  · rw [writeAtom_of_needsQuote hquote]
    exact reads_quoted atom rest
  · simp only [not_or, not_exists, not_and, Bool.not_eq_true] at hquote
    obtain ⟨hne, hbare⟩ := hquote
    rw [writeAtom_of_bare hne hbare]
    refine reads_bare hne (fun c hc => (isBareChar_iff c).mpr ⟨hbare c hc, ?_⟩) hrest
    rintro rfl
    obtain ⟨d, hd, hdquote⟩ := h hc
    rw [hbare d hd] at hdquote
    cases hdquote

/-! ## Nodes -/

mutual

def nodeTokens : SexpNode → List Text
  | .atom value => [value]
  | .list items => [['(']] ++ itemTokens items ++ [[')']]

def itemTokens : List SexpNode → List Text
  | [] => []
  | item :: items => nodeTokens item ++ itemTokens items

end

theorem intercalate_append_sep (sep : Text) {parts : List Text} (hne : parts ≠ []) :
    sep.intercalate parts ++ sep = parts.flatMap fun part => part ++ sep := by
  induction parts with
  | nil => exact absurd rfl hne
  | cons part parts ih =>
    cases parts with
    | nil => simp [intercalate]
    | cons part' parts =>
      rw [flatMap_cons, ← ih (cons_ne_nil _ _)]
      simp [intercalate]

theorem atomsOnly_eq {items : List SexpNode} {atoms : List Text} (h : atomsOnly items = some atoms) :
    items = atoms.map atom := by
  induction items generalizing atoms with
  | nil =>
    cases h
    rfl
  | cons item items ih =>
    cases item with
    | atom value =>
      obtain ⟨rest, hrest, rfl⟩ := Option.map_eq_some_iff.mp h
      rw [map_cons, ih hrest]
    | list _ => cases h

theorem isWhite_padding {indent : ℤ} {c : Char} (hc : c ∈ padding indent) : isWhite c := by
  rw [(mem_replicate.mp hc).2]
  rfl

theorem write_list (max_inline_items indent : ℤ) {items : List SexpNode} (hne : items ≠ []) :
    (∃ atoms : List Text, items = atoms.map atom ∧ write max_inline_items (.list items) indent =
      ['('] ++ [' '].intercalate (atoms.map writeAtom) ++ [')']) ∨
    write max_inline_items (.list items) indent =
      ['(', '\n'] ++ (writeLines max_inline_items items indent).flatMap (fun line => line ++ ['\n']) ++
        padding indent ++ [')'] := by
  have hempty : items.isEmpty = false := by simpa using hne
  have hlines : writeLines max_inline_items items indent ≠ [] := by
    cases items with
    | nil => exact absurd rfl hne
    | cons item items => exact cons_ne_nil _ _
  rw [← intercalate_append_sep ['\n'] hlines, write, hempty]
  simp only [Bool.false_eq_true, if_false]
  cases hatoms : atomsOnly items with
  | none => exact Or.inr (by simp)
  | some atoms =>
    by_cases hmax : (items.length : ℤ) ≤ max_inline_items
    · exact Or.inl ⟨atoms, atomsOnly_eq hatoms, by simp only [hmax, if_true]⟩
    · exact Or.inr (by simp [hmax])

/-- An atom is read back as one token: it is no parenthesis, and quoted when it has a semicolon. -/
def IsSafe (atom : Text) : Prop :=
  (atom ≠ ['('] ∧ atom ≠ [')']) ∧ (';' ∈ atom → ∃ c ∈ atom, needsQuote c)

theorem delimited_cons {c : Char} (hc : isBareChar c = false) (rest : Text) : Delimited (c :: rest) := by
  rintro d ⟨⟩
  exact hc

theorem itemTokens_atoms (atoms : List Text) : itemTokens (atoms.map atom) = atoms := by
  induction atoms with
  | nil => rfl
  | cons a atoms ih =>
    rw [map_cons, itemTokens, ih]
    rfl

/-- A relation between a text, what follows it and the values of its tokens that goes through a text
piece by piece. -/
structure ReadRule (R : Text → Text → List Text → Prop) : Prop where
  nil : ∀ rest, R [] rest []
  append : ∀ {text text' rest values values'}, R text (text' ++ rest) values → R text' rest values' →
    R (text ++ text') rest (values ++ values')
  white : ∀ {c}, isWhite c → ∀ rest, R [c] rest []
  paren : ∀ {c}, c = '(' ∨ c = ')' → ∀ rest, R [c] rest [[c]]

section ReadRule

variable {R : Text → Text → List Text → Prop} (hR : ReadRule R)

include hR

theorem ReadRule.skip {text text' rest : Text} {values : List Text} (h : R text (text' ++ rest) [])
    (h' : R text' rest values) : R (text ++ text') rest values := hR.append h h'

theorem ReadRule.whites {text : Text} (h : ∀ c ∈ text, isWhite c) (rest : Text) : R text rest [] := by
  induction text with
  | nil => exact hR.nil rest
  | cons c text ih =>
    exact hR.skip (hR.white (h c mem_cons_self) _)
      (ih fun d hd => h d (mem_cons_of_mem c hd))

theorem ReadRule.inline {atoms : List Text}
    (h : ∀ a ∈ atoms, ∀ rest, Delimited rest → R (writeAtom a) rest [a]) (rest : Text) :
    R ([' '].intercalate (atoms.map writeAtom)) (')' :: rest) atoms := by
  induction atoms with
  | nil => exact hR.nil _
  | cons a atoms ih =>
    have ha := h a mem_cons_self
    cases atoms with
    | nil => simpa [intercalate] using ha _ (delimited_cons rfl rest)
    | cons b atoms =>
      have hrest := ih fun c hc => h c (mem_cons_of_mem a hc)
      have htext : [' '].intercalate ((a :: b :: atoms).map writeAtom) =
          writeAtom a ++ ([' '] ++ [' '].intercalate ((b :: atoms).map writeAtom)) := by
        simp [intercalate]
      rw [htext]
      exact hR.append (ha _ (delimited_cons rfl _)) (hR.skip (hR.white rfl _) hrest)

theorem ReadRule.lines (max_inline_items indent : ℤ) {items : List SexpNode}
    (h : ∀ item ∈ items, ∀ rest, Delimited rest →
      R (write max_inline_items item (indent + 1)) rest (nodeTokens item)) (rest : Text) :
    R ((writeLines max_inline_items items indent).flatMap fun line => line ++ ['\n']) rest
      (itemTokens items) := by
  induction items with
  | nil => exact hR.nil rest
  | cons item items ih =>
    rw [writeLines, flatMap_cons, itemTokens, append_assoc, append_assoc]
    have hitem := h item mem_cons_self (['\n'] ++ ((writeLines max_inline_items items indent).flatMap
      (fun line => line ++ ['\n']) ++ rest)) (delimited_cons rfl _)
    have htail := ih fun i hi => h i (mem_cons_of_mem item hi)
    refine hR.skip (hR.whites (fun c hc => isWhite_padding hc) _) (hR.append ?_ (hR.skip
      (hR.white rfl _) htail))
    simpa using hitem

/-- **The writer rule**: a node is read when its atoms are, at any indentation and in both layouts. -/
theorem ReadRule.write (max_inline_items : ℤ) (node : SexpNode) {indent : ℤ} {rest : Text}
    (h : ∀ a ∈ node.atoms, ∀ rest, Delimited rest → R (writeAtom a) rest [a])
    (hrest : Delimited rest) : R (write max_inline_items node indent) rest (nodeTokens node) := by
  induction node generalizing indent rest with
  | atom value =>
    rw [ZapTrace.write]
    exact h value mem_cons_self rest hrest
  | list items ih =>
    rw [atoms, itemAtoms_eq] at h
    by_cases hne : items = []
    · subst hne
      exact hR.append (hR.paren (Or.inl rfl) _) (hR.paren (Or.inr rfl) rest)
    rcases write_list max_inline_items indent hne with
      ⟨atoms, rfl, hwrite⟩ | hwrite
    · have hatoms : ∀ a ∈ atoms, ∀ rest, Delimited rest → R (writeAtom a) rest [a] := fun a ha =>
        h a (mem_flatMap.mpr ⟨_, mem_map_of_mem ha, mem_cons_self⟩)
      rw [hwrite, nodeTokens, itemTokens_atoms, append_assoc, append_assoc]
      exact hR.append (hR.paren (Or.inl rfl) _)
        (hR.append (hR.inline hatoms rest) (hR.paren (Or.inr rfl) rest))
    · have hlines := hR.lines max_inline_items indent fun item hitem rest' =>
        ih item hitem fun a ha =>
          h a (mem_flatMap.mpr ⟨item, hitem, ha⟩)
      have hopen : R ['(', '\n'] (((writeLines max_inline_items items indent).flatMap
          (fun line => line ++ ['\n']) ++ (padding indent ++ [')'])) ++ rest) [['(']] :=
        hR.append (hR.paren (Or.inl rfl) _) (hR.white rfl _)
      rw [hwrite, nodeTokens, append_assoc, append_assoc, append_assoc]
      exact hR.append hopen (hR.append (hlines _)
        (hR.skip (hR.whites (fun c hc => isWhite_padding hc) _) (hR.paren (Or.inr rfl) rest)))

end ReadRule

theorem readRule_reads : ReadRule Reads where
  nil := Reads.nil
  append := Reads.append
  white := reads_white
  paren := reads_paren

/-- A node whose atoms with semicolons are quoted is read as its tokens. -/
theorem reads_write (max_inline_items : ℤ) (node : SexpNode) (indent : ℤ) {rest : Text}
    (h : ∀ a ∈ node.atoms, ';' ∈ a → ∃ c ∈ a, needsQuote c) (hrest : Delimited rest) :
    Reads (write max_inline_items node indent) rest (nodeTokens node) :=
  readRule_reads.write max_inline_items node
    (fun a ha _ hrest => reads_writeAtom (h a ha) hrest) hrest

/-! ## No token has a bare semicolon -/

def tokensIn (comment : Bool) (s : Text) (loc : Location) : Except SexpParseError (List Token) :=
  if comment then tokensFrom (skipComment s loc).rest (skipComment s loc).loc else tokensFrom s loc

/-- Before `rest` each token of the text that has a semicolon is quoted, whether the text starts in a
comment or not. -/
def Tame (text rest : Text) : Prop :=
  ∀ comment loc, ∃ ts comment' loc',
    (∀ t ∈ ts, ';' ∈ t.value → ∃ c ∈ t.value, needsQuote c) ∧
      tokensIn comment (text ++ rest) loc = (tokensIn comment' rest loc').map fun ts' => ts ++ ts'

theorem Tame.append {text text' rest : Text} (h : Tame text (text' ++ rest)) (h' : Tame text' rest) :
    Tame (text ++ text') rest := by
  intro comment loc
  obtain ⟨ts, comment₁, loc₁, hts, heq⟩ := h comment loc
  obtain ⟨ts', comment₂, loc₂, hts', heq'⟩ := h' comment₁ loc₁
  refine ⟨ts ++ ts', comment₂, loc₂, ?_, ?_⟩
  · intro t ht
    rcases mem_append.mp ht with ht | ht
    · exact hts t ht
    · exact hts' t ht
  · rw [append_assoc, heq, heq', except_map_append]

theorem tokensIn_comment {text : Text} (h : '\n' ∉ text) (rest : Text) (loc : Location) :
    ∃ loc', tokensIn true (text ++ rest) loc = tokensIn true rest loc' := by
  induction text generalizing loc with
  | nil => exact ⟨loc, rfl⟩
  | cons c text ih =>
    obtain ⟨loc', heq⟩ := ih (fun hmem => h (mem_cons_of_mem c hmem)) (loc.advance c)
    refine ⟨loc', ?_⟩
    have hc : c ≠ '\n' := fun hc => h (hc ▸ mem_cons_self)
    rw [← heq]
    simp only [tokensIn, if_true, cons_append, skipComment, hc, if_false]

theorem except_map_nil_append {ε α : Type} (r : Except ε (List α)) :
    (r.map fun x => [] ++ x) = r := by
  cases r <;> rfl

theorem tame_of_reads {text rest : Text} {values : List Text} (h : Reads text rest values)
    (hvalues : ∀ v ∈ values, ';' ∈ v → ∃ c ∈ v, needsQuote c) (hline : '\n' ∉ text) :
    Tame text rest := by
  intro comment loc
  cases comment with
  | false =>
    obtain ⟨ts, loc', rfl, heq⟩ := h loc
    exact ⟨ts, false, loc', fun t ht => hvalues t.value (mem_map_of_mem ht), heq⟩
  | true =>
    obtain ⟨loc', heq⟩ := tokensIn_comment hline rest loc
    exact ⟨[], true, loc', fun t ht => absurd ht not_mem_nil, by rw [heq, except_map_nil_append]⟩

theorem tame_white {c : Char} (hc : isWhite c) (rest : Text) : Tame [c] rest := by
  by_cases hline : c = '\n'
  · subst hline
    intro comment loc
    obtain ⟨ts, loc', hts, heq⟩ := reads_white (c := '\n') rfl rest loc
    obtain rfl := map_eq_nil_iff.mp hts
    -- a line break also ends a comment
    refine ⟨[], false, loc', fun t ht => absurd ht not_mem_nil, ?_⟩
    cases comment with
    | false => exact heq
    | true => exact heq
  · refine tame_of_reads (reads_white hc rest) (fun v hv => absurd hv not_mem_nil) ?_
    simpa using fun h : '\n' = c => hline h.symm

theorem tame_semicolon {text : Text} (h : '\n' ∉ text) (rest : Text) : Tame (';' :: text) rest := by
  intro comment loc
  have hnone : ∀ t ∈ ([] : List Token), ';' ∈ t.value → ∃ c ∈ t.value, needsQuote c :=
    fun t ht => absurd ht not_mem_nil
  have hline : '\n' ∉ ';' :: text := by simpa using h
  obtain ⟨loc', heq⟩ := tokensIn_comment hline rest loc
  refine ⟨[], true, loc', hnone, ?_⟩
  rw [except_map_nil_append, ← heq]
  cases comment with
  | true => rfl
  | false =>
    simp only [tokensIn, Bool.false_eq_true, if_false, if_true, cons_append]
    rw [tokensFrom_cons]
    rfl

theorem newline_not_mem_writeAtom (atom : Text) : '\n' ∉ writeAtom atom := by
  by_cases hquote : atom = [] ∨ ∃ c ∈ atom, needsQuote c
  · rw [writeAtom_of_needsQuote hquote]
    intro hmem
    simp only [mem_append, mem_singleton, mem_flatMap] at hmem
    rcases hmem with (hmem | ⟨c, _, hmem⟩) | hmem
    · exact absurd hmem (by decide)
    · -- a line break is written as two characters
      unfold escapeChar at hmem
      split at hmem
      · exact absurd hmem (by decide)
      · split at hmem
        · exact absurd hmem (by decide)
        · split at hmem
          · exact absurd hmem (by decide)
          · rename_i hc
            split at hmem
            · exact absurd hmem (by decide)
            · exact hc (mem_singleton.mp hmem).symm
    · exact absurd hmem (by decide)
  · simp only [not_or, not_exists, not_and, Bool.not_eq_true] at hquote
    rw [writeAtom_of_bare hquote.1 hquote.2]
    intro hmem
    have hneeds := hquote.2 _ hmem
    cases hneeds

theorem tame_writeAtom (atom : Text) {rest : Text} (hrest : Delimited rest) :
    Tame (writeAtom atom) rest := by
  by_cases h : ';' ∈ atom → ∃ c ∈ atom, needsQuote c
  · refine tame_of_reads (reads_writeAtom h hrest) ?_ (newline_not_mem_writeAtom atom)
    rintro v hv
    rw [mem_singleton.mp hv]
    exact h
  · -- a bare word with a semicolon: the word up to it, and a comment
    simp only [Classical.not_imp, not_exists, not_and, Bool.not_eq_true] at h
    obtain ⟨hmem, hbare⟩ := h
    rw [writeAtom_of_bare (ne_nil_of_mem hmem) hbare]
    obtain ⟨word, text, rfl, hword⟩ := eq_append_cons_of_mem hmem
    have hline : ∀ {t : Text}, (∀ c ∈ t, c ∈ word ++ ';' :: text) → '\n' ∉ t := by
      intro t ht hmem
      have hneeds := hbare _ (ht _ hmem)
      cases hneeds
    refine Tame.append ?_ (tame_semicolon (hline (by simp +contextual)) rest)
    have hreads : ∃ values, Reads word (';' :: text ++ rest) values ∧ ∀ v ∈ values, v = word := by
      by_cases hne : word = []
      · rw [hne]
        exact ⟨[], Reads.nil _, fun v hv => absurd hv not_mem_nil⟩
      · refine ⟨[word], reads_bare hne ?_ (delimited_cons rfl _), fun v hv => mem_singleton.mp hv⟩
        intro c hc
        refine (isBareChar_iff c).mpr ⟨hbare c (mem_append_left _ hc), ?_⟩
        rintro rfl
        exact hword hc
    obtain ⟨values, hreads, hvalues⟩ := hreads
    refine tame_of_reads hreads ?_ (hline (by simp +contextual))
    intro v hv hsemi
    rw [hvalues v hv] at hsemi
    exact absurd hsemi hword

/-- No token of a text that is written has a bare semicolon. -/
theorem tame_write (max_inline_items : ℤ) (node : SexpNode) (indent : ℤ) {rest : Text}
    (hrest : Delimited rest) : Tame (write max_inline_items node indent) rest := by
  have hrule : ReadRule fun text rest _ => Tame text rest := by
    refine ⟨fun rest => ?_, fun h h' => h.append h', tame_white, fun {c} hc rest => ?_⟩
    · exact tame_of_reads (Reads.nil rest) (fun v hv => absurd hv not_mem_nil) not_mem_nil
    · refine tame_of_reads (reads_paren hc rest) ?_ ?_
      · rcases hc with rfl | rfl <;> simp
      · rcases hc with rfl | rfl <;> simp
  exact hrule.write max_inline_items node (fun a _ _ hrest => tame_writeAtom a hrest) hrest

/-! ## The parser -/

theorem nodeTokens_eq_cons (node : SexpNode) (h : ∀ a ∈ node.atoms, a ≠ [')']) :
    ∃ v vs, nodeTokens node = v :: vs ∧ v ≠ [')'] := by
  cases node with
  | atom value => exact ⟨value, [], rfl, h value mem_cons_self⟩
  | list items => exact ⟨['('], itemTokens items ++ [[')']], rfl, by decide⟩

/-- Tokens with the values of the node are parsed as the node, whatever follows. -/
def ParsesAs (node : SexpNode) : Prop :=
  ∀ {n : ℕ} {ts : List Token}, ts.map Token.value = nodeTokens node → ∀ rest, parseRounds ts ≤ n →
    parseTokens n (ts ++ rest) = ok (node, rest)

theorem parseItems_itemTokens {items : List SexpNode} (hparse : ∀ i ∈ items, ParsesAs i)
    (h : ∀ a ∈ items.flatMap atoms, a ≠ [')']) {tok close : Token}
    (hclose : close.value = [')']) {body : List Token} (hbody : body.map Token.value = itemTokens items)
    {m : ℕ} (hm : parseRounds body + 1 ≤ m) (before : List SexpNode) (rest : List Token) :
    parseItems m tok (body ++ (close :: rest)) before =
      ok (list (before ++ items), rest) := by
  induction items generalizing body m before with
  | nil =>
    obtain ⟨m, rfl⟩ : ∃ k, m = k + 1 := Nat.exists_eq_succ_of_ne_zero (by omega)
    obtain rfl := map_eq_nil_iff.mp hbody
    rw [nil_append, parseItems, if_pos hclose, append_nil]
  | cons item items ih =>
    rw [itemTokens] at hbody
    obtain ⟨first, others, rfl, hfirst, hothers⟩ := map_eq_append_iff.mp hbody
    have hitem : ∀ a ∈ item.atoms, a ≠ [')'] := fun a ha =>
      h a (mem_flatMap.mpr ⟨item, mem_cons_self, ha⟩)
    have hitems : ∀ a ∈ items.flatMap atoms, a ≠ [')'] := fun a ha =>
      h a (by rw [flatMap_cons]; exact mem_append_right _ ha)
    obtain ⟨v, vs, hv, hvclose⟩ := nodeTokens_eq_cons item hitem
    obtain ⟨next, first', rfl, hnext, -⟩ := map_eq_cons_iff.mp (hfirst.trans hv)
    simp only [parseRounds, length_append, length_cons] at hm
    obtain ⟨m, rfl⟩ : ∃ k, m = k + 1 := Nat.exists_eq_succ_of_ne_zero (by omega)
    have hchild := hparse item mem_cons_self (n := m) hfirst (others ++ (close :: rest))
      (by simp only [parseRounds, length_cons]; omega)
    have htail := ih (fun i hi => hparse i (mem_cons_of_mem item hi)) hitems hothers (m := m)
      (by rw [parseRounds]; omega) (before ++ [item])
    rw [cons_append] at hchild
    rw [append_assoc, cons_append, parseItems, if_neg (by rw [hnext]; exact hvclose), hchild]
    simpa using htail

theorem parsesAs (node : SexpNode) (h : ∀ a ∈ node.atoms, a ≠ ['('] ∧ a ≠ [')']) : ParsesAs node := by
  induction node with
  | atom value =>
    intro n ts hts rest hn
    obtain ⟨tok, ts', rfl, rfl, hnil⟩ := map_eq_cons_iff.mp hts
    obtain rfl := map_eq_nil_iff.mp hnil
    obtain ⟨hopen, hclose⟩ := h tok.value mem_cons_self
    simp only [parseRounds, length_singleton] at hn
    obtain ⟨n, rfl⟩ : ∃ k, n = k + 1 := Nat.exists_eq_succ_of_ne_zero (by omega)
    rw [cons_append, nil_append, parseTokens, if_neg hclose, if_neg hopen]
  | list items ih =>
    intro n ts hts rest hn
    rw [atoms, itemAtoms_eq] at h
    rw [nodeTokens, append_assoc, singleton_append] at hts
    obtain ⟨tok, ts', rfl, htok, hrest⟩ := map_eq_cons_iff.mp hts
    obtain ⟨body, last, rfl, hbody, hlast⟩ := map_eq_append_iff.mp hrest
    obtain ⟨close, tail, rfl, hclose, hnil⟩ := map_eq_cons_iff.mp hlast
    obtain rfl := map_eq_nil_iff.mp hnil
    simp only [parseRounds, length_cons, length_append, length_nil] at hn
    obtain ⟨n, rfl⟩ : ∃ k, n = k + 1 := Nat.exists_eq_succ_of_ne_zero (by omega)
    have hopen : tok.value ≠ [')'] := by rw [htok]; decide
    have hitem : ∀ i ∈ items, ParsesAs i := fun i hi =>
      ih i hi fun a ha => h a (mem_flatMap.mpr ⟨i, hi, ha⟩)
    rw [cons_append, parseTokens, if_neg hopen, if_pos htok, append_assoc]
    exact parseItems_itemTokens hitem (fun a ha => (h a ha).2) hclose hbody
      (by rw [parseRounds]; omega) [] rest

theorem itemTokens_eq (items : List SexpNode) : itemTokens items = items.flatMap nodeTokens := by
  induction items with
  | nil => rfl
  | cons item items ih => rw [itemTokens, ih, flatMap_cons]

theorem mem_nodeTokens (node : SexpNode) : ∀ a ∈ node.atoms, a ∈ nodeTokens node := by
  induction node with
  | atom value => exact fun a ha => ha
  | list items ih =>
    intro a ha
    rw [atoms, itemAtoms_eq] at ha
    obtain ⟨item, hitem, ha⟩ := mem_flatMap.mp ha
    rw [nodeTokens, itemTokens_eq]
    exact mem_append_left _ (mem_append_right _ (mem_flatMap.mpr ⟨item, hitem, ih item hitem a ha⟩))

/-- The values of the tokens are those of the nodes, and no atom of these is a parenthesis. -/
def Spells (tokens : List Token) (nodes : List SexpNode) : Prop :=
  tokens.map Token.value = itemTokens nodes ∧ ∀ a ∈ nodes.flatMap atoms, a ≠ ['('] ∧ a ≠ [')']

theorem Spells.append {ts ts' : List Token} {nodes nodes' : List SexpNode} (h : Spells ts nodes)
    (h' : Spells ts' nodes') : Spells (ts ++ ts') (nodes ++ nodes') := by
  constructor
  · rw [map_append, h.1, h'.1]
    simp only [itemTokens_eq, flatMap_append]
  · intro a ha
    rw [flatMap_append] at ha
    exact (mem_append.mp ha).elim (h.2 a) (h'.2 a)

/-- A node is spelled by the tokens that are taken for it, and the new items of a list by those before
its end. -/
theorem spells_of_parse (n : ℕ) :
    (∀ tokens node rest, parseTokens n tokens = ok (node, rest) →
      ∃ taken, tokens = taken ++ rest ∧ Spells taken [node]) ∧
    ∀ tok tokens items node rest, parseItems n tok tokens items = ok (node, rest) →
      ∃ taken close found, tokens = taken ++ close :: rest ∧ close.value = [')'] ∧
        Spells taken found ∧ node = list (items ++ found) := by
  induction n with
  | zero =>
    constructor
    · intro tokens node rest h
      cases h
    · intro tok tokens items node rest h
      cases h
  | succ n ih =>
    obtain ⟨ihNode, ihItems⟩ := ih
    constructor
    · intro tokens node rest h
      cases tokens with
      | nil => cases h
      | cons tok tokens =>
        rw [parseTokens] at h
        split at h
        · cases h
        · rename_i hclose
          split at h
          · rename_i hopen
            obtain ⟨taken, close, found, rfl, hend, ⟨hvalues, hatoms⟩, rfl⟩ := ihItems _ _ _ _ _ h
            refine ⟨tok :: (taken ++ [close]), by simp, ?_, ?_⟩
            · simp [hopen, hend, hvalues, itemTokens, nodeTokens]
            · simpa [atoms, itemAtoms_eq] using hatoms
          · rename_i hopen
            cases h
            refine ⟨[tok], rfl, rfl, fun a ha => ?_⟩
            obtain rfl : a = tok.value := by simpa [atoms] using ha
            exact ⟨hopen, hclose⟩
    · intro tok tokens items node rest h
      cases tokens with
      | nil => cases h
      | cons next tokens =>
        rw [parseItems] at h
        split at h
        · rename_i hclose
          cases h
          exact ⟨[], next, [], rfl, hclose, ⟨rfl, fun a ha => absurd ha not_mem_nil⟩, by rw [append_nil]⟩
        · cases hchild : parseTokens n (next :: tokens) with
          | error e =>
            rw [hchild] at h
            cases h
          | ok r =>
            obtain ⟨child, rest'⟩ := r
            rw [hchild] at h
            obtain ⟨first, hfirst, hspells⟩ := ihNode _ _ _ hchild
            obtain ⟨taken, close, found, rfl, hend, hfound, rfl⟩ := ihItems _ _ _ _ _ h
            exact ⟨first ++ taken, close, child :: found, by rw [hfirst, append_assoc], hend,
              hspells.append hfound, by rw [append_assoc, singleton_append]⟩

theorem length_lt_of_parse {n : ℕ} {tokens rest : List Token} {node : SexpNode}
    (h : parseTokens n tokens = ok (node, rest)) : rest.length < tokens.length := by
  obtain ⟨taken, rfl, hvalues, -⟩ := (spells_of_parse n).1 _ _ _ h
  have hne : taken ≠ [] := by
    rintro rfl
    cases node <;> simp [itemTokens, nodeTokens] at hvalues
  simpa [length_pos_iff] using hne

theorem spells_nil_iff {roots : List SexpNode} : Spells [] roots ↔ ok [] = (ok roots : Except SexpParseError _) := by
  constructor
  · rintro ⟨hvalues, -⟩
    rcases roots with - | ⟨_ | _, roots⟩
    · rfl
    · simp [itemTokens, nodeTokens] at hvalues
    · simp [itemTokens, nodeTokens] at hvalues
  · intro h
    cases h
    exact ⟨rfl, fun a ha => absurd ha not_mem_nil⟩

/-- **The parser** reads tokens as the nodes that they spell, and as no others. -/
theorem parseRoots_eq_ok_iff {n : ℕ} {tokens : List Token} {roots : List SexpNode}
    (hn : tokens.length ≤ n) : parseRoots n tokens = ok roots ↔ Spells tokens roots := by
  induction n generalizing tokens roots with
  | zero =>
    obtain rfl := length_eq_zero_iff.mp (Nat.le_zero.mp hn)
    exact spells_nil_iff.symm
  | succ n ih =>
    cases tokens with
    | nil => exact spells_nil_iff.symm
    | cons tok tokens =>
      rw [parseRoots]
      constructor
      · intro h
        cases hnode : parseTokens (parseRounds (tok :: tokens)) (tok :: tokens) with
        | error e =>
          rw [hnode] at h
          cases h
        | ok r =>
          obtain ⟨node, rest⟩ := r
          rw [hnode] at h
          dsimp only at h
          have hshort := length_lt_of_parse hnode
          obtain ⟨taken, htaken, hspells⟩ := (spells_of_parse _).1 _ _ _ hnode
          cases hroots : parseRoots n rest with
          | error e =>
            rw [hroots] at h
            cases h
          | ok roots' =>
            rw [hroots] at h
            cases h
            rw [htaken]
            exact hspells.append ((ih (Nat.le_of_lt_succ (hshort.trans_le hn))).mp hroots)
      · rintro ⟨hvalues, hatoms⟩
        cases roots with
        | nil => cases hvalues
        | cons root roots =>
          rw [flatMap_cons] at hatoms
          rw [itemTokens] at hvalues
          obtain ⟨first, rest, hsplit, hfirst, hrest⟩ := map_eq_append_iff.mp hvalues
          have hnode : parseTokens (parseRounds (tok :: tokens)) (tok :: tokens) = ok (root, rest) := by
            rw [hsplit]
            exact parsesAs root (fun a ha => hatoms a (mem_append_left _ ha)) hfirst rest
              (by simp only [parseRounds, length_append]; omega)
          have hshort := length_lt_of_parse hnode
          rw [hnode]
          simp only [(ih (Nat.le_of_lt_succ (hshort.trans_le hn))).mpr
            ⟨hrest, fun a ha => hatoms a (mem_append_right _ ha)⟩]
          rfl

theorem atoms_of_parse_eq {s : Text} {node : SexpNode} (h : parse s = ok node) :
    ∃ tokens, tokenize s = ok tokens ∧
      ∀ a ∈ node.atoms, a ∈ tokens.map Token.value ∧ a ≠ ['('] ∧ a ≠ [')'] := by
  unfold parse at h
  cases htokens : tokenize s with
  | error e =>
    rw [htokens] at h
    cases h
  | ok tokens =>
    rw [htokens] at h
    refine ⟨tokens, rfl, ?_⟩
    dsimp only at h
    cases hroots : parseRoots tokens.length tokens with
    | error e =>
      rw [hroots] at h
      cases h
    | ok roots =>
      have hspells := (parseRoots_eq_ok_iff le_rfl).mp hroots
      have hatoms : ∀ a ∈ roots.flatMap atoms, a ∈ tokens.map Token.value ∧ a ≠ ['('] ∧ a ≠ [')'] := by
        intro a ha
        obtain ⟨root, hroot, hmem⟩ := mem_flatMap.mp ha
        rw [hspells.1, itemTokens_eq]
        exact ⟨mem_flatMap.mpr ⟨root, hroot, mem_nodeTokens root a hmem⟩, hspells.2 a ha⟩
      rw [hroots] at h
      match roots, h with
      | [], h =>
        cases h
        exact fun a ha => absurd ha not_mem_nil
      | [root], h =>
        cases h
        simpa using hatoms
      | root :: root' :: roots, h =>
        cases h
        rwa [atoms, itemAtoms_eq]

/-- The node of a text: its root, or the list of its roots. -/
def rootNode : List SexpNode → SexpNode
  | [] => list []
  | [root] => root
  | roots => list roots

/-- **What is accepted**: the texts whose tokens spell nodes, each as these nodes. -/
theorem parse_eq_ok_iff (s : Text) (node : SexpNode) :
    parse s = ok node ↔
      ∃ tokens roots, tokenize s = ok tokens ∧ Spells tokens roots ∧ rootNode roots = node := by
  cases htokens : tokenize s with
  | error e => simp [parse, htokens]
  | ok tokens =>
    have hparse : parse s = (parseRoots tokens.length tokens).map rootNode := by
      rw [parse, htokens]
      rfl
    constructor
    · intro h
      cases hroots : parseRoots tokens.length tokens with
      | error e =>
        rw [hparse, hroots] at h
        cases h
      | ok roots =>
        rw [hparse, hroots] at h
        exact ⟨tokens, roots, rfl, (parseRoots_eq_ok_iff le_rfl).mp hroots, Except.ok.inj h⟩
    · rintro ⟨_, roots, hsame, hspells, rfl⟩
      cases hsame
      rw [hparse, (parseRoots_eq_ok_iff le_rfl).mpr hspells]
      rfl

/-! ## The round trip -/

theorem parse_of_tokenize {s : Text} {ts : List Token} {node : SexpNode}
    (htokens : tokenize s = ok ts) (hts : ts.map Token.value = nodeTokens node)
    (h : ∀ a ∈ node.atoms, a ≠ ['('] ∧ a ≠ [')']) : parse s = ok node := by
  have hroots : parseRoots ts.length ts = ok [node] :=
    (parseRoots_eq_ok_iff le_rfl).mpr ⟨by rw [hts, itemTokens_eq, flatMap_singleton], by simpa using h⟩
  rw [parse, htokens]
  simp only [hroots]
  rfl

/-- **When a node is read back**: exactly when no atom of it is a parenthesis, and each atom with a
semicolon has a character that the writer quotes. -/
theorem parse_write_iff (node : SexpNode) (indent max_inline_items : ℤ) :
    parse (write max_inline_items node indent) = ok node ↔ ∀ a ∈ node.atoms, IsSafe a := by
  have hend : Delimited [] := fun c hc => by cases hc
  constructor
  · intro h a ha
    obtain ⟨tokens, htokens, hatoms⟩ := atoms_of_parse_eq h
    obtain ⟨hmem, hparen⟩ := hatoms a ha
    refine ⟨hparen, ?_⟩
    -- the value is that of a token of the text that was written
    obtain ⟨ts, comment, loc, hts, heq⟩ := tame_write max_inline_items node indent hend
      false ⟨1, 1⟩
    have hrest : tokensIn comment [] loc = ok [] := by cases comment <;> rfl
    rw [append_nil, hrest] at heq
    obtain rfl : tokens = ts := by
      have h := htokens.symm.trans heq
      simpa [Except.map] using h
    obtain ⟨t, ht, rfl⟩ := mem_map.mp hmem
    exact hts t ht
  · intro h
    obtain ⟨ts, loc, hts, heq⟩ := reads_write max_inline_items node indent
      (fun a ha => (h a ha).2) hend ⟨1, 1⟩
    rw [append_nil] at heq
    refine parse_of_tokenize ?_ hts fun a ha => (h a ha).1
    rw [tokenize, heq]
    simp [Except.map]

/-- The atom `;` is written as it is, and read as a comment. -/
theorem not_parse_write :
    ¬ ∀ (node : SexpNode) (indent max_inline_items : ℤ),
      parse (write max_inline_items node indent) = ok node := by
  intro h
  have hsemi := h (atom [';']) 0 8
  have hparse : parse (write 8 (atom [';']) 0) = ok (list []) := rfl
  rw [hparse] at hsemi
  cases hsemi

end ZapTrace
