import Mathlib.Algebra.Order.BigOperators.Group.List
import Mathlib.Algebra.Order.Group.Nat
import Mathlib.Data.List.TakeWhile
import ZapTrace.Export.Ipcd356Lines

/-!
# Which netlists are read back

A record is read back when the name of the net, the reference designator and the name of the pin have no white
space but single spaces, the reference designator is one word, and no keyword comes too early. Records that are
not read back never make up for each other: what a record gives can be written again, and when it is not read
back then, it gives a longer node of the same net.

## Main results

* `readRecord_of_parts`: what a record with its keywords gives
* `not_growing_of_passed`: a report that passes has no record that gives a longer node
* `passed_iff`: the report passes for readable designs
* `parityHolds_iff`: the designs with parity
-/

namespace ZapTrace.Ipcd356

open Fields List

/-! ## The words of a record -/

abbrev IsWord (word : Text) : Prop := Fields.IsField isSpace word

def Spaced (text : Text) : Prop := joined ' ' (words text) = text ∧ words text ≠ []

theorem isWord_of_mem {text word : Text} (h : word ∈ words text) : IsWord word := isField_of_mem h

theorem words_joined {parts : List Text} (h : ∀ part ∈ parts, IsWord part) : words (joined ' ' parts) = parts :=
  fields_joined (by decide) h

theorem spaced_joined {parts : List Text} (h : ∀ part ∈ parts, IsWord part) (hne : parts ≠ []) :
    Spaced (joined ' ' parts) := by
  unfold Spaced
  rw [words_joined h]
  exact ⟨rfl, hne⟩

theorem Spaced.ne_nil {text : Text} (h : Spaced text) : text ≠ [] := by
  rintro rfl
  exact h.2 rfl

theorem Spaced.not_isLineBreak {text : Text} (h : Spaced text) : ∀ c ∈ text, isLineBreak c = false := by
  have hwords : ∀ (parts : List Text), (∀ part ∈ parts, IsWord part) →
      ∀ c ∈ joined ' ' parts, isLineBreak c = false := by
    intro parts hparts
    have hword : ∀ part, IsWord part → ∀ c ∈ part, isLineBreak c = false := by
      intro part hpart c hc
      cases hbreak : isLineBreak c with
      | false => rfl
      | true =>
        have := hpart.2 c hc
        rw [isSpace_of_isLineBreak hbreak] at this
        cases this
    induction parts with
    | nil => exact forall_mem_nil _
    | cons first rest ih =>
      obtain ⟨hfirst, hrest⟩ := forall_mem_cons.mp hparts
      cases rest with
      | nil =>
        rw [joined_singleton]
        exact hword first hfirst
      | cons second rest =>
        intro c hc
        rw [joined_cons_cons, mem_append, mem_cons] at hc
        rcases hc with hc | rfl | hc
        · exact hword first hfirst c hc
        · decide
        · exact ih hrest c hc
  rw [← h.1]
  exact hwords _ fun part => isWord_of_mem

theorem spaced_append {front text : Text} (hfront : ∀ c ∈ front, isSpace c = false) (h : Spaced text) :
    Spaced (front ++ text) := by
  have hwords : ∀ part ∈ words text, IsWord part := fun part => isWord_of_mem
  obtain ⟨htext, hne⟩ := h
  rw [← htext]
  generalize words text = parts at hwords hne
  obtain ⟨first, rest, rfl⟩ := exists_cons_of_ne_nil hne
  obtain ⟨hfirst, hrest⟩ := forall_mem_cons.mp hwords
  have hjoined : front ++ joined ' ' (first :: rest) = joined ' ' ((front ++ first) :: rest) := by
    cases rest with
    | nil => simp
    | cons second rest => rw [joined_cons_cons, joined_cons_cons, append_assoc]
  rw [hjoined]
  refine spaced_joined (forall_mem_cons.mpr ⟨⟨?_, ?_⟩, hrest⟩) (cons_ne_nil _ _)
  · exact append_ne_nil_of_right_ne_nil _ hfirst.1
  · intro c hc
    rcases mem_append.mp hc with hc | hc
    · exact hfront c hc
    · exact hfirst.2 c hc

/-! ## What a record gives -/

abbrev keyP : Text := "P".toList
abbrev keyNet : Text := "NET".toList
abbrev keyRef : Text := "REF".toList
abbrev keyPin : Text := "PIN".toList

theorem idxOf?_append_cons (first : List Text) {rest : List Text} {word : Text} (h : word ∉ first) :
    (first ++ word :: rest).idxOf? word = some first.length := by
  induction first with
  | nil => simp [idxOf?_cons]
  | cons x first ih =>
    rw [mem_cons, not_or] at h
    rw [cons_append, idxOf?_cons, if_neg (by simpa using Ne.symm h.1), ih h.2]
    rfl

/-- A record with a name before its first second keyword, and a pin behind its first third one. -/
theorem readRecord_of_parts {name ref_tail front pin : List Text} {ref : Text}
    (hpin : keyP :: keyNet :: (name ++ keyRef :: ref :: ref_tail) = front ++ keyPin :: pin) (hfront : keyPin ∉ front)
    (href : keyRef ∉ name) (hlength : 5 ≤ name.length + (ref :: ref_tail).length + 1)
    (hname : joined ' ' name ≠ []) (hword : ref ≠ []) (hnode : joined ' ' pin ≠ []) :
    readRecord (keyP :: keyNet :: (name ++ keyRef :: ref :: ref_tail)) =
      .ok (some (joined ' ' name, nodeKey ref (joined ' ' pin))) := by
  have hnet : (keyP :: keyNet :: (name ++ keyRef :: ref :: ref_tail)).idxOf? keyNet = some 1 :=
    idxOf?_append_cons [keyP] (by decide)
  have href : (keyP :: keyNet :: (name ++ keyRef :: ref :: ref_tail)).idxOf? keyRef = some (name.length + 2) := by
    have hnotin : keyRef ∉ keyP :: keyNet :: name := by
      rw [mem_cons, mem_cons, not_or, not_or]
      exact ⟨by decide, by decide, href⟩
    exact idxOf?_append_cons (keyP :: keyNet :: name) hnotin
  have hpin_index : (keyP :: keyNet :: (name ++ keyRef :: ref :: ref_tail)).idxOf? keyPin = some front.length := by
    rw [hpin]
    exact idxOf?_append_cons front hfront
  have hdrop : (keyP :: keyNet :: (name ++ keyRef :: ref :: ref_tail)).drop (front.length + 1) = pin := by
    rw [hpin, ← drop_drop]
    simp
  unfold readRecord
  rw [if_neg, hnet, href, hpin_index]
  · dsimp only
    have hget : (keyP :: keyNet :: (name ++ keyRef :: ref :: ref_tail))[name.length + 2 + 1]? = some ref := by
      show (name ++ keyRef :: ref :: ref_tail)[name.length + 1]? = some ref
      rw [getElem?_append_right (Nat.le_succ _)]
      simp
    have htake : ((keyP :: keyNet :: (name ++ keyRef :: ref :: ref_tail)).take (name.length + 2)).drop (1 + 1) = name := by
      simp
    rw [hget, htake, hdrop]
    dsimp only
    rw [if_pos ⟨hname, hword, hnode⟩]
  · rw [not_or, not_lt, not_not]
    refine ⟨?_, rfl⟩
    simp only [length_cons, length_append] at hlength ⊢
    omega

theorem splitDot_append {ref pin : Text} (h : '.' ∉ ref) : splitDot (ref ++ '.' :: pin) = (ref, pin) := by
  have hall : ∀ c ∈ ref, decide (c ≠ '.') = true := fun c hc => decide_eq_true fun heq => h (heq ▸ hc)
  unfold splitDot
  rw [takeWhile_append_of_pos hall, dropWhile_append_of_pos hall]
  simp

theorem not_mem_splitDot (node : Text) : '.' ∉ (splitDot node).1 := by
  intro hmem
  exact absurd rfl (of_decide_eq_true (mem_takeWhile_imp (p := fun c => decide (c ≠ '.')) hmem))

/-- A name and a node as a record gives them. -/
structure Writable (net_name node : Text) : Prop where
  name : Spaced net_name
  no_ref : keyRef ∉ words net_name
  ref : ∀ c ∈ (splitDot node).1, isSpace c = false
  pin : Spaced (splitDot node).2
  node : nodeKey (splitDot node).1 (splitDot node).2 = node

theorem writable_nodeKey {net_name ref pin : Text} (hname : Spaced net_name) (hno : keyRef ∉ words net_name)
    (href : IsWord ref) (hpin : Spaced pin) : Writable net_name (nodeKey ref pin) := by
  by_cases hdot : '.' ∈ ref
  · -- the reference designator ends at its first dot
    obtain ⟨front, rest, rfl, hfront⟩ := eq_append_cons_of_mem hdot
    have hkey : nodeKey (front ++ '.' :: rest) pin = front ++ '.' :: (rest ++ '.' :: pin) := by
      simp [nodeKey]
    have hspace : ∀ c ∈ rest ++ ['.'], isSpace c = false := by
      intro c hc
      rcases mem_append.mp hc with hc | hc
      · exact href.2 c (mem_append_right _ (.tail _ hc))
      · rw [mem_singleton.mp hc]
        decide
    have hrest := spaced_append hspace hpin
    rw [append_assoc, singleton_append] at hrest
    refine ⟨hname, hno, ?_, ?_, ?_⟩
    · rw [hkey, splitDot_append hfront]
      exact fun c hc => href.2 c (mem_append_left _ hc)
    · rw [hkey, splitDot_append hfront]
      exact hrest
    · rw [hkey, splitDot_append hfront]
      rfl
  · have hsplit : splitDot (nodeKey ref pin) = (ref, pin) := splitDot_append hdot
    refine ⟨hname, hno, ?_, ?_, ?_⟩
    · rw [hsplit]
      exact href.2
    · rwa [hsplit]
    · rw [hsplit]

theorem writable_of_readRecord {text net_name node : Text}
    (h : readRecord (words text) = .ok (some (net_name, node))) : Writable net_name node := by
  have hwords : ∀ word ∈ words text, IsWord word := fun word => isWord_of_mem
  unfold readRecord at h
  generalize words text = parts at h hwords
  split at h
  · cases h
  · split at h
    · rename_i net_index ref_index pin_index hnet href hpin
      dsimp only at h
      split at h
      · cases h
      · rename_i ref hget
        split at h
        · rename_i hnonempty
          cases h
          have hname_words : ∀ word ∈ (parts.take ref_index).drop (net_index + 1), IsWord word :=
            fun word hword => hwords word (mem_of_mem_take (mem_of_mem_drop hword))
          have hpin_words : ∀ word ∈ parts.drop (pin_index + 1), IsWord word :=
            fun word hword => hwords word (mem_of_mem_drop hword)
          have hne : ∀ {ps : List Text}, joined ' ' ps ≠ [] → ps ≠ [] := by
            rintro ps hps rfl
            exact hps rfl
          apply writable_nodeKey
          · exact spaced_joined hname_words (hne hnonempty.1)
          · rw [words_joined hname_words]
            intro hmem
            -- the name ends before the first keyword of this kind
            obtain ⟨i, hi, heq⟩ := mem_take_iff_getElem.mp (mem_of_mem_drop hmem)
            obtain ⟨_, -, hfirst⟩ := idxOf?_eq_some_iff.mp href
            exact hfirst i (lt_min_iff.mp hi).1 heq
          · exact hwords ref (mem_of_getElem? hget)
          · exact spaced_joined hpin_words (hne hnonempty.2.2)
        · cases h
    · cases h

theorem words_recordLine (net_name node : Text) :
    words (recordLine net_name node) = keyP :: keyNet :: (words net_name ++
      keyRef :: (words (splitDot node).1 ++ keyPin :: words (splitDot node).2)) := by
  have hline : recordLine net_name node = keyP ++ ' ' :: (keyNet ++ ' ' :: (net_name ++ ' ' :: (keyRef ++ ' ' ::
      ((splitDot node).1 ++ ' ' :: (keyPin ++ ' ' :: (splitDot node).2))))) := by
    have hnet : "P NET ".toList = keyP ++ ' ' :: (keyNet ++ [' ']) := by decide
    have href : " REF ".toList = ' ' :: (keyRef ++ [' ']) := by decide
    have hpin : " PIN ".toList = ' ' :: (keyPin ++ [' ']) := by decide
    unfold recordLine
    rw [hnet, href, hpin]
    simp only [append_assoc, cons_append, nil_append]
  have hspace : isSpace ' ' = true := by decide
  have hkey : ∀ key ∈ [keyP, keyNet, keyRef, keyPin], fields isSpace key = [key] := by
    intro key hmem
    simp only [mem_cons, not_mem_nil, or_false] at hmem
    rcases hmem with rfl | rfl | rfl | rfl <;> exact fields_of_isField (isField_of_any (by decide) (by decide))
  unfold words
  rw [hline, fields_append_cons hspace, fields_append_cons hspace, fields_append_cons hspace,
    fields_append_cons hspace, fields_append_cons hspace, fields_append_cons hspace, hkey keyP (by simp),
    hkey keyNet (by simp), hkey keyRef (by simp), hkey keyPin (by simp)]
  rfl

variable {net_name node : Text}

theorem Writable.not_isLineBreak (h : Writable net_name node) :
    ∀ c ∈ recordLine net_name node, isLineBreak c = false := by
  have hnet : ∀ c ∈ "P NET ".toList, isLineBreak c = false := eq_false_of_any (by decide)
  have hkeyRef : ∀ c ∈ " REF ".toList, isLineBreak c = false := eq_false_of_any (by decide)
  have hkeyPin : ∀ c ∈ " PIN ".toList, isLineBreak c = false := eq_false_of_any (by decide)
  have href : ∀ c ∈ (splitDot node).1, isLineBreak c = false := by
    intro c hc
    cases hbreak : isLineBreak c with
    | false => rfl
    | true =>
      have := h.ref c hc
      rw [isSpace_of_isLineBreak hbreak] at this
      cases this
  unfold recordLine
  dsimp only
  intro c hc
  simp only [mem_append] at hc
  rcases hc with ((((hc | hc) | hc) | hc) | hc) | hc
  · exact hnet c hc
  · exact h.name.not_isLineBreak c hc
  · exact hkeyRef c hc
  · exact href c hc
  · exact hkeyPin c hc
  · exact h.pin.not_isLineBreak c hc

/-! ## Records that are read back -/

structure ReadsBack (net_name node : Text) : Prop where
  name : Spaced net_name
  no_ref : keyRef ∉ words net_name
  no_pin : keyPin ∉ words net_name
  ref : IsWord (splitDot node).1
  ref_ne : (splitDot node).1 ≠ keyPin
  pin : Spaced (splitDot node).2
  node : nodeKey (splitDot node).1 (splitDot node).2 = node

theorem ReadsBack.writable (h : ReadsBack net_name node) : Writable net_name node :=
  ⟨h.name, h.no_ref, h.ref.2, h.pin, h.node⟩

theorem ReadsBack.readRecord_eq (h : ReadsBack net_name node) :
    readRecord (words (recordLine net_name node)) = .ok (some (net_name, node)) := by
  have hname := h.name
  have hpin := h.pin
  have hwords : words (splitDot node).1 = [(splitDot node).1] := fields_of_isField h.ref
  rw [words_recordLine, hwords]
  have hfront : keyPin ∉ keyP :: keyNet :: (words net_name ++ [keyRef, (splitDot node).1]) := by
    simp only [mem_cons, mem_append, not_mem_nil, or_false, not_or]
    exact ⟨by decide, by decide, h.no_pin, by decide, h.ref_ne.symm⟩
  have hparts : keyP :: keyNet :: (words net_name ++ keyRef :: (splitDot node).1 :: keyPin :: words (splitDot node).2) =
      (keyP :: keyNet :: (words net_name ++ [keyRef, (splitDot node).1])) ++ keyPin :: words (splitDot node).2 := by
    simp
  have hgives := readRecord_of_parts hparts hfront h.no_ref
    (by
      have := length_pos_iff.mpr hname.2
      have := length_pos_iff.mpr hpin.2
      simp only [length_cons]
      omega)
    (by rw [hname.1]; exact hname.ne_nil) h.ref.1 (by rw [hpin.1]; exact hpin.ne_nil)
  rw [hname.1, hpin.1, h.node] at hgives
  exact hgives

/-! ## Records that grow -/

/-- A record that gives a longer node: a keyword stands too early, or the reference designator is missing and there
are enough words for a record. -/
structure Growing (net_name node : Text) : Prop where
  writable : Writable net_name node
  early : keyPin ∈ words net_name ∨ (splitDot node).1 = [] ∨ (splitDot node).1 = keyPin
  enough : (splitDot node).1 = [] → 3 ≤ (words net_name).length + (words (splitDot node).2).length

theorem length_joined_lt {first second : List Text} (hfirst : first ≠ []) (hsecond : second ≠ []) :
    (joined ' ' second).length + 1 ≤ (joined ' ' (first ++ second)).length := by
  rw [joined_append hfirst hsecond, length_append, length_cons]
  omega

/-- The record gives a longer node of the same net, and the record of that node does again. -/
theorem Growing.exists_longer (h : Growing net_name node) :
    ∃ node', readRecord (words (recordLine net_name node)) = .ok (some (net_name, node')) ∧
      node.length < node'.length ∧ Growing net_name node' := by
  have hname := h.writable.name
  have hpin := h.writable.pin
  have hname_pos := length_pos_iff.mpr hname.2
  have hpin_pos := length_pos_iff.mpr hpin.2
  have hlength : node.length = (splitDot node).1.length + 1 + (splitDot node).2.length := by
    conv_lhs => rw [← h.writable.node]
    simp only [nodeKey, length_append, length_cons]
    omega
  have hdot := not_mem_splitDot node
  have henough := h.enough
  have hsecond : joined ' ' (words (splitDot node).2) = (splitDot node).2 := hpin.1
  -- what stands behind the second keyword is the reference designator, or the third keyword
  obtain ⟨ref, ref_tail, htail, href, hrefdot, hrefne, hcount⟩ : ∃ ref ref_tail,
      words (splitDot node).1 ++ keyPin :: words (splitDot node).2 = ref :: ref_tail ∧
        (ref = (splitDot node).1 ∧ (splitDot node).1 ≠ [] ∨ ref = keyPin ∧ (splitDot node).1 = []) ∧ '.' ∉ ref ∧
          ref ≠ [] ∧ 5 ≤ (words net_name).length + (ref :: ref_tail).length + 1 := by
    by_cases hempty : (splitDot node).1 = []
    · refine ⟨keyPin, words (splitDot node).2, ?_, .inr ⟨rfl, hempty⟩, by decide, by decide, ?_⟩
      · rw [hempty]
        rfl
      · have := henough hempty
        simp only [length_cons]
        omega
    · refine ⟨(splitDot node).1, keyPin :: words (splitDot node).2, ?_, .inl ⟨rfl, hempty⟩, hdot, hempty, ?_⟩
      · rw [words, fields_of_isField ⟨hempty, h.writable.ref⟩]
        rfl
      · simp only [length_cons]
        omega
  have hreflength : (splitDot node).1.length ≤ ref.length := by
    rcases href with ⟨rfl, -⟩ | ⟨-, hempty⟩
    · exact le_rfl
    · rw [hempty]
      exact Nat.zero_le _
  have hgrown : ∀ node', readRecord (words (recordLine net_name node)) = .ok (some (net_name, node')) →
      (splitDot node').1 = ref → (keyPin ∈ words net_name ∨ ref = keyPin) → Growing net_name node' := by
    intro node' hread hsplit hearly
    refine ⟨writable_of_readRecord hread, ?_, fun hempty => absurd (hsplit.symm.trans hempty) hrefne⟩
    rw [hsplit]
    exact hearly.imp_right .inr
  rw [words_recordLine, htail] at hgrown ⊢
  by_cases hnamepin : keyPin ∈ words net_name
  · -- the rest of the name, the second keyword and all behind it become part of the pin
    obtain ⟨front, rest, hsplit, hfront⟩ := eq_append_cons_of_mem hnamepin
    have hparts : keyP :: keyNet :: (words net_name ++ keyRef :: ref :: ref_tail) =
        (keyP :: keyNet :: front) ++ keyPin :: (rest ++ keyRef :: ref :: ref_tail) := by
      rw [hsplit]
      simp
    have hlonger : (splitDot node).2.length + 1 ≤ (joined ' ' (rest ++ keyRef :: ref :: ref_tail)).length := by
      have happend : rest ++ keyRef :: ref :: ref_tail =
          (rest ++ keyRef :: (words (splitDot node).1 ++ [keyPin])) ++ words (splitDot node).2 := by
        rw [← htail]
        simp
      rw [happend]
      conv_lhs => rw [← hsecond]
      exact length_joined_lt (by simp) hpin.2
    have hread := readRecord_of_parts hparts
      (by
        rw [mem_cons, mem_cons, not_or, not_or]
        exact ⟨by decide, by decide, hfront⟩)
      h.writable.no_ref hcount (by rw [hname.1]; exact hname.ne_nil) hrefne
      (by
        intro hnil
        rw [hnil, length_nil] at hlonger
        omega)
    rw [hname.1] at hread
    refine ⟨_, hread, ?_, hgrown _ hread (congrArg Prod.fst (splitDot_append hrefdot)) (.inl hnamepin)⟩
    simp only [nodeKey, length_append, length_cons, hlength]
    omega
  · -- the third keyword is taken for the reference designator
    obtain ⟨rfl, hcases⟩ : ref = keyPin ∧ ((splitDot node).1 = [] ∧ ref_tail = words (splitDot node).2 ∨
        (splitDot node).1 = keyPin ∧ ref_tail = keyPin :: words (splitDot node).2) := by
      rcases h.early.resolve_left hnamepin with hempty | hkey
      · rw [hempty] at htail
        obtain ⟨rfl, rfl⟩ := cons.inj htail
        exact ⟨rfl, .inl ⟨hempty, rfl⟩⟩
      · rw [hkey, show words keyPin = [keyPin] from fields_of_isField (isField_of_any (by decide) (by decide))] at htail
        obtain ⟨rfl, rfl⟩ := cons.inj htail
        exact ⟨rfl, .inr ⟨hkey, rfl⟩⟩
    have hfront : keyPin ∉ keyP :: keyNet :: (words net_name ++ [keyRef]) := by
      simp only [mem_cons, mem_append, not_mem_nil, or_false, not_or]
      exact ⟨by decide, by decide, hnamepin, by decide⟩
    have htail_ne : joined ' ' ref_tail ≠ [] ∧
        (splitDot node).1.length + (splitDot node).2.length < 3 + (joined ' ' ref_tail).length := by
      rcases hcases with ⟨hempty, rfl⟩ | ⟨hkey, rfl⟩
      · rw [hsecond, hempty]
        refine ⟨hpin.ne_nil, ?_⟩
        simp
      · have hlonger := length_joined_lt (cons_ne_nil keyPin []) hpin.2
        rw [hsecond, singleton_append] at hlonger
        refine ⟨fun hnil => ?_, ?_⟩
        · rw [hnil, length_nil] at hlonger
          omega
        · rw [hkey]
          have : keyPin.length = 3 := by decide
          omega
    have hparts : keyP :: keyNet :: (words net_name ++ keyRef :: keyPin :: ref_tail) =
        (keyP :: keyNet :: (words net_name ++ [keyRef])) ++ keyPin :: ref_tail := by
      simp
    have hread := readRecord_of_parts hparts hfront h.writable.no_ref hcount (by rw [hname.1]; exact hname.ne_nil) hrefne htail_ne.1
    rw [hname.1] at hread
    refine ⟨_, hread, ?_, hgrown _ hread (congrArg Prod.fst (splitDot_append hrefdot)) (.inr rfl)⟩
    have : keyPin.length = 3 := by decide
    have := htail_ne.2
    simp only [nodeKey, length_append, length_cons, hlength]
    omega

/-! ## Which designs pass -/

theorem exists_length_le (design : Design) :
    ∃ bound, ∀ net_name node, Listed design net_name node → node.length ≤ bound := by
  refine ⟨((design.nets.values.flatMap (netNodes design)).map length).sum, ?_⟩
  rintro net_name node ⟨net, hnet, hnode⟩
  have hmem : net ∈ design.nets.values := mem_reverse.mp (mem_of_find?_eq_some hnet)
  exact le_sum_of_mem (mem_map_of_mem (mem_flatMap.mpr ⟨net, hmem, hnode⟩))

variable {design : Design}

/-- A report that passes has no record that gives a longer node. -/
theorem not_growing_of_passed (h : Passed design) (hlisted : Listed design net_name node) :
    ¬ Growing net_name node := by
  obtain ⟨-, -, hsame⟩ := passed_iff_records.mp h
  obtain ⟨bound, hbound⟩ := exists_length_le design
  -- the longer node is one of the nets too
  have hall : ∀ n node, bound - node.length = n → Listed design net_name node → ¬ Growing net_name node := by
    intro n
    induction n using Nat.strongRecOn with
    | ind n ih =>
      intro node hn hlisted hgrowing
      obtain ⟨node', hread, hlonger, hgrowing'⟩ := hgrowing.exists_longer
      have hgives : GivesRecord (recordLine net_name node) net_name node' :=
        (givesRecord_of_line hgrowing.writable.not_isLineBreak).mpr hread
      have hlisted' : Listed design net_name node' :=
        (hsame net_name node').mpr (givesRecord_generate_iff.mpr (.inr ⟨net_name, node, hlisted, hgives⟩))
      have hle := hbound net_name node' hlisted'
      exact ih (bound - node'.length) (by omega) node' rfl hlisted' hgrowing'
  exact hall _ node rfl hlisted

/-- A record with too few words: the reference designator is missing, and the name and the pin are one word each. -/
def Skipped (net_name node : Text) : Prop :=
  (splitDot node).1 = [] ∧ (words net_name).length = 1 ∧ (words (splitDot node).2).length = 1

/-- The netlist of a design is read back. Lines in the name of the design may be records themselves. -/
structure Readable (design : Design) : Prop where
  /-- The last net with a name has a node. -/
  nodes : NoneEmpty (designRefNetMap design)
  name_read : ReadsAll (designLine design)
  name_listed : ∀ net_name node, GivesRecord (designLine design) net_name node → Listed design net_name node
  read_back : ∀ net_name node, Listed design net_name node →
    ReadsBack net_name node ∨ Skipped net_name node ∧ GivesRecord (designLine design) net_name node

theorem writable_of_givesRecord {text net_name node : Text} (h : GivesRecord text net_name node) :
    Writable net_name node := by
  obtain ⟨line, -, hread⟩ := h
  exact writable_of_readRecord hread

theorem readRecord_of_skipped (h : Skipped net_name node) :
    readRecord (words (recordLine net_name node)) = .ok none := by
  obtain ⟨hempty, hname, hpin⟩ := h
  have hnil : words [] = [] := rfl
  unfold readRecord
  rw [if_pos]
  rw [words_recordLine, hempty, hnil]
  left
  simp only [length_cons, length_append, hname, hpin, length_nil]
  omega

theorem Writable.cases (h : Writable net_name node) :
    ReadsBack net_name node ∨ Growing net_name node ∨ Skipped net_name node := by
  have hname_pos := length_pos_iff.mpr h.name.2
  have hpin_pos := length_pos_iff.mpr h.pin.2
  by_cases hempty : (splitDot node).1 = []
  · by_cases henough : 3 ≤ (words net_name).length + (words (splitDot node).2).length
    · exact .inr (.inl ⟨h, .inr (.inl hempty), fun _ => henough⟩)
    · exact .inr (.inr ⟨hempty, by omega, by omega⟩)
  · by_cases hearly : keyPin ∈ words net_name ∨ (splitDot node).1 = keyPin
    · exact .inr (.inl ⟨h, hearly.imp_right .inr, fun hnil => absurd hnil hempty⟩)
    · obtain ⟨hno, hne⟩ := not_or.mp hearly
      exact .inl ⟨h.name, h.no_ref, hno, ⟨hempty, h.ref⟩, hne, h.pin, h.node⟩

theorem readable_of_passed (h : Passed design) : Readable design := by
  obtain ⟨hall, hnodes, hsame⟩ := passed_iff_records.mp h
  refine ⟨hnodes, (readsAll_generate_iff.mp hall).1,
    fun net_name node hgives => (hsame net_name node).mpr (givesRecord_generate_iff.mpr (.inl hgives)), ?_⟩
  have hcases : ∀ net_name node, Listed design net_name node → ReadsBack net_name node ∨ Skipped net_name node := by
    intro net_name node hlisted
    have hwritable := writable_of_givesRecord ((hsame net_name node).mp hlisted)
    rcases hwritable.cases with hback | hgrowing | hskipped
    · exact .inl hback
    · exact absurd hgrowing (not_growing_of_passed h hlisted)
    · exact .inr hskipped
  intro net_name node hlisted
  refine (hcases net_name node hlisted).imp_right fun hskipped => ⟨hskipped, ?_⟩
  have hnone := readRecord_of_skipped hskipped
  -- its own record is skipped, and every other record gives its own node or none
  rcases givesRecord_generate_iff.mp ((hsame net_name node).mp hlisted) with
    hgives | ⟨net_name', node', hlisted', hgives⟩
  · exact hgives
  · have hwritable := writable_of_givesRecord ((hsame net_name' node').mp hlisted')
    have hread := (givesRecord_of_line hwritable.not_isLineBreak).mp hgives
    rcases hcases net_name' node' hlisted' with hback | hskipped'
    · rw [hback.readRecord_eq] at hread
      cases hread
      rw [hback.readRecord_eq] at hnone
      cases hnone
    · rw [readRecord_of_skipped hskipped'] at hread
      cases hread

theorem passed_of_readable (h : Readable design) : Passed design := by
  have hline : ∀ net_name node, Listed design net_name node → Writable net_name node := fun net_name node hlisted =>
    (h.read_back net_name node hlisted).elim ReadsBack.writable fun hskipped => writable_of_givesRecord hskipped.2
  refine passed_iff_records.mpr ⟨readsAll_generate_iff.mpr ⟨h.name_read, fun net_name node hlisted => ?_⟩, h.nodes,
    fun net_name node => ⟨fun hlisted => givesRecord_generate_iff.mpr ?_, fun hgives => ?_⟩⟩
  · have hbreaks := (hline net_name node hlisted).not_isLineBreak
    rcases h.read_back net_name node hlisted with hback | ⟨hskipped, -⟩
    · exact readsAll_of_line hbreaks hback.readRecord_eq
    · exact readsAll_of_line hbreaks (readRecord_of_skipped hskipped)
  · rcases h.read_back net_name node hlisted with hback | ⟨-, hgives⟩
    · exact .inr ⟨net_name, node, hlisted,
        (givesRecord_of_line hback.writable.not_isLineBreak).mpr hback.readRecord_eq⟩
    · exact .inl hgives
  · rcases givesRecord_generate_iff.mp hgives with hgives | ⟨net_name', node', hlisted, hgives⟩
    · exact h.name_listed net_name node hgives
    · have hread := (givesRecord_of_line (hline net_name' node' hlisted).not_isLineBreak).mp hgives
      rcases h.read_back net_name' node' hlisted with hback | ⟨hskipped, -⟩
      · rw [hback.readRecord_eq] at hread
        cases hread
        exact hlisted
      · rw [readRecord_of_skipped hskipped] at hread
        cases hread

theorem passed_iff : Passed design ↔ Readable design := ⟨readable_of_passed, passed_of_readable⟩

/-! ## Parity -/

def netNames (design : Design) : List String := design.nets.values.map Models.Net.name

/-- Every net has a node, and names are not empty and different. -/
structure Plain (design : Design) : Prop where
  nodes : ∀ net ∈ design.nets.values, net.nodes ≠ []
  names : ∀ net ∈ design.nets.values, net.name ≠ ""
  nodup : (netNames design).Nodup

/-- Every node of every net is in the text. -/
def AllPresent (design : Design) : Prop :=
  ∀ net ∈ design.nets.values, ∀ node ∈ netNodes design net,
    GivesRecord (generateIpcd356 design) net.name.toList node

/-- The report passes for a plain design, and with equal names only when no node is missing. -/
def ParityHolds (design : Design) : Prop :=
  (Plain design → Passed design) ∧ (¬ (netNames design).Nodup → Passed design → AllPresent design)

/-- The last net with a name has the nodes of all nets with this name. -/
def Covered (design : Design) : Prop :=
  ∀ net ∈ design.nets.values, ∀ node ∈ netNodes design net, Listed design net.name.toList node

/-- **Parity** holds for a plain design when it is readable, and for a design with equal names when it is not, or
the last net with a name has all nodes. -/
theorem parityHolds_iff (design : Design) :
    ParityHolds design ↔
      (Plain design → Readable design) ∧ (¬ (netNames design).Nodup → Readable design → Covered design) := by
  unfold ParityHolds
  rw [passed_iff]
  refine and_congr Iff.rfl (imp_congr_right fun _ => imp_congr_right fun hreadable => ?_)
  obtain ⟨-, -, hsame⟩ := passed_iff_records.mp (passed_of_readable hreadable)
  unfold AllPresent Covered
  simp only [hsame]

/-- A reference designator with a space. -/
def spacedDesign : Design where
  components := Dict.empty.set "U 1" { id := "U 1", ref := "U 1" }
  nets := Dict.empty.set "A" { id := "A", name := "A", nodes := [⟨"U 1", "1"⟩] }

theorem not_parityHolds_spacedDesign : Plain spacedDesign ∧ ¬ ParityHolds spacedDesign := by
  have hplain : Plain spacedDesign := ⟨by decide, by decide, by decide⟩
  refine ⟨hplain, fun h => ?_⟩
  have hreadable := passed_iff.mp (h.1 hplain)
  have hlisted : Listed spacedDesign "A".toList "U 1.1".toList :=
    ⟨{ id := "A", name := "A", nodes := [⟨"U 1", "1"⟩] }, by decide, by decide⟩
  rcases hreadable.read_back _ _ hlisted with hback | ⟨⟨hempty, -⟩, -⟩
  · -- the reference designator is not one word
    have hspace := hback.ref.2 ' ' (by decide)
    exact absurd hspace (by decide)
  · exact absurd hempty (by decide)

end ZapTrace.Ipcd356
