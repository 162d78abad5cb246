import Mathlib.Data.List.Basic

/-!
# Fields of a text

A text is split at separators, and pieces without a character are left out. What is joined by a separator is
split into the same fields again.

## Main results

* `Fields.fields_append_cons`: the fields on the two sides of a separator
* `Fields.fields_joined`: joined fields are split into the same fields
-/

namespace Fields

open List

variable {α : Type} (p : α → Bool)

/-- The pieces between separators that are not empty. -/
def fields (xs : List α) : List (List α) := (xs.splitOnP p).filter fun field => !field.isEmpty

/-- A list of characters that is not empty and has no separators. -/
def IsField (field : List α) : Prop := field ≠ [] ∧ ∀ c ∈ field, p c = false

/-- Fields with a separator between them. -/
def joined (sep : α) (parts : List (List α)) : List α := [sep].intercalate parts

variable {p}

theorem eq_false_of_any {field : List α} (h : field.any p = false) : ∀ c ∈ field, p c = false := fun c hc =>
  Bool.eq_false_iff.mpr (any_eq_false.mp h c hc)

theorem isField_of_any {field : List α} (hne : field ≠ []) (h : field.any p = false) : IsField p field :=
  ⟨hne, eq_false_of_any h⟩

@[simp] theorem fields_nil : fields p [] = [] := rfl

theorem fields_append_cons {c : α} (hc : p c) (xs ys : List α) :
    fields p (xs ++ c :: ys) = fields p xs ++ fields p ys := by
  unfold fields
  rw [splitOnP_append_cons _ _ hc, filter_append]

theorem fields_cons {c : α} (hc : p c) (ys : List α) : fields p (c :: ys) = fields p ys :=
  fields_append_cons hc [] ys

theorem fields_of_isField {field : List α} (h : IsField p field) : fields p field = [field] := by
  unfold fields
  rw [splitOnP_eq_singleton h.2]
  simp [h.1]

theorem fields_of_forall {xs : List α} (h : ∀ c ∈ xs, p c = false) : fields p xs = if xs = [] then [] else [xs] := by
  split
  · rename_i hnil
    rw [hnil, fields_nil]
  · rename_i hne
    exact fields_of_isField ⟨hne, h⟩

theorem exists_cons_or_forall (xs : List α) :
    (∀ c ∈ xs, p c = false) ∨ ∃ ys c zs, (∀ d ∈ ys, p d = false) ∧ p c ∧ xs = ys ++ c :: zs := by
  induction xs with
  | nil => exact .inl fun c hc => absurd hc not_mem_nil
  | cons x xs ih =>
    cases hx : p x with
    | true => exact .inr ⟨[], x, xs, fun d hd => absurd hd not_mem_nil, hx, rfl⟩
    | false =>
      rcases ih with hall | ⟨ys, c, zs, hys, hc, rfl⟩
      · exact .inl (forall_mem_cons.mpr ⟨hx, hall⟩)
      · exact .inr ⟨x :: ys, c, zs, forall_mem_cons.mpr ⟨hx, hys⟩, hc, rfl⟩

theorem isField_of_mem {xs field : List α} (h : field ∈ fields p xs) : IsField p field := by
  induction hn : xs.length using Nat.strongRecOn generalizing xs with
  | ind n ih =>
    rcases exists_cons_or_forall (p := p) xs with hall | ⟨ys, c, zs, hys, hc, rfl⟩
    · rw [fields_of_forall hall] at h
      split at h
      · cases h
      · rename_i hne
        rw [mem_singleton.mp h]
        exact ⟨hne, hall⟩
    · rw [fields_append_cons hc, mem_append] at h
      rw [length_append, length_cons] at hn
      rcases h with h | h
      · exact ih ys.length (by omega) h rfl
      · exact ih zs.length (by omega) h rfl

@[simp] theorem joined_singleton (sep : α) (part : List α) : joined sep [part] = part := by
  simp [joined]

theorem joined_cons_cons (sep : α) (first second : List α) (rest : List (List α)) :
    joined sep (first :: second :: rest) = first ++ sep :: joined sep (second :: rest) := by
  simp [joined, intercalate]

theorem fields_joined {sep : α} (hsep : p sep) {parts : List (List α)} (h : ∀ part ∈ parts, IsField p part) :
    fields p (joined sep parts) = parts := by
  induction parts with
  | nil => rfl
  | cons first rest ih =>
    obtain ⟨hfirst, hrest⟩ := forall_mem_cons.mp h
    cases rest with
    | nil => rw [joined_singleton, fields_of_isField hfirst]
    | cons second rest =>
      rw [joined_cons_cons, fields_append_cons hsep, ih hrest, fields_of_isField hfirst]
      rfl

theorem joined_append {sep : α} {first second : List (List α)} (hfirst : first ≠ []) (hsecond : second ≠ []) :
    joined sep (first ++ second) = joined sep first ++ sep :: joined sep second := by
  induction first with
  | nil => exact absurd rfl hfirst
  | cons x rest ih =>
    cases rest with
    | nil =>
      obtain ⟨y, ys, rfl⟩ := exists_cons_of_ne_nil hsecond
      rw [singleton_append, joined_cons_cons, joined_singleton]
    | cons z rest =>
      rw [cons_append, cons_append, joined_cons_cons, joined_cons_cons, ← cons_append,
        ih (cons_ne_nil _ _)]
      simp

end Fields
