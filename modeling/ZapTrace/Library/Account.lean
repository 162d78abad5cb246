import Mathlib.Data.List.Forall2

/-!
# Entries that are accounted for

A reader maps some entries of a list to values, and keeps a record of each other one. The entries are accounted for
when each is, in order, the next value or the next record.

## Main results

* `Account.accounted_cons_iff`: the first entry
* `Account.forall_mem_lefts_iff`, `Account.pairwise_lefts_iff`: the values by their entries
* `Account.accounted_iff`: a reader accounts for its entries exactly when it maps them faithfully, and reads them all
-/

namespace Account

open List

variable {ε α ρ : Type} {Maps : ε → α → Prop} {Records : ε → ρ → Prop} {Parses : ε → α ⊕ ρ → Prop}

/-- Each entry is the next value or the next record. -/
inductive Accounted (Maps : ε → α → Prop) (Records : ε → ρ → Prop) : List ε → List α → List ρ → Prop
  | nil : Accounted Maps Records [] [] []
  | mapped {e : ε} {a : α} {es : List ε} {as : List α} {rs : List ρ} :
      Maps e a → Accounted Maps Records es as rs → Accounted Maps Records (e :: es) (a :: as) rs
  | recorded {e : ε} {r : ρ} {es : List ε} {as : List α} {rs : List ρ} :
      Records e r → Accounted Maps Records es as rs → Accounted Maps Records (e :: es) as (r :: rs)

variable {es : List ε}

theorem accounted_cons_iff {e : ε} {as : List α} {rs : List ρ} :
    Accounted Maps Records (e :: es) as rs ↔
      (∃ a as', as = a :: as' ∧ Maps e a ∧ Accounted Maps Records es as' rs) ∨
        ∃ r rs', rs = r :: rs' ∧ Records e r ∧ Accounted Maps Records es as rs' := by
  constructor
  · intro h
    cases h with
    | mapped hmap hrest => exact .inl ⟨_, _, rfl, hmap, hrest⟩
    | recorded hrecord hrest => exact .inr ⟨_, _, rfl, hrecord, hrest⟩
  · rintro (⟨a, as', rfl, hmap, hrest⟩ | ⟨r, rs', rfl, hrecord, hrest⟩)
    · exact .mapped hmap hrest
    · exact .recorded hrecord hrest

/-- The values among outcomes. -/
def lefts : List (α ⊕ ρ) → List α
  | [] => []
  | .inl a :: outs => a :: lefts outs
  | .inr _ :: outs => lefts outs

/-- The records among outcomes. -/
def rights : List (α ⊕ ρ) → List ρ
  | [] => []
  | .inl _ :: outs => rights outs
  | .inr r :: outs => r :: rights outs

variable {outs : List (α ⊕ ρ)}

theorem Accounted.length_rights_le (hmaps : ∀ e a r, Maps e a → ¬ Parses e (.inr r)) {es extra : List ε} {as : List α}
    {rs : List ρ} (hparses : List.Forall₂ Parses es outs) (h : Accounted Maps Records (es ++ extra) as rs) :
    (rights outs).length ≤ rs.length := by
  induction hparses generalizing as rs with
  | nil => exact Nat.zero_le _
  | @cons e out es outs hparse _ ih =>
    cases out with
    | inl b =>
      rcases accounted_cons_iff.mp h with ⟨_, _, -, -, hrest⟩ | ⟨r, rs', rfl, -, hrest⟩
      · exact ih hrest
      · exact Nat.le_succ_of_le (ih hrest)
    | inr r =>
      rcases accounted_cons_iff.mp h with ⟨a, _, -, hmap, -⟩ | ⟨r, rs', rfl, -, hrest⟩
      · exact absurd hparse (hmaps e a r hmap)
      · exact Nat.succ_le_succ (ih hrest)

/-- **The entries are accounted for** exactly when each that has a value is mapped to it, and there are no further
entries. -/
theorem accounted_iff (hmaps : ∀ e a r, Maps e a → ¬ Parses e (.inr r))
    (hrecords : ∀ e r, Parses e (.inr r) → Records e r) {es extra : List ε} (hparses : List.Forall₂ Parses es outs) :
    Accounted Maps Records (es ++ extra) (lefts outs) (rights outs) ↔
      extra = [] ∧ List.Forall₂ (fun e out => ∀ a, out = .inl a → Maps e a) es outs := by
  induction hparses with
  | nil =>
    constructor
    · intro h
      cases extra with
      | nil => exact ⟨rfl, .nil⟩
      | cons _ _ => cases h
    · rintro ⟨rfl, -⟩
      exact .nil
  | @cons e out es outs hparse hrest ih =>
    rw [forall₂_cons]
    cases out with
    | inl b =>
      constructor
      · intro h
        rcases accounted_cons_iff.mp h with ⟨a, as', heq, hmap, htail⟩ | ⟨r, rs', hrights, -, htail⟩
        · obtain ⟨rfl, rfl⟩ := cons.inj heq
          obtain ⟨hextra, hall⟩ := ih.mp htail
          exact ⟨hextra, fun a heq => Sum.inl.inj heq ▸ hmap, hall⟩
        · -- a record would be missing for the entries that follow
          have hle := htail.length_rights_le hmaps hrest
          have hlength : (rights outs).length = rs'.length + 1 := congrArg length hrights
          omega
      · rintro ⟨hextra, hmap, hall⟩
        exact .mapped (hmap b rfl) (ih.mpr ⟨hextra, hall⟩)
    | inr r =>
      constructor
      · intro h
        rcases accounted_cons_iff.mp h with ⟨a, _, -, hmap, -⟩ | ⟨r', rs', heq, -, htail⟩
        · exact absurd hparse (hmaps e a r hmap)
        · obtain ⟨rfl, rfl⟩ := cons.inj heq
          obtain ⟨hextra, hall⟩ := ih.mp htail
          exact ⟨hextra, nofun, hall⟩
      · rintro ⟨hextra, -, hall⟩
        exact .recorded (hrecords e r hparse) (ih.mpr ⟨hextra, hall⟩)

/-! ## The values of the entries -/

/-- What holds of all values, when it is what holds of the entries that are mapped. -/
theorem forall_mem_lefts_iff {P : α → Prop} {Q : ε → Prop} (hleft : ∀ e a, Parses e (.inl a) → (Q e ↔ P a))
    (hright : ∀ e r, Parses e (.inr r) → Q e) (hparses : List.Forall₂ Parses es outs) :
    (∀ a ∈ lefts outs, P a) ↔ ∀ e ∈ es, Q e := by
  induction hparses with
  | nil => exact iff_of_true nofun nofun
  | @cons e out es outs hparse _ ih =>
    rw [forall_mem_cons, ← ih]
    cases out with
    | inl a =>
      show (∀ b ∈ a :: lefts outs, P b) ↔ _
      rw [forall_mem_cons, hleft e a hparse]
    | inr r => exact (and_iff_right (hright e r hparse)).symm

theorem forall_mem_rights {P : ρ → Prop} (hright : ∀ e r, Parses e (.inr r) → P r)
    (hparses : List.Forall₂ Parses es outs) : ∀ r ∈ rights outs, P r := by
  induction hparses with
  | nil => exact nofun
  | @cons e out es outs hparse _ ih =>
    cases out with
    | inl a => exact ih
    | inr r => exact forall_mem_cons.mpr ⟨hright e r hparse, ih⟩

/-- What holds of all pairs of values, when it is what holds of the pairs of entries that are mapped. -/
theorem pairwise_lefts_iff {R : α → α → Prop} {S : ε → ε → Prop}
    (hleft : ∀ e a e' a', Parses e (.inl a) → Parses e' (.inl a') → (S e e' ↔ R a a'))
    (hright : ∀ e r e', Parses e (.inr r) → S e e' ∧ S e' e) (hparses : List.Forall₂ Parses es outs) :
    (lefts outs).Pairwise R ↔ es.Pairwise S := by
  induction hparses with
  | nil => exact iff_of_true .nil .nil
  | @cons e out es outs hparse hrest ih =>
    rw [pairwise_cons, ← ih]
    cases out with
    | inl a =>
      show (a :: lefts outs).Pairwise R ↔ _
      rw [pairwise_cons]
      apply and_congr_left
      rintro -
      exact forall_mem_lefts_iff (fun e' a' hparse' => hleft e a e' a' hparse hparse')
        (fun e' r hparse' => (hright e' r e hparse').2) hrest
    | inr r => exact (and_iff_right fun e' _ => (hright e r e' hparse).1).symm

end Account
