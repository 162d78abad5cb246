import Mathlib.Data.List.Nodup
import Mathlib.Data.List.Perm.Basic
import Mathlib.Logic.Relation

/-!
# Flooding

A queue collects everything that a start leads to. An element joins the queue when it is filled, so each is taken from
it once, and as many rounds as there are elements are enough.

## Main results

* `Flood.floodFrom_closed`: after enough rounds nothing is left to fill
* `Flood.mem_flood_iff`: what is filled is what the start leads to
-/

namespace Flood

open List

open Relation (ReflTransGen)

variable {α : Type} [DecidableEq α] (next : α → List α)

/-- The loop: the neighbours of the first element of the queue that are not filled are filled, and join the queue. -/
def floodFrom : ℕ → List α → List α → List α
  | 0, _, filled => filled
  | _ + 1, [], filled => filled
  | rounds + 1, point :: queue, filled =>
    let neighbors := (next point).filter fun candidate => candidate ∉ filled
    floodFrom rounds (queue ++ neighbors) (filled ++ neighbors)

/-- What is filled from a start, in a number of rounds. -/
def flood (rounds : ℕ) (seed : α) : List α := floodFrom next rounds [seed] [seed]

/-- An element leads to its neighbours. -/
def Step (a b : α) : Prop := b ∈ next a

variable {next}

theorem floodFrom_sound {R : α → Prop} (hR : ∀ a b, R a → b ∈ next a → R b) {rounds : ℕ} {queue filled : List α}
    (hqueue : ∀ a ∈ queue, R a) (hfilled : ∀ a ∈ filled, R a) : ∀ a ∈ floodFrom next rounds queue filled, R a := by
  induction rounds generalizing queue filled with
  | zero => exact hfilled
  | succ rounds ih =>
    cases queue with
    | nil => exact hfilled
    | cons point queue =>
      obtain ⟨hpoint, hqueue⟩ := forall_mem_cons.mp hqueue
      have hnew : ∀ a ∈ (next point).filter fun candidate => candidate ∉ filled, R a := fun a ha =>
        hR point a hpoint (mem_of_mem_filter ha)
      exact ih (forall_mem_append.mpr ⟨hqueue, hnew⟩) (forall_mem_append.mpr ⟨hfilled, hnew⟩)

theorem subset_floodFrom {rounds : ℕ} {queue filled : List α} {a : α} (h : a ∈ filled) :
    a ∈ floodFrom next rounds queue filled := by
  induction rounds generalizing queue filled with
  | zero => exact h
  | succ rounds ih =>
    cases queue with
    | nil => exact h
    | cons point queue => exact ih (mem_append_left _ h)

section Rounds

variable {cells : List α}

def unfilled (cells filled : List α) : List α := cells.filter fun a => a ∉ filled

theorem length_unfilled_append (hcells : cells.Nodup) {filled neighbors : List α} (hneighbors : neighbors.Nodup)
    (hmem : ∀ a ∈ neighbors, a ∈ cells ∧ a ∉ filled) :
    (unfilled cells (filled ++ neighbors)).length + neighbors.length = (unfilled cells filled).length := by
  have hperm : (unfilled cells (filled ++ neighbors) ++ neighbors).Perm (unfilled cells filled) := by
    refine (perm_ext_iff_of_nodup ?_ (hcells.filter _)).mpr fun a => ?_
    · refine nodup_append.mpr ⟨hcells.filter _, hneighbors, ?_⟩
      rintro a ha b hb rfl
      have := (mem_filter.mp ha).2
      simp only [mem_append, not_or, decide_eq_true_eq] at this
      exact this.2 hb
    · simp only [unfilled, mem_append, mem_filter, not_or, decide_eq_true_eq]
      constructor
      · rintro (⟨hcell, hfilled, -⟩ | h)
        · exact ⟨hcell, hfilled⟩
        · exact hmem a h
      · rintro ⟨hcell, hfilled⟩
        by_cases h : a ∈ neighbors
        · exact .inr h
        · exact .inl ⟨hcell, hfilled, h⟩
  rw [← length_append, hperm.length_eq]

variable (hcells : cells.Nodup) (hnext : ∀ a, (next a).Nodup ∧ ∀ b ∈ next a, b ∈ cells)

include hcells hnext

/-- After enough rounds the queue is empty: what is filled leads only to what is filled. -/
theorem floodFrom_closed {rounds : ℕ} {queue filled : List α}
    (hrounds : queue.length + (unfilled cells filled).length ≤ rounds)
    (hclosed : ∀ a ∈ filled, a ∈ queue ∨ ∀ b ∈ next a, b ∈ filled) :
    ∀ a ∈ floodFrom next rounds queue filled, ∀ b ∈ next a, b ∈ floodFrom next rounds queue filled := by
  induction rounds generalizing queue filled with
  | zero =>
    have hnil : queue = [] := length_eq_zero_iff.mp (by omega)
    subst hnil
    exact fun a ha => (hclosed a ha).resolve_left not_mem_nil
  | succ rounds ih =>
    cases queue with
    | nil => exact fun a ha => (hclosed a ha).resolve_left not_mem_nil
    | cons point queue =>
      obtain ⟨hnodup, hmem⟩ := hnext point
      have hnew : ∀ a ∈ (next point).filter fun candidate => candidate ∉ filled, a ∈ cells ∧ a ∉ filled :=
        fun a ha => ⟨hmem a (mem_of_mem_filter ha), by simpa using (mem_filter.mp ha).2⟩
      have hlength := length_unfilled_append hcells (hnodup.filter _) hnew
      apply ih
      · rw [length_append]
        rw [length_cons] at hrounds
        omega
      · intro a ha
        rcases mem_append.mp ha with ha | ha
        · rcases hclosed a ha with hqueue | hdone
          · rcases mem_cons.mp hqueue with rfl | hqueue
            · -- the neighbours of the element that is taken are filled now
              refine .inr fun b hb => ?_
              by_cases hfilled : b ∈ filled
              · exact mem_append_left _ hfilled
              · exact mem_append_right _ (mem_filter.mpr ⟨hb, by simpa using hfilled⟩)
            · exact .inl (mem_append_left _ hqueue)
          · exact .inr fun b hb => mem_append_left _ (hdone b hb)
        · exact .inl (mem_append_right _ ha)

/-- What is filled is what the start leads to. -/
theorem mem_flood_iff {rounds : ℕ} (hrounds : cells.length ≤ rounds) {seed a : α} (hseed : seed ∈ cells) :
    a ∈ flood next rounds seed ↔ ReflTransGen (Step next) seed a := by
  constructor
  · intro h
    refine floodFrom_sound (R := ReflTransGen (Step next) seed) (fun b c hb hc => hb.tail hc) ?_ ?_ a h
    · exact fun b hb => mem_singleton.mp hb ▸ .refl
    · exact fun b hb => mem_singleton.mp hb ▸ .refl
  · intro h
    have hone : ∀ b ∈ [seed], b ∈ cells ∧ b ∉ ([] : List α) := fun b hb =>
      ⟨mem_singleton.mp hb ▸ hseed, not_mem_nil⟩
    have hlength := length_unfilled_append hcells (nodup_singleton seed) hone
    have hall : (unfilled cells []).length ≤ cells.length := length_filter_le _ _
    have henough : [seed].length + (unfilled cells [seed]).length ≤ rounds := by
      rw [nil_append, length_singleton] at hlength
      rw [length_singleton]
      omega
    have hclosed := floodFrom_closed hcells hnext henough fun b hb => .inl hb
    induction h with
    | refl => exact subset_floodFrom (mem_singleton_self seed)
    | tail _ hstep ih => exact hclosed _ ih _ hstep

end Rounds

end Flood
