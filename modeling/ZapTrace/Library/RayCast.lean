import Mathlib.Algebra.Group.Int.Even
import Mathlib.Data.Nat.Cast.Order.Ring
import Mathlib.Data.List.Chain
import Mathlib.Logic.Relation

/-!
# Ray casting on the lattice

A ray goes from a cell to the right, and a closed line that is crossed an odd number of times has the cell inside.
The lines here go from cell to cell, each to one of the eight around it, so an edge is crossed where the row below or
above the cell is entered or left, to the right of the cell.

The number of crossings has the same parity at two cells that are next to each other when the line goes through
neither. In a row that is because the same edges are crossed. In a column it is because the line enters the part of the
lower row that is to the right of the cells as often as it leaves it, and each time it crosses the one ray or the other.

## Main results

* `RayCast.even_exits`: a closed line leaves a set as often as it enters it
* `RayCast.even_crossings_iff_of_linked`: cells that are linked off the line are on one side of it
* `RayCast.even_crossings_of_linked_outside`: what is linked with the outside is not inside
-/

namespace RayCast

open List

open Relation (ReflTransGen)

/-! ## Closed lines -/

section Edges

variable {α β : Type}

/-- The edges of a closed line: each point with the one before it, and the first with the last. -/
def edges : List α → List (α × α)
  | [] => []
  | a :: points => (a, (a :: points).getLast (cons_ne_nil a points)) :: points.zip (a :: points)

theorem edges_map (f : α → β) (points : List α) : edges (points.map f) = (edges points).map (Prod.map f f) := by
  cases points with
  | nil => rfl
  | cons a points =>
    have hlast := getLast_map (f := f) (l := a :: points) (cons_ne_nil _ _)
    simp only [map_cons] at hlast
    simp only [edges, map_cons, hlast, Prod.map]
    rw [← map_cons, zip_map]

theorem edges_ends (points : List α) : (edges points).map Prod.fst = points ∧
    ((edges points).map Prod.snd).Perm points := by
  cases points with
  | nil => exact ⟨rfl, .nil⟩
  | cons a points =>
    constructor
    · rw [edges, map_cons, map_fst_zip (by simp)]
    · have hdrop : (points.zip (a :: points)).map Prod.snd = (a :: points).dropLast := by
        induction points generalizing a with
        | nil => rfl
        | cons b points ih => rw [zip_cons_cons, map_cons, ih, dropLast_cons_cons]
      rw [edges, map_cons, hdrop]
      conv_rhs => rw [← dropLast_append_getLast (cons_ne_nil a points)]
      exact (perm_append_singleton _ _).symm

/-- The edges of a line that is closed are those of its steps, and the one from its end to its start. -/
theorem forall_mem_edges {R : α → α → Prop} {a : α} {points : List α} (hsteps : (a :: points).IsChain R)
    (hclosed : R ((a :: points).getLast (cons_ne_nil a points)) a) : ∀ e ∈ edges (a :: points), R e.2 e.1 := by
  have hzip : ∀ e ∈ points.zip (a :: points), R e.2 e.1 := by
    clear hclosed
    induction points generalizing a with
    | nil => simp
    | cons b points ih =>
      rw [isChain_cons_cons] at hsteps
      intro e he
      rcases mem_cons.mp he with rfl | he
      · exact hsteps.1
      · exact ih hsteps.2 e he
  intro e he
  rcases mem_cons.mp he with rfl | he
  · exact hclosed
  · exact hzip e he

theorem mem_of_mem_edges {points : List α} {e : α × α} (h : e ∈ edges points) : e.1 ∈ points ∧ e.2 ∈ points := by
  obtain ⟨hfst, hsnd⟩ := edges_ends points
  exact ⟨hfst ▸ mem_map_of_mem h, hsnd.mem_iff.mp (mem_map_of_mem h)⟩

/-- An edge goes out of a set or into it. -/
def Exits (S : α → Bool) (e : α × α) : Bool := S e.1 != S e.2

theorem even_exits_of_perm (S : α → Bool) {es : List (α × α)} (h : (es.map Prod.snd).Perm (es.map Prod.fst)) :
    Even (es.countP (Exits S)) := by
  have hparity : ∀ es : List (α × α),
      (Even (es.countP (Exits S)) ↔ Even ((es.map Prod.fst).countP S + (es.map Prod.snd).countP S)) := by
    intro es
    induction es with
    | nil => simp
    | cons e es ih =>
      rw [Nat.even_add] at ih ⊢
      simp only [map_cons, countP_cons, Exits]
      by_cases h1 : S e.1 = true <;> by_cases h2 : S e.2 = true <;>
        simp [h1, h2, ih, Nat.even_add_one, -Nat.not_even_iff_odd] <;> tauto
  rw [hparity, h.countP_eq]
  exact ⟨_, rfl⟩

/-- A closed line leaves a set as often as it enters it. -/
theorem even_exits (S : α → Bool) (points : List α) : Even ((edges points).countP (Exits S)) := by
  obtain ⟨hfst, hsnd⟩ := edges_ends points
  exact even_exits_of_perm S (hfst.symm ▸ hsnd)

end Edges

/-! ## Crossings -/

abbrev Cell := ℤ × ℤ

/-- The second cell is one of the eight around the first, or the first. -/
def Around (a b : Cell) : Prop := (a.1 - 1 ≤ b.1 ∧ b.1 ≤ a.1 + 1) ∧ a.2 - 1 ≤ b.2 ∧ b.2 ≤ a.2 + 1

/-- The ray to the right of a cell crosses an edge, one end of which is in the row of the cell and the other in the
next. -/
def Crosses (c : Cell) (e : Cell × Cell) : Bool :=
  (e.1.2 == c.2 && e.2.2 == c.2 + 1 && decide (c.1 < e.1.1)) ||
    (e.2.2 == c.2 && e.1.2 == c.2 + 1 && decide (c.1 < e.2.1))

theorem crosses_iff {c : Cell} {e : Cell × Cell} : Crosses c e = true ↔
    (e.1.2 = c.2 ∧ e.2.2 = c.2 + 1 ∧ c.1 < e.1.1) ∨ (e.2.2 = c.2 ∧ e.1.2 = c.2 + 1 ∧ c.1 < e.2.1) := by
  simp [Crosses, and_assoc]

/-- How often the ray of a cell crosses a closed line. -/
def crossings (c : Cell) (points : List Cell) : ℕ := (edges points).countP (Crosses c)

variable {points : List Cell}

theorem crossings_right {x y : ℤ} (h : (x + 1, y) ∉ points) : crossings (x + 1, y) points = crossings (x, y) points := by
  refine countP_congr fun e he => ?_
  obtain ⟨hfst, hsnd⟩ := mem_of_mem_edges he
  have hne : ∀ p ∈ points, p.2 = y → p.1 ≠ x + 1 := by
    rintro ⟨px, py⟩ hp rfl rfl
    exact h hp
  have h1 := hne _ hfst
  have h2 := hne _ hsnd
  simp only [crosses_iff]
  constructor <;> rintro (⟨ha, hb, hc⟩ | ⟨ha, hb, hc⟩)
  · exact .inl ⟨ha, hb, by omega⟩
  · exact .inr ⟨ha, hb, by omega⟩
  · exact .inl ⟨ha, hb, by have := h1 ha; omega⟩
  · exact .inr ⟨ha, hb, by have := h2 ha; omega⟩

section King

variable (hking : ∀ e ∈ edges points, Around e.2 e.1)

include hking

theorem even_crossings_below {x y : ℤ} (h : (x, y) ∉ points) (h' : (x, y + 1) ∉ points) :
    Even (crossings (x, y + 1) points) ↔ Even (crossings (x, y) points) := by
  -- each exit from the part of row `y + 1` to the right of the cells crosses one of the two rays
  let S : Cell → Bool := fun p => p.2 == y + 1 && decide (x < p.1)
  have hS : ∀ p, S p = true ↔ p.2 = y + 1 ∧ x < p.1 := fun p => by simp [S]
  have hne : ∀ p ∈ points, (p.2 = y → p.1 ≠ x) ∧ (p.2 = y + 1 → p.1 ≠ x) := by
    rintro ⟨px, py⟩ hp
    constructor
    · rintro rfl rfl
      exact h hp
    · rintro hy rfl
      obtain rfl : py = y + 1 := hy
      exact h' hp
  have hexit : ∀ e ∈ edges points, (Exits S e = true ↔ Crosses (x, y) e = true ∨ Crosses (x, y + 1) e = true) ∧
      ¬(Crosses (x, y) e = true ∧ Crosses (x, y + 1) e = true) := by
    intro e he
    obtain ⟨hfst, hsnd⟩ := mem_of_mem_edges he
    obtain ⟨⟨hx, hx'⟩, hy, hy'⟩ := hking e he
    have h1 := hne _ hfst
    have h2 := hne _ hsnd
    have hS1 := hS e.1
    have hS2 := hS e.2
    have hexits : Exits S e = true ↔ ¬(S e.1 = true ↔ S e.2 = true) := by
      rw [Exits]
      cases S e.1 <;> cases S e.2 <;> decide
    rw [hexits, hS1, hS2]
    simp only [crosses_iff]
    constructor
    · constructor
      · intro h
        omega
      · intro h
        omega
    · omega
  have hcount : ∀ es : List (Cell × Cell), (∀ e ∈ es, e ∈ edges points) →
      es.countP (Exits S) = es.countP (Crosses (x, y)) + es.countP (Crosses (x, y + 1)) := by
    intro es hes
    induction es with
    | nil => rfl
    | cons e es ih =>
      obtain ⟨hor, hand⟩ := hexit e (hes e (mem_cons_self ..))
      rw [countP_cons, countP_cons, countP_cons, ih fun e he => hes e (mem_cons_of_mem _ he)]
      by_cases hup : Crosses (x, y) e = true
      · have hdown : ¬Crosses (x, y + 1) e = true := fun hdown => hand ⟨hup, hdown⟩
        rw [if_pos (hor.mpr (.inl hup)), if_pos hup, if_neg hdown]
        omega
      · by_cases hdown : Crosses (x, y + 1) e = true
        · rw [if_pos (hor.mpr (.inr hdown)), if_neg hup, if_pos hdown]
          omega
        · rw [if_neg fun h => (hor.mp h).elim hup hdown, if_neg hup, if_neg hdown]
          rfl
  have heven := even_exits S points
  rw [hcount _ fun _ he => he, Nat.even_add] at heven
  exact heven.symm

/-! ## Sides -/

/-- One step in a row or in a column. -/
def Beside (a b : Cell) : Prop :=
  b = (a.1 + 1, a.2) ∨ a = (b.1 + 1, b.2) ∨ b = (a.1, a.2 + 1) ∨ a = (b.1, b.2 + 1)

theorem even_crossings_beside {a b : Cell} (hbeside : Beside a b) (ha : a ∉ points) (hb : b ∉ points) :
    Even (crossings b points) ↔ Even (crossings a points) := by
  rcases hbeside with rfl | rfl | rfl | rfl
  · rw [crossings_right hb]
  · rw [crossings_right ha]
  · exact even_crossings_below hking ha hb
  · exact (even_crossings_below hking hb ha).symm

end King

/-- The cells are linked by steps in rows and columns to cells that do not have a property. -/
def Linked (P : Cell → Prop) : Cell → Cell → Prop := ReflTransGen fun a b => Beside a b ∧ ¬P b

def Outside (width height : ℕ) (c : Cell) : Prop := c.1 < 0 ∨ width ≤ c.1 ∨ c.2 < 0 ∨ height ≤ c.2

/-- A cell is linked with the outside of a grid, over cells that do not have a property. -/
def LinkedOutside (P : Cell → Prop) (width height : ℕ) (c : Cell) : Prop :=
  ∃ o, Linked P c o ∧ Outside width height o

section Sides

variable {P : Cell → Prop} (hking : ∀ e ∈ edges points, Around e.2 e.1) (hP : ∀ p ∈ points, P p)

include hking hP

/-- Cells that are linked off the line are on one side of it. -/
theorem even_crossings_iff_of_linked {a b : Cell} (ha : ¬P a) (h : Linked P a b) :
    ¬P b ∧ (Even (crossings b points) ↔ Even (crossings a points)) := by
  induction h with
  | refl => exact ⟨ha, Iff.rfl⟩
  | tail _ hstep ih =>
    obtain ⟨hbeside, hfree⟩ := hstep
    obtain ⟨hprev, ih⟩ := ih
    refine ⟨hfree, (even_crossings_beside hking hbeside ?_ ?_).trans ih⟩
    · exact fun h => hprev (hP _ h)
    · exact fun h => hfree (hP _ h)

omit hP in
/-- The cells around a line have it on their one side. -/
theorem even_crossings_of_outside {width height : ℕ} (hgrid : ∀ p ∈ points, ¬Outside width height p) {c : Cell}
    (hc : Outside width height c) : Even (crossings c points) := by
  have hzero : ∀ c : Cell, width ≤ c.1 ∨ c.2 < 0 ∨ height ≤ c.2 → crossings c points = 0 := by
    intro c hc
    refine countP_eq_zero.mpr fun e he => ?_
    obtain ⟨hfst, hsnd⟩ := mem_of_mem_edges he
    have h1 := hgrid _ hfst
    have h2 := hgrid _ hsnd
    rw [crosses_iff]
    simp only [Outside] at h1 h2
    omega
  rcases hc with hleft | hc
  · -- down the column from above the grid, to the left of it
    have hcolumn : ∀ n : ℕ, Even (crossings (c.1, n - 1) points) := by
      intro n
      induction n with
      | zero => rw [hzero _ (.inr (.inl (by simp)))]; exact ⟨0, rfl⟩
      | succ n ih =>
        have hfree : ∀ y, (c.1, y) ∉ points := fun y h => hgrid _ h (.inl hleft)
        have := even_crossings_below hking (hfree (n - 1)) (hfree (n - 1 + 1))
        have hrow : ((n + 1 : ℕ) : ℤ) - 1 = n - 1 + 1 := by omega
        rw [hrow]
        exact this.mpr ih
    rcases Int.lt_or_le c.2 0 with hneg | hnonneg
    · rw [hzero c (.inr (.inl hneg))]
      exact ⟨0, rfl⟩
    · have := hcolumn (c.2.toNat + 1)
      have hrow : ((c.2.toNat + 1 : ℕ) : ℤ) - 1 = c.2 := by omega
      rwa [hrow] at this
  · rw [hzero c hc]
    exact ⟨0, rfl⟩

theorem even_crossings_of_linkedOutside {width height : ℕ} (hgrid : ∀ p ∈ points, ¬Outside width height p) {c : Cell}
    (hc : ¬P c) (h : LinkedOutside P width height c) : Even (crossings c points) := by
  obtain ⟨o, hlinked, houtside⟩ := h
  have hside := (even_crossings_iff_of_linked hking hP hc hlinked).2
  exact hside.mp (even_crossings_of_outside hking hgrid houtside)

end Sides

end RayCast
