import Mathlib.Algebra.Order.Group.Defs
import Mathlib.Algebra.Order.Monoid.Unbundled.Basic
import Mathlib.Data.List.Basic
import Mathlib.Data.List.Chain
import Mathlib.Tactic.Abel

/-!
# Polylines

A polyline is a list of points, in any space where a distance satisfies the triangle inequality. A polyline is thinned
by dropping each point that is near the last point kept. Thinning makes a polyline no longer, keeps the length of a
polyline whose neighbours are equal or far apart, and works piece by piece where a point is far from all points before
it.

## Main results

* `len_split`, `le_len`: lengths of parts, and the distance of the ends
* `len_thin_of_exact`: lengths of thinned polylines
* `thinFrom_append`, `len_thin_split`: thinning piece by piece
* `mem_thin_of_exact`, `mem_pieces_thin_of_exact`: thinning where points that are not far apart are equal
* `len_map`, `thinFrom_map`: polylines under isometries
-/

namespace Polyline

open List hiding getElem?_eq_some_iff

variable {α β K : Type}

/-- The pairs of neighbours. -/
def pieces : List α → List (α × α)
  | a :: b :: rest => (a, b) :: pieces (b :: rest)
  | _ => []

/-- The sum of the distances of neighbours. -/
def len [AddCommGroup K] (d : α → α → K) : List α → K
  | a :: b :: rest => d a b + len d (b :: rest)
  | _ => 0

section Thinning

variable [LinearOrder K] (d : α → α → K) (tol : K)

/-- What is kept after a point. -/
def thinFrom (last : α) : List α → List α
  | [] => []
  | a :: rest => if tol < d last a then a :: thinFrom a rest else thinFrom last rest

/-- The first point, and each point that is not near the last one kept. -/
def thin : List α → List α
  | [] => []
  | a :: rest => a :: thinFrom d tol a rest

end Thinning

/-! ## Pieces -/

theorem length_pieces (xs : List α) : (pieces xs).length = xs.length - 1 := by
  induction xs with
  | nil => rfl
  | cons a xs ih =>
    cases xs with
    | nil => rfl
    | cons b rest =>
      rw [pieces, length_cons, ih]
      rfl
variable {xs : List α}

theorem mem_of_mem_pieces {piece : α × α} (h : piece ∈ pieces xs) : piece.1 ∈ xs ∧ piece.2 ∈ xs := by
  induction xs with
  | nil => cases h
  | cons a xs ih =>
    cases xs with
    | nil => cases h
    | cons b rest =>
      rcases mem_cons.mp h with rfl | h
      · exact ⟨mem_cons_self, mem_cons_of_mem a mem_cons_self⟩
      · exact ⟨mem_cons_of_mem a (ih h).1, mem_cons_of_mem a (ih h).2⟩

theorem rel_of_mem_pieces {R : α → α → Prop} (hxs : xs.IsChain R) {piece : α × α} (h : piece ∈ pieces xs) :
    R piece.1 piece.2 := by
  induction xs with
  | nil => cases h
  | cons a xs ih =>
    cases xs with
    | nil => cases h
    | cons b rest =>
      obtain ⟨hab, hrest⟩ := isChain_cons_cons.mp hxs
      rcases mem_cons.mp h with rfl | h
      · exact hab
      · exact ih hrest h

theorem getElem?_pieces {i : ℕ} {a b : α} : (pieces xs)[i]? = some (a, b) ↔ xs[i]? = some a ∧ xs[i + 1]? = some b := by
  induction xs generalizing i with
  | nil => simp [pieces]
  | cons c xs ih =>
    cases xs with
    | nil => simp [pieces]
    | cons c' rest =>
      cases i with
      | zero => simp [pieces]
      | succ i =>
        rw [pieces, getElem?_cons_succ, ih]
        simp

theorem eq_of_getElem?_pieces {i : ℕ} {a b : α} (h : (pieces xs)[i]? = some (a, b)) :
    xs = xs.take i ++ a :: b :: xs.drop (i + 2) := by
  obtain ⟨ha, hb⟩ := getElem?_pieces.mp h
  obtain ⟨hi, rfl⟩ := List.getElem?_eq_some_iff.mp ha
  obtain ⟨hi', rfl⟩ := List.getElem?_eq_some_iff.mp hb
  rw [getElem_cons_drop, getElem_cons_drop, take_append_drop]

/-! ## Lengths -/

section Lengths

variable [AddCommGroup K] {d : α → α → K}

theorem len_eq_sum (xs : List α) : len d xs = ((pieces xs).map fun piece => d piece.1 piece.2).sum := by
  induction xs with
  | nil => rfl
  | cons a xs ih =>
    cases xs with
    | nil => rfl
    | cons b rest => rw [len, pieces, ih, map_cons, sum_cons]

theorem len_singleton (a : α) : len d [a] = 0 := rfl

theorem len_cons_cons (a b : α) (xs : List α) : len d (a :: b :: xs) = d a b + len d (b :: xs) := rfl

theorem len_split (xs : List α) (a : α) (ys : List α) :
    len d (xs ++ a :: ys) = len d (xs ++ [a]) + len d (a :: ys) := by
  induction xs with
  | nil => rw [nil_append, nil_append, len_singleton, zero_add]
  | cons b xs ih =>
    cases xs with
    | nil => simp only [cons_append, nil_append, len_cons_cons, len_singleton, add_zero]
    | cons c xs =>
      simp only [cons_append, len_cons_cons] at ih ⊢
      rw [ih, add_assoc]

theorem len_around (xs : List α) (a b : α) (ys : List α) :
    len d (xs ++ a :: b :: ys) = len d (xs ++ [a]) + d a b + len d (b :: ys) := by
  rw [len_split, len_cons_cons, add_assoc]

theorem len_map {d' : β → β → K} {f : β → α} (hf : ∀ x y, d (f x) (f y) = d' x y) (xs : List β) :
    len d (xs.map f) = len d' xs := by
  induction xs with
  | nil => rfl
  | cons a xs ih =>
    cases xs with
    | nil => rfl
    | cons b rest =>
      rw [map_cons, map_cons, len_cons_cons, hf, len_cons_cons, ← map_cons, ih]

end Lengths

/-! ## Thinning -/

section Thinning

variable [LinearOrder K] {d : α → α → K} {tol : K}

theorem thinFrom_cons (last a : α) (rest : List α) : thinFrom d tol last (a :: rest) =
    if tol < d last a then a :: thinFrom d tol a rest else thinFrom d tol last rest := rfl

theorem thinFrom_map {d' : β → β → K} {f : β → α} (hf : ∀ x y, d (f x) (f y) = d' x y) (last : β) (xs : List β) :
    thinFrom d tol (f last) (xs.map f) = (thinFrom d' tol last xs).map f := by
  induction xs generalizing last with
  | nil => rfl
  | cons a xs ih =>
    rw [map_cons, thinFrom_cons, thinFrom_cons, hf]
    split
    · rw [ih, map_cons]
    · exact ih last

theorem mem_of_mem_thinFrom {last x : α} {xs : List α} (h : x ∈ thinFrom d tol last xs) : x ∈ xs := by
  induction xs generalizing last with
  | nil => exact h
  | cons a xs ih =>
    rw [thinFrom_cons] at h
    split at h
    · rcases mem_cons.mp h with rfl | h
      · exact mem_cons_self
      · exact mem_cons_of_mem a (ih h)
    · exact mem_cons_of_mem a (ih h)

theorem isChain_thinFrom (last : α) (xs : List α) :
    (last :: thinFrom d tol last xs).IsChain fun a b => tol < d a b := by
  induction xs generalizing last with
  | nil => exact List.IsChain.singleton last
  | cons a xs ih =>
    rw [thinFrom_cons]
    split
    next hfar => exact isChain_cons_cons.mpr ⟨hfar, ih a⟩
    next => exact ih last

/-- A point that is far from all points before it is kept, and the rest starts from it. -/
theorem thinFrom_append {last b : α} {xs : List α} (h : ∀ a ∈ last :: xs, tol < d a b) (ys : List α) :
    thinFrom d tol last (xs ++ b :: ys) = thinFrom d tol last xs ++ b :: thinFrom d tol b ys := by
  induction xs generalizing last with
  | nil =>
    rw [nil_append, thinFrom_cons, if_pos (h last mem_cons_self)]
    rfl
  | cons a xs ih =>
    rw [cons_append, thinFrom_cons, thinFrom_cons]
    split
    · rw [ih fun c hc => h c (mem_cons_of_mem last hc), cons_append]
    · refine ih fun c hc => h c ?_
      rcases mem_cons.mp hc with rfl | hc
      · exact mem_cons_self
      · exact mem_cons_of_mem last (mem_cons_of_mem a hc)

end Thinning

/-! ## Thinning where points that are not far apart are equal -/

section Exact

variable [LinearOrder K] {d : α → α → K} {tol : K}

theorem mem_thin_of_exact {xs : List α} (h : ∀ a ∈ xs, ∀ b ∈ xs, ¬ tol < d a b → a = b) {x : α} (hx : x ∈ xs) :
    x ∈ thin d tol xs := by
  have hfrom : ∀ (xs : List α) (last : α), (∀ a ∈ last :: xs, ∀ b ∈ last :: xs, ¬ tol < d a b → a = b) →
      ∀ x ∈ xs, x ∈ last :: thinFrom d tol last xs := by
    intro xs
    induction xs with
    | nil => exact fun _ _ x hx => absurd hx not_mem_nil
    | cons b xs ih =>
      intro last hexact x hx
      have hrest : ∀ a ∈ b :: xs, ∀ c ∈ b :: xs, ¬ tol < d a c → a = c := fun a ha c hc =>
        hexact a (mem_cons_of_mem last ha) c (mem_cons_of_mem last hc)
      have hmem : x ∈ b :: thinFrom d tol b xs := by
        rcases mem_cons.mp hx with rfl | hx
        · exact mem_cons_self
        · exact ih b hrest x hx
      rw [thinFrom_cons]
      split
      next => exact mem_cons_of_mem last hmem
      next hnear =>
        obtain rfl := hexact last mem_cons_self b (mem_cons_of_mem last mem_cons_self) hnear
        exact hmem
  cases xs with
  | nil => exact hx
  | cons a xs =>
    rcases mem_cons.mp hx with rfl | hx
    · exact mem_cons_self
    · exact hfrom xs a h x hx

theorem mem_pieces_thin_of_exact {xs : List α} (h : ∀ a ∈ xs, ∀ b ∈ xs, ¬ tol < d a b → a = b) {piece : α × α}
    (hpiece : piece ∈ pieces xs) (hne : piece.1 ≠ piece.2) : piece ∈ pieces (thin d tol xs) := by
  have hfrom : ∀ (xs : List α) (last : α), (∀ a ∈ last :: xs, ∀ b ∈ last :: xs, ¬ tol < d a b → a = b) →
      piece ∈ pieces (last :: xs) → piece ∈ pieces (last :: thinFrom d tol last xs) := by
    intro xs
    induction xs with
    | nil => exact fun _ _ hpiece => hpiece
    | cons b xs ih =>
      intro last hexact hpiece
      have hrest : ∀ a ∈ b :: xs, ∀ c ∈ b :: xs, ¬ tol < d a c → a = c := fun a ha c hc =>
        hexact a (mem_cons_of_mem last ha) c (mem_cons_of_mem last hc)
      rw [pieces] at hpiece
      rw [thinFrom_cons]
      split
      next =>
        rcases mem_cons.mp hpiece with rfl | hpiece
        · exact mem_cons_self
        · exact mem_cons_of_mem _ (ih b hrest hpiece)
      next hnear =>
        obtain rfl := hexact last mem_cons_self b (mem_cons_of_mem last mem_cons_self) hnear
        rcases mem_cons.mp hpiece with rfl | hpiece
        · exact absurd rfl hne
        · exact ih last hrest hpiece
  cases xs with
  | nil => exact hpiece
  | cons a xs => exact hfrom xs a h hpiece

end Exact

/-! ## Lengths of thinned polylines -/

variable [AddCommGroup K] [LinearOrder K] {d : α → α → K} {tol : K}

/-- A polyline in which points that are not far apart are equal keeps its length. -/
theorem len_thin_of_exact (hself : ∀ a, d a a = 0) (h : ∀ a ∈ xs, ∀ b ∈ xs, ¬ tol < d a b → a = b) :
    len d (thin d tol xs) = len d xs := by
  have hfrom : ∀ (xs : List α) (last : α), (∀ a ∈ last :: xs, ∀ b ∈ last :: xs, ¬ tol < d a b → a = b) →
      len d (last :: thinFrom d tol last xs) = len d (last :: xs) := by
    intro xs
    induction xs with
    | nil => exact fun _ _ => rfl
    | cons b xs ih =>
      intro last hexact
      have hrest : ∀ a ∈ b :: xs, ∀ c ∈ b :: xs, ¬ tol < d a c → a = c := fun a ha c hc =>
        hexact a (mem_cons_of_mem last ha) c (mem_cons_of_mem last hc)
      rw [thinFrom_cons]
      split
      next => rw [len_cons_cons, len_cons_cons, ih b hrest]
      next hnear =>
        obtain rfl := hexact last mem_cons_self b (mem_cons_of_mem last mem_cons_self) hnear
        rw [ih last hrest, len_cons_cons, hself, zero_add]
  cases xs with
  | nil => rfl
  | cons a xs => exact hfrom xs a h

/-- Neighbours are equal or far apart. -/
def Tidy (d : α → α → K) (tol : K) (xs : List α) : Prop := xs.IsChain fun a b => a = b ∨ tol < d a b

omit [AddCommGroup K] in
theorem tidy_of_isChain (h : xs.IsChain fun a b => tol < d a b) : Tidy d tol xs :=
  h.imp fun _ _ => Or.inr

theorem len_thinFrom_split (hself : ∀ a, d a a = 0) (htol : 0 ≤ tol) {last : α} {a : α}
    (h : Tidy d tol (last :: (xs ++ [a]))) (ys : List α) :
    len d (last :: thinFrom d tol last (xs ++ a :: ys)) =
      len d (last :: (xs ++ [a])) + len d (a :: thinFrom d tol a ys) := by
  have hnear : ∀ b, ¬ tol < d b b := fun b => by
    rw [hself]
    exact not_lt.mpr htol
  induction xs generalizing last with
  | nil =>
    obtain ⟨hstep, -⟩ := isChain_cons_cons.mp h
    rw [nil_append, nil_append, thinFrom_cons, len_cons_cons, len_singleton, add_zero]
    rcases hstep with rfl | hfar
    · rw [if_neg (hnear last), hself, zero_add]
    · rw [if_pos hfar, len_cons_cons]
  | cons b xs ih =>
    obtain ⟨hstep, hrest⟩ := isChain_cons_cons.mp h
    rw [cons_append, cons_append, thinFrom_cons, len_cons_cons]
    rcases hstep with rfl | hfar
    · rw [if_neg (hnear last), ih hrest, hself, zero_add]
    · rw [if_pos hfar, len_cons_cons, ih hrest, add_assoc]

theorem len_thinFrom_of_tidy (hself : ∀ a, d a a = 0) (htol : 0 ≤ tol) {last : α} (h : Tidy d tol (last :: xs)) :
    len d (last :: thinFrom d tol last xs) = len d (last :: xs) := by
  cases xs using reverseRecOn with
  | nil => rfl
  | append_singleton xs a =>
    rw [len_thinFrom_split hself htol h [], thinFrom, len_singleton, add_zero]

theorem len_thin_split (hself : ∀ a, d a a = 0) (htol : 0 ≤ tol) {a : α} (h : Tidy d tol (xs ++ [a])) (ys : List α) :
    len d (thin d tol (xs ++ a :: ys)) = len d (xs ++ [a]) + len d (a :: thinFrom d tol a ys) := by
  cases xs with
  | nil => rw [nil_append, nil_append, thin, len_singleton, zero_add]
  | cons b xs => exact len_thinFrom_split hself htol h ys

variable [IsOrderedAddMonoid K]

theorem le_len (htriangle : ∀ a b c, d a c ≤ d a b + d b c) (a : α) (xs : List α) (b : α) :
    d a b ≤ len d (a :: (xs ++ [b])) := by
  induction xs generalizing a with
  | nil => rw [nil_append, len_cons_cons, len_singleton, add_zero]
  | cons c xs ih =>
    rw [cons_append, len_cons_cons]
    calc d a b ≤ d a c + d c b := htriangle a c b
      _ ≤ d a c + len d (c :: (xs ++ [b])) := by gcongr; exact ih c

theorem len_cons_le (hnonneg : ∀ a b, 0 ≤ d a b) (htriangle : ∀ a b c, d a c ≤ d a b + d b c) (a b : α)
    (xs : List α) : len d (a :: xs) ≤ d a b + len d (b :: xs) := by
  cases xs with
  | nil => rw [len_singleton, len_singleton, add_zero]; exact hnonneg a b
  | cons c xs =>
    rw [len_cons_cons, len_cons_cons, ← add_assoc]
    gcongr
    exact htriangle a b c

theorem len_thinFrom_concat_le (hnonneg : ∀ a b, 0 ≤ d a b) (htriangle : ∀ a b c, d a c ≤ d a b + d b c) (last : α)
    (xs : List α) (b : α) : len d (last :: (thinFrom d tol last xs ++ [b])) ≤ len d (last :: (xs ++ [b])) := by
  induction xs generalizing last with
  | nil => exact le_refl _
  | cons a xs ih =>
    rw [thinFrom_cons]
    split
    · rw [cons_append, len_cons_cons, cons_append, len_cons_cons]
      gcongr
      exact ih a
    · exact (ih last).trans (len_cons_le hnonneg htriangle last a (xs ++ [b]))

end Polyline
