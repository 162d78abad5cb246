import Mathlib.Order.Basic
import Mathlib.Order.Nat
import ZapTrace.Library.Heap

/-!
# The order of binary heaps

In a heap no item is smaller than its parent, so the root is a least item. While an item moves, the pairs that it takes
part in may be out of order; what keeps the rest in order is that the children of its position are not smaller than the
parent of its position.

## Main results

* `Heap.isHeap_push`, `Heap.isHeap_of_pop`: the operations keep a heap a heap
* `Heap.least_of_pop`: a pop returns a least item
-/

namespace Heap

open List hiding getElem?_eq_some_iff
open Option

variable {α : Type} (lt : α → α → Bool)

/-- The item at `j` is not smaller than the item at `i`. -/
def Above (heap : List α) (i j : ℕ) : Prop := ∀ a b, heap[i]? = some a → heap[j]? = some b → lt b a = false

/-- No item is smaller than its parent. -/
def IsHeap (heap : List α) : Prop := ∀ i, 0 < i → Above lt heap ((i - 1) / 2) i

/-- Only the item at `pos` may be smaller than its parent. -/
structure Rising (heap : List α) (pos : ℕ) : Prop where
  pairs : ∀ i, 0 < i → i ≠ pos → Above lt heap ((i - 1) / 2) i
  grand : 0 < pos → ∀ i, 0 < i → (i - 1) / 2 = pos → Above lt heap ((pos - 1) / 2) i

/-- Only pairs with the item at `pos` may be out of order. -/
structure Sinking (heap : List α) (pos : ℕ) : Prop where
  pairs : ∀ i, 0 < i → i ≠ pos → (i - 1) / 2 ≠ pos → Above lt heap ((i - 1) / 2) i
  grand : 0 < pos → ∀ i, 0 < i → (i - 1) / 2 = pos → Above lt heap ((pos - 1) / 2) i

/-- What is needed of the comparison. -/
structure Comparison : Prop where
  asymm : ∀ {a b}, lt a b = true → lt b a = false
  trans : ∀ {a b c}, lt b a = false → lt c b = false → lt c a = false

variable {lt} {heap : List α} {i j k pos : ℕ}

theorem getElem?_swap (hi : i < heap.length) (hj : j < heap.length) (k : ℕ) :
    (swap heap i j)[k]? = if k = j then heap[i]? else if k = i then heap[j]? else heap[k]? := by
  unfold swap
  rw [getElem?_eq_getElem hi, getElem?_eq_getElem hj]
  simp only [getElem?_set, length_set, hi, hj, if_true, eq_comm (a := k)]

theorem length_swap (heap : List α) (i j : ℕ) : (swap heap i j).length = heap.length := (swap_perm heap i j).length_eq

theorem Above.self (hlt : Comparison lt) (i : ℕ) : Above lt heap i i := by
  intro a b ha hb
  obtain rfl := some.inj (ha.symm.trans hb)
  cases hself : lt a a with
  | false => rfl
  | true => exact hself.symm.trans (hlt.asymm hself)

theorem Above.trans (hlt : Comparison lt) (hj : j < heap.length) (h : Above lt heap i j) (h' : Above lt heap j k) :
    Above lt heap i k :=
  fun a c ha hc => hlt.trans (h a _ ha (getElem?_eq_getElem hj)) (h' _ c (getElem?_eq_getElem hj) hc)

theorem above_swap {p q : ℕ} {i' j' : ℕ} (hp : (swap heap i j)[p]? = heap[i']?) (hq : (swap heap i j)[q]? = heap[j']?)
    (h : Above lt heap i' j') : Above lt (swap heap i j) p q := by
  intro a b ha hb
  rw [hp] at ha
  rw [hq] at hb
  exact h a b ha hb

section Swap

variable (hi : i < heap.length) (hj : j < heap.length)
include hi hj

theorem getElem?_swap_left : (swap heap i j)[i]? = heap[j]? := by
  rw [getElem?_swap hi hj]
  split
  next h => rw [h]
  next => rw [if_pos rfl]

theorem getElem?_swap_right : (swap heap i j)[j]? = heap[i]? := by rw [getElem?_swap hi hj, if_pos rfl]

theorem getElem?_swap_other (h : k ≠ i) (h' : k ≠ j) : (swap heap i j)[k]? = heap[k]? := by
  rw [getElem?_swap hi hj, if_neg h', if_neg h]

end Swap

/-! ## Towards the root -/

/-- An item that is smaller than its parent changes places with it. -/
theorem Rising.move (hlt : Comparison lt) (h : Rising lt heap pos) (hpos : 0 < pos) (hin : pos < heap.length)
    (hless : Above lt heap pos ((pos - 1) / 2)) : Rising lt (swap heap pos ((pos - 1) / 2)) ((pos - 1) / 2) := by
  set par := (pos - 1) / 2 with hpar
  have hpar_lt : par < pos := by omega
  have hpar_in : par < heap.length := by omega
  have hleft := getElem?_swap_left hin hpar_in
  have hright := getElem?_swap_right hin hpar_in
  have hother : ∀ k, k ≠ pos → k ≠ par → (swap heap pos par)[k]? = heap[k]? :=
    fun k => getElem?_swap_other hin hpar_in
  constructor
  · intro i hi hne
    by_cases hip : i = pos
    · -- the parent is below the item now
      rw [hip, ← hpar]
      exact above_swap hright hleft hless
    · by_cases hq : (i - 1) / 2 = par
      · rw [hq]
        have hsibling := h.pairs i hi hip
        rw [hq] at hsibling
        exact above_swap hright (hother i hip hne) (hless.trans hlt hpar_in hsibling)
      · by_cases hq' : (i - 1) / 2 = pos
        · rw [hq']
          exact above_swap hleft (hother i hip hne) (h.grand hpos i hi hq')
        · exact above_swap (hother _ hq' hq) (hother i hip hne) (h.pairs i hi hip)
  · intro hpar_pos i hi hq
    have hgrand := hother ((par - 1) / 2) (by omega) (by omega)
    have habove : Above lt heap ((par - 1) / 2) par := h.pairs par hpar_pos (by omega)
    by_cases hip : i = pos
    · rw [hip]
      exact above_swap hgrand hleft habove
    · have hsibling := h.pairs i hi hip
      rw [hq] at hsibling
      exact above_swap hgrand (hother i hip (by omega)) (habove.trans hlt hpar_in hsibling)

theorem Rising.isHeap (h : Rising lt heap pos) (hplace : 0 < pos → Above lt heap ((pos - 1) / 2) pos) :
    IsHeap lt heap := by
  intro i hi
  by_cases hip : i = pos
  · subst hip
    exact hplace hi
  · exact h.pairs i hi hip

theorem isHeap_siftDown (hlt : Comparison lt) {fuel : ℕ} (hin : pos < heap.length) (hfuel : pos < fuel)
    (h : Rising lt heap pos) : IsHeap lt (siftDown lt fuel heap pos) := by
  induction fuel generalizing heap pos with
  | zero => exact absurd hfuel (Nat.not_lt_zero pos)
  | succ fuel ih =>
    unfold siftDown
    split
    next hroot => exact h.isHeap fun hpos => absurd hroot (Nat.pos_iff_ne_zero.mp hpos)
    next hne =>
      have hpos : 0 < pos := Nat.pos_of_ne_zero hne
      split
      next item parent hitem hparent =>
        split
        next hless =>
          refine ih ?_ (by omega) (h.move hlt hpos hin ?_)
          · rw [length_swap]
            omega
          · intro a b ha hb
            obtain rfl := some.inj (hitem.symm.trans ha)
            obtain rfl := some.inj (hparent.symm.trans hb)
            exact hlt.asymm hless
        next hless =>
          refine h.isHeap fun _ a b ha hb => ?_
          obtain rfl := some.inj (hparent.symm.trans ha)
          obtain rfl := some.inj (hitem.symm.trans hb)
          exact Bool.eq_false_iff.mpr hless
      next hnone =>
        have hparent_in : (pos - 1) / 2 < heap.length := by omega
        exact absurd (getElem?_eq_getElem hparent_in) (hnone _ _ (getElem?_eq_getElem hin))

/-! ## Towards a leaf -/

theorem smallerChild_spec (hlt : Comparison lt) (hchild : 2 * pos + 1 < heap.length) :
    smallerChild lt heap pos < heap.length ∧ (smallerChild lt heap pos - 1) / 2 = pos ∧
      0 < smallerChild lt heap pos ∧
      ∀ i, 0 < i → (i - 1) / 2 = pos → Above lt heap (smallerChild lt heap pos) i := by
  have hchildren : ∀ i, 0 < i → (i - 1) / 2 = pos → i = 2 * pos + 1 ∨ i = 2 * pos + 2 := by
    intro i hi hq
    omega
  unfold smallerChild
  split
  next left right hleft hright =>
    have hin := (List.getElem?_eq_some_iff.mp hright).1
    split
    next hless =>
      refine ⟨hchild, by omega, by omega, fun i hi hq => ?_⟩
      rcases hchildren i hi hq with rfl | rfl
      · exact Above.self hlt _
      · intro a b ha hb
        obtain rfl := some.inj (hleft.symm.trans ha)
        obtain rfl := some.inj (hright.symm.trans hb)
        exact hlt.asymm hless
    next hless =>
      refine ⟨hin, by omega, by omega, fun i hi hq => ?_⟩
      rcases hchildren i hi hq with rfl | rfl
      · intro a b ha hb
        obtain rfl := some.inj (hright.symm.trans ha)
        obtain rfl := some.inj (hleft.symm.trans hb)
        exact Bool.eq_false_iff.mpr hless
      · exact Above.self hlt _
  next hnone =>
    refine ⟨hchild, by omega, by omega, fun i hi hq => ?_⟩
    rcases hchildren i hi hq with rfl | rfl
    · exact Above.self hlt _
    · intro a b ha hb
      exact absurd hb (hnone _ _ (getElem?_eq_getElem hchild))

theorem Sinking.move (hlt : Comparison lt) (h : Sinking lt heap pos) (hchild : 2 * pos + 1 < heap.length) :
    Sinking lt (swap heap pos (smallerChild lt heap pos)) (smallerChild lt heap pos) := by
  obtain ⟨hc_in, hparent, hc_pos, hleast⟩ := smallerChild_spec hlt hchild
  set c := smallerChild lt heap pos
  have hin : pos < heap.length := by omega
  have hleft := getElem?_swap_left hin hc_in
  have hother : ∀ k, k ≠ pos → k ≠ c → (swap heap pos c)[k]? = heap[k]? := fun k => getElem?_swap_other hin hc_in
  constructor
  · intro i hi hne hq
    by_cases hip : i = pos
    · subst hip
      exact above_swap (hother _ (by omega) (by omega)) hleft (h.grand hi c hc_pos hparent)
    · by_cases hq' : (i - 1) / 2 = pos
      · rw [hq']
        exact above_swap hleft (hother i hip hne) (hleast i hi hq')
      · exact above_swap (hother _ hq' hq) (hother i hip hne) (h.pairs i hi hip hq')
  · intro _ i hi hq
    have hpair := h.pairs i hi (by omega) (by omega)
    rw [hq] at hpair
    rw [hparent]
    exact above_swap hleft (hother i (by omega) (by omega)) hpair

theorem Sinking.rising (h : Sinking lt heap pos) (hleaf : heap.length ≤ 2 * pos + 1) : Rising lt heap pos where
  pairs := by
    intro i hi hne a b ha hb
    have hin := (List.getElem?_eq_some_iff.mp hb).1
    exact h.pairs i hi hne (by omega) a b ha hb
  grand := h.grand

theorem isHeap_siftUp (hlt : Comparison lt) {fuel : ℕ} (hin : pos < heap.length) (hfuel : heap.length ≤ fuel + pos)
    (h : Sinking lt heap pos) : IsHeap lt (siftUp lt fuel heap pos) := by
  induction fuel generalizing heap pos with
  | zero => omega
  | succ fuel ih =>
    unfold siftUp
    split
    next hchild =>
      obtain ⟨hc_in, hparent, hc_pos, _⟩ := smallerChild_spec hlt hchild
      refine ih ?_ ?_ (h.move hlt hchild)
      · rw [length_swap]
        exact hc_in
      · rw [length_swap]
        omega
    next hleaf => exact isHeap_siftDown hlt hin hin (h.rising (not_lt.mp hleaf))

/-! ## The operations -/

theorem isHeap_nil : IsHeap lt ([] : List α) := fun _ _ _ _ ha => nomatch ha

theorem isHeap_push (hlt : Comparison lt) (h : IsHeap lt heap) (item : α) : IsHeap lt (push lt heap item) := by
  have hlength : (heap ++ [item]).length = heap.length + 1 := length_append
  apply isHeap_siftDown hlt (by omega) (Nat.lt_succ_self _)
  constructor
  · intro i hi hne a b ha hb
    have hin := (List.getElem?_eq_some_iff.mp hb).1
    rw [getElem?_append_left (by omega)] at ha hb
    exact h i hi a b ha hb
  · intro _ i hi hq a b _ hb
    have hin := (List.getElem?_eq_some_iff.mp hb).1
    omega

theorem isHeap_of_pop (hlt : Comparison lt) (h : IsHeap lt heap) {item : α} {rest : List α}
    (hpop : pop lt heap = some (item, rest)) : IsHeap lt rest := by
  unfold pop at hpop
  split at hpop
  · cases hpop
  · cases hpop
    exact isHeap_nil
  next first next tail =>
    obtain ⟨rfl, rfl⟩ := Prod.mk.inj (some.inj hpop)
    have hlength : ((next :: tail).getLast (cons_ne_nil _ _) :: (next :: tail).dropLast).length =
        tail.length + 1 := by simp
    apply isHeap_siftUp hlt (by omega) (by omega)
    -- below the root nothing has changed
    have hsame : ∀ (i : ℕ) (a : α), 0 < i →
        ((next :: tail).getLast (cons_ne_nil _ _) :: (next :: tail).dropLast)[i]? = some a →
        (first :: next :: tail)[i]? = some a := by
      intro i a hi ha
      cases i with
      | zero => exact absurd hi (lt_irrefl 0)
      | succ i =>
        rw [getElem?_cons_succ, getElem?_dropLast] at ha
        split at ha
        · exact ha
        · cases ha
    constructor
    · intro i hi _ hne a b ha hb
      exact h i hi a b (hsame _ a (Nat.pos_of_ne_zero hne) ha) (hsame i b hi hb)
    · exact fun hzero => absurd hzero (lt_irrefl 0)

theorem IsHeap.above_root (hlt : Comparison lt) (h : IsHeap lt heap) : ∀ i, Above lt heap 0 i := by
  intro i
  induction i using Nat.strong_induction_on with
  | _ i ih =>
    rcases Nat.eq_zero_or_pos i with rfl | hi
    · exact Above.self hlt 0
    · by_cases hin : i < heap.length
      · exact (ih ((i - 1) / 2) (by omega)).trans hlt (by omega) (h i hi)
      · intro a b _ hb
        exact absurd (List.getElem?_eq_some_iff.mp hb).1 hin

/-- **A pop returns a least item.** -/
theorem least_of_pop (hlt : Comparison lt) (h : IsHeap lt heap) {item : α} {rest : List α}
    (hpop : pop lt heap = some (item, rest)) : ∀ b ∈ heap, lt b item = false := by
  intro b hb
  obtain ⟨i, hi, rfl⟩ := getElem_of_mem hb
  have hroot : heap[0]? = some item := by
    unfold pop at hpop
    split at hpop
    · cases hpop
    · cases hpop
      rfl
    · cases hpop
      rfl
  exact h.above_root hlt i item _ hroot (getElem?_eq_getElem hi)

end Heap
