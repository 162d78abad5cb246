import Mathlib.Data.List.Basic

/-!
# Binary heaps on lists

The heap of Python's `heapq`: a list in which the children of position `i` stand at `2 * i + 1` and
`2 * i + 2`. A push appends an item and moves it towards the root; a pop takes the root, puts the last
item in its place, moves that to a leaf along the smaller children and from there towards the root
again. Only the order of the items is used.

## Main results

* `Heap.push_perm`, `Heap.pop_perm`: no item is lost, made up or changed
-/

namespace Heap

variable {α : Type} (lt : α → α → Bool)

/-- Exchange the items at two positions. -/
def swap (heap : List α) (i j : ℕ) : List α :=
  match heap[i]?, heap[j]? with
  | some a, some b => (heap.set i b).set j a
  | _, _ => heap

/-- Move the item at `pos` towards the root while it is smaller than its parent. -/
def siftDown : ℕ → List α → ℕ → List α
  | 0, heap, _ => heap
  | fuel + 1, heap, pos =>
    if pos = 0 then heap
    else
      match heap[pos]?, heap[(pos - 1) / 2]? with
      | some item, some parent =>
        if lt item parent then siftDown fuel (swap heap pos ((pos - 1) / 2)) ((pos - 1) / 2) else heap
      | _, _ => heap

/-- The child of `pos` that moves up: the left one when it is smaller than the right one or alone. -/
def smallerChild (heap : List α) (pos : ℕ) : ℕ :=
  match heap[2 * pos + 1]?, heap[2 * pos + 2]? with
  | some left, some right => if lt left right then 2 * pos + 1 else 2 * pos + 2
  | _, _ => 2 * pos + 1

/-- Move the item at `pos` to a leaf along the smaller children, and then towards the root. -/
def siftUp : ℕ → List α → ℕ → List α
  | 0, heap, pos => siftDown lt heap.length heap pos
  | fuel + 1, heap, pos =>
    if 2 * pos + 1 < heap.length then
      siftUp fuel (swap heap pos (smallerChild lt heap pos)) (smallerChild lt heap pos)
    else siftDown lt heap.length heap pos

/-- `heappush` -/
def push (heap : List α) (item : α) : List α :=
  siftDown lt (heap.length + 1) (heap ++ [item]) heap.length

/-- `heappop` -/
def pop : List α → Option (α × List α)
  | [] => none
  | [item] => some (item, [])
  | item :: next :: rest =>
    -- the last item takes the place of the root
    some (item, siftUp lt (rest.length + 1)
      ((next :: rest).getLast (List.cons_ne_nil _ _) :: (next :: rest).dropLast) 0)

theorem swap_perm (heap : List α) (i j : ℕ) : (swap heap i j).Perm heap := by
  unfold swap
  split
  · rename_i a b ha hb
    obtain ⟨hi, rfl⟩ := List.getElem?_eq_some_iff.mp ha
    obtain ⟨hj, rfl⟩ := List.getElem?_eq_some_iff.mp hb
    exact List.set_set_perm hi hj
  · exact List.Perm.refl _

theorem siftDown_perm (fuel : ℕ) (heap : List α) (pos : ℕ) :
    (siftDown lt fuel heap pos).Perm heap := by
  induction fuel generalizing heap pos with
  | zero => exact List.Perm.refl _
  | succ fuel ih =>
    unfold siftDown
    split
    · exact List.Perm.refl _
    · split
      · split
        · exact (ih _ _).trans (swap_perm heap _ _)
        · exact List.Perm.refl _
      · exact List.Perm.refl _

theorem siftUp_perm (fuel : ℕ) (heap : List α) (pos : ℕ) :
    (siftUp lt fuel heap pos).Perm heap := by
  induction fuel generalizing heap pos with
  | zero => exact siftDown_perm lt _ _ _
  | succ fuel ih =>
    unfold siftUp
    split
    · exact (ih _ _).trans (swap_perm heap _ _)
    · exact siftDown_perm lt _ _ _

theorem push_perm (heap : List α) (item : α) : (push lt heap item).Perm (item :: heap) :=
  (siftDown_perm lt _ _ _).trans (List.perm_append_singleton item heap)

theorem pop_perm {heap rest : List α} {item : α} (h : pop lt heap = some (item, rest)) :
    heap.Perm (item :: rest) := by
  unfold pop at h
  split at h
  · cases h
  · cases h
    exact List.Perm.refl _
  · rename_i first next tail
    obtain ⟨rfl, rfl⟩ := Prod.mk.inj (Option.some.inj h)
    refine List.Perm.cons _ (List.Perm.trans ?_ (siftUp_perm lt _ _ _).symm)
    have hsplit := List.dropLast_append_getLast (List.cons_ne_nil next tail)
    conv_lhs => rw [← hsplit]
    exact List.perm_append_singleton _ _

theorem pop_eq_none_iff {heap : List α} : pop lt heap = none ↔ heap = [] := by
  cases heap with
  | nil => exact iff_of_true rfl rfl
  | cons item rest =>
    refine iff_of_false ?_ (List.cons_ne_nil item rest)
    cases rest <;> exact Option.some_ne_none _

theorem mem_push {heap : List α} {item x : α} : x ∈ push lt heap item ↔ x = item ∨ x ∈ heap := by
  rw [(push_perm lt heap item).mem_iff, List.mem_cons]

theorem mem_of_pop {heap rest : List α} {item : α} (h : pop lt heap = some (item, rest)) {x : α} :
    x ∈ heap ↔ x = item ∨ x ∈ rest := by
  rw [(pop_perm lt h).mem_iff, List.mem_cons]

end Heap
