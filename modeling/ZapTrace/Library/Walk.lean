import Mathlib.Data.List.Perm.Basic
import Mathlib.Data.List.Range
import Mathlib.Tactic.Set

/-!
# Collecting groups breadth first

The numbers below `n` are collected in groups: the first number that is in no group starts one, and a queue
adds what its members lead to and what is in no group yet. However the numbers lead to each other, each is in
one group.

## Main results

* `Walk.walk_fuel`: the queue is empty in time
* `Walk.flatten_groups_perm`: every number is in one group, once
* `Walk.groups_of_path`: numbers in a row are one group, in order
-/

namespace Walk

open List

variable (next : ℕ → List ℕ)

/-- A number that is neither visited nor processed joins the queue. -/
def enqueue (processed : List ℕ) (s : List ℕ × List ℕ) (m : ℕ) : List ℕ × List ℕ :=
  if m ∈ s.2 ∨ m ∈ processed then s else (s.1 ++ [m], s.2 ++ [m])

/-- The loop over the queue: queue, visited numbers and processed numbers. -/
def walkFrom : ℕ → List ℕ → List ℕ → List ℕ → List ℕ
  | 0, _, _, _ => []
  | _ + 1, [], _, _ => []
  | fuel + 1, idx :: queue, visited, processed =>
    if idx ∈ processed then walkFrom fuel queue visited processed
    else
      let s := (next idx).foldl (enqueue (processed ++ [idx])) (queue, visited)
      idx :: walkFrom fuel s.1 s.2 (processed ++ [idx])

/-- The group that starts at a number, in the order of processing. -/
def walk (n start : ℕ) (processed : List ℕ) : List ℕ := walkFrom next n [start] [start] processed

/-- The groups of numbers that are not processed. -/
def groupsFrom (n : ℕ) : List ℕ → List ℕ → List (List ℕ)
  | [], _ => []
  | idx :: rest, processed =>
    if idx ∈ processed then groupsFrom n rest processed
    else walk next n idx processed :: groupsFrom n rest (processed ++ walk next n idx processed)

/-- The groups of the numbers below `n`. -/
def groups (n : ℕ) : List (List ℕ) := groupsFrom next n (range n) []

variable {next} {n : ℕ}

/-! ## The queue -/

theorem mem_foldl_enqueue {processed ms : List ℕ} {s : List ℕ × List ℕ} {i : ℕ}
    (h : i ∈ (ms.foldl (enqueue processed) s).1) : i ∈ s.1 ∨ i ∈ ms := by
  induction ms generalizing s with
  | nil => exact .inl h
  | cons m ms ih =>
    rw [foldl_cons] at h
    rcases ih h with hqueue | hms
    · rw [enqueue] at hqueue
      split at hqueue
      · exact .inl hqueue
      · rcases mem_append.mp hqueue with hqueue | hm
        · exact .inl hqueue
        · exact .inr (mem_cons.mpr (.inl (mem_singleton.mp hm)))
    · exact .inr (mem_cons_of_mem _ hms)

/-- The numbers that have not joined the queue yet. -/
def unvisited (n : ℕ) (visited : List ℕ) : List ℕ := (range n).filter fun i => i ∉ visited

theorem length_foldl_enqueue_le (processed : List ℕ) {ms : List ℕ} (s : List ℕ × List ℕ)
    (h : ∀ m ∈ ms, m < n) :
    (ms.foldl (enqueue processed) s).1.length +
        (unvisited n (ms.foldl (enqueue processed) s).2).length ≤
      s.1.length + (unvisited n s.2).length := by
  induction ms generalizing s with
  | nil => exact le_rfl
  | cons m ms ih =>
    rw [foldl_cons]
    refine (ih _ fun k hk => h k (mem_cons_of_mem _ hk)).trans ?_
    rw [enqueue]
    split
    · exact le_rfl
    · rename_i hnew
      have hm : m ∈ unvisited n s.2 := mem_filter.mpr
        ⟨mem_range.mpr (h m mem_cons_self), by simpa using (not_or.mp hnew).1⟩
      have hless : unvisited n (s.2 ++ [m]) = (unvisited n s.2).filter fun i => i ≠ m := by
        rw [unvisited, unvisited, filter_filter]
        refine filter_congr fun i _ => ?_
        simp [and_comm]
      have hlt : ((unvisited n s.2).filter fun i => i ≠ m).length < (unvisited n s.2).length :=
        length_filter_lt_length_iff_exists.mpr ⟨m, hm, by simp⟩
      rw [hless, length_append, length_singleton]
      omega

theorem walkFrom_fuel (hnext : ∀ i, ∀ m ∈ next i, m < n) {fuel : ℕ} {queue visited processed : List ℕ}
    (h : queue.length + (unvisited n visited).length ≤ fuel) (k : ℕ) :
    walkFrom next (fuel + k) queue visited processed = walkFrom next fuel queue visited processed := by
  induction fuel generalizing queue visited processed with
  | zero =>
    have hnil : queue = [] := length_eq_zero_iff.mp (by omega)
    subst hnil
    cases k <;> rfl
  | succ fuel ih =>
    rw [Nat.succ_add]
    cases queue with
    | nil => rfl
    | cons idx queue =>
      rw [length_cons] at h
      simp only [walkFrom]
      split
      · exact ih (by omega)
      · rw [ih]
        have hle := length_foldl_enqueue_le (processed ++ [idx]) (queue, visited) (hnext idx)
        dsimp only at hle
        omega

/-- **The walk ends**: more steps find nothing more. -/
theorem walk_fuel (hnext : ∀ i, ∀ m ∈ next i, m < n) {start : ℕ} (hstart : start < n) (processed : List ℕ)
    (k : ℕ) : walkFrom next (n + k) [start] [start] processed = walk next n start processed := by
  refine walkFrom_fuel hnext ?_ k
  have hmem : start ∈ range n := mem_range.mpr hstart
  have hlt : (unvisited n [start]).length < (range n).length :=
    length_filter_lt_length_iff_exists.mpr ⟨start, hmem, by simp⟩
  rw [length_range] at hlt
  rw [length_singleton]
  omega

/-! ## Groups -/

theorem walkFrom_spec (hnext : ∀ i, ∀ m ∈ next i, m < n) (fuel : ℕ) {queue : List ℕ}
    (visited processed : List ℕ) (hqueue : ∀ i ∈ queue, i < n) :
    (walkFrom next fuel queue visited processed).Nodup ∧
      ∀ i ∈ walkFrom next fuel queue visited processed, i < n ∧ i ∉ processed := by
  induction fuel generalizing queue visited processed with
  | zero => exact ⟨nodup_nil, fun i hi => absurd hi not_mem_nil⟩
  | succ fuel ih =>
    cases queue with
    | nil => exact ⟨nodup_nil, fun i hi => absurd hi not_mem_nil⟩
    | cons idx queue =>
      have htail : ∀ i ∈ queue, i < n := fun i hi => hqueue i (mem_cons_of_mem _ hi)
      simp only [walkFrom]
      split
      · exact ih visited processed htail
      · rename_i hidx
        set s := (next idx).foldl (enqueue (processed ++ [idx])) (queue, visited)
        have hqueue' : ∀ i ∈ s.1, i < n := fun i hi =>
          (mem_foldl_enqueue hi).elim (htail i) (hnext idx i)
        obtain ⟨hnodup, hmem⟩ := ih s.2 (processed ++ [idx]) hqueue'
        refine ⟨nodup_cons.mpr ⟨fun hin => (hmem idx hin).2 (by simp), hnodup⟩, ?_⟩
        intro i hi
        rcases mem_cons.mp hi with rfl | hi
        · exact ⟨hqueue i mem_cons_self, hidx⟩
        · exact ⟨(hmem i hi).1, fun hin => (hmem i hi).2 (mem_append_left _ hin)⟩

theorem start_mem_walk {start : ℕ} {processed : List ℕ} (hn : 0 < n) (h : start ∉ processed) :
    start ∈ walk next n start processed := by
  obtain ⟨m, rfl⟩ := Nat.exists_eq_add_of_lt hn
  rw [Nat.zero_add, walk, walkFrom, if_neg h]
  exact mem_cons_self

/-- The groups have every number that is not processed, once. -/
theorem groupsFrom_spec (hnext : ∀ i, ∀ m ∈ next i, m < n) {idxs : List ℕ} (processed : List ℕ)
    (hidxs : ∀ i ∈ idxs, i < n) :
    (groupsFrom next n idxs processed).flatten.Nodup ∧
      (∀ i ∈ (groupsFrom next n idxs processed).flatten, i < n ∧ i ∉ processed) ∧
      ∀ i ∈ idxs, i ∈ processed ∨ i ∈ (groupsFrom next n idxs processed).flatten := by
  induction idxs generalizing processed with
  | nil =>
    exact ⟨nodup_nil, fun i hi => absurd hi not_mem_nil, fun i hi => absurd hi not_mem_nil⟩
  | cons idx rest ih =>
    have hrest : ∀ i ∈ rest, i < n := fun i hi => hidxs i (mem_cons_of_mem _ hi)
    have hidx : idx < n := hidxs idx mem_cons_self
    rw [groupsFrom]
    split
    · rename_i hprocessed
      obtain ⟨hnodup, hmem, hall⟩ := ih processed hrest
      exact ⟨hnodup, hmem, forall_mem_cons.mpr ⟨.inl hprocessed, hall⟩⟩
    · rename_i hnew
      have hstart : ∀ i ∈ [idx], i < n := fun i hi => mem_singleton.mp hi ▸ hidx
      obtain ⟨hwalk, hwalk'⟩ := walkFrom_spec hnext n [idx] processed hstart
      obtain ⟨hnodup, hmem, hall⟩ := ih (processed ++ walk next n idx processed) hrest
      rw [flatten_cons]
      refine ⟨nodup_append.mpr ⟨hwalk, hnodup, fun a ha b hb hab => ?_⟩, fun i hi => ?_, ?_⟩
      · exact (hmem b hb).2 (mem_append_right _ (hab ▸ ha))
      · rcases mem_append.mp hi with hi | hi
        · exact hwalk' i hi
        · exact ⟨(hmem i hi).1, fun hin => (hmem i hi).2 (mem_append_left _ hin)⟩
      · refine forall_mem_cons.mpr ⟨?_, fun i hi => ?_⟩
        · exact .inr (mem_append_left _ (start_mem_walk (Nat.zero_lt_of_lt hidx) hnew))
        · rcases hall i hi with hin | hin
          · exact (mem_append.mp hin).imp id fun h => mem_append_left _ h
          · exact .inr (mem_append_right _ hin)

/-- **Every number** is in one group, once. -/
theorem flatten_groups_perm (hnext : ∀ i, ∀ m ∈ next i, m < n) :
    (groups next n).flatten.Perm (range n) := by
  obtain ⟨hnodup, hmem, hall⟩ := groupsFrom_spec hnext [] fun i (hi : i ∈ range n) => mem_range.mp hi
  refine (perm_ext_iff_of_nodup hnodup nodup_range).mpr fun i => ⟨fun hi => ?_, fun hi => ?_⟩
  · exact mem_range.mpr (hmem i hi).1
  · exact (hall i hi).resolve_left not_mem_nil

/-! ## Numbers in a row -/

theorem foldl_enqueue_new {processed visited ms : List ℕ} {j : ℕ} (h : ∀ m ∈ ms, m ∈ visited ∨ m = j)
    (hvisited : j ∉ visited) (hprocessed : j ∉ processed) :
    ms.foldl (enqueue processed) ([], visited) = if j ∈ ms then ([j], visited ++ [j]) else ([], visited) := by
  have hdone : ∀ ms : List ℕ, (∀ m ∈ ms, m ∈ visited ∨ m = j) →
      ms.foldl (enqueue processed) ([j], visited ++ [j]) = ([j], visited ++ [j]) := by
    intro ms
    induction ms with
    | nil => intro _; rfl
    | cons m ms ih =>
      intro h
      have hm : m ∈ visited ++ [j] := by
        rcases h m mem_cons_self with hm | rfl
        · exact mem_append_left _ hm
        · exact mem_append_right _ (mem_singleton_self _)
      rw [foldl_cons, enqueue, if_pos (.inl hm)]
      exact ih fun k hk => h k (mem_cons_of_mem _ hk)
  induction ms with
  | nil => simp
  | cons m ms ih =>
    have hrest : ∀ k ∈ ms, k ∈ visited ∨ k = j := fun k hk => h k (mem_cons_of_mem _ hk)
    by_cases hm : m = j
    · subst hm
      rw [foldl_cons, enqueue, if_neg (not_or.mpr ⟨hvisited, hprocessed⟩), if_pos mem_cons_self]
      exact hdone ms hrest
    · have hold : m ∈ visited := (h m mem_cons_self).resolve_right hm
      rw [foldl_cons, enqueue, if_pos (.inl hold), ih hrest]
      simp [Ne.symm hm]

theorem walkFrom_of_path (hle : ∀ i < n, ∀ m ∈ next i, m ≤ i + 1) (hlt : ∀ i, ∀ m ∈ next i, m < n)
    (hsucc : ∀ i, i + 1 < n → i + 1 ∈ next i) {k i fuel : ℕ} (hi : i + k + 1 = n) (hfuel : k + 1 ≤ fuel) :
    walkFrom next fuel [i] (range (i + 1)) (range i) = range' i (k + 1) := by
  induction k generalizing i fuel with
  | zero =>
    obtain ⟨fuel, rfl⟩ : ∃ fuel', fuel = fuel' + 1 := ⟨fuel - 1, by omega⟩
    have hnone : i + 1 ∉ next i := fun h => absurd (hlt i _ h) (by omega)
    rw [walkFrom, if_neg (by simp), foldl_enqueue_new (j := i + 1), if_neg hnone]
    · cases fuel <;> rfl
    · intro m hm
      have := hle i (by omega) m hm
      rw [mem_range]
      omega
    · simp
    · simp
  | succ k ih =>
    obtain ⟨fuel, rfl⟩ : ∃ fuel', fuel = fuel' + 1 := ⟨fuel - 1, by omega⟩
    rw [walkFrom, if_neg (by simp), foldl_enqueue_new (j := i + 1), if_pos (hsucc i (by omega))]
    · rw [← range_succ, ← range_succ, range'_succ]
      exact congrArg (i :: ·) (ih (by omega) (by omega))
    · intro m hm
      have := hle i (by omega) m hm
      rw [mem_range]
      omega
    · simp
    · simp

/-- Numbers of which each leads to the next, and to none beyond, are one group, in order. -/
theorem groups_of_path (hn : 0 < n) (hle : ∀ i < n, ∀ m ∈ next i, m ≤ i + 1) (hlt : ∀ i, ∀ m ∈ next i, m < n)
    (hsucc : ∀ i, i + 1 < n → i + 1 ∈ next i) : groups next n = [range n] := by
  obtain ⟨k, rfl⟩ := Nat.exists_eq_add_of_lt hn
  rw [Nat.zero_add] at *
  have hwalk : walk next (k + 1) 0 [] = range (k + 1) := by
    rw [range_eq_range']
    exact walkFrom_of_path hle hlt hsucc (by omega) le_rfl
  have hdone : ∀ idxs : List ℕ, (∀ i ∈ idxs, i < k + 1) →
      groupsFrom next (k + 1) idxs ([] ++ range (k + 1)) = [] := by
    intro idxs
    induction idxs with
    | nil => intro _; rfl
    | cons idx rest ih =>
      intro h
      rw [groupsFrom, if_pos (by simpa using h idx mem_cons_self)]
      exact ih fun i hi => h i (mem_cons_of_mem _ hi)
  rw [groups]
  conv_lhs => rw [range_eq_range', range'_succ, groupsFrom, if_neg not_mem_nil, hwalk]
  rw [hdone]
  intro i hi
  rw [mem_range'_1] at hi
  omega

end Walk
