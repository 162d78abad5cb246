import ZapTrace.Algo.GridRouter
import ZapTrace.Library.Prim

/-!
# The spanning tree of a net

Prim's algorithm marks the points of the tree. Each round adds the first of the shortest edges from a
marked point to one that is not marked, as long as there is one. So the edges cross every division of
the points: where some points have a property and others do not, an edge joins one that has it to one
that does not.

## Main results

* `nearestMstEdge_spec`: an edge that is chosen, and when there is one
* `mst_crosses`: the edges cross every division of the points
-/

namespace ZapTrace

open List hiding getElem?_eq_some_iff

/-- The better of the candidates so far and the next. -/
def betterEdge (best : Option (ℤ × ℕ × ℕ)) (candidate : ℤ × ℕ × ℕ) : Option (ℤ × ℕ × ℕ) :=
  match best with
  | none => some candidate
  | some b => if candidate.1 < b.1 then some candidate else some b

theorem mem_of_foldl_betterEdge {candidates : List (ℤ × ℕ × ℕ)} {best : Option (ℤ × ℕ × ℕ)}
    {c : ℤ × ℕ × ℕ} (h : candidates.foldl betterEdge best = some c) :
    c ∈ candidates ∨ best = some c := by
  induction candidates generalizing best with
  | nil => exact Or.inr h
  | cons candidate candidates ih =>
    rcases ih h with hmem | hbest
    · exact Or.inl (mem_cons_of_mem _ hmem)
    · unfold betterEdge at hbest
      split at hbest
      · obtain rfl := Option.some.inj hbest
        exact Or.inl mem_cons_self
      · split at hbest
        · obtain rfl := Option.some.inj hbest
          exact Or.inl mem_cons_self
        · exact Or.inr hbest

theorem foldl_betterEdge_isSome (b : ℤ × ℕ × ℕ) (candidates : List (ℤ × ℕ × ℕ)) :
    (candidates.foldl betterEdge (some b)).isSome := by
  induction candidates generalizing b with
  | nil => rfl
  | cons candidate candidates ih =>
    rw [foldl_cons]
    unfold betterEdge
    dsimp only
    split
    · exact ih _
    · exact ih _

/-- The edges from a marked point to one that is not marked, with their lengths. -/
def crossingEdges (points : List (ℤ × ℤ)) (in_mst : List Bool) : List (ℤ × ℕ × ℕ) :=
  let marked := (points.zip in_mst).zipIdx
  (marked.filter fun source => source.1.2).flatMap fun source =>
    (marked.filter fun target => !target.1.2).map fun target =>
      (manhattanDist source.1.1 target.1.1, source.2, target.2)

theorem nearestMstEdge_eq (points : List (ℤ × ℤ)) (in_mst : List Bool) :
    nearestMstEdge points in_mst =
      ((crossingEdges points in_mst).foldl betterEdge none).map Prod.snd := rfl

theorem mem_crossingEdges {points : List (ℤ × ℤ)} {in_mst : List Bool} {d : ℤ} {i j : ℕ} :
    (d, i, j) ∈ crossingEdges points in_mst ↔
      ∃ p q, points[i]? = some p ∧ points[j]? = some q ∧ in_mst[i]? = some true ∧
        in_mst[j]? = some false ∧ d = manhattanDist p q :=
  Prim.mem_crossing

section Edges

variable {points : List (ℤ × ℤ)} {in_mst : List Bool}

/-- An edge that is chosen goes from a marked point to one that is not. -/
theorem nearestMstEdge_spec {e : ℕ × ℕ} (h : nearestMstEdge points in_mst = some e) :
    (e.1 < points.length ∧ e.2 < points.length) ∧
      in_mst[e.1]? = some true ∧ in_mst[e.2]? = some false := by
  rw [nearestMstEdge_eq] at h
  obtain ⟨⟨d, i, j⟩, hbest, rfl⟩ := Option.map_eq_some_iff.mp h
  rcases mem_of_foldl_betterEdge hbest with hmem | hnone
  · obtain ⟨_, _, hp, hq, hi, hj, _⟩ := mem_crossingEdges.mp hmem
    exact ⟨⟨(List.getElem?_eq_some_iff.mp hp).1, (List.getElem?_eq_some_iff.mp hq).1⟩, hi, hj⟩
  · cases hnone

theorem mstEdges_lt {rounds : ℕ} {e : ℕ × ℕ} (he : e ∈ mstEdges points rounds in_mst) :
    e.1 < points.length ∧ e.2 < points.length := by
  induction rounds generalizing in_mst with
  | zero => exact absurd he not_mem_nil
  | succ rounds ih =>
    unfold mstEdges at he
    split at he
    · exact absurd he not_mem_nil
    · rename_i edge hedge
      rcases mem_cons.mp he with rfl | he
      · exact (nearestMstEdge_spec hedge).1
      · exact ih he

theorem nearestMstEdge_isSome (hlen : points.length = in_mst.length) {i j : ℕ}
    (hi : in_mst[i]? = some true) (hj : in_mst[j]? = some false) :
    ∃ e, nearestMstEdge points in_mst = some e := by
  have hpoint : ∀ (k : ℕ) (b : Bool), in_mst[k]? = some b → ∃ p, points[k]? = some p := by
    intro k b hk
    obtain ⟨hk, -⟩ := List.getElem?_eq_some_iff.mp hk
    exact ⟨points[k], getElem?_eq_getElem (by omega)⟩
  obtain ⟨p, hp⟩ := hpoint i true hi
  obtain ⟨q, hq⟩ := hpoint j false hj
  have hmem := mem_crossingEdges.mpr ⟨p, q, hp, hq, hi, hj, rfl⟩
  rw [nearestMstEdge_eq]
  cases hedges : crossingEdges points in_mst with
  | nil =>
    rw [hedges] at hmem
    exact absurd hmem not_mem_nil
  | cons c cs =>
    obtain ⟨e, he⟩ := Option.isSome_iff_exists.mp (foldl_betterEdge_isSome c cs)
    exact ⟨e.2, by rw [foldl_cons]; exact congrArg (Option.map Prod.snd) he⟩

/-- Where all marked points have a property and some point does not, an edge leads from a point that
has it to one that does not. -/
theorem mstEdges_crosses {S : ℕ → Prop} {rounds : ℕ} (hlen : points.length = in_mst.length)
    (hrounds : in_mst.count false ≤ rounds) (hmarked : ∀ i, in_mst[i]? = some true → S i)
    {i j : ℕ} (hi : in_mst[i]? = some true) (hj : j < points.length) (hS : ¬ S j) :
    ∃ e ∈ mstEdges points rounds in_mst, S e.1 ∧ ¬ S e.2 := by
  have hjfalse : in_mst[j]? = some false := by
    have hj' : j < in_mst.length := by omega
    rw [getElem?_eq_getElem hj']
    cases hmark : in_mst[j] with
    | true => exact absurd (hmarked j (by rw [getElem?_eq_getElem hj', hmark])) hS
    | false => rfl
  induction rounds generalizing in_mst with
  | zero =>
    have hpos : 0 < in_mst.count false :=
      count_pos_iff.mpr (mem_of_getElem? hjfalse)
    omega
  | succ rounds ih =>
    obtain ⟨e, he⟩ := nearestMstEdge_isSome hlen hi hjfalse
    obtain ⟨-, hsource, htarget⟩ := nearestMstEdge_spec he
    unfold mstEdges
    rw [he]
    by_cases hSe : S e.2
    · -- the tree grows by a point that has the property
      obtain ⟨hlt, hfalse⟩ := List.getElem?_eq_some_iff.mp htarget
      have hne : j ≠ e.2 := fun heq => hS (heq ▸ hSe)
      have hmark : ∀ k, (in_mst.set e.2 true)[k]? = some true → S k := by
        intro k hk
        by_cases hke : k = e.2
        · exact hke ▸ hSe
        · rw [getElem?_set_ne (Ne.symm hke)] at hk
          exact hmarked k hk
      have hie : (in_mst.set e.2 true)[i]? = some true := by
        by_cases hie : i = e.2
        · rw [hie, getElem?_set_self hlt]
        · rw [getElem?_set_ne (Ne.symm hie)]
          exact hi
      have hcount : (in_mst.set e.2 true).count false ≤ rounds := by
        have hpos : 0 < in_mst.count false :=
          count_pos_iff.mpr (mem_of_getElem? htarget)
        rw [count_set hlt, hfalse]
        have hrest : in_mst.count false - 1 ≤ rounds := by omega
        simpa using hrest
      obtain ⟨e', hmem, hcross⟩ := ih (by rw [length_set]; exact hlen) hcount hmark hie
        (by rw [getElem?_set_ne (Ne.symm hne)]; exact hjfalse)
      exact ⟨e', mem_cons_of_mem _ hmem, hcross⟩
    · exact ⟨e, mem_cons_self, hmarked e.1 hsource, hSe⟩

end Edges

theorem mst_lt {points : List (ℤ × ℤ)} {e : ℕ × ℕ} (he : e ∈ mst points) :
    e.1 < points.length ∧ e.2 < points.length := by
  unfold mst at he
  split at he
  · exact absurd he not_mem_nil
  · exact mstEdges_lt he

/-- **The edges span the points**: they cross every division of the points. -/
theorem mst_crosses {points : List (ℤ × ℤ)} {S : ℕ → Prop} {i j : ℕ} (hi : i < points.length)
    (hSi : S i) (hj : j < points.length) (hSj : ¬ S j) :
    ∃ e ∈ mst points, (S e.1 ∧ ¬ S e.2) ∨ (S e.2 ∧ ¬ S e.1) := by
  have hne : i ≠ j := fun heq => hSj (heq ▸ hSi)
  have hlen : ¬ points.length < 2 := by omega
  have hmarked : ∀ k, ((replicate points.length false).set 0 true)[k]? = some true → k = 0 := by
    intro k hk
    by_contra hk0
    rw [getElem?_set_ne (Ne.symm hk0)] at hk
    obtain ⟨_, hfalse⟩ := List.getElem?_eq_some_iff.mp hk
    simp at hfalse
  have hzero : ((replicate points.length false).set 0 true)[0]? = some true := by
    rw [getElem?_set_self (by simp; omega)]
  have hcount : ((replicate points.length false).set 0 true).count false ≤
      points.length - 1 := by
    rw [count_set (by simp; omega)]
    simp
  rw [mst, if_neg hlen]
  by_cases hS0 : S 0
  · obtain ⟨e, hmem, hcross⟩ := mstEdges_crosses (by simp) hcount
      (fun k hk => hmarked k hk ▸ hS0) hzero hj hSj
    exact ⟨e, hmem, Or.inl hcross⟩
  · obtain ⟨e, hmem, hcross⟩ := mstEdges_crosses (S := fun k => ¬ S k) (by simp) hcount
      (fun k hk => hmarked k hk ▸ hS0) hzero hi (not_not.mpr hSi)
    exact ⟨e, hmem, Or.inr ⟨not_not.mp hcross.2, hcross.1⟩⟩

end ZapTrace
