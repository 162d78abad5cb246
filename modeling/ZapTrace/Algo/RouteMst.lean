import Mathlib.Analysis.Real.Sqrt
import ZapTrace.Algo.Shove
import ZapTrace.Algo.SpanningTree

/-!
# Minimum spanning trees

Two programs connect the points of a net by Prim's algorithm: the grid router with Manhattan distances between grid
positions, and a kernel of the native extension with Euclidean distances. Both pick the first of the shortest edges from
a marked point to one that is not marked. The grid router starts its search without an edge, the kernel with the edge
between the first marked point and the first other one.

Distances of the kernel are exact here.

## Main results

* `nearestMstEdge_least`, `RouteMst.nearestEdge_least`: the edge that each program picks
* `mst_isMinimal`: both programs find a tree of all points, and no tree of them is shorter
-/

namespace ZapTrace

open List hiding getElem?_eq_some_iff
open Prim

/-! ## The kernel -/

namespace RouteMst

open Shove (Segment)
open Shove.Native (NativeError boundedLen)

variable {K : Type} [Field K] [LinearOrder K] (hypot : K → K → K)

def MAX_MST_POINTS : ℕ := 2000

def distance (p q : K × K) : K := hypot (p.1 - q.1) (p.2 - q.2)

def nearestEdge (points : List (K × K)) (in_mst : List Bool) : Option (ℕ × ℕ) := do
  let best_i ← in_mst.findIdx? fun included => included
  let best_j ← in_mst.findIdx? fun included => !included
  let p ← points[best_i]?
  let q ← points[best_j]?
  some ((crossing (distance hypot) points in_mst).foldl nearer (distance hypot p q, best_i, best_j)).2

def edgeRounds (points : List (K × K)) : ℕ → List Bool → List (ℕ × ℕ)
  | 0, _ => []
  | k + 1, in_mst =>
    match nearestEdge hypot points in_mst with
    | none => []
    | some edge => edge :: edgeRounds points k (in_mst.set edge.2 true)

def indexPairs (points : List (K × K)) : List (ℕ × ℕ) :=
  if points.length < 2 then []
  else edgeRounds hypot points (points.length - 1) ((replicate points.length false).set 0 true)

/-- An edge is drawn as an L. -/
def edgeSegments (points : List (K × K)) (edge : ℕ × ℕ) : List (Segment K) :=
  match points[edge.1]?, points[edge.2]? with
  | some p, some q => [⟨p.1, p.2, q.1, p.2⟩, ⟨q.1, p.2, q.1, q.2⟩]
  | _, _ => []

def routeMst (points : List (K × K)) : Except NativeError (List (Segment K)) := do
  boundedLen "mst_points" points.length MAX_MST_POINTS
  pure ((indexPairs hypot points).flatMap (edgeSegments points))

variable {hypot}

theorem exists_findIdx {in_mst : List Bool} {mark : Bool → Bool} {b : Bool} (hmark : ∀ c, mark c = true ↔ c = b)
    (h : b ∈ in_mst) : ∃ i, in_mst.findIdx? mark = some i ∧ in_mst[i]? = some b := by
  cases hfind : in_mst.findIdx? mark with
  | none =>
    have hnone := findIdx?_eq_none_iff.mp hfind b h
    rw [(hmark b).mpr rfl] at hnone
    cases hnone
  | some i =>
    obtain ⟨hi, hget, -⟩ := findIdx?_eq_some_iff_getElem.mp hfind
    exact ⟨i, rfl, (getElem?_eq_getElem hi).trans (congrArg some ((hmark _).mp hget))⟩

theorem nearestEdge_least {points : List (K × K)} {in_mst : List Bool} (hlength : in_mst.length = points.length)
    (htrue : true ∈ in_mst) (hfalse : false ∈ in_mst) :
    ∃ c ∈ crossing (distance hypot) points in_mst, nearestEdge hypot points in_mst = some c.2 ∧
      ∀ d ∈ crossing (distance hypot) points in_mst, c.1 ≤ d.1 := by
  have hpoint : ∀ {i : ℕ} {b : Bool}, in_mst[i]? = some b → ∃ p, points[i]? = some p := by
    intro i b hi
    exact ⟨_, getElem?_eq_getElem (hlength ▸ (List.getElem?_eq_some_iff.mp hi).1)⟩
  obtain ⟨i, hfind_i, hi⟩ := exists_findIdx (fun c => Iff.rfl) htrue
  obtain ⟨j, hfind_j, hj⟩ := exists_findIdx (fun c => Iff.of_eq (Bool.not_eq_true' c)) hfalse
  obtain ⟨p, hp⟩ := hpoint hi
  obtain ⟨q, hq⟩ := hpoint hj
  have hstart : (distance hypot p q, i, j) ∈ crossing (distance hypot) points in_mst :=
    mem_crossing.mpr ⟨p, q, hp, hq, hi, hj, rfl⟩
  refine ⟨(crossing (distance hypot) points in_mst).foldl nearer (distance hypot p q, i, j), ?_, ?_, ?_⟩
  · rcases mem_cons.mp (foldl_nearer_mem (distance hypot p q, i, j) (crossing (distance hypot) points in_mst))
      with heq | hmem
    · rw [heq]
      exact hstart
    · exact hmem
  · unfold nearestEdge
    rw [hfind_i, hfind_j]
    simp only [Option.bind_eq_bind, Option.bind_some, hp, hq]
  · exact fun d hd => foldl_nearer_le _ _ d (mem_cons_of_mem _ hd)

theorem edgeRounds_eq_rounds (points : List (K × K)) (k : ℕ) (in_mst : List Bool) :
    edgeRounds hypot points k in_mst = rounds (nearestEdge hypot points) k in_mst := by
  induction k generalizing in_mst with
  | zero => rfl
  | succ k ih =>
    unfold edgeRounds rounds
    cases nearestEdge hypot points in_mst with
    | none => rfl
    | some edge => exact congrArg (edge :: ·) (ih _)

theorem indexPairs_eq_rounds (points : List (K × K)) :
    indexPairs hypot points =
      rounds (nearestEdge hypot points) (points.length - 1) ((replicate points.length false).set 0 true) := by
  unfold indexPairs
  split
  next hlt =>
    have hzero : points.length - 1 = 0 := by omega
    rw [hzero]
    rfl
  next => exact edgeRounds_eq_rounds points _ _

end RouteMst

/-! ## The grid router -/

theorem foldl_betterEdge_some (best : ℤ × ℕ × ℕ) (candidates : List (ℤ × ℕ × ℕ)) :
    candidates.foldl betterEdge (some best) = some (candidates.foldl nearer best) := by
  induction candidates generalizing best with
  | nil => rfl
  | cons candidate candidates ih =>
    have hbetter : betterEdge (some best) candidate = some (nearer best candidate) := by
      unfold betterEdge nearer
      dsimp only
      split
      · rfl
      · rfl
    rw [foldl_cons, foldl_cons, hbetter, ih]

theorem nearestMstEdge_least {points : List (ℤ × ℤ)} {in_mst : List Bool} (hlength : in_mst.length = points.length)
    (htrue : true ∈ in_mst) (hfalse : false ∈ in_mst) :
    ∃ c ∈ crossing manhattanDist points in_mst, nearestMstEdge points in_mst = some c.2 ∧
      ∀ d ∈ crossing manhattanDist points in_mst, c.1 ≤ d.1 := by
  have hcrossing : crossingEdges points in_mst = crossing manhattanDist points in_mst := rfl
  rw [nearestMstEdge_eq, hcrossing]
  cases hedges : crossing manhattanDist points in_mst with
  | nil => exact absurd hedges (crossing_ne_nil hlength.symm htrue hfalse)
  | cons c cs =>
    refine ⟨cs.foldl nearer c, foldl_nearer_mem c cs, ?_, foldl_nearer_le c cs⟩
    rw [foldl_cons]
    exact congrArg (Option.map Prod.snd) (foldl_betterEdge_some c cs)

theorem mstEdges_eq_rounds (points : List (ℤ × ℤ)) (k : ℕ) (in_mst : List Bool) :
    mstEdges points k in_mst = rounds (nearestMstEdge points) k in_mst := by
  induction k generalizing in_mst with
  | zero => rfl
  | succ k ih =>
    unfold mstEdges rounds
    cases nearestMstEdge points in_mst with
    | none => rfl
    | some edge => exact congrArg (edge :: ·) (ih _)

theorem mst_eq_rounds (points : List (ℤ × ℤ)) :
    mst points =
      rounds (nearestMstEdge points) (points.length - 1) ((replicate points.length false).set 0 true) := by
  unfold mst
  split
  next hlt =>
    have hzero : points.length - 1 = 0 := by omega
    rw [hzero]
    rfl
  next => exact mstEdges_eq_rounds points _ _

theorem manhattanDist_comm (p q : ℤ × ℤ) : manhattanDist p q = manhattanDist q p := by
  rw [manhattanDist, manhattanDist, abs_sub_comm p.1, abs_sub_comm p.2]

/-! ## Both programs -/

def edgesLength {α K : Type} [AddCommMonoid K] (dist : α → α → K) (points : List α) (edges : List (ℕ × ℕ)) : K :=
  (edges.map fun e => weightOf dist points e.1 e.2).sum

structure IsMinimumTree {α K : Type} [AddCommMonoid K] [LE K] (dist : α → α → K) (points : List α)
    (edges : List (ℕ × ℕ)) : Prop where
  length : edges.length = points.length - 1
  tree : IsSpanningTree points.length edges
  minimal : ∀ others, IsSpanningTree points.length others →
    edgesLength dist points edges ≤ edgesLength dist points others

/-- The Euclidean length. -/
noncomputable def realHypot (x y : ℝ) : ℝ := Real.sqrt (x ^ 2 + y ^ 2)

theorem distance_realHypot_comm (p q : ℝ × ℝ) :
    RouteMst.distance realHypot p q = RouteMst.distance realHypot q p := by
  unfold RouteMst.distance realHypot
  congr 1
  ring

theorem isMinimumTree_rounds {α K : Type} [AddCommMonoid K] [PartialOrder K] [IsOrderedAddMonoid K]
    {dist : α → α → K} (hdist : ∀ p q, dist p q = dist q p) {points : List α} (hpoints : points ≠ [])
    {pick : List Bool → Option (ℕ × ℕ)}
    (h : ∀ in_mst : List Bool, in_mst.length = points.length → true ∈ in_mst → false ∈ in_mst →
      ∃ c ∈ crossing dist points in_mst, pick in_mst = some c.2 ∧ ∀ d ∈ crossing dist points in_mst, c.1 ≤ d.1) :
    IsMinimumTree dist points
      (rounds pick (points.length - 1) ((replicate points.length false).set 0 true)) := by
  obtain ⟨htree, hminimal⟩ :=
    isMinimal_rounds (length_pos_iff.mpr hpoints) (weightOf_comm hdist) (picks_of_least h)
  have hlength := htree
  obtain ⟨es, heq, hes, -⟩ := hlength
  refine ⟨?_, htree, hminimal⟩
  rw [heq, length_map]
  omega

/-- **Both programs find minimum trees**: the grid router for Manhattan distances, and the kernel, which accepts every
list within its limit, for Euclidean distances. -/
theorem mst_isMinimal :
    (∀ points : List (ℤ × ℤ), points ≠ [] → IsMinimumTree manhattanDist points (mst points)) ∧
      ∀ points : List (ℝ × ℝ), points.length ≤ RouteMst.MAX_MST_POINTS →
        RouteMst.routeMst realHypot points =
            .ok ((RouteMst.indexPairs realHypot points).flatMap (RouteMst.edgeSegments points)) ∧
          (points ≠ [] → IsMinimumTree (RouteMst.distance realHypot) points (RouteMst.indexPairs realHypot points)) := by
  constructor
  · intro points hpoints
    rw [mst_eq_rounds]
    exact isMinimumTree_rounds manhattanDist_comm hpoints fun _ => nearestMstEdge_least
  · intro points hlimit
    constructor
    · unfold RouteMst.routeMst Shove.Native.boundedLen
      rw [if_pos hlimit]
      rfl
    · intro hpoints
      rw [RouteMst.indexPairs_eq_rounds]
      exact isMinimumTree_rounds distance_realHypot_comm hpoints fun _ => RouteMst.nearestEdge_least

end ZapTrace
