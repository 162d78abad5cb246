import ZapTrace.Algo.BoardKeepout

/-!
# The polygons that are accepted

The check of a polygon compares edges that are not next to each other. Two edges that are folded back onto each other
are next to each other, and are not compared. With four edges or more the end of the shorter one is then the start of
the edge after it or the end of the edge before it, which is compared with the other one; with three edges the enclosed
area is zero.

## Main results

* `segmentsIntersect_iff`: the test of two edges
* `checkPolygon_ok_iff`: which polygons are accepted
-/

namespace ZapTrace.BoardKeepout

open Plane List Nat
open EvenOdd (edges)

variable {K : Type} [Field K] [LinearOrder K]

/-- Two edges have a vertex in common. -/
def Consecutive (n i j : ℕ) : Prop := j = (i + 1) % n ∨ i = (j + 1) % n

def edgeAt (poly : List (Point K)) (i : ℕ) : Set (Point K) := segment K (vertex poly i) (vertex poly (i + 1))

/-- Edges that have no vertex in common have no point in common. -/
def Apart (poly : List (Point K)) : Prop :=
  ∀ i j, i < poly.length → j < poly.length → i ≠ j → ¬Consecutive poly.length i j →
    ∀ x ∈ edgeAt poly i, x ∉ edgeAt poly j

/-- A closed polygon is simple: consecutive edges meet only in their common vertex, and all others are disjoint. -/
structure Simple (poly : List (Point K)) : Prop where
  consecutive : ∀ i < poly.length, ∀ x ∈ edgeAt poly i, x ∈ edgeAt poly (i + 1) → x = vertex poly (i + 1)
  apart : Apart poly

variable [IsStrictOrderedRing K]

/-- **The test of two edges** finds a point that they have in common. -/
theorem segmentsIntersect_iff (a b c d : Point K) :
    segmentsIntersect a b c d ↔ ∃ x ∈ segment K a b, x ∈ segment K c d := by
  rw [meet_iff_opposite]
  simp only [mem_segment_iff_orient, segmentsIntersect]
  exact or_comm

/-! ## Consecutive edges -/

theorem mem_of_fold {a b c x : Point K} (hx : x ∈ segment K a b) (hx' : x ∈ segment K b c) (hne : x ≠ b) :
    c ∈ segment K a b ∨ a ∈ segment K b c := by
  rw [segment_symm] at hx
  obtain ⟨s, hs0, hs1, rfl⟩ := mem_segment_iff.mp hx
  obtain ⟨t, ht0, ht1, hmeet⟩ := mem_segment_iff.mp hx'
  have hs : 0 < s := lt_of_le_of_ne hs0 fun h => hne (by rw [← h, along_zero])
  have ht : 0 < t := lt_of_le_of_ne ht0 fun h => hne (by rw [← hmeet, ← h, along_zero])
  have hfst : t * (c.1 - b.1) = s * (a.1 - b.1) := add_left_cancel (congrArg Prod.fst hmeet)
  have hsnd : t * (c.2 - b.2) = s * (a.2 - b.2) := add_left_cancel (congrArg Prod.snd hmeet)
  rcases le_total s t with hle | hle
  · left
    rw [segment_symm]
    refine mem_segment_iff.mpr ⟨s / t, div_nonneg hs0 ht0, (div_le_one ht).mpr hle, Prod.ext ?_ ?_⟩
    · show b.1 + s / t * (a.1 - b.1) = c.1
      rw [div_mul_eq_mul_div, ← hfst, mul_div_cancel_left₀ _ ht.ne', add_sub_cancel]
    · show b.2 + s / t * (a.2 - b.2) = c.2
      rw [div_mul_eq_mul_div, ← hsnd, mul_div_cancel_left₀ _ ht.ne', add_sub_cancel]
  · right
    refine mem_segment_iff.mpr ⟨t / s, div_nonneg ht0 hs0, (div_le_one hs).mpr hle, Prod.ext ?_ ?_⟩
    · show b.1 + t / s * (c.1 - b.1) = a.1
      rw [div_mul_eq_mul_div, hfst, mul_div_cancel_left₀ _ hs.ne', add_sub_cancel]
    · show b.2 + t / s * (c.2 - b.2) = a.2
      rw [div_mul_eq_mul_div, hsnd, mul_div_cancel_left₀ _ hs.ne', add_sub_cancel]

section Polygon

variable {poly : List (Point K)}

omit [IsStrictOrderedRing K] in
theorem vertex_mod (poly : List (Point K)) (i : ℕ) : vertex poly (i % poly.length) = vertex poly i := by
  rw [vertex, mod_mod]
  rfl

omit [IsStrictOrderedRing K] in
theorem edgeAt_mod (poly : List (Point K)) (i : ℕ) : edgeAt poly (i % poly.length) = edgeAt poly i := by
  have hnext : vertex poly (i % poly.length + 1) = vertex poly (i + 1) := by
    rw [← vertex_mod, mod_add_mod, vertex_mod]
  rw [edgeAt, edgeAt, vertex_mod, hnext]

theorem not_meet_around (hfour : 4 ≤ poly.length) (hapart : Apart poly) (i : ℕ) {x : Point K}
    (hx : x ∈ edgeAt poly i) : x ∉ edgeAt poly (i + 2) := by
  have hlt : i % poly.length < poly.length := mod_lt _ (by omega)
  have hround : ∀ k, k < poly.length → (k + 1) % poly.length = if k + 1 = poly.length then 0 else k + 1 := by
    intro k hk
    split
    next hlast => rw [hlast, mod_self]
    next hlast => exact mod_eq_of_lt (by omega)
  have hnext := hround _ hlt
  have hnext' := hround ((i % poly.length + 1) % poly.length) (mod_lt _ (by omega))
  have hnext'' := hround (((i % poly.length + 1) % poly.length + 1) % poly.length) (mod_lt _ (by omega))
  have htwo : (i + 2) % poly.length = ((i % poly.length + 1) % poly.length + 1) % poly.length := by
    rw [mod_add_mod, add_assoc, mod_add_mod]
  rw [← edgeAt_mod] at hx ⊢
  rw [htwo]
  refine hapart _ _ hlt (mod_lt _ (by omega)) ?_ ?_ x hx
  · rw [hnext', hnext]
    split_ifs <;> omega
  · rintro (h | h)
    · rw [hnext', hnext] at h
      split_ifs at h <;> omega
    · rw [hnext'', hnext', hnext] at h
      split_ifs at h <;> omega

omit [IsStrictOrderedRing K] in
theorem orient_ne_zero (hthree : poly.length = 3) (harea : area2 poly ≠ 0) (i : ℕ) :
    orient (vertex poly i) (vertex poly (i + 1)) (vertex poly (i + 2)) ≠ 0 := by
  obtain ⟨p, q, r, rfl⟩ := length_eq_three.mp hthree
  have hturn : ∀ a b c : Point K, orient b c a = orient a b c := by
    intro a b c
    simp only [orient]
    ring
  have htriangle : orient p q r ≠ 0 := by
    intro hzero
    apply harea
    rw [← hzero]
    simp only [area2, edges, drop, take, cons_append, nil_append, zip_cons_cons,
      zip_nil_right, map, sum_cons, sum_nil, orient]
    ring
  have hvertex : ∀ k, vertex [p, q, r] k = [p, q, r].getD (k % 3) (0, 0) := fun k => rfl
  have hcases : i % 3 = 0 ∨ i % 3 = 1 ∨ i % 3 = 2 := by omega
  rw [hvertex, hvertex, hvertex, add_mod i 1, add_mod i 2]
  rcases hcases with h | h | h <;> rw [h]
  · exact htriangle
  · exact (hturn p q r).trans_ne htriangle
  · exact (hturn r p q).symm.trans_ne htriangle

variable (hthree : 3 ≤ poly.length) (harea : area2 poly ≠ 0) (hapart : Apart poly)

include hthree harea hapart

theorem not_mem_around (i : ℕ) : vertex poly i ∉ edgeAt poly (i + 1) ∧ vertex poly (i + 2) ∉ edgeAt poly i := by
  rcases hthree.eq_or_lt' with htriangle | hfour
  · have hline := orient_ne_zero htriangle harea i
    constructor
    · intro h
      have hzero := (mem_segment_iff_orient.mp h).1
      apply hline
      simp only [orient] at hzero ⊢
      linear_combination hzero
    · intro h
      exact hline (mem_segment_iff_orient.mp h).1
  · constructor
    · -- the edge before it ends here
      have hbefore : vertex poly i = vertex poly (i + (poly.length - 1) + 1) := by
        rw [← vertex_mod, ← vertex_mod poly (_ + 1), show i + (poly.length - 1) + 1 = i + poly.length by omega,
          add_mod_right]
      have hafter : edgeAt poly (i + 1) = edgeAt poly (i + (poly.length - 1) + 2) := by
        rw [← edgeAt_mod, ← edgeAt_mod poly (_ + 2), show i + (poly.length - 1) + 2 = i + 1 + poly.length by omega,
          add_mod_right]
      rw [hafter]
      exact not_meet_around hfour hapart _ (hbefore ▸ right_mem_segment K _ _)
    · intro h
      exact not_meet_around hfour hapart i h (left_mem_segment K _ _)

theorem simple_of_apart : Simple poly where
  consecutive i hi x hx hx' := by
    obtain ⟨hstart, hend⟩ := not_mem_around hthree harea hapart i
    by_contra hne
    exact (mem_of_fold hx hx' hne).elim hend hstart
  apart := hapart

theorem vertex_ne (i : ℕ) : vertex poly i ≠ vertex poly (i + 1) := by
  intro h
  apply (not_mem_around hthree harea hapart i).1
  rw [h]
  exact left_mem_segment K _ _

end Polygon

omit [IsStrictOrderedRing K] in
theorem exists_vertex {poly : List (Point K)} {e : Point K × Point K} (h : e ∈ edges poly) :
    ∃ i, e = (vertex poly i, vertex poly (i + 1)) := by
  obtain ⟨i, hi, rfl⟩ := mem_iff_getElem.mp h
  have hlt : i < poly.length := by
    rw [edges, length_zip] at hi
    omega
  have hfirst : vertex poly i = poly[i] := by
    rw [vertex, mod_eq_of_lt hlt, ← getElem_eq_getD (h := hlt)]
  refine ⟨i, ?_⟩
  simp only [edges, getElem_zip]
  rw [hfirst, Prod.mk.injEq]
  refine ⟨rfl, ?_⟩
  rcases lt_or_ge (i + 1) poly.length with hnext | hlast
  · rw [getElem_append_left (by rw [length_drop]; omega), getElem_drop, vertex,
      mod_eq_of_lt hnext, ← getElem_eq_getD (h := hnext)]
    congr 1
    omega
  · obtain hlast : i + 1 = poly.length := by omega
    have hzero : 0 < poly.length := by omega
    rw [getElem_append_right (by rw [length_drop]; omega), getElem_take, vertex, hlast,
      mod_self, ← getElem_eq_getD (h := hzero)]
    congr 1
    rw [length_drop]
    omega

/-! ## The check -/

section Check

variable (poly : List (Point K))

theorem checkPair_ok_iff {i j : ℕ} (hij : i < j) (hj : j < poly.length) :
    checkPair poly i j = .ok () ↔
      (¬Consecutive poly.length i j → ∀ x ∈ edgeAt poly i, x ∉ edgeAt poly j) := by
  have hskip : j = i + 1 ∨ (i = 0 ∧ j = poly.length - 1) ↔ Consecutive poly.length i j := by
    have hi : (i + 1) % poly.length = i + 1 := mod_eq_of_lt (by omega)
    rw [Consecutive, hi]
    rcases lt_or_ge (j + 1) poly.length with hlt | hge
    · rw [mod_eq_of_lt hlt]
      omega
    · rw [show j + 1 = poly.length by omega, mod_self]
      omega
  rw [checkPair]
  split
  next h => exact iff_of_true rfl fun hnot => absurd (hskip.mp h) hnot
  next h =>
    rw [imp_iff_right (hskip.not.mp h)]
    split
    next hmeet =>
      obtain ⟨x, hx, hx'⟩ := (segmentsIntersect_iff _ _ _ _).mp hmeet
      exact iff_of_false nofun fun hdisjoint => hdisjoint x hx hx'
    next hmeet =>
      exact iff_of_true rfl fun x hx hx' => hmeet ((segmentsIntersect_iff _ _ _ _).mpr ⟨x, hx, hx'⟩)

theorem checkEdge_ok_iff {i : ℕ} :
    checkEdge poly i = .ok () ↔ vertex poly i ≠ vertex poly (i + 1) ∧ ∀ j, i < j → j < poly.length →
      ¬Consecutive poly.length i j → ∀ x ∈ edgeAt poly i, x ∉ edgeAt poly j := by
  rw [checkEdge]
  split
  next h => exact iff_of_false nofun fun hne => hne.1 h
  next h =>
    rw [Lists.forM_eq_ok_iff, and_iff_right h]
    apply forall_congr'
    intro j
    rw [mem_range'_1]
    constructor
    · intro hpair hij hj
      exact (checkPair_ok_iff poly hij hj).mp (hpair ⟨hij, by omega⟩)
    · rintro hdisjoint ⟨hij, hj⟩
      exact (checkPair_ok_iff poly hij (by omega)).mpr (hdisjoint hij (by omega))

theorem area2_ne_zero {poly : List (Point K)} (h : 1 / 10 ^ 9 < |area2 poly|) : area2 poly ≠ 0 := by
  intro hzero
  rw [hzero, abs_zero] at h
  exact h.not_gt (by positivity)

theorem checkEdges_ok_iff (hthree : 3 ≤ poly.length) (harea : area2 poly ≠ 0) :
    (range poly.length).forM (checkEdge poly) = .ok () ↔ Simple poly := by
  rw [Lists.forM_eq_ok_iff]
  simp only [mem_range, checkEdge_ok_iff]
  constructor
  · intro h
    apply simple_of_apart hthree harea
    intro i j hi hj hij hnot x hx hx'
    rcases lt_or_gt_of_ne hij with hlt | hgt
    · exact (h i hi).2 j hlt hj hnot x hx hx'
    · exact (h j hj).2 i hgt hi (fun hcons => hnot hcons.symm) x hx' hx
  · intro h i hi
    refine ⟨vertex_ne hthree harea h.apart i, fun j hij hj hnot => h.apart i j hi hj hij.ne hnot⟩

theorem checkPolygon_eq_ok_iff {vertices poly : List (Point K)} : checkPolygon vertices = .ok poly ↔
    poly = opened vertices ∧ 3 ≤ (opened vertices).length ∧ 1 / 10 ^ 9 < |area2 (opened vertices)| ∧
      Simple (opened vertices) := by
  have hlength : (opened vertices).length ≤ vertices.length := by
    rw [opened]
    split
    · rw [length_dropLast]
      omega
    · exact le_rfl
  rw [checkPolygon]
  split
  next h => exact iff_of_false nofun fun ⟨_, hthree, _⟩ => by omega
  next h =>
    dsimp only
    split
    next h => exact iff_of_false nofun fun ⟨_, hthree, _⟩ => by omega
    next hthree =>
      split
      next harea => exact iff_of_false nofun fun ⟨_, _, hlarge, _⟩ => harea.not_gt hlarge
      next harea =>
        have hlarge := not_le.mp harea
        have hloop := checkEdges_ok_iff (opened vertices) (not_lt.mp hthree) (area2_ne_zero hlarge)
        cases hrun : (range (opened vertices).length).forM (checkEdge (opened vertices)) with
        | error e =>
          rw [hrun] at hloop
          exact iff_of_false nofun fun h => nomatch hloop.mpr h.2.2.2
        | ok _ =>
          rw [hrun] at hloop
          constructor
          · intro h
            exact ⟨(Except.ok.inj h).symm, not_lt.mp hthree, hlarge, hloop.mp rfl⟩
          · rintro ⟨rfl, -⟩
            rfl

/-- **The polygons that are accepted** are those that enclose an area and are simple, once a last vertex that closes
them is left out; two edges are found to intersect exactly when they have a point in common. -/
theorem checkPolygon_ok_iff (vertices : List (Point K)) :
    ((∃ poly, checkPolygon vertices = .ok poly) ↔
      3 ≤ (opened vertices).length ∧ 1 / 10 ^ 9 < |area2 (opened vertices)| ∧ Simple (opened vertices)) ∧
    (∀ poly, checkPolygon vertices = .ok poly → poly = opened vertices) ∧
    ∀ a b c d : Point K, segmentsIntersect a b c d ↔ ∃ x ∈ segment K a b, x ∈ segment K c d := by
  simp only [checkPolygon_eq_ok_iff]
  exact ⟨⟨fun ⟨_, _, h⟩ => h, fun h => ⟨_, rfl, h⟩⟩, fun _ h => h.1, segmentsIntersect_iff⟩

/-- A square that is closed by its first vertex is accepted, and is simple without it. -/
theorem simple_unitSquare :
    opened [((0 : ℚ), (0 : ℚ)), (1, 0), (1, 1), (0, 1), (0, 0)] = [(0, 0), (1, 0), (1, 1), (0, 1)] ∧
      Simple (opened [((0 : ℚ), (0 : ℚ)), (1, 0), (1, 1), (0, 1), (0, 0)]) := by
  refine ⟨by decide, ((checkPolygon_ok_iff _).1.mp ⟨[(0, 0), (1, 0), (1, 1), (0, 1)], ?_⟩).2.2⟩
  with_unfolding_all decide

end Check

end ZapTrace.BoardKeepout
