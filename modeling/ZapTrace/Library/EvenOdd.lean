import Mathlib.Analysis.Convex.Basic
import ZapTrace.Library.Plane
import ZapTrace.Library.RayCast

/-!
# The even-odd rule

A point is inside of a polygon when a ray to the right of it crosses an odd number of edges. An edge has its upper end
and not its lower one, so that a ray through a vertex is counted once.

Along a segment that meets no edge the parity does not change. For two points on one height each edge is crossed by both
rays or by neither. Otherwise the edges that only one of the rays crosses are those that leave or enter the part of the
strip between the two heights that is to the right of the segment, and a closed line does that an even number of times.

## Main results

* `EvenOdd.inside_eq_of_free`: two points with no edge between them are on one side
-/

namespace EvenOdd

open Plane List
open RayCast (Exits)

/-- The edges of a polygon: each vertex with the next one, and the last with the first. -/
def edges {α : Type} (points : List α) : List (α × α) := points.zip (points.drop 1 ++ points.take 1)

theorem edges_perm {α : Type} (points : List α) : ((edges points).map Prod.snd).Perm ((edges points).map Prod.fst) := by
  have hlength : (points.drop 1 ++ points.take 1).length = points.length := by
    rw [length_append, length_drop, length_take]
    omega
  rw [edges, map_fst_zip hlength.ge, map_snd_zip hlength.le]
  exact perm_append_comm.trans (.of_eq (take_append_drop 1 points))

section Parity

variable {α : Type} {f g h : α → Bool} {es : List α}

theorem foldl_toggle_iff (es : List α) (b : Bool) :
    (es.foldl (fun b e => if f e then !b else b) b = true ↔ (Even (es.countP f) ↔ b = true)) := by
  induction es generalizing b with
  | nil => simp
  | cons e es ih =>
    rw [foldl_cons, ih, countP_cons]
    by_cases hf : f e = true
    · rw [if_pos hf, if_pos hf, Nat.even_add_one]
      cases b <;> simp
    · rw [if_neg hf, if_neg hf, add_zero]

theorem even_iff_of_xor (hxor : ∀ e ∈ es, (f e ^^ g e) = h e) (heven : Even (es.countP h)) :
    Even (es.countP f) ↔ Even (es.countP g) := by
  have hsum : ∀ es : List α, (∀ e ∈ es, (f e ^^ g e) = h e) →
      (Even (es.countP h) ↔ (Even (es.countP f) ↔ Even (es.countP g))) := by
    intro es hxor
    induction es with
    | nil => simp
    | cons e es ih =>
      obtain ⟨he, hrest⟩ := forall_mem_cons.mp hxor
      have ih := ih hrest
      rw [countP_cons, countP_cons, countP_cons, ← he]
      cases f e <;> cases g e <;> simp [Nat.even_add_one, ih, -Nat.not_even_iff_odd] <;> tauto
  exact (hsum es hxor).mp heven

end Parity

variable {K : Type} [Field K] [LinearOrder K]

/-- The ray to the right of a point crosses an edge. -/
def Crosses (p : Point K) (e : Point K × Point K) : Prop :=
  ¬(p.2 < e.1.2 ↔ p.2 < e.2.2) ∧ p.1 < e.1.1 + (p.2 - e.1.2) * (e.2.1 - e.1.1) / (e.2.2 - e.1.2)

instance (p : Point K) (e : Point K × Point K) : Decidable (Crosses p e) := inferInstanceAs (Decidable (_ ∧ _))

/-- The rule: each crossing turns the answer over. -/
def inside (p : Point K) (points : List (Point K)) : Bool :=
  (edges points).foldl (fun inside e => if Crosses p e then !inside else inside) false

variable [IsStrictOrderedRing K]

theorem exists_crossing {e : Point K × Point K} {y : K} (h : ¬(y < e.1.2 ↔ y < e.2.2)) :
    ∃ z ∈ segment K e.1 e.2, z.2 = y ∧ ∀ p : Point K, p.2 = y → (Crosses p e ↔ p.1 < z.1) := by
  have hne : e.2.2 - e.1.2 ≠ 0 := by
    intro hzero
    rw [sub_eq_zero.mp hzero] at h
    exact h Iff.rfl
  refine ⟨along e.1 e.2 ((y - e.1.2) / (e.2.2 - e.1.2)), ?_, ?_, ?_⟩
  · rcases lt_or_gt_of_ne hne with hneg | hpos
    · have hdown : e.2.2 ≤ y ∧ y < e.1.2 := by
        by_contra hnot
        exact h ⟨fun h1 => by_contra fun h2 => hnot ⟨not_lt.mp h2, h1⟩, fun h2 => by linarith⟩
      exact along_mem (div_nonneg_of_nonpos (by linarith) hneg.le) ((div_le_one_of_neg hneg).mpr (by linarith))
    · have hup : e.1.2 ≤ y ∧ y < e.2.2 := by
        by_contra hnot
        exact h ⟨fun h1 => by linarith, fun h2 => by_contra fun h1 => hnot ⟨not_lt.mp h1, h2⟩⟩
      exact along_mem (div_nonneg (by linarith) hpos.le) ((div_le_one hpos).mpr (by linarith))
  · show e.1.2 + (y - e.1.2) / (e.2.2 - e.1.2) * (e.2.2 - e.1.2) = y
    rw [div_mul_cancel₀ _ hne, add_sub_cancel]
  · rintro p rfl
    rw [Crosses, and_iff_right h]
    show _ ↔ p.1 < e.1.1 + (p.2 - e.1.2) / (e.2.2 - e.1.2) * (e.2.1 - e.1.1)
    rw [div_mul_eq_mul_div]

section Strip

variable {p q : Point K} (hpq : p.2 < q.2) {e : Point K × Point K}
  (hfree : ∀ x ∈ segment K p q, x ∉ segment K e.1 e.2)

include hpq

theorem mem_of_orient {z : Point K} (horient : orient p q z = 0) (hlow : p.2 ≤ z.2) (hhigh : z.2 ≤ q.2) :
    z ∈ segment K p q := by
  have hpos : 0 < q.2 - p.2 := sub_pos.mpr hpq
  refine mem_segment_iff.mpr ⟨(z.2 - p.2) / (q.2 - p.2), div_nonneg (by linarith) hpos.le,
    (div_le_one hpos).mpr (by linarith), ?_⟩
  rw [orient] at horient
  ext
  · show p.1 + (z.2 - p.2) / (q.2 - p.2) * (q.1 - p.1) = z.1
    field_simp
    linear_combination horient
  · show p.2 + (z.2 - p.2) / (q.2 - p.2) * (q.2 - p.2) = z.2
    rw [div_mul_cancel₀ _ hpos.ne', add_sub_cancel]

include hfree

theorem side_of_side {u w : Point K} (hu : u ∈ segment K e.1 e.2) (hw : w ∈ segment K e.1 e.2)
    (hu' : p.2 ≤ u.2 ∧ u.2 ≤ q.2) (hw' : p.2 ≤ w.2 ∧ w.2 ≤ q.2) (hside : orient p q u < 0) : orient p q w < 0 := by
  by_contra hnot
  have hpos : 0 < orient p q w - orient p q u := by linarith
  -- where the side changes the edge is on the line
  have ht0 : 0 ≤ -orient p q u / (orient p q w - orient p q u) := div_nonneg (by linarith) hpos.le
  have ht1 : -orient p q u / (orient p q w - orient p q u) ≤ 1 := (div_le_one hpos).mpr (by linarith)
  have hz := along_mem (a := u) (b := w) ht0 ht1
  refine hfree _ (mem_of_orient hpq ?_ ?_ ?_) ((convex_segment e.1 e.2).segment_subset hu hw hz)
  · have haffine : ∀ t, orient p q (along u w t) = orient p q u + t * (orient p q w - orient p q u) := by
      intro t
      simp only [orient, along]
      ring
    rw [haffine, div_mul_cancel₀ _ hpos.ne', add_neg_cancel]
  · exact (le_min hu'.1 hw'.1).trans (inBox_of_mem hz).2.1
  · exact (inBox_of_mem hz).2.2.trans (max_le hu'.2 hw'.2)

/-- The part of the strip to the right of the segment: it is left or entered where one of the rays crosses the edge. -/
theorem xor_crosses (S : Point K → Bool) (hS : ∀ v, S v = true ↔ p.2 < v.2 ∧ ¬q.2 < v.2 ∧ orient p q v < 0) :
    (decide (Crosses p e) ^^ decide (Crosses q e)) = Exits S e := by
  have hside : ∀ u w, u ∈ segment K e.1 e.2 → w ∈ segment K e.1 e.2 → p.2 ≤ u.2 ∧ u.2 ≤ q.2 → p.2 ≤ w.2 ∧ w.2 ≤ q.2 →
      (orient p q u < 0 ↔ orient p q w < 0) := fun u w hu hw hu' hw' =>
    ⟨side_of_side hpq hfree hu hw hu' hw', side_of_side hpq hfree hw hu hw' hu'⟩
  have ha := left_mem_segment K e.1 e.2
  have hb := right_mem_segment K e.1 e.2
  have hpq' : 0 < q.2 - p.2 := sub_pos.mpr hpq
  -- at the height of either point the crossing is a matter of the side
  have hlow : ¬(p.2 < e.1.2 ↔ p.2 < e.2.2) → ∃ z ∈ segment K e.1 e.2, (p.2 ≤ z.2 ∧ z.2 ≤ q.2) ∧
      (Crosses p e ↔ orient p q z < 0) := by
    intro h
    obtain ⟨z, hz, hheight, hcross⟩ := exists_crossing h
    refine ⟨z, hz, ⟨hheight.ge, hheight.trans_le hpq.le⟩, (hcross p rfl).trans ?_⟩
    have horient : orient p q z = (q.2 - p.2) * (p.1 - z.1) := by
      rw [orient, hheight]
      ring
    rw [horient, ← mul_zero (q.2 - p.2), mul_lt_mul_iff_right₀ hpq', sub_neg]
  have hhigh : ¬(q.2 < e.1.2 ↔ q.2 < e.2.2) → ∃ z ∈ segment K e.1 e.2, (p.2 ≤ z.2 ∧ z.2 ≤ q.2) ∧
      (Crosses q e ↔ orient p q z < 0) := by
    intro h
    obtain ⟨z, hz, hheight, hcross⟩ := exists_crossing h
    refine ⟨z, hz, ⟨hpq.le.trans hheight.ge, hheight.le⟩, (hcross q rfl).trans ?_⟩
    have horient : orient p q z = (q.2 - p.2) * (q.1 - z.1) := by
      rw [orient, hheight]
      ring
    rw [horient, ← mul_zero (q.2 - p.2), mul_lt_mul_iff_right₀ hpq', sub_neg]
  have hexits : Exits S e = true ↔ ¬(S e.1 = true ↔ S e.2 = true) := by
    rw [Exits]
    cases S e.1 <;> cases S e.2 <;> decide
  have hlowhigh : ∀ v : Point K, q.2 < v.2 → p.2 < v.2 := fun v => hpq.trans
  have hmiddle : ∀ v : Point K, p.2 < v.2 → ¬q.2 < v.2 → p.2 ≤ v.2 ∧ v.2 ≤ q.2 := fun v h h' => ⟨h.le, not_lt.mp h'⟩
  rw [Bool.eq_iff_iff, hexits, hS, hS, Bool.xor_iff_ne, ne_eq, decide_eq_decide]
  by_cases hp : p.2 < e.1.2 ↔ p.2 < e.2.2
  · have hnone : ¬Crosses p e := fun h => h.1 hp
    by_cases hq : q.2 < e.1.2 ↔ q.2 < e.2.2
    · -- both ends are in one zone
      have hnone' : ¬Crosses q e := fun h => h.1 hq
      have hends := fun h h' => hside _ _ ha hb (hmiddle e.1 h h') (hmiddle e.2 (hp.mp h) (hq.not.mp h'))
      grind
    · obtain ⟨z, hz, hstrip, hcross⟩ := hhigh hq
      have hends := fun h h' => hside z e.1 hz ha hstrip (hmiddle e.1 h h')
      have hends' := fun h h' => hside z e.2 hz hb hstrip (hmiddle e.2 h h')
      have h1 := hlowhigh e.1
      have h2 := hlowhigh e.2
      grind
  · obtain ⟨z, hz, hstrip, hcross⟩ := hlow hp
    by_cases hq : q.2 < e.1.2 ↔ q.2 < e.2.2
    · have hnone : ¬Crosses q e := fun h => h.1 hq
      have hends := fun h h' => hside z e.1 hz ha hstrip (hmiddle e.1 h h')
      have hends' := fun h h' => hside z e.2 hz hb hstrip (hmiddle e.2 h h')
      have h1 := hlowhigh e.1
      have h2 := hlowhigh e.2
      grind
    · -- the edge goes through the whole strip
      obtain ⟨z', hz', hstrip', hcross'⟩ := hhigh hq
      have hends := hside z z' hz hz' hstrip hstrip'
      have h1 := hlowhigh e.1
      have h2 := hlowhigh e.2
      grind

end Strip

theorem crosses_of_eq {p q : Point K} (hpq : p.2 = q.2) {e : Point K × Point K}
    (hfree : ∀ x ∈ segment K p q, x ∉ segment K e.1 e.2) (h : Crosses p e) : Crosses q e := by
  obtain ⟨z, hz, hheight, hcross⟩ := exists_crossing h.1
  have hleft := (hcross p rfl).mp h
  apply (hcross q hpq.symm).mpr
  by_contra hright
  -- the edge would meet the segment between the two
  refine hfree z (mem_segment_iff_orient.mpr ⟨?_, ?_, ?_⟩) hz
  · rw [orient, hheight, hpq]
    ring
  · exact ⟨(min_le_left _ _).trans hleft.le, (not_lt.mp hright).trans (le_max_right _ _)⟩
  · rw [hheight, ← hpq, min_self, max_self]
    exact ⟨le_rfl, le_rfl⟩

/-- **Two points with no edge between them** are on one side of a polygon. -/
theorem inside_eq_of_free {p q : Point K} {points : List (Point K)}
    (hfree : ∀ e ∈ edges points, ∀ x ∈ segment K p q, x ∉ segment K e.1 e.2) : inside p points = inside q points := by
  have hrise : ∀ p q : Point K, p.2 < q.2 → (∀ e ∈ edges points, ∀ x ∈ segment K p q, x ∉ segment K e.1 e.2) →
      (Even ((edges points).countP fun e => decide (Crosses p e)) ↔
        Even ((edges points).countP fun e => decide (Crosses q e))) := by
    intro p q hpq hfree
    let S : Point K → Bool := fun v => decide (p.2 < v.2 ∧ ¬q.2 < v.2 ∧ orient p q v < 0)
    refine even_iff_of_xor (h := Exits S) (fun e he => ?_) (RayCast.even_exits_of_perm S (edges_perm points))
    exact xor_crosses hpq (hfree e he) S fun v => decide_eq_true_iff
  have heven : Even ((edges points).countP fun e => decide (Crosses p e)) ↔
      Even ((edges points).countP fun e => decide (Crosses q e)) := by
    rcases lt_trichotomy p.2 q.2 with hlt | heq | hgt
    · exact hrise p q hlt hfree
    · have hcount := countP_congr (l := edges points) (p := fun e => decide (Crosses p e))
        (q := fun e => decide (Crosses q e)) fun e he => by
          rw [decide_eq_true_iff, decide_eq_true_iff]
          exact ⟨crosses_of_eq heq (hfree e he),
            crosses_of_eq heq.symm fun x hx => hfree e he x (segment_symm K q p ▸ hx)⟩
      rw [hcount]
    · exact (hrise q p hgt fun e he x hx => hfree e he x (segment_symm K q p ▸ hx)).symm
  have hfold : ∀ p : Point K, (inside p points = true ↔ ¬Even ((edges points).countP fun e => decide (Crosses p e))) := by
    intro p
    have htoggle := foldl_toggle_iff (f := fun e => decide (Crosses p e)) (edges points) false
    simp only [decide_eq_true_eq, Bool.false_eq_true, iff_false] at htoggle
    exact htoggle
  rw [Bool.eq_iff_iff, hfold, hfold, heven]

end EvenOdd
