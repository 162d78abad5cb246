import ZapTrace.Library.Plane

/-!
# Distances of boxes

A box has its sides along the axes, and is given by two opposite corners in any order. A segment along an
axis is such a box. The square of the distance of two boxes is the sum of the squares of the gaps between
their extents along the axes.

## Main results

* `forall_distSq_iff`: `boxGapSq` is the least squared distance
* `mem_segment_iff_inBox`: a segment along an axis is a box
-/

set_option linter.unusedSectionVars false

namespace Plane

variable {K : Type} [Field K] [LinearOrder K] [IsStrictOrderedRing K]

/-- How far the interval of `a` and `b` is from the interval of `c` and `d`. -/
def extentGap (a b c d : K) : K := max 0 (max (min a b - max c d) (min c d - max a b))

/-- The square of the distance of two boxes with given corners. -/
def boxGapSq (a b c d : Point K) : K := extentGap a.1 b.1 c.1 d.1 ^ 2 + extentGap a.2 b.2 c.2 d.2 ^ 2

theorem extentGap_nonneg (a b c d : K) : 0 ≤ extentGap a b c d := le_max_left _ _

theorem extentGap_of_le {a b c d : K} (h : min a b ≤ max c d) (h' : min c d ≤ max a b) : extentGap a b c d = 0 :=
  max_eq_left (max_le (sub_nonpos.mpr h) (sub_nonpos.mpr h'))

theorem extentGap_le_abs {a b c d x y : K} (hx : min a b ≤ x ∧ x ≤ max a b) (hy : min c d ≤ y ∧ y ≤ max c d) :
    extentGap a b c d ≤ |y - x| := by
  refine max_le (abs_nonneg _) (max_le ?_ ?_)
  · have hle : min a b - max c d ≤ x - y := by linarith [hx.1, hy.2]
    exact hle.trans ((le_abs_self _).trans (abs_sub_comm x y).le)
  · have hle : min c d - max a b ≤ y - x := by linarith [hx.2, hy.1]
    exact hle.trans (le_abs_self _)

theorem exists_abs_eq_extentGap (a b c d : K) :
    ∃ x y, (min a b ≤ x ∧ x ≤ max a b) ∧ (min c d ≤ y ∧ y ≤ max c d) ∧ |y - x| = extentGap a b c d := by
  have hab : min a b ≤ max a b := min_le_max
  have hcd : min c d ≤ max c d := min_le_max
  by_cases hleft : max c d < min a b
  · refine ⟨min a b, max c d, ⟨le_rfl, hab⟩, ⟨hcd, le_rfl⟩, ?_⟩
    have hgap : extentGap a b c d = min a b - max c d := by
      have hother : min c d - max a b ≤ min a b - max c d := by linarith
      rw [extentGap, max_eq_left hother, max_eq_right (by linarith)]
    rw [hgap, abs_sub_comm, abs_of_nonneg (by linarith)]
  by_cases hright : max a b < min c d
  · refine ⟨max a b, min c d, ⟨hab, le_rfl⟩, ⟨le_rfl, hcd⟩, ?_⟩
    have hgap : extentGap a b c d = min c d - max a b := by
      have hother : min a b - max c d ≤ min c d - max a b := by linarith
      rw [extentGap, max_eq_right hother, max_eq_right (by linarith)]
    rw [hgap, abs_of_nonneg (by linarith)]
  -- the greater of the two lower ends is in both intervals
  · have hleft' := not_lt.mp hleft
    have hright' := not_lt.mp hright
    refine ⟨max (min a b) (min c d), max (min a b) (min c d), ⟨le_max_left _ _, max_le hab hright'⟩,
      ⟨le_max_right _ _, max_le hleft' hcd⟩, ?_⟩
    rw [extentGap_of_le hleft' hright', sub_self, abs_zero]

theorem boxGapSq_le_distSq {a b c d p q : Point K} (hp : InBox a p b) (hq : InBox c q d) :
    boxGapSq a b c d ≤ distSq p q := by
  have hfirst := extentGap_le_abs hp.1 hq.1
  have hsecond := extentGap_le_abs hp.2 hq.2
  rw [boxGapSq, distSq, ← sq_abs (q.1 - p.1), ← sq_abs (q.2 - p.2)]
  gcongr <;> exact extentGap_nonneg _ _ _ _

/-- **The distance of two boxes** is given by their gaps. -/
theorem forall_distSq_iff (a b c d : Point K) (m : K) :
    (∀ p, InBox a p b → ∀ q, InBox c q d → m ≤ distSq p q) ↔ m ≤ boxGapSq a b c d := by
  constructor
  · intro h
    obtain ⟨x, x', hx, hx', hxgap⟩ := exists_abs_eq_extentGap a.1 b.1 c.1 d.1
    obtain ⟨y, y', hy, hy', hygap⟩ := exists_abs_eq_extentGap a.2 b.2 c.2 d.2
    have hm := h (x, y) ⟨hx, hy⟩ (x', y') ⟨hx', hy'⟩
    rwa [distSq, ← sq_abs (x' - x), ← sq_abs (y' - y), hxgap, hygap] at hm
  · intro h p hp q hq
    exact h.trans (boxGapSq_le_distSq hp hq)

theorem forall_atLeast_iff (a b c d : Point K) (m : K) :
    (∀ p, InBox a p b → ∀ q, InBox c q d → AtLeast (distSq p q) m) ↔ AtLeast (boxGapSq a b c d) m := by
  by_cases hm : m ≤ 0
  · exact ⟨fun _ => .inl hm, fun _ _ _ _ _ => .inl hm⟩
  · simp only [AtLeast, hm, false_or]
    exact forall_distSq_iff a b c d (m ^ 2)

theorem mem_segment_iff_inBox {a b p : Point K} (h : a.1 = b.1 ∨ a.2 = b.2) :
    p ∈ segment K a b ↔ InBox a p b := by
  rw [mem_segment_iff_orient, and_iff_right_iff_imp]
  rintro ⟨⟨hlow, hup⟩, hlow', hup'⟩
  rcases h with h | h
  · rw [h, min_self] at hlow
    rw [h, max_self] at hup
    have hp : p.1 = b.1 := le_antisymm hup hlow
    simp only [orient, h, hp]
    ring
  · rw [h, min_self] at hlow'
    rw [h, max_self] at hup'
    have hp : p.2 = b.2 := le_antisymm hup' hlow'
    simp only [orient, h, hp]
    ring

end Plane
