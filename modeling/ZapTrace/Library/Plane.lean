import Mathlib.Analysis.Convex.Segment
import Mathlib.Tactic.FieldSimp
import Mathlib.Tactic.Linarith
import Mathlib.Tactic.LinearCombination
import Mathlib.Tactic.Ring

/-!
# Distances of segments in the plane

Points have coordinates in a linearly ordered field, and a distance is given by its square, so that it
can be compared without roots. The distance of two segments that do not meet is that of an end of one to
the other: from any two points one can move along both segments, without moving apart, until an end is
reached.

## Main results

* `distSq_nearest_le`: the nearest point is nearest
* `endDistSq_le_distSq`: two segments that do not meet are closest at an end of one
* `mem_segment_iff_orient`: a point of the line that is in the box is on the segment
* `meet_iff`: when two segments meet
-/

set_option linter.unusedSectionVars false

namespace Plane

/-! ## Literals

Each literal of a field other than `0` and `1` carries a proof that it is at least two. With these names
for the proofs a definition that has the literal refers to no proof of another definition. -/

scoped instance atLeastTwo_2 : Nat.AtLeastTwo 2 := ⟨by decide⟩
scoped instance atLeastTwo_3 : Nat.AtLeastTwo 3 := ⟨by decide⟩
scoped instance atLeastTwo_4 : Nat.AtLeastTwo 4 := ⟨by decide⟩
scoped instance atLeastTwo_5 : Nat.AtLeastTwo 5 := ⟨by decide⟩
scoped instance atLeastTwo_10 : Nat.AtLeastTwo 10 := ⟨by decide⟩
scoped instance atLeastTwo_13 : Nat.AtLeastTwo 13 := ⟨by decide⟩
scoped instance atLeastTwo_15 : Nat.AtLeastTwo 15 := ⟨by decide⟩
scoped instance atLeastTwo_20 : Nat.AtLeastTwo 20 := ⟨by decide⟩
scoped instance atLeastTwo_40 : Nat.AtLeastTwo 40 := ⟨by decide⟩
scoped instance atLeastTwo_44 : Nat.AtLeastTwo 44 := ⟨by decide⟩
scoped instance atLeastTwo_45 : Nat.AtLeastTwo 45 := ⟨by decide⟩
scoped instance atLeastTwo_48 : Nat.AtLeastTwo 48 := ⟨by decide⟩
scoped instance atLeastTwo_80 : Nat.AtLeastTwo 80 := ⟨by decide⟩
scoped instance atLeastTwo_85 : Nat.AtLeastTwo 85 := ⟨by decide⟩
scoped instance atLeastTwo_89 : Nat.AtLeastTwo 89 := ⟨by decide⟩
scoped instance atLeastTwo_91 : Nat.AtLeastTwo 91 := ⟨by decide⟩
scoped instance atLeastTwo_100 : Nat.AtLeastTwo 100 := ⟨by decide⟩
scoped instance atLeastTwo_137 : Nat.AtLeastTwo 137 := ⟨by decide⟩
scoped instance atLeastTwo_180 : Nat.AtLeastTwo 180 := ⟨by decide⟩
scoped instance atLeastTwo_249 : Nat.AtLeastTwo 249 := ⟨by decide⟩
scoped instance atLeastTwo_254 : Nat.AtLeastTwo 254 := ⟨by decide⟩
scoped instance atLeastTwo_725 : Nat.AtLeastTwo 725 := ⟨by decide⟩
scoped instance atLeastTwo_1000 : Nat.AtLeastTwo 1000 := ⟨by decide⟩
scoped instance atLeastTwo_10000 : Nat.AtLeastTwo 10000 := ⟨by decide⟩
scoped instance atLeastTwo_1000000 : Nat.AtLeastTwo 1000000 := ⟨by decide⟩

variable {K : Type} [Field K] [LinearOrder K] [IsStrictOrderedRing K]

abbrev Point (K : Type) := K × K

def vec (a b : Point K) : Point K := (b.1 - a.1, b.2 - a.2)

def dot (u v : Point K) : K := u.1 * v.1 + u.2 * v.2

def cross (u v : Point K) : K := u.1 * v.2 - u.2 * v.1

/-- The square of the distance of two points. -/
def distSq (a b : Point K) : K := (b.1 - a.1) ^ 2 + (b.2 - a.2) ^ 2

def along (a b : Point K) (t : K) : Point K := (a.1 + t * (b.1 - a.1), a.2 + t * (b.2 - a.2))

/-- The square root of `n` is at least `c`. -/
def AtLeast (n c : K) : Prop := c ≤ 0 ∨ c ^ 2 ≤ n

instance (n c : K) : Decidable (AtLeast n c) := inferInstanceAs (Decidable (_ ∨ _))

/-- `max(0, min(1, t))` -/
def clamp (t : K) : K := max 0 (min 1 t)

/-- The point of a segment that is nearest to a point. A segment may be a point. -/
def nearest (p a b : Point K) : Point K :=
  along a b (clamp (dot (vec a p) (vec a b) / dot (vec a b) (vec a b)))

theorem AtLeast.mono {n n' c : K} (h : AtLeast n c) (hn : n ≤ n') : AtLeast n' c :=
  h.imp id fun hc => hc.trans hn

theorem distSq_comm (a b : Point K) : distSq a b = distSq b a := by
  unfold distSq
  ring

theorem distSq_nonneg (a b : Point K) : 0 ≤ distSq a b := by
  unfold distSq
  positivity

@[simp] theorem along_zero (a b : Point K) : along a b 0 = a := by simp [along]

@[simp] theorem along_one (a b : Point K) : along a b 1 = b := by simp [along]

theorem mem_segment_iff {a b x : Point K} :
    x ∈ segment K a b ↔ ∃ t, 0 ≤ t ∧ t ≤ 1 ∧ along a b t = x := by
  rw [segment_eq_image', Set.mem_image]
  simp only [Set.mem_Icc, and_assoc]
  rfl

theorem along_mem {a b : Point K} {t : K} (h0 : 0 ≤ t) (h1 : t ≤ 1) : along a b t ∈ segment K a b :=
  mem_segment_iff.mpr ⟨t, h0, h1, rfl⟩

theorem clamp_nonneg (t : K) : 0 ≤ clamp t := le_max_left _ _

theorem clamp_le_one (t : K) : clamp t ≤ 1 := max_le zero_le_one (min_le_left _ _)

theorem nearest_mem (p a b : Point K) : nearest p a b ∈ segment K a b :=
  along_mem (clamp_nonneg _) (clamp_le_one _)

/-! ## Nearest points -/

theorem clamp_of_nonpos {t : K} (h : t ≤ 0) : clamp t = 0 :=
  max_eq_left ((min_le_right _ _).trans h)

theorem clamp_of_one_le {t : K} (h : 1 ≤ t) : clamp t = 1 := by
  rw [clamp, min_eq_left h, max_eq_right zero_le_one]

theorem clamp_of_mem {t : K} (h0 : 0 ≤ t) (h1 : t ≤ 1) : clamp t = t := by
  rw [clamp, min_eq_right h1, max_eq_right h0]

theorem sq_clamp_sub_le {t t₀ : K} (h0 : 0 ≤ t) (h1 : t ≤ 1) :
    (clamp t₀ - t₀) ^ 2 ≤ (t - t₀) ^ 2 := by
  rcases le_total t₀ 0 with hlow | hlow
  · rw [clamp_of_nonpos hlow]
    nlinarith
  · rcases le_total t₀ 1 with hhigh | hhigh
    · rw [clamp_of_mem hlow hhigh, sub_self]
      nlinarith [sq_nonneg (t - t₀)]
    · rw [clamp_of_one_le hhigh]
      nlinarith

theorem distSq_along (p a b : Point K) (t : K) :
    distSq p (along a b t) = distSq p a - 2 * t * dot (vec a p) (vec a b) +
      t ^ 2 * dot (vec a b) (vec a b) := by
  simp only [distSq, along, dot, vec]
  ring

theorem dot_self_pos {u : Point K} (h : u ≠ 0) : 0 < dot u u := by
  have hne : u.1 ≠ 0 ∨ u.2 ≠ 0 := by
    by_contra hboth
    obtain ⟨h1, h2⟩ := not_or.mp hboth
    exact h (Prod.ext (not_not.mp h1) (not_not.mp h2))
  unfold dot
  rcases hne with h1 | h2
  · nlinarith [mul_self_pos.mpr h1, mul_self_nonneg u.2]
  · nlinarith [mul_self_pos.mpr h2, mul_self_nonneg u.1]

/-- **The nearest point** of a segment is nearest. -/
theorem distSq_nearest_le {p a b x : Point K} (hx : x ∈ segment K a b) :
    distSq p (nearest p a b) ≤ distSq p x := by
  obtain ⟨t, h0, h1, rfl⟩ := mem_segment_iff.mp hx
  unfold nearest
  by_cases hu : vec a b = 0
  · -- the segment is a point
    have hzero : dot (vec a b) (vec a b) = 0 ∧ dot (vec a p) (vec a b) = 0 := by simp [hu, dot]
    rw [distSq_along, distSq_along, hzero.1, hzero.2]
    simp
  · have hpos := dot_self_pos hu
    rw [distSq_along, distSq_along]
    set m := dot (vec a p) (vec a b)
    set L := dot (vec a b) (vec a b)
    have hsquare : ∀ r : K, distSq p a - 2 * r * m + r ^ 2 * L =
        distSq p a - m ^ 2 / L + L * (r - m / L) ^ 2 := by
      intro r
      field_simp
      ring
    rw [hsquare, hsquare]
    have hnear : ∀ t₀ : K, (clamp t₀ - t₀) ^ 2 ≤ (t - t₀) ^ 2 := fun _ => sq_clamp_sub_le h0 h1
    have hclamp := mul_le_mul_of_nonneg_left (hnear (m / L)) hpos.le
    linarith

/-! ## Moving along two segments -/

theorem exists_exit {s α : K} (hα : α ≠ 0) (h0 : 0 ≤ s) (h1 : s ≤ 1) :
    ∃ r, 0 ≤ r ∧ (s + r * α = 0 ∨ s + r * α = 1) ∧
      ∀ r', 0 ≤ r' → r' ≤ r → 0 ≤ s + r' * α ∧ s + r' * α ≤ 1 := by
  rcases lt_or_gt_of_ne hα with hneg | hpos
  · have hpos : 0 < -α := neg_pos.mpr hneg
    refine ⟨s / -α, div_nonneg h0 hpos.le, .inl (by field_simp; ring), fun r' hr' hle => ?_⟩
    have hmul := (le_div_iff₀ hpos).mp hle
    constructor <;> nlinarith
  · refine ⟨(1 - s) / α, div_nonneg (by linarith) hpos.le, .inr (by field_simp; ring), fun r' hr' hle => ?_⟩
    have hmul := (le_div_iff₀ hpos).mp hle
    constructor <;> nlinarith

theorem exists_exit_pair {s t α β : K} (hne : α ≠ 0 ∨ β ≠ 0) (hs0 : 0 ≤ s) (hs1 : s ≤ 1) (ht0 : 0 ≤ t)
    (ht1 : t ≤ 1) :
    ∃ r, 0 ≤ r ∧ (s + r * α = 0 ∨ s + r * α = 1 ∨ t + r * β = 0 ∨ t + r * β = 1) ∧
      ∀ r', 0 ≤ r' → r' ≤ r → (0 ≤ s + r' * α ∧ s + r' * α ≤ 1) ∧ 0 ≤ t + r' * β ∧ t + r' * β ≤ 1 := by
  by_cases hα : α = 0
  · obtain ⟨r, hr, hend, hin⟩ := exists_exit (hne.resolve_left (not_not.mpr hα)) ht0 ht1
    refine ⟨r, hr, .inr (.inr hend), fun r' hr' hle => ⟨?_, hin r' hr' hle⟩⟩
    rw [hα, mul_zero, add_zero]
    exact ⟨hs0, hs1⟩
  by_cases hβ : β = 0
  · obtain ⟨r, hr, hend, hin⟩ := exists_exit hα hs0 hs1
    refine ⟨r, hr, hend.imp id .inl, fun r' hr' hle => ⟨hin r' hr' hle, ?_⟩⟩
    rw [hβ, mul_zero, add_zero]
    exact ⟨ht0, ht1⟩
  · obtain ⟨r, hr, hend, hin⟩ := exists_exit hα hs0 hs1
    obtain ⟨q, hq, hend', hin'⟩ := exists_exit hβ ht0 ht1
    -- the earlier of the two
    rcases le_total r q with hle | hle
    · exact ⟨r, hr, hend.imp id .inl, fun r' hr' hr'r =>
        ⟨hin r' hr' hr'r, hin' r' hr' (hr'r.trans hle)⟩⟩
    · exact ⟨q, hq, .inr (.inr hend'), fun r' hr' hr'q =>
        ⟨hin r' hr' (hr'q.trans hle), hin' r' hr' hr'q⟩⟩

variable {a b c d : Point K}

theorem along_crossing (h : cross (vec a b) (vec c d) ≠ 0) :
    along a b (cross (vec a c) (vec c d) / cross (vec a b) (vec c d)) =
      along c d (cross (vec a c) (vec a b) / cross (vec a b) (vec c d)) := by
  obtain ⟨D, hD⟩ : ∃ D, D = cross (vec a b) (vec c d) := ⟨_, rfl⟩
  rw [← hD] at h ⊢
  simp only [along, cross, vec] at hD ⊢
  ext <;> field_simp <;> rw [hD] <;> ring

/-- The common point of the lines through two segments that are not parallel. -/
def crossing (a b c d : Point K) : Point K :=
  along a b (cross (vec a c) (vec c d) / cross (vec a b) (vec c d))

/-- The point that is as far on the other side of `p`. -/
def mirror (p x : Point K) : Point K := (2 * p.1 - x.1, 2 * p.2 - x.2)

theorem mirror_along (a b : Point K) (t : K) : mirror a (along a b t) = along a b (-t) := by
  simp only [mirror, along]
  ext <;> ring

theorem nearest_along {a b : Point K} (h : vec a b ≠ 0) (t : K) :
    nearest (along a b t) a b = along a b (clamp t) := by
  have hne := (dot_self_pos h).ne'
  have hdot : dot (vec a (along a b t)) (vec a b) = t * dot (vec a b) (vec a b) := by
    simp only [dot, vec, along]
    ring
  rw [nearest, hdot, mul_div_assoc, div_self hne, mul_one]

theorem exists_parallel {u v : Point K} (h : cross u v = 0) :
    ∃ α β : K, (α ≠ 0 ∨ β ≠ 0) ∧ α * u.1 = β * v.1 ∧ α * u.2 = β * v.2 := by
  by_cases hu : u = 0
  · exact ⟨1, 0, .inl one_ne_zero, by simp [hu], by simp [hu]⟩
  · refine ⟨dot u v, dot u u, .inr (dot_self_pos hu).ne', ?_, ?_⟩
    · simp only [cross, dot] at h ⊢
      linear_combination u.2 * h
    · simp only [cross, dot] at h ⊢
      linear_combination (-u.1) * h

/-- The vector between the points of two segments at parameters. -/
def gap (a b c d : Point K) (s t : K) : Point K := vec (along a b s) (along c d t)

theorem distSq_along_along (a b c d : Point K) (s t : K) :
    distSq (along a b s) (along c d t) = (gap a b c d s t).1 ^ 2 + (gap a b c d s t).2 ^ 2 := rfl

/-- Two segments that do not meet come no farther apart on the way to some end. -/
theorem exists_boundary_le (hdisjoint : ∀ x ∈ segment K a b, x ∉ segment K c d) {s t : K} (hs0 : 0 ≤ s) (hs1 : s ≤ 1)
    (ht0 : 0 ≤ t) (ht1 : t ≤ 1) :
    ∃ s' t', (0 ≤ s' ∧ s' ≤ 1) ∧ (0 ≤ t' ∧ t' ≤ 1) ∧ (s' = 0 ∨ s' = 1 ∨ t' = 0 ∨ t' = 1) ∧
      distSq (along a b s') (along c d t') ≤ distSq (along a b s) (along c d t) := by
  by_cases hcross : cross (vec a b) (vec c d) = 0
  · -- the segments are parallel, and one moves along both
    obtain ⟨α, β, hne, h1, h2⟩ := exists_parallel hcross
    obtain ⟨r, hr, hend, hin⟩ := exists_exit_pair hne hs0 hs1 ht0 ht1
    refine ⟨s + r * α, t + r * β, (hin r hr le_rfl).1, (hin r hr le_rfl).2, hend, le_of_eq ?_⟩
    have hx : (gap a b c d (s + r * α) (t + r * β)).1 = (gap a b c d s t).1 := by
      simp only [gap, vec, along] at h1 ⊢
      linear_combination (-r) * h1
    have hy : (gap a b c d (s + r * α) (t + r * β)).2 = (gap a b c d s t).2 := by
      simp only [gap, vec, along] at h2 ⊢
      linear_combination (-r) * h2
    rw [distSq_along_along, distSq_along_along, hx, hy]
  · -- one moves towards the crossing of the lines, which is not on both segments
    have hmeet := along_crossing hcross
    set s₀ := cross (vec a c) (vec c d) / cross (vec a b) (vec c d)
    set t₀ := cross (vec a c) (vec a b) / cross (vec a b) (vec c d)
    have hne : s₀ - s ≠ 0 ∨ t₀ - t ≠ 0 := by
      by_contra hboth
      obtain ⟨hs, ht⟩ := not_or.mp hboth
      have hs := sub_eq_zero.mp (not_not.mp hs)
      have ht := sub_eq_zero.mp (not_not.mp ht)
      rw [hs, ht] at hmeet
      exact hdisjoint _ (along_mem hs0 hs1) (hmeet ▸ along_mem ht0 ht1)
    obtain ⟨r, hr, hend, hin⟩ := exists_exit_pair hne hs0 hs1 ht0 ht1
    have hr1 : r < 1 := by
      by_contra hle
      obtain ⟨⟨h0, h1⟩, h0', h1'⟩ := hin 1 zero_le_one (not_lt.mp hle)
      rw [one_mul, add_sub_cancel] at h0 h1 h0' h1'
      exact hdisjoint _ (along_mem h0 h1) (hmeet ▸ along_mem h0' h1')
    refine ⟨s + r * (s₀ - s), t + r * (t₀ - t), (hin r hr le_rfl).1, (hin r hr le_rfl).2, hend, ?_⟩
    -- the gap shrinks by a factor
    have hx : (gap a b c d (s + r * (s₀ - s)) (t + r * (t₀ - t))).1 = (1 - r) * (gap a b c d s t).1 := by
      have h := congrArg Prod.fst hmeet
      simp only [gap, vec, along] at h ⊢
      linear_combination (-r) * h
    have hy : (gap a b c d (s + r * (s₀ - s)) (t + r * (t₀ - t))).2 = (1 - r) * (gap a b c d s t).2 := by
      have h := congrArg Prod.snd hmeet
      simp only [gap, vec, along] at h ⊢
      linear_combination (-r) * h
    rw [distSq_along_along, distSq_along_along, hx, hy]
    have hfactor : (1 - r) ^ 2 ≤ 1 := by nlinarith
    have hsquares : 0 ≤ (gap a b c d s t).1 ^ 2 + (gap a b c d s t).2 ^ 2 := by positivity
    calc ((1 - r) * (gap a b c d s t).1) ^ 2 + ((1 - r) * (gap a b c d s t).2) ^ 2
        = (1 - r) ^ 2 * ((gap a b c d s t).1 ^ 2 + (gap a b c d s t).2 ^ 2) := by ring
      _ ≤ 1 * ((gap a b c d s t).1 ^ 2 + (gap a b c d s t).2 ^ 2) :=
          mul_le_mul_of_nonneg_right hfactor hsquares
      _ = _ := one_mul _

def pointSegmentDistSq (p a b : Point K) : K := distSq p (nearest p a b)

/-- The least squared distance of an end of one segment to the other. -/
def endDistSq (a b c d : Point K) : K :=
  min (min (min (pointSegmentDistSq a c d) (pointSegmentDistSq b c d)) (pointSegmentDistSq c a b))
    (pointSegmentDistSq d a b)

theorem endDistSq_le (a b c d : Point K) :
    endDistSq a b c d ≤ pointSegmentDistSq a c d ∧ endDistSq a b c d ≤ pointSegmentDistSq b c d ∧
      endDistSq a b c d ≤ pointSegmentDistSq c a b ∧ endDistSq a b c d ≤ pointSegmentDistSq d a b := by
  unfold endDistSq
  refine ⟨?_, ?_, ?_, min_le_right _ _⟩
  · exact (min_le_left _ _).trans ((min_le_left _ _).trans (min_le_left _ _))
  · exact (min_le_left _ _).trans ((min_le_left _ _).trans (min_le_right _ _))
  · exact (min_le_left _ _).trans (min_le_right _ _)

theorem endDistSq_eq (a b c d : Point K) :
    endDistSq a b c d = pointSegmentDistSq a c d ∨ endDistSq a b c d = pointSegmentDistSq b c d ∨
      endDistSq a b c d = pointSegmentDistSq c a b ∨ endDistSq a b c d = pointSegmentDistSq d a b := by
  have hcases : ∀ p q : K, min p q = p ∨ min p q = q := min_choice
  unfold endDistSq
  rcases hcases (min (min (pointSegmentDistSq a c d) (pointSegmentDistSq b c d))
    (pointSegmentDistSq c a b)) (pointSegmentDistSq d a b) with h | h <;> rw [h]
  · rcases hcases (min (pointSegmentDistSq a c d) (pointSegmentDistSq b c d))
      (pointSegmentDistSq c a b) with h | h <;> rw [h]
    · rcases hcases (pointSegmentDistSq a c d) (pointSegmentDistSq b c d) with h | h <;> rw [h]
      · exact .inl rfl
      · exact .inr (.inl rfl)
    · exact .inr (.inr (.inl rfl))
  · exact .inr (.inr (.inr rfl))

theorem exists_endDistSq (a b c d : Point K) :
    ∃ x ∈ segment K a b, ∃ y ∈ segment K c d, distSq x y = endDistSq a b c d := by
  have ha := left_mem_segment K a b
  have hb := right_mem_segment K a b
  have hc := left_mem_segment K c d
  have hd := right_mem_segment K c d
  rcases endDistSq_eq a b c d with h | h | h | h <;> rw [h]
  · exact ⟨a, ha, _, nearest_mem a c d, rfl⟩
  · exact ⟨b, hb, _, nearest_mem b c d, rfl⟩
  · exact ⟨_, nearest_mem c a b, c, hc, distSq_comm _ _⟩
  · exact ⟨_, nearest_mem d a b, d, hd, distSq_comm _ _⟩

/-- **Two segments that do not meet** are closest at an end of one of them. -/
theorem endDistSq_le_distSq (hdisjoint : ∀ x ∈ segment K a b, x ∉ segment K c d) {x y : Point K}
    (hx : x ∈ segment K a b) (hy : y ∈ segment K c d) : endDistSq a b c d ≤ distSq x y := by
  obtain ⟨s, hs0, hs1, rfl⟩ := mem_segment_iff.mp hx
  obtain ⟨t, ht0, ht1, rfl⟩ := mem_segment_iff.mp hy
  obtain ⟨s', t', ⟨hs0', hs1'⟩, ⟨ht0', ht1'⟩, hend, hle⟩ := exists_boundary_le hdisjoint hs0 hs1 ht0 ht1
  obtain ⟨ha, hb, hc, hd⟩ := endDistSq_le a b c d
  have hx' := along_mem (a := a) (b := b) hs0' hs1'
  have hy' := along_mem (a := c) (b := d) ht0' ht1'
  refine le_trans ?_ hle
  rcases hend with rfl | rfl | rfl | rfl
  · rw [along_zero]
    exact ha.trans (distSq_nearest_le hy')
  · rw [along_one]
    exact hb.trans (distSq_nearest_le hy')
  · rw [along_zero, distSq_comm]
    exact hc.trans (distSq_nearest_le hx')
  · rw [along_one, distSq_comm]
    exact hd.trans (distSq_nearest_le hx')

/-! ## Points on segments -/

/-- On which side of the line through two points a third one is. -/
def orient (p q r : Point K) : K := (q.1 - p.1) * (r.2 - p.2) - (q.2 - p.2) * (r.1 - p.1)

def InBox (p q r : Point K) : Prop :=
  (min p.1 r.1 ≤ q.1 ∧ q.1 ≤ max p.1 r.1) ∧ min p.2 r.2 ≤ q.2 ∧ q.2 ≤ max p.2 r.2

instance (p q r : Point K) : Decidable (InBox p q r) := inferInstanceAs (Decidable (_ ∧ _))

theorem between_iff {x y z : K} (hne : x ≠ z) :
    (min x z ≤ y ∧ y ≤ max x z) ↔ 0 ≤ (y - x) / (z - x) ∧ (y - x) / (z - x) ≤ 1 := by
  rcases lt_or_gt_of_ne hne with hlt | hlt
  · have hpos : 0 < z - x := sub_pos.mpr hlt
    rw [min_eq_left hlt.le, max_eq_right hlt.le, le_div_iff₀ hpos, div_le_iff₀ hpos]
    constructor <;> rintro ⟨h1, h2⟩ <;> constructor <;> linarith
  · have hneg : z - x < 0 := sub_neg.mpr hlt
    rw [min_eq_right hlt.le, max_eq_left hlt.le, le_div_iff_of_neg hneg, div_le_iff_of_neg hneg]
    constructor <;> rintro ⟨h1, h2⟩ <;> constructor <;> linarith

theorem inBox_of_mem {p q r : Point K} (h : q ∈ segment K p r) : InBox p q r := by
  obtain ⟨t, h0, h1, rfl⟩ := mem_segment_iff.mp h
  have hbetween : ∀ x z : K, min x z ≤ x + t * (z - x) ∧ x + t * (z - x) ≤ max x z := by
    intro x z
    rcases le_total x z with hle | hle
    · rw [min_eq_left hle, max_eq_right hle]
      constructor <;> nlinarith
    · rw [min_eq_right hle, max_eq_left hle]
      constructor <;> nlinarith
  exact ⟨hbetween p.1 r.1, hbetween p.2 r.2⟩

/-- **A point is on a segment** exactly when it is on the line, and in the box of the ends. -/
theorem mem_segment_iff_orient {p q r : Point K} :
    q ∈ segment K p r ↔ orient p r q = 0 ∧ InBox p q r := by
  constructor
  · intro h
    refine ⟨?_, inBox_of_mem h⟩
    obtain ⟨t, -, -, rfl⟩ := mem_segment_iff.mp h
    simp only [orient, along]
    ring
  · rintro ⟨horient, hx, hy⟩
    rw [orient] at horient
    rw [mem_segment_iff]
    by_cases h1 : p.1 = r.1
    · by_cases h2 : p.2 = r.2
      · -- the segment is a point
        rw [← h1, min_self, max_self] at hx
        rw [← h2, min_self, max_self] at hy
        refine ⟨0, le_rfl, zero_le_one, ?_⟩
        rw [along_zero]
        exact Prod.ext (le_antisymm hx.1 hx.2) (le_antisymm hy.1 hy.2)
      · have hne : r.2 - p.2 ≠ 0 := sub_ne_zero.mpr (Ne.symm h2)
        obtain ⟨h0, h1'⟩ := (between_iff h2).mp hy
        refine ⟨_, h0, h1', Prod.ext ?_ ?_⟩
        · rw [← h1, min_self, max_self] at hx
          simp only [along, ← h1, sub_self, mul_zero, add_zero]
          exact le_antisymm hx.1 hx.2
        · simp only [along]
          field_simp
          ring
    · have hne : r.1 - p.1 ≠ 0 := sub_ne_zero.mpr (Ne.symm h1)
      obtain ⟨h0, h1'⟩ := (between_iff h1).mp hx
      refine ⟨_, h0, h1', Prod.ext ?_ ?_⟩
      · simp only [along]
        field_simp
        ring
      · simp only [along]
        field_simp
        linear_combination -horient

/-! ## Meeting segments -/

/-- The ends of two segments are on strictly different sides, or on one side and on the line. -/
def Straddles (o o' : K) : Prop := ¬ (0 < o ↔ 0 < o')

instance (o o' : K) : Decidable (Straddles o o') := inferInstanceAs (Decidable (¬ _))

theorem straddles_of_mul_neg {o o' : K} (h : o * o' < 0) : Straddles o o' := by
  intro hiff
  rcases lt_trichotomy o 0 with ho | ho | ho
  · have ho' : 0 < o' := by nlinarith
    exact ho.not_gt (hiff.mpr ho')
  · rw [ho, zero_mul] at h
    exact h.false
  · have ho' := hiff.mp ho
    nlinarith

theorem div_mem_of_straddles {o o' : K} (h : Straddles o o') :
    o - o' ≠ 0 ∧ 0 ≤ o / (o - o') ∧ o / (o - o') ≤ 1 := by
  rcases lt_or_ge 0 o with ho | ho
  · have ho' : o' ≤ 0 := not_lt.mp fun hpos => h (iff_of_true ho hpos)
    have hpos : 0 < o - o' := by linarith
    refine ⟨hpos.ne', div_nonneg ho.le hpos.le, ?_⟩
    rw [div_le_one hpos]
    linarith
  · have ho' : 0 < o' := by
      by_contra hle
      exact h (iff_of_false ho.not_gt hle)
    have hneg : o - o' < 0 := by linarith
    refine ⟨hneg.ne, div_nonneg_of_nonpos ho hneg.le, ?_⟩
    rw [div_le_one_of_neg hneg]
    linarith

/-- Where two segments meet, an end of one is on the other, or the ends of each are on opposite sides of the other. -/
theorem ends_or_opposite (h : ∃ x ∈ segment K a b, x ∈ segment K c d) :
    (c ∈ segment K a b ∨ d ∈ segment K a b ∨ a ∈ segment K c d ∨ b ∈ segment K c d) ∨
      orient a b c * orient a b d < 0 ∧ orient c d a * orient c d b < 0 := by
  obtain ⟨x, hx, hy⟩ := h
  obtain ⟨s, hs0, hs1, rfl⟩ := mem_segment_iff.mp hx
  obtain ⟨t, ht0, ht1, hmeet⟩ := mem_segment_iff.mp hy
  -- an end where the two parameters meet is on the other segment
  have hend : ∀ s t : K, along a b s = along c d t → (0 ≤ s ∧ s ≤ 1) → (0 ≤ t ∧ t ≤ 1) →
      (s = 0 ∨ s = 1 ∨ t = 0 ∨ t = 1) →
      c ∈ segment K a b ∨ d ∈ segment K a b ∨ a ∈ segment K c d ∨ b ∈ segment K c d := by
    rintro s t heq ⟨hs0, hs1⟩ ⟨ht0, ht1⟩ (rfl | rfl | rfl | rfl)
    · rw [along_zero] at heq
      exact .inr (.inr (.inl (heq ▸ along_mem ht0 ht1)))
    · rw [along_one] at heq
      exact .inr (.inr (.inr (heq ▸ along_mem ht0 ht1)))
    · rw [along_zero] at heq
      exact .inl (heq ▸ along_mem hs0 hs1)
    · rw [along_one] at heq
      exact .inr (.inl (heq ▸ along_mem hs0 hs1))
  by_cases hcross : cross (vec a b) (vec c d) = 0
  · -- along parallel segments the meeting point moves to an end
    obtain ⟨α, β, hne, h1, h2⟩ := exists_parallel hcross
    obtain ⟨r, hr, hboundary, hin⟩ := exists_exit_pair hne hs0 hs1 ht0 ht1
    refine .inl (hend (s + r * α) (t + r * β) (Prod.ext ?_ ?_) (hin r hr le_rfl).1 (hin r hr le_rfl).2
      hboundary)
    · have h := congrArg Prod.fst hmeet
      simp only [along, vec] at h h1 ⊢
      linear_combination r * h1 - h
    · have h := congrArg Prod.snd hmeet
      simp only [along, vec] at h h2 ⊢
      linear_combination r * h2 - h
  · by_cases hboundary : s = 0 ∨ s = 1 ∨ t = 0 ∨ t = 1
    · exact .inl (hend s t hmeet.symm ⟨hs0, hs1⟩ ⟨ht0, ht1⟩ hboundary)
    · simp only [not_or] at hboundary
      obtain ⟨hs0', hs1', ht0', ht1'⟩ := hboundary
      have hs0 := lt_of_le_of_ne hs0 (Ne.symm hs0')
      have hs1 := lt_of_le_of_ne hs1 hs1'
      have ht0 := lt_of_le_of_ne ht0 (Ne.symm ht0')
      have ht1 := lt_of_le_of_ne ht1 ht1'
      have h1 := congrArg Prod.fst hmeet
      have h2 := congrArg Prod.snd hmeet
      simp only [along] at h1 h2
      have hsq : 0 < cross (vec a b) (vec c d) ^ 2 := by positivity
      refine .inr ⟨?_, ?_⟩
      · have hproduct : orient a b c * orient a b d =
            -(t * (1 - t)) * cross (vec a b) (vec c d) ^ 2 := by
          have hc : orient a b c = -t * cross (vec a b) (vec c d) := by
            simp only [orient, cross, vec]
            linear_combination (b.1 - a.1) * h2 - (b.2 - a.2) * h1
          have hd : orient a b d = (1 - t) * cross (vec a b) (vec c d) := by
            simp only [orient, cross, vec]
            linear_combination (b.1 - a.1) * h2 - (b.2 - a.2) * h1
          rw [hc, hd]
          ring
        rw [hproduct]
        nlinarith [mul_pos (mul_pos ht0 (sub_pos.mpr ht1)) hsq]
      · have hproduct : orient c d a * orient c d b =
            -(s * (1 - s)) * cross (vec a b) (vec c d) ^ 2 := by
          have ha : orient c d a = s * cross (vec a b) (vec c d) := by
            simp only [orient, cross, vec]
            linear_combination (d.2 - c.2) * h1 - (d.1 - c.1) * h2
          have hb : orient c d b = (s - 1) * cross (vec a b) (vec c d) := by
            simp only [orient, cross, vec]
            linear_combination (d.2 - c.2) * h1 - (d.1 - c.1) * h2
          rw [ha, hb]
          ring
        rw [hproduct]
        nlinarith [mul_pos (mul_pos hs0 (sub_pos.mpr hs1)) hsq]
theorem meet_of_straddles (habs : Straddles (orient a b c) (orient a b d))
    (hcds : Straddles (orient c d a) (orient c d b)) : ∃ x ∈ segment K a b, x ∈ segment K c d := by
  obtain ⟨hne, ht0, ht1⟩ := div_mem_of_straddles habs
  obtain ⟨-, hs0, hs1⟩ := div_mem_of_straddles hcds
  refine ⟨_, along_mem hs0 hs1, ?_⟩
  have hcross : orient a b c - orient a b d = -cross (vec a b) (vec c d) := by
    simp only [orient, cross, vec]
    ring
  have hcross' : orient c d a - orient c d b = cross (vec a b) (vec c d) := by
    simp only [orient, cross, vec]
    ring
  have hc : orient a b c = -cross (vec a c) (vec a b) := by
    simp only [orient, cross, vec]
    ring
  have ha : orient c d a = cross (vec a c) (vec c d) := by
    simp only [orient, cross, vec]
    ring
  rw [hcross] at hne ht0 ht1
  rw [hc, neg_div_neg_eq] at ht0 ht1
  rw [hcross', ha, along_crossing (neg_ne_zero.mp hne)]
  exact along_mem ht0 ht1

theorem meet_of_ends (h : c ∈ segment K a b ∨ d ∈ segment K a b ∨ a ∈ segment K c d ∨ b ∈ segment K c d) :
    ∃ x ∈ segment K a b, x ∈ segment K c d := by
  rcases h with hc | hd | ha | hb
  · exact ⟨c, hc, left_mem_segment K c d⟩
  · exact ⟨d, hd, right_mem_segment K c d⟩
  · exact ⟨a, left_mem_segment K a b, ha⟩
  · exact ⟨b, right_mem_segment K a b, hb⟩

/-- **Two segments meet** exactly when an end of one is on the other, or the ends of each are on
different sides of the other. -/
theorem meet_iff :
    (∃ x ∈ segment K a b, x ∈ segment K c d) ↔
      (c ∈ segment K a b ∨ d ∈ segment K a b ∨ a ∈ segment K c d ∨ b ∈ segment K c d) ∨
        Straddles (orient a b c) (orient a b d) ∧ Straddles (orient c d a) (orient c d b) := by
  constructor
  · intro h
    exact (ends_or_opposite h).imp_right (And.imp straddles_of_mul_neg straddles_of_mul_neg)
  · rintro (hends | ⟨habs, hcds⟩)
    · exact meet_of_ends hends
    · exact meet_of_straddles habs hcds

theorem meet_iff_opposite :
    (∃ x ∈ segment K a b, x ∈ segment K c d) ↔
      (c ∈ segment K a b ∨ d ∈ segment K a b ∨ a ∈ segment K c d ∨ b ∈ segment K c d) ∨
        orient a b c * orient a b d < 0 ∧ orient c d a * orient c d b < 0 := by
  constructor
  · exact ends_or_opposite
  · rintro (hends | ⟨habs, hcds⟩)
    · exact meet_of_ends hends
    · exact meet_of_straddles (straddles_of_mul_neg habs) (straddles_of_mul_neg hcds)

end Plane
