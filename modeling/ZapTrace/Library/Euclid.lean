import Mathlib.Analysis.Complex.Norm
import Mathlib.Analysis.SpecialFunctions.Trigonometric.Basic
import ZapTrace.Library.Turn

/-!
# Lengths in the plane

The length of a vector, with the square root as a parameter, and its laws over the reals: it is a norm, turns keep it,
and a vector in a square is no longer than half of its diagonal.

## Main results

* `Euclid.hypot_add_le`, `Euclid.hypot_le_iff`: the triangle inequality, and lengths by squares
* `Euclid.hypot_turned`: turns keep lengths
* `Euclid.hypot_le_half_diagonal`: vectors in a square
* `Euclid.exists_rounded`, `Euclid.roundedDistance_le`: the distance from a rounded box
-/

namespace Euclid

open Real

/-- The length of a vector, `math.hypot`. -/
def hypot {K : Type} [Add K] [Monoid K] (sqrt : K → K) (x y : K) : K := sqrt (x ^ 2 + y ^ 2)

theorem hypot_eq_norm (x y : ℝ) : hypot sqrt x y = ‖(⟨x, y⟩ : ℂ)‖ := by
  rw [Complex.norm_eq_sqrt_sq_add_sq]
  rfl

theorem hypot_nonneg (x y : ℝ) : 0 ≤ hypot sqrt x y := sqrt_nonneg _

theorem hypot_neg (x y : ℝ) : hypot sqrt (-x) (-y) = hypot sqrt x y := by
  rw [hypot, hypot, neg_sq, neg_sq]

theorem hypot_add_le (x y x' y' : ℝ) :
    hypot sqrt (x + x') (y + y') ≤ hypot sqrt x y + hypot sqrt x' y' := by
  rw [hypot_eq_norm, hypot_eq_norm, hypot_eq_norm]
  exact norm_add_le (⟨x, y⟩ : ℂ) ⟨x', y'⟩

theorem hypot_le_iff {x y c : ℝ} (hc : 0 ≤ c) : hypot sqrt x y ≤ c ↔ x ^ 2 + y ^ 2 ≤ c ^ 2 :=
  sqrt_le_left hc

theorem hypot_le_hypot {x y x' y' : ℝ} (hx : |x| ≤ |x'|) (hy : |y| ≤ |y'|) :
    hypot sqrt x y ≤ hypot sqrt x' y' :=
  sqrt_le_sqrt (add_le_add (sq_le_sq.mpr hx) (sq_le_sq.mpr hy))

theorem abs_fst_le_hypot (x y : ℝ) : |x| ≤ hypot sqrt x y := by
  apply abs_le_sqrt
  linarith [sq_nonneg y]

theorem abs_snd_le_hypot (x y : ℝ) : |y| ≤ hypot sqrt x y := by
  apply abs_le_sqrt
  linarith [sq_nonneg x]

theorem hypot_of_nonneg {x : ℝ} (hx : 0 ≤ x) : hypot sqrt x 0 = x := by
  rw [hypot, zero_pow two_ne_zero, add_zero, sqrt_sq hx]

theorem hypot_mul {t : ℝ} (ht : 0 ≤ t) (x y : ℝ) : hypot sqrt (t * x) (t * y) = t * hypot sqrt x y := by
  rw [hypot, hypot, mul_pow, mul_pow, ← mul_add, sqrt_mul (sq_nonneg t), sqrt_sq ht]

theorem hypot_turned (angle : ℝ) (v : ℝ × ℝ) :
    hypot sqrt (Turn.turned angle v).1 (Turn.turned angle v).2 = hypot sqrt v.1 v.2 := by
  have hunit := sin_sq_add_cos_sq angle
  rw [hypot, hypot, Turn.turned]
  congr 1
  linear_combination (v.1 ^ 2 + v.2 ^ 2) * hunit

theorem hypot_le_half_diagonal {x y side : ℝ} (hx : |x| ≤ side / 2) (hy : |y| ≤ side / 2) :
    hypot sqrt x y ≤ side / sqrt 2 := by
  have hside : 0 ≤ side / 2 := (abs_nonneg x).trans hx
  have hnonneg : 0 ≤ side / sqrt 2 := div_nonneg (by linarith) (sqrt_nonneg 2)
  rw [hypot_le_iff hnonneg, div_pow, sq_sqrt zero_le_two]
  have hx' := sq_le_sq' (neg_le_of_abs_le hx) (le_of_abs_le hx)
  have hy' := sq_le_sq' (neg_le_of_abs_le hy) (le_of_abs_le hy)
  linarith

/-! ## Nearest points -/

theorem exists_near_interval (x : ℝ) {a : ℝ} (ha : 0 ≤ a) :
    ∃ t, |t| ≤ a ∧ |x - t| = max (|x| - a) 0 ∧ ∀ s, |s| ≤ a → |x - t| ≤ |x - s| := by
  have hfar : ∀ t, |x - t| = max (|x| - a) 0 → ∀ s, |s| ≤ a → |x - t| ≤ |x - s| := by
    intro t ht s hs
    rw [ht]
    apply max_le
    · have hreverse := abs_sub_abs_le_abs_sub x s
      linarith
    · exact abs_nonneg _
  rcases le_or_gt |x| a with hin | hout
  · have hzero : |x - x| = max (|x| - a) 0 := by rw [sub_self, abs_zero, max_eq_right (by linarith)]
    exact ⟨x, hin, hzero, hfar x hzero⟩
  · rcases le_or_gt 0 x with hpos | hneg
    · rw [abs_of_nonneg hpos] at hout
      have hdist : |x - a| = max (|x| - a) 0 := by
        rw [abs_of_nonneg hpos, abs_of_pos (by linarith), max_eq_left (by linarith)]
      exact ⟨a, (abs_of_nonneg ha).le, hdist, hfar a hdist⟩
    · rw [abs_of_neg hneg] at hout
      have hdist : |x - -a| = max (|x| - a) 0 := by
        rw [abs_of_neg hneg, abs_of_neg (by linarith), max_eq_left (by linarith)]
        ring
      exact ⟨-a, by rw [abs_neg, abs_of_nonneg ha], hdist, hfar (-a) hdist⟩

theorem exists_near_disc (x y : ℝ) {r : ℝ} (hr : 0 ≤ r) :
    ∃ u v, hypot sqrt u v ≤ r ∧ hypot sqrt (x - u) (y - v) = max 0 (hypot sqrt x y - r) := by
  rcases le_or_gt (hypot sqrt x y) r with hin | hout
  · refine ⟨x, y, hin, ?_⟩
    rw [sub_self, sub_self, max_eq_left (by linarith), hypot_of_nonneg le_rfl]
  · have hlen : 0 < hypot sqrt x y := hr.trans_lt hout
    have hpart : r / hypot sqrt x y ≤ 1 := (div_le_one hlen).mpr hout.le
    refine ⟨r / hypot sqrt x y * x, r / hypot sqrt x y * y, ?_, ?_⟩
    · rw [hypot_mul (div_nonneg hr hlen.le), div_mul_cancel₀ _ hlen.ne']
    · have hrest : ∀ z, z - r / hypot sqrt x y * z = (1 - r / hypot sqrt x y) * z := fun z => by ring
      rw [hrest, hrest, hypot_mul (sub_nonneg.mpr hpart), sub_mul, one_mul, div_mul_cancel₀ _ hlen.ne',
        max_eq_right (by linarith)]

/-! ## Rounded boxes -/

/-- A point is within a radius of a box around the origin. -/
def Rounded (a b r : ℝ) (p : ℝ × ℝ) : Prop :=
  ∃ s t, |s| ≤ a ∧ |t| ≤ b ∧ hypot sqrt (p.1 - s) (p.2 - t) ≤ r

/-- How far a point is from a rounded box. -/
noncomputable def roundedDistance (a b r : ℝ) (p : ℝ × ℝ) : ℝ :=
  max 0 (hypot sqrt (max (|p.1| - a) 0) (max (|p.2| - b) 0) - r)

section Boxes

variable {a b r : ℝ} (ha : 0 ≤ a) (hb : 0 ≤ b)

include ha hb

theorem exists_near_box (p : ℝ × ℝ) : ∃ s t, |s| ≤ a ∧ |t| ≤ b ∧
    hypot sqrt (p.1 - s) (p.2 - t) = hypot sqrt (max (|p.1| - a) 0) (max (|p.2| - b) 0) ∧
      ∀ s' t', |s'| ≤ a → |t'| ≤ b → hypot sqrt (p.1 - s) (p.2 - t) ≤ hypot sqrt (p.1 - s') (p.2 - t') := by
  obtain ⟨s, hs, hsdist, hsnear⟩ := exists_near_interval p.1 ha
  obtain ⟨t, ht, htdist, htnear⟩ := exists_near_interval p.2 hb
  refine ⟨s, t, hs, ht, ?_, fun s' t' hs' ht' => hypot_le_hypot (hsnear s' hs') (htnear t' ht')⟩
  rw [← hsdist, ← htdist, hypot, hypot, sq_abs, sq_abs]

/-- The distance is reached at a point of the rounded box. -/
theorem exists_rounded (hr : 0 ≤ r) (p : ℝ × ℝ) :
    ∃ q, Rounded a b r q ∧ hypot sqrt (p.1 - q.1) (p.2 - q.2) = roundedDistance a b r p := by
  obtain ⟨s, t, hs, ht, hdist, -⟩ := exists_near_box ha hb p
  obtain ⟨u, v, huv, hrest⟩ := exists_near_disc (p.1 - s) (p.2 - t) hr
  refine ⟨(s + u, t + v), ⟨s, t, hs, ht, ?_⟩, ?_⟩
  · rwa [add_sub_cancel_left, add_sub_cancel_left]
  · rw [roundedDistance, ← hdist, ← hrest, sub_add_eq_sub_sub, sub_add_eq_sub_sub]

theorem roundedDistance_le (p : ℝ × ℝ) {q : ℝ × ℝ} (hq : Rounded a b r q) :
    roundedDistance a b r p ≤ hypot sqrt (p.1 - q.1) (p.2 - q.2) := by
  obtain ⟨s', t', hs', ht', hnear⟩ := hq
  obtain ⟨s, t, -, -, hdist, hmin⟩ := exists_near_box ha hb p
  apply max_le (hypot_nonneg _ _)
  have hstep := hypot_add_le (p.1 - q.1) (p.2 - q.2) (q.1 - s') (q.2 - t')
  rw [sub_add_sub_cancel, sub_add_sub_cancel] at hstep
  have hbox := hmin s' t' hs' ht'
  rw [← hdist]
  linarith

theorem hypot_le_of_rounded {q : ℝ × ℝ} (hq : Rounded a b r q) :
    hypot sqrt q.1 q.2 ≤ hypot sqrt (a + r) (b + r) := by
  obtain ⟨s, t, hs, ht, hnear⟩ := hq
  have hr : 0 ≤ r := (hypot_nonneg _ _).trans hnear
  have hfst := (abs_fst_le_hypot (q.1 - s) (q.2 - t)).trans hnear
  have hsnd := (abs_snd_le_hypot (q.1 - s) (q.2 - t)).trans hnear
  have hfst' := abs_sub_abs_le_abs_sub q.1 s
  have hsnd' := abs_sub_abs_le_abs_sub q.2 t
  apply hypot_le_hypot
  · rw [abs_of_nonneg (add_nonneg ha hr)]
    linarith
  · rw [abs_of_nonneg (add_nonneg hb hr)]
    linarith

end Boxes

end Euclid
