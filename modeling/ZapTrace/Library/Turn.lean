import Mathlib.Analysis.SpecialFunctions.Trigonometric.Basic
import Mathlib.Tactic.LinearCombination

/-!
# Turning vectors of the plane

A turn by an angle moves every vector except zero, unless the angle is a whole number of turns.

## Main results

* `turned_sub`, `turned_neg_turned`: turns are linear, and can be undone
* `turned_eq_self_iff`: the vectors that a turn keeps
-/

namespace Turn

open Real

noncomputable section

def turned (angle : ℝ) (v : ℝ × ℝ) : ℝ × ℝ :=
  (v.1 * cos angle - v.2 * sin angle, v.1 * sin angle + v.2 * cos angle)

@[simp] theorem turned_zero_vector (angle : ℝ) : turned angle (0, 0) = (0, 0) := by
  simp [turned]

theorem turned_sub (angle : ℝ) (v w : ℝ × ℝ) : turned angle (v - w) = turned angle v - turned angle w := by
  unfold turned
  ext
  · show (v.1 - w.1) * _ - (v.2 - w.2) * _ = _ - _
    ring
  · show (v.1 - w.1) * _ + (v.2 - w.2) * _ = _ + _ - (_ + _)
    ring

/-- Turning back. -/
@[simp] theorem turned_neg_turned (angle : ℝ) (v : ℝ × ℝ) : turned (-angle) (turned angle v) = v := by
  have hunit := sin_sq_add_cos_sq angle
  unfold turned
  rw [cos_neg, sin_neg]
  ext
  · show _ = v.1
    linear_combination v.1 * hunit
  · show _ = v.2
    linear_combination v.2 * hunit

theorem turned_whole (n : ℤ) (v : ℝ × ℝ) : turned (n * (2 * Real.pi)) v = v := by
  have hsin : sin (n * (2 * Real.pi)) = 0 := by
    rw [Real.sin_periodic.int_mul_eq, Real.sin_zero]
  simp [turned, cos_int_mul_two_pi, hsin]

/-- A vector that is kept is zero, or the angle is a whole number of turns. -/
theorem turned_eq_self_iff {angle : ℝ} {v : ℝ × ℝ} :
    turned angle v = v ↔ v = (0, 0) ∨ ∃ n : ℤ, (n : ℝ) * (2 * Real.pi) = angle := by
  constructor
  · intro h
    have hfirst : v.1 * cos angle - v.2 * sin angle = v.1 := congrArg Prod.fst h
    have hsecond : v.1 * sin angle + v.2 * cos angle = v.2 := congrArg Prod.snd h
    -- the product of the vector with what it is moved by
    have hproduct : (v.1 ^ 2 + v.2 ^ 2) * (cos angle - 1) = 0 := by
      linear_combination v.1 * hfirst + v.2 * hsecond
    rcases mul_eq_zero.mp hproduct with hnorm | hcos
    · left
      have h1 : v.1 = 0 := by nlinarith [sq_nonneg v.1, sq_nonneg v.2]
      have h2 : v.2 = 0 := by nlinarith [sq_nonneg v.1, sq_nonneg v.2]
      exact Prod.ext h1 h2
    · right
      exact (Real.cos_eq_one_iff angle).mp (sub_eq_zero.mp hcos)
  · rintro (rfl | ⟨n, rfl⟩)
    · exact turned_zero_vector angle
    · exact turned_whole n v

end

end Turn
