import Mathlib.Analysis.SpecialFunctions.Complex.Arg
import Mathlib.Analysis.SpecialFunctions.Trigonometric.Inverse
import Mathlib.Tactic.LinearCombination
import Mathlib.Tactic.Linarith

/-!
# Arcs of circles in the plane

The direction of a vector leads back to the vector, at its own distance and at no other. An angle can be
reduced to one of at most half a turn that leads to the same directions. An arc in equal steps has equal
chords. A circle at distance `r / S` from a corner, where `S` and `C` are the sine and the cosine of half the
angle that a path turns by, misses the points of the legs at distance `r * C / S`, unless these are equal.

## Main results

* `Arc.polar_direction_eq_iff`: which distance leads back to a vector
* `Arc.polar_add_sweep`: reduced angles lead to the same points
* `Arc.chord_polar`: the chord of a step
* `Arc.corner_tangent`: how far the centre is from the points of the legs
-/

namespace Arc

open Real

noncomputable section

/-- The point at a direction and a distance from the origin. -/
def polar (r angle : ℝ) : ℝ × ℝ := (r * Real.cos angle, r * sin angle)

def direction (v : ℝ × ℝ) : ℝ := Complex.arg ⟨v.1, v.2⟩

/-- An angle, reduced to at most half a turn. -/
def sweep (angle : ℝ) : ℝ :=
  let reduced := angle - 2 * Real.pi * ⌊angle / (2 * Real.pi)⌋
  if Real.pi < reduced then reduced - 2 * Real.pi else reduced

theorem polar_direction (v : ℝ × ℝ) : polar (sqrt (v.1 ^ 2 + v.2 ^ 2)) (direction v) = v := by
  have hnorm : ‖(⟨v.1, v.2⟩ : ℂ)‖ = sqrt (v.1 ^ 2 + v.2 ^ 2) := by
    rw [Complex.norm_def, Complex.normSq_mk, pow_two, pow_two]
  rw [polar, direction, ← hnorm]
  have hre := congrArg Complex.re (Complex.norm_mul_cos_add_sin_mul_I ⟨v.1, v.2⟩)
  have him := congrArg Complex.im (Complex.norm_mul_cos_add_sin_mul_I ⟨v.1, v.2⟩)
  simp only [Complex.mul_re, Complex.mul_im, Complex.add_re, Complex.add_im, Complex.ofReal_re, Complex.ofReal_im,
    Complex.I_re, Complex.I_im, Complex.cos_ofReal_re, Complex.sin_ofReal_re, Complex.cos_ofReal_im,
    Complex.sin_ofReal_im] at hre him
  ext
  · linarith
  · linarith

theorem polar_direction_eq_iff {v : ℝ × ℝ} {r : ℝ} (hr : 0 < r) :
    polar r (direction v) = v ↔ v.1 ^ 2 + v.2 ^ 2 = r ^ 2 := by
  constructor
  · intro h
    have h1 : r * Real.cos (direction v) = v.1 := congrArg Prod.fst h
    have h2 : r * sin (direction v) = v.2 := congrArg Prod.snd h
    rw [← h1, ← h2]
    linear_combination r ^ 2 * sin_sq_add_cos_sq (direction v)
  · intro h
    have hsqrt : sqrt (v.1 ^ 2 + v.2 ^ 2) = r := by rw [h, sqrt_sq hr.le]
    rw [← hsqrt]
    exact polar_direction v

theorem exists_sweep_eq (angle : ℝ) : ∃ n : ℤ, sweep angle = angle - n * (2 * Real.pi) := by
  unfold sweep
  dsimp only
  split
  · exact ⟨⌊angle / (2 * Real.pi)⌋ + 1, by push_cast; ring⟩
  · exact ⟨⌊angle / (2 * Real.pi)⌋, by ring⟩

theorem polar_add_sweep (r start angle : ℝ) : polar r (start + sweep angle) = polar r (start + angle) := by
  obtain ⟨n, hn⟩ := exists_sweep_eq angle
  rw [hn, ← add_sub_assoc, polar, polar, cos_sub_int_mul_two_pi, sin_sub_int_mul_two_pi]

theorem cos_sweep (angle : ℝ) : Real.cos (sweep angle) = Real.cos angle := by
  obtain ⟨n, hn⟩ := exists_sweep_eq angle
  rw [hn, cos_sub_int_mul_two_pi]

theorem abs_sweep_le (angle : ℝ) : |sweep angle| ≤ Real.pi := by
  have hpi := pi_pos
  have htwo : 0 < 2 * Real.pi := by linarith
  have hlow := Int.floor_le (angle / (2 * Real.pi))
  have hhigh := Int.lt_floor_add_one (angle / (2 * Real.pi))
  rw [le_div_iff₀ htwo] at hlow
  rw [div_lt_iff₀ htwo] at hhigh
  unfold sweep
  dsimp only
  rw [abs_le]
  split
  · constructor <;> linarith
  · constructor <;> linarith

theorem abs_sweep_eq {angle : ℝ} (h : Real.cos angle = 0) : |sweep angle| = Real.pi / 2 := by
  have hcos : Real.cos |sweep angle| = 0 := by rw [cos_abs, cos_sweep, h]
  rw [← arccos_cos (abs_nonneg _) (abs_sweep_le angle), hcos, arccos_zero]

theorem chord_polar (r a b : ℝ) :
    ((polar r b).1 - (polar r a).1) ^ 2 + ((polar r b).2 - (polar r a).2) ^ 2 =
      2 * r ^ 2 * (1 - Real.cos (b - a)) := by
  unfold polar
  rw [cos_sub]
  linear_combination r ^ 2 * sin_sq_add_cos_sq a + r ^ 2 * sin_sq_add_cos_sq b

theorem cos_direction_sub {v w : ℝ × ℝ} {r : ℝ} (hr : 0 < r) (hv : v.1 ^ 2 + v.2 ^ 2 = r ^ 2)
    (hw : w.1 ^ 2 + w.2 ^ 2 = r ^ 2) :
    r ^ 2 * Real.cos (direction w - direction v) = v.1 * w.1 + v.2 * w.2 := by
  have hv' := (polar_direction_eq_iff hr).mpr hv
  have hw' := (polar_direction_eq_iff hr).mpr hw
  have hv1 : r * Real.cos (direction v) = v.1 := congrArg Prod.fst hv'
  have hv2 : r * sin (direction v) = v.2 := congrArg Prod.snd hv'
  have hw1 : r * Real.cos (direction w) = w.1 := congrArg Prod.fst hw'
  have hw2 : r * sin (direction w) = w.2 := congrArg Prod.snd hw'
  rw [cos_sub, ← hv1, ← hv2, ← hw1, ← hw2]
  ring

/-- Legs of a corner with the unit vectors `u` into it and `v` out of it, and a centre at distance `r / S` along
the bisector: how far the centre is from the point of the first leg at distance `r * C / S`. -/
theorem corner_tangent {u v : ℝ × ℝ} {S C r : ℝ} (hu : u.1 ^ 2 + u.2 ^ 2 = 1) (hv : v.1 ^ 2 + v.2 ^ 2 = 1)
    (hS : 0 < S) (hSC : S ^ 2 + C ^ 2 = 1) (hangle : 2 - 2 * (u.1 * v.1 + u.2 * v.2) = 4 * S ^ 2) :
    (u.1 * (r * C / S) + (v.1 - u.1) / (2 * S) * (r / S)) ^ 2 +
        (u.2 * (r * C / S) + (v.2 - u.2) / (2 * S) * (r / S)) ^ 2 =
      r ^ 2 * (1 + 2 * (C / S) * (C / S - 1)) := by
  have huv : u.1 * v.1 + u.2 * v.2 = 1 - 2 * S ^ 2 := by linear_combination -hangle / 2
  have hS' := hS.ne'
  calc (u.1 * (r * C / S) + (v.1 - u.1) / (2 * S) * (r / S)) ^ 2 +
        (u.2 * (r * C / S) + (v.2 - u.2) / (2 * S) * (r / S)) ^ 2
      = (r * C / S) ^ 2 * (u.1 ^ 2 + u.2 ^ 2) +
          (r * C / S) * (r / S) / S * (u.1 * v.1 + u.2 * v.2 - (u.1 ^ 2 + u.2 ^ 2)) +
          (r / S) ^ 2 / (4 * S ^ 2) * (v.1 ^ 2 + v.2 ^ 2 + (u.1 ^ 2 + u.2 ^ 2) - 2 * (u.1 * v.1 + u.2 * v.2)) := by
        field_simp
        ring
    _ = (r * C / S) ^ 2 + (r / S) ^ 2 - 2 * (r ^ 2 * C / S) := by
        rw [hu, hv, huv]
        field_simp
        ring
    _ = r ^ 2 * (1 + 2 * (C / S) * (C / S - 1)) := by
        field_simp
        linear_combination -r ^ 2 * hSC

end

end Arc
