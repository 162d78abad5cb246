import Mathlib.Data.Rat.Floor
import Mathlib.Tactic.Linarith
import ZapTrace.Algo.CopperPour

/-!
# Rounding

What rounding to an integer, and to a number of digits, does to a rational number.

## Main results

* `abs_pyRound_sub_le`, `abs_roundTo_sub_le`: a number is moved by half a unit at most
* `pyRound_mono`, `roundTo_mono`: the order is kept
* `roundTo_eq_self`: a number with that many digits is left alone
-/

namespace ZapTrace.CopperPour

theorem pyRound_intCast (n : ℤ) : pyRound n = n := by
  have hfloor : (n : ℚ).floor = n := Rat.floor_intCast n
  rw [pyRound, hfloor, sub_self, if_pos (by norm_num)]

theorem floor_le_pyRound (q : ℚ) : q.floor ≤ pyRound q := by
  unfold pyRound
  split_ifs <;> omega

theorem pyRound_le_floor_add_one (q : ℚ) : pyRound q ≤ q.floor + 1 := by
  unfold pyRound
  split_ifs <;> omega

theorem abs_pyRound_sub_le (q : ℚ) : |(pyRound q : ℚ) - q| ≤ 1 / 2 := by
  have hle : (q.floor : ℚ) ≤ q := Rat.floor_le q
  have hlt : q < (q.floor : ℚ) + 1 := by
    have h := Rat.lt_floor_add_one q
    push_cast at h
    exact h
  rw [abs_le]
  unfold pyRound
  split_ifs with hlow hhigh heven
  · constructor <;> linarith
  · push_cast
    constructor <;> linarith
  · constructor <;> linarith
  · push_cast
    constructor <;> linarith

theorem pyRound_mono {q q' : ℚ} (h : q ≤ q') : pyRound q ≤ pyRound q' := by
  rcases lt_or_eq_of_le (Rat.floor_monotone h) with hlt | heq
  · -- an integer lies between the two
    exact (pyRound_le_floor_add_one q).trans ((Int.add_one_le_iff.mpr hlt).trans (floor_le_pyRound q'))
  · unfold pyRound
    rw [heq]
    split_ifs with h1 h2 h3 h4 h5 h6 h7 <;> first | omega | (exfalso; linarith)

variable (digits : ℕ)

theorem roundTo_mono {q q' : ℚ} (h : q ≤ q') : roundTo digits q ≤ roundTo digits q' := by
  have hpow : (0 : ℚ) < 10 ^ digits := by positivity
  have hint : (pyRound (q * 10 ^ digits) : ℚ) ≤ pyRound (q' * 10 ^ digits) :=
    Int.cast_le.mpr (pyRound_mono (mul_le_mul_of_nonneg_right h hpow.le))
  exact div_le_div_of_nonneg_right hint hpow.le

theorem abs_roundTo_sub_le (q : ℚ) : |roundTo digits q - q| ≤ 1 / 2 / 10 ^ digits := by
  have hpow : (0 : ℚ) < 10 ^ digits := by positivity
  have heq : roundTo digits q - q = (pyRound (q * 10 ^ digits) - q * 10 ^ digits) / 10 ^ digits := by
    unfold roundTo
    field_simp
  rw [heq, abs_div, abs_of_pos hpow]
  exact div_le_div_of_nonneg_right (abs_pyRound_sub_le _) hpow.le

theorem roundTo_eq_self {q : ℚ} {n : ℤ} (h : q * 10 ^ digits = n) : roundTo digits q = q := by
  have hpow : (10 : ℚ) ^ digits ≠ 0 := by positivity
  rw [roundTo, h, pyRound_intCast, ← h, mul_div_cancel_right₀ _ hpow]

end ZapTrace.CopperPour
