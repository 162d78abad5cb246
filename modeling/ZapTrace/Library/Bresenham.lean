import Mathlib.Data.Int.Order.Basic
import Mathlib.Tactic.Linarith
import Mathlib.Tactic.Ring

/-!
# Bresenham's line

The line between two cells of a grid, by Bresenham's algorithm: from one end it goes on by a step in
`x`, a step in `y` or both, as an error term says, until it stands on the other end.

With `i` steps in `x` out of `D` and `j` steps in `y` out of `E`, the error term of the algorithm is
`D * (j + 1) - E * (i + 1)`, and what it keeps is that `2 * (D * j - E * i)` lies between `-max D E`
and `max D E`: the cell is the one next to the line. The coordinate with more steps moves every time,
so the other end is reached after `max D E` steps.

## Main results

* `Bresenham.mem_line_start`, `Bresenham.mem_line_end`: a line has its ends
* `Bresenham.near_of_mem_line`: a cell of a line is next to it
* `Bresenham.between_of_mem_line`: a line stays between its ends
* `Bresenham.walk_straight`: along an axis or a diagonal the loop makes one step after the other
-/

namespace Bresenham

open List

/-- The loop: the cells from `(x, y)` on. -/
def walk (dx sx dy sy x₁ y₁ : ℤ) : ℕ → ℤ → ℤ → ℤ → List (ℤ × ℤ)
  | 0, _, _, _ => []
  | fuel + 1, x, y, err =>
    (x, y) ::
      if x = x₁ ∧ y = y₁ then []
      else
        let e2 := 2 * err
        let stepX := decide (e2 ≥ dy)
        let stepY := decide (e2 ≤ dx)
        walk dx sx dy sy x₁ y₁ fuel (if stepX then x + sx else x) (if stepY then y + sy else y)
          ((err + if stepX then dy else 0) + if stepY then dx else 0)

/-- The cells of the line from `(x₀, y₀)` to `(x₁, y₁)`. -/
def line (x₀ y₀ x₁ y₁ : ℤ) : List (ℤ × ℤ) :=
  let dx := |x₁ - x₀|
  let dy := -|y₁ - y₀|
  walk dx (if x₀ < x₁ then 1 else -1) dy (if y₀ < y₁ then 1 else -1) x₁ y₁
    ((max dx (-dy)).toNat + 1) x₀ y₀ (dx + dy)

variable {D E sx sy x₀ y₀ : ℤ}

/-- After `i` steps in `x` and `j` steps in `y` the walk is next to the line. -/
structure Near (D E i j : ℤ) : Prop where
  x_nonneg : 0 ≤ i
  x_le : i ≤ D
  y_nonneg : 0 ≤ j
  y_le : j ≤ E
  lower : -max D E ≤ 2 * (D * j - E * i)
  upper : 2 * (D * j - E * i) ≤ max D E

theorem near_start (hD : 0 ≤ D) (hE : 0 ≤ E) : Near D E 0 0 := by
  have hmax : 0 ≤ max D E := le_max_of_le_left hD
  exact ⟨le_refl 0, hD, le_refl 0, hE, by simpa using hmax, by simpa using hmax⟩

theorem Near.move_x {i j : ℤ} (h : Near D E i j) (hDE : E ≤ D) (hi : i < D) :
    2 * (D * (j + 1) - E * (i + 1)) ≥ -E ∧
      Near D E (i + 1) (if 2 * (D * (j + 1) - E * (i + 1)) ≤ D then j + 1 else j) := by
  obtain ⟨hi₀, -, hj₀, hj, hlow, hup⟩ := h
  rw [max_eq_left hDE] at hlow hup
  have hx : 2 * (D * (j + 1) - E * (i + 1)) = 2 * (D * j - E * i) + 2 * D - 2 * E := by ring
  have hD : 0 < D := by omega
  have hE : 0 ≤ E := hj₀.trans hj
  refine ⟨by omega, ?_⟩
  split
  · rename_i hy
    have ht : D * (j + 1) - E * (i + 1) = (D * j - E * i) + D - E := by ring
    refine ⟨by omega, by omega, by omega, ?_, ?_, ?_⟩
    · -- a step beyond the end would leave the line
      by_contra hj'
      have h₁ : E * (i + 1) ≤ E * D := mul_le_mul_of_nonneg_left (by omega) hE
      have h₂ : D * (E + 1) ≤ D * (j + 1) := mul_le_mul_of_nonneg_left (by omega) hD.le
      nlinarith
    · rw [max_eq_left hDE]
      omega
    · rw [max_eq_left hDE]
      omega
  · rename_i hy
    have ht : D * j - E * (i + 1) = (D * j - E * i) - E := by ring
    refine ⟨by omega, by omega, hj₀, hj, ?_, ?_⟩
    · rw [max_eq_left hDE]
      omega
    · rw [max_eq_left hDE]
      omega

theorem Near.move_y {i j : ℤ} (h : Near D E i j) (hDE : D ≤ E) (hj : j < E) :
    2 * (D * (j + 1) - E * (i + 1)) ≤ D ∧
      Near D E (if 2 * (D * (j + 1) - E * (i + 1)) ≥ -E then i + 1 else i) (j + 1) := by
  obtain ⟨hi₀, hi, hj₀, -, hlow, hup⟩ := h
  rw [max_eq_right hDE] at hlow hup
  have hx : 2 * (D * (j + 1) - E * (i + 1)) = 2 * (D * j - E * i) + 2 * D - 2 * E := by ring
  have hE : 0 < E := by omega
  have hD : 0 ≤ D := hi₀.trans hi
  refine ⟨by omega, ?_⟩
  split
  · rename_i hy
    have ht : D * (j + 1) - E * (i + 1) = (D * j - E * i) + D - E := by ring
    refine ⟨by omega, ?_, by omega, by omega, ?_, ?_⟩
    · by_contra hi'
      have h₁ : D * (j + 1) ≤ D * E := mul_le_mul_of_nonneg_left (by omega) hD
      have h₂ : E * (D + 1) ≤ E * (i + 1) := mul_le_mul_of_nonneg_left (by omega) hE.le
      nlinarith
    · rw [max_eq_right hDE]
      omega
    · rw [max_eq_right hDE]
      omega
  · rename_i hy
    have ht : D * (j + 1) - E * i = (D * j - E * i) + D := by ring
    refine ⟨hi₀, hi, by omega, by omega, ?_, ?_⟩
    · rw [max_eq_right hDE]
      omega
    · rw [max_eq_right hDE]
      omega

/-- The steps of the coordinate that moves every time. -/
def lead (D E i j : ℤ) : ℤ := if E ≤ D then i else j

theorem Near.lead_le {i j : ℤ} (h : Near D E i j) : lead D E i j ≤ max D E := by
  unfold lead
  split
  · exact h.x_le.trans (le_max_left D E)
  · exact h.y_le.trans (le_max_right D E)

theorem Near.eq_of_lead {i j : ℤ} (h : Near D E i j) (hlead : lead D E i j = max D E) :
    i = D ∧ j = E := by
  obtain ⟨hi₀, hi, hj₀, hj, hlow, hup⟩ := h
  unfold lead at hlead
  split at hlead
  · rename_i hDE
    rw [max_eq_left hDE] at hlead hlow
    refine ⟨hlead, le_antisymm hj ?_⟩
    by_contra hlt
    have hmul : D * (j + 1) ≤ D * E := mul_le_mul_of_nonneg_left (by omega) (hi₀.trans hi)
    rw [hlead] at hlow
    nlinarith
  · rename_i hDE
    rw [max_eq_right (by omega)] at hlead hup
    refine ⟨le_antisymm hi ?_, hlead⟩
    by_contra hlt
    have hmul : E * (i + 1) ≤ E * D := mul_le_mul_of_nonneg_left (by omega) (hj₀.trans hj)
    rw [hlead] at hup
    nlinarith

/-- A walk that is not at the end goes on next to the line. -/
theorem Near.step {i j : ℤ} (h : Near D E i j) (hend : ¬(i = D ∧ j = E)) :
    Near D E (if 2 * (D * (j + 1) - E * (i + 1)) ≥ -E then i + 1 else i)
        (if 2 * (D * (j + 1) - E * (i + 1)) ≤ D then j + 1 else j) ∧
      lead D E (if 2 * (D * (j + 1) - E * (i + 1)) ≥ -E then i + 1 else i)
        (if 2 * (D * (j + 1) - E * (i + 1)) ≤ D then j + 1 else j) = lead D E i j + 1 := by
  have hlt : lead D E i j < max D E :=
    lt_of_le_of_ne h.lead_le fun heq => hend (h.eq_of_lead heq)
  unfold lead at hlt ⊢
  split at hlt
  · rename_i hDE
    rw [max_eq_left hDE] at hlt
    obtain ⟨hx, hnear⟩ := h.move_x hDE hlt
    rw [if_pos hx, if_pos hDE, if_pos hDE]
    exact ⟨hnear, rfl⟩
  · rename_i hDE
    rw [max_eq_right (by omega)] at hlt
    obtain ⟨hy, hnear⟩ := h.move_y (by omega) hlt
    rw [if_pos hy, if_neg hDE, if_neg hDE]
    exact ⟨hnear, rfl⟩

section Walk

variable (hsx : sx = 1 ∨ sx = -1) (hsy : sy = 1 ∨ sy = -1)

include hsx hsy

theorem walk_succ (fuel : ℕ) (i j : ℤ) :
    walk D sx (-E) sy (x₀ + sx * D) (y₀ + sy * E) (fuel + 1) (x₀ + sx * i) (y₀ + sy * j)
        (D * (j + 1) - E * (i + 1)) =
      (x₀ + sx * i, y₀ + sy * j) ::
        if i = D ∧ j = E then []
        else
          let i' := if 2 * (D * (j + 1) - E * (i + 1)) ≥ -E then i + 1 else i
          let j' := if 2 * (D * (j + 1) - E * (i + 1)) ≤ D then j + 1 else j
          walk D sx (-E) sy (x₀ + sx * D) (y₀ + sy * E) fuel (x₀ + sx * i') (y₀ + sy * j')
            (D * (j' + 1) - E * (i' + 1)) := by
  have hend : (x₀ + sx * i = x₀ + sx * D ∧ y₀ + sy * j = y₀ + sy * E) ↔ (i = D ∧ j = E) := by
    rcases hsx with rfl | rfl <;> rcases hsy with rfl | rfl <;> constructor <;> intro h <;> omega
  rw [walk]
  simp only [hend, decide_eq_true_eq]
  congr 1
  by_cases hx : 2 * (D * (j + 1) - E * (i + 1)) ≥ -E <;>
    by_cases hy : 2 * (D * (j + 1) - E * (i + 1)) ≤ D <;>
    simp only [hx, hy, if_true, if_false] <;> congr 2 <;> ring

theorem walk_spec (x₀ y₀ : ℤ) {fuel : ℕ} {i j : ℤ} (h : Near D E i j)
    (hfuel : max D E - lead D E i j < fuel) :
    (∀ c ∈ walk D sx (-E) sy (x₀ + sx * D) (y₀ + sy * E) fuel (x₀ + sx * i) (y₀ + sy * j)
        (D * (j + 1) - E * (i + 1)),
      ∃ i' j', Near D E i' j' ∧ c = (x₀ + sx * i', y₀ + sy * j')) ∧
    (x₀ + sx * D, y₀ + sy * E) ∈ walk D sx (-E) sy (x₀ + sx * D) (y₀ + sy * E) fuel
      (x₀ + sx * i) (y₀ + sy * j) (D * (j + 1) - E * (i + 1)) := by
  induction fuel generalizing i j with
  | zero =>
    have hle := h.lead_le
    exact absurd hfuel (by push_cast; omega)
  | succ fuel ih =>
    rw [walk_succ hsx hsy]
    by_cases hend : i = D ∧ j = E
    · obtain ⟨rfl, rfl⟩ := hend
      simp only [and_self, if_true, mem_singleton]
      refine ⟨?_, trivial⟩
      rintro c rfl
      exact ⟨i, j, h, rfl⟩
    · obtain ⟨hnear, hlead⟩ := h.step hend
      obtain ⟨hcells, hmem⟩ := ih hnear (by rw [hlead]; push_cast at hfuel; omega)
      simp only [if_neg hend]
      refine ⟨?_, mem_cons_of_mem _ hmem⟩
      intro c hc
      rcases mem_cons.mp hc with rfl | hc
      · exact ⟨i, j, h, rfl⟩
      · exact hcells c hc

/-- With as many steps in `x` as in `y`, or none in one of them, each round makes the same step. -/
theorem walk_straight (x₀ y₀ : ℤ) {a b : ℤ} (hab : a = 1 ∧ b = 0 ∨ a = 0 ∧ b = 1 ∨ a = 1 ∧ b = 1) {m n fuel : ℕ}
    {k : ℤ} (hk₀ : 0 ≤ k) (hk : k + n = m) (hfuel : n < fuel) :
    walk (m * a) sx (-(m * b)) sy (x₀ + sx * (m * a)) (y₀ + sy * (m * b)) fuel (x₀ + sx * (k * a)) (y₀ + sy * (k * b))
        (m * a * (k * b + 1) - m * b * (k * a + 1)) =
      (range (n + 1)).map fun t : ℕ => (x₀ + sx * ((k + t) * a), y₀ + sy * ((k + t) * b)) := by
  induction n generalizing k fuel with
  | zero =>
    obtain ⟨fuel, rfl⟩ := Nat.exists_eq_succ_of_ne_zero hfuel.ne'
    obtain rfl : k = m := by simpa using hk
    rw [walk_succ hsx hsy, if_pos ⟨rfl, rfl⟩]
    simp
  | succ n ih =>
    obtain ⟨fuel, rfl⟩ := Nat.exists_eq_succ_of_ne_zero (Nat.ne_zero_of_lt hfuel)
    have hlt : k < m := by omega
    have hne : ¬(k * a = m * a ∧ k * b = m * b) := by
      rcases hab with ⟨rfl, rfl⟩ | ⟨rfl, rfl⟩ | ⟨rfl, rfl⟩ <;> simp <;> omega
    have herr : m * a * (k * b + 1) - m * b * (k * a + 1) = m * (a - b) := by ring
    have hx : (if 2 * (m * a * (k * b + 1) - m * b * (k * a + 1)) ≥ -(m * b) then k * a + 1 else k * a) =
        (k + 1) * a := by
      rw [herr]
      rcases hab with ⟨rfl, rfl⟩ | ⟨rfl, rfl⟩ | ⟨rfl, rfl⟩ <;> split <;> omega
    have hy : (if 2 * (m * a * (k * b + 1) - m * b * (k * a + 1)) ≤ m * a then k * b + 1 else k * b) = (k + 1) * b := by
      rw [herr]
      rcases hab with ⟨rfl, rfl⟩ | ⟨rfl, rfl⟩ | ⟨rfl, rfl⟩ <;> split <;> omega
    rw [walk_succ hsx hsy, if_neg hne]
    simp only [hx, hy]
    rw [ih (by omega) (by push_cast at hk ⊢; omega) (by omega), range_succ_eq_map (n := n + 1), map_cons, map_map]
    refine congrArg₂ cons (by simp) (map_congr_left fun t _ => ?_)
    simp only [Function.comp_apply, Nat.succ_eq_add_one, Nat.cast_add, Nat.cast_one, add_assoc, add_comm (1 : ℤ)]

end Walk

section Line

variable (x₀ y₀ x₁ y₁ : ℤ)

theorem sign_mul_abs : x₀ + (if x₀ < x₁ then 1 else -1) * |x₁ - x₀| = x₁ := by
  split
  · rw [abs_of_nonneg (by omega)]
    ring
  · rw [abs_of_nonpos (by omega)]
    ring

theorem sign_cases : (if x₀ < x₁ then (1 : ℤ) else -1) = 1 ∨ (if x₀ < x₁ then (1 : ℤ) else -1) = -1 := by
  split
  · exact Or.inl rfl
  · exact Or.inr rfl

theorem line_spec :
    (∀ c ∈ line x₀ y₀ x₁ y₁, ∃ i j, Near |x₁ - x₀| |y₁ - y₀| i j ∧
      c = (x₀ + (if x₀ < x₁ then 1 else -1) * i, y₀ + (if y₀ < y₁ then 1 else -1) * j)) ∧
    (x₁, y₁) ∈ line x₀ y₀ x₁ y₁ := by
  have hfuel : max |x₁ - x₀| |y₁ - y₀| - lead |x₁ - x₀| |y₁ - y₀| 0 0 <
      ((max |x₁ - x₀| |y₁ - y₀|).toNat + 1 : ℕ) := by
    have hmax : 0 ≤ max |x₁ - x₀| |y₁ - y₀| := le_max_of_le_left (abs_nonneg _)
    have hlead : lead |x₁ - x₀| |y₁ - y₀| 0 0 = 0 := by simp [lead]
    rw [hlead]
    push_cast [Int.toNat_of_nonneg hmax]
    omega
  have h := walk_spec (sign_cases x₀ x₁) (sign_cases y₀ y₁) x₀ y₀
    (near_start (abs_nonneg (x₁ - x₀)) (abs_nonneg (y₁ - y₀))) hfuel
  rw [sign_mul_abs, sign_mul_abs] at h
  simpa [line, sub_eq_add_neg] using h

theorem mem_line_start : (x₀, y₀) ∈ line x₀ y₀ x₁ y₁ := by
  unfold line
  rw [walk]
  exact mem_cons_self

theorem mem_line_end : (x₁, y₁) ∈ line x₀ y₀ x₁ y₁ := (line_spec x₀ y₀ x₁ y₁).2

theorem near_of_mem_line {c : ℤ × ℤ} (hc : c ∈ line x₀ y₀ x₁ y₁) :
    ∃ i j, Near |x₁ - x₀| |y₁ - y₀| i j ∧
      c = (x₀ + (if x₀ < x₁ then 1 else -1) * i, y₀ + (if y₀ < y₁ then 1 else -1) * j) :=
  (line_spec x₀ y₀ x₁ y₁).1 c hc

theorem between_of_sign {i : ℤ} (hi₀ : 0 ≤ i) (hi : i ≤ |x₁ - x₀|) :
    min x₀ x₁ ≤ x₀ + (if x₀ < x₁ then 1 else -1) * i ∧
      x₀ + (if x₀ < x₁ then 1 else -1) * i ≤ max x₀ x₁ := by
  split
  · rw [abs_of_nonneg (by omega)] at hi
    omega
  · rw [abs_of_nonpos (by omega)] at hi
    omega

theorem between_of_mem_line {c : ℤ × ℤ} (hc : c ∈ line x₀ y₀ x₁ y₁) :
    (min x₀ x₁ ≤ c.1 ∧ c.1 ≤ max x₀ x₁) ∧ min y₀ y₁ ≤ c.2 ∧ c.2 ≤ max y₀ y₁ := by
  obtain ⟨i, j, h, rfl⟩ := near_of_mem_line x₀ y₀ x₁ y₁ hc
  exact ⟨between_of_sign x₀ x₁ h.x_nonneg h.x_le, between_of_sign y₀ y₁ h.y_nonneg h.y_le⟩

end Line

end Bresenham
