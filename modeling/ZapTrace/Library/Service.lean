import Mathlib.Data.List.Perm.Subperm
import Mathlib.Data.List.Nodup

/-!
# Serving a pool in rounds

A round orders the jobs of a pool, takes the first few of them, finishes those that are ready and puts the others back.
No job is lost or finished twice. When the ready jobs come first in every order, the jobs that are put back keep no
ready job waiting, and enough rounds finish all of them.

## Main results

* `Service.Rounds.perm`: each job is finished once or left
* `Service.Rounds.countP_left`: how many ready jobs are left
* `Service.Rounds.mem_left_iff`: after enough rounds, exactly the jobs that are not ready are left
-/

namespace Service

open List

variable {α : Type} [DecidableEq α] (ready : α → Bool)

/-- The jobs that are left after a round that took some of them. -/
def left (pool taken : List α) : List α := (pool.filter fun a => a ∉ taken) ++ taken.filter fun a => !ready a

/-- The ready jobs come first. -/
def Foremost (order : List α) : Prop := order.Pairwise fun a b => ready b = true → ready a = true

/-- Rounds that follow the orders and take `m` jobs each, with the jobs that they finish. -/
inductive Rounds (m : ℕ) : List (List α) → List α → List α → List α → Prop
  | nil (pool : List α) : Rounds m [] pool [] pool
  | cons {order : List α} {orders : List (List α)} {pool finished rest : List α} (perm : order.Perm pool)
      (rounds : Rounds m orders (left ready pool (order.take m)) finished rest) :
      Rounds m (order :: orders) pool ((order.take m).filter ready ++ finished) rest

variable {ready}

/-! ## One round -/

section Round

variable {pool taken order : List α}

/-- **A round conserves jobs.** -/
theorem perm_left (hpool : pool.Nodup) (htaken : taken.Nodup) (hsub : ∀ a ∈ taken, a ∈ pool) :
    (taken.filter ready ++ left ready pool taken).Perm pool := by
  have htook : (pool.filter fun a => a ∈ taken).Perm taken := by
    refine (perm_ext_iff_of_nodup (hpool.filter _) htaken).mpr fun a => ?_
    simp only [mem_filter, decide_eq_true_eq]
    exact ⟨And.right, fun h => ⟨hsub a h, h⟩⟩
  calc (taken.filter ready ++ left ready pool taken).Perm
        ((pool.filter fun a => a ∉ taken) ++ (taken.filter ready ++ taken.filter fun a => !ready a)) := by
        unfold left
        rw [← append_assoc, ← append_assoc]
        exact perm_append_comm.append_right _
    _ |>.Perm ((pool.filter fun a => a ∉ taken) ++ pool.filter fun a => a ∈ taken) :=
        ((filter_append_perm ready taken).trans htook.symm).append_left _
    _ |>.Perm ((pool.filter fun a => a ∈ taken) ++ pool.filter fun a => a ∉ taken) := perm_append_comm
    _ |>.Perm pool := by
        have hsplit := filter_append_perm (fun a => decide (a ∈ taken)) pool
        simpa only [decide_not] using hsplit

theorem perm_left_take (ready : α → Bool) (hpool : pool.Nodup) (horder : order.Perm pool) (m : ℕ) :
    ((order.take m).filter ready ++ left ready pool (order.take m)).Perm pool :=
  perm_left hpool ((horder.nodup_iff.mpr hpool).sublist (take_sublist m order))
    fun _ ha => horder.mem_iff.mp (mem_of_mem_take ha)

theorem Foremost.countP_take (h : Foremost ready order) (m : ℕ) :
    (order.take m).countP ready = min m (order.countP ready) := by
  induction order generalizing m with
  | nil => simp
  | cons a order ih =>
    obtain ⟨hfirst, hrest⟩ := pairwise_cons.mp h
    cases m with
    | zero => simp
    | succ m =>
      rw [take_succ_cons, countP_cons, countP_cons, ih hrest m]
      cases ha : ready a with
      | true => simp
      | false =>
        -- no ready job comes after one that is not
        have hnone : order.countP ready = 0 := by
          apply countP_eq_zero.mpr
          intro b hb hready
          have hcontra := hfirst b hb hready
          rw [ha] at hcontra
          cases hcontra
        simp [hnone]

theorem countP_left_take (hpool : pool.Nodup) (horder : order.Perm pool) (hforemost : Foremost ready order) (m : ℕ) :
    (left ready pool (order.take m)).countP ready = pool.countP ready - m := by
  have hcount := (perm_left_take ready hpool horder m).countP_eq ready
  rw [countP_append, countP_filter] at hcount
  simp only [Bool.and_self] at hcount
  rw [hforemost.countP_take, horder.countP_eq] at hcount
  omega

end Round

/-! ## Rounds -/

namespace Rounds

variable {m : ℕ} {orders : List (List α)} {pool finished rest : List α}

/-- **Each job is finished once or left.** -/
theorem perm (h : Rounds ready m orders pool finished rest) (hpool : pool.Nodup) : (finished ++ rest).Perm pool := by
  induction h with
  | nil pool => exact List.Perm.refl pool
  | @cons order orders pool finished rest horder _ ih =>
    have hround := perm_left_take ready hpool horder m
    have hleft := (hround.nodup_iff.mpr hpool).of_append_right
    rw [append_assoc]
    exact ((ih hleft).append_left _).trans hround

theorem ready_of_mem_finished (h : Rounds ready m orders pool finished rest) : ∀ a ∈ finished, ready a = true := by
  induction h with
  | nil pool => simp
  | cons _ _ ih =>
    intro a ha
    rcases mem_append.mp ha with ha | ha
    · exact (mem_filter.mp ha).2
    · exact ih a ha

theorem countP_left (h : Rounds ready m orders pool finished rest) (hpool : pool.Nodup)
    (hforemost : ∀ order ∈ orders, Foremost ready order) :
    rest.countP ready = pool.countP ready - orders.length * m := by
  induction h with
  | nil pool => simp
  | @cons order orders pool finished rest horder _ ih =>
    have hleft := ((perm_left_take ready hpool horder m).nodup_iff.mpr hpool).of_append_right
    rw [ih hleft fun order h => hforemost order (mem_cons_of_mem _ h),
      countP_left_take hpool horder (hforemost order mem_cons_self), length_cons, Nat.succ_mul]
    omega

/-- **After enough rounds** exactly the jobs that are not ready are left. -/
theorem mem_left_iff (h : Rounds ready m orders pool finished rest) (hpool : pool.Nodup)
    (hend : rest.countP ready = 0) {a : α} (ha : a ∈ pool) : a ∈ rest ↔ ready a = false := by
  constructor
  · intro hmem
    exact Bool.eq_false_iff.mpr (countP_eq_zero.mp hend a hmem)
  · intro hnot
    rcases mem_append.mp ((h.perm hpool).mem_iff.mpr ha) with hmem | hmem
    · have hready := h.ready_of_mem_finished a hmem
      rw [hnot] at hready
      cases hready
    · exact hmem

end Rounds

end Service
