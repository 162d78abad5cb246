import Mathlib.Data.List.Perm.Basic
import Mathlib.Order.Lattice
import Mathlib.Order.BoundedOrder.Basic

/-!
# Reports with effects

An action reports on a state, and may change it. A list of actions is taken one after the other, each on what the
ones before it leave. It does not depend on the order when each action reports, in every order of the list, what it
reports alone, and every order leaves the same state.

## Main results

* `Effects.orderIndependent_of_level`: effects that only raise a level, and do not change a report
* `Effects.OrderIndependent.report_eq`: an action reports the same after any other one of the list
-/

namespace Effects

open List

variable {α σ ρ ι : Type} {exec : α → σ → ρ × σ}

/-- The reports of a list of actions, and the state that they leave. -/
def runAll (exec : α → σ → ρ × σ) : List α → σ → List ρ × σ
  | [], s => ([], s)
  | a :: as, s => ((exec a s).1 :: (runAll exec as (exec a s).2).1, (runAll exec as (exec a s).2).2)

/-- In every order of the list, each action reports what it reports alone, and the same state is left. -/
def OrderIndependent (exec : α → σ → ρ × σ) (as : List α) (s : σ) : Prop :=
  ∀ bs, bs.Perm as →
    (runAll exec bs s).1 = bs.map (fun b => (exec b s).1) ∧ (runAll exec bs s).2 = (runAll exec as s).2

theorem orderIndependent_of_length_le {as : List α} (h : as.length ≤ 1) (s : σ) : OrderIndependent exec as s := by
  intro bs hperm
  cases as with
  | nil =>
    rw [perm_nil.mp hperm]
    exact ⟨rfl, rfl⟩
  | cons a as =>
    have hnil : as = [] := eq_nil_of_length_eq_zero (Nat.le_zero.mp (Nat.le_of_succ_le_succ h))
    rw [hnil] at hperm ⊢
    rw [perm_singleton.mp hperm]
    exact ⟨rfl, rfl⟩

section Levels

variable [SemilatticeSup ι] {state : ι → σ} {level : α → ι} {report : α → ρ}

theorem runAll_of_level {as : List α} (h : ∀ a ∈ as, ∀ i, exec a (state i) = (report a, state (i ⊔ level a))) (i : ι) :
    runAll exec as (state i) = (as.map report, state (as.foldl (fun i a => i ⊔ level a) i)) := by
  induction as generalizing i with
  | nil => rfl
  | cons a as ih =>
    have hrest := ih (fun b hb => h b (mem_cons_of_mem a hb)) (i ⊔ level a)
    rw [runAll, h a mem_cons_self i]
    show (report a :: (runAll exec as (state (i ⊔ level a))).1, (runAll exec as (state (i ⊔ level a))).2) = _
    rw [hrest]
    rfl

/-- **Effects that only raise a level do not depend on the order**, when they do not change what is reported. -/
theorem orderIndependent_of_level {as : List α} {s : σ} {i : ι} (hs : state i = s)
    (h : ∀ a ∈ as, ∀ j, exec a (state j) = ((exec a s).1, state (j ⊔ level a))) : OrderIndependent exec as s := by
  intro bs hperm
  have hbs := runAll_of_level (fun b hb => h b (hperm.mem_iff.mp hb)) i
  have has := runAll_of_level h i
  -- the levels are joined in whatever order
  have hlevel : bs.foldl (fun i a => i ⊔ level a) i = as.foldl (fun i a => i ⊔ level a) i := by
    apply hperm.foldl_eq'
    intro b _ c _ j
    exact sup_right_comm j (level b) (level c)
  rw [hs] at hbs has
  rw [hbs, has, hlevel]
  exact ⟨rfl, rfl⟩

end Levels

theorem exists_perm_cons_cons {as : List α} {a b : α} (ha : a ∈ as) (hb : b ∈ as) (hne : a ≠ b) :
    ∃ rest, (a :: b :: rest).Perm as := by
  obtain ⟨before, after, rfl⟩ := append_of_mem ha
  have hrest : b ∈ before ++ after := by
    rcases mem_append.mp hb with hb | hb
    · exact mem_append_left after hb
    · exact mem_append_right before (mem_of_ne_of_mem hne.symm hb)
  obtain ⟨front, back, heq⟩ := append_of_mem hrest
  refine ⟨front ++ back, ?_⟩
  have hback : (b :: (front ++ back)).Perm (before ++ after) := by
    rw [heq]
    exact perm_middle.symm
  exact (hback.cons a).trans perm_middle.symm

/-- **An action reports after another one of the list what it reports alone.** -/
theorem OrderIndependent.report_eq {as : List α} {s : σ} {a b : α} (h : OrderIndependent exec as s) (ha : a ∈ as)
    (hb : b ∈ as) (hne : a ≠ b) : (exec b (exec a s).2).1 = (exec b s).1 := by
  obtain ⟨rest, hperm⟩ := exists_perm_cons_cons ha hb hne
  have hreports := (h _ hperm).1
  simp only [runAll, map_cons, cons.injEq, true_and] at hreports
  exact hreports.1

end Effects
