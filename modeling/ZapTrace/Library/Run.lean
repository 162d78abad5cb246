import Mathlib.Data.List.Infix

/-!
# Runs of a step function

A step function says what an action does in a state, and that it is not possible there by `none`.
A run is a list of actions. A property holds always in a run when it holds of every state the run
passes; a condition holds of each step when it holds of every state and the action taken in it.

## Main results

* `Run.exec_concat`, `Run.exec_of_prefix`: the last step of a run, and its parts
* `Run.exec_preserves`: what every step preserves is preserved by a run
* `Run.always_of_invariant`: what every step preserves holds always
* `Run.always_of_eachStep`: what the steps that meet a condition preserve holds always in a run
  whose steps meet it
* `Run.always_iff_eachStep_of_step`, `Run.always_iff_eachStep`: a property that a step breaks exactly
  when it does not meet a condition holds always in exactly the runs whose steps meet it
* `Run.forall_prefix_iff`: the same for a property of the actions taken so far
-/

namespace Run

open List

variable {σ α : Type} {step : σ → α → Option σ}

/-- The state a run ends in, when each of its actions is possible. -/
def exec (step : σ → α → Option σ) (s : σ) : List α → Option σ
  | [] => some s
  | a :: acts => (step s a).bind fun s' => exec step s' acts

@[simp] theorem exec_nil (s : σ) : exec step s [] = some s := rfl

theorem exec_cons {s s'' : σ} {a : α} {acts : List α} :
    exec step s (a :: acts) = some s'' ↔
      ∃ s', step s a = some s' ∧ exec step s' acts = some s'' :=
  Option.bind_eq_some_iff

theorem exec_append (s : σ) (acts acts' : List α) :
    exec step s (acts ++ acts') = (exec step s acts).bind fun s' => exec step s' acts' := by
  induction acts generalizing s with
  | nil => rfl
  | cons a acts ih =>
    rw [cons_append, exec, exec, Option.bind_assoc]
    exact congrArg _ (funext ih)

/-- A run ends in a state exactly when its last action leads there from where the others end. -/
theorem exec_concat {s s'' : σ} {acts : List α} {a : α} :
    exec step s (acts ++ [a]) = some s'' ↔
      ∃ s', exec step s acts = some s' ∧ step s' a = some s'' := by
  rw [exec_append, Option.bind_eq_some_iff]
  refine exists_congr fun s' => and_congr_right fun _ => ?_
  rw [exec_cons]
  simp

/-- A run goes on from where a part of it ends. -/
theorem exec_of_prefix {s s' s'' : σ} {pre acts : List α} (hpre : pre <+: acts)
    (hs' : exec step s pre = some s') (hs'' : exec step s acts = some s'') :
    ∃ rest, acts = pre ++ rest ∧ exec step s' rest = some s'' := by
  obtain ⟨rest, rfl⟩ := hpre
  rw [exec_append, hs'] at hs''
  exact ⟨rest, rfl, hs''⟩

theorem exec_preserves {P : σ → Prop} (hstep : ∀ s a s', P s → step s a = some s' → P s')
    {s s' : σ} {acts : List α} (hs : P s) (h : exec step s acts = some s') : P s' := by
  induction acts generalizing s with
  | nil =>
    cases h
    exact hs
  | cons a acts ih =>
    obtain ⟨t, ht, hrest⟩ := exec_cons.mp h
    exact ih (hstep s a t hs ht) hrest

/-- The property holds of every state the run passes. -/
def Always (step : σ → α → Option σ) (s : σ) (acts : List α) (P : σ → Prop) : Prop :=
  ∀ pre, pre <+: acts → ∀ s', exec step s pre = some s' → P s'

/-- The condition holds of every state of the run in which an action is taken. -/
def EachStep (step : σ → α → Option σ) (s : σ) (acts : List α) (C : σ → α → Prop) : Prop :=
  ∀ pre a, pre ++ [a] <+: acts → ∀ s' s'', exec step s pre = some s' → step s' a = some s'' → C s' a

variable {s : σ} {acts : List α} {I P : σ → Prop} {C : σ → α → Prop}

theorem Always.mono (h : Always step s acts I) (hP : ∀ s, I s → P s) : Always step s acts P :=
  fun pre hpre s' hs' => hP s' (h pre hpre s' hs')

theorem EachStep.nil : EachStep step s [] C := fun pre a hpre => by
  simp at hpre

theorem EachStep.cons {a : α} {s' : σ} (hfirst : C s a) (hs' : step s a = some s')
    (h : EachStep step s' acts C) : EachStep step s (a :: acts) C := by
  rintro (_ | ⟨b, pre⟩) c hpre t t' ht ht'
  · obtain rfl : c = a := (cons_prefix_cons.mp hpre).1
    cases ht
    exact hfirst
  · obtain ⟨rfl, hrest⟩ := cons_prefix_cons.mp hpre
    obtain ⟨s'', hs'', hrun⟩ := exec_cons.mp ht
    obtain rfl : s' = s'' := Option.some.inj (hs'.symm.trans hs'')
    exact h pre c hrest t t' hrun ht'

/-- **The invariant rule** for the runs whose steps meet a condition. -/
theorem always_of_eachStep (hinit : I s)
    (hstep : ∀ s a s', I s → C s a → step s a = some s' → I s')
    (hC : EachStep step s acts C) : Always step s acts I := by
  intro pre
  induction pre using reverseRecOn with
  | nil =>
    rintro - s' h
    cases h
    exact hinit
  | append_singleton pre a ih =>
    intro hpre s'' h
    obtain ⟨s', hs', hlast⟩ := exec_concat.mp h
    have hI := ih ((prefix_append pre [a]).trans hpre) s' hs'
    exact hstep s' a s'' hI (hC pre a hpre s' s'' hs' hlast) hlast

/-- **The invariant rule**: what every step preserves holds always. -/
theorem always_of_invariant (hinit : I s) (hstep : ∀ s a s', I s → step s a = some s' → I s') :
    Always step s acts I :=
  always_of_eachStep (C := fun _ _ => True) hinit (fun s a s' hI _ h => hstep s a s' hI h)
    fun _ _ _ _ _ _ _ => trivial

/-- **Exactness**: where the property holds, a step keeps the invariant, and keeps the property exactly
when it meets the condition. Then the property holds always in exactly the runs whose steps meet it. -/
theorem always_iff_eachStep_of_step (hinit : I s) (hP : P s)
    (hstep : ∀ s a s', I s → P s → step s a = some s' → I s' ∧ (P s' ↔ C s a)) :
    Always step s acts P ↔ EachStep step s acts C := by
  constructor
  · intro hall
    have hI : Always step s acts I := by
      intro pre
      induction pre using reverseRecOn with
      | nil =>
        rintro - s' h
        cases h
        exact hinit
      | append_singleton pre a ih =>
        intro hpre s'' h
        obtain ⟨s', hs', hlast⟩ := exec_concat.mp h
        have hpre' := (prefix_append pre [a]).trans hpre
        exact (hstep s' a s'' (ih hpre' s' hs') (hall pre hpre' s' hs') hlast).1
    intro pre a hpre s' s'' hs' hlast
    have hpre' := (prefix_append pre [a]).trans hpre
    exact (hstep s' a s'' (hI pre hpre' s' hs') (hall pre hpre' s' hs') hlast).2.mp
      (hall _ hpre s'' (exec_concat.mpr ⟨s', hs', hlast⟩))
  · intro hC
    refine (always_of_eachStep (I := fun s => I s ∧ P s) ⟨hinit, hP⟩ ?_ hC).mono fun _ h => h.2
    rintro s a s' ⟨hIs, hPs⟩ hCs h
    obtain ⟨hIs', hiff⟩ := hstep s a s' hIs hPs h
    exact ⟨hIs', hiff.mpr hCs⟩

/-- The same for an invariant that every step preserves. -/
theorem always_iff_eachStep (hinit : I s) (hstep : ∀ s a s', I s → step s a = some s' → I s')
    (hP : P s) (hiff : ∀ s a s', I s → P s → step s a = some s' → (P s' ↔ C s a)) :
    Always step s acts P ↔ EachStep step s acts C :=
  always_iff_eachStep_of_step hinit hP fun s a s' hI hP h =>
    ⟨hstep s a s' hI h, hiff s a s' hI hP h⟩

/-- **Exactness over histories**: a property of the actions so far, which an action breaks exactly
when it does not meet the condition, holds all along in exactly the runs whose actions meet it. -/
theorem forall_prefix_iff {P : List α → Prop} {C : List α → α → Prop} (hnil : P [])
    (hiff : ∀ pre a, P pre → (P (pre ++ [a]) ↔ C pre a)) :
    (∀ pre, pre <+: acts → P pre) ↔ ∀ pre a, pre ++ [a] <+: acts → C pre a := by
  constructor
  · intro hall pre a hpre
    exact (hiff pre a (hall pre ((prefix_append pre [a]).trans hpre))).mp (hall _ hpre)
  · intro hC pre
    induction pre using reverseRecOn with
    | nil => exact fun _ => hnil
    | append_singleton pre a ih =>
      intro hpre
      exact (hiff pre a (ih ((prefix_append pre [a]).trans hpre))).mpr (hC pre a hpre)

end Run
