import ZapTrace.Library.Prog

/-!
# Writes that may fail

Some writes of a program go to a store that may refuse them. Whether each of the coming writes fails is
kept beside the state; the writes past the end of the list succeed.

## Main results

* `Faulty.keeps_of_triple`: a part that a program never changes is kept
-/

/-- A state, and which of the coming writes fail. -/
structure Faulty (σ : Type) where
  state : σ
  failures : List Bool := []

/-- A program raises by itself, or a write of it has failed. -/
inductive Raised (ε : Type)
  | refused (e : ε)
  | storage

namespace Faulty

variable {σ ε α β ι μ : Type}

/-- A program without writes that may fail. -/
def lift (m : Prog σ ε α) : Prog (Faulty σ) (Raised ε) α :=
  Prog.mapError Raised.refused (Prog.onState Faulty.state (fun t s => { s with state := t }) m)

/-- A write that may fail. -/
def write (f : σ → σ) : Prog (Faulty σ) (Raised ε) Unit := fun s =>
  match s.failures with
  | [] => (.ok (), ⟨f s.state, []⟩)
  | true :: rest => (.error .storage, ⟨s.state, rest⟩)
  | false :: rest => (.ok (), ⟨f s.state, rest⟩)
variable {m : Prog σ ε α}

theorem lift_of_ok {s : Faulty σ} {a : α} {t : σ} (h : m s.state = (.ok a, t)) :
    lift m s = (.ok a, ⟨t, s.failures⟩) := by
  simp [lift, Prog.mapError, Prog.onState, h]

theorem lift_of_error {s : Faulty σ} {e : ε} {t : σ} (h : m s.state = (.error e, t)) :
    lift m s = (.error (.refused e), ⟨t, s.failures⟩) := by
  simp [lift, Prog.mapError, Prog.onState, h]

theorem lift_triple {P : σ → Prop} {Q : α → σ → Prop} {E : ε → σ → Prop} {E' : Raised ε → Faulty σ → Prop}
    (h : Prog.Triple P m Q E) (hE : ∀ e s, E e s.state → E' (.refused e) s) :
    Prog.Triple (fun s => P s.state) (lift m) (fun a s => Q a s.state) E' := by
  intro s hs
  rcases hm : m s.state with ⟨e | a, t⟩
  · rw [lift_of_error hm]
    exact hE e ⟨t, s.failures⟩ (h.of_error hs hm)
  · rw [lift_of_ok hm]
    exact h.of_ok hs hm

theorem write_triple {f : σ → σ} {P Q : σ → Prop} {E : Raised ε → Faulty σ → Prop} (h : ∀ s, P s → Q (f s))
    (hE : ∀ s : Faulty σ, P s.state → E .storage s) :
    Prog.Triple (fun s => P s.state) (write f : Prog (Faulty σ) (Raised ε) Unit) (fun _ s => Q s.state) E := by
  rintro ⟨s, _ | ⟨_ | _, rest⟩⟩ hs
  · exact h s hs
  · exact h s hs
  · exact hE ⟨s, rest⟩ hs

/-! ## What a failed write leaves -/

/-- When a write of the program fails, the part of the state is what it was before the program. -/
def Keeps (view : σ → μ) (m : Prog (Faulty σ) (Raised ε) α) (s : σ) : Prop :=
  ∀ failures s', m ⟨s, failures⟩ = (.error .storage, s') → view s'.state = view s

variable {view : σ → μ}

/-- A program whose failed writes all find the part as it was keeps it. -/
theorem keeps_of_triple {m : Prog (Faulty σ) (Raised ε) α} {s : σ} {Q : α → Faulty σ → Prop}
    {E : Raised ε → Faulty σ → Prop} (h : Prog.Triple (fun t => t.state = s) m Q E)
    (hE : ∀ t, E .storage t → view t.state = view s) : Keeps view m s :=
  fun failures s' hm => hE s' (h.of_error (s := ⟨s, failures⟩) rfl hm)

theorem keeps_map_iff {m : Prog (Faulty σ) (Raised ε) α} {f : α → β} {s : σ} :
    Keeps view (f <$> m) s ↔ Keeps view m s := by
  unfold Keeps
  refine forall_congr' fun failures => forall_congr' fun s' => ?_
  rw [show f <$> m = m >>= fun a => pure (f a) from rfl, Prog.bind_apply]
  rcases m ⟨s, failures⟩ with ⟨e | a, t⟩
  · simp only [Prod.mk.injEq, Except.error.injEq]
  · exact iff_of_true nofun nofun

theorem not_keeps {m : Prog (Faulty σ) (Raised ε) α} {s : σ} (failures : List Bool) {s' : Faulty σ}
    (hm : m ⟨s, failures⟩ = (.error .storage, s')) (hview : view s'.state ≠ view s) : ¬ Keeps view m s :=
  fun h => hview (h failures s' hm)

end Faulty
