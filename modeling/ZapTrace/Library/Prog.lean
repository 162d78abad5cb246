import Mathlib.Logic.Basic

/-!
# Stateful programs that may raise

A program over a state `σ` returns a value or raises an exception, and leaves a state in both
cases: what it did before raising stays done. A triple says what holds after a normal and after
an exceptional exit.

## Main results

* `Prog.bind_eq_ok`, `Prog.bind_eq_error`: the exits of a sequence
* `Prog.Triple.bind`, `Prog.Triple.tryExcept`, `Prog.Triple.forEach`: rules for sequences,
  handlers and loops
-/

/-- A program on the state `σ`: it returns or raises, and leaves a state either way. -/
def Prog (σ ε α : Type) := σ → Except ε α × σ

namespace Prog

variable {σ τ ε α β ι : Type}

instance : Monad (Prog σ ε) where
  pure a := fun s => (.ok a, s)
  bind m f := fun s =>
    match m s with
    | (.ok a, s') => f a s'
    | (.error e, s') => (.error e, s')

instance : LawfulMonad (Prog σ ε) :=
  LawfulMonad.mk' (Prog σ ε)
    (fun m => by
      funext s
      rcases h : m s with ⟨_ | a, s'⟩ <;> simp only [Functor.map, h]
      rfl)
    (fun _ _ => rfl)
    (fun m f g => by
      funext s
      rcases h : m s with ⟨_ | a, s'⟩ <;> simp [Bind.bind, h])

/-- The current state. -/
def get : Prog σ ε σ := fun s => (.ok s, s)

/-- Replace the state. -/
def set (s : σ) : Prog σ ε Unit := fun _ => (.ok (), s)

/-- Apply a function to the state. -/
def modify (f : σ → σ) : Prog σ ε Unit := fun s => (.ok (), f s)

def raise (e : ε) : Prog σ ε α := fun s => (.error e, s)

/-- A computation that does not depend on the state. -/
def ofExcept (x : Except ε α) : Prog σ ε α := fun s => (x, s)

/-- Raise when the outcome is an error, and otherwise continue with the state it holds. -/
def attempt (f : σ → Except ε σ) : Prog σ ε Unit := fun s =>
  match f s with
  | .ok s' => (.ok (), s')
  | .error e => (.error e, s)

/-- Run `m`; the exceptions selected by `caught` are handed to `handler`. -/
def tryExcept (m : Prog σ ε α) (caught : ε → Bool) (handler : ε → Prog σ ε α) : Prog σ ε α :=
  fun s =>
    match m s with
    | (.ok a, s') => (.ok a, s')
    | (.error e, s') => if caught e then handler e s' else (.error e, s')

/-- Hand every exception of `m`, which may carry more than the exceptions of the whole, to
`handler`. -/
def handle {ε' : Type} (m : Prog σ ε' α) (handler : ε' → Prog σ ε α) : Prog σ ε α := fun s =>
  match m s with
  | (.ok a, s') => (.ok a, s')
  | (.error e, s') => handler e s'

/-- Change the exceptions a program raises. -/
def mapError {ε' : Type} (f : ε → ε') (m : Prog σ ε α) : Prog σ ε' α := fun s =>
  match m s with
  | (.ok a, s') => (.ok a, s')
  | (.error e, s') => (.error (f e), s')

/-- A program on a component of the state, given by how it is read and written back. -/
def onState (view : σ → τ) (update : τ → σ → σ) (m : Prog τ ε α) : Prog σ ε α := fun s =>
  ((m (view s)).1, update (m (view s)).2 s)

/-- Run a program as a transaction: when it raises, what it did is undone. -/
def transaction (m : Prog σ ε α) : Prog σ ε α := fun s =>
  match m s with
  | (.ok a, s') => (.ok a, s')
  | (.error e, _) => (.error e, s)

/-- Run `f` on each element in order. -/
def forEach (f : ι → Prog σ ε Unit) : List ι → Prog σ ε Unit
  | [] => pure ()
  | i :: is => do
    f i
    forEach f is

/-! ## Running a program -/

@[simp] theorem pure_apply (a : α) (s : σ) : (pure a : Prog σ ε α) s = (.ok a, s) := rfl

@[simp] theorem get_apply (s : σ) : (get : Prog σ ε σ) s = (.ok s, s) := rfl

@[simp] theorem set_apply (s s' : σ) : (set s' : Prog σ ε Unit) s = (.ok (), s') := rfl

@[simp] theorem modify_apply (f : σ → σ) (s : σ) :
    (modify f : Prog σ ε Unit) s = (.ok (), f s) := rfl

@[simp] theorem raise_apply (e : ε) (s : σ) : (raise e : Prog σ ε α) s = (.error e, s) := rfl

@[simp] theorem ofExcept_ok (a : α) : (ofExcept (.ok a) : Prog σ ε α) = pure a := rfl

@[simp] theorem ofExcept_error (e : ε) : (ofExcept (.error e) : Prog σ ε α) = raise e := rfl

theorem bind_apply (m : Prog σ ε α) (f : α → Prog σ ε β) (s : σ) :
    (m >>= f) s = match m s with
      | (.ok a, s') => f a s'
      | (.error e, s') => (.error e, s') := rfl
variable {m : Prog σ ε α} {s s' : σ} {f : α → Prog σ ε β} {a : α}

theorem bind_of_ok (h : m s = (.ok a, s')) : (m >>= f) s = f a s' := by
  rw [bind_apply, h]
variable {e : ε}

theorem bind_of_error (h : m s = (.error e, s')) : (m >>= f) s = (.error e, s') := by
  rw [bind_apply, h]

@[simp] theorem get_bind (f : σ → Prog σ ε β) (s : σ) : (get >>= f) s = f s s := rfl

@[simp] theorem pure_bind_apply (a : α) (f : α → Prog σ ε β) (s : σ) :
    ((pure a : Prog σ ε α) >>= f) s = f a s := rfl

@[simp] theorem modify_bind (g : σ → σ) (f : Unit → Prog σ ε β) (s : σ) :
    ((modify g : Prog σ ε Unit) >>= f) s = f () (g s) := rfl

@[simp] theorem set_bind (t : σ) (f : Unit → Prog σ ε β) (s : σ) :
    ((set t : Prog σ ε Unit) >>= f) s = f () t := rfl

@[simp] theorem raise_bind (e : ε) (f : α → Prog σ ε β) (s : σ) :
    ((raise e : Prog σ ε α) >>= f) s = (.error e, s) := rfl

theorem bind_eq_ok {s s'' : σ} {b : β} :
    (m >>= f) s = (.ok b, s'') ↔ ∃ a s', m s = (.ok a, s') ∧ f a s' = (.ok b, s'') := by
  rw [bind_apply]
  rcases h : m s with ⟨_ | a, s'⟩ <;> simp [and_assoc]

/-- A sequence raises when the first program does, or when it returns and the second raises. -/
theorem bind_eq_error {s s'' : σ} :
    (m >>= f) s = (.error e, s'') ↔
      m s = (.error e, s'') ∨ ∃ a s', m s = (.ok a, s') ∧ f a s' = (.error e, s'') := by
  rw [bind_apply]
  rcases h : m s with ⟨_ | a, s'⟩ <;> simp [and_assoc]

theorem onState_apply (view : σ → τ) (update : τ → σ → σ) (m : Prog τ ε α) (s : σ) :
    onState view update m s = ((m (view s)).1, update (m (view s)).2 s) := rfl

theorem handle_of_ok {ε' : Type} {m : Prog σ ε' α} {handler : ε' → Prog σ ε α} (h : m s = (.ok a, s')) :
    handle m handler s = (.ok a, s') := by
  simp [handle, h]

theorem handle_of_error {ε' : Type} {m : Prog σ ε' α} {handler : ε' → Prog σ ε α} {e : ε'} (h : m s = (.error e, s')) :
    handle m handler s = handler e s' := by
  simp [handle, h]

theorem mapError_of_ok {ε' : Type} {f : ε → ε'} (h : m s = (.ok a, s')) : mapError f m s = (.ok a, s') := by
  simp [mapError, h]

theorem mapError_of_error {ε' : Type} {f : ε → ε'} (h : m s = (.error e, s')) :
    mapError f m s = (.error (f e), s') := by
  simp [mapError, h]

theorem tryExcept_of_ok {caught : ε → Bool} {handler : ε → Prog σ ε α} (h : m s = (.ok a, s')) :
    tryExcept m caught handler s = (.ok a, s') := by
  simp [tryExcept, h]

theorem tryExcept_of_error {caught : ε → Bool} {handler : ε → Prog σ ε α} (h : m s = (.error e, s'))
    (hc : caught e = true) : tryExcept m caught handler s = handler e s' := by
  simp [tryExcept, h, hc]

theorem transaction_of_ok (h : m s = (.ok a, s')) : transaction m s = (.ok a, s') := by
  simp [transaction, h]

theorem transaction_eq_ok : transaction m s = (.ok a, s') ↔ m s = (.ok a, s') := by
  unfold transaction
  rcases m s with ⟨_ | b, t⟩ <;> simp

theorem snd_of_transaction_eq_error {s : σ} (h : (transaction m s).1 = .error e) : (transaction m s).2 = s := by
  unfold transaction at h ⊢
  rcases hm : m s with ⟨_ | b, t⟩
  · rfl
  · simp [hm] at h

theorem bind_pure_snd (m : Prog σ ε α) (f : α → β) (s : σ) :
    ((m >>= fun a => pure (f a)) s).2 = (m s).2 := by
  rw [bind_apply]
  rcases m s with ⟨_ | a, s'⟩ <;> rfl

theorem bind_pure_fst (m : Prog σ ε α) (f : α → β) (s : σ) :
    ((m >>= fun a => pure (f a)) s).1 = (m s).1.map f := by
  rw [bind_apply]
  rcases m s with ⟨_ | a, s'⟩ <;> rfl

theorem mapError_snd {ε' : Type} (f : ε → ε') (m : Prog σ ε α) (s : σ) :
    (mapError f m s).2 = (m s).2 := by
  unfold mapError
  rcases m s with ⟨_ | a, s'⟩ <;> rfl

theorem exceptBind_eq_ok {x : Except ε α} {f : α → Except ε β} {b : β} :
    x >>= f = .ok b ↔ ∃ a, x = .ok a ∧ f a = .ok b := by
  cases x <;> simp [bind, Except.bind]

/-! ## Triples -/

/-- From `P`, the program `m` ends in `Q` when it returns and in `E` when it raises. -/
def Triple (P : σ → Prop) (m : Prog σ ε α) (Q : α → σ → Prop) (E : ε → σ → Prop) : Prop :=
  ∀ s, P s → match m s with
    | (.ok a, s') => Q a s'
    | (.error e, s') => E e s'

namespace Triple

variable {P P' : σ → Prop} {m : Prog σ ε α} {Q Q' : α → σ → Prop} {E E' : ε → σ → Prop}

theorem of_ok (h : Triple P m Q E) {s s' : σ} {a : α} (hs : P s) (hm : m s = (.ok a, s')) :
    Q a s' := by
  simpa [hm] using h s hs

theorem of_error (h : Triple P m Q E) {s s' : σ} {e : ε} (hs : P s) (hm : m s = (.error e, s')) :
    E e s' := by
  simpa [hm] using h s hs

theorem intro (hok : ∀ s, P s → ∀ a s', m s = (.ok a, s') → Q a s')
    (herr : ∀ s, P s → ∀ e s', m s = (.error e, s') → E e s') : Triple P m Q E := by
  intro s hs
  rcases h : m s with ⟨_ | a, s'⟩
  · exact herr s hs _ _ h
  · exact hok s hs _ _ h

theorem consequence (h : Triple P m Q E) (hP : ∀ s, P' s → P s) (hQ : ∀ a s, Q a s → Q' a s)
    (hE : ∀ e s, E e s → E' e s) : Triple P' m Q' E' :=
  intro (fun s hs a s' hm => hQ a s' (h.of_ok (hP s hs) hm))
    fun s hs e s' hm => hE e s' (h.of_error (hP s hs) hm)

theorem pre (h : Triple P m Q E) (hP : ∀ s, P' s → P s) : Triple P' m Q E :=
  fun s hs => h s (hP s hs)

/-- The sequencing rule: what holds between the two programs is their meeting point. -/
theorem bind {f : α → Prog σ ε β} {R : β → σ → Prop} (hm : Triple P m Q E)
    (hf : ∀ a, Triple (Q a) (f a) R E) : Triple P (m >>= f) R E := by
  refine intro (fun s hs b s'' h => ?_) fun s hs e s'' h => ?_
  · obtain ⟨a, s', h₁, h₂⟩ := bind_eq_ok.mp h
    exact (hf a).of_ok (hm.of_ok hs h₁) h₂
  · rcases bind_eq_error.mp h with h₁ | ⟨a, s', h₁, h₂⟩
    · exact hm.of_error hs h₁
    · exact (hf a).of_error (hm.of_ok hs h₁) h₂

theorem get_bind {f : σ → Prog σ ε α} (hf : ∀ s, P s → Triple (fun t => t = s) (f s) Q E) :
    Triple P (Prog.get >>= f) Q E :=
  fun s hs => hf s hs s rfl

/-- The handler rule: a caught exception continues from what held when it was raised. -/
theorem tryExcept {caught : ε → Bool} {handler : ε → Prog σ ε α} (hm : Triple P m Q E')
    (hc : ∀ e, caught e = true → Triple (E' e) (handler e) Q E)
    (hn : ∀ e s, caught e = false → E' e s → E e s) :
    Triple P (tryExcept m caught handler) Q E := by
  intro s hs
  rcases h : m s with ⟨e | a, s'⟩
  · have he := hm.of_error hs h
    cases hce : caught e with
    | true =>
      rw [tryExcept_of_error h hce]
      exact hc e hce s' he
    | false => simpa [Prog.tryExcept, h, hce] using hn e s' hce he
  · rw [tryExcept_of_ok h]
    exact hm.of_ok hs h

/-- The handler rule when every exception is handled. -/
theorem handle {ε' : Type} {m : Prog σ ε' α} {E' : ε' → σ → Prop} {handler : ε' → Prog σ ε α}
    (hm : Triple P m Q E') (hh : ∀ e, Triple (E' e) (handler e) Q E) :
    Triple P (Prog.handle m handler) Q E := by
  intro s hs
  rcases h : m s with ⟨e | a, s'⟩
  · rw [handle_of_error h]
    exact hh e s' (hm.of_error hs h)
  · rw [handle_of_ok h]
    exact hm.of_ok hs h

theorem mapError {ε' : Type} {f : ε → ε'} {E : ε' → σ → Prop}
    (hm : Triple P m Q fun e => E (f e)) : Triple P (Prog.mapError f m) Q E := by
  intro s hs
  rcases h : m s with ⟨e | a, s'⟩
  · rw [mapError_of_error h]
    exact hm.of_error hs h
  · rw [mapError_of_ok h]
    exact hm.of_ok hs h

theorem snd {R : σ → Prop} (hm : Triple P m (fun _ => R) fun _ => R) {s : σ} (hs : P s) :
    R (m s).2 := by
  rcases h : m s with ⟨e | a, s'⟩
  · exact hm.of_error hs h
  · exact hm.of_ok hs h

theorem transaction_cases (hm : Triple P m Q E) {s : σ} (hs : P s) :
    (∃ a s', transaction m s = (.ok a, s') ∧ Q a s') ∨ ∃ e, transaction m s = (.error e, s) := by
  rcases h : m s with ⟨e | a, s'⟩
  · exact .inr ⟨e, by simp [transaction, h]⟩
  · exact .inl ⟨a, s', by simp [transaction, h], hm.of_ok hs h⟩

/-- The rule for a program on a component of the state. -/
theorem onState {view : σ → τ} {update : τ → σ → σ} {m : Prog τ ε α}
    (hm : ∀ s, P s → Triple (fun t => t = view s) m (fun a t => Q a (update t s))
      fun e t => E e (update t s)) : Triple P (Prog.onState view update m) Q E := by
  intro s hs
  rw [onState_apply]
  rcases h : m (view s) with ⟨e | a, t⟩
  · exact (hm s hs).of_error rfl h
  · exact (hm s hs).of_ok rfl h

/-- The loop rule: an invariant on the elements still to be visited. -/
theorem forEach {f : ι → Prog σ ε Unit} {I : List ι → σ → Prop} {E : ε → σ → Prop}
    (hf : ∀ i is, Triple (I (i :: is)) (f i) (fun _ => I is) E) (is : List ι) :
    Triple (I is) (Prog.forEach f is) (fun _ => I []) E := by
  induction is with
  | nil => exact fun s hs => hs
  | cons i is ih => exact Triple.bind (hf i is) fun _ => ih

end Triple

end Prog
