/-!
# Statements that may raise

A sequence of statements returns when each of them does.

## Main results

* `Raising.bind_eq_ok_iff`: what a sequence of two statements returns
* `Raising.exists_bind_iff`: a sequence that raises nothing
-/

namespace Raising

variable {α β ε : Type}

theorem error_or_ok (m : Except ε α) : (∃ e, m = .error e) ∨ ∃ a, m = .ok a := by
  cases m with
  | error e => exact .inl ⟨e, rfl⟩
  | ok a => exact .inr ⟨a, rfl⟩

/-- The first statement returns a value with which the second returns. -/
theorem bind_eq_ok_iff {m : Except ε α} {f : α → Except ε β} {b : β} :
    (m >>= f) = .ok b ↔ ∃ a, m = .ok a ∧ f a = .ok b := by
  constructor
  · intro h
    cases m with
    | error e => cases h
    | ok a => exact ⟨a, rfl, h⟩
  · rintro ⟨a, rfl, h⟩
    exact h

theorem exists_bind_iff {m : Except ε α} {f : α → Except ε β} :
    (∃ b, (m >>= f) = .ok b) ↔ ∃ a, m = .ok a ∧ ∃ b, f a = .ok b := by
  simp only [bind_eq_ok_iff]
  exact ⟨fun ⟨b, a, hm, hf⟩ => ⟨a, hm, b, hf⟩, fun ⟨a, hm, b, hf⟩ => ⟨b, a, hm, hf⟩⟩

@[simp] theorem exists_map_iff {m : Except ε α} {f : α → β} : (∃ b, f <$> m = .ok b) ↔ ∃ a, m = .ok a := by
  cases m with
  | error e => exact iff_of_false nofun nofun
  | ok a => exact iff_of_true ⟨f a, rfl⟩ ⟨a, rfl⟩

@[simp] theorem pure_eq_ok_iff {a b : α} : (pure a : Except ε α) = .ok b ↔ a = b := Except.ok.injEq a b ▸ Iff.rfl

end Raising
