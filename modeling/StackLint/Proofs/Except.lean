/-
  StackLint.Proofs.Except
  ───────────────────────
  **COMPUTATIONS THAT MAY FAIL.**

  A sequence of computations succeeds when each of them does; here are the
  equations that take such a sequence apart.
-/

namespace StackLint

/-- A sequence succeeds with a value when both parts succeed. -/
theorem bind_eq_ok {ε α β : Type} {x : Except ε α} {f : α → Except ε β} {b : β} :
    (x >>= f) = .ok b ↔ ∃ a, x = .ok a ∧ f a = .ok b := by
  cases x with
  | error e =>
      refine iff_of_false ?_ ?_
      · intro h
        cases h
      · rintro ⟨a, same, _⟩
        cases same
  | ok a =>
      constructor
      · intro h
        exact ⟨a, rfl, h⟩
      · rintro ⟨_, same, h⟩
        cases same
        exact h

/-- What is done with a value is done with a value there is. -/
theorem map_eq_ok {ε α β : Type} {x : Except ε α} {f : α → β} {b : β} :
    x.map f = .ok b ↔ ∃ a, x = .ok a ∧ f a = b := by
  cases x with
  | error e =>
      refine iff_of_false ?_ ?_
      · intro h
        cases h
      · rintro ⟨a, same, _⟩
        cases same
  | ok a =>
      constructor
      · rintro ⟨⟩
        exact ⟨a, rfl, rfl⟩
      · rintro ⟨_, ⟨⟩, rfl⟩
        rfl

theorem exists_ok_iff {ε α : Type} (x : Except ε α) : (∃ a, x = .ok a) ↔ x.isOk = true := by
  cases x with
  | error e =>
      refine iff_of_false ?_ Bool.false_ne_true
      rintro ⟨a, same⟩
      cases same
  | ok a => exact iff_of_true ⟨a, rfl⟩ rfl

/-- A computation that has a value is evaluated. -/
theorem exists_ok_of_any {ε α : Type} {x : Except ε α} {p : α → Bool}
    (h : x.toOption.any p = true) : ∃ a, x = .ok a ∧ p a = true := by
  cases x with
  | error _ => cases h
  | ok a => exact ⟨a, rfl, h⟩

/-- A computation is evaluated to a value. -/
theorem eq_ok_of_toOption {ε α : Type} {x : Except ε α} {a : α} (h : x.toOption = some a) :
    x = .ok a := by
  cases x with
  | error _ => cases h
  | ok b => rw [Option.some.inj h]

/-- A sequence succeeds when both parts do. -/
theorem isOk_bind {ε α β : Type} (x : Except ε α) (f : α → Except ε β) :
    (x >>= f).isOk = true ↔ ∃ a, x = .ok a ∧ (f a).isOk = true := by
  simp only [← exists_ok_iff, bind_eq_ok]
  constructor
  · rintro ⟨b, a, first, second⟩
    exact ⟨a, first, b, second⟩
  · rintro ⟨a, first, b, second⟩
    exact ⟨b, a, first, second⟩

/-- What is done with a value does not make it fail. -/
theorem isOk_bind_pure {ε α β : Type} (x : Except ε α) (f : α → β) :
    (x >>= fun a => (pure (f a) : Except ε β)).isOk = x.isOk := by
  cases x <;> rfl

end StackLint
