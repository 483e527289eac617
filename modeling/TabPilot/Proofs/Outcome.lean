set_option autoImplicit false

/-! # Computations that may fail

What a computation that has given a result was made of, and when two computations come to the
same.
-/

namespace TabPilot

variable {ε α β : Type} {x : Except ε α} {b : β}

/-- A result that was changed. -/
theorem exists_of_map_eq_ok {f : α → β} (h : x.map f = .ok b) : ∃ a, x = .ok a ∧ f a = b := by
  cases x with
  | error e => cases h
  | ok a => exact ⟨a, rfl, Except.ok.inj h⟩

/-- A computation in two steps. -/
theorem exists_of_bind_eq_ok {f : α → Except ε β} (h : x >>= f = .ok b) :
    ∃ a, x = .ok a ∧ f a = .ok b := by
  cases x with
  | error e => cases h
  | ok a => exact ⟨a, rfl, h⟩

/-! ## Two computations -/

/-- Two computations fail with the same error, or both have results, which are related. -/
inductive OutcomeRel (r : α → β → Prop) : Except ε α → Except ε β → Prop
  | error (e : ε) : OutcomeRel r (.error e) (.error e)
  | ok {a : α} {b : β} (h : r a b) : OutcomeRel r (.ok a) (.ok b)

namespace OutcomeRel

variable {γ δ : Type} {r : α → β → Prop} {q : γ → δ → Prop}

theorem error_or_ok {y : Except ε β} (h : OutcomeRel r x y) :
    (∃ e, x = .error e ∧ y = .error e) ∨ ∃ a b, x = .ok a ∧ y = .ok b ∧ r a b := by
  cases h with
  | error e => exact .inl ⟨e, rfl, rfl⟩
  | ok h => exact .inr ⟨_, _, rfl, rfl, h⟩

theorem refl (x : Except ε α) : OutcomeRel Eq x x := by
  cases x with
  | error e => exact .error e
  | ok a => exact .ok rfl

theorem bind {y : Except ε β} (h : OutcomeRel r x y) {f : α → Except ε γ} {g : β → Except ε δ}
    (hstep : ∀ a b, r a b → OutcomeRel q (f a) (g b)) : OutcomeRel q (x >>= f) (y >>= g) := by
  cases h with
  | error e => exact .error e
  | ok h => exact hstep _ _ h

theorem map {y : Except ε β} (h : OutcomeRel r x y) {f : α → γ} {g : β → δ}
    (hstep : ∀ a b, r a b → q (f a) (g b)) : OutcomeRel q (x.map f) (y.map g) := by
  cases h with
  | error e => exact .error e
  | ok h => exact .ok (hstep _ _ h)

theorem eq {y : Except ε α} (h : OutcomeRel Eq x y) : x = y := by
  cases h with
  | error e => rfl
  | ok h => rw [h]

end OutcomeRel

end TabPilot
