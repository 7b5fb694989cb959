import Mathlib

/-!
# Computations that may fail

A computation in steps ends well if all of its steps do.
-/

namespace FieldHint

variable {ε α β : Type} {x : Except ε α} {f : α → Except ε β} {b : β}

/-- A computation that ends well has got through its first step. -/
theorem exists_of_bind (h : x >>= f = .ok b) : ∃ a, x = .ok a ∧ f a = .ok b := by
  cases x with
  | error e => cases h
  | ok a => exact ⟨a, rfl, h⟩

/-- If the first step ends well, the others go on from there. -/
theorem bind_of_eq_ok {a : α} (h : x = .ok a) (f : α → Except ε β) : x >>= f = f a := by
  rw [h]
  rfl

/-- A step that hands on what is left and only wraps its value. -/
theorem wrap_eq_ok_iff {γ : Type} {x : Except ε (α × γ)} {f : α → β} {c : γ} :
    (x >>= fun r => pure (f r.1, r.2)) = .ok (b, c) ↔ ∃ a, x = .ok (a, c) ∧ b = f a := by
  constructor
  · intro h
    obtain ⟨⟨a, c⟩, hx, h⟩ := exists_of_bind h
    obtain ⟨rfl, rfl⟩ := Prod.mk.inj (Except.ok.inj h)
    exact ⟨a, hx, rfl⟩
  · rintro ⟨a, hx, rfl⟩
    rw [bind_of_eq_ok hx]
    rfl

end FieldHint
