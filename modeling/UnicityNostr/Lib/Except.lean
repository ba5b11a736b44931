/-!
# Results and errors

Sequencing of computations that end in a result or an error, and turning a
missing value into an error.
-/

namespace Except

universe u v w

variable {ε : Type u} {α : Type v} {β : Type v}

/-- A value, or the error `e` if there is none: `ok_or`. -/
def okOr (o : Option α) (e : ε) : Except ε α :=
  match o with
  | some a => .ok a
  | none => .error e

@[simp] theorem okOr_eq_ok {o : Option α} {e : ε} {a : α} : okOr o e = .ok a ↔ o = some a := by
  cases o <;> simp [okOr]

@[simp] theorem okOr_some (a : α) (e : ε) : okOr (some a) e = .ok a := rfl

@[simp] theorem mapError_ok {ε' : Type w} (f : ε → ε') (a : α) :
    (Except.ok a).mapError f = .ok a := rfl

@[simp] theorem mapError_error {ε' : Type w} (f : ε → ε') (e : ε) :
    (Except.error e : Except ε α).mapError f = .error (f e) := rfl

@[simp] theorem mapError_eq_ok {ε' : Type w} {f : ε → ε'} {x : Except ε α} {a : α} :
    x.mapError f = .ok a ↔ x = .ok a := by
  cases x <;> simp

@[simp] theorem bind_ok (a : α) (f : α → Except ε β) : (Except.ok a >>= f) = f a := rfl

@[simp] theorem bind_error (e : ε) (f : α → Except ε β) :
    (Except.error e >>= f) = .error e := rfl

/-- A sequence ends in a result when both parts do. -/
theorem bind_eq_ok {x : Except ε α} {f : α → Except ε β} {b : β} :
    (x >>= f) = .ok b ↔ ∃ a, x = .ok a ∧ f a = .ok b := by
  cases x <;> simp

theorem map_injective {f : α → β} (hf : ∀ ⦃a a'⦄, f a = f a' → a = a') {x x' : Except ε α}
    (h : x.map f = x'.map f) : x = x' := by
  cases x with
  | error e => cases x' with
    | error e' => exact congrArg _ (Except.error.inj h)
    | ok a' => cases h
  | ok a => cases x' with
    | error e' => cases h
    | ok a' => exact congrArg _ (hf (Except.ok.inj h))

end Except
