import Mathlib.Logic.Function.Iterate

/-!
# Linear shift registers

A register that takes in one value after another: it is shifted by a linear map `L`,
and the value is added to it. Adding (`op`) is associative, has a neutral element,
and adding an element to itself gives that element, as for exclusive or.

* `foldl_op`: the register splits into what it holds at first, shifted, and what is
  taken in;
* `foldl_eq_iff`: the values that bring a register to a target are those that bring
  the empty one to the target with what the register holds, shifted.
-/

namespace Register

variable {α β : Type*} (op : α → α → α) (L : α → α) (f : β → α)

/-- The register after one more value. -/
def take (c : α) (v : β) : α := op (L c) (f v)

variable {op L f} [Std.Associative op]

/-- The register splits into what it holds at first, shifted, and what is taken
    in. -/
theorem foldl_op (hL : ∀ a b, L (op a b) = op (L a) (L b)) (vs : List β) (a b : α) :
    vs.foldl (take op L f) (op a b) = op (L^[vs.length] a) (vs.foldl (take op L f) b) := by
  induction vs generalizing a b with
  | nil => rfl
  | cons v vs ih =>
    have hstep : take op L f (op a b) v = op (L a) (take op L f b v) := by
      rw [take, take, hL, ‹Std.Associative op›.assoc]
    rw [List.foldl_cons, hstep, ih]
    rfl

variable {zero : α}

/-- The values that bring the register from `c` to `target`. -/
theorem foldl_eq_iff (hL : ∀ a b, L (op a b) = op (L a) (L b)) (hzero : ∀ a, op a zero = a)
    (hzero' : ∀ a, op zero a = a) (hself : ∀ a, op a a = zero) (vs : List β) (c target : α) :
    vs.foldl (take op L f) c = target ↔
      vs.foldl (take op L f) zero = op (L^[vs.length] c) target := by
  have hsplit : vs.foldl (take op L f) c =
      op (L^[vs.length] c) (vs.foldl (take op L f) zero) := by
    rw [← foldl_op hL, hzero]
  rw [hsplit]
  constructor
  · rintro rfl
    rw [← ‹Std.Associative op›.assoc, hself, hzero']
  · intro h
    rw [h, ← ‹Std.Associative op›.assoc, hself, hzero']

end Register
