import Mathlib.Algebra.Ring.Nat
import Mathlib.Data.List.Basic

/-!
# Checked operations

Indices, slices, splits, subtractions, shifts, divisions and conversions to
arrays have a value within their range only; outside of it the program panics. A
checked operation has no value then (`none`), and neither has a computation that
reaches it (`Checked`): that it ends in a result or in an error says that it does
not panic.

* `Checked.Computes`: a checked computation ends, and as an unchecked one does;
* `Computes.bind`, `computes_access_bind`, `computes_ite`: the rules for steps in a
  row, for an access within its range, and for a check of the program.
-/

/-- A computation that ends in a result or an error, or panics. -/
structure Checked (ε : Type) (α : Type) where
  run : Option (Except ε α)

namespace Checked

/-! ## Accesses -/

section Accesses

variable {α : Type}

/-- `xs[i]` -/
def index (xs : List α) (i : Nat) : Option α := xs[i]?

/-- `&xs[i..j]` -/
def slice (xs : List α) (i j : Nat) : Option (List α) :=
  if i ≤ j ∧ j ≤ xs.length then some ((xs.take j).drop i) else none

/-- `xs.split_at(i)` -/
def splitAt (xs : List α) (i : Nat) : Option (List α × List α) :=
  if i ≤ xs.length then some (xs.take i, xs.drop i) else none

/-- An array of length `n`: `from_slice`, `copy_from_slice`. -/
def toArray (n : Nat) (xs : List α) : Option {xs : List α // xs.length = n} :=
  if h : xs.length = n then some ⟨xs, h⟩ else none

/-- `a - b` -/
def sub (a b : Nat) : Option Nat := if b ≤ a then some (a - b) else none

/-- The `value` of a shift of a word of `width` bits. -/
def shift (width amount : Nat) (value : α) : Option α := if amount < width then some value else none

/-- The `value` of a division by `b`. -/
def div (b : Nat) (value : α) : Option α := if b = 0 then none else some value

/-- A value that fits into a word of `width` bits. -/
def fits (width value : Nat) : Option Nat := if value < 2 ^ width then some value else none

theorem index_eq_some {xs : List α} {i : Nat} (h : i < xs.length) (a : α) :
    index xs i = some (xs.getD i a) := by
  rw [index, List.getElem?_eq_getElem h, List.getD_eq_getElem?_getD, List.getElem?_eq_getElem h,
    Option.getD_some]

theorem slice_eq_some {xs : List α} {i n : Nat} (h : i + n ≤ xs.length) :
    slice xs i (i + n) = some ((xs.drop i).take n) := by
  rw [slice, if_pos ⟨Nat.le_add_right _ _, h⟩, List.drop_take, Nat.add_sub_cancel_left]

theorem slice_to_end {xs : List α} {i : Nat} (h : i ≤ xs.length) :
    slice xs i xs.length = some (xs.drop i) := by
  rw [slice, if_pos ⟨h, Nat.le_refl _⟩, List.take_length]

theorem slice_from_start {xs : List α} {j : Nat} (h : j ≤ xs.length) :
    slice xs 0 j = some (xs.take j) := by
  rw [slice, if_pos ⟨Nat.zero_le _, h⟩, List.drop_zero]

theorem splitAt_eq_some {xs : List α} {i : Nat} (h : i ≤ xs.length) :
    splitAt xs i = some (xs.take i, xs.drop i) := if_pos h

theorem toArray_eq_some {n : Nat} {xs : List α} (h : xs.length = n) :
    toArray n xs = some ⟨xs, h⟩ := dif_pos h

theorem sub_eq_some {a b : Nat} (h : b ≤ a) : sub a b = some (a - b) := if_pos h

theorem eq_of_sub_eq_some {a b c : Nat} (h : sub a b = some c) : b ≤ a ∧ c = a - b := by
  unfold sub at h
  split_ifs at h with hle
  exact ⟨hle, (Option.some.inj h).symm⟩

theorem shift_eq_some {width amount : Nat} (h : amount < width) (value : α) :
    shift width amount value = some value := if_pos h

theorem div_eq_some {b : Nat} (h : b ≠ 0) (value : α) : div b value = some value := if_neg h

theorem fits_eq_some {width value : Nat} (h : value < 2 ^ width) :
    fits width value = some value := if_pos h

/-- What follows an access that is in range. -/
theorem bind_of_eq_some {β : Type} {o : Option α} {a : α} (h : o = some a) (f : α → Option β) :
    (o >>= f) = f a := by
  rw [h]
  rfl

/-- Mapping with accesses that are all in range. -/
theorem mapM_eq_some {β : Type} {f : α → Option β} {g : α → β} {xs : List α}
    (h : ∀ a ∈ xs, f a = some (g a)) : xs.mapM f = some (xs.map g) := by
  induction xs with
  | nil => rfl
  | cons a xs ih =>
    obtain ⟨ha, hxs⟩ := List.forall_mem_cons.1 h
    rw [List.mapM_cons, bind_of_eq_some ha, bind_of_eq_some (ih hxs)]
    rfl

/-- A loop with accesses that are all in range. -/
theorem foldlM_eq_some {β : Type} {f : β → α → Option β} {g : β → α → β} {xs : List α} {b : β}
    (h : ∀ b, ∀ a ∈ xs, f b a = some (g b a)) : xs.foldlM f b = some (xs.foldl g b) := by
  induction xs generalizing b with
  | nil => rfl
  | cons a xs ih =>
    rw [List.foldlM_cons, bind_of_eq_some (h b a List.mem_cons_self),
      ih fun b a ha => h b a (List.mem_cons_of_mem _ ha), List.foldl_cons]

end Accesses

/-! ## Text -/

/-- The characters of a text split at a byte offset, which must not lie within a
    character. -/
def splitBytes : Nat → List Char → Option (List Char × List Char)
  | 0, cs => some ([], cs)
  | _ + 1, [] => none
  | n + 1, c :: cs =>
    if c.utf8Size ≤ n + 1 then
      (splitBytes (n + 1 - c.utf8Size) cs).map fun (before, after) => (c :: before, after)
    else none

/-- `&s[..n]` -/
def textTo (s : List Char) (n : Nat) : Option (List Char) := (splitBytes n s).map Prod.fst

/-- `&s[n..]` -/
def textFrom (s : List Char) (n : Nat) : Option (List Char) := (splitBytes n s).map Prod.snd

/-- The byte offset of the last `c`: `rfind`. -/
def rfind (c : Char) : List Char → Option Nat
  | [] => none
  | c' :: cs =>
    match rfind c cs with
    | some n => some (c'.utf8Size + n)
    | none => if c' = c then some 0 else none

/-- The number of bytes of a text. -/
def byteLength (s : List Char) : Nat := (s.map Char.utf8Size).sum

/-- The end of a text is no offset within a character of a longer one. -/
theorem splitBytes_append (before after : List Char) :
    splitBytes (byteLength before) (before ++ after) = some (before, after) := by
  induction before with
  | nil =>
    show splitBytes 0 after = _
    rw [splitBytes]
  | cons c before ih =>
    have hc := c.utf8Size_pos
    obtain ⟨n, hn⟩ : ∃ n, byteLength (c :: before) = n + 1 :=
      ⟨byteLength (c :: before) - 1, by simp only [byteLength, List.map_cons, List.sum_cons]; omega⟩
    have hrest : n + 1 - c.utf8Size = byteLength before := by
      rw [← hn]
      simp only [byteLength, List.map_cons, List.sum_cons, Nat.add_sub_cancel_left]
    have hle : c.utf8Size ≤ n + 1 := by
      rw [← hn]
      simp only [byteLength, List.map_cons, List.sum_cons]
      omega
    rw [hn, List.cons_append, splitBytes, if_pos hle, hrest, ih]
    rfl

theorem byteLength_append (s s' : List Char) :
    byteLength (s ++ s') = byteLength s + byteLength s' := by
  rw [byteLength, List.map_append, List.sum_append]
  rfl

theorem textTo_append (before after : List Char) :
    textTo (before ++ after) (byteLength before) = some before := by
  rw [textTo, splitBytes_append]
  rfl

theorem textFrom_append (before after : List Char) :
    textFrom (before ++ after) (byteLength before) = some after := by
  rw [textFrom, splitBytes_append]
  rfl

/-! ## Computations -/

variable {ε α β : Type}

instance : Monad (Checked ε) where
  pure a := ⟨some (.ok a)⟩
  bind x f := ⟨x.run.bind fun
    | .ok a => (f a).run
    | .error e => some (.error e)⟩

/-- An access panics if it is out of range. -/
instance : MonadLift Option (Checked ε) where
  monadLift o := ⟨o.map .ok⟩

/-- A result or an error is no panic. -/
instance : MonadLift (Except ε) (Checked ε) where
  monadLift r := ⟨some r⟩

/-- An error is no panic. -/
def error (e : ε) : Checked ε α := ⟨some (.error e)⟩

/-- The checked computation does not panic, and ends as the unchecked one. -/
def Computes (x : Checked ε α) (r : Except ε α) : Prop := x.run = some r

/-- A computation ends in one way. -/
theorem Computes.unique {x : Checked ε α} {r s : Except ε α} (h : Computes x r)
    (h' : Computes x s) : r = s := Option.some.inj (h.symm.trans h')

theorem computes_pure (a : α) : Computes (pure a : Checked ε α) (.ok a) := rfl

theorem computes_error (e : ε) : Computes (error e : Checked ε α) (.error e) := rfl

theorem computes_lift (r : Except ε α) : Computes (liftM r : Checked ε α) r := rfl

/-- Steps in a row. -/
theorem Computes.bind {x : Checked ε α} {r : Except ε α} {f : α → Checked ε β}
    {g : α → Except ε β} (hx : Computes x r) (hf : ∀ a, r = .ok a → Computes (f a) (g a)) :
    Computes (x >>= f) (r >>= g) := by
  show x.run.bind _ = _
  rw [show x.run = some r from hx]
  cases r with
  | ok a => exact hf a rfl
  | error e => rfl

/-- A step that has a result. -/
theorem computes_lift_bind {r : Except ε α} {a : α} {f : α → Checked ε β} {s : Except ε β}
    (hr : r = .ok a) (hf : Computes (f a) s) : Computes (liftM r >>= f) s := by
  subst hr
  exact hf

/-- An access within its range. -/
theorem computes_access {o : Option α} {a : α} (ho : o = some a) :
    Computes (liftM o : Checked ε α) (.ok a) := by
  subst ho
  rfl

/-- What follows an access within its range. -/
theorem computes_access_bind {o : Option α} {a : α} {f : α → Checked ε β} {r : Except ε β}
    (ho : o = some a) (hf : Computes (f a) r) : Computes (liftM o >>= f) r := by
  subst ho
  exact hf

/-- A check of the program. -/
theorem computes_ite {p : Prop} [Decidable p] {x y : Checked ε α} {r s : Except ε α}
    (hx : p → Computes x r) (hy : ¬p → Computes y s) :
    Computes (if p then x else y) (if p then r else s) := by
  split_ifs with h
  · exact hx h
  · exact hy h

end Checked
