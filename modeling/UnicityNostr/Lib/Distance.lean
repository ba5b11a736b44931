import Mathlib.Algebra.BigOperators.Group.Finset.Piecewise
import Mathlib.Algebra.BigOperators.Intervals

/-!
# Distances of words

The number of positions at which two words of the same length differ (`distance`).

* `distance_eq_zero_iff`: words at no distance are equal;
* `distance_append`, `distance_reverse`, `distance_map`: words put together, reversed,
  and with other symbols;
* `distance_swap_le`: two neighbouring symbols exchanged;
* `card_filter_eq`: the positions, as a set.
-/

variable {α β : Type*} [DecidableEq α] [DecidableEq β]

/-- The number of positions at which the words differ. -/
def distance (l l' : List α) : ℕ := (List.zipWith (fun a b => decide (a ≠ b)) l l').count true

variable {l l' m m' : List α} {a b : α}

theorem distance_cons (a b : α) (l l' : List α) :
    distance (a :: l) (b :: l') = distance l l' + if a = b then 0 else 1 := by
  rw [distance, List.zipWith_cons_cons, List.count_cons]
  by_cases h : a = b <;> simp [h, distance]

theorem distance_self (l : List α) : distance l l = 0 := by
  induction l with
  | nil => rfl
  | cons a l ih => rw [distance_cons, ih, if_pos rfl]

/-- Words at no distance are equal. -/
theorem distance_eq_zero_iff (h : l.length = l'.length) : distance l l' = 0 ↔ l = l' := by
  induction l generalizing l' with
  | nil => simp [distance, (List.length_eq_zero_iff.1 h.symm)]
  | cons a l ih =>
    cases l' with
    | nil => cases h
    | cons b l' =>
      rw [distance_cons, Nat.add_eq_zero_iff, ih (Nat.succ.inj h), List.cons.injEq, and_comm]
      by_cases hab : a = b <;> simp [hab]

theorem distance_append (h : l.length = l'.length) :
    distance (l ++ m) (l' ++ m') = distance l l' + distance m m' := by
  rw [distance, List.zipWith_append h, List.count_append, distance, distance]

theorem distance_reverse (h : l.length = l'.length) :
    distance l.reverse l'.reverse = distance l l' := by
  rw [distance, ← List.reverse_zipWith h, List.count_reverse, distance]

/-- Other symbols in the place of the symbols. -/
theorem distance_map {f : α → β} (hf : ∀ a ∈ l, ∀ b ∈ l', f a = f b → a = b) :
    distance (l.map f) (l'.map f) = distance l l' := by
  induction l generalizing l' with
  | nil => rfl
  | cons a l ih =>
    cases l' with
    | nil => rfl
    | cons b l' =>
      have hab : f a = f b ↔ a = b := ⟨hf a List.mem_cons_self b List.mem_cons_self, congrArg f⟩
      have htail : ∀ x ∈ l, ∀ y ∈ l', f x = f y → x = y := fun x hx y hy =>
        hf x (List.mem_cons_of_mem a hx) y (List.mem_cons_of_mem b hy)
      rw [List.map_cons, List.map_cons, distance_cons, distance_cons, ih htail]
      simp only [hab]

/-- Two neighbouring symbols exchanged. -/
theorem distance_swap_le (l : List α) (a b : α) (m : List α) :
    distance (l ++ a :: b :: m) (l ++ b :: a :: m) ≤ 2 := by
  rw [distance_append rfl, distance_self, distance_cons, distance_cons, distance_self]
  split_ifs <;> omega

/-- The positions at which the words differ. -/
theorem card_filter_eq (x : α) (h : l.length = l'.length) :
    ((Finset.range l.length).filter fun k => l.getD k x ≠ l'.getD k x).card = distance l l' := by
  rw [Finset.card_filter]
  induction l generalizing l' with
  | nil => simp [distance]
  | cons a l ih =>
    cases l' with
    | nil => cases h
    | cons b l' =>
      rw [List.length_cons, Finset.sum_range_succ', distance_cons, ← ih (Nat.succ.inj h)]
      simp
