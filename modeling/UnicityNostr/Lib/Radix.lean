import Mathlib.Data.Nat.Digits.Lemmas

/-!
# Positional notation

The number of a list of digits in the base `b`, the high digits first, as bytes and
symbols stand in a text.

* `value_append`, `value_lt`: the digits of one list after another, and the range;
* `value_inj`: lists of one length with the same number are equal;
* `value_digits`: a number is that of its digits.
-/

namespace Radix

/-- The number of a list of digits, the high ones first. -/
def value (b : ℕ) (ds : List ℕ) : ℕ := Nat.ofDigits b ds.reverse

variable {b : ℕ} {ds es : List ℕ}

@[simp] theorem value_nil (b : ℕ) : value b [] = 0 := rfl

theorem value_append (b : ℕ) (ds es : List ℕ) :
    value b (ds ++ es) = value b ds * b ^ es.length + value b es := by
  rw [value, List.reverse_append, Nat.ofDigits_append, List.length_reverse, Nat.add_comm,
    Nat.mul_comm]
  rfl

/-- One more digit at the end. -/
theorem value_concat (b : ℕ) (ds : List ℕ) (d : ℕ) :
    value b (ds ++ [d]) = value b ds * b + d := by
  rw [value_append, List.length_singleton, pow_one]
  simp [value]

theorem value_lt (hb : 1 < b) (hds : ∀ d ∈ ds, d < b) : value b ds < b ^ ds.length := by
  rw [value, ← List.length_reverse]
  exact Nat.ofDigits_lt_base_pow_length hb fun d hd => hds d (List.mem_reverse.1 hd)

/-- Lists of one length with the same number are equal. -/
theorem value_inj (hb : 1 < b) (hlen : ds.length = es.length) (hds : ∀ d ∈ ds, d < b)
    (hes : ∀ d ∈ es, d < b) (h : value b ds = value b es) : ds = es :=
  List.reverse_inj.1 (Nat.ofDigits_inj_of_len_eq hb (by simpa using hlen)
    (fun d hd => hds d (List.mem_reverse.1 hd)) (fun d hd => hes d (List.mem_reverse.1 hd)) h)

/-- The `k` low digits of a number, the high ones first. -/
def digits (b k n : ℕ) : List ℕ := (List.range k).map fun i => n / b ^ (k - 1 - i) % b

theorem digits_succ (b k n : ℕ) : digits b (k + 1) n = digits b k (n / b) ++ [n % b] := by
  rw [digits, List.range_succ, List.map_append, digits]
  congr 1
  · refine List.map_congr_left fun i hi => ?_
    have hi := List.mem_range.1 hi
    rw [Nat.div_div_eq_div_mul, ← Nat.pow_succ', show (k - 1 - i).succ = k + 1 - 1 - i by omega]
  · simp

theorem digits_lt (hb : 0 < b) (k n : ℕ) : ∀ d ∈ digits b k n, d < b := by
  rw [digits, List.forall_mem_map]
  exact fun _ _ => Nat.mod_lt _ hb

/-- A number is that of its digits. -/
theorem value_digits (b k n : ℕ) : value b (digits b k n) = n % b ^ k := by
  induction k generalizing n with
  | zero => simp [digits, Nat.mod_one]
  | succ k ih =>
    rw [digits_succ, value_concat, ih, Nat.pow_succ', Nat.mod_mul, Nat.add_comm, Nat.mul_comm]

end Radix
