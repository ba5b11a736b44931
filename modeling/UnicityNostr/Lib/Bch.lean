import Mathlib.Algebra.BigOperators.Fin
import Mathlib.Data.Finset.Sort
import UnicityNostr.Lib.Distance
import UnicityNostr.Lib.Gf1024

/-!
# A code that detects four errors

The polynomials over the field of 32 elements with the roots `β`, `β e` and
`β e ^ 2`, where `β = e ^ 997`. One of a degree below 89 is zero if it has at most
four terms.

* `relations`: what three roots say about four terms;
* `no_relations`: no four exponents that are less than 89 apart satisfy all the
  relations, which is checked for all of them;
* `eq_zero_of_roots`: at most four terms are zero.
-/

namespace Gf1024

/-- The first root. -/
@[irreducible] def β : Gf1024 := ⟨.ofNat 29, .ofNat 13⟩

/-- The roots, one after the other. -/
def root (i : ℕ) : Gf1024 := β * e ^ i

theorem β_pow_31 : β ^ 31 = ω ^ 7 := by decide +kernel

/-! ## Four terms -/

/-- Three consecutive power sums of four terms that are zero relate each of the other
    terms to the first one. -/
theorem relations {u₁ u₂ u₃ u₄ x₁ x₂ x₃ x₄ : Gf1024} (h0 : u₁ + u₂ + u₃ + u₄ = 0)
    (h1 : u₁ * x₁ + u₂ * x₂ + u₃ * x₃ + u₄ * x₄ = 0)
    (h2 : u₁ * x₁ ^ 2 + u₂ * x₂ ^ 2 + u₃ * x₃ ^ 2 + u₄ * x₄ ^ 2 = 0) :
    u₁ * (x₁ + x₃) * (x₁ + x₄) = u₂ * (x₂ + x₃) * (x₂ + x₄) ∧
      u₁ * (x₁ + x₂) * (x₁ + x₄) = u₃ * (x₂ + x₃) * (x₃ + x₄) ∧
      u₁ * (x₁ + x₂) * (x₁ + x₃) = u₄ * (x₂ + x₄) * (x₃ + x₄) := by
  refine ⟨?_, ?_, ?_⟩
  · linear_combination h2 + (x₃ + x₄) * h1 + x₃ * x₄ * h0 -
      (u₃ * x₃ * (x₃ + x₄) + u₄ * x₄ * (x₃ + x₄) + u₂ * (x₂ + x₃) * (x₂ + x₄)) * two_eq_zero
  · linear_combination h2 + (x₂ + x₄) * h1 + x₂ * x₄ * h0 -
      (u₂ * x₂ * (x₂ + x₄) + u₄ * x₄ * (x₂ + x₄) + u₃ * (x₂ + x₃) * (x₃ + x₄)) * two_eq_zero
  · linear_combination h2 + (x₂ + x₃) * h1 + x₂ * x₃ * h0 -
      (u₂ * x₂ * (x₂ + x₃) + u₃ * x₃ * (x₂ + x₃) + u₄ * (x₂ + x₄) * (x₃ + x₄)) * two_eq_zero

/-- A term, with the sums of its power of `e` and two others. -/
theorem term_pow_31 (v : Gf32) (p : ℕ) {s t : Gf1024} {i j : ℕ} (hs : s ^ 31 = ω ^ i)
    (ht : t ^ 31 = ω ^ j) :
    (of v * β ^ p * s * t) ^ 31 = of v ^ 31 * ω ^ (7 * p + (i + j)) := by
  calc (of v * β ^ p * s * t) ^ 31
      = of v ^ 31 * ((β ^ 31) ^ p * (s ^ 31 * t ^ 31)) := by ring
    _ = of v ^ 31 * ω ^ (7 * p + (i + j)) := by
      rw [β_pow_31, hs, ht, ← pow_add, ← pow_mul, ← pow_add]

/-- Of two terms that are related, none or both are zero. -/
theorem eq_zero_or {v v' : Gf32} {i j : ℕ} (h : of v ^ 31 * ω ^ i = of v' ^ 31 * ω ^ j) :
    (v = 0 ∧ v' = 0) ∨ (v ≠ 0 ∧ v' ≠ 0 ∧ i ≡ j [MOD 33]) := by
  by_cases hv : v = 0 <;> by_cases hv' : v' = 0
  · exact .inl ⟨hv, hv'⟩
  · rw [hv, of_zero_pow, zero_mul, of_pow_eq_one hv', one_mul] at h
    exact absurd h.symm (ω_pow_ne_zero j)
  · rw [hv', of_zero_pow, zero_mul, of_pow_eq_one hv, one_mul] at h
    exact absurd h (ω_pow_ne_zero i)
  · rw [of_pow_eq_one hv, of_pow_eq_one hv', one_mul, one_mul, ω_pow_eq_iff] at h
    exact .inr ⟨hv, hv', h⟩

/-- Terms that are equal up to factors of the small field. -/
theorem related_terms {v v' : Gf32} {p p' i j i' j' : ℕ} {s t s' t' : Gf1024}
    (hs : s ^ 31 = ω ^ i) (ht : t ^ 31 = ω ^ j) (hs' : s' ^ 31 = ω ^ i') (ht' : t' ^ 31 = ω ^ j')
    (h : of v * β ^ p * s * t = of v' * β ^ p' * s' * t') :
    (v = 0 ∧ v' = 0) ∨ (v ≠ 0 ∧ v' ≠ 0 ∧ 7 * p + (i + j) ≡ 7 * p' + (i' + j') [MOD 33]) := by
  refine eq_zero_or ?_
  rw [← term_pow_31 v p hs ht, h, term_pow_31 v' p' hs' ht']

/-- Exponents of `ω` that are equal modulo 33, in terms of what the kernel evaluates. -/
def sameLog (i j : ℕ) : Bool := Nat.beq (Nat.mod i 33) (Nat.mod j 33)

theorem sameLog_iff {i j : ℕ} : sameLog i j = true ↔ i ≡ j [MOD 33] :=
  iff_of_eq Nat.beq_eq

/-- The relations between four terms of which none is zero; their exponents are `a`, `b`
    and `c` apart, one from the next. -/
def related (a b c : ℕ) : Bool :=
  sameLog (Nat.add (log (Nat.add a b)) (log (Nat.add (Nat.add a b) c)))
    (Nat.add (Nat.mul 9 a) (Nat.add (log b) (log (Nat.add b c)))) &&
  sameLog (log a + log (a + b + c)) (9 * a + 8 * b + log b + log c) &&
  sameLog (log a + log (a + b)) (9 * a + 8 * b + 7 * c + log (b + c) + log c)

theorem related_iff {a b c : ℕ} : related a b c = true ↔
    (log (a + b) + log (a + b + c) ≡ 9 * a + (log b + log (b + c)) [MOD 33] ∧
      log a + log (a + b + c) ≡ 9 * a + 8 * b + log b + log c [MOD 33]) ∧
      log a + log (a + b) ≡ 9 * a + 8 * b + 7 * c + log (b + c) + log c [MOD 33] := by
  rw [related, Bool.and_eq_true, Bool.and_eq_true, sameLog_iff, sameLog_iff, sameLog_iff]
  rfl

/-- The relations do not depend on the first exponent. -/
theorem modEq_of_shift (p : ℕ) {i j x y : ℕ} (h : i ≡ j [MOD 33]) (hi : i = 9 * p + x)
    (hj : j = 9 * p + y) : x ≡ y [MOD 33] := by
  subst hi hj
  exact Nat.ModEq.add_left_cancel' (9 * p) h

/-- Whether all numbers below `n` satisfy `p`. -/
def allBelow (p : ℕ → Bool) (n : ℕ) : Bool := Nat.rec true (fun k all => p k && all) n

theorem forall_of_allBelow {p : ℕ → Bool} {n : ℕ} (h : allBelow p n = true) :
    ∀ k < n, p k = true := by
  induction n with
  | zero => exact fun k hk => absurd hk (Nat.not_lt_zero k)
  | succ n ih =>
    obtain ⟨hn, hall⟩ := (Bool.and_eq_true _ _).mp h
    exact Nat.forall_lt_succ_right.2 ⟨ih hall, hn⟩

/-- No four exponents that are less than 89 apart satisfy the relations. -/
theorem no_relations {a b c : ℕ} (ha : 0 < a) (hb : 0 < b) (hc : 0 < c) (h : a + b + c < 89) :
    related a b c = false := by
  have hsearch : allBelow (fun a => allBelow (fun b => allBelow (fun c =>
      !related (Nat.succ a) (Nat.succ b) (Nat.succ c)) (86 - a - b)) (87 - a)) 88 = true := by
    decide +kernel
  have hrelated := forall_of_allBelow (forall_of_allBelow (forall_of_allBelow hsearch (a - 1)
    (by omega)) (b - 1) (by omega)) (c - 1) (by omega)
  rw [Nat.succ_eq_add_one, Nat.succ_eq_add_one, Nat.succ_eq_add_one, Nat.sub_add_cancel ha,
    Nat.sub_add_cancel hb, Nat.sub_add_cancel hc, Bool.not_eq_true'] at hrelated
  exact hrelated

/-- Four terms, less than 89 apart, of a polynomial with the three roots are zero. -/
theorem eq_zero_of_four {v₁ v₂ v₃ v₄ : Gf32} (p : ℕ) {a b c : ℕ} (ha : 0 < a) (hb : 0 < b)
    (hc : 0 < c) (habc : a + b + c < 89)
    (h : ∀ i < 3, of v₁ * root i ^ p + of v₂ * root i ^ (p + a) +
      of v₃ * root i ^ (p + a + b) + of v₄ * root i ^ (p + a + b + c) = 0) :
    v₁ = 0 ∧ v₂ = 0 ∧ v₃ = 0 ∧ v₄ = 0 := by
  have hterm : ∀ (v : Gf32) (q i : ℕ), of v * root i ^ q = of v * β ^ q * (e ^ q) ^ i := by
    intro v q i
    rw [root]
    ring
  simp only [hterm] at h
  have h0 := h 0 (by decide)
  have h1 := h 1 (by decide)
  have h2 := h 2 (by decide)
  simp only [pow_zero, mul_one, pow_one] at h0 h1
  -- The sums of two powers.
  have h12 := pow_add_pow p ha (by omega : a < 89)
  have h13 := pow_add_pow p (by omega : 0 < a + b) (by omega)
  have h14 := pow_add_pow p (by omega : 0 < a + b + c) habc
  have h23 := pow_add_pow (p + a) hb (by omega : b < 89)
  have h24 := pow_add_pow (p + a) (by omega : 0 < b + c) (by omega)
  have h34 := pow_add_pow (p + a + b) hc (by omega : c < 89)
  rw [← Nat.add_assoc] at h13 h24
  rw [← Nat.add_assoc, ← Nat.add_assoc] at h14
  -- The second, the third and the fourth term against the first one.
  obtain ⟨hr2, hr3, hr4⟩ := relations h0 h1 h2
  have hr2 := related_terms h13 h14 h23 h24 hr2
  have hr3 := related_terms h12 h14 h23 h34 hr3
  have hr4 := related_terms h12 h13 h24 h34 hr4
  rcases hr2 with ⟨hv₁, hv₂⟩ | ⟨hv₁, -, hr2⟩
  · exact ⟨hv₁, hv₂, (hr3.resolve_right fun hr => hr.1 hv₁).2,
      (hr4.resolve_right fun hr => hr.1 hv₁).2⟩
  · -- If one term is not zero, all the relations hold.
    obtain ⟨-, -, hr3⟩ := hr3.resolve_left fun hr => hv₁ hr.1
    obtain ⟨-, -, hr4⟩ := hr4.resolve_left fun hr => hv₁ hr.1
    have hrelated : related a b c = true := related_iff.2
      ⟨⟨modEq_of_shift p hr2 (by ring) (by ring), modEq_of_shift p hr3 (by ring) (by ring)⟩,
        modEq_of_shift p hr4 (by ring) (by ring)⟩
    cases (no_relations ha hb hc habc).symm.trans hrelated

/-! ## At most four terms -/

/-- Four exponents in order. -/
theorem exists_gaps {t : Finset ℕ} (h : t.card = 4) : ∃ p a b c, 0 < a ∧ 0 < b ∧ 0 < c ∧
    t = {p, p + a, p + a + b, p + a + b + c} := by
  let f := t.orderEmbOfFin h
  have h01 : f 0 < f 1 := f.strictMono (by decide)
  have h12 : f 1 < f 2 := f.strictMono (by decide)
  have h23 : f 2 < f 3 := f.strictMono (by decide)
  have huniv : (Finset.univ : Finset (Fin 4)) = {0, 1, 2, 3} := rfl
  refine ⟨f 0, f 1 - f 0, f 2 - f 1, f 3 - f 2, by omega, by omega, by omega, ?_⟩
  rw [Nat.add_sub_cancel' h01.le, Nat.add_sub_cancel' h12.le, Nat.add_sub_cancel' h23.le]
  rw [← Finset.image_orderEmbOfFin_univ t h, huniv, Finset.image_insert, Finset.image_insert,
    Finset.image_insert, Finset.image_singleton]

theorem sum_gaps {p a b c : ℕ} (ha : 0 < a) (hb : 0 < b) (hc : 0 < c) (g : ℕ → Gf1024) :
    ∑ k ∈ ({p, p + a, p + a + b, p + a + b + c} : Finset ℕ), g k =
      g p + g (p + a) + g (p + a + b) + g (p + a + b + c) := by
  rw [Finset.sum_insert, Finset.sum_insert, Finset.sum_insert, Finset.sum_singleton]
  · ring
  all_goals
    simp only [Finset.mem_insert, Finset.mem_singleton]
    omega

/-- A polynomial of a degree below 89 with the three roots is zero if it has at most
    four terms. -/
theorem eq_zero_of_roots {v : ℕ → Gf32} {s : Finset ℕ} (hs : s ⊆ Finset.range 89)
    (hcard : s.card ≤ 4) (h : ∀ i < 3, ∑ k ∈ s, of (v k) * root i ^ k = 0) :
    ∀ k ∈ s, v k = 0 := by
  -- There are four exponents, the coefficients of the others being zero.
  obtain ⟨t, hst, ht, hfour⟩ := Finset.exists_subsuperset_card_eq hs hcard (by simp)
  let w (k : ℕ) : Gf32 := if k ∈ s then v k else 0
  obtain ⟨p, a, b, c, ha, hb, hc, rfl⟩ := exists_gaps hfour
  have hlast : p + a + b + c < 89 := Finset.mem_range.1 (ht (by simp))
  have hterms : ∀ i < 3, of (w p) * root i ^ p + of (w (p + a)) * root i ^ (p + a) +
      of (w (p + a + b)) * root i ^ (p + a + b) +
      of (w (p + a + b + c)) * root i ^ (p + a + b + c) = 0 := by
    intro i hi
    rw [← sum_gaps ha hb hc fun k => of (w k) * root i ^ k, ← h i hi]
    refine (Finset.sum_subset_zero_on_sdiff hst (fun k hk => ?_) fun k hk => ?_).symm
    · rw [show w k = 0 from if_neg (Finset.mem_sdiff.1 hk).2, map_zero, zero_mul]
    · rw [show w k = v k from if_pos hk]
  obtain ⟨h1, h2, h3, h4⟩ := eq_zero_of_four p ha hb hc (by omega) hterms
  intro k hk
  have hmem := hst hk
  rw [← (show w k = v k from if_pos hk)]
  simp only [Finset.mem_insert, Finset.mem_singleton] at hmem
  rcases hmem with rfl | rfl | rfl | rfl
  · exact h1
  · exact h2
  · exact h3
  · exact h4

/-! ## Words -/

/-- The value at `x` of the polynomial with the coefficients of the word, the constant
    one first. -/
def eval (x : Gf1024) (word : List Gf32) : Gf1024 := word.foldr (fun a y => of a + x * y) 0

theorem eval_eq_sum (x : Gf1024) (word : List Gf32) :
    eval x word = ∑ k ∈ Finset.range word.length, of (word.getD k 0) * x ^ k := by
  induction word with
  | nil => rfl
  | cons a word ih =>
    have hcons : eval x (a :: word) = of a + x * eval x word := rfl
    rw [hcons, ih, List.length_cons, Finset.sum_range_succ', Finset.mul_sum, add_comm]
    simp only [List.getD_cons_succ, List.getD_cons_zero, pow_zero, mul_one]
    congr 1
    exact Finset.sum_congr rfl fun k _ => by ring

/-- Two words of at most 89 symbols that agree at the three roots are equal if they
    differ at four positions at most. -/
theorem eq_of_distance {word word' : List Gf32} (hlen : word.length = word'.length)
    (h89 : word.length ≤ 89) (hd : distance word word' ≤ 4)
    (h : ∀ i < 3, eval (root i) word = eval (root i) word') : word = word' := by
  let v (k : ℕ) : Gf32 := word.getD k 0 + word'.getD k 0
  let s := (Finset.range word.length).filter fun k => word.getD k 0 ≠ word'.getD k 0
  have hcard : s.card = distance word word' := card_filter_eq 0 hlen
  have hv : ∀ k, v k = 0 ↔ word.getD k 0 = word'.getD k 0 := fun k => Gf32.add_eq_zero_iff
  have hsum : ∀ i < 3, ∑ k ∈ s, of (v k) * root i ^ k = 0 := by
    intro i hi
    calc ∑ k ∈ s, of (v k) * root i ^ k
        = ∑ k ∈ Finset.range word.length, of (v k) * root i ^ k := by
          refine Finset.sum_subset (Finset.filter_subset _ _) fun k hk hks => ?_
          have heq : word.getD k 0 = word'.getD k 0 := by
            by_contra hne
            exact hks (Finset.mem_filter.2 ⟨hk, hne⟩)
          rw [(hv k).2 heq, map_zero, zero_mul]
      _ = eval (root i) word + eval (root i) word' := by
          rw [eval_eq_sum, eval_eq_sum, ← hlen, ← Finset.sum_add_distrib]
          exact Finset.sum_congr rfl fun k _ => by rw [map_add, add_mul]
      _ = 0 := by rw [h i hi, add_self]
  have hzero := eq_zero_of_roots ((Finset.filter_subset _ _).trans
    (Finset.range_subset_range.2 h89)) (hcard.trans_le hd) hsum
  have hempty : s = ∅ := Finset.eq_empty_of_forall_notMem fun k hk =>
    (Finset.mem_filter.1 hk).2 ((hv k).1 (hzero k hk))
  rw [← distance_eq_zero_iff hlen, ← hcard, hempty, Finset.card_empty]

end Gf1024
