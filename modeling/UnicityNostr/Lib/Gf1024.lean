import Mathlib.Algebra.QuadraticAlgebra.Defs
import Mathlib.Algebra.Ring.BooleanRing
import Mathlib.GroupTheory.OrderOfElement
import Mathlib.Tactic.LinearCombination

/-!
# Fields of characteristic two

The field of 32 elements, whose elements are polynomials over the bits modulo
`x ^ 5 + x ^ 3 + 1` (`Gf32`), and its quadratic extension by a root `e` of
`y ^ 2 = 9 y + 23` (`Gf1024`), where a number stands for the element with its
binary digits. The operations are executable.

The 31st power maps the units of the small field to one, and `e` to an element `ω`
of order 33. So it tells the units apart up to factors of the small field.

* `ω_pow_eq_iff`: powers of `ω` are equal modulo 33;
* `pow_add_pow`: a sum of two powers of `e` up to such a factor, for exponents that
  are less than 89 apart.
-/

/-- The field of 32 elements: the coefficients of `1`, `x`, ..., `x ^ 4`. -/
@[ext] structure Gf32 where
  c0 : Bool
  c1 : Bool
  c2 : Bool
  c3 : Bool
  c4 : Bool
  deriving DecidableEq

namespace Gf32

/-- The element with the low binary digits of a number. -/
def ofNat (n : ℕ) : Gf32 :=
  ⟨n.testBit 0, n.testBit 1, n.testBit 2, n.testBit 3, n.testBit 4⟩

instance : Zero Gf32 := ⟨false, false, false, false, false⟩

instance : One Gf32 := ⟨true, false, false, false, false⟩

instance : Add Gf32 where
  add a b := ⟨a.c0 ^^ b.c0, a.c1 ^^ b.c1, a.c2 ^^ b.c2, a.c3 ^^ b.c3, a.c4 ^^ b.c4⟩

instance : Neg Gf32 := ⟨id⟩

/-- The product with a bit. -/
def scale (b : Bool) (a : Gf32) : Gf32 := ⟨b && a.c0, b && a.c1, b && a.c2, b && a.c3, b && a.c4⟩

/-- The product with `x`, of which `x ^ 5 = x ^ 3 + 1`. -/
def timesX (a : Gf32) : Gf32 := ⟨a.c4, a.c0, a.c1, a.c2 ^^ a.c4, a.c3⟩

instance : Mul Gf32 where
  mul a b := scale a.c0 b + timesX (scale a.c1 b + timesX (scale a.c2 b +
    timesX (scale a.c3 b + timesX (scale a.c4 b))))

/-! The operations on the coefficients are those of the bits as a ring. -/

theorem zero_def : (0 : Gf32) = ⟨0, 0, 0, 0, 0⟩ := rfl

theorem one_def : (1 : Gf32) = ⟨1, 0, 0, 0, 0⟩ := rfl

theorem add_def (a b : Gf32) :
    a + b = ⟨a.c0 + b.c0, a.c1 + b.c1, a.c2 + b.c2, a.c3 + b.c3, a.c4 + b.c4⟩ := rfl

theorem scale_def (b : Bool) (a : Gf32) :
    scale b a = ⟨b * a.c0, b * a.c1, b * a.c2, b * a.c3, b * a.c4⟩ := rfl

theorem timesX_def (a : Gf32) : timesX a = ⟨a.c4, a.c0, a.c1, a.c2 + a.c4, a.c3⟩ := rfl

theorem mul_def (a b : Gf32) : a * b = scale a.c0 b + timesX (scale a.c1 b +
    timesX (scale a.c2 b + timesX (scale a.c3 b + timesX (scale a.c4 b)))) := rfl

instance : CommRing Gf32 where
  add_assoc a b c := by ext <;> exact add_assoc _ _ _
  zero_add a := by ext <;> exact zero_add _
  add_zero a := by ext <;> exact add_zero _
  add_comm a b := by ext <;> exact add_comm _ _
  neg_add_cancel a := by ext <;> exact neg_add_cancel _
  nsmul := nsmulRec
  zsmul := zsmulRec
  mul_assoc a b c := by ext <;> simp only [mul_def, add_def, timesX_def, scale_def] <;> ring
  mul_comm a b := by ext <;> simp only [mul_def, add_def, timesX_def, scale_def] <;> ring
  one_mul a := by ext <;> simp only [mul_def, add_def, timesX_def, scale_def, one_def] <;> ring
  mul_one a := by ext <;> simp only [mul_def, add_def, timesX_def, scale_def, one_def] <;> ring
  zero_mul a := by ext <;> simp only [mul_def, add_def, timesX_def, scale_def, zero_def] <;> ring
  mul_zero a := by ext <;> simp only [mul_def, add_def, timesX_def, scale_def, zero_def] <;> ring
  left_distrib a b c := by
    ext <;> simp only [mul_def, add_def, timesX_def, scale_def] <;> ring
  right_distrib a b c := by
    ext <;> simp only [mul_def, add_def, timesX_def, scale_def] <;> ring

instance : Nontrivial Gf32 := ⟨0, 1, by decide⟩

theorem add_self (a : Gf32) : a + a = 0 := neg_add_cancel a

theorem add_eq_zero_iff {a b : Gf32} : a + b = 0 ↔ a = b := add_eq_zero_iff_eq_neg

/-- The units have an order that divides 31. -/
theorem pow_eq_one {a : Gf32} (h : a ≠ 0) : a ^ 31 = 1 := by
  have hunits : ∀ c0 c1 c2 c3 c4 : Bool, (⟨c0, c1, c2, c3, c4⟩ : Gf32) ≠ 0 →
      (⟨c0, c1, c2, c3, c4⟩ : Gf32) ^ 31 = 1 := by decide +kernel
  exact hunits _ _ _ _ _ h

theorem ofNat_mod (n : ℕ) : ofNat (n % 32) = ofNat n := by
  have hbit : ∀ i < 5, (n % 2 ^ 5).testBit i = n.testBit i := fun i hi => by
    rw [Nat.testBit_mod_two_pow, decide_eq_true hi, Bool.true_and]
  ext <;> exact hbit _ (by decide)

/-- The low five digits count. -/
theorem ofNat_eq_iff {m n : ℕ} : ofNat m = ofNat n ↔ m % 32 = n % 32 := by
  have hinj : ∀ m < 32, ∀ n < 32, ofNat m = ofNat n → m = n := by decide +kernel
  rw [← ofNat_mod m, ← ofNat_mod n]
  exact ⟨hinj _ (Nat.mod_lt _ (by decide)) _ (Nat.mod_lt _ (by decide)), congrArg ofNat⟩

/-- Exclusive or adds. -/
theorem ofNat_xor (m n : ℕ) : ofNat (m ^^^ n) = ofNat m + ofNat n := by
  ext <;> exact Nat.testBit_xor _ _ _

end Gf32

/-- The field of 1024 elements. -/
abbrev Gf1024 := QuadraticAlgebra Gf32 (.ofNat 23) (.ofNat 9)

namespace Gf1024

open Gf32

/-- The elements of the small field. -/
@[irreducible] def of : Gf32 →+* Gf1024 := algebraMap Gf32 Gf1024

/-- The root that is adjoined. -/
@[irreducible] def e : Gf1024 := ⟨0, 1⟩

theorem add_self (a : Gf1024) : a + a = 0 :=
  QuadraticAlgebra.ext (Gf32.add_self _) (Gf32.add_self _)

theorem two_eq_zero : (2 : Gf1024) = 0 := by rw [← one_add_one_eq_two, add_self]

theorem of_pow_eq_one {a : Gf32} (h : a ≠ 0) : of a ^ 31 = 1 := by
  rw [← map_pow, pow_eq_one h, map_one]

theorem of_zero_pow : of 0 ^ 31 = 0 := by
  rw [map_zero]
  exact zero_pow (by decide)

/-! ## Up to factors of the small field -/

/-- An element of the order 33. -/
def ω : Gf1024 := e ^ 31

theorem e_pow_31 : e ^ 31 = ω := rfl

attribute [irreducible] ω

theorem ω_pow_33 : ω ^ 33 = 1 := by decide +kernel

/-- The element `ω` as a unit. -/
def unit : Gf1024ˣ where
  val := ω
  inv := ω ^ 32
  val_inv := by rw [← pow_succ', ω_pow_33]
  inv_val := by rw [← pow_succ, ω_pow_33]

theorem orderOf_unit : orderOf unit = 33 := by
  refine orderOf_eq_of_pow_and_pow_div_prime (by decide) (Units.ext ω_pow_33) fun p hp hdvd => ?_
  have hprimes : p = 3 ∨ p = 11 := by
    rw [← Nat.prime_dvd_prime_iff_eq hp (by decide), ← Nat.prime_dvd_prime_iff_eq hp (by decide),
      ← hp.dvd_mul]
    exact hdvd
  rw [← Units.val_inj.ne]
  rcases hprimes with rfl | rfl
  · have h : ω ^ 11 ≠ 1 := by decide +kernel
    exact h
  · have h : ω ^ 3 ≠ 1 := by decide +kernel
    exact h

/-- Powers of `ω` are told apart modulo 33. -/
theorem ω_pow_eq_iff {i j : ℕ} : ω ^ i = ω ^ j ↔ i ≡ j [MOD 33] := by
  rw [← orderOf_unit, ← pow_eq_pow_iff_modEq, ← Units.val_inj]
  rfl

theorem ω_pow_ne_zero (i : ℕ) : ω ^ i ≠ 0 := (unit ^ i).ne_zero

/-! ## Sums of powers -/

/-- For the exponents `d` below 89, the exponent of `e` in `1 + e ^ d` up to a factor of
    the small field, with six bits each. -/
def logs : ℕ :=
  0xe6045947850455476105856571dd7d948010925f44944151079944e5c56095 <<< 284 |||
    0x9238708a4d35084dc7dd0158154487474d525415a10e7db6c451b28d1de09e5cf3d8300

/-- For the exponents `d` below 89, that factor, with five bits each. -/
def factors : ℕ :=
  0x170e5aa2d20c2cb8785ed4d795023a489fd8cd136ad6616ec07e7b46b <<< 220 |||
    0xed3f5d3c3f7b6c7356541a9afde4d6bcf8cb1a0bea93576607eb340

/-- The exponent of `e` in `1 + e ^ d`, in terms of what the kernel evaluates. -/
def log (d : ℕ) : ℕ := Nat.mod (Nat.shiftRight logs (Nat.mul 6 d)) 64

def factor (d : ℕ) : Gf32 := .ofNat (Nat.shiftRight factors (Nat.mul 5 d))

theorem one_add_pow {d : ℕ} (h0 : 0 < d) (h : d < 89) :
    1 + e ^ d = of (factor d) * e ^ log d ∧ factor d ≠ 0 := by
  have htable : ∀ d < 89, 0 < d → 1 + e ^ d = of (factor d) * e ^ log d ∧ factor d ≠ 0 := by
    decide +kernel
  exact htable d h h0

/-- A sum of two powers of `e`, up to a factor of the small field. -/
theorem pow_add_pow (p : ℕ) {d : ℕ} (h0 : 0 < d) (h : d < 89) :
    (e ^ p + e ^ (p + d)) ^ 31 = ω ^ (p + log d) := by
  obtain ⟨hsum, hne⟩ := one_add_pow h0 h
  have hsplit : e ^ p + e ^ (p + d) = e ^ p * (1 + e ^ d) := by ring
  calc (e ^ p + e ^ (p + d)) ^ 31
      = (e ^ p * (of (factor d) * e ^ log d)) ^ 31 := by rw [hsplit, hsum]
    _ = of (factor d) ^ 31 * (e ^ 31) ^ (p + log d) := by ring
    _ = ω ^ (p + log d) := by rw [of_pow_eq_one hne, one_mul, e_pow_31]

end Gf1024
