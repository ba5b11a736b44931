import Mathlib.Data.List.Basic

/-!
# Hexadecimal text

Byte strings as text, two hexadecimal digits for each byte, the high one first:
lower-case digits are written (`Hex.encode`), digits of both cases are read
(`Hex.decode`).

* `decode_encode`: what is written reads back;
* `decode_eq_some_iff`: what is read is what is written, up to the case of the
  digits.
-/

namespace Hex

/-- The lower-case digit of `n < 16`. -/
def digit (n : Nat) : Char := Nat.digitChar n

/-- The value of a digit of either case. -/
def value (c : Char) : Option Nat :=
  if c.isDigit then some (c.toNat - '0'.toNat)
  else if 'a' ≤ c ∧ c ≤ 'f' then some (c.toNat - 'a'.toNat + 10)
  else if 'A' ≤ c ∧ c ≤ 'F' then some (c.toNat - 'A'.toNat + 10)
  else none

/-- The two digits of a byte. -/
def pair (b : UInt8) : List Char := [digit (b.toNat / 16), digit (b.toNat % 16)]

/-- The digits of a byte string. -/
def encode (bs : List UInt8) : String := String.ofList (bs.flatMap pair)

/-- The bytes of a list of digits. -/
def decodeChars : List Char → Option (List UInt8)
  | [] => some []
  | [_] => none
  | hi :: lo :: cs => do
    let hi ← value hi
    let lo ← value lo
    let bs ← decodeChars cs
    some (UInt8.ofNat (hi * 16 + lo) :: bs)

/-- The byte string of a hexadecimal text. -/
def decode (s : String) : Option (List UInt8) := decodeChars s.toList

theorem value_digit : ∀ n < 16, value (digit n) = some n := by decide

theorem decodeChars_pair (b : UInt8) (cs : List Char) :
    decodeChars (pair b ++ cs) = (decodeChars cs).map (b :: ·) := by
  have hb := b.toNat_lt
  have hhi := value_digit (b.toNat / 16) (by omega)
  have hlo := value_digit (b.toNat % 16) (by omega)
  have hsplit : UInt8.ofNat (b.toNat / 16 * 16 + b.toNat % 16) = b := by
    rw [Nat.div_add_mod', UInt8.ofNat_toNat]
  simp only [pair, List.cons_append, List.nil_append, decodeChars, hhi, hlo, hsplit,
    Option.bind_eq_bind, Option.bind_some]
  cases decodeChars cs <;> rfl

/-- What is written reads back. -/
theorem decode_encode (bs : List UInt8) : decode (encode bs) = some bs := by
  rw [decode, encode, String.toList_ofList]
  induction bs with
  | nil => rfl
  | cons b bs ih => rw [List.flatMap_cons, decodeChars_pair, ih]; rfl

/-- Every byte is written as two digits. -/
theorem length_encode (bs : List UInt8) : (encode bs).toList.length = 2 * bs.length := by
  rw [encode, String.toList_ofList]
  induction bs with
  | nil => rfl
  | cons b bs ih =>
    rw [List.flatMap_cons, List.length_append, ih, pair, List.length_cons, List.length_cons]
    simp only [List.length_cons, List.length_nil]
    omega

theorem isAlphanum_digit : ∀ n < 16, (digit n).isAlphanum = true := by decide

/-- Only letters and decimal digits are written. -/
theorem isAlphanum_of_mem_encode {c : Char} {bs : List UInt8} (h : c ∈ (encode bs).toList) :
    c.isAlphanum = true := by
  rw [encode, String.toList_ofList, List.mem_flatMap] at h
  obtain ⟨b, -, hc⟩ := h
  have hb := b.toNat_lt
  simp only [pair, List.mem_cons, List.not_mem_nil, or_false] at hc
  rcases hc with rfl | rfl
  · exact isAlphanum_digit _ (by omega)
  · exact isAlphanum_digit _ (by omega)

/-! ## Digits of both cases -/

/-- The digits of either case, and their values. -/
theorem value_ascii : ∀ k < 128, (∀ n ∈ value (Char.ofNat k), n < 16) ∧
    ∀ n < 16, value (Char.ofNat k) = some n ↔ digit n = (Char.ofNat k).toLower := by
  decide +kernel

/-- A character outside ASCII is no digit, and has no lower case in ASCII. -/
theorem value_of_not_ascii {c : Char} (h : 128 ≤ c.toNat) : value c = none ∧ c.toLower = c := by
  have hle : ∀ d : Char, d.toNat < 128 → ¬c.val ≤ d.val := by
    intro d hd hc
    have : c.toNat ≤ d.toNat := UInt32.le_iff_toNat_le.1 hc
    omega
  constructor
  · have hdigit : c.isDigit = false := by
      simp only [Char.isDigit, hle '9' (by decide), decide_false, Bool.and_false]
    have hf : ¬c ≤ 'f' := hle 'f' (by decide)
    have hF : ¬c ≤ 'F' := hle 'F' (by decide)
    simp [value, hdigit, hf, hF]
  · exact dif_neg fun hc => hle 'Z' (by decide) hc.2

theorem value_eq_some_iff {c : Char} {n : Nat} :
    value c = some n ↔ n < 16 ∧ digit n = c.toLower := by
  rcases Nat.lt_or_ge c.toNat 128 with h | h
  · obtain ⟨hlt, hiff⟩ := value_ascii c.toNat h
    rw [Char.ofNat_toNat] at hlt hiff
    constructor
    · intro hc
      have hn := hlt n hc
      exact ⟨hn, (hiff n hn).1 hc⟩
    · rintro ⟨hn, hd⟩
      exact (hiff n hn).2 hd
  · obtain ⟨hnone, hlower⟩ := value_of_not_ascii h
    have hdigit : ∀ n < 16, (digit n).toNat < 128 := by decide
    rw [hnone, hlower]
    constructor
    · rintro ⟨⟩
    · rintro ⟨hn, rfl⟩
      exact absurd (hdigit n hn) (Nat.not_lt.2 h)

theorem decodeChars_eq_some_iff {cs : List Char} {bs : List UInt8} :
    decodeChars cs = some bs ↔ bs.flatMap pair = cs.map Char.toLower := by
  induction cs using decodeChars.induct generalizing bs with
  | case1 => cases bs <;> simp [decodeChars, pair]
  | case2 c => rcases bs with _ | ⟨b, bs⟩ <;> simp [decodeChars, pair]
  | case3 hi lo cs ih =>
    rw [decodeChars]
    simp only [Option.bind_eq_bind, Option.bind_eq_some_iff, value_eq_some_iff, ih,
      Option.some.injEq, List.map_cons]
    constructor
    · rintro ⟨h, ⟨hh, hhi⟩, l, ⟨hl, hlo⟩, bs, hbs, rfl⟩
      have hb : (UInt8.ofNat (h * 16 + l)).toNat = h * 16 + l :=
        UInt8.toNat_ofNat_of_lt' (by simp [UInt8.size]; omega)
      rw [List.flatMap_cons, pair, hb, hbs, ← hhi, ← hlo]
      have h1 : (h * 16 + l) / 16 = h := by omega
      have h2 : (h * 16 + l) % 16 = l := by omega
      rw [h1, h2]
      rfl
    · intro h
      rcases bs with _ | ⟨b, bs⟩
      · cases h
      · rw [List.flatMap_cons, pair] at h
        simp only [List.cons_append, List.nil_append, List.cons.injEq] at h
        have hb := b.toNat_lt
        refine ⟨_, ⟨by omega, h.1⟩, _, ⟨by omega, h.2.1⟩, bs, h.2.2, ?_⟩
        rw [Nat.div_add_mod', UInt8.ofNat_toNat]

/-- What reads as a byte string is its text, up to the case of the digits. -/
theorem decode_eq_some_iff {s : String} {bs : List UInt8} :
    decode s = some bs ↔ encode bs = s.map Char.toLower := by
  rw [decode, decodeChars_eq_some_iff, encode, ← String.toList_inj, String.toList_ofList,
    String.toList_map]

end Hex
