import Mathlib.Tactic.IntervalCases
import UnicityNostr.Crypto.Bech32.RoundTrip
import UnicityNostr.Lib.Gf1024

/-!
# The texts of BIP-173

BIP-173 has texts of at most 90 characters without letters of both cases, in which
the prefix consists of characters from 33 to 126 (`Bip173`). Its checksum is that of a
code over the field of 32 elements, given by the generator of the code. What is decoded
is written in lower case first, and the characters of its prefix are not looked at.

* `verifyChecksum_iff_checks`: the register holds the remainder of a polynomial;
* `decode_ok_iff`: the texts that are accepted;
* `decode_bip173_iff`: a text is accepted as BIP-173 has it if and only if it does not
  fail for the case of its letters, or for the characters of its prefix, alone.
-/

namespace UnicityNostr.Bech32

open Unicode

/-! ## The texts -/

namespace Bip173

/-- The symbols, by their values. -/
def alphabet : List Char :=
  ['q', 'p', 'z', 'r', 'y', '9', 'x', '8'] ++ ['g', 'f', '2', 't', 'v', 'd', 'w', '0'] ++
    ['s', '3', 'j', 'n', '5', '4', 'k', 'h'] ++ ['c', 'e', '6', 'm', 'u', 'a', '7', 'l']

def symbol (v : UInt8) : Char := alphabet.getD v.toNat '1'

/-- The coefficients of the generator, `x ^ 6 + 29 x ^ 5 + 22 x ^ 4 + 20 x ^ 3 + 21 x ^ 2 +
    29 x + 18`, below the first. -/
def generator : List Gf32 := [29, 22, 20, 21, 29, 18].map Gf32.ofNat

/-- The remainder of a polynomial by the generator, after one more coefficient. -/
def step : List Gf32 → Gf32 → List Gf32
  | [], _ => []
  | a :: low, v => List.zipWith (fun g b => b + g * a) generator (low ++ [v])

/-- The polynomial one. -/
def one : List Gf32 := [0, 0, 0, 0, 0, 1]

/-- The values of a prefix: the high bits of its bytes, and the low ones. -/
def expand (bytes : Bytes) : List Nat :=
  bytes.map (fun c => c.toNat / 32) ++ 0 :: bytes.map fun c => c.toNat % 32

/-- The polynomial with these coefficients, after a first one, leaves the remainder
    one. -/
def Checks (values : List Nat) : Prop := (values.map Gf32.ofNat).foldl step one = one

end Bip173

/-- A text of a prefix, the last separator and symbols, in any letter case: the values
    of the symbols are data and a checksum of six, and the data are the groups of five
    bits of a byte string, the last one filled up with zeros. -/
structure Layout (s : String) (hrp chars : List Char) (values : Bytes) : Prop where
  split : s.toList = hrp ++ '1' :: chars
  last : '1' ∉ chars
  hrp_ne_nil : hrp ≠ []
  symbols : Fits 5 values ∧ chars.map Char.toLower = values.map Bip173.symbol
  six_le : 6 ≤ values.length
  checksum : Bip173.Checks
    (Bip173.expand (utf8 (String.ofList (hrp.map Char.toLower))) ++ values.map UInt8.toNat)
  regroups : ∃ data, ∃ pad < 5, Regroups 8 5 pad data (values.take (values.length - 6))

/-- Letters of one case only. -/
def OneCase (s : String) : Prop :=
  (∀ c ∈ s.toList, c.isUpper = false) ∨ ∀ c ∈ s.toList, c.isLower = false

/-- The characters a prefix may have. -/
def InRange (hrp : List Char) : Prop := ∀ c ∈ hrp, 33 ≤ c.toNat ∧ c.toNat ≤ 126

/-- The texts of BIP-173 whose data are a byte string. -/
def Bip173 (s : String) : Prop :=
  s.toList.length ≤ 90 ∧ OneCase s ∧ ∃ hrp chars values, Layout s hrp chars values ∧ InRange hrp

/-! ## The register as a remainder -/

/-- The symbols in the register, the highest one first. -/
def digits (c : UInt32) : List Gf32 := [5, 4, 3, 2, 1, 0].map fun k => .ofNat (c.toNat >>> (5 * k))

theorem digits_xor (c c' : UInt32) :
    digits (c ^^^ c') = List.zipWith (· + ·) (digits c) (digits c') := by
  simp only [digits, UInt32.toNat_xor, Nat.shiftRight_xor_distrib, Gf32.ofNat_xor]
  rfl

/-- A shifted register holds the symbols one position on. -/
theorem digit_shiftLeft (c : UInt32) {k : Nat} (hk : k < 5) :
    Gf32.ofNat ((c.toNat % 2 ^ 25 * 32) >>> (5 * (k + 1))) = .ofNat (c.toNat >>> (5 * k)) := by
  rw [Gf32.ofNat_eq_iff]
  simp only [Nat.shiftRight_eq_div_pow]
  interval_cases k <;> omega

theorem digit_zero_shiftLeft (n : Nat) : Gf32.ofNat (n * 32) = 0 :=
  (Gf32.ofNat_eq_iff (n := 0)).2 (Nat.mul_mod_left _ 32)

/-- The symbols of a register below `2 ^ 30` determine it. -/
theorem digits_injective {c c' : UInt32} (hc : c.toNat < 2 ^ 30) (hc' : c'.toNat < 2 ^ 30)
    (h : digits c = digits c') : c = c' := by
  simp only [digits, List.map_cons, List.map_nil, List.cons.injEq, Gf32.ofNat_eq_iff,
    Nat.shiftRight_eq_div_pow] at h
  rw [← UInt32.toNat_inj]
  omega

/-- The symbol that is shifted out chooses a multiple of the generator. -/
theorem digits_taps {t : Nat} (ht : t < 32) : digits (taps (UInt32.ofNat t) generator.zipIdx) =
    Bip173.generator.map fun g => g * .ofNat t := by
  have hall : ∀ t < 32, digits (taps (UInt32.ofNat t) generator.zipIdx) =
      Bip173.generator.map fun g => g * .ofNat t := by
    decide +kernel
  exact hall t ht

/-- The symbol that is shifted out of a register below `2 ^ 30`. -/
theorem shiftRight_eq_ofNat {c : UInt32} (hc : c.toNat < 2 ^ 30) :
    c.toNat >>> (5 * 5) < 32 ∧ c >>> 25 = UInt32.ofNat (c.toNat >>> (5 * 5)) := by
  have hlt : c.toNat >>> (5 * 5) < 32 := by
    rw [Nat.shiftRight_eq_div_pow]
    exact Nat.div_lt_of_lt_mul hc
  refine ⟨hlt, ?_⟩
  rw [← UInt32.toNat_inj, UInt32.toNat_shiftRight,
    UInt32.toNat_ofNat_of_lt' (hlt.trans (by decide))]
  rfl

/-- A symbol has no other digits. -/
theorem digit_symbol {v : UInt8} (hv : v.toNat < 2 ^ 5) (k : Nat) :
    Gf32.ofNat (v.toNat >>> (5 * (k + 1))) = 0 := by
  have hle : 2 ^ 5 ≤ 2 ^ (5 * (k + 1)) := Nat.pow_le_pow_right (by decide) (by omega)
  rw [Nat.shiftRight_eq_div_pow, Nat.div_eq_of_lt (hv.trans_le hle)]
  rfl

theorem digits_symbol {v : UInt8} (hv : v.toNat < 2 ^ 5) :
    digits v.toUInt32 = [0, 0, 0, 0, 0, .ofNat v.toNat] := by
  simp only [digits, List.map_cons, List.map_nil, UInt8.toNat_toUInt32, digit_symbol hv,
    Nat.mul_zero, Nat.shiftRight_zero]

/-- A step of the register is a step of the remainder. -/
theorem digits_polymodStep {c : UInt32} {v : UInt8} (hc : c.toNat < 2 ^ 30)
    (hv : v.toNat < 2 ^ 5) :
    digits (polymodStep c v) = Bip173.step (digits c) (.ofNat v.toNat) := by
  obtain ⟨hlt, htop⟩ := shiftRight_eq_ofNat hc
  have hshift : digits ((c &&& 0x1ffffff) <<< 5) = (digits c).tail ++ [0] := by
    simp (disch := decide) only [digits, List.map_cons, List.map_nil, List.tail_cons,
      toNat_shiftLeft, digit_shiftLeft, Nat.mul_zero, Nat.shiftRight_zero, digit_zero_shiftLeft,
      List.cons_append, List.nil_append]
  rw [polymodStep_eq, Register.take, shift, digits_xor, digits_xor, hshift, htop, digits_taps hlt,
    digits_symbol hv]
  simp [digits, Bip173.step, Bip173.generator, add_comm]

/-- The register holds the remainder of the values. -/
theorem digits_foldl {values : Bytes} (hfits : Fits 5 values) {c : UInt32}
    (hc : c.toNat < 2 ^ 30) : digits (values.foldl polymodStep c) =
      (values.map (Gf32.ofNat ∘ UInt8.toNat)).foldl Bip173.step (digits c) := by
  induction values generalizing c with
  | nil => rfl
  | cons v values ih =>
    obtain ⟨hv, hvalues⟩ := List.forall_mem_cons.1 hfits
    rw [List.foldl_cons, ih hvalues (toNat_polymodStep_lt c v), digits_polymodStep hc hv]
    rfl

/-- The values of a prefix. -/
theorem hrpExpand_toNat (hrp : String) :
    Fits 5 (hrpExpand hrp) ∧ (hrpExpand hrp).map UInt8.toNat = Bip173.expand (utf8 hrp) := by
  have hhigh : ∀ c : UInt8, (c >>> 5).toNat = c.toNat / 32 := by
    intro c
    rw [UInt8.toNat_shiftRight, Nat.shiftRight_eq_div_pow]
    rfl
  have hlow : ∀ c : UInt8, (c &&& 31).toNat = c.toNat % 32 := by
    intro c
    rw [UInt8.toNat_and]
    exact Nat.and_two_pow_sub_one_eq_mod c.toNat 5
  constructor
  · refine fits_append.2 ⟨fun v hv => ?_, List.forall_mem_cons.2 ⟨by decide, fun v hv => ?_⟩⟩
    · obtain ⟨c, -, rfl⟩ := List.mem_map.1 hv
      exact (hhigh c).trans_lt (Nat.div_lt_of_lt_mul (c.toNat_lt.trans (by decide)))
    · obtain ⟨c, -, rfl⟩ := List.mem_map.1 hv
      exact (hlow c).trans_lt (Nat.mod_lt _ (by decide))
  · simp only [hrpExpand, Bip173.expand, List.map_append, List.map_cons, List.map_map,
      Function.comp_def, hhigh, hlow]
    rfl

/-- The register accepts what leaves the remainder one. -/
theorem verifyChecksum_iff_checks {hrp : String} {values : Bytes} (hfits : Fits 5 values) :
    verifyChecksum hrp values = true ↔
      Bip173.Checks (Bip173.expand (utf8 hrp) ++ values.map UInt8.toNat) := by
  obtain ⟨hhrp, hexpand⟩ := hrpExpand_toNat hrp
  have hone : digits 1 = Bip173.one := by decide
  have hdigits := digits_foldl (fits_append.2 ⟨hhrp, hfits⟩) (c := 1) (by decide)
  rw [← polymod, hone] at hdigits
  rw [verifyChecksum, beq_iff_eq, Bip173.Checks, ← hexpand, ← List.map_append, List.map_map,
    ← hdigits]
  constructor
  · intro h
    rw [h, hone]
  · intro h
    exact digits_injective (toNat_polymod_lt _) (by decide) (h.trans hone.symm)

/-- The symbols are those of the charset. -/
theorem symbol_eq {v : UInt8} (hv : v.toNat < 2 ^ 5) : Bip173.symbol v = symbol v :=
  forall_fits (P := fun v => Bip173.symbol v = symbol v) (by decide) hv

theorem map_symbol {values : Bytes} (hfits : Fits 5 values) :
    values.map Bip173.symbol = values.map symbol :=
  List.map_congr_left fun v hv => symbol_eq (hfits v hv)

/-! ## Letter case -/

theorem length_utf8_toAsciiLowercase (s : String) :
    (utf8 (toAsciiLowercase s)).length = (utf8 s).length := by
  have hsize : Char.utf8Size ∘ Char.toLower = Char.utf8Size := funext utf8Size_toLower
  rw [length_utf8_eq_sum, length_utf8_eq_sum, toAsciiLowercase, String.toList_map, List.map_map,
    hsize]

theorem toLower_eq_separator {c : Char} : c.toLower = '1' ↔ c = '1' :=
  toLower_eq_iff (by decide)

theorem separator_mem_map {chars : List Char} : '1' ∈ chars.map Char.toLower ↔ '1' ∈ chars := by
  simp [toLower_eq_separator]

/-- The separators of a text in lower case are those of the text. -/
theorem map_toLower_eq_iff {l before after : List Char} :
    l.map Char.toLower = before ++ '1' :: after ↔ ∃ before' after', l = before' ++ '1' :: after' ∧
      before = before'.map Char.toLower ∧ after = after'.map Char.toLower := by
  constructor
  · intro h
    obtain ⟨before', rest, rfl, rfl, hrest⟩ := List.map_eq_append_iff.1 h
    obtain ⟨c, after', rfl, hc, rfl⟩ := List.map_eq_cons_iff.1 hrest
    rw [toLower_eq_separator.1 hc]
    exact ⟨before', after', rfl, rfl, rfl⟩
  · rintro ⟨before', after', rfl, rfl, rfl⟩
    rw [List.map_append, List.map_cons, toLower_eq_separator.2 rfl]

/-! ## What is accepted -/

variable {s : String} {hrp chars : List Char} {values : Bytes}

theorem toAsciiLowercase_ofList (l : List Char) :
    toAsciiLowercase (String.ofList l) = String.ofList (l.map Char.toLower) := by
  rw [← String.toList_inj, toAsciiLowercase, String.toList_map, String.toList_ofList,
    String.toList_ofList]

theorem Layout.verifies (h : Layout s hrp chars values) :
    verifyChecksum (toAsciiLowercase (String.ofList hrp)) values = true := by
  rw [verifyChecksum_iff_checks h.symbols.1, toAsciiLowercase_ofList]
  exact h.checksum

/-- The text in lower case. -/
theorem Layout.toAsciiLowercase_eq (h : Layout s hrp chars values) : toAsciiLowercase s =
    toAsciiLowercase (String.ofList hrp) ++ "1" ++ text values := by
  rw [← String.toList_inj, toAsciiLowercase, String.toList_map, h.split, toAsciiLowercase_ofList,
    text, ← map_symbol h.symbols.1, ← h.symbols.2]
  simp [toLower_eq_separator.2]

/-- The length of a text, in bytes. -/
theorem Layout.length_eq (h : Layout s hrp chars values) :
    (utf8 s).length = (utf8 (String.ofList hrp)).length + 1 + values.length := by
  rw [← length_utf8_toAsciiLowercase, h.toAsciiLowercase_eq, length_utf8 _ h.symbols.1,
    length_utf8_toAsciiLowercase]

theorem length_utf8_pos (hhrp : hrp ≠ []) : 0 < (utf8 (String.ofList hrp)).length := by
  rw [List.length_pos_iff]
  intro hnil
  have hempty : String.ofList hrp = "" := utf8_injective hnil
  exact hhrp (String.ofList_eq_empty_iff.1 hempty)

/-- A text of the layout, of at most 90 bytes, is accepted. -/
theorem Layout.decode_ok (h : Layout s hrp chars values) (hlen : (utf8 s).length ≤ 90) :
    ∃ p, decode s = .ok p := by
  obtain ⟨data, pad, hpad, hregroups⟩ := h.regroups
  have hpos := length_utf8_pos h.hrp_ne_nil
  have hsix := h.six_le
  have hbytes := h.length_eq
  have hsplit : splitLast '1' (toAsciiLowercase s).toList =
      some ((toAsciiLowercase (String.ofList hrp)).toList, chars.map Char.toLower) := by
    rw [toAsciiLowercase_ofList, String.toList_ofList, splitLast_iff]
    refine ⟨?_, mt separator_mem_map.1 h.last⟩
    rw [toAsciiLowercase, String.toList_map, h.split]
    exact map_toLower_eq_iff.2 ⟨hrp, chars, rfl, rfl, rfl⟩
  refine ⟨(toAsciiLowercase (String.ofList hrp), data), decode_eq_ok.2
    ⟨chars.map Char.toLower, values, hsplit, ?_, mapM_utf8_iff.2 ⟨h.symbols.1, ?_⟩,
      h.verifies, ?_⟩⟩
  · rw [length_utf8_toAsciiLowercase, length_utf8_toAsciiLowercase]
    omega
  · rw [h.symbols.2, text, map_symbol h.symbols.1]
  · rw [convertBits_strict_iff (by decide) (by decide) (by decide)
      fun v hv => h.symbols.1 v (List.mem_of_mem_take hv)]
    exact ⟨fits_bytes data, pad, hpad, hregroups⟩

/-- The texts that are accepted. -/
theorem decode_ok_iff : (∃ p, decode s = .ok p) ↔
    (utf8 s).length ≤ 90 ∧ ∃ hrp chars values, Layout s hrp chars values := by
  constructor
  · rintro ⟨⟨hrp, data⟩, h⟩
    obtain ⟨chars, values, hsplit, hlen, hvalues, hsum, hconvert⟩ := decode_eq_ok.1 h
    obtain ⟨hfits, htext⟩ := mapM_utf8_iff.1 hvalues
    have hbytes := length_utf8 hrp hfits
    rw [eq_of_splitLast hsplit htext] at hlen
    rw [convertBits_strict_iff (by decide) (by decide) (by decide)
      fun v hv => hfits v (List.mem_of_mem_take hv)] at hconvert
    have hs : (utf8 s).length = (utf8 hrp).length + 1 + values.length := by
      rw [← hbytes, ← eq_of_splitLast hsplit htext, length_utf8_toAsciiLowercase]
    obtain ⟨hlower, hlast⟩ := splitLast_iff.1 hsplit
    rw [toAsciiLowercase, String.toList_map] at hlower
    obtain ⟨hrp', chars', hl, hhrp, rfl⟩ := map_toLower_eq_iff.1 hlower
    refine ⟨by omega, hrp', chars', values, hl, mt separator_mem_map.2 hlast, ?_, ⟨hfits, ?_⟩,
      by omega, ?_, data, hconvert.2⟩
    · rintro rfl
      rw [String.toList_eq_nil_iff.1 hhrp] at hlen
      exact hlen (.inl (by decide))
    · rw [← String.ofList_inj, htext, text, map_symbol hfits]
    · rwa [← hhrp, String.ofList_toList, ← verifyChecksum_iff_checks hfits]
  · rintro ⟨hlen, hrp, chars, values, h⟩
    exact h.decode_ok hlen

/-- If the prefix is in range, every character takes a byte. -/
theorem Layout.length_utf8 (h : Layout s hrp chars values) (hrange : InRange hrp) :
    (utf8 s).length = s.toList.length := by
  have hhrp : (utf8 (String.ofList hrp)).length = hrp.length := by
    rw [length_utf8_eq_sum, String.toList_ofList]
    exact sum_utf8Size_of_ascii fun c hc => (hrange c hc).2.trans_lt (by decide)
  have hchars : chars.length = values.length := by
    simpa using congrArg List.length h.symbols.2
  rw [h.length_eq, h.split, hhrp, List.length_append, List.length_cons, hchars]
  omega

/-- A text has one prefix, and what follows the separator. -/
theorem Layout.split_unique {hrp' chars' : List Char} (h : Layout s hrp chars values)
    (hs : s.toList = hrp' ++ '1' :: chars') (hlast : '1' ∉ chars') :
    hrp = hrp' ∧ chars = chars' := by
  have hsplit := splitLast_iff.2 ⟨h.split, h.last⟩
  rw [splitLast_iff.2 ⟨hs, hlast⟩] at hsplit
  cases hsplit
  exact ⟨rfl, rfl⟩

/-- Of the texts of BIP-173, those with a prefix in range may be measured in bytes. -/
theorem bip173_iff : Bip173 s ↔ (utf8 s).length ≤ 90 ∧ OneCase s ∧
    ∃ hrp chars values, Layout s hrp chars values ∧ InRange hrp := by
  constructor
  · rintro ⟨hlen, hcase, hrp, chars, values, h, hrange⟩
    exact ⟨(h.length_utf8 hrange).trans_le hlen, hcase, hrp, chars, values, h, hrange⟩
  · rintro ⟨hlen, hcase, hrp, chars, values, h, hrange⟩
    exact ⟨(h.length_utf8 hrange).symm.trans_le hlen, hcase, hrp, chars, values, h, hrange⟩

/-- A text is accepted as BIP-173 has it if and only if, should it be of the layout of
    an accepted text, it has letters of one case only and a prefix in range. -/
theorem decode_bip173_iff (s : String) : ((∃ p, decode s = .ok p) ↔ Bip173 s) ↔
    ∀ hrp chars values, Layout s hrp chars values → (utf8 s).length ≤ 90 →
      OneCase s ∧ InRange hrp := by
  rw [decode_ok_iff, bip173_iff]
  constructor
  · intro hiff hrp chars values h hlen
    obtain ⟨-, hcase, hrp', chars', values', h', hrange⟩ := hiff.1 ⟨hlen, hrp, chars, values, h⟩
    exact ⟨hcase, (h.split_unique h'.split h'.last).1 ▸ hrange⟩
  · intro hstrict
    constructor
    · rintro ⟨hlen, hrp, chars, values, h⟩
      obtain ⟨hcase, hrange⟩ := hstrict hrp chars values h hlen
      exact ⟨hlen, hcase, hrp, chars, values, h, hrange⟩
    · rintro ⟨hlen, -, hrp, chars, values, h, -⟩
      exact ⟨hlen, hrp, chars, values, h⟩

/-- A text of mixed case that is accepted. -/
theorem mixed_case_is_decoded : ¬∀ s, (∃ p, decode s = .ok p) ↔ Bip173 s := by
  intro hclaim
  have hdecode : decode "A12uEL5L" = .ok ("a", []) := decode_iff.2 (by decide +kernel)
  obtain ⟨-, hupper | hlower, -⟩ := (hclaim "A12uEL5L").1 ⟨_, hdecode⟩
  · exact absurd (hupper 'A' (by simp)) (by decide)
  · exact absurd (hlower 'u' (by simp)) (by decide)

end UnicityNostr.Bech32
