import UnicityNostr.Crypto.Bech32

/-!
# Regrouping bits

Groups of bits, of one width or of another, are the digits of one number: what is
put out, followed by what is left over, is the number taken in.

* `push_balanced`: this holds after each group;
* `convertBits_pad_iff`, `convertBits_strict_iff`: what converting with and without
  padding does;
* `convertBits_symm`: converting symbols to bytes undoes converting bytes to
  symbols, and nothing else converts to the bytes.
-/

namespace UnicityNostr.Bech32

/-- The number of the groups of `w` bits, the high ones first. -/
def number (w : Nat) (data : Bytes) : Nat := Radix.value (2 ^ w) (data.map UInt8.toNat)

/-- Every group has `w` bits. -/
def Fits (w : Nat) (data : Bytes) : Prop := ∀ v ∈ data, v.toNat < 2 ^ w

theorem number_concat (w : Nat) (data : Bytes) (v : UInt8) :
    number w (data ++ [v]) = number w data * 2 ^ w + v.toNat := by
  rw [number, List.map_append]
  exact Radix.value_concat _ _ _

theorem number_inj {w : Nat} {data data' : Bytes} (hw : 0 < w) (hlen : data.length = data'.length)
    (h : Fits w data) (h' : Fits w data') (heq : number w data = number w data') :
    data = data' := by
  have hmap := Radix.value_inj (Nat.one_lt_two_pow hw.ne') (by simpa using hlen)
    (by simpa [Fits] using h) (by simpa [Fits] using h') heq
  exact List.map_injective_iff.2 (fun _ _ => UInt8.toNat_inj.1) hmap

theorem fits_append {w : Nat} {data data' : Bytes} :
    Fits w (data ++ data') ↔ Fits w data ∧ Fits w data' := List.forall_mem_append

/-- Bytes have eight bits. -/
theorem fits_bytes (data : Bytes) : Fits 8 data := fun v _ => v.toNat_lt

/-! ## The accumulator -/

variable {w w' : Nat}

/-- The state holds the number `n` of `size` bits: what is put out, in groups of `w'`
    bits, and what is left over. -/
structure Balanced (w' n size : Nat) (s : Regroup) : Prop where
  size_eq : size = s.out.length * w' + s.bits
  number_eq : n = number w' s.out * 2 ^ s.bits + s.acc % 2 ^ s.bits
  fits : Fits w' s.out

/-- The low bits of a number, split in two. -/
theorem mod_two_pow_add (n a b : Nat) :
    n % 2 ^ (a + b) = n / 2 ^ b % 2 ^ a * 2 ^ b + n % 2 ^ b := by
  rw [Nat.add_comm, Nat.pow_add, Nat.mod_mul, Nat.add_comm, Nat.mul_comm]

/-- The group that is put out. -/
theorem toNat_group {acc bits : Nat} (hw' : w' ≤ 8) :
    (UInt8.ofNat ((acc >>> bits) &&& (1 <<< w' - 1))).toNat = acc / 2 ^ bits % 2 ^ w' := by
  have hlt : acc / 2 ^ bits % 2 ^ w' < 2 ^ 8 :=
    (Nat.mod_lt _ (Nat.two_pow_pos w')).trans_le (Nat.pow_le_pow_right (by decide) hw')
  rw [Nat.one_shiftLeft, Nat.and_two_pow_sub_one_eq_mod, Nat.shiftRight_eq_div_pow,
    UInt8.toNat_ofNat_of_lt' hlt]

/-- Putting out groups keeps the number, and leaves less than a group. -/
theorem drain_balanced (h0 : 0 < w') (h8 : w' ≤ 8) {n size : Nat} {s : Regroup}
    (h : Balanced w' n size s) :
    Balanced w' n size (s.drain w') ∧ (s.drain w').bits < w' := by
  induction s using Regroup.drain.induct w' with
  | case1 s hs bits ih =>
    rw [Regroup.drain, if_pos hs]
    refine ih ⟨?_, ?_, ?_⟩
    · have hbits : bits + w' = s.bits := Nat.sub_add_cancel hs.2
      rw [h.size_eq, List.length_append, List.length_singleton, Nat.add_mul, Nat.one_mul]
      show _ = s.out.length * w' + w' + bits
      omega
    · have hsplit := mod_two_pow_add s.acc w' bits
      rw [show w' + bits = s.bits by omega] at hsplit
      rw [h.number_eq, hsplit, number_concat, toNat_group h8, Nat.add_mul, Nat.mul_assoc,
        ← Nat.pow_add, show w' + bits = s.bits by omega, Nat.add_assoc]
    · refine fits_append.2 ⟨h.fits, fun v hv => ?_⟩
      rw [List.mem_singleton.1 hv, toNat_group h8]
      exact Nat.mod_lt _ (Nat.two_pow_pos w')
  | case2 s hs =>
    rw [Regroup.drain, if_neg hs]
    exact ⟨h, by omega⟩

/-- Taking in a group. -/
theorem accumulate {acc bits v : Nat} (hv : v < 2 ^ w) (hbits : bits + w ≤ 32) :
    ((acc <<< w) % 2 ^ 32 ||| v) % 2 ^ (bits + w) = acc % 2 ^ bits * 2 ^ w + v := by
  -- The high bits are dropped from the front of the number.
  have hdrop : (acc <<< w) % 2 ^ 32 = (acc % 2 ^ (32 - w)) <<< w := by
    rw [Nat.shiftLeft_eq, Nat.shiftLeft_eq, ← Nat.mul_mod_mul_right, ← Nat.pow_add,
      show 32 - w + w = 32 by omega]
  have hdvd : 2 ^ bits ∣ 2 ^ (32 - w) := Nat.pow_dvd_pow 2 (by omega)
  have hlow : (acc % 2 ^ (32 - w) * 2 ^ w + v) % 2 ^ w = v := by
    rw [Nat.add_comm, Nat.add_mul_mod_self_right, Nat.mod_eq_of_lt hv]
  have hhigh : (acc % 2 ^ (32 - w) * 2 ^ w + v) / 2 ^ w = acc % 2 ^ (32 - w) := by
    rw [Nat.add_comm, Nat.add_mul_div_right _ _ (Nat.two_pow_pos w), Nat.div_eq_of_lt hv,
      Nat.zero_add]
  rw [hdrop, ← Nat.shiftLeft_add_eq_or_of_lt hv, mod_two_pow_add, Nat.shiftLeft_eq, hlow, hhigh,
    Nat.mod_mod_of_dvd _ hdvd]

/-- Taking in a group appends it to the number, and leaves less than a group. -/
theorem push_balanced (h0 : 0 < w') (h8 : w' ≤ 8) (h32 : w + w' ≤ 32) {n size : Nat}
    {s : Regroup} {v : UInt8} (hv : v.toNat < 2 ^ w) (h : Balanced w' n size s)
    (hleft : s.bits < w') :
    ∃ s', s.push w w' v = some s' ∧ Balanced w' (n * 2 ^ w + v.toNat) (size + w) s' ∧
      s'.bits < w' := by
  have hshift : v.toNat >>> w = 0 := by
    rw [Nat.shiftRight_eq_div_pow, Nat.div_eq_of_lt hv]
  rw [Regroup.push, if_neg (by simp [hshift])]
  refine ⟨_, rfl, drain_balanced h0 h8 ⟨?_, ?_, h.fits⟩⟩
  · rw [h.size_eq, Nat.add_assoc]
  · rw [accumulate hv (by omega), h.number_eq, Nat.add_mul, Nat.mul_assoc, ← Nat.pow_add,
      Nat.add_assoc]

/-- Taking in all groups. -/
theorem foldlM_push_balanced (h0 : 0 < w') (h8 : w' ≤ 8) (h32 : w + w' ≤ 32) {data : Bytes}
    (hdata : Fits w data) :
    ∃ s, data.foldlM (Regroup.push w w') {} = some s ∧
      Balanced w' (number w data) (data.length * w) s ∧ s.bits < w' := by
  induction data using List.reverseRecOn with
  | nil =>
    refine ⟨{}, rfl, ⟨by simp, ?_, by simp [Fits]⟩, h0⟩
    simp [number, Nat.mod_one]
  | append_singleton data v ih =>
    obtain ⟨s, hs, hbalanced, hleft⟩ := ih fun u hu => hdata u (by simp [hu])
    obtain ⟨s', hs', hbalanced', hleft'⟩ :=
      push_balanced h0 h8 h32 (hdata v (by simp)) hbalanced hleft
    refine ⟨s', ?_, ?_, hleft'⟩
    · rw [List.foldlM_append, hs]
      simp [hs']
    · rw [number_concat, List.length_append, List.length_singleton, Nat.add_mul, Nat.one_mul]
      exact hbalanced'

/-! ## Conversions -/

/-- The groups of `w` bits in groups of `w'` bits, followed by `pad` zeros. -/
structure Regroups (w w' pad : Nat) (data out : Bytes) : Prop where
  size_eq : out.length * w' = data.length * w + pad
  number_eq : number w' out = number w data * 2 ^ pad
  fits : Fits w' out

/-- Multiples that differ by less than the factor are equal. -/
theorem eq_of_mul_add_eq {k m p q : Nat} (hp : p < w) (hq : q < w)
    (h : k * w + p = m * w + q) : k = m := by
  have hw : 0 < w := by omega
  have hdiv := congrArg (· / w) h
  simpa only [Nat.mul_comm _ w, Nat.mul_add_div hw, Nat.div_eq_of_lt hp, Nat.div_eq_of_lt hq,
    Nat.add_zero] using hdiv

/-- The bits left over, filled up with zeros. -/
theorem leftover {acc bits : Nat} (hbits : bits ≤ w') (h32 : w' ≤ 32) :
    (acc <<< (w' - bits)) % 2 ^ 32 &&& (1 <<< w' - 1) = acc % 2 ^ bits * 2 ^ (w' - bits) := by
  rw [Nat.one_shiftLeft, Nat.and_two_pow_sub_one_eq_mod,
    Nat.mod_mod_of_dvd _ (Nat.pow_dvd_pow 2 h32), Nat.shiftLeft_eq, ← Nat.mul_mod_mul_right,
    ← Nat.pow_add, Nat.add_sub_cancel' hbits]

/-- Converting with padding succeeds, and regroups the bits. -/
theorem convertBits_pad_spec (h0 : 0 < w') (h8 : w' ≤ 8) (h32 : w + w' ≤ 32) {data : Bytes}
    (hdata : Fits w data) :
    ∃ out, convertBits data w w' true = some out ∧ ∃ pad < w', Regroups w w' pad data out := by
  obtain ⟨s, hs, hbalanced, hleft⟩ := foldlM_push_balanced h0 h8 h32 hdata
  rcases Nat.eq_zero_or_pos s.bits with hbits | hbits
  · refine ⟨s.out, by simp [convertBits, hs, hbits], 0, h0, ?_, ?_, hbalanced.fits⟩
    · rw [hbalanced.size_eq, hbits, Nat.add_zero]
    · rw [hbalanced.number_eq, hbits, Nat.pow_zero, Nat.mod_one, Nat.mul_one, Nat.mul_one,
        Nat.add_zero]
  · -- The last group: what is left over, and zeros.
    generalize hg : UInt8.ofNat (s.acc % 2 ^ s.bits * 2 ^ (w' - s.bits)) = g
    have hpow : 2 ^ s.bits * 2 ^ (w' - s.bits) = 2 ^ w' := by
      rw [← Nat.pow_add, Nat.add_sub_cancel' hleft.le]
    have hlt : s.acc % 2 ^ s.bits * 2 ^ (w' - s.bits) < 2 ^ w' := by
      rw [← hpow]
      exact Nat.mul_lt_mul_of_pos_right (Nat.mod_lt _ (Nat.two_pow_pos _)) (Nat.two_pow_pos _)
    have hgroup : g.toNat = s.acc % 2 ^ s.bits * 2 ^ (w' - s.bits) :=
      hg ▸ UInt8.toNat_ofNat_of_lt' (hlt.trans_le (Nat.pow_le_pow_right (by decide) h8))
    refine ⟨s.out ++ [g], ?_, w' - s.bits, by omega, ?_, ?_, ?_⟩
    · simp only [convertBits, hs, Option.bind_eq_bind, Option.bind_some, if_true, if_pos hbits,
        leftover hleft.le (by omega : w' ≤ 32), hg]
      rfl
    · rw [hbalanced.size_eq, List.length_append, List.length_singleton, Nat.add_mul, Nat.one_mul]
      omega
    · rw [number_concat, hgroup, hbalanced.number_eq, Nat.add_mul, Nat.mul_assoc, hpow]
    · refine fits_append.2 ⟨hbalanced.fits, fun v hv => ?_⟩
      rw [List.mem_singleton.1 hv, hgroup]
      exact hlt

/-- There is one way to regroup bits with less than a group of padding. -/
theorem Regroups.unique {pad pad' : Nat} {data out out' : Bytes} (hpad : pad < w')
    (hpad' : pad' < w') (h : Regroups w w' pad data out) (h' : Regroups w w' pad' data out') :
    out = out' := by
  have hsize := h.size_eq
  have hsize' := h'.size_eq
  have hlen : out.length = out'.length :=
    eq_of_mul_add_eq hpad' hpad (by omega)
  have heq : pad = pad' := by rw [hlen] at hsize; omega
  refine number_inj (by omega) hlen h.fits h'.fits ?_
  rw [h.number_eq, h'.number_eq, heq]

/-- What converting with padding does. -/
theorem convertBits_pad_iff (h0 : 0 < w') (h8 : w' ≤ 8) (h32 : w + w' ≤ 32) {data out : Bytes}
    (hdata : Fits w data) :
    convertBits data w w' true = some out ↔ ∃ pad < w', Regroups w w' pad data out := by
  obtain ⟨out', hout', pad', hpad', hregroups'⟩ := convertBits_pad_spec h0 h8 h32 hdata
  constructor
  · intro h
    obtain rfl := Option.some.inj (h.symm.trans hout')
    exact ⟨pad', hpad', hregroups'⟩
  · rintro ⟨pad, hpad, hregroups⟩
    rw [hout', hregroups'.unique hpad' hpad hregroups]

/-- What converting without padding does: it undoes converting with padding. -/
theorem convertBits_strict_iff (h0 : 0 < w') (h8 : w' ≤ 8) (hw : w ≤ w') {data out : Bytes}
    (hdata : Fits w data) : convertBits data w w' false = some out ↔
      Fits w' out ∧ ∃ pad < w, Regroups w' w pad out data := by
  obtain ⟨s, hs, hbalanced, hleft⟩ := foldlM_push_balanced h0 h8 (by omega : w + w' ≤ 32) hdata
  have hconvert : convertBits data w w' false = some out ↔
      s.bits < w ∧ s.acc % 2 ^ s.bits = 0 ∧ s.out = out := by
    have hpos := (Nat.two_pow_pos (w' - s.bits)).ne'
    simp only [convertBits, hs, Option.bind_eq_bind, Option.bind_some, Bool.false_eq_true, if_false,
      leftover hleft.le (by omega : w' ≤ 32), ne_eq, Nat.mul_eq_zero, hpos, or_false]
    split_ifs with hrest
    · exact iff_of_false nofun fun h => hrest.elim (by omega) fun hne => hne h.2.1
    · obtain ⟨hbits, hzero⟩ := not_or.1 hrest
      rw [Option.pure_def, Option.some.injEq, and_iff_right (not_le.1 hbits),
        and_iff_right (not_not.1 hzero)]
  rw [hconvert]
  constructor
  · rintro ⟨hbits, hzero, rfl⟩
    refine ⟨hbalanced.fits, s.bits, hbits, hbalanced.size_eq, ?_, hdata⟩
    rw [hbalanced.number_eq, hzero, Nat.add_zero]
  · rintro ⟨hout, pad, hpad, hregroups⟩
    have hsize := hregroups.size_eq
    rw [hbalanced.size_eq] at hsize
    have hlen : s.out.length = out.length := eq_of_mul_add_eq hleft (by omega) hsize
    have hbits : s.bits = pad := by rw [hlen] at hsize; omega
    -- The number of the bits left over is that of no bits.
    have hnumber := hregroups.number_eq
    rw [hbalanced.number_eq, ← hbits] at hnumber
    have hrest := Nat.mod_lt s.acc (Nat.two_pow_pos s.bits)
    have heq : number w' s.out = number w' out :=
      eq_of_mul_add_eq hrest (Nat.two_pow_pos s.bits) (hnumber.trans (Nat.add_zero _).symm)
    rw [heq] at hnumber
    exact ⟨by omega, by omega, number_inj h0 hlen hbalanced.fits hout heq⟩

/-- The symbols of bytes: one for five bits. -/
theorem convertBits_symbols (data : Bytes) :
    ∃ values, convertBits data 8 5 true = some values ∧ Fits 5 values ∧
      values.length = (8 * data.length + 4) / 5 := by
  obtain ⟨values, hvalues, pad, hpad, hregroups⟩ :=
    convertBits_pad_spec (by decide : 0 < 5) (by decide) (by decide) (fits_bytes data)
  have hsize := hregroups.size_eq
  exact ⟨values, hvalues, hregroups.fits, by omega⟩

/-- Converting symbols to bytes undoes converting bytes to symbols, and no other
    symbols convert to the bytes. -/
theorem convertBits_symm {data values : Bytes} (hvalues : Fits 5 values) :
    convertBits values 5 8 false = some data ↔ convertBits data 8 5 true = some values := by
  rw [convertBits_strict_iff (by decide) (by decide) (by decide) hvalues,
    convertBits_pad_iff (by decide) (by decide) (by decide) (fits_bytes data),
    and_iff_right (fits_bytes data)]

end UnicityNostr.Bech32
