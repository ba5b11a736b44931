import UnicityNostr.Crypto.Bech32.Regroup
import UnicityNostr.Lib.Register

/-!
# Checksums

The checksum register is linear with respect to exclusive or, and six symbols fill
it, from empty, with their number. So exactly one list of six symbols completes the
data, and `createChecksum` computes it.

* `shift_xor`: the register is linear;
* `toNat_foldl_zero`: six symbols fill the empty register;
* `verifyChecksum_iff`: the only symbols that are accepted.
-/

namespace UnicityNostr.Bech32

/-! ## The register -/

/-- The generators chosen by the bits that are shifted out. -/
def taps (top : UInt32) : List (UInt32 × Nat) → UInt32
  | [] => 0
  | (g, i) :: gs => (if (top >>> UInt32.ofNat i) &&& 1 = 1 then g else 0) ^^^ taps top gs

/-- The register shifted by a symbol. -/
def shift (c : UInt32) : UInt32 :=
  ((c &&& 0x1ffffff) <<< 5) ^^^ taps (c >>> 25) generator.zipIdx

theorem foldl_taps (top : UInt32) (gs : List (UInt32 × Nat)) (c : UInt32) :
    gs.foldl (fun chk (g, i) =>
      if (top >>> UInt32.ofNat i) &&& 1 = 1 then chk ^^^ g else chk) c = c ^^^ taps top gs := by
  induction gs generalizing c with
  | nil => exact UInt32.xor_zero.symm
  | cons gi gs ih =>
    obtain ⟨g, i⟩ := gi
    rw [List.foldl_cons, ih, taps, ← UInt32.xor_assoc]
    dsimp only
    split_ifs
    · rfl
    · rw [UInt32.xor_zero]

/-- A step shifts the register and takes in the value. -/
theorem polymodStep_eq : polymodStep = Register.take (· ^^^ ·) shift UInt8.toUInt32 := by
  funext c v
  rw [polymodStep, foldl_taps, Register.take, shift]
  ac_rfl

theorem and_xor_distrib (a b m : UInt32) : (a ^^^ b) &&& m = (a &&& m) ^^^ (b &&& m) := by
  rw [← UInt32.toNat_inj, UInt32.toNat_and, UInt32.toNat_xor, UInt32.toNat_xor, UInt32.toNat_and,
    UInt32.toNat_and, Nat.and_xor_distrib_right]

theorem and_one_eq (a : UInt32) : a &&& 1 = 0 ∨ a &&& 1 = 1 := by
  have h : (a &&& 1).toNat = a.toNat % 2 := by
    rw [UInt32.toNat_and]
    exact Nat.and_one_is_mod _
  rcases Nat.mod_two_eq_zero_or_one a.toNat with h' | h'
  · exact .inl (UInt32.toNat_inj.1 (h.trans h'))
  · exact .inr (UInt32.toNat_inj.1 (h.trans h'))

theorem taps_xor (a b : UInt32) (gs : List (UInt32 × Nat)) :
    taps (a ^^^ b) gs = taps a gs ^^^ taps b gs := by
  induction gs with
  | nil => exact UInt32.xor_zero.symm
  | cons gi gs ih =>
    obtain ⟨g, i⟩ := gi
    have hsel : (if ((a ^^^ b) >>> UInt32.ofNat i) &&& 1 = 1 then g else 0) =
        (if (a >>> UInt32.ofNat i) &&& 1 = 1 then g else 0) ^^^
          (if (b >>> UInt32.ofNat i) &&& 1 = 1 then g else 0) := by
      rw [UInt32.shiftRight_xor, and_xor_distrib]
      rcases and_one_eq (a >>> UInt32.ofNat i) with ha | ha <;>
        rcases and_one_eq (b >>> UInt32.ofNat i) with hb | hb <;> simp [ha, hb]
    rw [taps, taps, taps, ih, hsel]
    ac_rfl

/-- Shifting is linear. -/
theorem shift_xor (a b : UInt32) : shift (a ^^^ b) = shift a ^^^ shift b := by
  rw [shift, shift, shift, and_xor_distrib, UInt32.shiftLeft_xor, UInt32.shiftRight_xor, taps_xor]
  ac_rfl

/-! ## The range of the register -/

theorem toNat_taps_lt (top : UInt32) {gs : List (UInt32 × Nat)}
    (h : ∀ gi ∈ gs, gi.1.toNat < 2 ^ 30) : (taps top gs).toNat < 2 ^ 30 := by
  induction gs with
  | nil => exact Nat.two_pow_pos 30
  | cons gi gs ih =>
    obtain ⟨hg, hgs⟩ := List.forall_mem_cons.1 h
    rw [taps, UInt32.toNat_xor]
    refine Nat.xor_lt_two_pow ?_ (ih hgs)
    split_ifs
    · exact hg
    · decide

/-- The register shifted, without the generators. -/
theorem toNat_shiftLeft (c : UInt32) :
    ((c &&& 0x1ffffff) <<< 5).toNat = c.toNat % 2 ^ 25 * 32 := by
  have hmask : (c &&& 0x1ffffff).toNat = c.toNat % 2 ^ 25 := by
    rw [UInt32.toNat_and]
    exact Nat.and_two_pow_sub_one_eq_mod c.toNat 25
  have hlt := Nat.mod_lt c.toNat (Nat.two_pow_pos 25)
  rw [UInt32.toNat_shiftLeft, hmask, Nat.shiftLeft_eq]
  exact Nat.mod_eq_of_lt (show c.toNat % 2 ^ 25 * 32 < 2 ^ 32 by omega)

/-- The register has 30 bits. -/
theorem toNat_polymodStep_lt (c : UInt32) (v : UInt8) : (polymodStep c v).toNat < 2 ^ 30 := by
  rw [polymodStep_eq, Register.take, shift, UInt32.toNat_xor, UInt32.toNat_xor]
  refine Nat.xor_lt_two_pow (Nat.xor_lt_two_pow ?_ (toNat_taps_lt _ (by decide))) ?_
  · rw [toNat_shiftLeft]
    have := Nat.mod_lt c.toNat (Nat.two_pow_pos 25)
    omega
  · exact v.toNat_lt.trans (by decide)

theorem toNat_foldl_lt (values : Bytes) {c : UInt32} (hc : c.toNat < 2 ^ 30) :
    (values.foldl polymodStep c).toNat < 2 ^ 30 := by
  induction values using List.reverseRecOn with
  | nil => exact hc
  | append_singleton values v _ =>
    rw [List.foldl_append]
    exact toNat_polymodStep_lt _ _

theorem toNat_polymod_lt (values : Bytes) : (polymod values).toNat < 2 ^ 30 :=
  toNat_foldl_lt values (by decide)

/-! ## The empty register -/

theorem taps_zero (gs : List (UInt32 × Nat)) : taps 0 gs = 0 := by
  have h := taps_xor 0 0 gs
  rwa [UInt32.xor_self, UInt32.xor_self] at h

/-- A symbol below a multiple of 32. -/
theorem mul_xor_of_lt {n v : Nat} (hv : v < 32) : n * 32 ^^^ v = n * 32 + v := by
  have hdiv : (n * 32 ^^^ v) / 2 ^ 5 = n := by
    rw [Nat.xor_div_two_pow, Nat.div_eq_of_lt (a := v) hv, Nat.xor_zero]
    exact Nat.mul_div_cancel n (by decide)
  have hmod : (n * 32 ^^^ v) % 2 ^ 5 = v := by
    rw [Nat.xor_mod_two_pow, Nat.mod_eq_of_lt (a := v) hv, Nat.mul_mod_left, Nat.zero_xor]
  omega

/-- Nothing is shifted out of a register of 25 bits. -/
theorem toNat_polymodStep_of_lt {c : UInt32} {v : UInt8} (hc : c.toNat < 2 ^ 25)
    (hv : v.toNat < 32) : (polymodStep c v).toNat = c.toNat * 32 + v.toNat := by
  have htop : c >>> 25 = 0 := by
    rw [← UInt32.toNat_inj, UInt32.toNat_shiftRight, Nat.shiftRight_eq_div_pow]
    exact Nat.div_eq_of_lt hc
  rw [polymodStep_eq, Register.take, shift, htop, taps_zero, UInt32.xor_zero, UInt32.toNat_xor,
    toNat_shiftLeft, Nat.mod_eq_of_lt hc, UInt8.toNat_toUInt32, mul_xor_of_lt hv]

/-- Six symbols fill the empty register. -/
theorem toNat_foldl_zero {values : Bytes} (hfits : Fits 5 values) (hlen : values.length ≤ 6) :
    (values.foldl polymodStep 0).toNat = number 5 values := by
  induction values using List.reverseRecOn with
  | nil => rfl
  | append_singleton values v ih =>
    have hvalues : Fits 5 values := fun u hu => hfits u (by simp [hu])
    rw [List.length_append, List.length_singleton] at hlen
    have ih := ih hvalues (by omega)
    have hlt : number 5 values < 2 ^ 25 := by
      refine (Radix.value_lt (by decide) (by simpa [Fits] using hvalues)).trans_le ?_
      rw [List.length_map, ← Nat.pow_mul]
      exact Nat.pow_le_pow_right (by decide) (by omega)
    rw [List.foldl_append, List.foldl_cons, List.foldl_nil,
      toNat_polymodStep_of_lt (by rwa [ih]) (hfits v (by simp)), ih, number_concat]
    rfl

/-! ## Completing the data -/

/-- The register, with the data taken in, that the six symbols are to fill. -/
def residue (hrp : String) (data : Bytes) : UInt32 :=
  shift^[6] (polymod (hrpExpand hrp ++ data)) ^^^ 1

/-- The register after more values. -/
theorem polymod_append (values values' : Bytes) :
    polymod (values ++ values') = values'.foldl polymodStep (polymod values) := List.foldl_append

/-- The values that bring the register from `c` to `target` are those that bring the
    empty one to what is missing. -/
theorem foldl_polymodStep_eq_iff (values : Bytes) (c target : UInt32) :
    values.foldl polymodStep c = target ↔
      values.foldl polymodStep 0 = shift^[values.length] c ^^^ target := by
  rw [polymodStep_eq]
  exact Register.foldl_eq_iff shift_xor (fun _ => UInt32.xor_zero) (fun _ => UInt32.zero_xor)
    (fun _ => UInt32.xor_self) values c target

/-- What `createChecksum` splits into symbols: zeros only shift the register. -/
theorem polymod_zeros (hrp : String) (data : Bytes) :
    polymod (hrpExpand hrp ++ data ++ [0, 0, 0, 0, 0, 0]) ^^^ 1 = residue hrp data := by
  have hzeros : [0, 0, 0, 0, 0, 0].foldl polymodStep 0 = 0 := by decide
  rw [polymod_append, residue, (foldl_polymodStep_eq_iff _ _ _).2]
  rw [hzeros]
  exact UInt32.xor_self.symm

theorem toNat_residue_lt (hrp : String) (data : Bytes) : (residue hrp data).toNat < 2 ^ 30 := by
  rw [← polymod_zeros, UInt32.toNat_xor]
  exact Nat.xor_lt_two_pow (toNat_polymod_lt _) (by decide)

/-- The symbols of the checksum are the digits of the residue. -/
theorem map_toNat_createChecksum (hrp : String) (data : Bytes) :
    (createChecksum hrp data).map UInt8.toNat =
      Radix.digits (2 ^ 5) 6 (residue hrp data).toNat := by
  rw [createChecksum, polymod_zeros, Radix.digits, List.map_map]
  refine List.map_congr_left fun i hi => ?_
  have hi := List.mem_range.1 hi
  have hshift : (UInt32.ofNat (5 * (5 - i))).toNat % 32 = 5 * (5 - i) := by
    rw [UInt32.toNat_ofNat_of_lt' (show _ < 2 ^ 32 by omega), Nat.mod_eq_of_lt (by omega)]
  rw [Function.comp_apply, UInt32.toNat_toUInt8, UInt32.toNat_and, UInt32.toNat_shiftRight, hshift,
    show (31 : UInt32).toNat = 2 ^ 5 - 1 from rfl, Nat.and_two_pow_sub_one_eq_mod,
    Nat.mod_mod_of_dvd' (Nat.pow_dvd_pow 2 (by decide)), Nat.shiftRight_eq_div_pow, ← Nat.pow_mul]

theorem length_createChecksum (hrp : String) (data : Bytes) :
    (createChecksum hrp data).length = 6 := by
  rw [createChecksum, List.length_map, List.length_range]

theorem fits_createChecksum (hrp : String) (data : Bytes) : Fits 5 (createChecksum hrp data) := by
  have h : ∀ d ∈ (createChecksum hrp data).map UInt8.toNat, d < 2 ^ 5 := by
    rw [map_toNat_createChecksum]
    exact Radix.digits_lt (by decide) _ _
  simpa [Fits] using h

theorem number_createChecksum (hrp : String) (data : Bytes) :
    number 5 (createChecksum hrp data) = (residue hrp data).toNat := by
  rw [number, map_toNat_createChecksum, Radix.value_digits, ← Nat.pow_mul]
  exact Nat.mod_eq_of_lt (toNat_residue_lt hrp data)

/-- The six symbols that are accepted after the data. -/
theorem verifyChecksum_iff {hrp : String} {data sum : Bytes} (hfits : Fits 5 sum)
    (hlen : sum.length = 6) :
    verifyChecksum hrp (data ++ sum) = true ↔ sum = createChecksum hrp data := by
  have hfill : verifyChecksum hrp (data ++ sum) = true ↔
      sum.foldl polymodStep 0 = residue hrp data := by
    rw [verifyChecksum, beq_iff_eq, ← List.append_assoc, polymod_append,
      foldl_polymodStep_eq_iff, hlen]
    rfl
  rw [hfill, ← UInt32.toNat_inj, toNat_foldl_zero hfits hlen.le, ← number_createChecksum]
  constructor
  · exact number_inj (by decide) (hlen.trans (length_createChecksum hrp data).symm) hfits
      (fits_createChecksum hrp data)
  · rintro rfl
    rfl

end UnicityNostr.Bech32
