import UnicityNostr.Reference

/-!
# Canonical padding

Unpadding checks the length of a padded message against the length its first
two bytes claim, and returns the message that follows them. It does not look at
the fill after the message, which padding leaves at zero.

* `unpad_eq_ok_iff`, `pad_eq_ok_iff_zeros`: a message is accepted with any fill
  of the right length, and written with zeros;
* `canonical_iff_zeroFilled`: unpadding is the reverse of padding exactly where
  the fill is zero, and so is encrypting that of decrypting; the messages with one
  padded form are those that fill their padded length.
-/

namespace UnicityNostr.Nip44

/-- The length a padded message claims for the message in it. -/
def claimedLen (padded : Bytes) : Nat :=
  (padded.getD 0 0).toNat <<< 8 ||| (padded.getD 1 0).toNat

/-- A byte string as long as a padded message of the length it claims. -/
def Framed (padded : Bytes) : Prop :=
  ∃ k, calcPaddedLen (claimedLen padded) = .ok k ∧ padded.length = 2 + k

/-- Nothing but zeros after the message. -/
def ZeroFilled (padded : Bytes) : Prop := ∀ b ∈ padded.drop (2 + claimedLen padded), b = 0

/-- The length in two bytes, the message, and a fill. -/
def withFill (message fill : Bytes) : Bytes :=
  UInt8.ofNat (message.length >>> 8 &&& 0xff) :: UInt8.ofNat (message.length &&& 0xff) ::
    (message ++ fill)

/-! ## Fills -/

theorem claimedLen_withFill {m : Bytes} (h : m.length ≤ maxMessageLen) (fill : Bytes) :
    claimedLen (withFill m fill) = m.length := lenBytes h

theorem length_withFill (m fill : Bytes) :
    (withFill m fill).length = 2 + (m.length + fill.length) := by
  simp only [withFill, List.length_cons, List.length_append]
  omega

theorem drop_withFill (m fill : Bytes) : (withFill m fill).drop (2 + m.length) = fill := by
  rw [withFill, Nat.add_comm, List.drop_succ_cons, List.drop_succ_cons, List.drop_left]

theorem withFill_injective (m : Bytes) : Function.Injective (withFill m) := fun fill fill' h => by
  rw [← drop_withFill m fill, h, drop_withFill]

/-- The length claimed by two bytes gives the two bytes. -/
theorem bytes_claimedLen (hi lo : UInt8) (rest : Bytes) :
    UInt8.ofNat (claimedLen (hi :: lo :: rest) >>> 8 &&& 0xff) = hi ∧
      UInt8.ofNat (claimedLen (hi :: lo :: rest) &&& 0xff) = lo := by
  have hhi := hi.toNat_lt
  have hlo := lo.toNat_lt
  have hsum : claimedLen (hi :: lo :: rest) = hi.toNat * 256 + lo.toNat := by
    simp only [claimedLen, List.getD_cons_zero, List.getD_cons_succ]
    rw [← Nat.shiftLeft_add_eq_or_of_lt (by omega), Nat.shiftLeft_eq]
  rw [hsum, Nat.and_two_pow_sub_one_eq_mod _ 8, Nat.and_two_pow_sub_one_eq_mod _ 8,
    Nat.shiftRight_eq_div_pow]
  refine ⟨?_, ?_⟩
  · rw [show (hi.toNat * 256 + lo.toNat) / 2 ^ 8 % 2 ^ 8 = hi.toNat by omega, UInt8.ofNat_toNat]
  · rw [show (hi.toNat * 256 + lo.toNat) % 2 ^ 8 = lo.toNat by omega, UInt8.ofNat_toNat]

/-- A framed byte string is a message with a fill. -/
theorem exists_withFill {padded : Bytes} (h : Framed padded) : ∃ m fill : Bytes,
    calcPaddedLen m.length = .ok (m.length + fill.length) ∧ padded = withFill m fill := by
  obtain ⟨k, hk, hlen⟩ := h
  have hle := (le_calcPaddedLen hk).1
  obtain ⟨hi, lo, rest, rfl⟩ : ∃ hi lo rest, padded = hi :: lo :: rest := by
    obtain _ | ⟨hi, _ | ⟨lo, rest⟩⟩ := padded
    · simp only [List.length_nil] at hlen
      omega
    · have := (le_calcPaddedLen hk).2
      simp only [List.length_cons, List.length_nil] at hlen
      omega
    · exact ⟨hi, lo, rest, rfl⟩
  simp only [List.length_cons] at hlen
  have hrest : rest.length = k := by omega
  -- The message is what the claimed length takes of the rest.
  have hm : (rest.take (claimedLen (hi :: lo :: rest))).length = claimedLen (hi :: lo :: rest) := by
    rw [List.length_take]
    omega
  obtain ⟨hhi, hlo⟩ := bytes_claimedLen hi lo rest
  refine ⟨rest.take (claimedLen (hi :: lo :: rest)), rest.drop (claimedLen (hi :: lo :: rest)),
    ?_, ?_⟩
  · rw [← List.length_append, List.take_append_drop, hm, hrest, hk]
  · rw [withFill, hm, hhi, hlo, List.take_append_drop]

/-! ## What is accepted and what is written -/

/-- A message with a fill up to its padded length is unpadded to the message. -/
theorem unpad_withFill {m fill : Bytes}
    (hk : calcPaddedLen m.length = .ok (m.length + fill.length)) :
    unpad (withFill m fill) = .ok m := by
  obtain ⟨hpos, hmax⟩ := range_of_calcPaddedLen hk
  have hk32 := (le_calcPaddedLen hk).2
  have hclaimed : ((withFill m fill).getD 0 0).toNat <<< 8 |||
      ((withFill m fill).getD 1 0).toNat = m.length := claimedLen_withFill hmax fill
  rw [unpad, length_withFill, if_neg (by rw [minPaddedLen]; omega)]
  dsimp only
  rw [hclaimed, if_neg (by omega), hk, Except.bind_ok, if_neg (not_not.2 rfl), withFill,
    List.drop_succ_cons, List.drop_succ_cons, List.drop_zero, List.take_left]
  rfl

/-- Accepted is a message with any fill up to its padded length. -/
theorem unpad_eq_ok_iff {padded m : Bytes} : unpad padded = .ok m ↔
    ∃ fill, calcPaddedLen m.length = .ok (m.length + fill.length) ∧ padded = withFill m fill := by
  constructor
  · intro h
    -- What is accepted passed the checks of the length.
    have hframed : Framed padded := by
      unfold unpad at h
      dsimp only at h
      split_ifs at h
      obtain ⟨k, hk, h⟩ := Except.bind_eq_ok.1 h
      split_ifs at h with hlen
      exact ⟨k, hk, not_not.1 hlen⟩
    obtain ⟨m', fill, hk, rfl⟩ := exists_withFill hframed
    obtain rfl := Except.ok.inj ((unpad_withFill hk).symm.trans h)
    exact ⟨fill, hk, rfl⟩
  · rintro ⟨fill, hk, rfl⟩
    exact unpad_withFill hk

/-- Everything framed is accepted. -/
theorem exists_unpad_iff {padded : Bytes} : (∃ m, unpad padded = .ok m) ↔ Framed padded := by
  constructor
  · rintro ⟨m, hm⟩
    obtain ⟨fill, hk, rfl⟩ := unpad_eq_ok_iff.1 hm
    have hclaimed := claimedLen_withFill (range_of_calcPaddedLen hk).2 fill
    exact ⟨_, hclaimed.symm ▸ hk, length_withFill m fill⟩
  · intro h
    obtain ⟨m, fill, hk, rfl⟩ := exists_withFill h
    exact ⟨m, unpad_withFill hk⟩

/-- Written is a message with zeros up to its padded length. -/
theorem pad_eq_ok_iff_zeros {padded m : Bytes} : pad m = .ok padded ↔
    ∃ fill, calcPaddedLen m.length = .ok (m.length + fill.length) ∧ padded = withFill m fill ∧
      ∀ b ∈ fill, b = 0 := by
  constructor
  · intro h
    obtain ⟨k, hk, rfl⟩ := pad_eq_ok_iff.1 h
    have hle := (le_calcPaddedLen hk).1
    refine ⟨List.replicate (k - m.length) 0, ?_, rfl, fun b hb => List.eq_of_mem_replicate hb⟩
    rw [List.length_replicate, Nat.add_sub_cancel' hle, hk]
  · rintro ⟨fill, hk, rfl, hzero⟩
    refine pad_eq_ok_iff.2 ⟨_, hk, ?_⟩
    rw [Nat.add_sub_cancel_left, ← List.eq_replicate_of_mem hzero]
    rfl

/-- Of what is accepted, padding writes what has a fill of zeros. -/
theorem pad_eq_ok_iff_zeroFilled {padded m : Bytes} (h : unpad padded = .ok m) :
    pad m = .ok padded ↔ ZeroFilled padded := by
  obtain ⟨fill, hk, rfl⟩ := unpad_eq_ok_iff.1 h
  have hclaimed := claimedLen_withFill (range_of_calcPaddedLen hk).2 fill
  rw [pad_eq_ok_iff_zeros, ZeroFilled, hclaimed, drop_withFill]
  constructor
  · rintro ⟨fill', -, hfill, hzero⟩
    rwa [withFill_injective m hfill]
  · intro hzero
    exact ⟨fill, hk, rfl, hzero⟩

/-- A message has one padded form if it fills its padded length. -/
theorem existsUnique_unpad_iff {m : Bytes} :
    (∃! padded, unpad padded = .ok m) ↔ calcPaddedLen m.length = .ok m.length := by
  constructor
  · rintro ⟨padded, hpadded, huniq⟩
    obtain ⟨fill, hk, rfl⟩ := unpad_eq_ok_iff.1 hpadded
    -- A fill of ones is accepted as well, and another one if there is any fill.
    have hother (b : UInt8) : withFill m (List.replicate fill.length b) = withFill m fill :=
      huniq _ (unpad_withFill (by rwa [List.length_replicate]))
    have hsame := withFill_injective m ((hother 0).trans (hother 1).symm)
    have hnil : fill.length = 0 := by
      by_contra hne
      exact absurd ((List.replicate_right_inj hne).1 hsame) (by decide)
    rwa [hnil, Nat.add_zero] at hk
  · intro hk
    refine ⟨withFill m [], unpad_withFill hk, fun padded hpadded => ?_⟩
    obtain ⟨fill, hk', rfl⟩ := unpad_eq_ok_iff.1 hpadded
    have hlen := Except.ok.inj (hk.symm.trans hk')
    rw [List.eq_nil_of_length_eq_zero (l := fill) (by omega)]

/-! ## Payloads -/

variable {C : Crates}

/-- What a payload of a conversation key holds: its nonce, and the bytes that its
    ciphertext opens to. -/
def Holds (C : Crates) (ck : U8Array 32) (payload : String) (nonce : U8Array nonceSize)
    (padded : Bytes) : Prop :=
  ∃ mk c, C.base64.decode payload = .ok (version :: nonce.1 ++ c) ∧
    deriveMessageKey C ck nonce.1 = .ok mk ∧
    C.chacha20Poly1305.decrypt (aeadFor mk).1 (aeadFor mk).2 c = some padded

/-- What is decrypted is unpadded from what the payload holds. -/
theorem exists_holds {ck : U8Array 32} {payload : String} {m : Bytes}
    (h : decryptWithKey C ck payload = .ok m) :
    ∃ nonce padded, Holds C ck payload nonce padded ∧ unpad padded = .ok m := by
  obtain ⟨bytes, hbytes, hchecks⟩ := Except.bind_eq_ok.1 h
  split_ifs at hchecks with hshort hversion
  obtain ⟨mk, hmk, hopen⟩ := Except.bind_eq_ok.1 hchecks
  obtain ⟨padded, hpadded, hm⟩ := Except.bind_eq_ok.1 hopen
  simp only [nonceSize, minPaddedLen, macSize] at hshort
  obtain ⟨v, rest, rfl⟩ : ∃ v rest, bytes = v :: rest := by
    cases bytes with
    | nil => simp at hshort
    | cons v rest => exact ⟨v, rest, rfl⟩
  obtain rfl : v = version := not_not.1 hversion
  simp only [List.length_cons] at hshort
  have hnonce : (rest.take nonceSize).length = nonceSize := by
    rw [List.length_take, nonceSize]
    omega
  refine ⟨⟨rest.take nonceSize, hnonce⟩, padded, ⟨mk, rest.drop nonceSize, ?_, hmk, ?_⟩, hm⟩
  · rw [List.cons_append, List.take_append_drop]
    exact Except.mapError_eq_ok.1 hbytes
  · rw [Nat.add_comm 1, List.drop_succ_cons] at hpadded
    exact Except.okOr_eq_ok.1 hpadded

/-- Under the conversation key and the nonce of a payload, the message it is
    decrypted to is encrypted to the same payload if its fill is zero. -/
theorem encrypt_eq_payload_iff (hround : C.base64.RoundTrips) (hcanon : C.base64.Canonical)
    (hopens : C.chacha20Poly1305.Opens) (hsealed : C.chacha20Poly1305.OpensOnlySealed)
    {ck : U8Array 32} {payload : String} {nonce : U8Array nonceSize} {padded m : Bytes}
    (hholds : Holds C ck payload nonce padded) (hm : unpad padded = .ok m) :
    encryptWithKeyNonce C ck nonce m = .ok payload ↔ ZeroFilled padded := by
  obtain ⟨mk, c, hdecode, hmk, hopen⟩ := hholds
  rw [← pad_eq_ok_iff_zeroFilled hm, encrypt_eq_ok_iff]
  constructor
  · rintro ⟨padded', mk', c', hpad, hmk', hseal, rfl⟩
    obtain rfl := Except.ok.inj (hmk.symm.trans hmk')
    -- Both ciphertexts are what follows the nonce in the payload.
    have hbytes := Except.ok.inj ((hround _).symm.trans hdecode)
    obtain rfl : c' = c := List.append_cancel_left hbytes
    have hsame := Option.some.inj (hopen.symm.trans (hopens _ _ _ _ hseal).1)
    rwa [hsame]
  · intro hpad
    exact ⟨padded, mk, c, hpad, hmk, hsealed _ _ _ _ hopen, (hcanon _ _ hdecode).symm⟩

/-! ## The reverse of padding and of encrypting -/

/-- A letter with a fill of ones is accepted, though padding writes it with zeros. -/
theorem not_canonical_ones : ¬∀ padded m, unpad padded = .ok m ↔ pad m = .ok padded := by
  intro h
  have hunpad : unpad (0 :: 1 :: 0x61 :: List.replicate 31 1) = .ok [0x61] := by decide
  exact absurd ((h _ _).1 hunpad) (by decide)

/-- Unpadding is the reverse of padding exactly on the byte strings that are not
    framed or have a fill of zeros; a message has exactly one padded form if it
    fills its padded length; and what is decrypted is encrypted to the same payload
    exactly if the fill of what the payload holds is zero. -/
theorem canonical_iff_zeroFilled (hround : C.base64.RoundTrips) (hcanon : C.base64.Canonical)
    (hopens : C.chacha20Poly1305.Opens) (hsealed : C.chacha20Poly1305.OpensOnlySealed) :
    (∀ padded, (∀ m, unpad padded = .ok m ↔ pad m = .ok padded) ↔
      (Framed padded → ZeroFilled padded)) ∧
    (∀ m : Bytes, (∃! padded, unpad padded = .ok m) ↔ calcPaddedLen m.length = .ok m.length) ∧
    ∀ ck payload m, decryptWithKey C ck payload = .ok m →
      ∃ nonce padded, Holds C ck payload nonce padded ∧ unpad padded = .ok m ∧
        (encryptWithKeyNonce C ck nonce m = .ok payload ↔ ZeroFilled padded) := by
  refine ⟨fun padded => ⟨fun h hframed => ?_, fun h m => ⟨fun hm => ?_, unpad_pad⟩⟩,
    fun m => existsUnique_unpad_iff, fun ck payload m h => ?_⟩
  · obtain ⟨m, hm⟩ := exists_unpad_iff.2 hframed
    exact (pad_eq_ok_iff_zeroFilled hm).1 ((h m).1 hm)
  · exact (pad_eq_ok_iff_zeroFilled hm).2 (h (exists_unpad_iff.1 ⟨m, hm⟩))
  · obtain ⟨nonce, padded, hholds, hm⟩ := exists_holds h
    exact ⟨nonce, padded, hholds, hm, encrypt_eq_payload_iff hround hcanon hopens hsealed hholds hm⟩

/-- A message that fills its padded length, a letter with a fill of ones, and a
    payload of the letter. -/
theorem canonical_iff_zeroFilled_letter :
    (∃! padded, unpad padded = .ok (List.replicate 32 0x61)) ∧
    ¬(∀ m, unpad (0 :: 1 :: 0x61 :: List.replicate 31 1) = .ok m ↔
      pad m = .ok (0 :: 1 :: 0x61 :: List.replicate 31 1)) ∧
    ∃ payload nonce padded, Holds Reference.crates (Reference.bytes 32 7) payload nonce padded ∧
      unpad padded = .ok [0x61] ∧
      (encryptWithKeyNonce Reference.crates (Reference.bytes 32 7) nonce [0x61] = .ok payload ↔
        ZeroFilled padded) := by
  obtain ⟨hpadded, hunique, hpayload⟩ := canonical_iff_zeroFilled Reference.base64_roundTrips
    Reference.base64_canonical Reference.chacha20Poly1305_opens
    Reference.chacha20Poly1305_opensOnlySealed
  refine ⟨(hunique _).2 (by decide), fun h => ?_, ?_⟩
  · have hzero := (hpadded _).1 h ⟨32, by decide, by decide⟩
    exact absurd (hzero 1 (by decide)) (by decide)
  · obtain ⟨payload, hp⟩ : ∃ p, encryptWithKeyNonce Reference.crates (Reference.bytes 32 7)
        (Reference.bytes 24 9) [0x61] = .ok p :=
      (exists_encrypt_iff Reference.hkdfExpands Reference.chacha20Poly1305_seals).2 (by decide)
    have hm := decrypt_encrypt Reference.base64_roundTrips Reference.chacha20Poly1305_opens hp
    exact ⟨payload, hpayload _ _ _ hm⟩

end UnicityNostr.Nip44
