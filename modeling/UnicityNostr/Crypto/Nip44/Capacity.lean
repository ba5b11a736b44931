import UnicityNostr.Crypto.Nip44

/-!
# The length of payloads

Padding rounds the length of a message up to a chunk of an eighth of the next
power of two: from 32769 bytes on, a chunk of 8192 bytes. A payload is a third
longer than the padded message and its frame.

* `calcPaddedLen_le_of_le`, `le_calcPaddedLen_of_lt`: the padded lengths on both
  sides of 40960, which is five chunks;
* `exists_encrypt_iff`, `length_payload`: the messages that are encrypted, and the
  length of the payload;
* `encrypt_too_long`: the error of a message that is too long.
-/

namespace UnicityNostr.Nip44

/-! ## Padded lengths -/

/-- The next power of two is the least one. -/
theorem nextPowerOfTwo_le_two_pow {n e : Nat} (h : n ≤ 2 ^ e) : nextPowerOfTwo n ≤ 2 ^ e := by
  unfold nextPowerOfTwo
  split_ifs with hn
  · exact Nat.one_le_two_pow
  · have hlog : (n - 1).log2 < e := (Nat.log2_lt (by omega)).2 (by omega)
    exact Nat.pow_le_pow_right (by decide) hlog

/-- It is greater than the powers of two below the number. -/
theorem two_pow_le_nextPowerOfTwo {n e : Nat} (h : 2 ^ e < n) : 2 ^ (e + 1) ≤ nextPowerOfTwo n := by
  have hpos := Nat.one_le_two_pow (n := e)
  have hlog : e ≤ (n - 1).log2 := (Nat.le_log2 (by omega)).2 (by omega)
  rw [nextPowerOfTwo, if_neg (by omega)]
  exact Nat.pow_le_pow_right (by decide) (by omega)

/-- From 32769 bytes on, a chunk has 8192 bytes. -/
theorem calcPaddedLen_of_lt {len : Nat} (h : 32768 < len) (hmax : len ≤ maxMessageLen) :
    calcPaddedLen len = .ok ((len + 8191) / 8192 * 8192) := by
  rw [maxMessageLen] at hmax
  have hpow : nextPowerOfTwo len = 2 ^ 16 := Nat.le_antisymm
    (nextPowerOfTwo_le_two_pow (by omega)) (two_pow_le_nextPowerOfTwo (e := 15) (by omega))
  rw [calcPaddedLen, if_neg (by omega), if_neg (by rw [maxMessageLen]; omega), if_neg (by omega),
    hpow]
  rfl

/-- Messages of up to 40960 bytes are padded to no more. -/
theorem calcPaddedLen_le_of_le {len k : Nat} (hk : calcPaddedLen len = .ok k) (h : len ≤ 40960) :
    k ≤ 40960 := by
  have hmax := (range_of_calcPaddedLen hk).2
  rcases Nat.lt_or_ge 32768 len with hlarge | hsmall
  · rw [calcPaddedLen_of_lt hlarge hmax] at hk
    obtain rfl := Except.ok.inj hk
    omega
  · -- A chunk has at most 4096 bytes.
    have hpow := nextPowerOfTwo_le_two_pow (n := len) (e := 15) hsmall
    unfold calcPaddedLen at hk
    split_ifs at hk
    · obtain rfl := Except.ok.inj hk
      omega
    · obtain rfl := Except.ok.inj hk
      generalize hchunk : max 32 (nextPowerOfTwo len >>> 3) = chunk
      have hle : chunk ≤ 4096 := by
        rw [← hchunk, Nat.shiftRight_eq_div_pow]
        omega
      have hdiv := Nat.div_mul_le_self (len + chunk - 1) chunk
      rw [divCeil]
      omega

/-- Longer ones take another chunk. -/
theorem le_calcPaddedLen_of_lt {len k : Nat} (hk : calcPaddedLen len = .ok k) (h : 40960 < len) :
    49152 ≤ k := by
  rw [calcPaddedLen_of_lt (by omega) (range_of_calcPaddedLen hk).2] at hk
  obtain rfl := Except.ok.inj hk
  omega

/-! ## Payloads -/

variable {C : Crates} {ck : U8Array 32} {nonce : U8Array nonceSize} {m : Bytes}

/-- Encryption succeeds on messages of 1 to 65535 bytes, and on no others. -/
theorem exists_encrypt_iff (hkdf : C.HkdfExpands) (hseals : C.chacha20Poly1305.Seals) :
    (∃ p, encryptWithKeyNonce C ck nonce m = .ok p) ↔ 1 ≤ m.length ∧ m.length ≤ 65535 := by
  constructor
  · rintro ⟨p, hp⟩
    obtain ⟨padded, mk, c, hpad, -⟩ := encrypt_eq_ok_iff.1 hp
    obtain ⟨k, hk, -⟩ := pad_eq_ok_iff.1 hpad
    exact range_of_calcPaddedLen hk
  · rintro ⟨hpos, hle⟩
    obtain ⟨k, hk⟩ := exists_calcPaddedLen hpos hle
    obtain ⟨padded, hpad⟩ : ∃ padded, pad m = .ok padded := ⟨_, pad_eq_ok_iff.2 ⟨k, hk, rfl⟩⟩
    obtain ⟨mk, hmk⟩ := hkdf nonce.1 ck.1 [] 76 (by decide)
    have hlen : padded.length < 64 * (2 ^ 32 - 1) := by
      obtain ⟨k', hk', rfl⟩ := pad_eq_ok_iff.1 hpad
      have := calcPaddedLen_le hk'
      rw [length_padded hk']
      omega
    obtain ⟨c, hc⟩ := hseals (aeadFor mk).1 (aeadFor mk).2 padded hlen
    exact ⟨_, encrypt_eq_ok_iff.2 ⟨padded, mk, c, hpad, Except.okOr_eq_ok.2 hmk, hc, rfl⟩⟩

/-- The length of a payload: that of the version, the nonce, the padded message and
    the tag in base64. -/
theorem length_payload (hb : C.base64.FourForThree) (ha : C.chacha20Poly1305.Opens) {p : String}
    (h : encryptWithKeyNonce C ck nonce m = .ok p) :
    ∃ k, calcPaddedLen m.length = .ok k ∧ p.toList.length = 4 * ((k + 45) / 3) := by
  obtain ⟨padded, mk, c, hpad, -, hc, rfl⟩ := encrypt_eq_ok_iff.1 h
  obtain ⟨k, hk, rfl⟩ := pad_eq_ok_iff.1 hpad
  have hnonce : nonce.1.length = 24 := nonce.2
  refine ⟨k, hk, ?_⟩
  rw [hb, List.cons_append, List.length_cons, List.length_append, hnonce, (ha _ _ _ _ hc).2,
    length_padded hk]
  omega

/-- A message of more than 65535 bytes is not encrypted. -/
theorem encrypt_too_long (h : 65535 < m.length) :
    encryptWithKeyNonce C ck nonce m = .error (.padding "message too long") :=
  if_pos h

end UnicityNostr.Nip44
