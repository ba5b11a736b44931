import UnicityNostr.Crypto.Secp

/-!
# NIP-44, the Unicity variant

Messages of 1 to 65535 bytes are padded, sealed with ChaCha20-Poly1305 under a
key derived from the conversation key and the nonce, and encoded as base64:
`0x02 || nonce || ciphertext`.

* `unpad_pad`: unpadding undoes padding;
* `decrypt_encrypt`: decrypting undoes encrypting under the same conversation
  key;
* `decrypt_of_separates`: under a conversation key that opens none of its
  ciphertexts, decrypting fails.
-/

namespace UnicityNostr.Nip44

def version : UInt8 := 0x02
def nonceSize : Nat := 24
def macSize : Nat := 16
def minPaddedLen : Nat := 32
def maxMessageLen : Nat := 65535

/-! ## Padding -/

/-- The least power of two that is at least `n`. -/
def nextPowerOfTwo (n : Nat) : Nat := if n ≤ 1 then 1 else 2 ^ ((n - 1).log2 + 1)

/-- The quotient rounded up. -/
def divCeil (a b : Nat) : Nat := (a + b - 1) / b

/-- The padded length of a message: chunks of an eighth of the next power of
    two, and at least 32 bytes. -/
def calcPaddedLen (unpaddedLen : Nat) : Result Nat :=
  if unpaddedLen = 0 then .error (.padding "message too short")
  else if unpaddedLen > maxMessageLen then .error (.padding "message too long")
  else if unpaddedLen ≤ 32 then .ok 32
  else
    let chunk := max 32 (nextPowerOfTwo unpaddedLen >>> 3)
    .ok (divCeil unpaddedLen chunk * chunk)

/-- The length in two bytes, the message, and zeros up to the padded length. -/
def pad (message : Bytes) : Result Bytes :=
  let len := message.length
  if len = 0 then .error (.padding "message too short")
  else if len > maxMessageLen then .error (.padding "message too long")
  else do
    let paddedLen ← calcPaddedLen len
    return UInt8.ofNat (len >>> 8 &&& 0xff) :: UInt8.ofNat (len &&& 0xff) ::
      (message ++ List.replicate (paddedLen - len) 0)

/-- The reverse of `pad`. -/
def unpad (padded : Bytes) : Result Bytes :=
  if padded.length < 2 + minPaddedLen then .error (.padding "padded message too short")
  else
    let len := (padded.getD 0 0).toNat <<< 8 ||| (padded.getD 1 0).toNat
    if len = 0 ∨ len > maxMessageLen then .error (.padding "invalid message length")
    else do
      let expected ← calcPaddedLen len
      if padded.length ≠ 2 + expected then .error (.padding "invalid padding")
      else return (padded.drop 2).take len

/-- A message fits into its padded length, which is at least 32. -/
theorem le_calcPaddedLen {len k : Nat} (h : calcPaddedLen len = .ok k) : len ≤ k ∧ 32 ≤ k := by
  unfold calcPaddedLen at h
  split_ifs at h with h0 h1 h2
  · obtain rfl := Except.ok.inj h
    exact ⟨h2, le_rfl⟩
  · obtain rfl := Except.ok.inj h
    generalize hc : max 32 (nextPowerOfTwo len >>> 3) = chunk
    have hpos : 32 ≤ chunk := hc ▸ le_max_left _ _
    -- Rounding up to a multiple of the chunk.
    have hle : len ≤ divCeil len chunk * chunk := by
      have := Nat.lt_div_mul_add (a := len + chunk - 1) (b := chunk) (by omega)
      rw [divCeil]
      omega
    exact ⟨hle, by omega⟩

/-- The next power of two is less than twice the number. -/
theorem nextPowerOfTwo_le {n : Nat} (h : 1 < n) : nextPowerOfTwo n ≤ 2 * n := by
  have hlog := Nat.log2_self_le (n := n - 1) (by omega)
  rw [nextPowerOfTwo, if_neg (by omega), Nat.pow_succ]
  omega

/-- Padding adds less than a chunk. -/
theorem calcPaddedLen_le {len k : Nat} (h : calcPaddedLen len = .ok k) : k ≤ 2 * len + 32 := by
  unfold calcPaddedLen at h
  split_ifs at h with h0 h1 h2
  · obtain rfl := Except.ok.inj h
    omega
  · obtain rfl := Except.ok.inj h
    have hchunk : max 32 (nextPowerOfTwo len >>> 3) ≤ len + 32 := by
      have := nextPowerOfTwo_le (n := len) (by omega)
      rw [Nat.shiftRight_eq_div_pow]
      omega
    have hdiv := Nat.div_mul_le_self (len + max 32 (nextPowerOfTwo len >>> 3) - 1)
      (max 32 (nextPowerOfTwo len >>> 3))
    rw [divCeil]
    omega

/-- Only messages of 1 to 65535 bytes have a padded length. -/
theorem range_of_calcPaddedLen {len k : Nat} (h : calcPaddedLen len = .ok k) :
    0 < len ∧ len ≤ maxMessageLen := by
  unfold calcPaddedLen at h
  split_ifs at h with h0 h1 h2 <;> omega

/-- All of them do. -/
theorem exists_calcPaddedLen {len : Nat} (h0 : 0 < len) (h1 : len ≤ maxMessageLen) :
    ∃ k, calcPaddedLen len = .ok k := by
  unfold calcPaddedLen
  rw [if_neg (by omega), if_neg (by omega)]
  split_ifs
  · exact ⟨_, rfl⟩
  · exact ⟨_, rfl⟩

/-- The two bytes of a length give it back. -/
theorem lenBytes {len : Nat} (h : len ≤ maxMessageLen) :
    (UInt8.ofNat (len >>> 8 &&& 0xff)).toNat <<< 8 ||| (UInt8.ofNat (len &&& 0xff)).toNat =
      len := by
  have hlen : len < 65536 := by simpa [maxMessageLen] using Nat.lt_succ_of_le h
  have hhi : len >>> 8 &&& 0xff = len / 256 := by
    rw [Nat.and_two_pow_sub_one_eq_mod _ 8, Nat.shiftRight_eq_div_pow, Nat.mod_eq_of_lt]
    omega
  have hlo : len &&& 0xff = len % 256 := Nat.and_two_pow_sub_one_eq_mod _ 8
  rw [hhi, hlo, UInt8.toNat_ofNat_of_lt' (show len / 256 < 256 by omega),
    UInt8.toNat_ofNat_of_lt' (Nat.mod_lt _ (by decide)),
    ← Nat.shiftLeft_add_eq_or_of_lt (Nat.mod_lt _ (by decide)), Nat.shiftLeft_eq,
    Nat.div_add_mod']

/-- What is padded: messages with a padded length. -/
theorem pad_eq_ok_iff {message padded : Bytes} : pad message = .ok padded ↔
    ∃ k, calcPaddedLen message.length = .ok k ∧
      padded = UInt8.ofNat (message.length >>> 8 &&& 0xff) ::
        UInt8.ofNat (message.length &&& 0xff) ::
        (message ++ List.replicate (k - message.length) 0) := by
  constructor
  · intro h
    dsimp only [pad] at h
    split_ifs at h
    obtain ⟨k, hk, h⟩ := Except.bind_eq_ok.1 h
    exact ⟨k, hk, (Except.ok.inj h).symm⟩
  · rintro ⟨k, hk, rfl⟩
    obtain ⟨h0, h1⟩ := range_of_calcPaddedLen hk
    dsimp only [pad]
    rw [if_neg (by omega), if_neg (by omega), hk]
    rfl

/-- A padded message has its padded length after the two bytes of its own. -/
theorem length_padded {message : Bytes} {k : Nat} (hk : calcPaddedLen message.length = .ok k)
    (hi lo : UInt8) :
    (hi :: lo :: (message ++ List.replicate (k - message.length) 0)).length = 2 + k := by
  have := (le_calcPaddedLen hk).1
  simp only [List.length_cons, List.length_append, List.length_replicate]
  omega

/-- Unpadding undoes padding. -/
theorem unpad_pad {message padded : Bytes} (h : pad message = .ok padded) :
    unpad padded = .ok message := by
  obtain ⟨k, hk, rfl⟩ := pad_eq_ok_iff.1 h
  obtain ⟨h0, h1⟩ := range_of_calcPaddedLen hk
  -- Every check passes: the two bytes give the length, and with it the padded length.
  have hk32 := (le_calcPaddedLen hk).2
  rw [unpad, length_padded hk, if_neg (by simp only [minPaddedLen]; omega)]
  simp only [List.getD_cons_zero, List.getD_cons_succ, lenBytes h1, List.drop_succ_cons,
    List.drop_zero]
  rw [if_neg (by simp only [not_or]; omega), hk, Except.bind_ok, if_neg (by simp), List.take_left]
  rfl

/-! ## Keys -/

variable (C : Crates)

/-- The conversation key of a secret and a peer: derived from the shared
    x-coordinate, salted with the two x-only keys in ascending order. -/
def deriveConversationKey (mySecret peerXonly : U8Array 32) : Result (U8Array 32) := do
  let sharedX ← Secp.ecdhX C mySecret peerXonly
  let myPub ← Secp.xonlyPublicKey C mySecret
  let salt := if myPub.1 ≤ peerXonly.1 then myPub.1 ++ peerXonly.1 else peerXonly.1 ++ myPub.1
  Except.okOr (C.hkdf salt sharedX.1 (utf8 "nip44-v2") 32) (.secp "hkdf expand")

/-- The key material of a message. -/
def deriveMessageKey (conversationKey : U8Array 32) (nonce : Bytes) : Result (U8Array 76) :=
  Except.okOr (C.hkdf nonce conversationKey.1 [] 76) (.secp "hkdf expand")

/-- The cipher key and the cipher nonce of a message key: its first 32 bytes and
    the 12 bytes after them. -/
def aeadFor (messageKey : U8Array 76) : U8Array 32 × U8Array 12 :=
  (⟨messageKey.1.take 32, by simp [messageKey.2]⟩,
    ⟨(messageKey.1.drop 32).take 12, by simp [messageKey.2]⟩)

/-! ## Encryption -/

/-- The payload of a plaintext, under a conversation key and a nonce. -/
def encryptWithKeyNonce (conversationKey : U8Array 32) (nonce : U8Array nonceSize)
    (plaintext : Bytes) : Result String :=
  if plaintext.length > maxMessageLen then .error (.padding "message too long")
  else do
    let padded ← pad plaintext
    let mk ← deriveMessageKey C conversationKey nonce.1
    let (key, chachaNonce) := aeadFor mk
    let ciphertext ← Except.okOr (C.chacha20Poly1305.encrypt key chachaNonce padded)
      (.decrypt "aead encrypt")
    return C.base64.encode (version :: nonce.1 ++ ciphertext)

/-- The plaintext of a payload, under a conversation key. -/
def decryptWithKey (conversationKey : U8Array 32) (payloadB64 : String) : Result Bytes := do
  let payload ← (C.base64.decode payloadB64).mapError fun e => .decode ("base64: " ++ e)
  if payload.length < 1 + nonceSize + minPaddedLen + macSize then
    .error (.malformed "nip44 payload too short")
  else if payload.getD 0 0 ≠ version then .error (.malformed "nip44 unsupported version")
  else do
    let nonce := (payload.drop 1).take nonceSize
    let ciphertext := payload.drop (1 + nonceSize)
    let mk ← deriveMessageKey C conversationKey nonce
    let (key, chachaNonce) := aeadFor mk
    let padded ← Except.okOr (C.chacha20Poly1305.decrypt key chachaNonce ciphertext)
      (.decrypt "aead: bad tag")
    unpad padded

/-- No ciphertext made under the conversation key `ck` and the nonce opens under
    the conversation key `ck'` and the nonce. -/
def Separates (nonce : Bytes) (ck ck' : U8Array 32) : Prop :=
  ∀ mk mk' m c, deriveMessageKey C ck nonce = .ok mk → deriveMessageKey C ck' nonce = .ok mk' →
    C.chacha20Poly1305.encrypt (aeadFor mk).1 (aeadFor mk).2 m = some c →
    C.chacha20Poly1305.decrypt (aeadFor mk').1 (aeadFor mk').2 c = none

variable {C}

/-- What encrypting does: padding, deriving the message key, sealing. -/
theorem encrypt_eq_ok_iff {ck : U8Array 32} {nonce : U8Array nonceSize} {m : Bytes} {p : String} :
    encryptWithKeyNonce C ck nonce m = .ok p ↔
      ∃ padded mk c, pad m = .ok padded ∧ deriveMessageKey C ck nonce.1 = .ok mk ∧
        C.chacha20Poly1305.encrypt (aeadFor mk).1 (aeadFor mk).2 padded = some c ∧
        p = C.base64.encode (version :: nonce.1 ++ c) := by
  constructor
  · intro h
    unfold encryptWithKeyNonce at h
    split_ifs at h
    obtain ⟨padded, hpad, h⟩ := Except.bind_eq_ok.1 h
    obtain ⟨mk, hmk, h⟩ := Except.bind_eq_ok.1 h
    obtain ⟨c, hc, h⟩ := Except.bind_eq_ok.1 h
    exact ⟨padded, mk, c, hpad, hmk, Except.okOr_eq_ok.1 hc, (Except.ok.inj h).symm⟩
  · rintro ⟨padded, mk, c, hpad, hmk, hc, rfl⟩
    obtain ⟨k, hk, -⟩ := pad_eq_ok_iff.1 hpad
    have := (range_of_calcPaddedLen hk).2
    rw [encryptWithKeyNonce, if_neg (by omega), hpad, Except.bind_ok, hmk, Except.bind_ok]
    dsimp only
    rw [hc]
    rfl

/-- A padded message is at least 34 bytes long. -/
theorem length_pad {m padded : Bytes} (h : pad m = .ok padded) : 34 ≤ padded.length := by
  obtain ⟨k, hk, rfl⟩ := pad_eq_ok_iff.1 h
  have := (le_calcPaddedLen hk).2
  rw [length_padded hk]
  omega

/-- Decrypting a payload made of a nonce and a ciphertext. -/
theorem decrypt_encode (hb : C.base64.RoundTrips) (ck : U8Array 32) (nonce : U8Array nonceSize)
    {c : Bytes} (hc : minPaddedLen + macSize ≤ c.length) :
    decryptWithKey C ck (C.base64.encode (version :: nonce.1 ++ c)) = (do
      let mk ← deriveMessageKey C ck nonce.1
      let padded ← Except.okOr (C.chacha20Poly1305.decrypt (aeadFor mk).1 (aeadFor mk).2 c)
        (.decrypt "aead: bad tag")
      unpad padded) := by
  have hn : nonce.1.length = nonceSize := nonce.2
  have hlen : ¬(version :: nonce.1 ++ c).length < 1 + nonceSize + minPaddedLen + macSize := by
    simp only [List.length_append, List.length_cons, hn]
    omega
  have htake : ((version :: nonce.1 ++ c).drop 1).take nonceSize = nonce.1 := by
    rw [List.cons_append, List.drop_one, List.tail_cons, List.take_left' hn]
  have hdrop : (version :: nonce.1 ++ c).drop (1 + nonceSize) = c := by
    rw [List.cons_append, Nat.add_comm, List.drop_succ_cons, List.drop_left' hn]
  rw [decryptWithKey, hb, Except.mapError_ok, Except.bind_ok, if_neg hlen, if_neg (by simp)]
  simp only [htake, hdrop]

/-- A ciphertext of a padded message is long enough. -/
theorem length_ciphertext (ha : C.chacha20Poly1305.Opens) {k : U8Array 32} {n : U8Array 12}
    {m padded c : Bytes} (hpad : pad m = .ok padded)
    (hc : C.chacha20Poly1305.encrypt k n padded = some c) : minPaddedLen + macSize ≤ c.length := by
  have := length_pad hpad
  have := (ha _ _ _ _ hc).2
  simp only [minPaddedLen, macSize]
  omega

/-- Decrypting undoes encrypting under the same conversation key. -/
theorem decrypt_encrypt (hb : C.base64.RoundTrips) (ha : C.chacha20Poly1305.Opens)
    {ck : U8Array 32} {nonce : U8Array nonceSize} {m : Bytes} {p : String}
    (h : encryptWithKeyNonce C ck nonce m = .ok p) : decryptWithKey C ck p = .ok m := by
  obtain ⟨padded, mk, c, hpad, hmk, hc, rfl⟩ := encrypt_eq_ok_iff.1 h
  rw [decrypt_encode hb ck nonce (length_ciphertext ha hpad hc), hmk, Except.bind_ok,
    (ha _ _ _ _ hc).1, Except.okOr_some, Except.bind_ok, unpad_pad hpad]

/-- Under a conversation key that opens none of its ciphertexts, decrypting
    fails. -/
theorem decrypt_of_separates (hb : C.base64.RoundTrips) (ha : C.chacha20Poly1305.Opens)
    {ck ck' : U8Array 32} {nonce : U8Array nonceSize} {m m' : Bytes} {p : String}
    (h : encryptWithKeyNonce C ck nonce m = .ok p) (hs : Separates C nonce.1 ck ck') :
    decryptWithKey C ck' p ≠ .ok m' := by
  obtain ⟨padded, mk, c, hpad, hmk, hc, rfl⟩ := encrypt_eq_ok_iff.1 h
  rw [decrypt_encode hb ck' nonce (length_ciphertext ha hpad hc)]
  intro h
  obtain ⟨mk', hmk', h⟩ := Except.bind_eq_ok.1 h
  rw [hs _ _ _ _ hmk hmk' hc] at h
  simp [Except.okOr] at h

/-- Both parties derive the same conversation key. -/
theorem deriveConversationKey_comm (he : Secp.EcdhAgrees C) {a b xa xb : U8Array 32}
    (ha : Secp.xonlyPublicKey C a = .ok xa) (hb : Secp.xonlyPublicKey C b = .ok xb) :
    deriveConversationKey C a xb = deriveConversationKey C b xa := by
  simp only [deriveConversationKey, he a b xa xb ha hb, ha, hb, Except.bind_ok]
  congr 1
  funext sharedX
  congr 2
  -- The salt puts the smaller key first, whichever is mine.
  split_ifs with hab hba hba
  · rw [List.le_antisymm hab hba]
  · rfl
  · rfl
  · exact absurd (List.le_total xa.1 xb.1) (by simp [hab, hba])

end UnicityNostr.Nip44
