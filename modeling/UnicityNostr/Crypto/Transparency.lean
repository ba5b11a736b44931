import UnicityNostr.Crypto.KeyAgreement

/-!
# Encryption is transparent

* `Nip44.encryption_domain`: NIP-44 encrypts exactly the messages of 1 to 65535
  bytes, and decrypting undoes it;
* `Nip04.framing_transparent`: NIP-04 decrypts what it encrypts, compressed or
  not, and payloads are taken apart where they were put together.
-/

namespace UnicityNostr

variable {C : Crates}

namespace Nip44

/-- Encryption succeeds on messages of 1 to 65535 bytes, and on no others, and
    decrypting undoes it. -/
theorem encryption_domain (hkdf : C.HkdfExpands) (hseals : C.chacha20Poly1305.Seals)
    (hopens : C.chacha20Poly1305.Opens) (hb : C.base64.RoundTrips)
    (conversationKey : U8Array 32) (nonce : U8Array nonceSize) (m : Bytes) :
    ((∃ p, encryptWithKeyNonce C conversationKey nonce m = .ok p) ↔
      1 ≤ m.length ∧ m.length ≤ 65535) ∧
    ∀ p, encryptWithKeyNonce C conversationKey nonce m = .ok p →
      decryptWithKey C conversationKey p = .ok m :=
  ⟨exists_encrypt_iff hkdf hseals, fun _ hp => decrypt_encrypt hb hopens hp⟩

/-- The longest message. -/
theorem encryption_domain_longest : ∃ p,
    encryptWithKeyNonce Reference.crates (Reference.bytes 32 7) (Reference.bytes 24 9)
      (List.replicate 65535 0x61) = .ok p ∧
    decryptWithKey Reference.crates (Reference.bytes 32 7) p = .ok (List.replicate 65535 0x61) := by
  obtain ⟨hdomain, hdecrypt⟩ := encryption_domain Reference.hkdfExpands
    Reference.chacha20Poly1305_seals Reference.chacha20Poly1305_opens Reference.base64_roundTrips
    (Reference.bytes 32 7) (Reference.bytes 24 9) (List.replicate 65535 0x61)
  obtain ⟨p, hp⟩ := hdomain.2 (by simp only [List.length_replicate]; omega)
  exact ⟨p, hp, hdecrypt p hp⟩

end Nip44

namespace Nip04

variable {G : Type*} [AddCommGroup G] {point : C.k256.PublicKey → G}
  {scalar : C.k256.SecretKey → ℕ} {gen : G} {a b xa xb : U8Array 32}

/-- No payload that is not compressed starts like a compressed one, and every
    other one does. -/
theorem isPrefix_format_iff (hs : C.base64.StandardAlphabet) {ct : Bytes} {iv : U8Array 16}
    {compressed : Bool} :
    compressionPrefix.toList <+: (format C ct iv compressed).toList ↔ compressed = true := by
  have hstrip : stripCompressionPrefix (format C ct iv compressed) = _ :=
    stripCompressionPrefix_format hs
  unfold stripCompressionPrefix at hstrip
  constructor
  · rintro ⟨rest, hrest⟩
    rw [← hrest, List.dropPrefix?_append_of_beq _ (beq_self_eq_true _)] at hstrip
    exact (congrArg Prod.snd hstrip).symm
  · rintro rfl
    rw [format, if_pos rfl, String.toList_append]
    exact List.prefix_append _ _

/-- NIP-04 decrypts what it encrypts, with or without compression. The payload
    with compression is another one, starting with `gz:`, exactly for the messages of
    more than 1024 bytes that compression makes shorter. A payload is never taken
    for a compressed one if it is not, and is split between the ciphertext and the
    initial vector. -/
theorem framing_transparent (hK : Secp.GroupLaws C.k256 point scalar gen)
    (hround : C.base64.RoundTrips) (hs : C.base64.StandardAlphabet) (hc : C.aes256Cbc.Inverts)
    {flate2 : Gzip} (hf : C.flate2 = some flate2) (hg : flate2.Inverts)
    (ha : Secp.xonlyPublicKey C a = .ok xa) (hb : Secp.xonlyPublicKey C b = .ok xb)
    (message : String) (iv : U8Array 16) :
    (∃ p q, encryptWithIv C a xb message iv = .ok p ∧
      encryptAutoWithIv C a xb message iv = .ok q ∧
      decrypt C b xa p = .ok message ∧ decrypt C b xa q = .ok message ∧
      (p ≠ q ↔ Compresses flate2 (utf8 message)) ∧
      (compressionPrefix.toList <+: q.toList ↔ Compresses flate2 (utf8 message))) ∧
    ∀ ct iv compressed,
      (compressionPrefix.toList <+: (format C ct iv compressed).toList ↔ compressed = true) ∧
      (stripCompressionPrefix (format C ct iv compressed)).2 = compressed ∧
      (stripCompressionPrefix (format C ct iv compressed)).1.dropInfix? "?iv=".toList =
        some ((C.base64.encode ct).toList, (C.base64.encode iv.1).toList) := by
  obtain ⟨secret, hsecret, hsecret'⟩ := Secp.deriveSharedSecret_eq_ok hK ha hb
  obtain ⟨data, compressed, hcompress, hiff, hsame, hdata⟩ :=
    compressIfLarge_eq_ok hf hg (utf8 message)
  have hp : encryptWithIv C a xb message iv =
      .ok (format C (aesCbcEncrypt C secret iv (utf8 message)) iv false) := by
    rw [encryptWithIv, hsecret]
    rfl
  have hq : encryptAutoWithIv C a xb message iv =
      .ok (format C (aesCbcEncrypt C secret iv data) iv compressed) := by
    rw [encryptAutoWithIv, hsecret, Except.bind_ok, hcompress]
    rfl
  refine ⟨⟨_, _, hp, hq, decrypt_format hround hs hc hsecret' rfl,
    decrypt_format hround hs hc hsecret' hdata, ?_, (isPrefix_format_iff hs).trans hiff⟩, ?_⟩
  · rw [← hiff]
    constructor
    · intro hne
      by_contra hcompressed
      rw [Bool.not_eq_true] at hcompressed
      rw [hsame hcompressed, hcompressed] at hne
      exact hne rfl
    · rintro rfl heq
      -- Only one of the two starts with the prefix.
      have hprefix : compressionPrefix.toList <+:
          (format C (aesCbcEncrypt C secret iv data) iv true).toList :=
        (isPrefix_format_iff hs).2 rfl
      rw [← heq] at hprefix
      exact absurd ((isPrefix_format_iff hs).1 hprefix) (by decide)
  · intro ct iv compressed
    exact ⟨isPrefix_format_iff hs, by rw [stripCompressionPrefix_format hs], dropInfix?_format hs⟩

/-- A message of 1026 letters, which is compressed, between the secrets 1 and 2. -/
theorem framing_transparent_repeated : ∃ xa xb p q,
    encryptWithIv Secp.SmallCurve.crates (Reference.bytes 32 2) xb
      (String.ofList (List.replicate 1026 'a')) (Reference.bytes 16 5) = .ok p ∧
    encryptAutoWithIv Secp.SmallCurve.crates (Reference.bytes 32 2) xb
      (String.ofList (List.replicate 1026 'a')) (Reference.bytes 16 5) = .ok q ∧
    decrypt Secp.SmallCurve.crates (Reference.bytes 32 1) xa p =
      .ok (String.ofList (List.replicate 1026 'a')) ∧
    decrypt Secp.SmallCurve.crates (Reference.bytes 32 1) xa q =
      .ok (String.ofList (List.replicate 1026 'a')) ∧ p ≠ q := by
  obtain ⟨xa, ha⟩ := Secp.exists_xonlyPublicKey Secp.SmallCurve.groupLaws
    (show Secp.SmallCurve.secret? (Reference.bytes 32 2) = some 1 by decide +kernel)
  obtain ⟨xb, hb⟩ := Secp.exists_xonlyPublicKey Secp.SmallCurve.groupLaws
    (show Secp.SmallCurve.secret? (Reference.bytes 32 1) = some 0 by decide +kernel)
  obtain ⟨⟨p, q, hp, hq, hdp, hdq, hne, -⟩, -⟩ := framing_transparent Secp.SmallCurve.groupLaws
    Reference.base64_roundTrips Reference.base64_standardAlphabet Reference.aes256Cbc_inverts rfl
    Reference.flate2_inverts ha hb (String.ofList (List.replicate 1026 'a')) (Reference.bytes 16 5)
  refine ⟨xa, xb, p, q, hp, hq, hdp, hdq, hne.2 ⟨by decide +kernel, _, rfl, by decide +kernel⟩⟩

end Nip04

end UnicityNostr
