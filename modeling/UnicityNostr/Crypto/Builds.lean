import UnicityNostr.Crypto.KeyAgreement

/-!
# Builds with and without compression

Whether large NIP-04 messages are compressed is a feature of the build, and
`Crates.build` is a build with a compression of its own. What one build encrypts
another one decrypts, unless it is compressed and the other one has no compression.

* `compressIfLarge_spec`: what a build compresses;
* `builds_interoperate`.
-/

namespace UnicityNostr

/-- The build with the compression. -/
def Crates.build (C : Crates) (flate2 : Option Gzip) : Crates := { C with flate2 }

namespace Nip04

variable {C : Crates}

/-- A build compresses the messages that are large and become smaller by it. -/
theorem compressIfLarge_spec (hgzip : ∀ flate2, C.flate2 = some flate2 →
      ∀ m, ∃ c, flate2.gzip m = .ok c) (plaintext : Bytes) :
    (∃ flate2 c, C.flate2 = some flate2 ∧ Compresses flate2 plaintext ∧
      flate2.gzip plaintext = .ok c ∧ compressIfLarge C plaintext = .ok (c, true)) ∨
    ((∀ flate2, C.flate2 = some flate2 → ¬Compresses flate2 plaintext) ∧
      compressIfLarge C plaintext = .ok (plaintext, false)) := by
  cases hf : C.flate2 with
  | none => exact .inr ⟨nofun, by simp only [compressIfLarge, hf]⟩
  | some flate2 =>
    obtain ⟨c, hc⟩ := hgzip flate2 hf plaintext
    by_cases hlarge : plaintext.length > compressionThreshold
    · have hcompress : compressIfLarge C plaintext =
          if c.length < plaintext.length then .ok (c, true) else .ok (plaintext, false) := by
        simp only [compressIfLarge, hf, if_pos hlarge, hc, Except.mapError_ok, Except.bind_ok]
        rfl
      by_cases hsmaller : c.length < plaintext.length
      · rw [if_pos hsmaller] at hcompress
        exact .inl ⟨flate2, c, rfl, ⟨hlarge, c, hc, hsmaller⟩, hc, hcompress⟩
      · rw [if_neg hsmaller] at hcompress
        refine .inr ⟨fun flate2' hsome hcompresses => ?_, hcompress⟩
        obtain rfl := Option.some.inj hsome
        obtain ⟨-, c', hc', hlt⟩ := hcompresses
        obtain rfl := Except.ok.inj (hc.symm.trans hc')
        exact hsmaller hlt
    · refine .inr ⟨fun flate2' hsome hcompresses => hlarge ?_, ?_⟩
      · exact hcompresses.1
      · simp only [compressIfLarge, hf, if_neg hlarge]

/-- What is left to do after a payload has been taken apart and decrypted. -/
theorem decrypt_format_eq (hb : C.base64.RoundTrips) (hs : C.base64.StandardAlphabet)
    (hc : C.aes256Cbc.Inverts) {secret mySecret peerXonly : U8Array 32} {iv : U8Array 16}
    {compressed : Bool} (hsecret : deriveSharedSecret C mySecret peerXonly = .ok secret)
    (data : Bytes) :
    decrypt C mySecret peerXonly (format C (aesCbcEncrypt C secret iv data) iv compressed) =
      (if compressed then decompress C data else pure data) >>= fun plaintext =>
        Except.okOr (fromUtf8 plaintext) .utf8 := by
  have hplain : aesCbcDecrypt C secret iv (aesCbcEncrypt C secret iv data) = .ok data :=
    Except.okOr_eq_ok.2 (hc _ _ _)
  have hcompressed : (stripCompressionPrefix
      (format C (aesCbcEncrypt C secret iv data) iv compressed)).2 = compressed := by
    rw [stripCompressionPrefix_format hs]
  simp only [decrypt, dropInfix?_format hs, hcompressed, Except.okOr_some, Except.bind_ok,
    String.ofList_toList, hb _, Except.mapError_ok, U8Array.ofBytes?_val, hsecret, hplain]
  cases compressed with
  | true => rfl
  | false => rfl

variable {G : Type*} [AddCommGroup G] {point : C.k256.PublicKey → G}
  {scalar : C.k256.SecretKey → ℕ} {gen : G} {a b xa xb : U8Array 32}

/-- What one build encrypts another one decrypts, and without compression it is the
    payload that every build makes. The exception is a receiver without compression, which
    fails on exactly the messages that the sender compresses. The receiver has to
    decompress what the sender compresses. -/
theorem builds_interoperate (hK : Secp.GroupLaws C.k256 point scalar gen)
    (hround : C.base64.RoundTrips) (hs : C.base64.StandardAlphabet) (hc : C.aes256Cbc.Inverts)
    {sender receiver : Option Gzip}
    (hgzip : ∀ flate2, sender = some flate2 → ∀ m, ∃ c, flate2.gzip m = .ok c)
    (hgunzip : ∀ flate2 flate2', sender = some flate2 → receiver = some flate2' →
      ∀ m c, flate2.gzip m = .ok c → flate2'.gunzip c = .ok m)
    (ha : Secp.xonlyPublicKey C a = .ok xa) (hb : Secp.xonlyPublicKey C b = .ok xb)
    (message : String) (iv : U8Array 16) :
    ∃ p, encryptAutoWithIv (C.build sender) a xb message iv = .ok p ∧
      ((∃ flate2, sender = some flate2 ∧ Compresses flate2 (utf8 message)) →
        decrypt (C.build receiver) b xa p = if receiver.isSome then .ok message
          else .error (.gzip "gzip feature disabled")) ∧
      ((¬∃ flate2, sender = some flate2 ∧ Compresses flate2 (utf8 message)) →
        encryptWithIv (C.build receiver) a xb message iv = .ok p ∧
          decrypt (C.build receiver) b xa p = .ok message) := by
  obtain ⟨secret, hsecret, hsecret'⟩ := Secp.deriveSharedSecret_eq_ok hK ha hb
  have hencrypt : ∀ {data compressed},
      compressIfLarge (C.build sender) (utf8 message) = .ok (data, compressed) →
      encryptAutoWithIv (C.build sender) a xb message iv =
        .ok (format C (aesCbcEncrypt C secret iv data) iv compressed) := by
    intro data compressed hcompress
    rw [encryptAutoWithIv, show deriveSharedSecret (C.build sender) a xb = _ from hsecret,
      Except.bind_ok, hcompress]
    rfl
  have hdecrypt : ∀ data compressed, decrypt (C.build receiver) b xa
      (format C (aesCbcEncrypt C secret iv data) iv compressed) = _ :=
    fun data compressed => decrypt_format_eq (C := C.build receiver) hround hs hc hsecret' data
  rcases compressIfLarge_spec (C := C.build sender) hgzip (utf8 message) with
    ⟨flate2, c, hsender, hcompresses, hgz, hcompress⟩ | ⟨hnone, hcompress⟩
  · refine ⟨_, hencrypt hcompress, fun _ => ?_, fun h => absurd ⟨flate2, hsender, hcompresses⟩ h⟩
    rw [hdecrypt, if_pos rfl]
    cases receiver with
    | none => rfl
    | some flate2' =>
      have hdecompress : decompress (C.build (some flate2')) c = .ok (utf8 message) := by
        rw [decompress, Crates.build]
        simp only [hgunzip flate2 flate2' hsender rfl _ _ hgz, Except.mapError_ok]
      rw [hdecompress, Except.bind_ok, fromUtf8_utf8]
      rfl
  · refine ⟨_, hencrypt hcompress, fun h => ?_, fun _ => ⟨?_, ?_⟩⟩
    · obtain ⟨flate2, hsender, hcompresses⟩ := h
      exact absurd hcompresses (hnone flate2 hsender)
    · rw [encryptWithIv, show deriveSharedSecret (C.build receiver) a xb = _ from hsecret]
      rfl
    · rw [hdecrypt]
      simp only [Bool.false_eq_true, if_false, pure, Except.pure, Except.bind_ok, fromUtf8_utf8,
        Except.okOr_some]

/-- A message of 1026 letters, which is compressed, between the secrets 1 and 2. -/
theorem builds_interoperate_repeated : ∃ xa xb p,
    encryptAutoWithIv (Secp.SmallCurve.crates.build (some Reference.flate2)) (Reference.bytes 32 2)
      xb (String.ofList (List.replicate 1026 'a')) (Reference.bytes 16 5) = .ok p ∧
    decrypt (Secp.SmallCurve.crates.build (some Reference.flate2)) (Reference.bytes 32 1) xa p =
      .ok (String.ofList (List.replicate 1026 'a')) ∧
    decrypt (Secp.SmallCurve.crates.build none) (Reference.bytes 32 1) xa p =
      .error (.gzip "gzip feature disabled") := by
  obtain ⟨xa, ha⟩ := Secp.exists_xonlyPublicKey Secp.SmallCurve.groupLaws
    (show Secp.SmallCurve.secret? (Reference.bytes 32 2) = some 1 by decide +kernel)
  obtain ⟨xb, hb⟩ := Secp.exists_xonlyPublicKey Secp.SmallCurve.groupLaws
    (show Secp.SmallCurve.secret? (Reference.bytes 32 1) = some 0 by decide +kernel)
  have hgzip : ∀ flate2, some Reference.flate2 = some flate2 →
      ∀ m, ∃ c, flate2.gzip m = .ok c := by
    rintro flate2 ⟨⟩ m
    obtain ⟨c, hc, -⟩ := Reference.flate2_inverts m
    exact ⟨c, hc⟩
  have hgunzip : ∀ flate2 flate2', some Reference.flate2 = some flate2 →
      some Reference.flate2 = some flate2' →
      ∀ m c, flate2.gzip m = .ok c → flate2'.gunzip c = .ok m := by
    rintro flate2 flate2' ⟨⟩ ⟨⟩ m c h
    obtain ⟨c', hc', hgunzip⟩ := Reference.flate2_inverts m
    obtain rfl := Except.ok.inj (hc'.symm.trans h)
    exact hgunzip
  have hnone : ∀ flate2 flate2', some Reference.flate2 = some flate2 →
      (none : Option Gzip) = some flate2' →
      ∀ m c, flate2.gzip m = .ok c → flate2'.gunzip c = .ok m := fun _ _ _ h => nomatch h
  have hcompresses : ∃ flate2, some Reference.flate2 = some flate2 ∧
      Compresses flate2 (utf8 (String.ofList (List.replicate 1026 'a'))) :=
    ⟨_, rfl, by decide +kernel, _, rfl, by decide +kernel⟩
  obtain ⟨p, hp, hwith, -⟩ := builds_interoperate Secp.SmallCurve.groupLaws
    Reference.base64_roundTrips Reference.base64_standardAlphabet Reference.aes256Cbc_inverts hgzip
    hgunzip ha hb (String.ofList (List.replicate 1026 'a')) (Reference.bytes 16 5)
  obtain ⟨p', hp', hwithout, -⟩ := builds_interoperate Secp.SmallCurve.groupLaws
    Reference.base64_roundTrips Reference.base64_standardAlphabet Reference.aes256Cbc_inverts hgzip
    hnone ha hb (String.ofList (List.replicate 1026 'a')) (Reference.bytes 16 5)
  obtain rfl := Except.ok.inj (hp.symm.trans hp')
  exact ⟨xa, xb, p, hp, hwith hcompresses, hwithout hcompresses⟩

end Nip04

end UnicityNostr
