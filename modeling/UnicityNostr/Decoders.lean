import UnicityNostr.Crypto.Bech32.Checked
import UnicityNostr.Crypto.Nip44.Checked
import UnicityNostr.Nametag.Encryption

/-!
# Decoders of untrusted text

What a relay or a peer chooses, every byte of it, is decoded to a result or an
error: no access of the decoders is out of range (`decoders_never_panic`).
-/

namespace UnicityNostr

variable {C : Crates}

/-- Whatever the texts, the bytes and the keys are, decoding does not panic, and ends
    as the decoders of the model do; nor does encoding, under any prefix. -/
theorem decoders_never_panic (hkdf : C.HkdfExpands) (aes256Gcm : Aead) :
    (∀ s, Checked.Computes (Bech32.decodeChecked s) (Bech32.decode s)) ∧
    (∀ conversationKey payloadB64,
      Checked.Computes (Nip44.decryptWithKeyChecked C conversationKey payloadB64)
        (Nip44.decryptWithKey C conversationKey payloadB64)) ∧
    (∀ padded, Checked.Computes (Nip44.unpadChecked padded) (Nip44.unpad padded)) ∧
    (∀ encryptedB64 privateKey, ∃ r,
      Checked.Computes (Nametag.decryptNametag C aes256Gcm encryptedB64 privateKey) r) ∧
    ∀ hrp data, Checked.Computes (Bech32.encodeChecked hrp data) (Bech32.encode hrp data) := by
  refine ⟨Bech32.decode_computes, Nip44.decrypt_computes, Nip44.unpad_computes, ?_,
    Bech32.encode_computes⟩
  intro encryptedB64 privateKey
  obtain ⟨key, hkey⟩ := Nametag.exists_nametagEncryptionKey hkdf privateKey
  exact ⟨_, Nametag.decryptNametag_computes hkey encryptedB64⟩

/-- A payload or nametag text of 99 bytes, the first of which is the version of NIP-44. -/
def unopenable : String := String.join ("AgEB" :: List.replicate 32 "AQEB")

/-- A text outside of ASCII, a payload that does not open, a padded message that claims
    more than it has, a nametag text that does not open, and a prefix outside of ASCII. -/
theorem decoders_never_panic_short :
    (Bech32.decodeChecked "é1é").run = some (.error (.malformed "bech32 length")) ∧
    (Nip44.decryptWithKeyChecked Reference.crates (Reference.bytes 32 7) unopenable).run =
      some (.error (.decrypt "aead: bad tag")) ∧
    (Nip44.unpadChecked (0xff :: 0xff :: List.replicate 32 0)).run =
      some (.error (.padding "invalid padding")) ∧
    (Nametag.decryptNametag Reference.crates Reference.chacha20Poly1305 unopenable
      (Reference.bytes 32 7)).run ≠ none ∧
    (Bech32.encodeChecked "é" [0xff]).run = some (Bech32.encode "é" [0xff]) := by
  obtain ⟨hdecode, hdecrypt, hunpad, hnametag, hencode⟩ :=
    decoders_never_panic Reference.hkdfExpands Reference.chacha20Poly1305
  obtain ⟨r, hr⟩ := hnametag unopenable (Reference.bytes 32 7)
  refine ⟨(hdecode _).trans (congrArg some ?_), (hdecrypt _ _).trans (congrArg some ?_),
    (hunpad _).trans (congrArg some ?_), ?_, hencode _ _⟩
  · decide +kernel
  · decide +kernel
  · decide +kernel
  · rw [show Checked.run _ = some r from hr]
    exact Option.some_ne_none r

end UnicityNostr
