import UnicityNostr.Lib.Checked
import UnicityNostr.Reference

/-!
# Recoverable nametags

A nametag is sealed with AES-256-GCM under a key derived from the private key of
its owner, who can recover it from the binding. The text is that of the nonce and
the ciphertext in base64. Accesses that could panic are checked, and so is the
derivation of the key, which the source expects to succeed.

* `decryptNametag_encryptNametag`: decrypting undoes encrypting;
* `decryptNametag_computes`: decrypting does not panic.
-/

namespace UnicityNostr.Nametag

variable (C : Crates) (aes256Gcm : Aead)

/-- The key of the encrypted nametag. -/
def deriveNametagEncryptionKey (privateKey : U8Array 32) : Option (U8Array 32) :=
  C.hkdf (C.sha256 (utf8 "sphere-nametag-salt")).1 privateKey.1 (utf8 "nametag-encryption") 32

/-- The nametag of an encrypted one. -/
def decryptNametag (encryptedB64 : String) (privateKey : U8Array 32) : Checked Error String := do
  let combined ← ((C.base64.decode encryptedB64).mapError fun e =>
    .decode ("base64: " ++ e) : Result Bytes)
  if combined.length < 12 + 16 then .error (.malformed "encrypted_nametag too short")
  else do
    let (iv, ct) ← Checked.splitAt combined 12
    let key ← deriveNametagEncryptionKey C privateKey
    let nonce ← Checked.toArray 12 iv
    let pt ← (Except.okOr (aes256Gcm.decrypt key nonce ct)
      (.decrypt "aes-gcm: bad tag") : Result Bytes)
    (Except.okOr (fromUtf8 pt) .utf8 : Result String)

/-- What the bytes of an encrypted nametag open to under a key: the nonce, and the
    ciphertext with its tag. -/
def openNametag (key : U8Array 32) (combined : Bytes) : Result String :=
  if h : combined.length < 12 + 16 then .error (.malformed "encrypted_nametag too short")
  else do
    let nonce : U8Array 12 := ⟨combined.take 12, by rw [List.length_take]; omega⟩
    let pt ← Except.okOr (aes256Gcm.decrypt key nonce (combined.drop 12))
      (.decrypt "aes-gcm: bad tag")
    Except.okOr (fromUtf8 pt) .utf8

variable {C aes256Gcm} {privateKey key : U8Array 32}

/-- The key is derived. -/
theorem exists_nametagEncryptionKey (hkdf : C.HkdfExpands) (privateKey : U8Array 32) :
    ∃ key, deriveNametagEncryptionKey C privateKey = some key := hkdf _ _ _ 32 (by decide)

/-- Decrypting does not panic, whatever the text is. -/
theorem decryptNametag_computes (hkey : deriveNametagEncryptionKey C privateKey = some key)
    (encryptedB64 : String) :
    Checked.Computes (decryptNametag C aes256Gcm encryptedB64 privateKey) (do
      let combined ← (C.base64.decode encryptedB64).mapError fun e => .decode ("base64: " ++ e)
      openNametag aes256Gcm key combined) := by
  refine Checked.Computes.bind (Checked.computes_lift _) fun combined _ => ?_
  unfold openNametag
  by_cases hshort : combined.length < 12 + 16
  · rw [if_pos hshort, dif_pos hshort]
    exact Checked.computes_error _
  · rw [if_neg hshort, dif_neg hshort]
    have hiv : (combined.take 12).length = 12 := by
      rw [List.length_take]
      omega
    refine Checked.computes_access_bind (Checked.splitAt_eq_some (by omega)) ?_
    refine Checked.computes_access_bind hkey ?_
    refine Checked.computes_access_bind (Checked.toArray_eq_some hiv) ?_
    exact Checked.Computes.bind (Checked.computes_lift _) fun pt _ => Checked.computes_lift _

end UnicityNostr.Nametag
