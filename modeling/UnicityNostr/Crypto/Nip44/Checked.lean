import UnicityNostr.Crypto.Nip44.Canonical
import UnicityNostr.Crypto.Nip44.Capacity
import UnicityNostr.Lib.Checked

/-!
# NIP-44 does not panic

Unpadding and decrypting with every access that could panic: they end as the
functions of the model do, whatever the bytes are.

* `calcPaddedLen_computes`: the next power of two of a length within its range is
  a word of 32 bits, and no chunk is empty;
* `unpad_computes`: the message that is cut out ends before the padded length does;
* `decrypt_computes`: decrypting.
-/

namespace UnicityNostr.Nip44

def calcPaddedLenChecked (unpaddedLen : Nat) : Checked Error Nat :=
  if unpaddedLen = 0 then .error (.padding "message too short")
  else if unpaddedLen > maxMessageLen then .error (.padding "message too long")
  else if unpaddedLen ≤ 32 then return 32
  else do
    let nextPow2 ← Checked.fits 32 (nextPowerOfTwo unpaddedLen)
    let eighth ← Checked.shift 32 3 (nextPow2 >>> 3)
    let chunk := max 32 eighth
    let chunks ← Checked.div chunk (divCeil unpaddedLen chunk)
    return chunks * chunk

def unpadChecked (padded : Bytes) : Checked Error Bytes :=
  if padded.length < 2 + minPaddedLen then .error (.padding "padded message too short")
  else do
    let hi ← Checked.index padded 0
    let lo ← Checked.index padded 1
    let high ← Checked.shift 32 8 (hi.toNat <<< 8)
    let len := high ||| lo.toNat
    if len = 0 ∨ len > maxMessageLen then .error (.padding "invalid message length")
    else do
      let expected ← calcPaddedLenChecked len
      if padded.length ≠ 2 + expected then .error (.padding "invalid padding")
      else do
        let message ← Checked.slice padded 2 (2 + len)
        return message

def aeadForChecked (messageKey : U8Array 76) : Option (U8Array 32 × U8Array 12) := do
  let key ← Checked.toArray 32 (← Checked.slice messageKey.1 0 32)
  let nonce ← Checked.toArray 12 (← Checked.slice messageKey.1 32 44)
  return (key, nonce)

def decryptWithKeyChecked (C : Crates) (conversationKey : U8Array 32) (payloadB64 : String) :
    Checked Error Bytes := do
  let payload ← ((C.base64.decode payloadB64).mapError fun e =>
    .decode ("base64: " ++ e) : Result Bytes)
  if payload.length < 1 + nonceSize + minPaddedLen + macSize then
    .error (.malformed "nip44 payload too short")
  else do
    let first ← Checked.index payload 0
    if first ≠ version then .error (.malformed "nip44 unsupported version")
    else do
      let nonce ← Checked.slice payload 1 (1 + nonceSize)
      let ciphertext ← Checked.slice payload (1 + nonceSize) payload.length
      let mk ← deriveMessageKey C conversationKey nonce
      let (key, chachaNonce) ← aeadForChecked mk
      let padded ← (Except.okOr (C.chacha20Poly1305.decrypt key chachaNonce ciphertext)
        (.decrypt "aead: bad tag") : Result Bytes)
      unpadChecked padded

theorem calcPaddedLen_computes (len : Nat) :
    Checked.Computes (calcPaddedLenChecked len) (calcPaddedLen len) := by
  unfold calcPaddedLenChecked calcPaddedLen
  refine Checked.computes_ite (fun _ => Checked.computes_error _) fun _ => ?_
  refine Checked.computes_ite (fun _ => Checked.computes_error _) fun hmax => ?_
  refine Checked.computes_ite (fun _ => Checked.computes_pure _) fun _ => ?_
  have hpow := nextPowerOfTwo_le_two_pow (n := len) (e := 16)
    ((not_lt.1 hmax).trans (by decide))
  refine Checked.computes_access_bind (Checked.fits_eq_some (hpow.trans_lt (by decide))) ?_
  refine Checked.computes_access_bind (Checked.shift_eq_some (by decide) _) ?_
  refine Checked.computes_access_bind (Checked.div_eq_some (by omega) _) ?_
  exact Checked.computes_pure _

theorem unpad_computes (padded : Bytes) :
    Checked.Computes (unpadChecked padded) (unpad padded) := by
  unfold unpadChecked unpad
  refine Checked.computes_ite (fun _ => Checked.computes_error _) fun hshort => ?_
  rw [minPaddedLen] at hshort
  refine Checked.computes_access_bind (Checked.index_eq_some (by omega) 0) ?_
  refine Checked.computes_access_bind (Checked.index_eq_some (by omega) 0) ?_
  refine Checked.computes_access_bind (Checked.shift_eq_some (by decide) _) ?_
  refine Checked.computes_ite (fun _ => Checked.computes_error _) fun _ => ?_
  refine Checked.Computes.bind (calcPaddedLen_computes _) fun expected hexpected => ?_
  refine Checked.computes_ite (fun _ => Checked.computes_error _) fun hlen => ?_
  have hle := (le_calcPaddedLen hexpected).1
  refine Checked.computes_access (Checked.slice_eq_some ?_)
  omega

theorem aeadForChecked_eq (messageKey : U8Array 76) :
    aeadForChecked messageKey = some (aeadFor messageKey) := by
  have hlen := messageKey.2
  rw [aeadForChecked, Checked.bind_of_eq_some (Checked.slice_from_start (by omega)),
    Checked.bind_of_eq_some (Checked.toArray_eq_some (by rw [List.length_take]; omega)),
    Checked.bind_of_eq_some (Checked.slice_eq_some (n := 12) (by omega)),
    Checked.bind_of_eq_some (Checked.toArray_eq_some
      (by rw [List.length_take, List.length_drop]; omega))]
  rfl

variable {C : Crates}

theorem decrypt_computes (ck : U8Array 32) (payloadB64 : String) :
    Checked.Computes (decryptWithKeyChecked C ck payloadB64) (decryptWithKey C ck payloadB64) := by
  unfold decryptWithKeyChecked decryptWithKey
  refine Checked.Computes.bind (Checked.computes_lift _) fun payload _ => ?_
  refine Checked.computes_ite (fun _ => Checked.computes_error _) fun hshort => ?_
  rw [nonceSize, minPaddedLen, macSize] at hshort
  refine Checked.computes_access_bind (Checked.index_eq_some (by omega) 0) ?_
  refine Checked.computes_ite (fun _ => Checked.computes_error _) fun _ => ?_
  refine Checked.computes_access_bind (Checked.slice_eq_some (by rw [nonceSize]; omega)) ?_
  refine Checked.computes_access_bind (Checked.slice_to_end (by rw [nonceSize]; omega)) ?_
  refine Checked.Computes.bind (Checked.computes_lift _) fun mk _ => ?_
  refine Checked.computes_access_bind (aeadForChecked_eq mk) ?_
  refine Checked.Computes.bind (Checked.computes_lift _) fun padded _ => ?_
  exact unpad_computes padded

end UnicityNostr.Nip44
