import Mathlib.Data.List.Basic
import UnicityNostr.Crypto.Secp

/-!
# NIP-04, the Unicity variant

A message is encrypted with AES-256-CBC under the hash of the shared
x-coordinate. The payload is the ciphertext and the initial vector, in base64,
with `?iv=` between them. If the feature `gzip` is on, messages of more than 1024
bytes that become shorter by it are compressed first, and the payload starts with
`gz:`.

* `stripCompressionPrefix_format`, `dropInfix?_format`: a payload is taken apart
  as it was put together;
* `decrypt_format`: decrypting it gives the message back.
-/

namespace UnicityNostr.Nip04

def compressionThreshold : Nat := 1024
def compressionPrefix : String := "gz:"

variable (C : Crates)

/-- The shared secret of a secret and a peer: the AES-256 key. -/
def deriveSharedSecret (mySecret peerXonly : U8Array 32) : Result (U8Array 32) := do
  let x ← Secp.ecdhX C mySecret peerXonly
  return C.sha256 x.1

def aesCbcEncrypt (key : U8Array 32) (iv : U8Array 16) (plaintext : Bytes) : Bytes :=
  C.aes256Cbc.encrypt key iv plaintext

def aesCbcDecrypt (key : U8Array 32) (iv : U8Array 16) (ciphertext : Bytes) : Result Bytes :=
  Except.okOr (C.aes256Cbc.decrypt key iv ciphertext) (.decrypt "cbc padding")

/-! ## Compression -/

/-- The message compressed, if it is large and that makes it smaller, and whether
    it is. -/
def compressIfLarge (plaintext : Bytes) : Result (Bytes × Bool) :=
  match C.flate2 with
  | none => .ok (plaintext, false)
  | some flate2 =>
    if plaintext.length > compressionThreshold then do
      let c ← (flate2.gzip plaintext).mapError Error.gzip
      if c.length < plaintext.length then return (c, true) else return (plaintext, false)
    else .ok (plaintext, false)

def decompress (data : Bytes) : Result Bytes :=
  match C.flate2 with
  | none => .error (.gzip "gzip feature disabled")
  | some flate2 => (flate2.gunzip data).mapError Error.gzip

/-! ## Payloads -/

/-- The payload of a ciphertext and its initial vector. -/
def format (ciphertext : Bytes) (iv : U8Array 16) (compressed : Bool) : String :=
  let body := C.base64.encode ciphertext ++ "?iv=" ++ C.base64.encode iv.1
  if compressed then compressionPrefix ++ body else body

/-- Encryption without compression. -/
def encryptWithIv (mySecret peerXonly : U8Array 32) (message : String) (iv : U8Array 16) :
    Result String := do
  let secret ← deriveSharedSecret C mySecret peerXonly
  let ct := aesCbcEncrypt C secret iv (utf8 message)
  return format C ct iv false

/-- Encryption, with compression of large messages. -/
def encryptAutoWithIv (mySecret peerXonly : U8Array 32) (message : String) (iv : U8Array 16) :
    Result String := do
  let secret ← deriveSharedSecret C mySecret peerXonly
  let (data, compressed) ← compressIfLarge C (utf8 message)
  let ct := aesCbcEncrypt C secret iv data
  return format C ct iv compressed

/-- What follows the prefix of a compressed payload, or the whole payload, and
    whether it is compressed. -/
def stripCompressionPrefix (payload : String) : List Char × Bool :=
  match payload.toList.dropPrefix? compressionPrefix.toList with
  | some rest => (rest, true)
  | none => (payload.toList, false)

/-- The message of a payload. -/
def decrypt (mySecret peerXonly : U8Array 32) (payload : String) : Result String := do
  let (content, compressed) := stripCompressionPrefix payload
  let (ctB64, ivB64) ← Except.okOr (content.dropInfix? "?iv=".toList)
    (.malformed "nip04 missing ?iv=")
  let ct ← (C.base64.decode (.ofList ctB64)).mapError fun e => .decode ("base64 ct: " ++ e)
  let ivVec ← (C.base64.decode (.ofList ivB64)).mapError fun e => .decode ("base64 iv: " ++ e)
  let iv ← Except.okOr (U8Array.ofBytes? 16 ivVec) (.invalidLength "iv != 16")
  let secret ← deriveSharedSecret C mySecret peerXonly
  let plaintext ← aesCbcDecrypt C secret iv ct
  let plaintext ← if compressed then decompress C plaintext else pure plaintext
  Except.okOr (fromUtf8 plaintext) .utf8

/-- A message is compressed: it is large, and that makes it smaller. -/
def Compresses (flate2 : Gzip) (message : Bytes) : Prop :=
  1024 < message.length ∧
    ∃ c, flate2.gzip message = .ok c ∧ c.length < message.length

variable {C}

/-! ## Taking payloads apart -/

/-- The first separator is found where no earlier one can start. -/
theorem dropInfix?_append {α : Type*} [BEq α] [LawfulBEq α] {as bs sep : List α} {x : α}
    (h : ∀ a ∈ as, a ≠ x) : (as ++ x :: sep ++ bs).dropInfix? (x :: sep) = some (as, bs) := by
  rw [List.dropInfix?_eq_some_iff]
  refine ⟨⟨x :: sep, by simp, by simp⟩, ?_⟩
  intro p i s heq hi
  obtain rfl := eq_of_beq hi
  by_contra hlt
  -- An earlier separator would start inside `as`.
  have hget := congrArg (fun l => l[p.length]?) heq
  have hmem : x ∈ as := by
    refine List.mem_of_getElem? (i := p.length) ?_
    simpa [List.getElem?_append_left (not_le.1 hlt)] using hget
  exact h x hmem rfl

variable {ct : Bytes} {iv : U8Array 16} {compressed : Bool}

theorem toList_body : (C.base64.encode ct ++ "?iv=" ++ C.base64.encode iv.1).toList =
    (C.base64.encode ct).toList ++ '?' :: ['i', 'v', '='] ++ (C.base64.encode iv.1).toList := by
  rw [String.toList_append, String.toList_append]
  rfl

/-- Base64 has neither `:` nor `?`. -/
theorem ne_of_mem_encode (hs : C.base64.StandardAlphabet) {c : Char} {bs : Bytes}
    (h : c ∈ (C.base64.encode bs).toList) : c ≠ ':' ∧ c ≠ '?' := by
  have hstandard := hs bs c h
  constructor
  · rintro rfl
    exact absurd hstandard (by decide)
  · rintro rfl
    exact absurd hstandard (by decide)

/-- A payload is taken for a compressed one if it is one, and what is left of it
    is the body. -/
theorem stripCompressionPrefix_format (hs : C.base64.StandardAlphabet) :
    stripCompressionPrefix (format C ct iv compressed) =
      ((C.base64.encode ct ++ "?iv=" ++ C.base64.encode iv.1).toList, compressed) := by
  cases compressed with
  | true =>
    rw [stripCompressionPrefix, format, if_pos rfl, String.toList_append,
      List.dropPrefix?_append_of_beq _ (beq_self_eq_true _)]
  | false =>
    have hnone : (C.base64.encode ct ++ "?iv=" ++ C.base64.encode iv.1).toList.dropPrefix?
        compressionPrefix.toList = none := by
      rw [Option.eq_none_iff_forall_ne_some]
      intro rest hrest
      obtain ⟨p, heq, hp⟩ := List.dropPrefix?_eq_some_iff.1 hrest
      obtain rfl := eq_of_beq hp
      -- No part of the body has the `:` of the prefix.
      have hmem : ':' ∈ (C.base64.encode ct).toList ++ '?' :: ['i', 'v', '='] ++
          (C.base64.encode iv.1).toList := by
        rw [← toList_body, heq]
        simp [compressionPrefix]
      simp only [List.mem_append, List.mem_cons, List.not_mem_nil] at hmem
      rcases hmem with (hct | hsep) | hiv
      · exact (ne_of_mem_encode hs hct).1 rfl
      · revert hsep
        decide
      · exact (ne_of_mem_encode hs hiv).1 rfl
    rw [stripCompressionPrefix, format, if_neg (by decide), hnone]

/-- The separator found is the one between the ciphertext and the initial
    vector. -/
theorem dropInfix?_format (hs : C.base64.StandardAlphabet) :
    (stripCompressionPrefix (format C ct iv compressed)).1.dropInfix? "?iv=".toList =
      some ((C.base64.encode ct).toList, (C.base64.encode iv.1).toList) := by
  rw [stripCompressionPrefix_format hs, toList_body]
  exact dropInfix?_append fun c hc => (ne_of_mem_encode hs hc).2

/-! ## Decryption -/

/-- Decrypting a payload undoes its framing, the encryption, and the
    compression. -/
theorem decrypt_format (hb : C.base64.RoundTrips) (hs : C.base64.StandardAlphabet)
    (hc : C.aes256Cbc.Inverts) {secret mySecret peerXonly : U8Array 32}
    (hsecret : deriveSharedSecret C mySecret peerXonly = .ok secret) {message : String}
    {data : Bytes} (hdata : (if compressed then decompress C data else pure data) =
      .ok (utf8 message)) :
    decrypt C mySecret peerXonly (format C (aesCbcEncrypt C secret iv data) iv compressed) =
      .ok message := by
  have hplain : aesCbcDecrypt C secret iv (aesCbcEncrypt C secret iv data) = .ok data :=
    Except.okOr_eq_ok.2 (hc _ _ _)
  have hcompressed : (stripCompressionPrefix
      (format C (aesCbcEncrypt C secret iv data) iv compressed)).2 = compressed := by
    rw [stripCompressionPrefix_format hs]
  simp only [decrypt, dropInfix?_format hs, hcompressed, Except.okOr_some, Except.bind_ok,
    String.ofList_toList, hb _, Except.mapError_ok, U8Array.ofBytes?_val, hsecret, hplain]
  split_ifs at hdata ⊢
  · rw [hdata, Except.bind_ok, fromUtf8_utf8, Except.okOr_some]
  · rw [hdata, Except.bind_ok, fromUtf8_utf8, Except.okOr_some]

/-- What `compressIfLarge` does if the feature is on: it compresses exactly the
    messages it makes smaller, and decompressing undoes it. -/
theorem compressIfLarge_eq_ok {flate2 : Gzip} (hf : C.flate2 = some flate2) (hg : flate2.Inverts)
    (plaintext : Bytes) : ∃ data compressed, compressIfLarge C plaintext = .ok (data, compressed) ∧
      (compressed = true ↔ Compresses flate2 plaintext) ∧
      (compressed = false → data = plaintext) ∧
      (if compressed then decompress C data else pure data) = .ok plaintext := by
  obtain ⟨c, hgzip, hgunzip⟩ := hg plaintext
  have hlen : Compresses flate2 plaintext ↔
      compressionThreshold < plaintext.length ∧ c.length < plaintext.length :=
    and_congr_right fun _ => ⟨fun ⟨c', hc', hlt⟩ => Except.ok.inj (hc'.symm.trans hgzip) ▸ hlt,
      fun hlt => ⟨c, hgzip, hlt⟩⟩
  by_cases hlarge : plaintext.length > compressionThreshold
  · by_cases hsmaller : c.length < plaintext.length
    · refine ⟨c, true, ?_, iff_of_true rfl (hlen.2 ⟨hlarge, hsmaller⟩), nofun, ?_⟩
      · simp only [compressIfLarge, hf, if_pos hlarge, hgzip, Except.mapError_ok, Except.bind_ok,
          if_pos hsmaller]
        rfl
      · simp only [if_true, decompress, hf, hgunzip, Except.mapError_ok]
    · refine ⟨plaintext, false, ?_, iff_of_false nofun fun h => hsmaller (hlen.1 h).2,
        fun _ => rfl, rfl⟩
      simp only [compressIfLarge, hf, if_pos hlarge, hgzip, Except.mapError_ok, Except.bind_ok,
        if_neg hsmaller]
      rfl
  · refine ⟨plaintext, false, ?_, iff_of_false nofun fun h => hlarge (hlen.1 h).1, fun _ => rfl,
      rfl⟩
    simp only [compressIfLarge, hf, if_neg hlarge]

end UnicityNostr.Nip04
