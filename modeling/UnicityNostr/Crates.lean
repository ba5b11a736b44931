import Mathlib.Algebra.BigOperators.Group.List.Basic
import UnicityNostr.Lib.Json
import UnicityNostr.Lib.Unicode

/-!
# The crates the SDK is built on

The SDK leaves hashing, the curve, the ciphers, the text encodings and the JSON
texts to third-party crates. They are parameters of the model (`Crates`): what
is defined and proved here holds whatever they compute. Where a result relies on
what a crate documents, it says so by one of the laws below as a hypothesis:

* `TextCodec.RoundTrips`: what `hex` or `base64` encodes, it decodes;
* `TextCodec.TwoDigits`, `TextCodec.Alphanumeric`: `hex` writes two digits for a
  byte, which are letters and decimal digits;
* `TextCodec.IgnoresCase`: `hex` reads digits of both cases;
* `SerdeJson.RoundTrips`: the text `serde_json` writes for a document reads back
  as the document;
* `SerdeJson.Compact`: that text is the compact one;
* `TextCodec.StandardAlphabet`: `base64` writes its standard alphabet and `=`;
* `TextCodec.FourForThree`: it writes four characters for three bytes, or what is
  left of them;
* `TextCodec.Canonical`: it reads only what it writes;
* `Aead.Opens`: opening undoes sealing under the same key and nonce, and the
  ciphertext is longer by the tag;
* `Aead.OpensOnlySealed`: nothing else is opened;
* `Aead.Seals`, `Crates.HkdfExpands`: sealing and key derivation succeed within
  their limits of length;
* `Cbc.Inverts`, `Gzip.Inverts`: decrypting undoes encrypting, decompressing
  undoes compressing, and compressing into memory succeeds;
* `K256.VerifiesSigned`: a signature verifies under the key of its signer.

So are the tables of the Unicode character database, which depend on the version
of the standard library (`Unicode.CaseTables`).

Fixed-size byte arrays (`U8Array`) carry their length.
-/

namespace UnicityNostr

/-! ## Bytes -/

/-- A byte string. -/
abbrev Bytes := List UInt8

/-- A byte string of length `n`: `[u8; n]`. -/
abbrev U8Array (n : Nat) := {bs : Bytes // bs.length = n}

/-- A byte string as an array of length `n`, if it has that length: `try_into`. -/
def U8Array.ofBytes? (n : Nat) (bs : Bytes) : Option (U8Array n) :=
  if h : bs.length = n then some ⟨bs, h⟩ else none

@[simp] theorem U8Array.ofBytes?_val {n : Nat} (bs : U8Array n) :
    U8Array.ofBytes? n bs.1 = some bs := by
  simp [U8Array.ofBytes?, bs.2]

theorem U8Array.ofBytes?_eq_some {n : Nat} {bs : Bytes} {a : U8Array n} :
    U8Array.ofBytes? n bs = some a ↔ bs = a.1 := by
  constructor
  · intro h
    unfold U8Array.ofBytes? at h
    split at h
    · rw [← Option.some.inj h]
    · cases h
  · rintro rfl
    exact U8Array.ofBytes?_val a

/-- The UTF-8 encoding of a string: `as_bytes`. -/
def utf8 (s : String) : Bytes := s.toByteArray.data.toList

/-- The string of a UTF-8 encoding: `from_utf8`. -/
def fromUtf8 (bs : Bytes) : Option String := String.fromUTF8? ⟨bs.toArray⟩

@[simp] theorem fromUtf8_utf8 (s : String) : fromUtf8 (utf8 s) = some s := by
  have h : (⟨(utf8 s).toArray⟩ : ByteArray) = s.toByteArray := by
    rw [utf8, Array.toArray_toList]
  rw [fromUtf8, h, String.fromUTF8?, dif_pos s.isValidUTF8]
  rfl

theorem utf8_injective : Function.Injective utf8 := fun s s' h => by
  have hs := fromUtf8_utf8 s
  rw [h, fromUtf8_utf8] at hs
  exact (Option.some.inj hs).symm

theorem utf8_eq_flatMap (s : String) : utf8 s = s.toList.flatMap String.utf8EncodeChar := by
  obtain ⟨cs, rfl⟩ : ∃ cs, s = String.ofList cs := ⟨s.toList, String.ofList_toList.symm⟩
  rw [String.toList_ofList, utf8, String.toByteArray_ofList, List.utf8Encode,
    List.data_toByteArray]

theorem utf8_append (s s' : String) : utf8 (s ++ s') = utf8 s ++ utf8 s' := by
  rw [utf8_eq_flatMap, String.toList_append, List.flatMap_append, ← utf8_eq_flatMap,
    ← utf8_eq_flatMap]

/-- The bytes of a string are those of its characters. -/
theorem length_utf8_eq_sum (s : String) : (utf8 s).length = (s.toList.map Char.utf8Size).sum := by
  rw [utf8_eq_flatMap, List.length_flatMap]
  simp only [String.length_utf8EncodeChar]

/-- Every character takes at least one. -/
theorem le_length_utf8 (s : String) : s.toList.length ≤ (utf8 s).length := by
  have hle := List.length_le_sum_of_one_le (s.toList.map Char.utf8Size) fun n hn => by
    obtain ⟨c, -, rfl⟩ := List.mem_map.1 hn
    exact c.utf8Size_pos
  rwa [List.length_map, ← length_utf8_eq_sum] at hle

/-- A character of ASCII takes one. -/
theorem sum_utf8Size_of_ascii {cs : List Char} (h : ∀ c ∈ cs, c.toNat < 128) :
    (cs.map Char.utf8Size).sum = cs.length := by
  have hone : cs.map Char.utf8Size = cs.map fun _ => 1 := List.map_congr_left fun c hc =>
    Char.utf8Size_eq_one_iff.2 (UInt32.le_iff_toNat_le.2 (Nat.le_of_lt_succ (h c hc)))
  rw [hone, List.map_const', List.sum_replicate_nat, Nat.mul_one]

/-! ## Errors -/

/-- The errors of the protocol layer. -/
inductive Error
  /-- A key, nonce, IV, or other byte input had the wrong length. -/
  | invalidLength (what : String)
  /-- A curve operation failed. -/
  | secp (what : String)
  /-- Decryption failed. -/
  | decrypt (what : String)
  /-- NIP-44 padding was malformed. -/
  | padding (what : String)
  /-- Base64, hex or JSON decode failure. -/
  | decode (what : String)
  /-- The wire format was not what was expected. -/
  | malformed (what : String)
  /-- GZIP failure. -/
  | gzip (what : String)
  /-- A plaintext was no UTF-8. -/
  | utf8
  deriving DecidableEq

/-- The results of the protocol layer. -/
abbrev Result := Except Error

/-! ## Crates -/

/-- An encoding of byte strings as text. A decoding error comes with its
    message. -/
structure TextCodec where
  encode : Bytes → String
  decode : String → Except String Bytes

/-- An AEAD cipher without associated data, of 32-byte keys and 12-byte nonces. -/
structure Aead where
  encrypt : U8Array 32 → U8Array 12 → Bytes → Option Bytes
  decrypt : U8Array 32 → U8Array 12 → Bytes → Option Bytes

/-- A block cipher in CBC mode with padding, of 32-byte keys and 16-byte initial
    vectors. -/
structure Cbc where
  encrypt : U8Array 32 → U8Array 16 → Bytes → Bytes
  decrypt : U8Array 32 → U8Array 16 → Bytes → Option Bytes

/-- Compression. An error comes with its message. -/
structure Gzip where
  gzip : Bytes → Except String Bytes
  gunzip : Bytes → Except String Bytes

/-- `serde_json`: the text of a document, and the document of a text or of its
    bytes, or the message of the error. A document that does not fit the type
    asked for gets the message `dataError`. -/
structure SerdeJson where
  toString : Json → String
  fromStr : String → Except String Json
  fromSlice : Bytes → Except String Json
  dataError : Json → String

/-- `k256`: BIP-340 signatures, and the points of secp256k1. -/
structure K256 where
  SigningKey : Type
  VerifyingKey : Type
  Signature : Type
  SecretKey : Type
  PublicKey : Type
  /-- `SigningKey::from_bytes` -/
  signingKey : U8Array 32 → Option SigningKey
  /-- `SigningKey::verifying_key`, `VerifyingKey::to_bytes` -/
  verifyingKeyBytes : SigningKey → U8Array 32
  /-- `SigningKey::sign_raw`: of a message, with auxiliary randomness. -/
  signRaw : SigningKey → U8Array 32 → U8Array 32 → Option (U8Array 64)
  /-- `VerifyingKey::from_bytes` -/
  verifyingKey : U8Array 32 → Option VerifyingKey
  /-- `Signature::try_from` -/
  signature : U8Array 64 → Option Signature
  /-- `VerifyingKey::verify_raw` -/
  verifyRaw : VerifyingKey → U8Array 32 → Signature → Bool
  /-- `SecretKey::from_slice` -/
  secretKey : U8Array 32 → Option SecretKey
  /-- `SecretKey::public_key` -/
  publicKey : SecretKey → PublicKey
  /-- `ToEncodedPoint::to_encoded_point`, `EncodedPoint::x` -/
  x : PublicKey → Option (U8Array 32)
  /-- `PublicKey::from_sec1_bytes`, of a compressed point. -/
  fromSec1 : U8Array 33 → Option PublicKey
  /-- `diffie_hellman`, `SharedSecret::raw_secret_bytes` -/
  diffieHellman : SecretKey → PublicKey → U8Array 32

/-- The crates the SDK is built on. -/
structure Crates where
  k256 : K256
  /-- `Sha256::digest` -/
  sha256 : Bytes → U8Array 32
  /-- `Hkdf::<Sha256>`: extraction with a salt from key material, and expansion
      with an info to a number of bytes. -/
  hkdf : (salt ikm info : Bytes) → (n : Nat) → Option (U8Array n)
  chacha20Poly1305 : Aead
  /-- `Encryptor::<Aes256>`, `Decryptor::<Aes256>`, with `Pkcs7` padding -/
  aes256Cbc : Cbc
  /-- `GzEncoder`, `GzDecoder`, if the feature `gzip` is on. -/
  flate2 : Option Gzip
  hex : TextCodec
  base64 : TextCodec
  json : SerdeJson
  unicode : Unicode.CaseTables

/-! ## Laws -/

/-- What is encoded decodes to itself. -/
def TextCodec.RoundTrips (c : TextCodec) : Prop := ∀ bs, c.decode (c.encode bs) = .ok bs

/-- Every byte is encoded as two digits. -/
def TextCodec.TwoDigits (c : TextCodec) : Prop :=
  ∀ bs, (c.encode bs).toList.length = 2 * bs.length

/-- Only letters and decimal digits are written. -/
def TextCodec.Alphanumeric (c : TextCodec) : Prop :=
  ∀ bs, ∀ ch ∈ (c.encode bs).toList, ch.isAlphanum = true

/-- What is read is what is written, up to the case of the letters: digits of both
    cases are read, and lower-case ones are written. -/
def TextCodec.IgnoresCase (c : TextCodec) : Prop :=
  ∀ s bs, c.decode s = .ok bs ↔ c.encode bs = Unicode.toAsciiLowercase s

/-- Only the 64 digits and the padding are written. -/
def TextCodec.StandardAlphabet (c : TextCodec) : Prop :=
  ∀ bs, ∀ ch ∈ (c.encode bs).toList,
    (ch.isAlphanum || ch == '+' || ch == '/' || ch == '=') = true

/-- Every three bytes are written as four characters, and so is what is left of them,
    with padding. -/
def TextCodec.FourForThree (c : TextCodec) : Prop :=
  ∀ bs, (c.encode bs).toList.length = 4 * ((bs.length + 2) / 3)

/-- Only what is written is read. -/
def TextCodec.Canonical (c : TextCodec) : Prop := ∀ s bs, c.decode s = .ok bs → c.encode bs = s

/-- Opening undoes sealing under the same key and nonce, and the ciphertext is
    16 bytes longer than the plaintext. -/
def Aead.Opens (a : Aead) : Prop :=
  ∀ k n m c, a.encrypt k n m = some c → a.decrypt k n c = some m ∧ c.length = m.length + 16

/-- Only what sealing makes under the same key and nonce opens. -/
def Aead.OpensOnlySealed (a : Aead) : Prop :=
  ∀ k n c m, a.decrypt k n c = some m → a.encrypt k n m = some c

/-- Messages of fewer than 2 ^ 32 - 1 blocks are sealed. -/
def Aead.Seals (a : Aead) : Prop :=
  ∀ k n m, m.length < 64 * (2 ^ 32 - 1) → ∃ c, a.encrypt k n m = some c

/-- Up to 255 hashes are derived. -/
def Crates.HkdfExpands (C : Crates) : Prop :=
  ∀ salt ikm info n, n ≤ 255 * 32 → ∃ okm, C.hkdf salt ikm info n = some okm

/-- Decrypting undoes encrypting under the same key and initial vector. -/
def Cbc.Inverts (a : Cbc) : Prop := ∀ k iv m, a.decrypt k iv (a.encrypt k iv m) = some m

/-- Everything is compressed, and decompressing undoes it. -/
def Gzip.Inverts (g : Gzip) : Prop := ∀ m, ∃ c, g.gzip m = .ok c ∧ g.gunzip c = .ok m

/-- The text of a document reads back as the document, and so do its bytes,
    within the nesting limit of 127 and the numbers of 64 bits. -/
def SerdeJson.RoundTrips (s : SerdeJson) : Prop :=
  ∀ j, j.Encodable 127 →
    s.fromStr (s.toString j) = .ok j ∧ s.fromSlice (utf8 (s.toString j)) = .ok j

/-- The text of a document is the compact one, with the escapes of `JSON.stringify`. -/
def SerdeJson.Compact (s : SerdeJson) : Prop :=
  ∀ j, j.Encodable 127 → s.toString j = Json.text j

/-- A signature verifies under the verifying key of its signing key. -/
def K256.VerifiesSigned (K : K256) : Prop :=
  ∀ sk m aux sig, K.signRaw sk m aux = some sig →
    ∃ vk s, K.verifyingKey (K.verifyingKeyBytes sk) = some vk ∧ K.signature sig = some s ∧
      K.verifyRaw vk m s = true

end UnicityNostr
