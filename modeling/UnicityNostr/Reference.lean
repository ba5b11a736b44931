import UnicityNostr.Lib.Base64
import UnicityNostr.Lib.JsonReader
import UnicityNostr.Lib.Sha256
import UnicityNostr.Binding
import UnicityNostr.Nip17.Seal

/-!
# Reference crates

Crates that keep all the laws, to run the model on concrete inputs. Hexadecimal
text, base64 and JSON are read and written, and hashes are computed, as by the
crates; the curve, the key derivation and the cipher are small stand-ins without
any security:

* the curve is the multiplicative group modulo the prime 65537: the public key
  of `d` is `3 ^ d`, and a signature of a message is the message itself with the
  public key of the signer;
* key derivation concatenates the key material, the salt and the info;
* the ciphers append half of their key as a tag, or pad the message;
* compression halves a message that says the same twice.
-/

namespace UnicityNostr.Reference

/-! ## Bytes of numbers -/

/-- The `n` low bytes of a number, the high ones first. -/
def toBytes : Nat → Nat → Bytes
  | 0, _ => []
  | n + 1, v => toBytes n (v / 256) ++ [UInt8.ofNat v]

/-- The number of a byte string, the high bytes first. -/
def ofBytes (bs : Bytes) : Nat := bs.foldl (fun v b => v * 256 + b.toNat) 0

theorem length_toBytes (n v : Nat) : (toBytes n v).length = n := by
  induction n generalizing v with
  | zero => rfl
  | succ n ih => rw [toBytes, List.length_append, ih]; rfl

theorem ofBytes_toBytes {n v : Nat} (h : v < 256 ^ n) : ofBytes (toBytes n v) = v := by
  induction n generalizing v with
  | zero =>
    have : v = 0 := by simpa using h
    exact this.symm
  | succ n ih =>
    have ih := ih (Nat.div_lt_of_lt_mul (by rwa [← Nat.pow_succ']))
    rw [ofBytes, toBytes, List.foldl_append, ← ofBytes, ih]
    simp only [List.foldl_cons, List.foldl_nil, UInt8.toNat_ofNat']
    exact Nat.div_add_mod' v 256

/-- The `n` low bytes of a number as an array. -/
def bytes (n v : Nat) : U8Array n := ⟨toBytes n v, length_toBytes n v⟩

/-! ## The curve -/

/-- The modulus. -/
def modulus : Nat := 65537

/-- The secrets. -/
abbrev Secret := {d : Nat // 0 < d ∧ d < modulus}

/-- The secret of a byte string, if it is in range. -/
def secret? (bs : U8Array 32) : Option Secret :=
  if h : 0 < ofBytes bs.1 ∧ ofBytes bs.1 < modulus then some ⟨_, h⟩ else none

/-- The public key of a secret. -/
def point (d : Secret) : Nat := 3 ^ d.1 % modulus

abbrev k256 : K256 where
  SigningKey := Secret
  VerifyingKey := U8Array 32
  Signature := U8Array 64
  SecretKey := Secret
  PublicKey := Nat
  signingKey := secret?
  verifyingKeyBytes d := bytes 32 (point d)
  signRaw d m _ := some ⟨m.1 ++ (bytes 32 (point d)).1, by
    rw [List.length_append, m.2, (bytes 32 (point d)).2]⟩
  verifyingKey bs := some bs
  signature bs := some bs
  verifyRaw vk m s := s.1 == m.1 ++ vk.1
  secretKey := secret?
  publicKey := point
  x P := some (bytes 32 P)
  fromSec1 bs := if bs.1.head? = some 0x02 then some (ofBytes bs.1.tail) else none
  diffieHellman d P := bytes 32 (P ^ d.1 % modulus)

/-! ## The other crates -/

def sha256 (bs : Bytes) : U8Array 32 := ⟨Sha256.hash bs, Sha256.length_hash bs⟩

/-- The key material, the salt and the info, cut or filled up with zeros. -/
def hkdf (salt ikm info : Bytes) (n : Nat) : Option (U8Array n) :=
  some ⟨(ikm ++ salt ++ info ++ List.replicate n 0).take n, by
    simp only [List.length_take, List.length_append, List.length_replicate]
    omega⟩

/-- The plaintext with the second half of the key as its tag. -/
def chacha20Poly1305 : Aead where
  encrypt k _ m := some (m ++ k.1.drop 16)
  decrypt k _ c :=
    if c.drop (c.length - 16) = k.1.drop 16 then some (c.take (c.length - 16)) else none

/-- The padding up to a full block, every byte of it its length. -/
def padding (m : Bytes) : Bytes :=
  List.replicate (16 - m.length % 16) (UInt8.ofNat (16 - m.length % 16))

/-- The plaintext with its padding. -/
def aes256Cbc : Cbc where
  encrypt _ _ m := m ++ padding m
  decrypt _ _ c := c.getLast?.map fun p => c.take (c.length - p.toNat)

/-- One half of a message that consists of two equal ones, or the message. -/
def flate2 : Gzip where
  gzip m :=
    let half := m.take (m.length / 2)
    .ok (if half ++ half = m then 0 :: half else 1 :: m)
  gunzip
    | 0 :: half => .ok (half ++ half)
    | 1 :: m => .ok m
    | _ => .error "invalid gzip header"

def hex : TextCodec where
  encode := Hex.encode
  decode s := Except.okOr (Hex.decode s) "invalid hexadecimal text"

def base64 : TextCodec where
  encode := Base64.encode
  decode s := Except.okOr (Base64.decode s) "invalid base64 text"

def json : SerdeJson where
  toString := Json.text
  fromStr s := Except.okOr (Json.read s) "expected value"
  fromSlice bs := Except.okOr ((fromUtf8 bs).bind Json.read) "expected value"
  dataError _ := "invalid type"

/-- Characters outside ASCII have no case. -/
def unicode : Unicode.CaseTables where
  toLower c := [c]
  cased c := c.isAlpha
  caseIgnorable _ := false

/-- The reference crates. -/
abbrev crates : Crates where
  k256 := k256
  sha256 := sha256
  hkdf := hkdf
  chacha20Poly1305 := chacha20Poly1305
  aes256Cbc := aes256Cbc
  flate2 := some flate2
  hex := hex
  base64 := base64
  json := json
  unicode := unicode

/-- The hash of `Alice` is that of the SDK's test vectors. -/
example : Nametag.hashNametag crates "Alice" =
    "49003e0c6eaf9a0aff033b30278ea4139416204304552f3439dcd9afe9cd10d6" := by
  decide +kernel

/-! ## The laws -/

theorem hex_roundTrips : crates.hex.RoundTrips := fun bs =>
  Except.okOr_eq_ok.2 (Hex.decode_encode bs)

theorem hex_twoDigits : crates.hex.TwoDigits := Hex.length_encode

theorem hex_alphanumeric : crates.hex.Alphanumeric := fun _ _ => Hex.isAlphanum_of_mem_encode

theorem hex_ignoresCase : crates.hex.IgnoresCase := fun _ _ =>
  Except.okOr_eq_ok.trans Hex.decode_eq_some_iff

theorem base64_roundTrips : crates.base64.RoundTrips := fun bs =>
  Except.okOr_eq_ok.2 (Base64.decode_encode bs)

theorem base64_fourForThree : crates.base64.FourForThree := Base64.length_encode

theorem base64_canonical : crates.base64.Canonical := fun _ _ h =>
  Base64.encode_of_decode (Except.okOr_eq_ok.1 h)

theorem json_roundTrips : crates.json.RoundTrips := fun j hj => by
  have hread := Json.read_text hj
  refine ⟨Except.okOr_eq_ok.2 hread, Except.okOr_eq_ok.2 ?_⟩
  show (fromUtf8 (utf8 (Json.text j))).bind Json.read = some j
  rw [fromUtf8_utf8, Option.bind_some, hread]

theorem json_compact : crates.json.Compact := fun _ _ => rfl

theorem chacha20Poly1305_opens : crates.chacha20Poly1305.Opens := by
  rintro k n m c h
  obtain rfl := Option.some.inj h
  have hlen : (m ++ k.1.drop 16).length = m.length + 16 := by
    rw [List.length_append, List.length_drop, k.2]
  refine ⟨?_, hlen⟩
  show (if _ then _ else _) = _
  rw [hlen, Nat.add_sub_cancel, List.drop_left, if_pos rfl, List.take_left]

theorem chacha20Poly1305_opensOnlySealed : crates.chacha20Poly1305.OpensOnlySealed := by
  intro k n c m h
  change (if c.drop (c.length - 16) = k.1.drop 16 then some (c.take (c.length - 16)) else none) =
    some m at h
  split_ifs at h with htag
  obtain rfl := Option.some.inj h
  show some (c.take (c.length - 16) ++ k.1.drop 16) = some c
  rw [← htag, List.take_append_drop]

theorem chacha20Poly1305_seals : crates.chacha20Poly1305.Seals := fun _ _ _ _ => ⟨_, rfl⟩

theorem hkdfExpands : crates.HkdfExpands := fun _ _ _ _ _ => ⟨_, rfl⟩

theorem aes256Cbc_inverts : crates.aes256Cbc.Inverts := by
  intro k iv m
  generalize hn : 16 - m.length % 16 = n
  have hpos : n ≠ 0 := by omega
  have hlt : n < 256 := by omega
  have hpad : padding m = List.replicate n (UInt8.ofNat n) := hn ▸ rfl
  show Option.map (fun p : UInt8 => (m ++ padding m).take ((m ++ padding m).length - p.toNat))
    (m ++ padding m).getLast? = _
  rw [hpad, List.getLast?_append_of_ne_nil _ (by simpa using hpos), List.getLast?_replicate,
    if_neg hpos, Option.map_some, UInt8.toNat_ofNat_of_lt' hlt, List.length_append,
    List.length_replicate, Nat.add_sub_cancel, List.take_left]

theorem flate2_inverts : flate2.Inverts := by
  intro m
  refine ⟨_, rfl, ?_⟩
  dsimp only [flate2]
  split_ifs with h
  · exact congrArg _ h
  · rfl

theorem base64_standardAlphabet : crates.base64.StandardAlphabet := fun _ _ =>
  Base64.standard_of_mem_encode

theorem unicode_lower {c : Char} (hc : 128 ≤ c.toNat) (hsigma : c ≠ 'Σ') :
    crates.unicode.Lower c :=
  ⟨hsigma, fun hascii => absurd hascii (not_lt.2 hc), fun _ => rfl⟩

theorem unicode_stable : crates.unicode.Stable where
  ne_nil _ := List.cons_ne_nil _ _
  lower c hc hsigma d hd := by
    obtain rfl := List.mem_singleton.1 hd
    exact unicode_lower hc hsigma
  isWhitespace c hc d hd := by
    obtain rfl := List.mem_singleton.1 hd
    exact hc
  sigma := ⟨unicode_lower (by decide) (by decide), unicode_lower (by decide) (by decide)⟩

theorem k256_verifiesSigned : crates.k256.VerifiesSigned := by
  rintro sk m aux sig h
  obtain rfl := Option.some.inj h
  exact ⟨_, _, rfl, rfl, beq_self_eq_true _⟩

theorem ofBytes_point (d : Secret) : ofBytes (bytes 32 (point d)).1 = point d :=
  ofBytes_toBytes ((Nat.mod_lt _ (by decide)).trans (by decide))

/-- Public keys are valid. -/
theorem peerPublicKey_eq_ok (e : Secret) :
    Secp.peerPublicKey crates (bytes 32 (point e)) = .ok (point e) := by
  rw [Secp.peerPublicKey, Except.okOr_eq_ok]
  exact congrArg some (ofBytes_point e)

/-- The shared value of a secret and the public key of another one. -/
theorem ecdhX_eq_ok {a xb : U8Array 32} {d e : Secret} (ha : secret? a = some d)
    (hb : xb = bytes 32 (point e)) :
    Secp.ecdhX crates a xb = .ok (bytes 32 (3 ^ (e.1 * d.1) % modulus)) := by
  subst hb
  have hsk : crates.k256.secretKey a = some d := ha
  rw [Secp.ecdhX, hsk, Except.okOr_some, Except.bind_ok, peerPublicKey_eq_ok, Except.bind_ok]
  show Except.ok (bytes 32 (point e ^ d.1 % modulus)) = _
  rw [point, ← Nat.pow_mod, ← Nat.pow_mul]

theorem xonlyPublicKey_eq_ok {a xa : U8Array 32} (h : Secp.xonlyPublicKey crates a = .ok xa) :
    ∃ d, secret? a = some d ∧ xa = bytes 32 (point d) := by
  obtain ⟨d, hd, hx⟩ := Except.bind_eq_ok.1 h
  exact ⟨d, Except.okOr_eq_ok.1 hd, (Option.some.inj (Except.okOr_eq_ok.1 hx)).symm⟩

theorem ecdhAgrees : Secp.EcdhAgrees crates := by
  intro a b xa xb ha hb
  obtain ⟨d, hd, hxa⟩ := xonlyPublicKey_eq_ok ha
  obtain ⟨e, he, hxb⟩ := xonlyPublicKey_eq_ok hb
  rw [ecdhX_eq_ok hd hxb, ecdhX_eq_ok he hxa, Nat.mul_comm]

theorem xonlyKeysAgree : XonlyKeysAgree crates := by
  intro secret xonly h
  obtain ⟨d, hd, hx⟩ := Except.bind_eq_ok.1 h
  have hsk : crates.k256.secretKey secret = some d := Except.okOr_eq_ok.1 hd
  rw [Secp.xonlyPublicKey, hsk]
  exact hx

/-! ## Keys -/

theorem ofBytes_secret (d : Secret) : ofBytes (bytes 32 d.1).1 = d.1 :=
  ofBytes_toBytes (d.2.2.trans (by decide))

theorem secret?_eq_some {bs : U8Array 32} {d : Secret} (h : ofBytes bs.1 = d.1) :
    secret? bs = some d := by
  obtain ⟨d, hd⟩ := d
  subst h
  exact dif_pos hd

theorem publicKey_eq_ok {bs : U8Array 32} {d : Secret} (h : ofBytes bs.1 = d.1) :
    Schnorr.publicKey crates bs = .ok (bytes 32 (point d)) := by
  have hsk : crates.k256.signingKey bs = some d := secret?_eq_some h
  rw [Schnorr.publicKey, hsk]
  rfl

/-- The keypair of the secret `d`. -/
def keypair (d : Secret) : Keypair crates where
  secret := bytes 32 d.1
  xonly := bytes 32 (point d)
  valid := publicKey_eq_ok (ofBytes_secret d)

/-- The local signer of the secret `d`. -/
def signer (d : Secret) : LocalSigner crates := ⟨keypair d⟩

theorem sign_eq_ok {m bs : U8Array 32} {d : Secret} (h : ofBytes bs.1 = d.1) :
    ∃ sig, Schnorr.sign crates m bs = .ok sig := by
  have hsk : crates.k256.signingKey bs = some d := secret?_eq_some h
  rw [Schnorr.sign, Schnorr.signWithAux, hsk]
  exact ⟨_, rfl⟩

theorem signer_signs (d : Secret) : (signer d).toSigner.Signs := fun _ =>
  sign_eq_ok (ofBytes_secret d)

theorem create_eq_ok (d : Secret) (kind : UInt32) (tags : List Tag) (content : String)
    (createdAt : Int64) :
    ∃ e, Event.create crates (signer d).toSigner kind tags content createdAt = .ok e :=
  Event.exists_create hex_roundTrips (signer_signs d) kind tags content createdAt

/-- Some event verifies. -/
theorem exists_verified : ∃ e : Event, e.verify crates = true := by
  obtain ⟨e, he⟩ := create_eq_ok ⟨1, by decide⟩ Kinds.chatMessage [] "" 0
  exact ⟨e, Event.verify_of_signed hex_roundTrips (LocalSigner.verifiable k256_verifiesSigned _) he⟩

/-- The secrets 1, 2 and 3. -/
def one : Secret := ⟨1, by decide⟩
def two : Secret := ⟨2, by decide⟩
def three : Secret := ⟨3, by decide⟩

/-! ## Bindings -/

theorem createBindingEvent_eq_ok (d : Secret) {nametagId : String}
    (hn : Nametag.isValidNametag crates nametagId = true) (address : String)
    (verified createdAt : Int64) (identity : Option Binding.IdentityBindingParams)
    (encryptedNametag : Option String) :
    ∃ e, Binding.createBindingEvent crates (signer d).toSigner nametagId address verified createdAt
      identity encryptedNametag = .ok e := by
  obtain ⟨e, he⟩ := create_eq_ok d _ _ _ _
  exact ⟨e, Binding.createBindingEvent_eq_ok.2 ⟨hn, he⟩⟩

theorem eq_ok_getD {r : Result Event} {e : Event} (h : r = .ok e) :
    r = .ok (r.toOption.getD default) := by
  subst h
  rfl

/-- The binding of the nametag `alice` to an address, by the signer of the
    secret `d`. -/
@[irreducible] def binding (d : Secret) (address : String) (createdAt : Int64) : Event :=
  (Binding.createBindingEvent crates (signer d).toSigner "alice" address createdAt createdAt none
    none).toOption.getD default

theorem binding_eq_ok (d : Secret) (address : String) (createdAt : Int64) :
    Binding.createBindingEvent crates (signer d).toSigner "alice" address createdAt createdAt none
      none = .ok (binding d address createdAt) := by
  have hn : Nametag.isValidNametag crates "alice" = true := by decide
  obtain ⟨e, he⟩ := createBindingEvent_eq_ok d hn address createdAt createdAt none none
  unfold binding
  exact eq_ok_getD he

theorem verify_binding (d : Secret) (address : String) (createdAt : Int64) :
    (binding d address createdAt).verify crates = true :=
  Event.verify_of_signed hex_roundTrips (LocalSigner.verifiable k256_verifiesSigned (signer d))
    (Binding.createBindingEvent_eq_ok.1 (binding_eq_ok d address createdAt)).2

theorem binding_pubkey (d : Secret) (address : String) (createdAt : Int64) :
    (binding d address createdAt).pubkey = Hex.encode (bytes 32 (point d)).1 :=
  (Binding.fields_of_created (binding_eq_ok d address createdAt)).1

theorem binding_createdAt (d : Secret) (address : String) (createdAt : Int64) :
    (binding d address createdAt).createdAt = createdAt :=
  (Binding.fields_of_created (binding_eq_ok d address createdAt)).2.1

theorem countsFor_binding (d : Secret) {address : String} (h : address ≠ "") (createdAt : Int64) :
    Binding.countsFor crates "alice" (binding d address createdAt) = true :=
  (Binding.countsFor_created (binding_eq_ok d address createdAt) hex_roundTrips hex_twoDigits
    json_roundTrips (LocalSigner.verifiable k256_verifiesSigned (signer d))).2 h

theorem binding_ne_of_address_ne {d d' : Secret} {address address' : String}
    {createdAt createdAt' : Int64} (h : address ≠ address') :
    binding d address createdAt ≠ binding d' address' createdAt' := by
  intro heq
  have haddr := Binding.tagValue_address_of_created (binding_eq_ok d address createdAt)
  rw [heq, Binding.tagValue_address_of_created
    (binding_eq_ok d' address' createdAt')] at haddr
  exact h (Option.some.inj haddr).symm

/-! ## Gift wraps -/

theorem conversationKey_eq_ok (d e : Secret) :
    (signer d).toSigner.nip44ConversationKey (bytes 32 (point e)) =
      .ok (bytes 32 (3 ^ (e.1 * d.1) % modulus)) := by
  have hsk : secret? (bytes 32 d.1) = some d := secret?_eq_some (ofBytes_secret d)
  have hx : Secp.xonlyPublicKey crates (bytes 32 d.1) = .ok (bytes 32 (point d)) :=
    xonlyKeysAgree _ _ (publicKey_eq_ok (ofBytes_secret d))
  show Nip44.deriveConversationKey crates (bytes 32 d.1) (bytes 32 (point e)) = _
  rw [Nip44.deriveConversationKey, ecdhX_eq_ok hsk rfl, Except.bind_ok, hx, Except.bind_ok,
    Except.okOr_eq_ok]
  refine congrArg some (Subtype.ext ?_)
  simp only [List.append_assoc]
  exact List.take_left' (bytes 32 _).2

/-- The cipher key of a message is the conversation key. -/
theorem aeadFor_deriveMessageKey {nonce : Bytes} {ck : U8Array 32} {mk : U8Array 76}
    (h : Nip44.deriveMessageKey crates ck nonce = .ok mk) : (Nip44.aeadFor mk).1 = ck := by
  obtain rfl := Option.some.inj (Except.okOr_eq_ok.1 h)
  refine Subtype.ext ?_
  simp only [Nip44.aeadFor, List.take_take, List.append_assoc]
  exact List.take_left' ck.2

/-- The cipher tells conversation keys apart whose second halves differ. -/
theorem separates {nonce : Bytes} {ck ck' : U8Array 32} (h : ck.1.drop 16 ≠ ck'.1.drop 16) :
    Nip44.Separates crates nonce ck ck' := by
  intro mk mk' m c hmk hmk' hc
  rw [aeadFor_deriveMessageKey hmk] at hc
  rw [aeadFor_deriveMessageKey hmk']
  have hlen := (chacha20Poly1305_opens _ _ _ _ hc).2
  obtain rfl := Option.some.inj hc
  have hdrop : (m ++ ck.1.drop 16).drop ((m ++ ck.1.drop 16).length - 16) = ck.1.drop 16 := by
    rw [hlen, Nat.add_sub_cancel, List.drop_left]
  exact if_neg (hdrop.symm ▸ h)

/-- A message whose rumor is not too long is wrapped. -/
theorem exists_createGiftWrap (d e eph : Secret) {params : Nip17.GiftWrapParams}
    (heph : params.ephemeralSecret = bytes 32 eph.1)
    (hle : (utf8 (Nip17.rumorJson crates (Nip17.rumorOf crates (signer d).toSigner
      (bytes 32 (point e)) params))).length ≤ 40960) :
    ∃ w, Nip17.createGiftWrap crates (signer d).toSigner (bytes 32 (point e)) params = .ok w ∧
      w.pubkey = Hex.encode (bytes 32 (point eph)).1 := by
  have hkp : Keypair.fromSecret crates params.ephemeralSecret = .ok (keypair eph) :=
    heph ▸ Keypair.fromSecret_eq_ok (publicKey_eq_ok (ofBytes_secret eph))
  obtain ⟨w, hw, hpub⟩ := Nip17.exists_createGiftWrap hex_roundTrips hex_twoDigits hex_alphanumeric
    base64_standardAlphabet base64_fourForThree json_compact hkdfExpands chacha20Poly1305_seals
    chacha20Poly1305_opens (signer_signs d) (conversationKey_eq_ok d e) hkp
    (conversationKey_eq_ok eph e) (signer_signs eph) hle
  exact ⟨w, hw, hpub⟩

attribute [irreducible] bytes

end UnicityNostr.Reference
