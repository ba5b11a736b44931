import UnicityNostr.Crypto.Bech32.Mistyped
import UnicityNostr.Nip17
import UnicityNostr.Reference

/-!
# The texts of keypairs

A keypair is loaded from its secret key in hexadecimal or in bech32 (`nsec`), and
writes its keys as either.

* `fromSecretHex_eq_ok_iff`, `fromNsec_eq_ok_iff`: the texts a keypair is loaded from
  are its own, in either letter case;
* `texts`: the texts of a keypair, and those that are mistaken for them.
-/

namespace UnicityNostr.Keypair

open Unicode (toAsciiLowercase)
open Bech32 (textDistance)

variable (C : Crates)

/-- The keypair of a secret key in hexadecimal. -/
def fromSecretHex (hexStr : String) : Result (Keypair C) := do
  let secret ← hexArray C 32 "hex: " "secret != 32" hexStr
  fromSecret C secret

/-- The keypair of a secret key in bech32. -/
def fromNsec (nsec : String) : Result (Keypair C) := do
  let secret ← Bech32.decodeNsec nsec
  fromSecret C secret

variable {C}

/-- The public key in hexadecimal. -/
def publicKeyHex (k : Keypair C) : String := C.hex.encode k.xonly.1

/-- The secret key in hexadecimal. -/
def secretHex (k : Keypair C) : String := C.hex.encode k.secret.1

/-- The public key in bech32. -/
def npub (k : Keypair C) : Result String := Bech32.encodeNpub k.xonly

/-- The secret key in bech32. -/
def nsec (k : Keypair C) : Result String := Bech32.encodeNsec k.secret

/-- A keypair is that of its secret key, and of no other. -/
theorem fromSecret_eq_ok_iff {secret : U8Array 32} {k : Keypair C} :
    fromSecret C secret = .ok k ↔ secret = k.secret := by
  constructor
  · intro h
    unfold fromSecret at h
    split at h
    · obtain rfl := Except.ok.inj h
      rfl
    · cases h
  · rintro rfl
    exact fromSecret_eq_ok k.valid

theorem bind_fromSecret_eq_ok_iff {secret : Result (U8Array 32)} {k : Keypair C} :
    (secret >>= fromSecret C) = .ok k ↔ secret = .ok k.secret := by
  rw [Except.bind_eq_ok]
  constructor
  · rintro ⟨secret, h, hk⟩
    rw [h, fromSecret_eq_ok_iff.1 hk]
  · exact fun h => ⟨_, h, fromSecret_eq_ok_iff.2 rfl⟩

/-- A keypair is loaded from its secret key in hexadecimal, in either letter case. -/
theorem fromSecretHex_eq_ok_iff (hc : C.hex.IgnoresCase) {s : String} {k : Keypair C} :
    fromSecretHex C s = .ok k ↔ k.secretHex = toAsciiLowercase s :=
  bind_fromSecret_eq_ok_iff.trans (hexArray_eq_ok.trans (hc s _))

/-- A keypair is loaded from its secret key in bech32, in either letter case. -/
theorem fromNsec_eq_ok_iff {s : String} {k : Keypair C} :
    fromNsec C s = .ok k ↔ k.nsec = .ok (toAsciiLowercase s) :=
  bind_fromSecret_eq_ok_iff.trans Bech32.decodeNsec_iff

/-- The text of a key has no capital letters. -/
theorem exists_encode (hrp : String) (h : ∀ c ∈ hrp.toList, c.toLower = c) (data : Bytes) :
    ∃ s, Bech32.encode hrp data = .ok s ∧ toAsciiLowercase s = s := by
  obtain ⟨values, hfits, -, hencode⟩ := Bech32.encode_spec hrp data
  refine ⟨_, hencode, ?_⟩
  rw [Bech32.toAsciiLowercase_text hrp hfits, Unicode.toAsciiLowercase_eq_self h]

/-- The texts of a keypair. It is loaded from its own secret texts, in either letter
    case, and from nothing else, and its public key is read off its own public texts and
    no others; a text that differs from one of the bech32 texts at four positions at most
    does not load any other keypair. -/
theorem texts (hx : C.hex.RoundTrips) (hc : C.hex.IgnoresCase) (k : Keypair C) :
    fromSecretHex C k.secretHex = .ok k ∧
    (∀ s, fromSecretHex C s = .ok k ↔ toAsciiLowercase s = k.secretHex) ∧
    (∀ s, Nip17.hexKey C s = .ok k.xonly ↔ toAsciiLowercase s = k.publicKeyHex) ∧
    ∃ nsec npub, k.nsec = .ok nsec ∧ k.npub = .ok npub ∧ fromNsec C nsec = .ok k ∧
      (∀ s, fromNsec C s = .ok k ↔ toAsciiLowercase s = nsec) ∧
      (∀ s, Bech32.decodeNpub s = .ok k.xonly ↔ toAsciiLowercase s = npub) ∧
      (∀ s k', textDistance nsec s ≤ 4 → fromNsec C s = .ok k' → k' = k) ∧
      ∀ s k', textDistance npub s ≤ 4 → fromNsec C s ≠ .ok k' := by
  have hhex : toAsciiLowercase k.secretHex = k.secretHex := ((hc _ _).1 (hx k.secret.1)).symm
  obtain ⟨nsec, hnsec, hlower⟩ := exists_encode "nsec" (by simp) k.secret.1
  obtain ⟨npub, hnpub, hlower'⟩ := exists_encode "npub" (by simp) k.xonly.1
  have hnsec' : k.nsec = .ok nsec := hnsec
  have hread : Bech32.decodeNsec nsec = .ok k.secret :=
    Bech32.decodeNsec_iff.2 (hnsec'.trans (congrArg _ hlower.symm))
  have hread' : Bech32.decodeNpub npub = .ok k.xonly :=
    Bech32.decodeNpub_iff.2 (hnpub.trans (congrArg _ hlower'.symm))
  refine ⟨(fromSecretHex_eq_ok_iff hc).2 hhex.symm,
    fun s => (fromSecretHex_eq_ok_iff hc).trans eq_comm,
    fun s => (hexArray_eq_ok.trans (hc s _)).trans eq_comm, nsec, npub, hnsec, hnpub,
    bind_fromSecret_eq_ok_iff.2 hread, fun s => ?_, fun s => ?_, fun s k' hd hk' => ?_,
    fun s k' hd hk' => ?_⟩
  · rw [fromNsec_eq_ok_iff, hnsec', Except.ok.injEq, eq_comm]
  · rw [Bech32.decodeNpub_iff, Bech32.encodeNpub, hnpub, Except.ok.injEq, eq_comm]
  · -- The secret key that is read is the one that was written.
    have hsecret := (Bech32.sameKey_of_textDistance hd k.secret k'.secret).2.1 hread
      (bind_fromSecret_eq_ok_iff.1 hk')
    have hk := fromSecret_eq_ok_iff.2 hsecret
    exact (Except.ok.inj ((fromSecret_eq_ok_iff.2 rfl).symm.trans hk)).symm
  · exact (Bech32.sameKey_of_textDistance hd k.xonly k'.secret).2.2.1 hread'
      (bind_fromSecret_eq_ok_iff.1 hk')

/-- The texts of the keypair of the secret 1. -/
theorem texts_one : ∃ nsec, (Reference.keypair Reference.one).nsec = .ok nsec ∧
    fromNsec Reference.crates nsec = .ok (Reference.keypair Reference.one) ∧
      fromSecretHex Reference.crates (Reference.keypair Reference.one).secretHex =
        .ok (Reference.keypair Reference.one) := by
  obtain ⟨hhex, -, -, nsec, -, hnsec, -, hread, -⟩ := texts Reference.hex_roundTrips
    Reference.hex_ignoresCase (Reference.keypair Reference.one)
  exact ⟨nsec, hnsec, hread, hhex⟩

end UnicityNostr.Keypair
