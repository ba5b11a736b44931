import UnicityNostr.Crates
import UnicityNostr.Lib.Except

/-!
# BIP-340 Schnorr signatures

Signing of 32-byte messages (event ids) and verification against x-only public
keys. What `sign` signs, `verify` accepts under the public key of the secret
(`verify_sign`), as far as the curve crate keeps its law.
-/

namespace UnicityNostr.Schnorr

variable (C : Crates)

/-- The x-only public key of a secret key. -/
def publicKey (secret : U8Array 32) : Result (U8Array 32) := do
  let sk ← Except.okOr (C.k256.signingKey secret) (.secp "invalid secret key")
  return C.k256.verifyingKeyBytes sk

/-- The signature of a message with explicit auxiliary randomness. -/
def signWithAux (message secret auxRand : U8Array 32) : Result (U8Array 64) := do
  let sk ← Except.okOr (C.k256.signingKey secret) (.secp "invalid secret key")
  Except.okOr (C.k256.signRaw sk message auxRand) (.secp "schnorr sign failed")

/-- The deterministic signature of a message: `aux_rand = [0; 32]`. -/
def sign (message secret : U8Array 32) : Result (U8Array 64) :=
  signWithAux C message secret ⟨List.replicate 32 0, List.length_replicate⟩

/-- Whether a signature of a message verifies under an x-only public key. -/
def verify (signature : U8Array 64) (message publicKey : U8Array 32) : Bool :=
  match C.k256.verifyingKey publicKey with
  | none => false
  | some vk =>
    match C.k256.signature signature with
    | none => false
    | some sig => C.k256.verifyRaw vk message sig

variable {C}

/-- A signature verifies under the public key of the secret it was made with. -/
theorem verify_sign (hv : C.k256.VerifiesSigned) {message secret pub : U8Array 32}
    {sig : U8Array 64} (hpub : publicKey C secret = .ok pub)
    (hsig : sign C message secret = .ok sig) : verify C sig message pub = true := by
  obtain ⟨sk, hsk, hpub⟩ := Except.bind_eq_ok.1 hpub
  obtain ⟨sk', hsk', hsig⟩ := Except.bind_eq_ok.1 hsig
  rw [Except.okOr_eq_ok] at hsk hsk' hsig
  obtain rfl : sk = sk' := Option.some.inj (hsk.symm.trans hsk')
  obtain rfl : C.k256.verifyingKeyBytes sk = pub := Except.ok.inj hpub
  obtain ⟨vk, s, hvk, hs, hverify⟩ := hv _ _ _ _ hsig
  simp only [verify, hvk, hs, hverify]

end UnicityNostr.Schnorr
