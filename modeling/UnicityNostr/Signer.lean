import UnicityNostr.Crypto.Schnorr
import UnicityNostr.Crypto.Nip04
import UnicityNostr.Crypto.Nip44

/-!
# Keys and signers

A signer is anything that signs event ids and derives the keys shared with a
peer: protocol code depends on a `Signer` only, never on a secret key. The local
signer holds a keypair (`Keypair`), whose public key is that of its secret.
-/

namespace UnicityNostr

/-- The custody boundary: what the protocol needs of a key holder. -/
structure Signer where
  /-- The x-only public key. -/
  publicKey : U8Array 32
  /-- The BIP-340 signature of a 32-byte event id. -/
  schnorrSign : U8Array 32 → Result (U8Array 64)
  /-- The NIP-44 conversation key with a peer. -/
  nip44ConversationKey : U8Array 32 → Result (U8Array 32)
  /-- The NIP-04 shared secret with a peer. -/
  nip04SharedSecret : U8Array 32 → Result (U8Array 32)

variable (C : Crates)

/-- A secret key with its x-only public key precomputed. -/
structure Keypair where
  secret : U8Array 32
  xonly : U8Array 32
  valid : Schnorr.publicKey C secret = .ok xonly

/-- The keypair of a secret key. -/
def Keypair.fromSecret (secret : U8Array 32) : Result (Keypair C) :=
  match h : Schnorr.publicKey C secret with
  | .ok xonly => .ok ⟨secret, xonly, h⟩
  | .error e => .error e

/-- A signer that holds the key locally. -/
structure LocalSigner where
  keypair : Keypair C

/-- The local signer as a signer. -/
def LocalSigner.toSigner (s : LocalSigner C) : Signer where
  publicKey := s.keypair.xonly
  schnorrSign hash := Schnorr.sign C hash s.keypair.secret
  nip44ConversationKey peerXonly := Nip44.deriveConversationKey C s.keypair.secret peerXonly
  nip04SharedSecret peerXonly := Nip04.deriveSharedSecret C s.keypair.secret peerXonly

variable {C}

/-- The keypair of a secret with a public key. -/
theorem Keypair.fromSecret_eq_ok {secret xonly : U8Array 32}
    (h : Schnorr.publicKey C secret = .ok xonly) :
    Keypair.fromSecret C secret = .ok ⟨secret, xonly, h⟩ := by
  unfold Keypair.fromSecret
  split
  · rename_i xonly' h'
    obtain rfl := Except.ok.inj (h'.symm.trans h)
    rfl
  · rename_i e h'
    cases h'.symm.trans h

/-- The signer signs every event id. -/
def Signer.Signs (s : Signer) : Prop := ∀ hash, ∃ sig, s.schnorrSign hash = .ok sig

/-- The signatures of the signer verify under its public key. -/
def Signer.Verifiable (C : Crates) (s : Signer) : Prop :=
  ∀ hash sig, s.schnorrSign hash = .ok sig → Schnorr.verify C sig hash s.publicKey = true

/-- The signatures of a local signer verify. -/
theorem LocalSigner.verifiable (hv : C.k256.VerifiesSigned) (s : LocalSigner C) :
    s.toSigner.Verifiable C :=
  fun _ _ hsig => Schnorr.verify_sign hv s.keypair.valid hsig

/-- The two public keys of a secret are one: that of BIP-340 and that of the
    key agreement. -/
def XonlyKeysAgree (C : Crates) : Prop :=
  ∀ secret xonly, Schnorr.publicKey C secret = .ok xonly →
    Secp.xonlyPublicKey C secret = .ok xonly

/-- Two local signers derive the same conversation key for each other. -/
theorem LocalSigner.conversationKey_comm (he : Secp.EcdhAgrees C) (hx : XonlyKeysAgree C)
    (a b : LocalSigner C) :
    a.toSigner.nip44ConversationKey b.keypair.xonly =
      b.toSigner.nip44ConversationKey a.keypair.xonly :=
  Nip44.deriveConversationKey_comm he (hx _ _ a.keypair.valid) (hx _ _ b.keypair.valid)

end UnicityNostr
