import UnicityNostr.Crates
import UnicityNostr.Lib.Except

/-!
# The curve behind NIP-04 and NIP-44

The x-only public key of a secret, and the shared x-coordinate of a secret and a
peer, whose x-only key is completed to the point with even y.
-/

namespace UnicityNostr.Secp

variable (C : Crates)

/-- The x-only public key of a secret key. -/
def xonlyPublicKey (secret : U8Array 32) : Result (U8Array 32) := do
  let sk ← Except.okOr (C.k256.secretKey secret) (.secp "invalid secret key")
  Except.okOr (C.k256.x (C.k256.publicKey sk)) (.secp "no x coordinate")

/-- The point with even y (`0x02` prefix) of an x-only key. -/
def peerPublicKey (peerXonly : U8Array 32) : Result C.k256.PublicKey :=
  Except.okOr (C.k256.fromSec1 ⟨0x02 :: peerXonly.1, by rw [List.length_cons, peerXonly.2]⟩)
    (.secp "invalid peer public key")

/-- The shared x-coordinate: of the secret times the point of the peer. -/
def ecdhX (mySecret peerXonly : U8Array 32) : Result (U8Array 32) := do
  let sk ← Except.okOr (C.k256.secretKey mySecret) (.secp "invalid secret key")
  let peer ← peerPublicKey C peerXonly
  return C.k256.diffieHellman sk peer

/-- Both parties compute the same shared x-coordinate. -/
def EcdhAgrees : Prop :=
  ∀ a b xa xb, xonlyPublicKey C a = .ok xa → xonlyPublicKey C b = .ok xb →
    ecdhX C a xb = ecdhX C b xa

end UnicityNostr.Secp
