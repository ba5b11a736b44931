import Mathlib.Algebra.Group.Basic
import Mathlib.Data.ZMod.Basic
import UnicityNostr.Reference

/-!
# Both parties derive the same keys

Each party multiplies its secret with a point that has the x-coordinate of the
other party's public key, and takes the x-coordinate of the product. That point
has even y, whatever the y of the public key: it is the public key or its
negation. All four products are equal up to their sign, and a point and its
negation have the same x-coordinate.

* `GroupLaws`: what is assumed of the curve;
* `ecdhX_eq_ok`, `ecdhAgrees`: both parties get the same x-coordinate;
* `keys_agree`: they derive the same keys of NIP-44 and NIP-04.
-/

namespace UnicityNostr

/-! ## Points up to their sign -/

section UpToSign

variable {G : Type*} [AddCommGroup G]

/-- Two points are equal or negations of each other. -/
def UpToSign (P Q : G) : Prop := P = Q ∨ P = -Q

theorem UpToSign.nsmul {P Q : G} (h : UpToSign P Q) (n : ℕ) : UpToSign (n • P) (n • Q) := by
  rcases h with rfl | rfl
  · exact .inl rfl
  · exact .inr (neg_nsmul Q n)

theorem UpToSign.symm {P Q : G} (h : UpToSign P Q) : UpToSign Q P := by
  rcases h with rfl | rfl
  · exact .inl rfl
  · exact .inr (neg_neg Q).symm

theorem UpToSign.trans {P Q R : G} (h : UpToSign P Q) (h' : UpToSign Q R) : UpToSign P R := by
  rcases h' with rfl | rfl
  · exact h
  · rcases h with rfl | rfl
    · exact .inr rfl
    · exact .inl (neg_neg R)

/-- The shared point is the same up to its sign, whatever the signs of the
    points the parties take for the keys of each other. -/
theorem UpToSign.shared {P Q g : G} {m n : ℕ} (hP : UpToSign P (m • g))
    (hQ : UpToSign Q (n • g)) : UpToSign (m • Q) (n • P) := by
  have hcomm : m • n • g = n • m • g := by rw [← mul_nsmul', ← mul_nsmul', Nat.mul_comm]
  exact (hQ.nsmul m).trans (hcomm ▸ (hP.nsmul n).symm)

end UpToSign

namespace Secp

/-! ## The shared x-coordinate -/

section SharedX

variable {C : Crates} {G : Type*} [AddCommGroup G]

/-- The laws of the curve, whose points lie in a commutative group by `point`:
    the public key is the secret times the generator, a point and its negation
    are the only ones with their x-coordinate, an x-coordinate decodes to a point
    that has it, and the shared x-coordinate is that of the secret times the
    point. -/
structure GroupLaws (K : K256) (point : K.PublicKey → G) (scalar : K.SecretKey → ℕ) (gen : G) :
    Prop where
  publicKey : ∀ d, point (K.publicKey d) = scalar d • gen
  x_ne_none : ∀ P, K.x P ≠ none
  x_eq_iff : ∀ P Q, K.x P = K.x Q ↔ UpToSign (point P) (point Q)
  fromSec1 : ∀ P bs h, K.x P = some bs →
    ∃ Q, K.fromSec1 ⟨0x02 :: bs.1, h⟩ = some Q ∧ K.x Q = some bs
  diffieHellman : ∀ d P,
    ∃ R, point R = scalar d • point P ∧ K.x R = some (K.diffieHellman d P)

variable {point : C.k256.PublicKey → G} {scalar : C.k256.SecretKey → ℕ} {gen : G}
  {a b xa xb : U8Array 32}

/-- A valid secret has an x-only public key. -/
theorem exists_xonlyPublicKey (hK : GroupLaws C.k256 point scalar gen)
    {d : C.k256.SecretKey} (hd : C.k256.secretKey a = some d) :
    ∃ xa, xonlyPublicKey C a = .ok xa := by
  obtain ⟨xa, hx⟩ := Option.ne_none_iff_exists'.1 (hK.x_ne_none (C.k256.publicKey d))
  refine ⟨xa, ?_⟩
  rw [xonlyPublicKey, hd, Except.okOr_some, Except.bind_ok, hx, Except.okOr_some]

/-- The point taken for an x-only key is the public key, up to its sign. -/
theorem peerPublicKey_eq_ok (hK : GroupLaws C.k256 point scalar gen)
    (hb : xonlyPublicKey C b = .ok xb) : ∃ d Q, C.k256.secretKey b = some d ∧
      peerPublicKey C xb = .ok Q ∧ UpToSign (point Q) (scalar d • gen) := by
  obtain ⟨d, hd, hx⟩ := Except.bind_eq_ok.1 hb
  rw [Except.okOr_eq_ok] at hd hx
  obtain ⟨Q, hQ, hxQ⟩ := hK.fromSec1 _ xb (by rw [List.length_cons, xb.2]) hx
  refine ⟨d, Q, hd, Except.okOr_eq_ok.2 hQ, ?_⟩
  rw [← hK.publicKey]
  exact (hK.x_eq_iff _ _).1 (hxQ.trans hx.symm)

/-- Both parties get the same shared x-coordinate. -/
theorem ecdhX_eq_ok (hK : GroupLaws C.k256 point scalar gen)
    (ha : xonlyPublicKey C a = .ok xa) (hb : xonlyPublicKey C b = .ok xb) :
    ∃ x, ecdhX C a xb = .ok x ∧ ecdhX C b xa = .ok x := by
  obtain ⟨d, P, hd, hP, hsignP⟩ := peerPublicKey_eq_ok hK ha
  obtain ⟨e, Q, he, hQ, hsignQ⟩ := peerPublicKey_eq_ok hK hb
  obtain ⟨R, hR, hxR⟩ := hK.diffieHellman d Q
  obtain ⟨S, hS, hxS⟩ := hK.diffieHellman e P
  -- The two products are equal up to their sign, so their x-coordinates are equal.
  have hsign : UpToSign (point R) (point S) := by
    rw [hR, hS]
    exact hsignP.shared hsignQ
  have hx : C.k256.diffieHellman d Q = C.k256.diffieHellman e P :=
    Option.some.inj (hxR.symm.trans (((hK.x_eq_iff R S).2 hsign).trans hxS))
  refine ⟨C.k256.diffieHellman d Q, ?_, ?_⟩
  · rw [ecdhX, hd, Except.okOr_some, Except.bind_ok, hQ, Except.bind_ok]
    rfl
  · rw [ecdhX, he, Except.okOr_some, Except.bind_ok, hP, Except.bind_ok, hx]
    rfl

theorem ecdhAgrees (hK : GroupLaws C.k256 point scalar gen) : EcdhAgrees C := by
  intro a b xa xb ha hb
  obtain ⟨x, hx, hx'⟩ := ecdhX_eq_ok hK ha hb
  rw [hx, hx']

end SharedX

/-! ## A small curve -/

namespace SmallCurve

open Reference

/-- The sum of two points of `y² = x³ + 7` modulo 43 that are no negations of each
    other, by the chord or the tangent. -/
def add (P Q : ℕ × ℕ) : ℕ × ℕ :=
  let slope :=
    if P = Q then 3 * P.1 ^ 2 * (2 * P.2) ^ 41 % 43
    else (Q.2 + 43 - P.2) * (Q.1 + 43 - P.1) ^ 41 % 43
  let x := (slope ^ 2 + 86 - P.1 - Q.1) % 43
  (x, (slope * (P.1 + 43 - x) + 43 - P.2) % 43)

/-- The coordinates of `(n + 1) • (2, 12)`, for the 30 points of the curve. -/
def coordinates : ℕ → ℕ × ℕ
  | 0 => (2, 12)
  | n + 1 => add (coordinates n) (2, 12)

/-- The points but that at infinity: `k` stands for `(k + 1) • (2, 12)`. -/
abbrev Point := Fin 30

/-- The point in the group of the curve, which has 31 points. -/
def toGroup (P : Point) : ZMod 31 := P.val + 1

/-- The product of a secret, less one, and a point. -/
def mul (d P : Point) : Point := ⟨(d.1 + 1) * (P.1 + 1) % 31 - 1, by omega⟩

/-- The point with even y of an x-coordinate. -/
def evenPoint (x : ℕ) : Option Point :=
  (List.finRange 30).find? fun P => (coordinates P).1 = x ∧ (coordinates P).2 % 2 = 0

/-- The secret of a byte string, less one, if it is in range. -/
def secret? (bs : U8Array 32) : Option Point :=
  if h : 0 < ofBytes bs.1 ∧ ofBytes bs.1 < 31 then some ⟨ofBytes bs.1 - 1, by omega⟩ else none

/-- The point of a compressed encoding with the prefix of even y. -/
def fromSec1 : Bytes → Option Point
  | 0x02 :: bs => evenPoint (ofBytes bs)
  | _ => none

/-- The small curve, with the stand-in for signatures. -/
abbrev k256 : K256 where
  SigningKey := Secret
  VerifyingKey := U8Array 32
  Signature := U8Array 64
  SecretKey := Point
  PublicKey := Point
  signingKey := Reference.secret?
  verifyingKeyBytes := Reference.k256.verifyingKeyBytes
  signRaw := Reference.k256.signRaw
  verifyingKey := Reference.k256.verifyingKey
  signature := Reference.k256.signature
  verifyRaw := Reference.k256.verifyRaw
  secretKey := secret?
  publicKey := id
  x P := some (bytes 32 (coordinates P).1)
  fromSec1 bs := fromSec1 bs.1
  diffieHellman d P := bytes 32 (coordinates (mul d P)).1

/-- The reference crates, with the small curve. -/
abbrev crates : Crates := { Reference.crates with k256 := k256 }

theorem toGroup_mul : ∀ d P, toGroup (mul d P) = (d.1 + 1) • toGroup P := by decide +kernel

/-- A point has no more points with its x-coordinate than its negation. -/
theorem fst_coordinates_eq_iff : ∀ P Q : Point,
    (coordinates P).1 = (coordinates Q).1 ↔ UpToSign (toGroup P) (toGroup Q) := by
  unfold UpToSign
  decide +kernel

/-- One of the two has even y. -/
theorem exists_evenPoint : ∀ P : Point,
    ∃ Q, evenPoint (coordinates P).1 = some Q ∧ (coordinates Q).1 = (coordinates P).1 := by
  decide +kernel

theorem fst_coordinates_lt : ∀ P : Point, (coordinates P).1 < 256 ^ 32 := by decide +kernel

theorem ofBytes_x (P : Point) : ofBytes (bytes 32 (coordinates P).1).1 = (coordinates P).1 := by
  unfold bytes
  exact ofBytes_toBytes (fst_coordinates_lt P)

theorem groupLaws : GroupLaws crates.k256 toGroup (fun d : Point => d.1 + 1) 1 where
  publicKey d := by
    show toGroup d = _
    rw [toGroup, nsmul_one, Nat.cast_add, Nat.cast_one]
  x_ne_none _ := nofun
  x_eq_iff P Q := by
    rw [← fst_coordinates_eq_iff]
    refine ⟨fun h => ?_, fun h => congrArg (fun n => some (bytes 32 n)) h⟩
    have hbytes := congrArg (fun bs : U8Array 32 => ofBytes bs.1) (Option.some.inj h)
    simpa only [ofBytes_x] using hbytes
  fromSec1 P bs h hx := by
    obtain rfl := Option.some.inj hx
    obtain ⟨Q, hQ, hxQ⟩ := exists_evenPoint P
    refine ⟨Q, ?_, congrArg (fun n => some (bytes 32 n)) hxQ⟩
    show evenPoint (ofBytes (bytes 32 (coordinates P).1).1) = _
    rw [ofBytes_x, hQ]
  diffieHellman d P := ⟨mul d P, toGroup_mul d P, rfl⟩

end SmallCurve

/-! ## The derived keys -/

variable {C : Crates} {G : Type*} [AddCommGroup G]
  {point : C.k256.PublicKey → G} {scalar : C.k256.SecretKey → ℕ} {gen : G}
  {a b xa xb : U8Array 32}

/-- Both parties derive the same shared secret. -/
theorem deriveSharedSecret_eq_ok (hK : GroupLaws C.k256 point scalar gen)
    (ha : xonlyPublicKey C a = .ok xa) (hb : xonlyPublicKey C b = .ok xb) :
    ∃ secret, Nip04.deriveSharedSecret C a xb = .ok secret ∧
      Nip04.deriveSharedSecret C b xa = .ok secret := by
  obtain ⟨x, hx, hx'⟩ := ecdhX_eq_ok hK ha hb
  refine ⟨C.sha256 x.1, ?_, ?_⟩
  · rw [Nip04.deriveSharedSecret, hx]
    rfl
  · rw [Nip04.deriveSharedSecret, hx']
    rfl

/-- Both parties derive the same conversation key of NIP-44, if there is enough
    key material, and the same shared secret of NIP-04. -/
theorem keys_agree (hK : GroupLaws C.k256 point scalar gen)
    (ha : xonlyPublicKey C a = .ok xa) (hb : xonlyPublicKey C b = .ok xb) :
    (Nip44.deriveConversationKey C a xb = Nip44.deriveConversationKey C b xa ∧
      (C.HkdfExpands → ∃ ck, Nip44.deriveConversationKey C a xb = .ok ck)) ∧
    Nip04.deriveSharedSecret C a xb = Nip04.deriveSharedSecret C b xa ∧
      ∃ secret, Nip04.deriveSharedSecret C a xb = .ok secret := by
  obtain ⟨x, hx, -⟩ := ecdhX_eq_ok hK ha hb
  obtain ⟨secret, hsecret, hsecret'⟩ := deriveSharedSecret_eq_ok hK ha hb
  refine ⟨⟨Nip44.deriveConversationKey_comm (ecdhAgrees hK) ha hb, ?_⟩,
    hsecret.trans hsecret'.symm, secret, hsecret⟩
  intro hkdf
  rw [Nip44.deriveConversationKey, hx, Except.bind_ok, ha, Except.bind_ok]
  simp only [Except.okOr_eq_ok]
  exact hkdf _ _ _ _ (by decide)

/-- The secrets 1 and 2, whose points (2, 12) and (7, 7) have y of different parity. -/
theorem keys_agree_parities : ∃ xa xb,
    xonlyPublicKey SmallCurve.crates (Reference.bytes 32 2) = .ok xa ∧
    xonlyPublicKey SmallCurve.crates (Reference.bytes 32 1) = .ok xb ∧
    Nip44.deriveConversationKey SmallCurve.crates (Reference.bytes 32 2) xb =
      Nip44.deriveConversationKey SmallCurve.crates (Reference.bytes 32 1) xa ∧
    Nip04.deriveSharedSecret SmallCurve.crates (Reference.bytes 32 2) xb =
      Nip04.deriveSharedSecret SmallCurve.crates (Reference.bytes 32 1) xa := by
  obtain ⟨xa, ha⟩ := exists_xonlyPublicKey SmallCurve.groupLaws
    (show SmallCurve.secret? (Reference.bytes 32 2) = some 1 by decide +kernel)
  obtain ⟨xb, hb⟩ := exists_xonlyPublicKey SmallCurve.groupLaws
    (show SmallCurve.secret? (Reference.bytes 32 1) = some 0 by decide +kernel)
  obtain ⟨hnip44, hnip04⟩ := keys_agree SmallCurve.groupLaws ha hb
  exact ⟨xa, xb, ha, hb, hnip44.1, hnip04.1⟩

end Secp

end UnicityNostr
