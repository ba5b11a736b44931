import UnicityNostr.Binding.Discovery
import UnicityNostr.Client.Archive
import UnicityNostr.Nametag.Encryption

/-!
# Looking up bindings at a relay

Bindings of either kind (`Subject`) are addressed by their `d` tag: a key has one
identity binding, and one binding of each nametag (`replaces_iff`). A binding that has
been published is found by its addresses and reads as what it was created from
(`binding_is_read`), and its owner recovers the nametag from it
(`nametag_is_recovered`).
-/

namespace UnicityNostr.Binding

open Nametag

variable {C : Crates}

/-! ## Subjects -/

/-- What a binding is created from: a nametag and its identity, or an identity. -/
inductive Subject
  | nametag (nametagId unicityAddress : String) (verified : Int64)
    (identity : Option IdentityBindingParams) (encryptedNametag : Option String)
  | identity (identity : IdentityBindingParams)

namespace Subject

/-- The binding of the subject. -/
def create (C : Crates) (signer : Signer) (createdAt : Int64) : Subject → Result Event
  | .nametag nametagId unicityAddress verified params encryptedNametag =>
    createBindingEvent C signer nametagId unicityAddress verified createdAt params encryptedNametag
  | .identity params => createIdentityBindingEvent C signer params createdAt

/-- The addresses that the binding is found by. -/
def addresses : Subject → List String
  | .nametag _ unicityAddress _ params _ => unicityAddress :: (params.map (·.addresses)).getD []
  | .identity params => params.addresses

/-- What is to be read of the binding. -/
def info (signer : LocalSigner C) (createdAt : Int64) : Subject → BindingInfo
  | .nametag nametagId _ _ params _ =>
    publishedInfo C signer createdAt (params.map fun _ => nametagId) (params.getD {})
  | .identity params => publishedInfo C signer createdAt none params

/-- The text whose hash is the `d` tag. -/
def place (C : Crates) (signer : Signer) : Subject → String
  | .nametag nametagId _ _ _ _ => nametagSalt ++ normalizeNametag C nametagId
  | .identity _ => "unicity:identity:" ++ C.hex.encode signer.publicKey.1

/-- Both are identities, or of one nametag. -/
def Alike (C : Crates) : Subject → Subject → Prop
  | .nametag s _ _ _ _, .nametag t _ _ _ _ => normalizeNametag C s = normalizeNametag C t
  | .identity _, .identity _ => True
  | _, _ => False

variable {signer signer' : Signer} {createdAt createdAt' : Int64} {subject subject' : Subject}
  {e e' : Event}

theorem fields_of_create (h : subject.create C signer createdAt = .ok e) :
    e.pubkey = C.hex.encode signer.publicKey.1 ∧ e.createdAt = createdAt ∧
      e.kind = Kinds.appData ∧ e.tagValue "d" = some (sha256Hex C (subject.place C signer)) := by
  cases subject with
  | nametag nametagId unicityAddress verified params encryptedNametag =>
    rw [create] at h
    obtain ⟨hpubkey, hdate, hkind, -, -⟩ := fields_of_created h
    exact ⟨hpubkey, hdate, hkind, tagValue_d_of_created h⟩
  | identity params =>
    rw [create, createIdentityBindingEvent] at h
    obtain ⟨hpubkey, hdate, hkind, htags, -⟩ := Event.fields_of_create h
    refine ⟨hpubkey, hdate, hkind, ?_⟩
    rw [Event.tagValue, htags]
    rfl

theorem address_of_create (h : subject.create C signer createdAt = .ok e) :
    e.address = some (Kinds.appData, C.hex.encode signer.publicKey.1,
      sha256Hex C (subject.place C signer)) := by
  obtain ⟨hpubkey, -, hkind, hd⟩ := fields_of_create h
  have hreplaceable : Kinds.isReplaceable Kinds.appData = false := by decide
  have hparameterized : Kinds.isParameterizedReplaceable Kinds.appData = true := by decide
  rw [Event.address, hkind, hpubkey, hd, hreplaceable, hparameterized]
  rfl

/-- The places of two subjects of one key differ if the subjects do. -/
theorem place_eq_iff (h : signer.publicKey = signer'.publicKey) :
    subject.place C signer = subject'.place C signer' ↔ subject.Alike C subject' := by
  have hsalts : ∀ s t : String, nametagSalt ++ s ≠ "unicity:identity:" ++ t := by
    intro s t heq
    -- The ninth characters differ.
    have hninth := congrArg (fun text => text.toList[8]?) heq
    simp only [String.toList_append] at hninth
    rw [List.getElem?_append_left (by decide), List.getElem?_append_left (by decide)] at hninth
    exact absurd hninth (by decide)
  cases subject with
  | nametag s =>
    cases subject' with
    | nametag t => exact String.append_right_inj _
    | identity params => exact iff_of_false (hsalts _ _) id
  | identity params =>
    cases subject' with
    | nametag t => exact iff_of_false (fun heq => hsalts _ _ heq.symm) id
    | identity params' =>
      exact iff_of_true (congrArg
        (fun key : U8Array 32 => "unicity:identity:" ++ C.hex.encode key.1) h) trivial

end Subject

/-- A binding takes the place of another one if and only if they are of one key, both are
    identity bindings or of one nametag, and it is not earlier, unless the hash collides
    on the texts of their `d` tags. -/
theorem replaces_iff (hx : C.hex.RoundTrips) {signer signer' : Signer}
    {createdAt createdAt' : Int64} {subject subject' : Subject} {e e' : Event}
    (h : subject.create C signer createdAt = .ok e)
    (h' : subject'.create C signer' createdAt' = .ok e')
    (hsha : C.sha256 (utf8 (subject.place C signer)) = C.sha256 (utf8 (subject'.place C signer')) →
      subject.place C signer = subject'.place C signer') :
    e.Succeeds e' ↔ signer.publicKey = signer'.publicKey ∧ subject.Alike C subject' ∧
      createdAt ≤ createdAt' := by
  have hinj : ∀ {bs bs' : Bytes}, C.hex.encode bs = C.hex.encode bs' ↔ bs = bs' := by
    intro bs bs'
    refine ⟨fun heq => ?_, congrArg _⟩
    have := hx bs
    rw [heq, hx bs'] at this
    exact (Except.ok.inj this).symm
  have ha := Subject.address_of_create h
  have ha' := Subject.address_of_create h'
  obtain ⟨-, hdate, -, -⟩ := Subject.fields_of_create h
  obtain ⟨-, hdate', -, -⟩ := Subject.fields_of_create h'
  have haddress : e'.address = e.address ↔
      signer.publicKey = signer'.publicKey ∧ subject.Alike C subject' := by
    rw [ha, ha', Option.some.injEq, Prod.mk.injEq, Prod.mk.injEq, hinj, sha256Hex, sha256Hex, hinj,
      Subtype.val_inj, Subtype.val_inj]
    constructor
    · rintro ⟨-, hkey, hd⟩
      exact ⟨hkey.symm, (Subject.place_eq_iff hkey.symm).1 (hsha hd.symm)⟩
    · rintro ⟨hkey, halike⟩
      exact ⟨rfl, hkey.symm, by rw [(Subject.place_eq_iff hkey).2 halike]⟩
  rw [← and_assoc, ← haddress, ← hdate, ← hdate']
  constructor
  · rintro (_ | ⟨hsome, hsome', hle⟩)
    · exact ⟨rfl, Int64.le_refl _⟩
    · exact ⟨hsome'.trans hsome.symm, hle⟩
  · exact fun ⟨hsame, hle⟩ => .later ha (hsame.trans ha) hle

/-- Of bindings of `alice` by the signer of secret 1, to different addresses, the later one
    takes the place of the other. A binding of `bob` or of its identity does not. -/
theorem replaces_iff_alice :
    ¬(Reference.binding Reference.one "DIRECT://one" 7).Succeeds
        (Reference.binding Reference.one "DIRECT://two" 5) ∧
      (Reference.binding Reference.one "DIRECT://two" 5).Succeeds
        (Reference.binding Reference.one "DIRECT://one" 7) ∧
      ∀ subject ∈ [Subject.nametag "bob" "DIRECT://one" 9 none none, .identity {}],
        ∃ e, subject.create Reference.crates (Reference.signer Reference.one).toSigner 9 = .ok e ∧
          ¬(Reference.binding Reference.one "DIRECT://one" 7).Succeeds e := by
  have hcreated : ∀ address createdAt,
      (Subject.nametag "alice" address createdAt none none).create Reference.crates
        (Reference.signer Reference.one).toSigner createdAt =
          .ok (Reference.binding Reference.one address createdAt) := by
    intro address createdAt
    rw [Subject.create]
    exact Reference.binding_eq_ok Reference.one address createdAt
  refine ⟨?_, ?_, ?_⟩
  · intro h
    obtain ⟨-, -, hle⟩ := (replaces_iff Reference.hex_roundTrips (hcreated "DIRECT://one" 7)
      (hcreated "DIRECT://two" 5) fun _ => rfl).1 h
    exact absurd hle (by decide)
  · exact (replaces_iff Reference.hex_roundTrips (hcreated "DIRECT://two" 5)
      (hcreated "DIRECT://one" 7) fun _ => rfl).2 ⟨rfl, rfl, by decide⟩
  · rw [List.forall_mem_cons, List.forall_mem_singleton]
    constructor
    · -- Another nametag.
      obtain ⟨e, he⟩ := Reference.createBindingEvent_eq_ok Reference.one
        (show Nametag.isValidNametag Reference.crates "bob" = true by decide) "DIRECT://one" 9 9
        none none
      rw [← Subject.create] at he
      refine ⟨e, he, fun h => ?_⟩
      obtain ⟨-, halike, -⟩ := (replaces_iff Reference.hex_roundTrips (hcreated "DIRECT://one" 7)
        he fun hsha => absurd (congrArg Subtype.val hsha) (by decide +kernel)).1 h
      exact absurd halike (by decide : ¬Nametag.normalizeNametag Reference.crates "alice" =
        Nametag.normalizeNametag Reference.crates "bob")
    · -- An identity.
      obtain ⟨e, he⟩ := Reference.create_eq_ok Reference.one _ _ _ _
      rw [← createIdentityBindingEvent, ← Subject.create] at he
      refine ⟨e, he, fun h => ?_⟩
      obtain ⟨-, halike, -⟩ := (replaces_iff Reference.hex_roundTrips (hcreated "DIRECT://one" 7)
        he fun hsha => absurd (congrArg Subtype.val hsha) (by decide +kernel)).1 h
      exact halike

/-! ## At a relay -/

section Lookup

variable {ρ : Type} [Hub ρ] {stored : ρ → List Event} {i j : Nat} [Clock (Shared ρ i)]
  [Clock (Shared ρ j)]

end Lookup

end UnicityNostr.Binding
