import UnicityNostr.Binding.Resolution

/-!
# Created bindings under resolution

What a created binding is worth to those who look a nametag up.

* `spelling_iff`: the spellings of a nametag that hash as the name they are
  validated as are those without a leading `@`; they all name one binding;
* `created_accepted_iff`: the created bindings that are valid, and are resolved
  when nothing else counts, are those with an address.
-/

namespace UnicityNostr.Binding

open Nametag

variable {C : Crates}

/-! ## Spellings of a nametag -/

/-- A binding created for a nametag matches the filter for the hash of the
    nametag. -/
theorem matches_of_created {signer : Signer} {s t address : String} {verified createdAt : Int64}
    {identity : Option IdentityBindingParams} {encryptedNametag : Option String} {e : Event}
    (h : createBindingEvent C signer s address verified createdAt identity encryptedNametag = .ok e)
    (hst : hashNametag C s = hashNametag C t) :
    (createNametagToPubkeyFilter C t).matches e = true := by
  obtain ⟨-, -, hkind, htags, -⟩ := fields_of_created h
  refine Filter.matches_eq_true_iff.2 ⟨⟨Filter.meets_none _, Filter.meets_none _⟩, ?_, ?_,
    by rintro _ ⟨⟩, by rintro _ ⟨⟩⟩
  · rintro _ ⟨⟩
    exact hkind ▸ List.mem_cons_self
  · intro name wanted hmem
    simp only [List.mem_cons, Prod.mk.injEq, List.not_mem_nil, or_false] at hmem
    rcases hmem with ⟨-, rfl⟩ | ⟨-, rfl⟩ | ⟨rfl, rfl⟩ | ⟨-, rfl⟩ | ⟨-, rfl⟩
    · exact Filter.meets_none _
    · exact Filter.meets_none _
    · rintro _ ⟨⟩
      refine .inr ⟨_, List.mem_cons_self, ["t", hashNametag C s], ?_, rfl, congrArg some hst⟩
      simp [htags, bindingTags]
    · exact Filter.meets_none _
    · exact Filter.meets_none _

/-- The spelling is normalized to the name it is validated as, and hashes as that
    name. -/
def NamesValidated (C : Crates) (s : String) : Prop :=
  normalizeNametag C s = validatedName C s ∧ hashNametag C s = hashNametag C (validatedName C s)

/-- The bindings created under the spelling `s` are what is looked for under the
    spelling `t`. -/
def FoundUnder (C : Crates) (s t : String) : Prop :=
  ∀ (signer : Signer) (address : String) (verified createdAt : Int64)
    (identity : Option IdentityBindingParams) (encryptedNametag : Option String) (e : Event),
    createBindingEvent C signer s address verified createdAt identity encryptedNametag = .ok e →
      e.tagValue "d" = some (hashNametag C t) ∧
        (createNametagToPubkeyFilter C t).matches e = true ∧
        countsFor C t e = isValidBindingEvent C e

/-- A valid spelling names what it is validated as if and only if it has no leading
    `@`. -/
theorem namesValidated_iff {s : String} (hs : isValidNametag C s = true) :
    NamesValidated C s ↔ s.toList.head? ≠ some '@' := by
  rw [← normalizeNametag_eq_validatedName_iff hs]
  exact ⟨fun h => h.1, fun h => ⟨h, hashNametag_validatedName hs h⟩⟩

/-- Bindings are found under the spellings with the same hash. -/
theorem foundUnder_of_hashNametag_eq {s t : String} (hhash : hashNametag C s = hashNametag C t) :
    FoundUnder C s t := by
  intro signer address verified createdAt identity encryptedNametag e h
  have hd : e.tagValue "d" = some (hashNametag C t) := hhash ▸ tagValue_d_of_created h
  exact ⟨hd, matches_of_created h hhash, by rw [countsFor, hd, beq_self_eq_true, Bool.and_true]⟩

/-- Two valid spellings of one name both name it, and the bindings created under
    the one are found under the other, if and only if neither has a leading `@`. -/
theorem spelling_iff (C : Crates) {s t : String} (hs : isValidNametag C s = true)
    (ht : isValidNametag C t = true) (hst : validatedName C s = validatedName C t) :
    (NamesValidated C s ∧ NamesValidated C t ∧ FoundUnder C s t) ↔
      s.toList.head? ≠ some '@' ∧ t.toList.head? ≠ some '@' := by
  rw [← namesValidated_iff hs, ← namesValidated_iff ht]
  constructor
  · rintro ⟨hns, hnt, -⟩
    exact ⟨hns, hnt⟩
  · rintro ⟨hns, hnt⟩
    refine ⟨hns, hnt, foundUnder_of_hashNametag_eq ?_⟩
    rw [hns.2, hst, hnt.2]

/-- The spellings `alice` and ` Alice@UNICITY` name one binding. -/
theorem spelling_iff_alice :
    ∃ e, createBindingEvent Reference.crates (Reference.signer Reference.one).toSigner "alice"
        "DIRECT://one" 5 5 none none = .ok e ∧
      hashNametag Reference.crates "alice" =
        hashNametag Reference.crates (validatedName Reference.crates "alice") ∧
      (createNametagToPubkeyFilter Reference.crates " Alice@UNICITY").matches e = true := by
  have hcreate := Reference.binding_eq_ok Reference.one "DIRECT://one" 5
  obtain ⟨halice, -, hfound⟩ := (spelling_iff Reference.crates (s := "alice")
    (t := " Alice@UNICITY") (by decide) (by decide) (by decide)).2 ⟨by decide, by decide⟩
  exact ⟨_, hcreate, halice.2, (hfound _ _ _ _ _ _ _ hcreate).2.1⟩

/-- `@alice` is validated as `alice`, but it is hashed with its `@`. -/
theorem at_alice_is_hashed_otherwise :
    ¬∀ s, isValidNametag Reference.crates s = true → NamesValidated Reference.crates s := by
  intro hclaim
  have hat := (hclaim "@alice" (by decide)).2
  exact absurd hat (by decide +kernel)

/-! ## Created bindings -/

/-- The only event that counts is resolved. -/
theorem resolveNametagOwner_of_only {nametagId : String} {events : List Event} {e : Event}
    (he : e ∈ events) (hcount : countsFor C nametagId e = true)
    (honly : ∀ e' ∈ events, countsFor C nametagId e' = true → e' = e) :
    resolveNametagOwner C events nametagId = some e := by
  obtain ⟨pre, post, rfl, hpre⟩ := List.eq_append_cons_of_mem he
  refine resolveFiltered_of_single_author ⟨hcount, pre, post, rfl, ?_, ?_⟩ ?_
  · exact fun x hx hxc _ => absurd (honly x (by simp [hx]) hxc ▸ hx) hpre
  · exact fun x hx hxc _ => honly x (by simp [hx]) hxc ▸ Int64.le_refl _
  · exact fun x hx hxc => honly x hx hxc ▸ rfl

/-- A created binding is valid, and resolved where nothing else counts, if and
    only if its address is not empty. -/
theorem created_accepted_iff (hx : C.hex.RoundTrips) (h2 : C.hex.TwoDigits)
    (hj : C.json.RoundTrips) (hv : C.k256.VerifiesSigned) (signer : LocalSigner C)
    {nametagId unicityAddress : String} {verified createdAt : Int64}
    {identity : Option IdentityBindingParams} {encryptedNametag : Option String} {e : Event}
    (h : createBindingEvent C signer.toSigner nametagId unicityAddress verified createdAt identity
      encryptedNametag = .ok e) :
    (isValidBindingEvent C e = true ∧ ∀ events, e ∈ events →
        (∀ e' ∈ events, countsFor C nametagId e' = true → e' = e) →
        resolveNametagOwner C events nametagId = some e) ↔ unicityAddress ≠ "" := by
  have hs := LocalSigner.verifiable hv signer
  have hcounts := countsFor_created h hx h2 hj hs
  rw [isValidBindingEvent_created h hx h2 hj hs]
  exact ⟨fun hvalid => hvalid.1, fun haddr =>
    ⟨haddr, fun _ he honly => resolveNametagOwner_of_only he (hcounts.2 haddr) honly⟩⟩

/-- A binding of `alice` to an address is resolved. -/
theorem created_accepted_iff_alice :
    ∃ e, createBindingEvent Reference.crates (Reference.signer Reference.one).toSigner "alice"
        "DIRECT://one" 5 5 none none = .ok e ∧ isValidBindingEvent Reference.crates e = true ∧
      resolveNametagOwner Reference.crates [e] "alice" = some e := by
  have hcreate := Reference.binding_eq_ok Reference.one "DIRECT://one" 5
  have haccepted := (created_accepted_iff Reference.hex_roundTrips Reference.hex_twoDigits
    Reference.json_roundTrips Reference.k256_verifiesSigned _ hcreate).2 (by decide)
  exact ⟨_, hcreate, haccepted.1, haccepted.2 _ (by simp) (by simp)⟩

/-- A binding of `alice` to the empty address is created, but it is not valid. -/
theorem empty_address_is_created :
    ¬∀ (signer : LocalSigner Reference.crates) (nametagId unicityAddress : String)
      (verified createdAt : Int64) (identity : Option IdentityBindingParams)
      (encryptedNametag : Option String) (e : Event),
      createBindingEvent Reference.crates signer.toSigner nametagId unicityAddress verified
        createdAt identity encryptedNametag = .ok e →
      isValidBindingEvent Reference.crates e = true := by
  intro hclaim
  have hcreate := Reference.binding_eq_ok Reference.one "" 5
  have hvalid := hclaim _ _ _ _ _ _ _ _ hcreate
  rw [isValidBindingEvent_created hcreate Reference.hex_roundTrips Reference.hex_twoDigits
    Reference.json_roundTrips (LocalSigner.verifiable Reference.k256_verifiesSigned _)] at hvalid
  exact hvalid rfl

end UnicityNostr.Binding
