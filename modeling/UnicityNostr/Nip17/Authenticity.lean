import UnicityNostr.Nip17.Delivery

/-!
# What an unwrapped message is worth

Unwrapping verifies the signature of the seal over its *stated* id, and does not
recompute the id. The signature binds the content as far as the stated id is the
recomputed one.

* `stated_id_is_not_recomputed`: a seal with a stated id of its own choice is
  accepted;
* `unwrap_authenticates`: what an unwrapped message does establish.
-/

namespace UnicityNostr.Nip17

variable {C : Crates}

/-- An event opens to one seal at most. -/
theorem OpensSeal.unique {recipient : Signer} {w s s' : Event} (h : OpensSeal C recipient w s)
    (h' : OpensSeal C recipient w s') : s = s' := by
  obtain ⟨eph, conv, bs, heph, hconv, hbs, hs⟩ := h
  obtain ⟨eph', conv', bs', heph', hconv', hbs', hs'⟩ := h'
  obtain rfl := Except.ok.inj (heph.symm.trans heph')
  obtain rfl := Except.ok.inj (hconv.symm.trans hconv')
  obtain rfl := Except.ok.inj (hbs.symm.trans hbs')
  exact Except.ok.inj (hs.symm.trans hs')

/-- The id a seal should state. -/
def recomputedId (C : Crates) (s : Event) : String :=
  Event.calculateId C s.pubkey s.createdAt s.kind s.tags s.content

/-- Whatever the id, an array has another text. -/
theorem exists_encode_ne (id : String) : ∃ x : U8Array 32, Hex.encode x.1 ≠ id := by
  by_contra hall
  push Not at hall
  have htexts := (hall (Reference.bytes 32 7)).trans (hall (Reference.bytes 32 8)).symm
  have h := congrArg Hex.decode htexts
  rw [Hex.decode_encode, Hex.decode_encode] at h
  exact absurd (Option.some.inj h) (by decide +kernel)

/-- The signer of secret 1 signs an id that is not the recomputed one, on a seal that
    fits into a gift wrap. -/
theorem exists_forged_event {content : String} (hlen : content.toList.length ≤ 2000)
    (hplain : ∀ c ∈ content.toList, Json.plain c = true) :
    ∃ s : Event, s.kind = Kinds.seal ∧ s.content = content ∧
      s.pubkey = Hex.encode (Reference.bytes 32 (Reference.point Reference.one)).1 ∧
      recomputedId Reference.crates s ≠ s.id ∧ SignsStatedId Reference.crates s ∧
      ∀ ck nonce, ∃ p, Nip44.encryptWithKeyNonce Reference.crates ck nonce
        (utf8 (Reference.crates.json.toString s.toJson)) = .ok p := by
  -- The id is recomputed from the other fields, so that it can be avoided.
  obtain ⟨x, hx⟩ := exists_encode_ne (Event.calculateId Reference.crates
    (Hex.encode (Reference.bytes 32 (Reference.point Reference.one)).1) 2 Kinds.seal [] content)
  obtain ⟨sig, hsig⟩ := Reference.sign_eq_ok (m := x) (Reference.ofBytes_secret Reference.one)
  refine ⟨{ id := Hex.encode x.1
            pubkey := Hex.encode (Reference.bytes 32 (Reference.point Reference.one)).1
            createdAt := 2, kind := Kinds.seal, tags := [], content, sig := Hex.encode sig.1 },
    rfl, rfl, rfl, hx.symm, ?_, fun ck nonce => ?_⟩
  · exact ⟨x, sig, Reference.bytes 32 (Reference.point Reference.one),
      Reference.hex_roundTrips _, Reference.hex_roundTrips _, Reference.hex_roundTrips _,
      (Reference.signer Reference.one).verifiable Reference.k256_verifiesSigned _ _ hsig⟩
  · have hhex := plain_of_hex Reference.hex_alphanumeric
    have hdate : (Json.numChars (Int64.toInt 2)).length = 1 := by decide
    have hkind : (Json.numChars Kinds.seal.toNat).length = 2 := by decide
    refine (Nip44.exists_encrypt_iff Reference.hkdfExpands Reference.chacha20Poly1305_seals).2 ?_
    rw [Reference.json_compact _ (Event.encodable_toJson 124 _), length_eventText, hdate, hkind]
    · simp only [Hex.length_encode, x.2, (Reference.bytes 32 _).2, sig.2]
      omega
    · rfl
    · exact hhex _
    · exact hhex _
    · exact hplain
    · exact hhex _

/-- The seal with the forged id is wrapped for the signer of secret 2. -/
theorem exists_forged_seal : ∃ w s : Event,
    recomputedId Reference.crates s ≠ s.id ∧
      Unwraps Reference.crates (Reference.signer Reference.two).toSigner w s
        (rumorOf Reference.crates (Reference.signer Reference.one).toSigner
          (Reference.bytes 32 (Reference.point Reference.two)) hello) := by
  obtain ⟨content, hcontent⟩ : ∃ p, Nip44.encryptWithKeyNonce Reference.crates
      (Reference.bytes 32 (3 ^ (Reference.one.1 * Reference.two.1) % Reference.modulus))
      hello.sealNonce (utf8 (rumorJson Reference.crates (rumorOf Reference.crates
        (Reference.signer Reference.one).toSigner
        (Reference.bytes 32 (Reference.point Reference.two)) hello))) = .ok p :=
    (Nip44.exists_encrypt_iff Reference.hkdfExpands Reference.chacha20Poly1305_seals).2
      (Nip44.range_of_calcPaddedLen calcPaddedLen_hello)
  obtain ⟨k, hk, hlen⟩ := Nip44.length_payload Reference.base64_fourForThree
    Reference.chacha20Poly1305_opens hcontent
  obtain rfl := Except.ok.inj (calcPaddedLen_hello.symm.trans hk)
  obtain ⟨s, hskind, hscontent, hspub, hforged, hsigned, hencrypt⟩ := exists_forged_event
    (by omega) (plain_of_payload Reference.base64_standardAlphabet hcontent)
  obtain ⟨wrapContent, hwrapContent⟩ := hencrypt
    (Reference.bytes 32 (3 ^ (Reference.three.1 * Reference.two.1) % Reference.modulus))
    hello.wrapNonce
  obtain ⟨w, hw⟩ := Reference.create_eq_ok Reference.three Kinds.giftWrap [] wrapContent 1
  obtain ⟨hwp, -, hwk, -, hwcontent⟩ := Event.fields_of_create hw
  rw [← hwcontent] at hwrapContent
  rw [← hscontent] at hcontent
  have hwp : Reference.crates.hex.decode w.pubkey =
      .ok (Reference.bytes 32 (Reference.point Reference.three)).1 := by
    rw [hwp]
    exact Reference.hex_roundTrips _
  have hspub : Reference.crates.hex.decode s.pubkey =
      .ok (Reference.bytes 32 (Reference.point Reference.one)).1 := by
    rw [hspub]
    exact Reference.hex_roundTrips _
  exact ⟨w, s, hforged, unwraps_of_encrypted Reference.base64_roundTrips
    Reference.chacha20Poly1305_opens Reference.json_roundTrips hwk hwp
    (Reference.conversationKey_eq_ok Reference.two Reference.three) hwrapContent hskind hsigned
    hspub (Reference.conversationKey_eq_ok Reference.two Reference.one) hcontent⟩

/-- The seal with the forged id is unwrapped. -/
theorem stated_id_is_not_recomputed :
    ¬∀ (recipient : LocalSigner Reference.crates) (w : Event) (pm : PrivateMessage),
      unwrap Reference.crates recipient.toSigner w = .ok pm →
      ∀ s, OpensSeal Reference.crates recipient.toSigner w s →
        s.kind = Kinds.seal ∧ recomputedId Reference.crates s = s.id := by
  intro hclaim
  obtain ⟨w, s, hforged, hunwraps⟩ := exists_forged_seal
  exact hforged (hclaim _ w _ (unwrap_eq_ok_iff.2 ⟨s, _, hunwraps, rfl⟩) s hunwraps.opensSeal).2

/-- What an unwrapped message establishes: there is one seal the gift wrap opens
    to, of the kind of seals; its signature verifies over its stated id under the
    key of the sender of the message, which is all of verifying the seal if the
    stated id is the recomputed one; content, date and kind of the message are
    those of the rumor the content of the seal opens to. Another accepted seal of
    the same id has the same content, if both state their recomputed ids and the
    hash does not collide on them. -/
theorem unwrap_authenticates (hx : C.hex.RoundTrips) (hj : C.json.RoundTrips) {recipient : Signer}
    {w : Event} {pm : PrivateMessage} (h : unwrap C recipient w = .ok pm) :
    ∃ sealEvent rumor,
      (∀ s, OpensSeal C recipient w s ↔ s = sealEvent) ∧ sealEvent.kind = Kinds.seal ∧
      SignsStatedId C sealEvent ∧ OpensRumor C recipient sealEvent rumor ∧
      pm = message C recipient w sealEvent rumor ∧
      (recomputedId C sealEvent = sealEvent.id → sealEvent.verify C = true) ∧
      ∀ (recipient' : Signer) (w' : Event) (pm' : PrivateMessage) (s' : Event),
        unwrap C recipient' w' = .ok pm' → OpensSeal C recipient' w' s' → s'.id = sealEvent.id →
        recomputedId C sealEvent = sealEvent.id → recomputedId C s' = s'.id →
        (C.sha256 (s'.idBytes C) = C.sha256 (sealEvent.idBytes C) →
          s'.idBytes C = sealEvent.idBytes C) →
        s'.content = sealEvent.content ∧ pm'.senderPubkey = pm.senderPubkey := by
  obtain ⟨sealEvent, rumor, hunwraps, hpm⟩ := unwrap_eq_ok_iff.1 h
  refine ⟨sealEvent, rumor, fun s => ⟨fun hs => hs.unique hunwraps.opensSeal, ?_⟩,
    hunwraps.sealKind, hunwraps.signsStatedId, hunwraps.opensRumor, hpm, ?_, ?_⟩
  · rintro rfl
    exact hunwraps.opensSeal
  · intro hrecomputed
    exact Event.verify_eq_true_iff.2 ⟨hrecomputed, hunwraps.signsStatedId⟩
  · intro recipient' w' pm' s' h' hopens hid hrecomputed hrecomputed' hsha
    obtain ⟨s'', rumor', hunwraps', hpm'⟩ := unwrap_eq_ok_iff.1 h'
    obtain rfl := hopens.unique hunwraps'.opensSeal
    obtain ⟨hpubkey, -, -, -, hcontent⟩ :=
      Event.fields_eq_of_id_eq hx hj hrecomputed' hrecomputed hid hsha
    refine ⟨hcontent, ?_⟩
    rw [hpm, hpm']
    exact hpubkey

/-- The message in the forged seal is signed by its sender, if over another id. -/
theorem unwrap_authenticates_hello :
    ∃ w pm sealEvent,
      unwrap Reference.crates (Reference.signer Reference.two).toSigner w = .ok pm ∧
      OpensSeal Reference.crates (Reference.signer Reference.two).toSigner w sealEvent ∧
      sealEvent.kind = Kinds.seal ∧ SignsStatedId Reference.crates sealEvent ∧
      pm.content = "hello" ∧ pm.senderPubkey = sealEvent.pubkey := by
  obtain ⟨w, s, -, hunwraps⟩ := exists_forged_seal
  obtain ⟨sealEvent, rumor, hopens, hkind, hsigned, -, hpm, -⟩ :=
    unwrap_authenticates Reference.hex_roundTrips Reference.json_roundTrips
      (unwrap_eq_ok_iff.2 ⟨s, _, hunwraps, rfl⟩)
  refine ⟨w, _, sealEvent, unwrap_eq_ok_iff.2 ⟨s, _, hunwraps, rfl⟩, (hopens _).2 rfl, hkind,
    hsigned, rfl, ?_⟩
  rw [hpm]
  rfl

end UnicityNostr.Nip17
