import UnicityNostr.Nip17
import UnicityNostr.Reference

/-!
# Delivery of gift wraps

A gift wrap created for a recipient unwraps with the recipient's signer to the
message that was wrapped, and with no signer that derives another key for it
(`delivers`), as far as the crates keep their laws.
-/

namespace UnicityNostr.Nip17

variable {C : Crates}

/-- The layers of a gift wrap come off one by one: each content is encrypted
    under the key the recipient derives for its author. -/
theorem unwraps_of_encrypted (hb : C.base64.RoundTrips) (ha : C.chacha20Poly1305.Opens)
    (hj : C.json.RoundTrips) {recipient : Signer} {w sealEvent : Event} {rumor : Rumor}
    {eph sealPub wrapConv sealConv : U8Array 32} {wrapNonce sealNonce : U8Array Nip44.nonceSize}
    (hwk : w.kind = Kinds.giftWrap) (hwp : C.hex.decode w.pubkey = .ok eph.1)
    (hwc : recipient.nip44ConversationKey eph = .ok wrapConv)
    (hw : Nip44.encryptWithKeyNonce C wrapConv wrapNonce
      (utf8 (C.json.toString sealEvent.toJson)) = .ok w.content)
    (hsk : sealEvent.kind = Kinds.seal) (hsigned : SignsStatedId C sealEvent)
    (hsp : C.hex.decode sealEvent.pubkey = .ok sealPub.1)
    (hsc : recipient.nip44ConversationKey sealPub = .ok sealConv)
    (hs : Nip44.encryptWithKeyNonce C sealConv sealNonce (utf8 (rumorJson C rumor)) =
      .ok sealEvent.content) : Unwraps C recipient w sealEvent rumor where
  wrapKind := hwk
  opensSeal := ⟨eph, wrapConv, _, hexArray_eq_ok.2 hwp, hwc, Nip44.decrypt_encrypt hb ha hw,
    fromSlice_toString hj (Event.encodable_toJson 124 _) (Event.ofJson_toJson _)⟩
  sealKind := hsk
  signsStatedId := hsigned
  opensRumor := ⟨sealPub, sealConv, _, hexArray_eq_ok.2 hsp, hsc, Nip44.decrypt_encrypt hb ha hs,
    fromSlice_toString hj (Rumor.encodable_toJson 124 _) (Rumor.ofJson_toJson _)⟩

/-- An event a verifiable signer creates signs its stated id. -/
theorem signsStatedId_of_create (hx : C.hex.RoundTrips) {signer : Signer}
    (hs : signer.Verifiable C) {kind : UInt32} {tags : List Tag} {content : String}
    {createdAt : Int64} {e : Event}
    (h : Event.create C signer kind tags content createdAt = .ok e) :
    SignsStatedId C e :=
  (Event.verify_eq_true_iff.1 (Event.verify_of_signed hx hs h)).2

/-- The rumor of a message replies to what the message replies to. -/
theorem replyToEventId_rumorOf (sender : Signer) (recipientXonly : U8Array 32)
    (params : GiftWrapParams) :
    replyToEventId (rumorOf C sender recipientXonly params) = params.replyTo := by
  have hp : (["p", C.hex.encode recipientXonly.1].head? == some "e") = false := by simp
  simp only [replyToEventId, rumorOf, rumorTags, List.find?_cons, hp]
  cases params.replyTo <;> rfl

/-- A signer under whose conversation key the content of a gift wrap does not
    open cannot unwrap it. -/
theorem unwrap_eq_error {recipient : Signer} {w : Event} {eph : U8Array 32}
    (hwp : C.hex.decode w.pubkey = .ok eph.1)
    (h : ∀ ck, recipient.nip44ConversationKey eph = .ok ck →
      ∀ bs, Nip44.decryptWithKey C ck w.content ≠ .ok bs) :
    ∃ e, unwrap C recipient w = .error e := by
  cases hu : unwrap C recipient w with
  | error e => exact ⟨e, rfl⟩
  | ok pm =>
    obtain ⟨_, _, ⟨-, ⟨eph', ck, bs, heph, hck, hbs, -⟩, -, -, -⟩, -⟩ := unwrap_eq_ok_iff.1 hu
    have heq : eph'.1 = eph.1 := Except.ok.inj ((hexArray_eq_ok.1 heph).symm.trans hwp)
    exact absurd hbs (h ck (Subtype.ext heq ▸ hck) bs)

/-- A created gift wrap verifies, and unwraps to the message for the recipient. -/
theorem unwrap_created (hx : C.hex.RoundTrips) (hb : C.base64.RoundTrips) (hj : C.json.RoundTrips)
    (ha : C.chacha20Poly1305.Opens) (hv : C.k256.VerifiesSigned) (he : Secp.EcdhAgrees C)
    (hk : XonlyKeysAgree C) (sender recipient : LocalSigner C) {params : GiftWrapParams} {w : Event}
    (h : createGiftWrap C sender.toSigner recipient.keypair.xonly params = .ok w) :
    w.verify C = true ∧ unwrap C recipient.toSigner w = .ok {
      eventId := w.id
      senderPubkey := C.hex.encode sender.keypair.xonly.1
      recipientPubkey := C.hex.encode recipient.keypair.xonly.1
      content := params.content
      timestamp := params.rumorCreatedAt
      kind := Kinds.chatMessage
      replyToEventId := params.replyTo } := by
  obtain ⟨sealConv, sealContent, sealEvent, keypair, wrapConv, wrapContent, hsc, hs, hseal, -, hwc,
    hw, hwrap⟩ := createGiftWrap_eq_ok_iff.1 h
  let ephemeral : LocalSigner C := ⟨keypair⟩
  have hsender := LocalSigner.verifiable hv sender
  obtain ⟨hsp, -, hsk, -, hscontent⟩ := Event.fields_of_create hseal
  obtain ⟨hwp, -, hwk, -, hwcontent⟩ := Event.fields_of_create hwrap
  have hwp : C.hex.decode w.pubkey = .ok keypair.xonly.1 := hwp ▸ hx _
  have hwc : recipient.toSigner.nip44ConversationKey keypair.xonly = .ok wrapConv :=
    (LocalSigner.conversationKey_comm he hk recipient ephemeral).trans hwc
  have hsc : recipient.toSigner.nip44ConversationKey sender.keypair.xonly = .ok sealConv :=
    (LocalSigner.conversationKey_comm he hk recipient sender).trans hsc
  have hunwraps : Unwraps C recipient.toSigner w sealEvent
      (rumorOf C sender.toSigner recipient.keypair.xonly params) :=
    unwraps_of_encrypted hb ha hj hwk hwp hwc (hwcontent ▸ hw) hsk
      (signsStatedId_of_create hx hsender hseal) (hsp ▸ hx _) hsc (hscontent ▸ hs)
  refine ⟨Event.verify_of_signed hx (LocalSigner.verifiable hv ephemeral) hwrap,
    unwrap_eq_ok_iff.2 ⟨_, _, hunwraps, ?_⟩⟩
  rw [message, replyToEventId_rumorOf, hsp]
  rfl

/-- A created gift wrap verifies; the recipient unwraps it into the message that
    was wrapped; and no signer unwraps it whose conversation key with the
    ephemeral key is another one, under which the cipher does not open what was
    sealed. -/
theorem delivers (hx : C.hex.RoundTrips) (hb : C.base64.RoundTrips) (hj : C.json.RoundTrips)
    (ha : C.chacha20Poly1305.Opens) (hv : C.k256.VerifiesSigned) (he : Secp.EcdhAgrees C)
    (hk : XonlyKeysAgree C) (sender recipient : LocalSigner C) (params : GiftWrapParams) {w : Event}
    (h : createGiftWrap C sender.toSigner recipient.keypair.xonly params = .ok w) :
    w.verify C = true ∧
    unwrap C recipient.toSigner w = .ok {
      eventId := w.id
      senderPubkey := C.hex.encode sender.keypair.xonly.1
      recipientPubkey := C.hex.encode recipient.keypair.xonly.1
      content := params.content
      timestamp := params.rumorCreatedAt
      kind := Kinds.chatMessage
      replyToEventId := params.replyTo } ∧
    ∀ (other : Signer) (eph ck : U8Array 32), hexKey C w.pubkey = .ok eph →
      recipient.toSigner.nip44ConversationKey eph = .ok ck →
      (∀ ck', other.nip44ConversationKey eph = .ok ck' → ck' ≠ ck) →
      (∀ ck', other.nip44ConversationKey eph = .ok ck' → ck' ≠ ck →
        Nip44.Separates C params.wrapNonce.1 ck ck') →
      ∃ e, unwrap C other w = .error e := by
  obtain ⟨hverify, hunwrap⟩ := unwrap_created hx hb hj ha hv he hk sender recipient h
  refine ⟨hverify, hunwrap, fun other eph ck heph hck hdiffers hseparates => ?_⟩
  -- Nothing for anybody else.
  obtain ⟨_, _, _, keypair, wrapConv, _, -, -, -, -, hwc, hw, hwrap⟩ :=
    createGiftWrap_eq_ok_iff.1 h
  obtain ⟨hwp, -, -, -, hwcontent⟩ := Event.fields_of_create hwrap
  have hwp : C.hex.decode w.pubkey = .ok keypair.xonly.1 := hwp ▸ hx _
  obtain rfl : keypair.xonly = eph :=
    Subtype.ext (Except.ok.inj (hwp.symm.trans (hexArray_eq_ok.1 heph)))
  have hwc : recipient.toSigner.nip44ConversationKey keypair.xonly = .ok wrapConv :=
    (LocalSigner.conversationKey_comm he hk recipient ⟨keypair⟩).trans hwc
  obtain rfl := Except.ok.inj (hwc.symm.trans hck)
  refine unwrap_eq_error hwp fun ck' hck' bs => ?_
  exact Nip44.decrypt_of_separates hb ha (hwcontent ▸ hw)
    (hseparates ck' hck' (hdiffers ck' hck'))

/-- A message. -/
def hello : GiftWrapParams where
  content := "hello"
  replyTo := some "42"
  rumorCreatedAt := 3
  sealCreatedAt := 2
  wrapCreatedAt := 1
  ephemeralSecret := Reference.bytes 32 Reference.three.1
  sealNonce := Reference.bytes 24 7
  wrapNonce := Reference.bytes 24 8

theorem calcPaddedLen_hello : Nip44.calcPaddedLen (utf8 (rumorJson Reference.crates
    (rumorOf Reference.crates (Reference.signer Reference.one).toSigner
      (Reference.bytes 32 (Reference.point Reference.two)) hello))).length = .ok 320 := by
  decide +kernel

/-- The signer of secret 1 wraps a message to that of secret 2, under the
    ephemeral secret 3; the signer of secret 1 cannot unwrap it. -/
theorem delivers_hello :
    ∃ w, createGiftWrap Reference.crates (Reference.signer Reference.one).toSigner
        (Reference.signer Reference.two).keypair.xonly hello = .ok w ∧
      w.verify Reference.crates = true ∧
      (∃ pm, unwrap Reference.crates (Reference.signer Reference.two).toSigner w = .ok pm ∧
        pm.content = "hello" ∧ pm.replyToEventId = some "42") ∧
      ∃ e, unwrap Reference.crates (Reference.signer Reference.one).toSigner w = .error e := by
  obtain ⟨w, hw, hpub⟩ := Reference.exists_createGiftWrap Reference.one Reference.two
    Reference.three rfl ((Nip44.le_calcPaddedLen calcPaddedLen_hello).1.trans (by decide))
  obtain ⟨hverify, hunwrap, hother⟩ := delivers Reference.hex_roundTrips Reference.base64_roundTrips
    Reference.json_roundTrips Reference.chacha20Poly1305_opens Reference.k256_verifiesSigned
    Reference.ecdhAgrees Reference.xonlyKeysAgree (Reference.signer Reference.one)
    (Reference.signer Reference.two) hello hw
  have heph : hexKey Reference.crates w.pubkey =
      .ok (Reference.bytes 32 (Reference.point Reference.three)) :=
    hexArray_eq_ok.2 (hpub ▸ Reference.hex_roundTrips _)
  have hkey := Reference.conversationKey_eq_ok Reference.one Reference.three
  have hdiffers : (Reference.bytes 32 (3 ^ (Reference.three.1 * Reference.two.1) %
      Reference.modulus)).1.drop 16 ≠ (Reference.bytes 32 (3 ^ (Reference.three.1 *
        Reference.one.1) % Reference.modulus)).1.drop 16 := by decide +kernel
  refine ⟨w, hw, hverify, ⟨_, hunwrap, rfl, rfl⟩, hother _ _ _ heph
    (Reference.conversationKey_eq_ok Reference.two Reference.three) ?_ ?_⟩
  · intro ck' hck' heq
    obtain rfl := Except.ok.inj (hkey.symm.trans hck')
    exact hdiffers (heq ▸ rfl)
  · intro ck' hck' _
    obtain rfl := Except.ok.inj (hkey.symm.trans hck')
    exact Reference.separates hdiffers

end UnicityNostr.Nip17
