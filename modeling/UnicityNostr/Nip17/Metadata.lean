import UnicityNostr.Nip17.Capacity

/-!
# What a gift wrap shows

Whoever does not decrypt a gift wrap sees its recipient, its ephemeral key, its date
and how long its content is (`outline`). The length is that of two layers of padding,
so that it tells the padded length of the rumor at most, and nothing of the sender.

* `outline_createGiftWrap`: the outline of a created gift wrap;
* `outline_eq_of_padded`: messages of one padded length look the same, whoever they
  are from.
-/

namespace UnicityNostr.Nip17

variable {C : Crates}

/-- An event, but for its strings of which only the lengths are told. -/
structure Outline where
  kind : UInt32
  tags : List Tag
  pubkey : String
  createdAt : Int64
  idLength : Nat
  contentLength : Nat
  sigLength : Nat
  deriving DecidableEq

/-- What an event shows besides its id, its content and its signature. -/
def outline (w : Event) : Outline where
  kind := w.kind
  tags := w.tags
  pubkey := w.pubkey
  createdAt := w.createdAt
  idLength := w.id.toList.length
  contentLength := w.content.toList.length
  sigLength := w.sig.toList.length

/-- The length of a payload, of a message of a padded length. -/
def payloadLength (paddedLen : Nat) : Nat := 4 * ((paddedLen + 45) / 3)

/-- The length of the text of a seal, of a rumor of a padded length. -/
def sealLength (paddedLen : Nat) (createdAt : Int64) : Nat :=
  payloadLength paddedLen + (Json.numChars createdAt.toInt).length + 333

/-- The lengths of the id and of the signature of an event. -/
theorem lengths_of_create (hx : C.hex.RoundTrips) (h2 : C.hex.TwoDigits) {signer : Signer}
    {kind : UInt32} {tags : List Tag} {content : String} {createdAt : Int64} {e : Event}
    (h : Event.create C signer kind tags content createdAt = .ok e) :
    e.id.toList.length = 64 ∧ e.sig.toList.length = 128 := by
  obtain ⟨sig, -, rfl⟩ := (Event.create_eq_ok hx).1 h
  simp only [Event.calculateId, h2 _, (C.sha256 _).2, sig.2]
  decide

/-- What a gift wrap shows is the recipient, the ephemeral key and the date, and in the
    length of its content how long the rumor is with its padding. -/
theorem outline_createGiftWrap (hx : C.hex.RoundTrips) (h2 : C.hex.TwoDigits)
    (ha : C.hex.Alphanumeric) (hs : C.base64.StandardAlphabet) (h4 : C.base64.FourForThree)
    (hj : C.json.Compact) (hopens : C.chacha20Poly1305.Opens) {sender : Signer}
    {recipientXonly : U8Array 32} {params : GiftWrapParams} {w : Event}
    (h : createGiftWrap C sender recipientXonly params = .ok w) :
    ∃ keypair k l, Keypair.fromSecret C params.ephemeralSecret = .ok keypair ∧
      Nip44.calcPaddedLen
        (utf8 (rumorJson C (rumorOf C sender recipientXonly params))).length = .ok k ∧
      Nip44.calcPaddedLen (sealLength k params.sealCreatedAt) = .ok l ∧
      outline w = {
        kind := Kinds.giftWrap
        tags := [["p", C.hex.encode recipientXonly.1]]
        pubkey := C.hex.encode keypair.xonly.1
        createdAt := params.wrapCreatedAt
        idLength := 64
        contentLength := payloadLength l
        sigLength := 128 } := by
  obtain ⟨sealConv, sealContent, sealEvent, keypair, wrapConv, wrapContent, -, hcontent, hseal,
    hkp, -, hwrapContent, hwrap⟩ := createGiftWrap_eq_ok_iff.1 h
  obtain ⟨k, hk, hlength⟩ := Nip44.length_payload h4 hopens hcontent
  obtain ⟨l, hl, hwrapLength⟩ := Nip44.length_payload h4 hopens hwrapContent
  rw [length_sealText_eq hx h2 ha hj (plain_of_payload hs hcontent) hseal, hlength] at hl
  obtain ⟨hpubkey, hdate, hkind, htags, hwc⟩ := Event.fields_of_create hwrap
  obtain ⟨hid, hsig⟩ := lengths_of_create hx h2 hwrap
  refine ⟨keypair, k, l, hkp, hk, hl, ?_⟩
  rw [outline, hpubkey, hdate, hkind, htags, hwc, hid, hsig, hwrapLength]
  rfl

/-- Two gift wraps to one recipient, with one ephemeral key and one date, look the same
    if their rumors have one padded length, and the dates of their seals have as many
    digits: the sender, the content, the reply and the dates do not show. -/
theorem outline_eq_of_padded (hx : C.hex.RoundTrips) (h2 : C.hex.TwoDigits)
    (ha : C.hex.Alphanumeric) (hs : C.base64.StandardAlphabet) (h4 : C.base64.FourForThree)
    (hj : C.json.Compact) (hopens : C.chacha20Poly1305.Opens) {sender sender' : Signer}
    {recipientXonly : U8Array 32} {params params' : GiftWrapParams} {w w' : Event}
    (h : createGiftWrap C sender recipientXonly params = .ok w)
    (h' : createGiftWrap C sender' recipientXonly params' = .ok w')
    (hephemeral : params'.ephemeralSecret = params.ephemeralSecret)
    (hdate : params'.wrapCreatedAt = params.wrapCreatedAt)
    (hdigits : (Json.numChars params'.sealCreatedAt.toInt).length =
      (Json.numChars params.sealCreatedAt.toInt).length)
    (hpadded : Nip44.calcPaddedLen
        (utf8 (rumorJson C (rumorOf C sender' recipientXonly params'))).length =
      Nip44.calcPaddedLen (utf8 (rumorJson C (rumorOf C sender recipientXonly params))).length) :
    outline w' = outline w := by
  obtain ⟨keypair, k, l, hkp, hk, hl, houtline⟩ := outline_createGiftWrap hx h2 ha hs h4 hj hopens h
  obtain ⟨keypair', k', l', hkp', hk', hl', houtline'⟩ :=
    outline_createGiftWrap hx h2 ha hs h4 hj hopens h'
  obtain rfl := Except.ok.inj (hk'.symm.trans (hpadded.trans hk))
  have hseal : sealLength k' params'.sealCreatedAt = sealLength k' params.sealCreatedAt := by
    rw [sealLength, hdigits, sealLength]
  obtain rfl := Except.ok.inj (hl'.symm.trans (hseal ▸ hl))
  obtain rfl := Except.ok.inj (hkp'.symm.trans (hephemeral ▸ hkp))
  rw [houtline', houtline, hdate]

theorem calcPaddedLen_bye : Nip44.calcPaddedLen (utf8 (rumorJson Reference.crates
    (rumorOf Reference.crates (Reference.signer Reference.three).toSigner
      (Reference.bytes 32 (Reference.point Reference.two))
      { hello with content := "bye", rumorCreatedAt := 7 }))).length = .ok 320 := by
  decide +kernel

/-- Two messages of two senders. -/
theorem outline_eq_of_padded_hello :
    ∃ w w', createGiftWrap Reference.crates (Reference.signer Reference.one).toSigner
        (Reference.bytes 32 (Reference.point Reference.two)) hello = .ok w ∧
      createGiftWrap Reference.crates (Reference.signer Reference.three).toSigner
        (Reference.bytes 32 (Reference.point Reference.two))
        { hello with content := "bye", rumorCreatedAt := 7 } = .ok w' ∧
      outline w' = outline w := by
  obtain ⟨w, hw, -⟩ := Reference.exists_createGiftWrap Reference.one Reference.two
    Reference.three rfl ((Nip44.le_calcPaddedLen calcPaddedLen_hello).1.trans (by decide))
  obtain ⟨w', hw', -⟩ := Reference.exists_createGiftWrap Reference.three Reference.two
    Reference.three rfl ((Nip44.le_calcPaddedLen calcPaddedLen_bye).1.trans (by decide))
  exact ⟨w, w', hw, hw', outline_eq_of_padded Reference.hex_roundTrips Reference.hex_twoDigits
    Reference.hex_alphanumeric Reference.base64_standardAlphabet Reference.base64_fourForThree
    Reference.json_compact Reference.chacha20Poly1305_opens hw hw' rfl rfl rfl
    (calcPaddedLen_bye.trans calcPaddedLen_hello.symm)⟩

end UnicityNostr.Nip17
