import UnicityNostr.Nip17.Delivery
import UnicityNostr.Nip17.Seal

/-!
# The capacity of a gift wrap

The seal is encrypted a second time, so that what fits into it is limited by the
length of its own text: rumors of up to 40960 bytes are wrapped, and no longer
ones (`createGiftWrap_capacity`).
-/

namespace UnicityNostr.Nip17

variable {C : Crates}

/-- A rumor of up to 40960 bytes is wrapped, and for a longer one there is no gift
    wrap, but the error that one of the two layers is too long. -/
theorem createGiftWrap_capacity (hx : C.hex.RoundTrips) (h2 : C.hex.TwoDigits)
    (ha : C.hex.Alphanumeric) (hs : C.base64.StandardAlphabet) (h4 : C.base64.FourForThree)
    (hj : C.json.Compact) (hkdf : C.HkdfExpands) (hseals : C.chacha20Poly1305.Seals)
    (hopens : C.chacha20Poly1305.Opens) (hkeys : XonlyKeysAgree C) {sender : Signer}
    {recipientXonly sealConv : U8Array 32} {P : C.k256.PublicKey} {params : GiftWrapParams}
    {keypair : Keypair C} (hsigns : sender.Signs)
    (hsc : sender.nip44ConversationKey recipientXonly = .ok sealConv)
    (hpeer : Secp.peerPublicKey C recipientXonly = .ok P)
    (hkp : Keypair.fromSecret C params.ephemeralSecret = .ok keypair)
    (hephemeral : (LocalSigner.mk keypair).toSigner.Signs) :
    ((∃ w, createGiftWrap C sender recipientXonly params = .ok w) ↔
      (utf8 (rumorJson C (rumorOf C sender recipientXonly params))).length ≤ 40960) ∧
    (40960 < (utf8 (rumorJson C (rumorOf C sender recipientXonly params))).length →
      createGiftWrap C sender recipientXonly params = .error (.padding "message too long")) := by
  obtain ⟨wrapConv, hwc⟩ := exists_conversationKey hkdf hkeys ⟨keypair⟩ hpeer
  have hpos := length_rumorJson_pos hj (rumorOf C sender recipientXonly params)
  have htoolong : 40960 < (utf8 (rumorJson C (rumorOf C sender recipientXonly params))).length →
      createGiftWrap C sender recipientXonly params = .error (.padding "message too long") := by
    intro hlong
    rw [createGiftWrap_eq, hsc, Except.bind_ok]
    rcases Nat.lt_or_ge 65535 (utf8 (rumorJson C (rumorOf C sender recipientXonly params))).length
      with hlonger | hmax
    · rw [Nip44.encrypt_too_long hlonger]
      rfl
    · -- The rumor is encrypted, to more than the second layer takes.
      obtain ⟨sealContent, sealEvent, k, hcontent, hseal, hk, htext, -⟩ :=
        exists_seal hx h2 ha hs h4 hj hkdf hseals hopens hsigns sealConv params.sealNonce
          ⟨hpos, hmax⟩ params.sealCreatedAt
      have hk' := Nip44.le_calcPaddedLen_of_lt hk hlong
      rw [hcontent, Except.bind_ok, hseal, Except.bind_ok, hkp, Except.bind_ok, hwc,
        Except.bind_ok, Nip44.encrypt_too_long (by omega)]
      rfl
  refine ⟨⟨fun ⟨w, hw⟩ => ?_, fun hle => ?_⟩, htoolong⟩
  · by_contra hlong
    rw [htoolong (not_le.1 hlong)] at hw
    cases hw
  · obtain ⟨w, hw, -⟩ := exists_createGiftWrap hx h2 ha hs h4 hj hkdf hseals hopens hsigns hsc hkp
      hwc hephemeral hle
    exact ⟨w, hw⟩

/-- A short message is wrapped, and a message of 41000 letters is not. -/
theorem createGiftWrap_capacity_hello :
    (∃ w, createGiftWrap Reference.crates (Reference.signer Reference.one).toSigner
      (Reference.bytes 32 (Reference.point Reference.two)) hello = .ok w) ∧
    createGiftWrap Reference.crates (Reference.signer Reference.one).toSigner
      (Reference.bytes 32 (Reference.point Reference.two))
      { hello with content := String.ofList (List.replicate 41000 'a') } =
        .error (.padding "message too long") := by
  have hpeer : Secp.peerPublicKey Reference.crates
      (Reference.bytes 32 (Reference.point Reference.two)) = .ok (Reference.point Reference.two) :=
    Reference.peerPublicKey_eq_ok Reference.two
  have hkp : Keypair.fromSecret Reference.crates (Reference.bytes 32 Reference.three.1) =
      .ok (Reference.keypair Reference.three) :=
    Keypair.fromSecret_eq_ok (Reference.keypair Reference.three).valid
  have hcapacity (params : GiftWrapParams)
      (h : params.ephemeralSecret = Reference.bytes 32 Reference.three.1) :=
    createGiftWrap_capacity Reference.hex_roundTrips Reference.hex_twoDigits
      Reference.hex_alphanumeric Reference.base64_standardAlphabet Reference.base64_fourForThree
      Reference.json_compact Reference.hkdfExpands Reference.chacha20Poly1305_seals
      Reference.chacha20Poly1305_opens Reference.xonlyKeysAgree
      (Reference.signer_signs Reference.one)
      (Reference.conversationKey_eq_ok Reference.one Reference.two) hpeer (h ▸ hkp)
      (Reference.signer_signs Reference.three)
  refine ⟨(hcapacity hello rfl).1.2 ?_, (hcapacity _ rfl).2 ?_⟩
  · exact (Nip44.le_calcPaddedLen calcPaddedLen_hello).1.trans (by decide)
  · refine lt_of_lt_of_le ?_ (length_content_le Reference.json_compact _)
    rw [rumorOf, String.toList_ofList, List.length_replicate]
    decide

end UnicityNostr.Nip17
