import UnicityNostr.Crypto.Nip44.Capacity
import UnicityNostr.Nip17

/-!
# Seals

The text of a seal is its content, a payload of plain text, and 334 to 353 bytes
around it. It fits into a gift wrap if the rumor has at most 40960 bytes.

* `length_eventText`, `length_sealText`: the lengths of the texts;
* `exists_createGiftWrap`: the rumors that are wrapped.
-/

namespace UnicityNostr.Nip17

variable {C : Crates}

/-! ## The text -/

/-- A plain string is a literal of as many bytes, and the quotes. -/
theorem sum_strChars_of_plain {s : String} (h : ∀ c ∈ s.toList, Json.plain c = true) :
    ((Json.strChars s).map Char.utf8Size).sum = s.toList.length + 2 := by
  have hquote : Char.utf8Size '"' = 1 := by decide
  have hascii := sum_utf8Size_of_ascii fun c hc => Json.toNat_of_plain (h c hc)
  simp only [Json.strChars_of_plain h, List.map_cons, List.map_append, List.map_nil, List.sum_cons,
    List.sum_append, List.sum_nil, hquote, hascii]
  omega

/-- The text of an event without tags, made of plain strings, is as long as its
    fields and 75 bytes around them. -/
theorem length_eventText {e : Event} (htags : e.tags = [])
    (hid : ∀ c ∈ e.id.toList, Json.plain c = true)
    (hpubkey : ∀ c ∈ e.pubkey.toList, Json.plain c = true)
    (hcontent : ∀ c ∈ e.content.toList, Json.plain c = true)
    (hsig : ∀ c ∈ e.sig.toList, Json.plain c = true) :
    (utf8 (Json.text e.toJson)).length = 75 + e.id.toList.length + e.pubkey.toList.length +
      (Json.numChars e.createdAt.toInt).length + (Json.numChars e.kind.toNat).length +
      e.content.toList.length + e.sig.toList.length := by
  have hnames : ∀ name ∈ [("id", 4), ("pubkey", 8), ("created_at", 12), ("kind", 6), ("tags", 6),
      ("content", 9), ("sig", 5)], ((Json.strChars name.1).map Char.utf8Size).sum = name.2 := by
    decide
  have hmarks : ['{', '}', '[', ']', ':', ','].map Char.utf8Size = [1, 1, 1, 1, 1, 1] := by decide
  have hnum (n : Int) := sum_utf8Size_of_ascii fun c (hc : c ∈ Json.numChars n) =>
    Json.toNat_of_plain (Json.plain_of_mem_numChars hc)
  simp only [List.forall_mem_cons, List.not_mem_nil, false_imp_iff, implies_true,
    and_true] at hnames
  simp only [List.map_cons, List.map_nil, List.cons.injEq, and_true] at hmarks
  rw [length_utf8_eq_sum, Json.text, String.toList_ofList]
  simp only [Event.toJson, Event.members, tagsJson, htags, Json.chars, Json.elemsChars,
    Json.membersChars, Json.memberChars, Json.sep, List.map_nil, List.isEmpty_cons,
    List.isEmpty_nil, Bool.false_eq_true, if_false, if_true, List.map_cons, List.map_append,
    List.sum_cons, List.sum_append, List.sum_nil, hnames, hmarks, hnum, sum_strChars_of_plain hid,
    sum_strChars_of_plain hpubkey, sum_strChars_of_plain hcontent, sum_strChars_of_plain hsig]
  omega

theorem plain_of_hex (ha : C.hex.Alphanumeric) (bs : Bytes) :
    ∀ c ∈ (C.hex.encode bs).toList, Json.plain c = true := fun c hc =>
  Json.plain_of_isAlphanum (ha bs c hc)

/-- A payload is plain text. -/
theorem plain_of_payload (hs : C.base64.StandardAlphabet) {ck : U8Array 32}
    {nonce : U8Array Nip44.nonceSize} {m : Bytes} {p : String}
    (h : Nip44.encryptWithKeyNonce C ck nonce m = .ok p) :
    ∀ c ∈ p.toList, Json.plain c = true := by
  obtain ⟨_, _, _, -, -, -, rfl⟩ := Nip44.encrypt_eq_ok_iff.1 h
  intro c hc
  have halphabet := hs _ c hc
  simp only [Bool.or_eq_true, beq_iff_eq] at halphabet
  rcases halphabet with ((h | rfl) | rfl) | rfl
  · exact Json.plain_of_isAlphanum h
  · decide
  · decide
  · decide

/-- The text of a seal: its content, its date and 333 bytes. -/
theorem length_sealText_eq (hx : C.hex.RoundTrips) (h2 : C.hex.TwoDigits)
    (ha : C.hex.Alphanumeric) (hj : C.json.Compact) {sender : Signer} {content : String}
    {createdAt : Int64} {e : Event} (hcontent : ∀ c ∈ content.toList, Json.plain c = true)
    (h : Event.create C sender Kinds.seal [] content createdAt = .ok e) :
    (utf8 (C.json.toString e.toJson)).length =
      content.toList.length + (Json.numChars createdAt.toInt).length + 333 := by
  obtain ⟨sig, -, rfl⟩ := (Event.create_eq_ok hx).1 h
  have hkind : (Json.numChars Kinds.seal.toNat).length = 2 := by decide
  rw [hj _ (Event.encodable_toJson 124 _), length_eventText rfl (plain_of_hex ha _)
    (plain_of_hex ha _) hcontent (plain_of_hex ha _), hkind]
  simp only [Event.calculateId, h2 _, (C.sha256 _).2, sender.publicKey.2, sig.2]
  omega

/-- The text of a seal: its content and 334 to 353 bytes. -/
theorem length_sealText (hx : C.hex.RoundTrips) (h2 : C.hex.TwoDigits) (ha : C.hex.Alphanumeric)
    (hj : C.json.Compact) {sender : Signer} {content : String} {createdAt : Int64} {e : Event}
    (hcontent : ∀ c ∈ content.toList, Json.plain c = true)
    (h : Event.create C sender Kinds.seal [] content createdAt = .ok e) :
    content.toList.length + 333 < (utf8 (C.json.toString e.toJson)).length ∧
      (utf8 (C.json.toString e.toJson)).length ≤ content.toList.length + 353 := by
  have hdigits := Json.length_numChars_le (n := createdAt.toInt) createdAt.le_toInt
    (createdAt.toInt_lt.trans (by decide))
  have hpos := Json.length_numChars_pos createdAt.toInt
  rw [length_sealText_eq hx h2 ha hj hcontent h]
  omega

/-- The seal of a message that can be encrypted, and the length of its text. -/
theorem exists_seal (hx : C.hex.RoundTrips) (h2 : C.hex.TwoDigits) (ha : C.hex.Alphanumeric)
    (hs : C.base64.StandardAlphabet) (h4 : C.base64.FourForThree) (hj : C.json.Compact)
    (hkdf : C.HkdfExpands) (hseals : C.chacha20Poly1305.Seals) (hopens : C.chacha20Poly1305.Opens)
    {sender : Signer} (hsigns : sender.Signs) (ck : U8Array 32) (nonce : U8Array Nip44.nonceSize)
    {m : Bytes} (hm : 1 ≤ m.length ∧ m.length ≤ 65535) (createdAt : Int64) :
    ∃ content e k, Nip44.encryptWithKeyNonce C ck nonce m = .ok content ∧
      Event.create C sender Kinds.seal [] content createdAt = .ok e ∧
      Nip44.calcPaddedLen m.length = .ok k ∧
      4 * ((k + 45) / 3) + 333 < (utf8 (C.json.toString e.toJson)).length ∧
      (utf8 (C.json.toString e.toJson)).length ≤ 4 * ((k + 45) / 3) + 353 := by
  obtain ⟨content, hcontent⟩ : ∃ content, Nip44.encryptWithKeyNonce C ck nonce m = .ok content :=
    (Nip44.exists_encrypt_iff hkdf hseals).2 hm
  obtain ⟨e, he⟩ := Event.exists_create hx hsigns Kinds.seal [] content createdAt
  obtain ⟨k, hk, hlen⟩ := Nip44.length_payload h4 hopens hcontent
  have htext := length_sealText hx h2 ha hj (plain_of_payload hs hcontent) he
  rw [hlen] at htext
  exact ⟨content, e, k, hcontent, he, hk, htext⟩

/-! ## What wrapping takes -/

/-- A local signer derives a conversation key with every valid peer. -/
theorem exists_conversationKey (hkdf : C.HkdfExpands) (hkeys : XonlyKeysAgree C)
    (s : LocalSigner C) {peer : U8Array 32} {P : C.k256.PublicKey}
    (hpeer : Secp.peerPublicKey C peer = .ok P) :
    ∃ ck, s.toSigner.nip44ConversationKey peer = .ok ck := by
  have hpub := hkeys _ _ s.keypair.valid
  obtain ⟨sk, hsk, -⟩ := Except.bind_eq_ok.1 hpub
  have hshared : Secp.ecdhX C s.keypair.secret peer = .ok (C.k256.diffieHellman sk P) := by
    rw [Secp.ecdhX, hsk, Except.bind_ok, hpeer]
    rfl
  obtain ⟨okm, hokm⟩ := hkdf (if s.keypair.xonly.1 ≤ peer.1 then s.keypair.xonly.1 ++ peer.1
    else peer.1 ++ s.keypair.xonly.1) (C.k256.diffieHellman sk P).1 (utf8 "nip44-v2") 32 (by decide)
  refine ⟨okm, ?_⟩
  show Nip44.deriveConversationKey C s.keypair.secret peer = _
  rw [Nip44.deriveConversationKey, hshared, Except.bind_ok, hpub, Except.bind_ok]
  exact Except.okOr_eq_ok.2 hokm

/-- The text of a rumor is not empty. -/
theorem length_rumorJson_pos (hj : C.json.Compact) (rumor : Rumor) :
    0 < (utf8 (rumorJson C rumor)).length := by
  obtain ⟨cs, hbrace⟩ : ∃ cs, (Json.text rumor.toJson).toList = '{' :: cs :=
    ⟨_, by rw [Json.text, String.toList_ofList, Rumor.toJson, Json.chars]⟩
  rw [rumorJson, hj _ (Rumor.encodable_toJson 124 _), utf8_eq_flatMap, hbrace, List.flatMap_cons,
    List.length_append, String.length_utf8EncodeChar]
  exact Nat.add_pos_left (Char.utf8Size_pos _) _

/-- A rumor of up to 40960 bytes is wrapped. -/
theorem exists_createGiftWrap (hx : C.hex.RoundTrips) (h2 : C.hex.TwoDigits)
    (ha : C.hex.Alphanumeric) (hs : C.base64.StandardAlphabet) (h4 : C.base64.FourForThree)
    (hj : C.json.Compact) (hkdf : C.HkdfExpands) (hseals : C.chacha20Poly1305.Seals)
    (hopens : C.chacha20Poly1305.Opens) {sender : Signer}
    {recipientXonly sealConv wrapConv : U8Array 32} {params : GiftWrapParams}
    {keypair : Keypair C} (hsigns : sender.Signs)
    (hsc : sender.nip44ConversationKey recipientXonly = .ok sealConv)
    (hkp : Keypair.fromSecret C params.ephemeralSecret = .ok keypair)
    (hwc : (LocalSigner.mk keypair).toSigner.nip44ConversationKey recipientXonly = .ok wrapConv)
    (hephemeral : (LocalSigner.mk keypair).toSigner.Signs)
    (hle : (utf8 (rumorJson C (rumorOf C sender recipientXonly params))).length ≤ 40960) :
    ∃ w, createGiftWrap C sender recipientXonly params = .ok w ∧
      w.pubkey = C.hex.encode keypair.xonly.1 := by
  have hpos := length_rumorJson_pos hj (rumorOf C sender recipientXonly params)
  obtain ⟨sealContent, sealEvent, k, hcontent, hseal, hk, hlow, htext⟩ :=
    exists_seal hx h2 ha hs h4 hj hkdf hseals hopens hsigns sealConv params.sealNonce
      ⟨hpos, hle.trans (by decide)⟩ params.sealCreatedAt
  have hk' := Nip44.calcPaddedLen_le_of_le hk hle
  obtain ⟨wrapContent, hwrapContent⟩ : ∃ p, Nip44.encryptWithKeyNonce C wrapConv params.wrapNonce
      (utf8 (C.json.toString sealEvent.toJson)) = .ok p :=
    (Nip44.exists_encrypt_iff hkdf hseals).2 ⟨by omega, by omega⟩
  obtain ⟨w, hw⟩ := Event.exists_create hx hephemeral Kinds.giftWrap
    [["p", C.hex.encode recipientXonly.1]] wrapContent params.wrapCreatedAt
  exact ⟨w, createGiftWrap_eq_ok_iff.2 ⟨_, _, _, _, _, _, hsc, hcontent, hseal, hkp, hwc,
    hwrapContent, hw⟩, (Event.fields_of_create hw).1⟩

/-- The content of a message counts in full. -/
theorem length_content_le (hj : C.json.Compact) (rumor : Rumor) :
    rumor.content.toList.length ≤ (utf8 (rumorJson C rumor)).length := by
  have hcontent := Json.length_le_strChars rumor.content
  have hbytes := le_length_utf8 (Json.text rumor.toJson)
  rw [rumorJson, hj _ (Rumor.encodable_toJson 124 _)]
  refine le_trans ?_ hbytes
  rw [Json.text, String.toList_ofList]
  simp only [Rumor.toJson, Json.chars, Json.membersChars, Json.memberChars, Json.sep,
    List.isEmpty_cons, List.isEmpty_nil, Bool.false_eq_true, if_false, if_true, List.length_cons,
    List.length_append]
  omega

end UnicityNostr.Nip17
