import UnicityNostr.Client.Archive
import UnicityNostr.Nip17.Delivery

/-!
# Private messages through a relay

A gift wrap is published by the sender and queried by the recipient, at a relay they
share with others.

* `inboxFilter_matches`: the filter of the recipient matches the gift wraps created
  for it;
* `sent_message_is_read`: the recipient reads every message that has been published
  with success.
-/

namespace UnicityNostr.Nip17

variable {C : Crates}

/-- The filter for the gift wraps of a recipient since some date. -/
def inboxFilter (recipientHex : String) (since : Int64) : Filter :=
  (((Filter.builder.kinds [Kinds.giftWrap]).pTags [recipientHex]).since since).build

/-- A created gift wrap is a gift wrap for the recipient, of the given date. -/
theorem fields_of_createGiftWrap {sender : Signer} {recipientXonly : U8Array 32}
    {params : GiftWrapParams} {w : Event}
    (h : createGiftWrap C sender recipientXonly params = .ok w) :
    w.kind = Kinds.giftWrap ∧ w.tags = [["p", C.hex.encode recipientXonly.1]] ∧
      w.createdAt = params.wrapCreatedAt := by
  obtain ⟨_, _, _, _, _, _, -, -, -, -, -, -, hwrap⟩ := createGiftWrap_eq_ok_iff.1 h
  obtain ⟨-, hdate, hkind, htags, -⟩ := Event.fields_of_create hwrap
  exact ⟨hkind, htags, hdate⟩

/-- The filter of the recipient matches the gift wraps created for it since the date. -/
theorem inboxFilter_matches {sender : Signer} {recipientXonly : U8Array 32}
    {params : GiftWrapParams} {w : Event}
    (h : createGiftWrap C sender recipientXonly params = .ok w) {since : Int64}
    (hsince : since ≤ params.wrapCreatedAt) :
    (inboxFilter (C.hex.encode recipientXonly.1) since).withoutEmpty.matches w = true := by
  obtain ⟨hkind, htags, hdate⟩ := fields_of_createGiftWrap h
  have hnot : ¬params.wrapCreatedAt < since := Int64.not_lt.2 hsince
  have hsame : (inboxFilter (C.hex.encode recipientXonly.1) since).withoutEmpty =
      inboxFilter (C.hex.encode recipientXonly.1) since := rfl
  rw [hsame]
  simp [inboxFilter, Filter.builder, FilterBuilder.kinds, FilterBuilder.pTags,
    FilterBuilder.since, FilterBuilder.build, Filter.matches, Filter.prefixMatches,
    Filter.tagMatches, hkind, htags, hdate, hnot]

/-- A copy of a created gift wrap differs from it in its signature, at which neither the
    filter nor the recipient looks. -/
theorem read_of_copies (hx : C.hex.RoundTrips) (hb : C.base64.RoundTrips) (hj : C.json.RoundTrips)
    (hc : C.json.Compact) (ha : C.chacha20Poly1305.Opens) (hv : C.k256.VerifiesSigned)
    (he : Secp.EcdhAgrees C) (hk : XonlyKeysAgree C) (sender recipient : LocalSigner C)
    {params : GiftWrapParams} {w w' : Event}
    (hw : createGiftWrap C sender.toSigner recipient.keypair.xonly params = .ok w)
    (hcopy : w.Copies C w') (hsha : Event.Apart C w w') {since : Int64}
    (hsince : since ≤ params.wrapCreatedAt) :
    w'.kind = Kinds.giftWrap ∧
      (inboxFilter (C.hex.encode recipient.keypair.xonly.1) since).withoutEmpty.matches w' = true ∧
      unwrap C recipient.toSigner w' = .ok {
        eventId := w.id
        senderPubkey := C.hex.encode sender.keypair.xonly.1
        recipientPubkey := C.hex.encode recipient.keypair.xonly.1
        content := params.content
        timestamp := params.rumorCreatedAt
        kind := Kinds.chatMessage
        replyToEventId := params.replyTo } := by
  obtain ⟨hverify, hunwrap⟩ := unwrap_created hx hb hj ha hv he hk sender recipient hw
  obtain ⟨hkind, -, -⟩ := fields_of_createGiftWrap hw
  rw [hcopy.eq hx hc hverify hsha]
  exact ⟨hkind, inboxFilter_matches hw hsince, hunwrap⟩

/-- No event takes the place of a gift wrap. -/
theorem eq_of_succeeds_giftWrap {w w' : Event} (hkind : w.kind = Kinds.giftWrap)
    (h : w.Succeeds w') : w' = w := by
  refine h.eq ?_
  rw [Event.address, hkind]
  rfl

/-- The recipient reads every message whose gift wrap a client has published with
    success, whatever the clients of the relay send before, meanwhile and afterwards.
    What it reads is a copy of the gift wrap under the same id, which has the same fields
    unless the hash collides on the two. -/
theorem sent_message_is_read {ρ : Type} [Hub ρ] {stored : ρ → List Event} (hr : Stores C ρ stored)
    (hx : C.hex.RoundTrips) (hb : C.base64.RoundTrips) (hj : C.json.RoundTrips)
    (hc : C.json.Compact) (ha : C.chacha20Poly1305.Opens) (hv : C.k256.VerifiesSigned)
    (he : Secp.EcdhAgrees C) (hk : XonlyKeysAgree C) {i j : Nat} [Clock (Shared ρ i)]
    [Clock (Shared ρ j)] (sender recipient : LocalSigner C) {params : GiftWrapParams} {w : Event}
    (hw : createGiftWrap C sender.toSigner recipient.keypair.xonly params = .ok w)
    (newcomer : RelayClient (Shared ρ i)) {publisher : RelayClient (Shared ρ i)}
    (hnew : newcomer.conn.queue = []) (calls : List RelayClient.Call) {timeout : Duration}
    {message : String}
    (hpublish : RelayClient.publish C w timeout (RelayClient.performAll C calls newcomer) =
      (.ok (true, message), publisher))
    (reader : RelayClient (Shared ρ j))
    (hlater : Hub.Evolves publisher.conn.hub reader.conn.hub) (hs : reader.signer.Signs)
    {since : Int64} (hsince : since ≤ params.wrapCreatedAt) (idle : Duration)
    (hfresh : ∀ text ∈ reader.conn.queue,
      (parseRelayMessage C text).ends reader.querySubId = false) :
    ∃ out reader' r, RelayClient.QueriesAt C
        (inboxFilter (C.hex.encode recipient.keypair.xonly.1) since) idle reader out reader' r ∧
      ∃ w', w.Copies C w' ∧ (Event.Apart C w w' → w' ∈ stored r ∧ w' ∈ out ∧
        unwrap C recipient.toSigner w' = .ok {
          eventId := w.id
          senderPubkey := C.hex.encode sender.keypair.xonly.1
          recipientPubkey := C.hex.encode recipient.keypair.xonly.1
          content := params.content
          timestamp := params.rumorCreatedAt
          kind := Kinds.chatMessage
          replyToEventId := params.replyTo }) := by
  obtain ⟨out, reader', r, hquery, w', hcopy, hfound⟩ := RelayClient.query_finds
    hr hx hs (inboxFilter (C.hex.encode recipient.keypair.xonly.1) since) rfl idle hfresh
    (hr.holds_evolves hlater (RelayClient.holds_of_published hr hnew hpublish))
  refine ⟨out, reader', r, hquery, w', hcopy, fun hsha => ?_⟩
  obtain ⟨hkind, hmatches, hunwrap⟩ :=
    read_of_copies hx hb hj hc ha hv he hk sender recipient hw hcopy hsha hsince
  obtain ⟨w'', hstored, hsucc, hout⟩ := hfound (by rw [hkind]; rfl)
  obtain rfl := eq_of_succeeds_giftWrap hkind hsucc
  exact ⟨hstored, hout hmatches, hunwrap⟩

/-- The client 0 publishes the message of the signer of secret 1 to that of secret 2, and
    the client 1 reads it from the archive, while the client 2 sends frames. -/
theorem sent_message_is_read_hello :
    ∃ (w : Event) (publisher : RelayClient (Shared (Archive Reference.crates) 0))
      (reader reader' : RelayClient (Shared (Archive Reference.crates) 1)) (out : List Event)
      (r : Archive Reference.crates) (pm : PrivateMessage),
      publisher.conn.hub.events = [w] ∧
      reader.conn.hub = (Hub.receive publisher.conn.hub 2 "noise").1 ∧
      RelayClient.QueriesAt Reference.crates
        (inboxFilter (Hex.encode (Reference.bytes 32 (Reference.point Reference.two)).1) 1) 5 reader
        out reader' r ∧ pm.content = "hello" ∧ pm.replyToEventId = some "42" ∧
      ∃ w', w.Copies Reference.crates w' ∧ (Event.Apart Reference.crates w w' →
        w' ∈ r.events ∧ w' ∈ out ∧
          unwrap Reference.crates (Reference.signer Reference.two).toSigner w' = .ok pm) := by
  obtain ⟨w, hw, -⟩ := Reference.exists_createGiftWrap Reference.one Reference.two
    Reference.three rfl ((Nip44.le_calcPaddedLen calcPaddedLen_hello).1.trans (by decide))
  obtain ⟨hverify, -⟩ := unwrap_created Reference.hex_roundTrips Reference.base64_roundTrips
    Reference.json_roundTrips Reference.chacha20Poly1305_opens Reference.k256_verifiesSigned
    Reference.ecdhAgrees Reference.xonlyKeysAgree (Reference.signer Reference.one)
    (Reference.signer Reference.two) hw
  let newcomer : RelayClient (Shared (Archive Reference.crates) 0) :=
    .new { hub := { stored := [] }, queue := [], others := [] } "wss://relay.example"
      (Reference.signer Reference.one).toSigner
  obtain ⟨publisher, hpublish, hevents⟩ := Archive.publish_eq Reference.json_roundTrips newcomer
    rfl rfl hverify 5
  let reader : RelayClient (Shared (Archive Reference.crates) 1) := .new
    { hub := (Hub.receive publisher.conn.hub 2 "noise").1, queue := []
      others := [[⟨(2, "before"), by decide⟩], [⟨(2, "meanwhile"), by decide⟩]] }
    "wss://relay.example" (Reference.signer Reference.two).toSigner
  obtain ⟨out, reader', r, hquery, hread⟩ := sent_message_is_read
    (Archive.stores Reference.json_roundTrips) Reference.hex_roundTrips Reference.base64_roundTrips
    Reference.json_roundTrips Reference.json_compact Reference.chacha20Poly1305_opens
    Reference.k256_verifiesSigned Reference.ecdhAgrees Reference.xonlyKeysAgree
    (Reference.signer Reference.one) (Reference.signer Reference.two) hw newcomer rfl [] hpublish
    reader (Hub.evolves_receive _ _ _) (Reference.signer_signs Reference.two)
    (show (1 : Int64) ≤ hello.wrapCreatedAt by decide) 5 (List.forall_mem_nil _)
  exact ⟨w, publisher, reader, reader', out, r, _, hevents, rfl, hquery, rfl, rfl, hread⟩

end UnicityNostr.Nip17
