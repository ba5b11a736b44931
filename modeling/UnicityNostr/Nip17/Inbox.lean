import UnicityNostr.Client.Listener
import UnicityNostr.Nip17.Mailbox

/-!
# Private messages to a listener

A recipient that listens for its gift wraps, and subscribes again whenever it is
challenged, gets every message that is published with success, be it before it
subscribes or while it polls (`message_reaches_listener`).
-/

namespace UnicityNostr.Nip17

variable {C : Crates}

/-- A recipient that subscribes to its gift wraps, polls, and subscribes again on every
    challenge gets every message whose gift wrap a client has published with success by
    then, as soon as it has read the frames that have arrived, whatever the clients of the
    relay send before, meanwhile and afterwards. What it gets is a copy of the gift wrap
    under the same id. -/
theorem message_reaches_listener {ρ : Type} [Hub ρ] {stored : ρ → List Event}
    {opened : ρ → Nat → String → Filter → Prop} (hf : Forwards C ρ stored opened)
    (hx : C.hex.RoundTrips) (hb : C.base64.RoundTrips) (hj : C.json.RoundTrips)
    (hc : C.json.Compact) (ha : C.chacha20Poly1305.Opens) (hv : C.k256.VerifiesSigned)
    (he : Secp.EcdhAgrees C) (hk : XonlyKeysAgree C) {i j : Nat} [Clock (Shared ρ i)]
    [Clock (Shared ρ j)] (sender recipient : LocalSigner C) {params : GiftWrapParams} {w : Event}
    (hw : createGiftWrap C sender.toSigner recipient.keypair.xonly params = .ok w)
    (newcomer : RelayClient (Shared ρ i)) {publisher : RelayClient (Shared ρ i)}
    (hnew : newcomer.conn.queue = []) (calls : List RelayClient.Call) {timeout : Duration}
    {message : String}
    (hpublish : RelayClient.publish C w timeout (RelayClient.performAll C calls newcomer) =
      (.ok (true, message), publisher))
    (reader : RelayClient (Shared ρ j)) (hs : reader.signer.Signs) (subId : String) {since : Int64}
    (hsince : since ≤ params.wrapCreatedAt) {inbox : Filter}
    (hinbox : inbox = inboxFilter (C.hex.encode recipient.keypair.xonly.1) since)
    (timeouts more : List Duration) {events : List (String × Event)}
    {listening : RelayClient (Shared ρ j)}
    (hlistening : RelayClient.pollAll (RelayClient.rearmingPoller C subId inbox) timeouts
      (RelayClient.subscribe C subId inbox reader).2 = (events, listening))
    (hlater : Hub.Evolves publisher.conn.hub listening.conn.hub)
    (hmore : listening.conn.queue.length ≤ more.length) :
    ∃ w', w.Copies C w' ∧ (Event.Apart C w w' → w' ∈ stored listening.conn.hub ∧
      (subId, w') ∈ (RelayClient.pollAll (RelayClient.rearmingPoller C subId inbox)
        (timeouts ++ more) (RelayClient.subscribe C subId inbox reader).2).1 ∧
      unwrap C recipient.toSigner w' = .ok {
        eventId := w.id
        senderPubkey := C.hex.encode sender.keypair.xonly.1
        recipientPubkey := C.hex.encode recipient.keypair.xonly.1
        content := params.content
        timestamp := params.rumorCreatedAt
        kind := Kinds.chatMessage
        replyToEventId := params.replyTo }) := by
  obtain ⟨w', hid, hverify, hstored⟩ := hf.holds_evolves hlater
    (RelayClient.holds_of_published hf.toStores hnew hpublish)
  refine ⟨w', ⟨hid, hverify⟩, fun hsha => ?_⟩
  obtain ⟨hkind, hmatches, hunwrap⟩ :=
    read_of_copies hx hb hj hc ha hv he hk sender recipient hw ⟨hid, hverify⟩ hsha hsince
  obtain ⟨w'', hmem, hsucc⟩ := hstored (by rw [hkind]; rfl)
  obtain rfl := eq_of_succeeds_giftWrap hkind hsucc
  refine ⟨hmem, ?_, hunwrap⟩
  subst hinbox
  exact (RelayClient.attentive_rearmingPoller hf hx rfl).mem_pollAll_of_subscribe hf hs rfl
    timeouts more hlistening hmore hmem hmatches

/-- The signer of secret 2 listens on the board, and that of secret 1 publishes the message
    before the poll. -/
theorem message_reaches_listener_hello :
    ∃ (w : Event) (reader : RelayClient (Shared (Board Reference.crates) 1)) (inbox : Filter)
      (more : List Duration) (pm : PrivateMessage), reader.conn.hub.events = [] ∧
      inbox = inboxFilter
        (Reference.crates.hex.encode (Reference.signer Reference.two).keypair.xonly.1) 1 ∧
      pm.content = "hello" ∧ pm.replyToEventId = some "42" ∧
      ∃ w', w.Copies Reference.crates w' ∧ (Event.Apart Reference.crates w w' →
        ("dm", w') ∈ (RelayClient.pollAll (RelayClient.rearmingPoller Reference.crates "dm" inbox)
          ([5] ++ more) (RelayClient.subscribe Reference.crates "dm" inbox reader).2).1 ∧
        unwrap Reference.crates (Reference.signer Reference.two).toSigner w' = .ok pm) := by
  obtain ⟨w, hw, -⟩ := Reference.exists_createGiftWrap Reference.one Reference.two
    Reference.three rfl ((Nip44.le_calcPaddedLen calcPaddedLen_hello).1.trans (by decide))
  obtain ⟨hverify, -⟩ := unwrap_created Reference.hex_roundTrips Reference.base64_roundTrips
    Reference.json_roundTrips Reference.chacha20Poly1305_opens Reference.k256_verifiesSigned
    Reference.ecdhAgrees Reference.xonlyKeysAgree (Reference.signer Reference.one)
    (Reference.signer Reference.two) hw
  obtain ⟨inbox, hinbox⟩ : ∃ inbox, inbox = inboxFilter
    (Reference.crates.hex.encode (Reference.signer Reference.two).keypair.xonly.1) 1 := ⟨_, rfl⟩
  let board : Board Reference.crates := { archive := { stored := [] }, subs := [] }
  let newcomer : RelayClient (Shared (Board Reference.crates) 0) := .new
    { hub := board, queue := []
      others := [[⟨(1, Reference.crates.json.toString (RelayClient.reqFrame "dm" inbox)),
        Nat.one_ne_zero⟩]] }
    "wss://relay.example" (Reference.signer Reference.one).toSigner
  let reader : RelayClient (Shared (Board Reference.crates) 1) := .new
    { hub := board, queue := []
      others := [[], [⟨(0, Reference.crates.json.toString (RelayClient.eventFrame w)),
        Nat.zero_ne_one⟩]] }
    "wss://relay.example" (Reference.signer Reference.two).toSigner
  obtain ⟨publisher, hpublish, hhub⟩ := Board.publish_eq Reference.json_roundTrips newcomer rfl
    Nat.one_ne_zero rfl hverify 5
  have hlater := RelayClient.evolves_pollAll Reference.crates
    (RelayClient.evolves_rearmingPoller Reference.crates "dm" inbox) reader rfl "dm" inbox 5
  have hsame : reader.conn.hub = newcomer.conn.hub := rfl
  obtain ⟨⟨events, listening⟩, hlistening⟩ : ∃ result, RelayClient.pollAll
    (RelayClient.rearmingPoller Reference.crates "dm" inbox) [5]
      (RelayClient.subscribe Reference.crates "dm" inbox reader).2 = result := ⟨_, rfl⟩
  rw [hsame, ← hhub, hlistening] at hlater
  obtain ⟨w', hcopy, hread⟩ := message_reaches_listener
    (Board.forwards Reference.json_roundTrips) Reference.hex_roundTrips
    Reference.base64_roundTrips Reference.json_roundTrips Reference.json_compact
    Reference.chacha20Poly1305_opens Reference.k256_verifiesSigned Reference.ecdhAgrees
    Reference.xonlyKeysAgree (Reference.signer Reference.one) (Reference.signer Reference.two) hw
    newcomer rfl [] hpublish reader (Reference.signer_signs Reference.two) "dm"
    (show (1 : Int64) ≤ hello.wrapCreatedAt by decide) hinbox [5]
    (List.replicate listening.conn.queue.length 5) hlistening hlater (by rw [List.length_replicate])
  exact ⟨w, reader, inbox, _, _, rfl, hinbox, rfl, rfl, w', hcopy, fun hsha => (hread hsha).2⟩

end UnicityNostr.Nip17
