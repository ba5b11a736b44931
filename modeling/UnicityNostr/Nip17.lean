import UnicityNostr.Event

/-!
# Gift-wrapped private messages (NIP-17)

A private message travels in three layers: the *rumor*, unsigned, with the real
date and the content; the *seal*, signed by the sender, which encrypts the rumor
to the recipient; the *gift wrap*, signed by a fresh ephemeral key, which
encrypts the seal to the recipient.

* `createGiftWrap_eq_ok_iff`: the layers of a created gift wrap;
* `unwrap_eq_ok_iff`: what has been established of the layers of a gift wrap
  when it is unwrapped.
-/

namespace UnicityNostr.Nip17

/-- An unsigned inner event. -/
structure Rumor where
  id : String
  pubkey : String
  createdAt : Int64
  kind : UInt32
  tags : List Tag
  content : String
  deriving DecidableEq

/-- A decrypted private message. -/
structure PrivateMessage where
  eventId : String
  senderPubkey : String
  recipientPubkey : String
  content : String
  timestamp : Int64
  kind : UInt32
  replyToEventId : Option String
  deriving DecidableEq

/-- The entropy and the dates of a gift wrap, supplied by the caller. -/
structure GiftWrapParams where
  content : String
  replyTo : Option String
  rumorCreatedAt : Int64
  sealCreatedAt : Int64
  wrapCreatedAt : Int64
  ephemeralSecret : U8Array 32
  sealNonce : U8Array Nip44.nonceSize
  wrapNonce : U8Array Nip44.nonceSize

namespace Rumor

/-- The document of a rumor. -/
def toJson (r : Rumor) : Json :=
  .obj [("id", .str r.id), ("pubkey", .str r.pubkey), ("created_at", .num r.createdAt.toInt),
    ("kind", .num r.kind.toNat), ("tags", tagsJson r.tags), ("content", .str r.content)]

/-- Decoding the fields of a rumor. -/
def ofFields (id pubkey createdAt kind tags content : Json) : Option Rumor := do
  let id ← id.asStr
  let pubkey ← pubkey.asStr
  let createdAt ← asI64 createdAt
  let kind ← asU32 kind
  let tags ← asTags tags
  let content ← content.asStr
  some { id, pubkey, createdAt, kind, tags, content }

/-- Decoding a rumor from a text: an object in which no field occurs twice, or
    the array of its fields. -/
def ofJson : Json → Option Rumor
  | .obj members => do
    let get := Json.soleMember members
    ofFields (← get "id") (← get "pubkey") (← get "created_at") (← get "kind") (← get "tags")
      (← get "content")
  | .arr [id, pubkey, createdAt, kind, tags, content] =>
    ofFields id pubkey createdAt kind tags content
  | _ => none

/-- The document of a rumor decodes to the rumor. -/
theorem ofJson_toJson (r : Rumor) : ofJson r.toJson = some r := by
  have hfields : ofFields (.str r.id) (.str r.pubkey) (.num r.createdAt.toInt) (.num r.kind.toNat)
      (tagsJson r.tags) (.str r.content) = some r := by
    simp [ofFields, Json.asStr, asI64_num, asU32_num, asTags_tagsJson]
  exact hfields

theorem encodable_toJson (d : Nat) (r : Rumor) : r.toJson.Encodable (d + 3) := by
  simp only [toJson, Json.Encodable, List.mem_cons, List.not_mem_nil, or_false]
  rintro m (rfl | rfl | rfl | rfl | rfl | rfl)
  · trivial
  · trivial
  · exact encodable_i64 _ _
  · exact encodable_u32 _ _
  · exact encodable_tagsJson _ _
  · trivial

end Rumor

variable (C : Crates)

/-- The text of a rumor. -/
def rumorJson (rumor : Rumor) : String := C.json.toString rumor.toJson

/-- The bytes of a public key. -/
def hexKey : String → Result (U8Array 32) := hexArray C 32 "hex key: " "pubkey != 32"

/-! ## Wrapping -/

/-- The tags of the rumor: the recipient, and the event it replies to. -/
def rumorTags (recipientHex : String) (replyTo : Option String) : List Tag :=
  ["p", recipientHex] ::
    match replyTo with
    | some reply => [["e", reply, "", "reply"]]
    | none => []

/-- The rumor of a message. -/
def rumorOf (sender : Signer) (recipientXonly : U8Array 32) (params : GiftWrapParams) : Rumor :=
  let senderPub := C.hex.encode sender.publicKey.1
  let tags := rumorTags (C.hex.encode recipientXonly.1) params.replyTo
  { id := Event.calculateId C senderPub params.rumorCreatedAt Kinds.chatMessage tags params.content,
    pubkey := senderPub, createdAt := params.rumorCreatedAt, kind := Kinds.chatMessage, tags,
    content := params.content }

/-- A signed gift wrap carrying a chat rumor from the sender to the recipient. -/
def createGiftWrap (sender : Signer) (recipientXonly : U8Array 32) (params : GiftWrapParams) :
    Result Event := do
  let senderPub := C.hex.encode sender.publicKey.1
  let recipientHex := C.hex.encode recipientXonly.1
  let rumor := rumorOf C sender recipientXonly params
  -- The seal, signed by the sender, encrypting the rumor to the recipient.
  let sealConv ← sender.nip44ConversationKey recipientXonly
  let sealContent ← Nip44.encryptWithKeyNonce C sealConv params.sealNonce (utf8 (rumorJson C rumor))
  let sealId := Event.calculateId C senderPub params.sealCreatedAt Kinds.seal [] sealContent
  let sealIdBytes ← hexId C sealId
  let sealSig ← sender.schnorrSign sealIdBytes
  let sealEvent : Event :=
    { id := sealId, pubkey := senderPub, createdAt := params.sealCreatedAt, kind := Kinds.seal,
      tags := [], content := sealContent, sig := C.hex.encode sealSig.1 }
  -- The gift wrap, signed by the ephemeral key, encrypting the seal.
  let ephemeral := (LocalSigner.mk (← Keypair.fromSecret C params.ephemeralSecret)).toSigner
  let ephPub := C.hex.encode ephemeral.publicKey.1
  let sealJson := C.json.toString sealEvent.toJson
  let wrapConv ← ephemeral.nip44ConversationKey recipientXonly
  let wrapContent ← Nip44.encryptWithKeyNonce C wrapConv params.wrapNonce (utf8 sealJson)
  let wrapTags := [["p", recipientHex]]
  let wrapId := Event.calculateId C ephPub params.wrapCreatedAt Kinds.giftWrap wrapTags wrapContent
  let wrapIdBytes ← hexId C wrapId
  let wrapSig ← ephemeral.schnorrSign wrapIdBytes
  return {
    id := wrapId, pubkey := ephPub, createdAt := params.wrapCreatedAt, kind := Kinds.giftWrap,
    tags := wrapTags, content := wrapContent, sig := C.hex.encode wrapSig.1 }

/-! ## Unwrapping -/

/-- The event a rumor replies to. -/
def replyToEventId (rumor : Rumor) : Option String :=
  (rumor.tags.find? fun t => t.head? == some "e").bind fun t => t[1]?

/-- The message of a rumor in a seal in a gift wrap. -/
def message (recipient : Signer) (giftWrap sealEvent : Event) (rumor : Rumor) : PrivateMessage where
  eventId := giftWrap.id
  senderPubkey := sealEvent.pubkey
  recipientPubkey := C.hex.encode recipient.publicKey.1
  content := rumor.content
  timestamp := rumor.createdAt
  kind := rumor.kind
  replyToEventId := replyToEventId rumor

/-- The message in a gift wrap, decrypted with the signer of the recipient; the
    signature of the seal is verified over its stated id. -/
def unwrap (recipient : Signer) (giftWrap : Event) : Result PrivateMessage :=
  if giftWrap.kind ≠ Kinds.giftWrap then .error (.malformed "event is not a gift wrap")
  else do
    -- Decrypt the seal using the ephemeral public key of the gift wrap.
    let ephemeralPub ← hexKey C giftWrap.pubkey
    let wrapConv ← recipient.nip44ConversationKey ephemeralPub
    let sealBytes ← Nip44.decryptWithKey C wrapConv giftWrap.content
    let sealEvent ← fromSlice C "seal json: " Event.ofJson sealBytes
    if sealEvent.kind ≠ Kinds.seal then .error (.malformed "inner event is not a seal")
    else do
      let sealId ← hexId C sealEvent.id
      let sealSig ← hexArray C 64 "seal sig: " "seal sig != 64" sealEvent.sig
      let sealPub ← hexKey C sealEvent.pubkey
      if !Schnorr.verify C sealSig sealId sealPub then
        .error (.decrypt "seal signature verification failed")
      else do
        -- Decrypt the rumor using the public key of the author of the seal.
        let sealConv ← recipient.nip44ConversationKey sealPub
        let rumorBytes ← Nip44.decryptWithKey C sealConv sealEvent.content
        let rumor ← fromSlice C "rumor json: " Rumor.ofJson rumorBytes
        return message C recipient giftWrap sealEvent rumor

/-! ## What is established -/

/-- The seal an event opens to, with the signer of the recipient. -/
def OpensSeal (recipient : Signer) (giftWrap sealEvent : Event) : Prop :=
  ∃ ephemeralPub wrapConv sealBytes, hexKey C giftWrap.pubkey = .ok ephemeralPub ∧
    recipient.nip44ConversationKey ephemeralPub = .ok wrapConv ∧
    Nip44.decryptWithKey C wrapConv giftWrap.content = .ok sealBytes ∧
    fromSlice C "seal json: " Event.ofJson sealBytes = .ok sealEvent

/-- The signature of the seal verifies over its stated id under its key. -/
def SignsStatedId (sealEvent : Event) : Prop :=
  ∃ (id : U8Array 32) (sig : U8Array 64) (pub : U8Array 32),
    C.hex.decode sealEvent.id = .ok id.1 ∧ C.hex.decode sealEvent.sig = .ok sig.1 ∧
    C.hex.decode sealEvent.pubkey = .ok pub.1 ∧ Schnorr.verify C sig id pub = true

/-- The rumor a seal opens to, with the signer of the recipient. -/
def OpensRumor (recipient : Signer) (sealEvent : Event) (rumor : Rumor) : Prop :=
  ∃ sealPub sealConv rumorBytes, hexKey C sealEvent.pubkey = .ok sealPub ∧
    recipient.nip44ConversationKey sealPub = .ok sealConv ∧
    Nip44.decryptWithKey C sealConv sealEvent.content = .ok rumorBytes ∧
    fromSlice C "rumor json: " Rumor.ofJson rumorBytes = .ok rumor

/-- What unwrapping a gift wrap into its layers establishes. -/
structure Unwraps (recipient : Signer) (giftWrap sealEvent : Event) (rumor : Rumor) : Prop where
  wrapKind : giftWrap.kind = Kinds.giftWrap
  opensSeal : OpensSeal C recipient giftWrap sealEvent
  sealKind : sealEvent.kind = Kinds.seal
  signsStatedId : SignsStatedId C sealEvent
  opensRumor : OpensRumor C recipient sealEvent rumor

variable {C}

/-- Unwrapping succeeds when all of it is established, and gives the message of
    the layers. -/
theorem unwrap_eq_ok_iff {recipient : Signer} {giftWrap : Event} {pm : PrivateMessage} :
    unwrap C recipient giftWrap = .ok pm ↔ ∃ sealEvent rumor,
      Unwraps C recipient giftWrap sealEvent rumor ∧
        pm = message C recipient giftWrap sealEvent rumor := by
  constructor
  · intro h
    unfold unwrap at h
    split_ifs at h with hkind
    obtain ⟨ephemeralPub, heph, h⟩ := Except.bind_eq_ok.1 h
    obtain ⟨wrapConv, hwc, h⟩ := Except.bind_eq_ok.1 h
    obtain ⟨sealBytes, hsb, h⟩ := Except.bind_eq_ok.1 h
    obtain ⟨sealEvent, hse, h⟩ := Except.bind_eq_ok.1 h
    split_ifs at h with hsk
    obtain ⟨sealId, hid, h⟩ := Except.bind_eq_ok.1 h
    obtain ⟨sealSig, hsig, h⟩ := Except.bind_eq_ok.1 h
    obtain ⟨sealPub, hpub, h⟩ := Except.bind_eq_ok.1 h
    split_ifs at h with hv
    obtain ⟨sealConv, hsc, h⟩ := Except.bind_eq_ok.1 h
    obtain ⟨rumorBytes, hrb, h⟩ := Except.bind_eq_ok.1 h
    obtain ⟨rumor, hr, h⟩ := Except.bind_eq_ok.1 h
    refine ⟨sealEvent, rumor, ⟨not_not.1 hkind, ⟨_, _, _, heph, hwc, hsb, hse⟩, not_not.1 hsk,
      ⟨sealId, sealSig, sealPub, hexArray_eq_ok.1 hid, hexArray_eq_ok.1 hsig,
        hexArray_eq_ok.1 hpub, by simpa using hv⟩, ⟨_, _, _, hpub, hsc, hrb, hr⟩⟩,
      (Except.ok.inj h).symm⟩
  · rintro ⟨sealEvent, rumor, ⟨hkind, ⟨_, _, _, heph, hwc, hsb, hse⟩, hsk,
      ⟨sealId, sealSig, sealPub, hid, hsig, hpub, hv⟩, ⟨sealPub', _, _, hpub', hsc, hrb, hr⟩⟩, rfl⟩
    -- The two readings of the key of the seal are one.
    have hid : hexId C sealEvent.id = .ok sealId := hexArray_eq_ok.2 hid
    have hsig : hexArray C 64 "seal sig: " "seal sig != 64" sealEvent.sig = .ok sealSig :=
      hexArray_eq_ok.2 hsig
    have hpub : hexKey C sealEvent.pubkey = .ok sealPub := hexArray_eq_ok.2 hpub
    obtain rfl := Except.ok.inj (hpub.symm.trans hpub')
    simp only [unwrap, hkind, heph, hwc, hsb, hse, hsk, hid, hsig, hpub, hv, hsc, hrb, hr,
      ne_eq, not_true_eq_false, if_false, Except.bind_ok, Bool.not_true, Bool.false_eq_true]
    rfl

/-- Wrapping is encrypting, creating the seal, encrypting it, and creating the
    gift wrap. -/
theorem createGiftWrap_eq (sender : Signer) (recipientXonly : U8Array 32)
    (params : GiftWrapParams) : createGiftWrap C sender recipientXonly params = (do
      let sealConv ← sender.nip44ConversationKey recipientXonly
      let sealContent ← Nip44.encryptWithKeyNonce C sealConv params.sealNonce
        (utf8 (rumorJson C (rumorOf C sender recipientXonly params)))
      let sealEvent ← Event.create C sender Kinds.seal [] sealContent params.sealCreatedAt
      let keypair ← Keypair.fromSecret C params.ephemeralSecret
      let wrapConv ← (LocalSigner.mk keypair).toSigner.nip44ConversationKey recipientXonly
      let wrapContent ← Nip44.encryptWithKeyNonce C wrapConv params.wrapNonce
        (utf8 (C.json.toString sealEvent.toJson))
      Event.create C (LocalSigner.mk keypair).toSigner Kinds.giftWrap
        [["p", C.hex.encode recipientXonly.1]] wrapContent params.wrapCreatedAt) := by
  simp only [createGiftWrap, Event.create, bind_assoc, pure_bind]

/-- The layers of a created gift wrap: the seal encrypts the rumor and is signed
    by the sender, and the gift wrap encrypts the seal and is signed by the
    ephemeral key. -/
theorem createGiftWrap_eq_ok_iff {sender : Signer} {recipientXonly : U8Array 32}
    {params : GiftWrapParams} {w : Event} :
    createGiftWrap C sender recipientXonly params = .ok w ↔
    ∃ sealConv sealContent sealEvent keypair wrapConv wrapContent,
      sender.nip44ConversationKey recipientXonly = .ok sealConv ∧
      Nip44.encryptWithKeyNonce C sealConv params.sealNonce
        (utf8 (rumorJson C (rumorOf C sender recipientXonly params))) = .ok sealContent ∧
      Event.create C sender Kinds.seal [] sealContent params.sealCreatedAt = .ok sealEvent ∧
      Keypair.fromSecret C params.ephemeralSecret = .ok keypair ∧
      (LocalSigner.mk keypair).toSigner.nip44ConversationKey recipientXonly = .ok wrapConv ∧
      Nip44.encryptWithKeyNonce C wrapConv params.wrapNonce
        (utf8 (C.json.toString sealEvent.toJson)) = .ok wrapContent ∧
      Event.create C (LocalSigner.mk keypair).toSigner Kinds.giftWrap
        [["p", C.hex.encode recipientXonly.1]] wrapContent params.wrapCreatedAt = .ok w := by
  simp only [createGiftWrap_eq, Except.bind_eq_ok, exists_and_left]

end UnicityNostr.Nip17
