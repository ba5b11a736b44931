import UnicityNostr.Client

/-!
# Sessions with a relay

A relay works through the frames of a client in order and queues its replies in
order (`Relay`); a session is the state of the relay together with the replies
not yet read (`Session`), and is a connection. What a relay sends of its own
stands among its replies.

* `recvMsg_of_not_auth`, `recvMsg_of_auth`: receiving takes a message from the
  queue, and the answer to a challenge adds to its end;
* `GuardsEvents`, `GuardsSubs`: the relays that serve authenticated clients only
  (NIP-42); `AuthRelay` is one of them.
-/

namespace UnicityNostr

/-! ## Relays and sessions -/

/-- A relay in the state `ρ`: a frame changes the state and is replied to by a
    list of frames. -/
class Relay (ρ : Type) where
  receive : ρ → String → ρ × List String

/-- The state of a relay and the frames its client has not read yet. -/
structure Session (ρ : Type) where
  relay : ρ
  queue : List String

variable {ρ : Type}

/-- The client with a queue of frames to read. -/
def RelayClient.withQueue (queue : List String) (client : RelayClient (Session ρ)) :
    RelayClient (Session ρ) :=
  { client with conn := { client.conn with queue } }

variable [Relay ρ]

instance : RelayConnection (Session ρ) where
  send text s := (.ok (), {
    relay := (Relay.receive s.relay text).1
    queue := s.queue ++ (Relay.receive s.relay text).2 })
  recv _ s :=
    match s.queue with
    | [] => (.ok none, s)
    | text :: queue => (.ok (some text), { s with queue })
  close s := s

variable (C : Crates)

/-- The relay after a frame. -/
def Relay.after (r : ρ) (frame : Json) : ρ := (Relay.receive r (C.json.toString frame)).1

/-- The replies to a frame. -/
def Relay.replies (r : ρ) (frame : Json) : List String :=
  (Relay.receive r (C.json.toString frame)).2

namespace RelayMessage

/-- The verdict of the message on the event `id`, if it acknowledges it. -/
def verdictOn (id : String) : RelayMessage → Option (Bool × String)
  | .ok id' accepted message => if id' = id then some (accepted, message) else none
  | _ => none

/-- The subscription of the message. -/
def subId? : RelayMessage → Option String
  | .event subId _ => some subId
  | .eose subId => some subId
  | .closed subId _ => some subId
  | _ => none

/-- The message is of the subscription `subId`. -/
def onSub (subId : String) (m : RelayMessage) : Bool := m.subId? == some subId

/-- The message ends the subscription `subId`. -/
def ends (subId : String) : RelayMessage → Bool
  | .eose s => s == subId
  | .closed s _ => s == subId
  | _ => false

/-- The verified event the message brings on the subscription `subId`. -/
def served (C : Crates) (subId : String) : RelayMessage → List Event
  | .event s e => if s = subId ∧ e.verify C then [e] else []
  | _ => []

/-- The message is a challenge, or the acknowledgement of the event `id`. -/
def concernsEvent (id : String) (m : RelayMessage) : Bool := m.isAuth || (m.verdictOn id).isSome

/-- The message is a challenge, or of the subscription `subId`. -/
def concernsSub (subId : String) (m : RelayMessage) : Bool := m.isAuth || m.onSub subId

theorem onSub_of_ends {subId : String} {m : RelayMessage} (h : m.ends subId = true) :
    m.onSub subId = true := by
  cases m <;> simp_all [ends, onSub, subId?]

/-- An acknowledgement is no challenge. -/
theorem isAuth_of_verdictOn {id : String} {m : RelayMessage} {v : Bool × String}
    (h : m.verdictOn id = some v) : m.isAuth = false := by
  cases m with
  | auth challenge => cases h
  | _ => rfl

/-- The end of a subscription is no challenge. -/
theorem isAuth_of_ends {subId : String} {m : RelayMessage} (h : m.ends subId = true) :
    m.isAuth = false := by
  cases m with
  | auth challenge => cases h
  | _ => rfl

theorem served_eq_nil {subId : String} {m : RelayMessage} (h : m.onSub subId = false) :
    m.served C subId = [] := by
  cases m <;> simp_all [served, onSub, subId?]

/-- The messages of a subscription are among those that concern it. -/
theorem filter_onSub_of_concernsSub (subId : String) (ms : List RelayMessage) :
    ms.filter (·.onSub subId) = (ms.filter (·.concernsSub subId)).filter (·.onSub subId) := by
  rw [List.filter_filter]
  refine List.filter_congr fun m _ => ?_
  rw [concernsSub]
  cases m.onSub subId <;> simp

/-- The events brought by the messages of events are those that verify. -/
theorem flatMap_served_map_event (subId : String) (events : List Event) :
    (events.map (event subId)).flatMap (·.served C subId) = events.filter (·.verify C) := by
  induction events with
  | nil => rfl
  | cons e events ih =>
    rw [List.map_cons, List.flatMap_cons, ih, served, List.filter_cons]
    cases e.verify C <;> simp

end RelayMessage

/-- The messages of frames. -/
def messages (texts : List String) : List RelayMessage := texts.map (parseRelayMessage C)

@[simp] theorem messages_nil : messages C [] = [] := rfl

@[simp] theorem messages_cons (text : String) (texts : List String) :
    messages C (text :: texts) = parseRelayMessage C text :: messages C texts := rfl

@[simp] theorem messages_append (texts texts' : List String) :
    messages C (texts ++ texts') = messages C texts ++ messages C texts' :=
  List.map_append

variable {C} in
theorem filter_messages_eq_nil {p : RelayMessage → Bool} {texts : List String}
    (h : ∀ t ∈ texts, p (parseRelayMessage C t) = false) : (messages C texts).filter p = [] := by
  rw [List.filter_eq_nil_iff, messages, List.forall_mem_map]
  exact fun t ht => Bool.eq_false_iff.1 (h t ht)

variable {C} in
/-- The first message of a kind splits the frames at its own. -/
theorem exists_split {p : RelayMessage → Bool} {texts : List String} {m : RelayMessage}
    {ms : List RelayMessage} (h : (messages C texts).filter p = m :: ms) :
    ∃ texts₁ text texts₂, texts = texts₁ ++ text :: texts₂ ∧
      (∀ t ∈ texts₁, p (parseRelayMessage C t) = false) ∧ parseRelayMessage C text = m ∧
        (messages C texts₂).filter p = ms := by
  obtain ⟨ms₁, ms₂, heq, hnone, -, hms⟩ := List.filter_eq_cons_iff.1 h
  obtain ⟨texts₁, rest, rfl, rfl, hrest⟩ := List.map_eq_append_iff.1 heq
  obtain ⟨text, texts₂, rfl, rfl, rfl⟩ := List.map_eq_cons_iff.1 hrest
  exact ⟨texts₁, text, texts₂, rfl,
    fun t ht => Bool.eq_false_iff.2 (hnone _ (List.mem_map_of_mem ht)), rfl, hms⟩

variable {C} in
/-- Frames split where their messages of a kind do. -/
theorem exists_split_append {p : RelayMessage → Bool} {texts : List String}
    {ms ms' : List RelayMessage} (h : (messages C texts).filter p = ms ++ ms') :
    ∃ texts₁ texts₂, texts = texts₁ ++ texts₂ ∧ (messages C texts₁).filter p = ms ∧
      (messages C texts₂).filter p = ms' := by
  obtain ⟨ms₁, ms₂, heq, hms₁, hms₂⟩ := List.filter_eq_append_iff.1 h
  obtain ⟨texts₁, texts₂, rfl, rfl, rfl⟩ := List.map_eq_append_iff.1 heq
  exact ⟨texts₁, texts₂, rfl, hms₁, hms₂⟩

/-- A relay that authenticates the client once it answers a challenge. -/
structure Authenticates (ρ : Type) [Relay ρ] (authenticated : ρ → Bool) : Prop where
  authenticates : ∀ r auth, authenticated (Relay.after C r (RelayClient.authFrame auth)) = true
  stays_authenticated : ∀ r frame, authenticated r = true →
    authenticated (Relay.after C r frame) = true

/-- A relay that takes events from authenticated clients only: before, it refuses an
    event and demands authentication, in either order; afterwards it accepts every
    event. Other messages may stand among its replies. -/
structure GuardsEvents (ρ : Type) [Relay ρ] (authenticated : ρ → Bool) : Prop
    extends Authenticates C ρ authenticated where
  event_refused : ∀ r (event : Event), authenticated r = false → ∃ challenge message,
    (messages C (Relay.replies C r (RelayClient.eventFrame event))).filter
        (·.concernsEvent event.id) = [.auth challenge, .ok event.id false message] ∨
      (messages C (Relay.replies C r (RelayClient.eventFrame event))).filter
        (·.concernsEvent event.id) = [.ok event.id false message, .auth challenge]
  event_accepted : ∀ r (event : Event), authenticated r = true → ∃ message,
    (messages C (Relay.replies C r (RelayClient.eventFrame event))).filter
      (·.concernsEvent event.id) = [.ok event.id true message]

/-- A relay that serves authenticated clients only: before, it refuses a
    subscription and demands authentication, in either order; afterwards it answers
    a subscription with the stored events. Other messages may stand among its
    replies. -/
structure GuardsSubs (ρ : Type) [Relay ρ] (authenticated : ρ → Bool)
    (stored : ρ → Filter → List Event) : Prop extends Authenticates C ρ authenticated where
  req_refused : ∀ r subId filter, authenticated r = false → ∃ challenge message,
    (messages C (Relay.replies C r (RelayClient.reqFrame subId filter))).filter
        (·.concernsSub subId) = [.auth challenge, .closed subId message] ∨
      (messages C (Relay.replies C r (RelayClient.reqFrame subId filter))).filter
        (·.concernsSub subId) = [.closed subId message, .auth challenge]
  req_served : ∀ r subId filter, authenticated r = true →
    (messages C (Relay.replies C r (RelayClient.reqFrame subId filter))).filter
      (·.concernsSub subId) = (stored r filter).map (.event subId) ++ [.eose subId]

theorem encodable_eventFrame (event : Event) : (RelayClient.eventFrame event).Encodable 127 := by
  simp [RelayClient.eventFrame, Json.Encodable, Event.encodable_toValue 123]

theorem encodable_authFrame (auth : Event) : (RelayClient.authFrame auth).Encodable 127 := by
  simp [RelayClient.authFrame, Json.Encodable, Event.encodable_toValue 123]

theorem encodable_reqFrame (subId : String) (filter : Filter) :
    (RelayClient.reqFrame subId filter).Encodable 127 := by
  simp [RelayClient.reqFrame, Json.Encodable, Filter.encodable_toValue 124]

theorem encodable_closeFrame (subId : String) :
    (RelayClient.closeFrame subId).Encodable 127 := by
  simp [RelayClient.closeFrame, Json.Encodable]

/-- A relay that demands authentication, and serves the events it stores whatever
    the filter. -/
structure AuthRelay (C : Crates) where
  authenticated : Bool
  stored : List Event

namespace AuthRelay

variable {C}

/-- The messages the relay replies to a frame. -/
def reply (r : AuthRelay C) : Json → List RelayMessage
  | .arr [.str "EVENT", event] =>
    match Event.ofValue event with
    | some event =>
      if r.authenticated then [.ok event.id true ""]
      else [.auth "challenge", .ok event.id false "auth-required"]
    | none => [.notice "invalid"]
  | .arr [.str "REQ", .str subId, _] =>
    if r.authenticated then r.stored.map (.event subId) ++ [.eose subId]
    else [.auth "challenge", .closed subId "auth-required"]
  | _ => []

/-- Whether the frame answers a challenge. -/
def isAuthFrame : Json → Bool
  | .arr [.str "AUTH", _] => true
  | _ => false

instance : Relay (AuthRelay C) where
  receive r text :=
    match C.json.fromStr text with
    | .ok frame => ({ r with authenticated := r.authenticated || isAuthFrame frame },
      (r.reply frame).map fun m => C.json.toString m.frame)
    | .error _ => (r, [])

instance : Clock (Session (AuthRelay C)) where
  now _ := 0

theorem reply_ne_other {r : AuthRelay C} {frame : Json} {m : RelayMessage} (h : m ∈ r.reply frame)
    (text : String) : m ≠ .other text := by
  rintro rfl
  unfold reply at h
  split at h
  · split at h
    · split_ifs at h <;> simp at h
    · simp at h
  · split_ifs at h <;> simp at h
  · cases h

/-- The messages of the replies to an encodable frame. -/
theorem messages_replies (hj : C.json.RoundTrips) (r : AuthRelay C) {frame : Json}
    (henc : frame.Encodable 127) : messages C (Relay.replies C r frame) = r.reply frame := by
  have hreplies : Relay.replies C r frame =
      (r.reply frame).map fun m => C.json.toString m.frame := by
    simp only [Relay.replies, Relay.receive, (hj _ henc).1]
  rw [hreplies, messages, List.map_map]
  exact (List.map_congr_left fun m hm => parseRelayMessage_frame hj (reply_ne_other hm)).trans
    (List.map_id _)

theorem reply_eventFrame (r : AuthRelay C) (event : Event) :
    r.reply (RelayClient.eventFrame event) =
      if r.authenticated then [.ok event.id true ""]
      else [.auth "challenge", .ok event.id false "auth-required"] := by
  simp [RelayClient.eventFrame, reply, Event.ofValue_toValue]

theorem reply_reqFrame (r : AuthRelay C) (subId : String) (filter : Filter) :
    r.reply (RelayClient.reqFrame subId filter) =
      if r.authenticated then r.stored.map (.event subId) ++ [.eose subId]
      else [.auth "challenge", .closed subId "auth-required"] := by
  simp [RelayClient.reqFrame, reply]

theorem authenticates (hj : C.json.RoundTrips) :
    Authenticates C (AuthRelay C) authenticated where
  authenticates r auth := by
    simp only [Relay.after, Relay.receive, (hj _ (encodable_authFrame auth)).1]
    simp [RelayClient.authFrame, isAuthFrame]
  stays_authenticated r frame h := by
    simp only [Relay.after, Relay.receive]
    split
    · simp [h]
    · exact h

/-- The relay takes events from authenticated clients only. -/
theorem guardsEvents (hj : C.json.RoundTrips) : GuardsEvents C (AuthRelay C) authenticated where
  toAuthenticates := authenticates hj
  event_refused r event h := by
    refine ⟨"challenge", "auth-required", .inl ?_⟩
    rw [messages_replies hj r (encodable_eventFrame event), reply_eventFrame, h]
    simp [RelayMessage.concernsEvent, RelayMessage.isAuth, RelayMessage.verdictOn]
  event_accepted r event h := by
    refine ⟨"", ?_⟩
    rw [messages_replies hj r (encodable_eventFrame event), reply_eventFrame, h]
    simp [RelayMessage.concernsEvent, RelayMessage.isAuth, RelayMessage.verdictOn]

/-- The relay serves authenticated clients only. -/
theorem guardsSubs (hj : C.json.RoundTrips) :
    GuardsSubs C (AuthRelay C) authenticated fun r _ => r.stored where
  toAuthenticates := authenticates hj
  req_refused r subId filter h := by
    refine ⟨"challenge", "auth-required", .inl ?_⟩
    rw [messages_replies hj r (encodable_reqFrame subId filter), reply_reqFrame, h]
    simp [RelayMessage.concernsSub, RelayMessage.isAuth, RelayMessage.onSub, RelayMessage.subId?]
  req_served r subId filter h := by
    rw [messages_replies hj r (encodable_reqFrame subId filter), reply_reqFrame, if_pos h,
      List.filter_eq_self]
    intro m hm
    rcases List.mem_append.1 hm with hm | hm
    · obtain ⟨event, -, rfl⟩ := List.mem_map.1 hm
      simp [RelayMessage.concernsSub, RelayMessage.onSub, RelayMessage.subId?]
    · rw [List.mem_singleton.1 hm]
      simp [RelayMessage.concernsSub, RelayMessage.onSub, RelayMessage.subId?]

end AuthRelay

/-! ## Sending and receiving in a session -/

namespace RelayClient

variable {client : RelayClient (Session ρ)} {text : String} {queue : List String}

/-- The client after sending a frame. -/
def sent (frame : Json) (client : RelayClient (Session ρ)) : RelayClient (Session ρ) :=
  { client with
    conn.relay := Relay.after C client.conn.relay frame
    conn.queue := client.conn.queue ++ Relay.replies C client.conn.relay frame }

@[simp] theorem sent_queue (frame : Json) (client : RelayClient (Session ρ)) :
    (sent C frame client).conn.queue =
      client.conn.queue ++ Relay.replies C client.conn.relay frame := rfl

/-- Sending never fails in a session. -/
theorem sendFrame_eq (frame : Json) (client : RelayClient (Session ρ)) :
    sendFrame C frame client = (.ok (), sent C frame client) := rfl

theorem recv_of_nil (timeout : Duration) (h : client.conn.queue = []) :
    (onConn (RelayConnection.recv timeout) : Eff Error (RelayClient (Session ρ)) _) client =
      (.ok none, client) := by
  obtain ⟨⟨relay, queue⟩, url, signer, nextSub⟩ := client
  obtain rfl : queue = [] := h
  rfl

theorem recv_of_cons (timeout : Duration) (h : client.conn.queue = text :: queue) :
    (onConn (RelayConnection.recv timeout) : Eff Error (RelayClient (Session ρ)) _) client =
      (.ok (some text), client.withQueue queue) := by
  obtain ⟨⟨relay, queue'⟩, url, signer, nextSub⟩ := client
  obtain rfl : queue' = text :: queue := h
  rfl

variable {C} [Clock (Session ρ)]

/-- Nothing is received once the queue is read. -/
theorem recvMsg_of_nil (timeout : Duration) (h : client.conn.queue = []) :
    recvMsg C timeout client = (.ok none, client) := by
  rw [recvMsg, Eff.bind_ok (recv_of_nil timeout h)]
  rfl

/-- A message that is no challenge is taken from the queue. -/
theorem recvMsg_of_not_auth (timeout : Duration) (h : client.conn.queue = text :: queue)
    (hm : (parseRelayMessage C text).isAuth = false) :
    recvMsg C timeout client =
      (.ok (some (parseRelayMessage C text)), client.withQueue queue) :=
  recvMsg_of_recv (recv_of_cons timeout h) hm

/-- A challenge is taken from the queue and answered, if the signer signs. -/
theorem recvMsg_of_auth (timeout : Duration) (h : client.conn.queue = text :: queue)
    {challenge : String} (hm : parseRelayMessage C text = .auth challenge) :
    recvMsg C timeout client =
      match authEvent C challenge (client.withQueue queue) with
      | .ok auth => (.ok (some (.auth challenge)), sent C (authFrame auth) (client.withQueue queue))
      | .error e => (.error e, client.withQueue queue) := by
  rw [recvMsg, Eff.bind_ok (recv_of_cons timeout h)]
  simp only [hm]
  cases hauth : authEvent C challenge (client.withQueue queue) with
  | ok auth =>
    have hanswer : answerAuth C challenge (client.withQueue queue) =
        (.ok (), sent C (authFrame auth) (client.withQueue queue)) := by
      rw [answerAuth, Eff.bind_ok (Eff.read_apply _ _ ▸ congrArg (·, _) hauth)]
      exact sendFrame_eq C _ _
    exact Eff.bind_ok hanswer _
  | error e =>
    have hanswer : answerAuth C challenge (client.withQueue queue) =
        (.error e, client.withQueue queue) :=
      Eff.bind_error (Eff.read_apply _ _ ▸ congrArg (·, _) hauth) _
    exact Eff.bind_error hanswer _

/-- What receiving gives, if it does not fail: nothing, once the queue is read, or
    the message at the head of the queue, to the end of which the answer may add. -/
theorem recvMsg_cases {timeout : Duration} {m : Option RelayMessage}
    {client' : RelayClient (Session ρ)} (h : recvMsg C timeout client = (.ok m, client')) :
    (client.conn.queue = [] ∧ m = none) ∨
      ∃ text queue more, client.conn.queue = text :: queue ∧
        m = some (parseRelayMessage C text) ∧ client'.conn.queue = queue ++ more := by
  cases hq : client.conn.queue with
  | nil =>
    rw [recvMsg_of_nil timeout hq] at h
    obtain ⟨hm, -⟩ := Prod.mk.inj h
    exact .inl ⟨rfl, (Except.ok.inj hm).symm⟩
  | cons text queue =>
    refine .inr ⟨text, queue, ?_⟩
    cases ha : (parseRelayMessage C text).isAuth with
    | false =>
      rw [recvMsg_of_not_auth timeout hq ha] at h
      obtain ⟨hm, rfl⟩ := Prod.mk.inj h
      exact ⟨[], rfl, (Except.ok.inj hm).symm, (List.append_nil _).symm⟩
    | true =>
      obtain ⟨challenge, hp⟩ := RelayMessage.isAuth_eq_true_iff.1 ha
      rw [recvMsg_of_auth timeout hq hp] at h
      cases hauth : authEvent C challenge (client.withQueue queue) with
      | error e =>
        rw [hauth] at h
        cases (Prod.mk.inj h).1
      | ok auth =>
        rw [hauth] at h
        obtain ⟨hm, rfl⟩ := Prod.mk.inj h
        exact ⟨_, rfl, (hp ▸ Except.ok.inj hm).symm, rfl⟩

/-- A signer that signs answers every challenge: the message at the head of the
    queue is received. -/
theorem recvMsg_of_signs (hx : C.hex.RoundTrips) (hs : client.signer.Signs) (timeout : Duration)
    (h : client.conn.queue = text :: queue) :
    ∃ more client', recvMsg C timeout client = (.ok (some (parseRelayMessage C text)), client') ∧
      client'.conn.queue = queue ++ more ∧ client'.signer = client.signer := by
  cases ha : (parseRelayMessage C text).isAuth with
  | false =>
    exact ⟨[], _, recvMsg_of_not_auth timeout h ha, (List.append_nil _).symm, rfl⟩
  | true =>
    obtain ⟨challenge, hp⟩ := RelayMessage.isAuth_eq_true_iff.1 ha
    obtain ⟨auth, hauth⟩ : ∃ auth, authEvent C challenge (client.withQueue queue) = .ok auth :=
      Event.exists_create hx hs _ _ _ _
    have hrecv := recvMsg_of_auth timeout h hp
    rw [hauth] at hrecv
    refine ⟨_, sent C (authFrame auth) (client.withQueue queue), ?_, rfl, rfl⟩
    rw [hp]
    exact hrecv

end RelayClient

end UnicityNostr
