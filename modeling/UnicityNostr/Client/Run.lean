import UnicityNostr.Client

/-!
# Runs of a client

A run is a sequence of calls of a client. What passes over the connection during
a call is recorded (`Recorded`), which does not change what the call does
(`mimics_recorded`).

* `recvMsg_received`: what receiving a message leaves on the record;
* `run`: the exchanges of a run, each a call with its reply, what passed over the
  connection, and the subscriptions that were open; `visits`: the states its calls
  are made in.
-/

namespace UnicityNostr

/-! ## Recorded connections -/

/-- What passes over a connection. -/
inductive Io
  | sent (text : String) (result : Result Unit)
  | received (result : Result (Option String))

/-- A connection with a record of what has passed over it. -/
structure Recorded (σ : Type) where
  conn : σ
  log : List Io

section

variable {σ : Type} [RelayConnection σ]

instance : RelayConnection (Recorded σ) where
  send text s :=
    let (result, conn) := RelayConnection.send text s.conn
    (result, { conn, log := s.log ++ [.sent text result] })
  recv timeout s :=
    let (result, conn) := RelayConnection.recv timeout s.conn
    (result, { conn, log := s.log ++ [.received result] })
  close s := { s with conn := RelayConnection.close s.conn }

instance [Clock σ] : Clock (Recorded σ) where
  now s := Clock.now s.conn

end

/-- A connection that takes whatever is sent, and on which the given items arrive
    one by one. -/
structure Script where
  items : List (Result (Option String))

instance : RelayConnection Script where
  send _ s := (.ok (), s)
  recv _ s :=
    match s.items with
    | [] => (.ok none, s)
    | item :: items => (item, { items })
  close s := s

instance : Clock Script where
  now _ := 0

namespace RelayClient

/-- The client of the connection without the record. -/
def erase {σ : Type} (client : RelayClient (Recorded σ)) : RelayClient σ :=
  { client with conn := client.conn.conn }

/-- The client with a record of a connection. -/
def recorded {σ : Type} (client : RelayClient σ) : RelayClient (Recorded σ) :=
  { client with conn := { conn := client.conn, log := [] } }

section Mimics

/-- The client over another connection. -/
def mapConn {σ τ : Type} (g : τ → σ) (client : RelayClient τ) : RelayClient σ :=
  { client with conn := g client.conn }

variable {σ τ : Type} [RelayConnection σ] [Clock σ] [RelayConnection τ] [Clock τ]

/-- The connection `g s` does what the connection `s` does. -/
structure Mimics (g : τ → σ) : Prop where
  send : ∀ text, Eff.Tracks g (RelayConnection.send text) (RelayConnection.send text)
  recv : ∀ timeout, Eff.Tracks g (RelayConnection.recv timeout) (RelayConnection.recv timeout)
  now : ∀ s : τ, (Clock.now (g s) : Int64) = Clock.now s

omit [RelayConnection σ] [Clock σ] [RelayConnection τ] [Clock τ] in
theorem tracks_onConn {g : τ → σ} {α : Type} {m : Eff Error τ α} {m' : Eff Error σ α}
    (h : Eff.Tracks g m m') : Eff.Tracks (mapConn g) (onConn m) (onConn m') := by
  intro client
  simp only [onConn, mapConn, h client.conn]

theorem mimics_recorded : Mimics (Recorded.conn : Recorded σ → σ) where
  send _ _ := rfl
  recv _ _ := rfl
  now _ := rfl

/-- The record, with another connection. -/
def mapRecorded (g : τ → σ) (s : Recorded τ) : Recorded σ := { conn := g s.conn, log := s.log }

/-- A connection with a record does the same over a connection that does the same. -/
theorem Mimics.mapRecorded {g : τ → σ} (h : Mimics g) : Mimics (RelayClient.mapRecorded g) where
  send text s := by
    have := h.send text s.conn
    simp only [RelayConnection.send, RelayClient.mapRecorded] at this ⊢
    rw [this]
  recv timeout s := by
    have := h.recv timeout s.conn
    simp only [RelayConnection.recv, RelayClient.mapRecorded] at this ⊢
    rw [this]
  now s := h.now s.conn

theorem Mimics.comp {υ : Type} [RelayConnection υ] [Clock υ] {g : τ → σ} {f : υ → τ}
    (h : Mimics g) (hf : Mimics f) : Mimics (g ∘ f) where
  send text s := by
    rw [Function.comp_apply, h.send, hf.send]
    rfl
  recv timeout s := by
    rw [Function.comp_apply, h.recv, hf.recv]
    rfl
  now s := (h.now (f s)).trans (hf.now s)

namespace Mimics

variable (C : Crates) {g : τ → σ} (h : Mimics g)

include h

theorem tracks_sendFrame (frame : Json) :
    Eff.Tracks (mapConn g) (sendFrame C frame) (sendFrame C frame) :=
  tracks_onConn (h.send _)

theorem tracks_authEvent (challenge : String) (client : RelayClient τ) :
    authEvent C challenge (mapConn g client) = authEvent C challenge client := by
  rw [authEvent, authEvent, mapConn, h.now]

theorem tracks_answer (m : RelayMessage) :
    Eff.Tracks (mapConn g) (answer C m) (answer C m) := by
  cases m with
  | auth challenge =>
    exact .bind (.read (h.tracks_authEvent C challenge)) fun auth =>
      h.tracks_sendFrame C (authFrame auth)
  | _ => exact .pure ()

theorem tracks_recvMsg (timeout : Duration) :
    Eff.Tracks (mapConn g) (recvMsg C timeout) (recvMsg C timeout) := by
  refine .bind (tracks_onConn (h.recv timeout)) fun text => ?_
  cases text with
  | none => exact .pure none
  | some text => exact .bind (h.tracks_answer C _) fun _ => .pure _

theorem tracks_publishRound (event : Event) (timeout : Duration) (resent : Bool) :
    Eff.Tracks (mapConn g) (publishRound C event timeout resent)
      (publishRound C event timeout resent) := by
  refine .bind (h.tracks_recvMsg C timeout) fun m => ?_
  rcases m with _ | m
  · exact .fail _
  cases m with
  | ok id accepted message =>
    by_cases hid : id = event.id
    · simp only [hid, if_true]
      exact .pure _
    · simp only [hid, if_false]
      exact .pure _
  | auth challenge =>
    cases resent with
    | true => exact .pure _
    | false => exact .bind (h.tracks_sendFrame C _) fun _ => .pure _
  | _ => exact .pure _

theorem tracks_publish (event : Event) (timeout : Duration) :
    Eff.Tracks (mapConn g) (publish C event timeout) (publish C event timeout) := by
  refine .bind (h.tracks_sendFrame C _) fun _ =>
    .bind (.loop (h.tracks_publishRound C event timeout) 64 false) fun verdict => ?_
  cases verdict with
  | none => exact .fail _
  | some verdict => exact .pure _

theorem tracks_queryRound (subId : String) (filter : Filter) (idle : Duration)
    (events : List Event) :
    Eff.Tracks (mapConn g) (queryRound C subId filter idle events)
      (queryRound C subId filter idle events) := by
  refine .bind (h.tracks_recvMsg C idle) fun m => ?_
  rcases m with _ | m
  · exact .pure _
  cases m with
  | event s event =>
    by_cases hs : s = subId ∧ event.verify C = true
    · simp only [hs, and_self, if_true]
      exact .pure _
    · simp only [hs, if_false]
      exact .pure _
  | eose s =>
    by_cases hs : s = subId
    · simp only [hs, if_true]
      exact .pure _
    · simp only [hs, if_false]
      exact .pure _
  | closed s message =>
    by_cases hs : s = subId
    · simp only [hs, if_true]
      exact .pure _
    · simp only [hs, if_false]
      exact .pure _
  | auth challenge => exact .bind (h.tracks_sendFrame C _) fun _ => .pure _
  | _ => exact .pure _

theorem tracks_query (rounds : Nat) (filter : Filter) (idle : Duration) :
    Eff.Tracks (mapConn g) (query C rounds filter idle)
      (query C rounds filter idle) := by
  have hsub : Eff.Tracks (mapConn g) nextSubId nextSubId := fun _ => rfl
  refine .bind hsub fun subId => .bind (h.tracks_sendFrame C _) fun _ =>
    .bind (.loop (h.tracks_queryRound C subId filter idle) rounds []) fun events => ?_
  cases events with
  | none => exact .pure _
  | some events => exact .bind (.attempt (h.tracks_sendFrame C _)) fun _ => .pure _

theorem tracks_pollEvent (timeout : Duration) :
    Eff.Tracks (mapConn g) (pollEvent C timeout) (pollEvent C timeout) := by
  refine .bind (h.tracks_recvMsg C timeout) fun m => ?_
  rcases m with _ | m
  · exact .pure _
  cases m with
  | event s event =>
    by_cases hv : event.verify C = true
    · simp only [hv, if_true]
      exact .pure _
    · simp only [hv]
      exact .pure _
  | _ => exact .pure _

end Mimics

end Mimics

/-! ## Records -/

/-- What is on the record after a message is received, and an answer, if it is a
    challenge. -/
inductive Received (C : Crates) : Option RelayMessage → List Io → Prop
  | none : Received C none [.received (.ok none)]
  | message (text : String) (h : (parseRelayMessage C text).isAuth = false) :
    Received C (some (parseRelayMessage C text)) [.received (.ok (some text))]
  | challenge (text challenge : String) (auth : Event)
    (h : parseRelayMessage C text = .auth challenge) :
    Received C (some (.auth challenge)) [.received (.ok (some text)),
      .sent (C.json.toString (authFrame auth)) (.ok ())]

section

variable {C : Crates} {σ : Type} [RelayConnection σ] {client client' : RelayClient (Recorded σ)}

theorem log_of_sendFrame {frame : Json} {result : Result Unit}
    (h : sendFrame C frame client = (result, client')) :
    client'.conn.log = client.conn.log ++ [.sent (C.json.toString frame) result] := by
  obtain ⟨rfl, rfl⟩ := Prod.mk.inj h
  rfl

variable [Clock σ]

/-- What receiving a message leaves on the record. -/
theorem recvMsg_received {timeout : Duration} {m : Option RelayMessage}
    (h : recvMsg C timeout client = (.ok m, client')) :
    ∃ more, client'.conn.log = client.conn.log ++ more ∧ Received C m more := by
  obtain ⟨text, client₁, hrecv, h⟩ := Eff.bind_eq_ok.1 h
  have hlog : client₁.conn.log = client.conn.log ++ [.received (.ok text)] := by
    obtain ⟨hresult, rfl⟩ := Prod.mk.inj hrecv
    simp only [RelayConnection.recv] at hresult ⊢
    rw [hresult]
  rcases text with _ | text
  · obtain ⟨hm, rfl⟩ := Prod.mk.inj h
    obtain rfl := Except.ok.inj hm
    exact ⟨_, hlog, .none⟩
  · obtain ⟨_, client₂, hanswer, h⟩ := Eff.bind_eq_ok.1 h
    obtain ⟨hm, rfl⟩ := Prod.mk.inj h
    obtain rfl := Except.ok.inj hm
    cases ha : (parseRelayMessage C text).isAuth with
    | false =>
      rw [answer_of_not_auth ha] at hanswer
      obtain ⟨-, rfl⟩ := Prod.mk.inj hanswer
      exact ⟨_, hlog, .message text ha⟩
    | true =>
      obtain ⟨challenge, hp⟩ := RelayMessage.isAuth_eq_true_iff.1 ha
      rw [hp] at hanswer ⊢
      obtain ⟨auth, client₃, hread, hsend⟩ := Eff.bind_eq_ok.1 hanswer
      obtain ⟨-, rfl⟩ := Prod.mk.inj hread
      refine ⟨_, ?_, .challenge text challenge auth hp⟩
      rw [log_of_sendFrame hsend, hlog, List.append_assoc]
      rfl

end

/-! ## Calls -/

/-- A call of a client. -/
inductive Call
  | subscribe (subId : String) (filter : Filter)
  | unsubscribe (subId : String)
  | publish (event : Event) (timeout : Duration)
  | query (rounds : Nat) (filter : Filter) (idle : Duration)
  | poll (timeout : Duration)
  | pollEvent (timeout : Duration)

/-- What a call returns. -/
inductive Reply
  | done (result : Result Unit)
  | verdict (result : Result (Bool × String))
  | events (result : Result (Option (List Event)))
  | message (result : Result (Option RelayMessage))
  | event (result : Result (Option (String × Event)))

variable (C : Crates) {σ : Type} [RelayConnection σ] [Clock σ]

/-- Performing a call. -/
def perform : Call → RelayClient σ → Reply × RelayClient σ
  | .subscribe subId filter, client => (subscribe C subId filter client).map .done id
  | .unsubscribe subId, client => (unsubscribe C subId client).map .done id
  | .publish event timeout, client => (publish C event timeout client).map .verdict id
  | .query rounds filter idle, client => (query C rounds filter idle client).map .events id
  | .poll timeout, client => (poll C timeout client).map .message id
  | .pollEvent timeout, client => (pollEvent C timeout client).map .event id

section

variable {τ : Type} [RelayConnection τ] [Clock τ] {g : τ → σ}

/-- A call does the same over a connection that does the same. -/
theorem Mimics.perform_mapConn (h : Mimics g) (call : Call) (client : RelayClient τ) :
    perform C call (mapConn g client) = (perform C call client).map id (mapConn g) := by
  -- For each call, its computation over the one connection tracks that over the other.
  have htracks : ∀ {α : Type} {m : Eff Error (RelayClient τ) α} {m' : Eff Error (RelayClient σ) α}
      (f : Result α → Reply), Eff.Tracks (mapConn g) m m' →
      (m' (mapConn g client)).map f id = ((m client).map f id).map id (mapConn g) := by
    intro α m m' f h
    rw [h client]
    rfl
  cases call with
  | subscribe subId filter => exact htracks _ (h.tracks_sendFrame C _)
  | unsubscribe subId => exact htracks _ (h.tracks_sendFrame C _)
  | publish event timeout => exact htracks _ (h.tracks_publish C event timeout)
  | query rounds filter idle => exact htracks _ (h.tracks_query C rounds filter idle)
  | poll timeout => exact htracks _ (h.tracks_recvMsg C timeout)
  | pollEvent timeout => exact htracks _ (h.tracks_pollEvent C timeout)

end

/-- Recording does not change what a query does. -/
theorem tracks_query (rounds : Nat) (filter : Filter) (idle : Duration) :
    Eff.Tracks erase (query C rounds filter idle)
      (query C rounds filter idle : Eff Error (RelayClient σ) (Option (List Event))) :=
  mimics_recorded.tracks_query C rounds filter idle

/-! ## Runs -/

/-- A call of a run: its reply, what passed over the connection meanwhile, and the
    subscriptions that were open when it was made, with their filters. -/
structure Exchange where
  call : Call
  reply : Reply
  log : List Io
  opened : List (String × Filter)

/-- The ids of the subscriptions that were open. -/
def Exchange.openIds (x : Exchange) : List String := x.opened.map Prod.fst

/-- The subscriptions open after a call: those subscribed to, with the filter they were
    last subscribed to with, and not unsubscribed from. -/
def openedAfter (opened : List (String × Filter)) : Call → Reply → List (String × Filter)
  | .subscribe subId filter, .done (.ok ()) => (subId, filter) :: opened.filter (·.1 ≠ subId)
  | .unsubscribe subId, .done (.ok ()) => opened.filter (·.1 ≠ subId)
  | _, _ => opened

/-- Whether the call has returned; a query may be out of its rounds. -/
def Reply.returned : Reply → Bool
  | .events (.ok none) => false
  | _ => true

/-- The exchange of a call. -/
def exchange (opened : List (String × Filter)) (call : Call) (client : RelayClient σ) :
    Exchange where
  call := call
  reply := (perform C call client.recorded).1
  log := (perform C call client.recorded).2.conn.log
  opened := opened

/-- The exchanges of a run of calls, each of which is made when the one before it
    has returned. -/
def run : List Call → List (String × Filter) → RelayClient σ → List Exchange
  | [], _, _ => []
  | call :: calls, opened, client =>
    let x := exchange C opened call client
    x :: if x.reply.returned then
        run calls (openedAfter opened call x.reply) (perform C call client.recorded).2.erase
      else []

/-- A run goes on after a call that returns. -/
theorem run_cons_of_perform {call : Call} {client : RelayClient σ} {reply : Reply}
    {client' : RelayClient (Recorded σ)} (h : perform C call client.recorded = (reply, client'))
    (hr : reply.returned = true) (calls : List Call) (opened : List (String × Filter)) :
    run C (call :: calls) opened client =
      { call, reply, log := client'.conn.log, opened } ::
        run C calls (openedAfter opened call reply) client'.erase := by
  have hreply : (exchange C opened call client).reply = reply := by rw [exchange, h]
  rw [run, hreply, if_pos hr, exchange, h]

/-- A run is the same over a connection that does the same. -/
theorem Mimics.run_mapConn {τ : Type} [RelayConnection τ] [Clock τ] {g : τ → σ} (h : Mimics g)
    (calls : List Call) (opened : List (String × Filter)) (client : RelayClient τ) :
    run C calls opened (mapConn g client) = run C calls opened client := by
  induction calls generalizing opened client with
  | nil => rfl
  | cons call calls ih =>
    have hperform : perform C call (mapConn g client).recorded = _ :=
      h.mapRecorded.perform_mapConn C call client.recorded
    have hexchange : exchange C opened call (mapConn g client) = exchange C opened call client := by
      simp only [exchange, hperform]
      rfl
    have herase : (perform C call (mapConn g client).recorded).2.erase =
        mapConn g (perform C call client.recorded).2.erase := by
      rw [hperform]
      rfl
    simp only [run, hexchange, herase, ih]

/-- A call of a run, with the client it is made on and the subscriptions that are
    open, with their filters. -/
structure Visit (σ : Type) where
  call : Call
  opened : List (String × Filter)
  client : RelayClient σ

/-- The ids of the subscriptions that are open. -/
def Visit.openIds (v : Visit σ) : List String := v.opened.map Prod.fst

/-- The exchange of the call. -/
def Visit.exchange (v : Visit σ) : Exchange :=
  RelayClient.exchange C v.opened v.call v.client

/-- The calls of a run, each with the client the one before it has left. -/
def visits : List Call → List (String × Filter) → RelayClient σ → List (Visit σ)
  | [], _, _ => []
  | call :: calls, opened, client =>
    let x := exchange C opened call client
    { call, opened, client } :: if x.reply.returned then
        visits calls (openedAfter opened call x.reply) (perform C call client.recorded).2.erase
      else []

/-- A run consists of the exchanges of its calls. -/
theorem run_eq_map_visits (calls : List Call) (opened : List (String × Filter))
    (client : RelayClient σ) :
    run C calls opened client = (visits C calls opened client).map (Visit.exchange C) := by
  induction calls generalizing opened client with
  | nil => rfl
  | cons call calls ih =>
    simp only [run, visits, List.map_cons]
    split
    · rw [ih]
      rfl
    · rfl

/-- The replies to calls, without a record. -/
def replies : List Call → RelayClient σ → List Reply
  | [], _ => []
  | call :: calls, client =>
    let (reply, client') := perform C call client
    reply :: if reply.returned then replies calls client' else []

/-- The replies are the same over a connection that does the same. -/
theorem Mimics.replies_mapConn {τ : Type} [RelayConnection τ] [Clock τ] {g : τ → σ}
    (h : Mimics g) (calls : List Call) (client : RelayClient τ) :
    replies C calls (mapConn g client) = replies C calls client := by
  induction calls generalizing client with
  | nil => rfl
  | cons call calls ih =>
    simp only [replies, h.perform_mapConn, Prod.map_fst, Prod.map_snd, id_eq, ih]

end RelayClient

end UnicityNostr
