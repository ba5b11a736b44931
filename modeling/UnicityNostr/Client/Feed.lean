import UnicityNostr.Client.Run

/-!
# Connections on which given items arrive

A connection with a list of items to be received, whatever is sent meanwhile
(`Feed`): it says what a call does for every sequence of messages, timeouts and
receive errors.

* `recvMsg_feed_cons`: what receiving does depends on the first item only;
* `recvMsg_feed_text`: a message is answered, if it is a challenge, and returned.
-/

namespace UnicityNostr

/-- A connection on which the items arrive one by one, and nothing after them. -/
structure Feed (σ : Type) where
  conn : σ
  items : List (Result (Option String))

variable {σ : Type}

/-- The client, with items to receive. -/
def RelayClient.feed (items : List (Result (Option String))) (client : RelayClient σ) :
    RelayClient (Feed σ) :=
  { client with conn := { conn := client.conn, items } }

variable [RelayConnection σ]

instance : RelayConnection (Feed σ) where
  send text s :=
    let (result, conn) := RelayConnection.send text s.conn
    (result, { s with conn })
  recv _ s :=
    match s.items with
    | [] => (.ok none, s)
    | item :: items => (item, { s with items })
  close s := { s with conn := RelayConnection.close s.conn }

instance [Clock σ] : Clock (Feed σ) where
  now s := Clock.now s.conn

namespace RelayClient

variable {C : Crates} {client : RelayClient σ} {items : List (Result (Option String))}
  {timeout : Duration}

theorem sendFrame_feed (frame : Json) :
    Eff.Tracks (feed items : RelayClient σ → _) (sendFrame C frame) (sendFrame C frame) :=
  fun _ => rfl

variable [Clock σ]

/-- Answering does not depend on the items to receive. -/
theorem answer_feed (m : RelayMessage) :
    Eff.Tracks (feed items : RelayClient σ → _) (answer C m) (answer C m) := by
  cases m with
  | auth challenge => exact .bind (.read fun _ => rfl) fun auth => sendFrame_feed (authFrame auth)
  | _ => exact .pure ()

theorem recvMsg_feed_nil : recvMsg C timeout (client.feed []) = (.ok none, client.feed []) := rfl

theorem recvMsg_feed_none :
    recvMsg C timeout (client.feed (.ok none :: items)) = (.ok none, client.feed items) := rfl

theorem recvMsg_feed_error (e : Error) :
    recvMsg C timeout (client.feed (.error e :: items)) = (.error e, client.feed items) := rfl

/-- A message is answered, if it is a challenge, and returned. -/
theorem recvMsg_feed_text (text : String) :
    recvMsg C timeout (client.feed (.ok (some text) :: items)) =
      ((answer C (parseRelayMessage C text) client).1.map fun _ =>
          some (parseRelayMessage C text),
        (answer C (parseRelayMessage C text) client).2.feed items) := by
  have hrecv : onConn (RelayConnection.recv timeout) (client.feed (.ok (some text) :: items)) =
      (.ok (some text), client.feed items) := rfl
  rw [recvMsg, Eff.bind_ok hrecv]
  rcases h : answer C (parseRelayMessage C text) client with ⟨e | _, client'⟩
  · exact Eff.bind_error ((answer_feed _ client).trans (by rw [h])) _
  · exact Eff.bind_ok ((answer_feed _ client).trans (by rw [h])) _

/-- A message that is no challenge is received as it is. -/
theorem recvMsg_feed_of_not_auth {text : String} (h : (parseRelayMessage C text).isAuth = false) :
    recvMsg C timeout (client.feed (.ok (some text) :: items)) =
      (.ok (some (parseRelayMessage C text)), client.feed items) := recvMsg_of_recv rfl h

/-- What receiving does depends on the first item only. -/
theorem recvMsg_feed_cons (C : Crates) (timeout : Duration) (item : Result (Option String))
    (client : RelayClient σ) :
    ∃ (m : Result (Option RelayMessage)) (client' : RelayClient σ), ∀ items,
      recvMsg C timeout (client.feed (item :: items)) = (m, client'.feed items) := by
  rcases item with e | _ | text
  · exact ⟨_, _, fun items => recvMsg_feed_error e⟩
  · exact ⟨_, _, fun items => recvMsg_feed_none⟩
  · exact ⟨_, _, fun items => recvMsg_feed_text text⟩

end RelayClient

end UnicityNostr
