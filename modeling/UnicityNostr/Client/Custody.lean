import UnicityNostr.Client.Invariant

/-!
# What a client signs

A client has the signer sign events of its own: those that answer challenges. It is no
oracle for anything else, whatever the relay does.

* `Answer`: the answer to a challenge, for the URL of the client;
* `sent_of_run`: whatever is sent was asked for by a call, or answers the challenge
  received right before it; every challenge is answered right away, if the signer
  signs.
-/

namespace UnicityNostr.RelayClient

variable (C : Crates)

/-- The text answers the challenge for the URL: it is the frame of the event that is
    made for it at some time. -/
def Answer (signer : Signer) (url challenge text : String) : Prop :=
  ∃ (now : Int64) (auth : Event),
    Event.create C signer Kinds.auth [["relay", url], ["challenge", challenge]] "" now = .ok auth ∧
      text = C.json.toString (authFrame auth)

/-- No answer to the challenge can be made for the URL at some time. -/
def Unanswerable (signer : Signer) (url challenge : String) : Prop :=
  ∃ (now : Int64) (e : Error),
    Event.create C signer Kinds.auth [["relay", url], ["challenge", challenge]] "" now = .error e

/-- What passes over a connection, when nothing is sent but requested frames and, right
    after a challenge is received, the answer to it. -/
inductive Licensed (signer : Signer) (url : String) (requested : Json → Prop) : List Io → Prop
  | nil : Licensed signer url requested []
  | request {frame : Json} {log : List Io} (h : requested frame) (result : Result Unit)
    (hlog : Licensed signer url requested log) :
    Licensed signer url requested (.sent (C.json.toString frame) result :: log)
  | message {received : Result (Option String)} {log : List Io}
    (h : ∀ text challenge, received = .ok (some text) →
      parseRelayMessage C text ≠ .auth challenge)
    (hlog : Licensed signer url requested log) :
    Licensed signer url requested (.received received :: log)
  | challenge {received challenge text : String} {log : List Io}
    (h : parseRelayMessage C received = .auth challenge)
    (hanswer : Answer C signer url challenge text) (result : Result Unit)
    (hlog : Licensed signer url requested log) :
    Licensed signer url requested (.received (.ok (some received)) :: .sent text result :: log)
  | unanswered {received challenge : String} {log : List Io}
    (h : parseRelayMessage C received = .auth challenge)
    (hanswer : Unanswerable C signer url challenge) (hlog : Licensed signer url requested log) :
    Licensed signer url requested (.received (.ok (some received)) :: log)

namespace Licensed

variable {C} {signer : Signer} {url : String} {requested requested' : Json → Prop}
  {log log' : List Io}

theorem append (h : Licensed C signer url requested log)
    (h' : Licensed C signer url requested log') :
    Licensed C signer url requested (log ++ log') := by
  induction h with
  | nil => exact h'
  | request hframe result _ ih => exact .request hframe result ih
  | message hmessage _ ih => exact .message hmessage ih
  | challenge hchallenge hanswer result _ ih => exact .challenge hchallenge hanswer result ih
  | unanswered hchallenge hanswer _ ih => exact .unanswered hchallenge hanswer ih

theorem mono (h : Licensed C signer url requested log)
    (himp : ∀ frame, requested frame → requested' frame) :
    Licensed C signer url requested' log := by
  induction h with
  | nil => exact .nil
  | request hframe result _ ih => exact .request (himp _ hframe) result ih
  | message hmessage _ ih => exact .message hmessage ih
  | challenge hchallenge hanswer result _ ih => exact .challenge hchallenge hanswer result ih
  | unanswered hchallenge hanswer _ ih => exact .unanswered hchallenge hanswer ih

end Licensed

variable {C} {σ : Type}

/-- The client has gone on with the same signer and URL, and what has passed over its
    connection is licensed. -/
def Proceeds (C : Crates) (requested : Json → Prop) (client client' : RelayClient (Recorded σ)) :
    Prop :=
  client'.signer = client.signer ∧ client'.url = client.url ∧
    ∃ log, client'.conn.log = client.conn.log ++ log ∧
      Licensed C client.signer client.url requested log

theorem proceeds_refl (requested : Json → Prop) (client : RelayClient (Recorded σ)) :
    Proceeds C requested client client :=
  ⟨rfl, rfl, [], (List.append_nil _).symm, .nil⟩

theorem proceeds_trans (requested : Json → Prop)
    (client client' client'' : RelayClient (Recorded σ))
    (h : Proceeds C requested client client') (h' : Proceeds C requested client' client'') :
    Proceeds C requested client client'' := by
  obtain ⟨hsigner, hurl, log, hlog, hlicensed⟩ := h
  obtain ⟨hsigner', hurl', log', hlog', hlicensed'⟩ := h'
  rw [hsigner, hurl] at hlicensed'
  refine ⟨hsigner'.trans hsigner, hurl'.trans hurl, log ++ log', ?_, hlicensed.append hlicensed'⟩
  rw [hlog', hlog, List.append_assoc]

variable [RelayConnection σ]

theorem proceeds_sendFrame {requested : Json → Prop} {frame : Json} (h : requested frame) :
    Eff.Moves (Proceeds C requested)
      (sendFrame C frame : Eff Error (RelayClient (Recorded σ)) Unit) :=
  fun _ => ⟨rfl, rfl, _, rfl, .request h _ .nil⟩

variable [Clock σ]

/-- A challenge that has been received is answered, if the signer signs. -/
theorem proceeds_answerAuth (requested : Json → Prop) {client client₁ : RelayClient (Recorded σ)}
    {received challenge : String} (h : parseRelayMessage C received = .auth challenge)
    (hsigner : client₁.signer = client.signer) (hurl : client₁.url = client.url)
    (hlog : client₁.conn.log = client.conn.log ++ [.received (.ok (some received))]) :
    Proceeds C requested client (answerAuth C challenge client₁).2 := by
  have hread : Eff.read (authEvent C challenge) client₁ =
      (authEvent C challenge client₁, client₁) := rfl
  rcases hauth : authEvent C challenge client₁ with e | auth
  · rw [hauth] at hread
    rw [authEvent, hsigner, hurl] at hauth
    rw [answerAuth, Eff.bind_error hread]
    exact ⟨hsigner, hurl, _, hlog, .unanswered h ⟨_, e, hauth⟩ .nil⟩
  · rw [hauth] at hread
    rw [authEvent, hsigner, hurl] at hauth
    rw [answerAuth, Eff.bind_ok hread]
    refine ⟨hsigner, hurl, _, ?_, .challenge h ⟨_, auth, hauth, rfl⟩
      (sendFrame C (authFrame auth) client₁).1 .nil⟩
    rcases hsend : sendFrame C (authFrame auth) client₁ with ⟨result, client₂⟩
    exact (log_of_sendFrame hsend).trans (hlog ▸ List.append_assoc _ _ _)

/-- Receiving a message is answering it if it is a challenge. -/
theorem proceeds_recvMsg (requested : Json → Prop) (timeout : Duration) :
    Eff.Moves (Proceeds C requested)
      (recvMsg C timeout : Eff Error (RelayClient (Recorded σ)) _) := by
  intro client
  rcases hrecv : RelayConnection.recv timeout client.conn.conn with ⟨r, conn⟩
  have honConn : onConn (RelayConnection.recv timeout) client =
      (r, { client with conn := { conn, log := client.conn.log ++ [.received r] } }) := by
    simp only [onConn, RelayConnection.recv, hrecv]
  rcases r with e | _ | text
  · rw [recvMsg, Eff.bind_error honConn]
    exact ⟨rfl, rfl, _, rfl, .message (by simp) .nil⟩
  · rw [recvMsg, Eff.bind_ok honConn]
    exact ⟨rfl, rfl, _, rfl, .message (by simp) .nil⟩
  cases hm : (parseRelayMessage C text).isAuth with
  | false =>
    rw [recvMsg_of_recv honConn hm]
    refine ⟨rfl, rfl, _, rfl, .message (fun text' challenge htext h => ?_) .nil⟩
    obtain rfl := Option.some.inj (Except.ok.inj htext)
    rw [h] at hm
    cases hm
  | true =>
    obtain ⟨challenge, hp⟩ := RelayMessage.isAuth_eq_true_iff.1 hm
    rw [recvMsg, Eff.bind_ok honConn]
    change Proceeds C requested client ((answer C (parseRelayMessage C text) >>=
      fun _ => pure (some (parseRelayMessage C text))) _).2
    rw [Eff.bind_pure_snd, hp]
    exact proceeds_answerAuth requested hp rfl rfl rfl

/-- A call sends what it requests, and answers. -/
theorem proceeds_perform {requested : Json → Prop} {call : Call}
    {client : RelayClient (Recorded σ)}
    (h : ∀ frame, Requests call client frame → requested frame) :
    Proceeds C requested client (perform C call client).2 :=
  moves_perform (proceeds_refl requested) (proceeds_trans requested)
    (proceeds_recvMsg requested) (fun _ => ⟨rfl, rfl, [], (List.append_nil _).symm, .nil⟩)
    fun frame hframe => proceeds_sendFrame (h frame hframe)

/-- Whatever the relay sends, what a client sends was asked for by a call, or answers
    the challenge received right before it, by an event for that challenge and for the
    URL of the client. A challenge is left unanswered only if the signer fails. -/
theorem sent_of_run (calls : List Call) (client : RelayClient (Recorded σ)) :
    ∃ log, (performAll C calls client).conn.log = client.conn.log ++ log ∧
      Licensed C client.signer client.url
        (fun frame => ∃ call ∈ calls, ∃ client' : RelayClient (Recorded σ),
          Requests call client' frame) log := by
  suffices h : ∀ requested : Json → Prop,
      (∀ call ∈ calls, ∀ (client' : RelayClient (Recorded σ)) frame,
        Requests call client' frame → requested frame) →
      Proceeds C requested client (performAll C calls client) from
    (h _ fun call hcall client' frame hframe => ⟨call, hcall, client', hframe⟩).2.2
  intro requested hrequested
  induction calls generalizing client with
  | nil => exact proceeds_refl requested client
  | cons call calls ih =>
    exact proceeds_trans requested _ _ _
      (proceeds_perform (hrequested call List.mem_cons_self client))
      (ih _ fun call hcall => hrequested call (List.mem_cons_of_mem _ hcall))

end UnicityNostr.RelayClient
