import Mathlib.Order.Basic
import UnicityNostr.Client.Authentication
import UnicityNostr.Client.Round

/-!
# When a query ends

A relay that puts finitely many frames into the connection for each frame of the
client may challenge a subscription whenever it is opened; each time, the query
answers and opens the subscription once more.

* `queryRound_cases`: what a round of a query does to the chain of challenges;
* `query_ends_iff`: a query ends if and only if at some point its subscription is
  not challenged again.
-/

namespace UnicityNostr

/-- The message is a challenge, or ends the subscription `subId`. -/
def RelayMessage.decides (subId : String) (m : RelayMessage) : Bool := m.isAuth || m.ends subId

namespace RelayClient

variable (C : Crates) {ρ : Type} [Relay ρ] [Clock (Session ρ)] (subId : String) (filter : Filter)

/-- The client once the subscription has been opened after the next challenge, if it
    comes before the end of the subscription and can be answered. -/
def rearmed? (client : RelayClient (Session ρ)) : Option (RelayClient (Session ρ)) :=
  match client.conn.queue.dropWhile fun t => !(parseRelayMessage C t).decides subId with
  | [] => none
  | text :: queue =>
    match parseRelayMessage C text with
    | .auth challenge =>
      (authEvent C challenge (client.withQueue queue)).toOption.map fun auth =>
        sent C (reqFrame subId filter) (sent C (authFrame auth) (client.withQueue queue))
    | _ => none

/-- The client once the subscription has been opened after each of the next `k`
    challenges. -/
def rearmedTimes : Nat → RelayClient (Session ρ) → Option (RelayClient (Session ρ))
  | 0, client => some client
  | k + 1, client => (rearmed? C subId filter client).bind (rearmedTimes k)

variable {C subId filter} {idle : Duration} {events : List Event}
  {client : RelayClient (Session ρ)} {text : String} {queue : List String}

theorem rearmed?_of_nil (h : client.conn.queue = []) : rearmed? C subId filter client = none := by
  rw [rearmed?, h]
  rfl

/-- A message that decides nothing is passed over. -/
theorem rearmed?_of_not_decides (hq : client.conn.queue = text :: queue)
    (h : (parseRelayMessage C text).decides subId = false) :
    rearmed? C subId filter client = rearmed? C subId filter (client.withQueue queue) := by
  have hqueue : (client.withQueue queue).conn.queue = queue := rfl
  rw [rearmed?, rearmed?, hq, hqueue, List.dropWhile_cons_of_pos (by simp [h])]
  rfl

theorem rearmed?_of_ends (hq : client.conn.queue = text :: queue)
    (hm : (parseRelayMessage C text).isAuth = false)
    (h : (parseRelayMessage C text).ends subId = true) :
    rearmed? C subId filter client = none := by
  rw [rearmed?, hq, List.dropWhile_cons_of_neg (by simp [RelayMessage.decides, h])]
  cases hp : parseRelayMessage C text with
  | auth challenge =>
    rw [hp] at hm
    cases hm
  | _ => simp only [hp]

theorem rearmed?_of_auth (hq : client.conn.queue = text :: queue) {challenge : String}
    (hp : parseRelayMessage C text = .auth challenge) :
    rearmed? C subId filter client =
      (authEvent C challenge (client.withQueue queue)).toOption.map fun auth =>
        sent C (reqFrame subId filter) (sent C (authFrame auth) (client.withQueue queue)) := by
  have hdecides : (parseRelayMessage C text).decides subId = true := by rw [hp]; rfl
  rw [rearmed?, hq, List.dropWhile_cons_of_neg (by simp [hdecides])]
  simp only [hp]

/-- A round of a query ends it if the subscription is not opened again; otherwise it
    passes over a message, or opens the subscription after a challenge. -/
theorem queryRound_cases (subId : String) (filter : Filter) (idle : Duration)
    (events : List Event) (client : RelayClient (Session ρ)) :
    (rearmed? C subId filter client = none ∧
      ∃ r client', Eff.LoopEnds (queryRound C subId filter idle) events client r client') ∨
    ∃ events' client₁,
      queryRound C subId filter idle events client = (.ok (.next events'), client₁) ∧
      (rearmed? C subId filter client = some client₁ ∨
        rearmed? C subId filter client = rearmed? C subId filter client₁ ∧
          client₁.conn.queue.length < client.conn.queue.length) := by
  cases hq : client.conn.queue with
  | nil =>
    refine .inl ⟨rearmed?_of_nil hq, .ok events, client, ?_⟩
    exact (Eff.loopEnds_iff (queryRound_of_none (recvMsg_of_nil idle hq))).2 ⟨rfl, rfl⟩
  | cons text queue =>
    cases hm : (parseRelayMessage C text).isAuth with
    | false =>
      have hround : queryRound C subId filter idle events client = _ :=
        queryRound_of_message (recvMsg_of_not_auth idle hq hm) hm
      cases hends : (parseRelayMessage C text).ends subId with
      | true =>
        rw [hends] at hround
        exact .inl ⟨rearmed?_of_ends hq hm hends, _, _, (Eff.loopEnds_iff hround).2 ⟨rfl, rfl⟩⟩
      | false =>
        rw [hends] at hround
        have hdecides : (parseRelayMessage C text).decides subId = false := by
          rw [RelayMessage.decides, hm, hends]
          rfl
        refine .inr ⟨_, _, hround, .inr ⟨rearmed?_of_not_decides hq hdecides, ?_⟩⟩
        exact Nat.lt_succ_self queue.length
    | true =>
      obtain ⟨challenge, hp⟩ := RelayMessage.isAuth_eq_true_iff.1 hm
      have hrecv := recvMsg_of_auth idle hq hp
      have hrearmed : rearmed? C subId filter client = _ := rearmed?_of_auth hq hp
      cases hauth : authEvent C challenge (client.withQueue queue) with
      | error e =>
        rw [hauth] at hrecv hrearmed
        exact .inl ⟨hrearmed, _, _, (Eff.loopEnds_iff (queryRound_of_error hrecv)).2 ⟨rfl, rfl⟩⟩
      | ok auth =>
        rw [hauth] at hrecv hrearmed
        exact .inr ⟨events, _, queryRound_of_auth hrecv, .inl hrearmed⟩

/-- A query that ends has its subscription challenged finitely often. -/
theorem rearmedTimes_of_loop {n : Nat} {r : Result (List Event)}
    {client' : RelayClient (Session ρ)}
    (h : Eff.loop (queryRound C subId filter idle) n events client = (r.map some, client')) :
    ∃ k, rearmedTimes C subId filter k client = none := by
  induction n generalizing events client with
  | zero => cases r <;> cases (Prod.mk.inj h).1
  | succ n ih =>
    rcases queryRound_cases (C := C) subId filter idle events client with
      ⟨hnone, -⟩ | ⟨events', client₁, hround, hrearmed⟩
    · exact ⟨1, by rw [rearmedTimes, hnone]; rfl⟩
    · obtain ⟨k, hk⟩ := ih ((Eff.loop_next hround).symm.trans h)
      rcases hrearmed with hsome | ⟨heq, -⟩
      · exact ⟨k + 1, by rw [rearmedTimes, hsome]; exact hk⟩
      · cases k with
        | zero => cases hk
        | succ k => exact ⟨k + 1, by rw [rearmedTimes, heq]; exact hk⟩

/-- A query whose subscription is challenged finitely often ends. -/
theorem loopEnds_of_rearmedTimes (idle : Duration) (events : List Event) {k : Nat}
    (h : rearmedTimes C subId filter k client = none) :
    ∃ r client', Eff.LoopEnds (queryRound C subId filter idle) events client r client' := by
  induction k generalizing events client with
  | zero => cases h
  | succ k ih =>
    -- Between two challenges, the queue gets shorter.
    induction hlen : client.conn.queue.length using Nat.strong_induction_on
      generalizing events client with
    | _ len ihlen =>
      subst hlen
      rcases queryRound_cases (C := C) subId filter idle events client with
        ⟨-, hends⟩ | ⟨events', client₁, hround, hrearmed⟩
      · exact hends
      · obtain ⟨r, client', hends⟩ : ∃ r client',
            Eff.LoopEnds (queryRound C subId filter idle) events' client₁ r client' := by
          rcases hrearmed with hsome | ⟨heq, hlt⟩
          · rw [rearmedTimes, hsome] at h
            exact ih events' h
          · rw [rearmedTimes, heq] at h
            exact ihlen _ hlt events' h rfl
        exact ⟨r, client', (Eff.loopEnds_iff hround).2 hends⟩

theorem rearmedTimes_of_queryEnds {r : Result (List Event)} {client' : RelayClient (Session ρ)}
    (h : QueryEnds C filter idle client r client') :
    ∃ k, rearmedTimes C client.querySubId filter k (queried C filter client) = none := by
  simp only [queryEnds_iff, sendReq, sendFrame_eq] at h
  obtain ⟨client₂, ⟨n, hloop⟩, -⟩ := h
  exact rearmedTimes_of_loop hloop

/-- A query ends if and only if at some point its subscription, opened once more, is
    not challenged again before it ends. -/
theorem query_ends_iff (client : RelayClient (Session ρ)) :
    (∃ r client', QueryEnds C filter idle client r client') ↔
      ∃ k, rearmedTimes C client.querySubId filter k (queried C filter client) = none := by
  constructor
  · rintro ⟨r, client', h⟩
    exact rearmedTimes_of_queryEnds h
  · rintro ⟨k, hk⟩
    simp only [queryEnds_iff, sendReq, sendFrame_eq]
    obtain ⟨r, client₂, hends⟩ := loopEnds_of_rearmedTimes idle [] hk
    exact ⟨r, _, client₂, hends, rfl⟩

end RelayClient

/-! ## A relay that never authenticates -/

/-- A relay that challenges every subscription. -/
structure Challenger (C : Crates) where

namespace Challenger

variable {C : Crates}

/-- Whether the frame opens a subscription. -/
def isReqFrame : Json → Bool
  | .arr (.str "REQ" :: _) => true
  | _ => false

instance : Relay (Challenger C) where
  receive r text :=
    match C.json.fromStr text with
    | .ok frame =>
      (r, if isReqFrame frame then [C.json.toString (RelayMessage.auth "challenge").frame] else [])
    | .error _ => (r, [])

instance : Clock (Session (Challenger C)) where
  now _ := 0

theorem replies_eq (hj : C.json.RoundTrips) (r : Challenger C) {frame : Json}
    (henc : frame.Encodable 127) : Relay.replies C r frame =
      if isReqFrame frame then [C.json.toString (RelayMessage.auth "challenge").frame] else [] := by
  simp only [Relay.replies, Relay.receive, (hj _ henc).1]

end Challenger

namespace RelayClient

/-- Answering the challenge and opening the subscription once more leads to the same
    challenge. -/
theorem rearmed?_challenger {C : Crates} (hj : C.json.RoundTrips) (hx : C.hex.RoundTrips)
    {client : RelayClient (Session (Challenger C))}
    (hq : client.conn.queue = [C.json.toString (RelayMessage.auth "challenge").frame])
    (hs : client.signer.Signs) (subId : String) (filter : Filter) :
    ∃ client', rearmed? C subId filter client = some client' ∧
      client'.conn.queue = client.conn.queue ∧ client'.signer = client.signer := by
  have hp : parseRelayMessage C (C.json.toString (RelayMessage.auth "challenge").frame) =
      .auth "challenge" := parseRelayMessage_frame hj (by simp)
  obtain ⟨auth, hauth⟩ : ∃ auth, authEvent C "challenge" (client.withQueue []) = .ok auth :=
    Event.exists_create hx hs _ _ _ _
  have hrearmed : rearmed? C subId filter client = some
      (sent C (reqFrame subId filter) (sent C (authFrame auth) (client.withQueue []))) := by
    rw [rearmed?_of_auth hq hp, hauth]
    rfl
  refine ⟨_, hrearmed, ?_, rfl⟩
  rw [sent_queue, sent_queue, Challenger.replies_eq hj _ (encodable_authFrame auth),
    Challenger.replies_eq hj _ (encodable_reqFrame subId filter), hq]
  rfl

/-- A client of such a relay. -/
def challengedClient : RelayClient (Session (Challenger Reference.crates)) :=
  .new { relay := {}, queue := [] } "wss://relay.example"
    (Reference.signer Reference.one).toSigner

theorem queue_challengedClient : (queried Reference.crates {} challengedClient).conn.queue =
    [Reference.crates.json.toString (RelayMessage.auth "challenge").frame] := by
  have hreplies := Challenger.replies_eq Reference.json_roundTrips challengedClient.conn.relay
    (encodable_reqFrame challengedClient.querySubId {})
  exact congrArg ([] ++ ·) hreplies

theorem signs_challengedClient :
    (queried Reference.crates {} challengedClient).signer.Signs :=
  Reference.signer_signs Reference.one

/-- A query of such a relay goes on forever. -/
theorem challenged_query_does_not_end :
    ¬∀ (ρ : Type) [Relay ρ] [Clock (Session ρ)] (filter : Filter) (idle : Duration)
      (client : RelayClient (Session ρ)),
      ∃ r client', QueryEnds Reference.crates filter idle client r client' := by
  intro hclaim
  -- The subscription is challenged any number of times.
  have hrearmed : ∀ (k : Nat) (client : RelayClient (Session (Challenger Reference.crates))),
      client.conn.queue =
        [Reference.crates.json.toString (RelayMessage.auth "challenge").frame] →
      client.signer.Signs → ∀ subId, rearmedTimes Reference.crates subId {} k client ≠ none := by
    intro k
    induction k with
    | zero => exact fun _ _ _ _ => Option.some_ne_none _
    | succ k ih =>
      intro client hq hs subId
      obtain ⟨client', hclient', hq', hs'⟩ :=
        rearmed?_challenger Reference.json_roundTrips Reference.hex_roundTrips hq hs subId {}
      rw [rearmedTimes, hclient']
      exact ih client' (hq'.trans hq) (hs' ▸ hs) subId
  obtain ⟨r, client', h⟩ := hclaim (Challenger Reference.crates) {} 5 challengedClient
  obtain ⟨k, hk⟩ := rearmedTimes_of_queryEnds h
  exact hrearmed k _ queue_challengedClient signs_challengedClient _ hk

end RelayClient

end UnicityNostr
