import UnicityNostr.Client.Round
import UnicityNostr.Reference

/-!
# Relays that demand authentication

A client answers the challenge of a relay and sends its request once more, but it
takes the refusal of the first request for the answer.

* `publish_accepted_iff`: an event is reported as accepted exactly when the relay
  had authenticated the connection before;
* `query_complete_iff`: the stored events are returned exactly when the relay had
  authenticated the connection before, or stores none.
-/

namespace UnicityNostr.RelayClient

variable {C : Crates} {ρ : Type} [Relay ρ] [Clock (Session ρ)]
  {client client' : RelayClient (Session ρ)} {text : String} {queue : List String}

/-! ## Publishing -/

section Publish

variable {event : Event} {timeout : Duration} {resent : Bool}

/-- The first verdict on the event `id` among the messages of frames. -/
def firstVerdict (C : Crates) (id : String) (texts : List String) : Option (Bool × String) :=
  (messages C texts).findSome? (·.verdictOn id)

theorem firstVerdict_append {id : String} {texts more : List String} {v : Bool × String}
    (h : firstVerdict C id texts = some v) : firstVerdict C id (texts ++ more) = some v := by
  rw [firstVerdict, messages_append, List.findSome?_append]
  rw [firstVerdict] at h
  rw [h]
  rfl

/-- A round that does not fail reads the message at the head of the queue: its
    verdict on the event, if it has one, is the result, and otherwise the wait goes
    on. -/
theorem publishRound_cases {r : Eff.Round Bool (Bool × String)}
    (h : publishRound C event timeout resent client = (.ok r, client')) :
    ∃ text queue, client.conn.queue = text :: queue ∧
      ((∃ v, (parseRelayMessage C text).verdictOn event.id = some v ∧ r = .done v) ∨
        ((parseRelayMessage C text).verdictOn event.id = none ∧
          ∃ resent' more, r = .next resent' ∧ client'.conn.queue = queue ++ more)) := by
  rcases hrecv : recvMsg C timeout client with ⟨e | m, client₁⟩
  · rw [publishRound_of_error hrecv] at h
    cases (Prod.mk.inj h).1
  rcases recvMsg_cases hrecv with ⟨-, rfl⟩ | ⟨text, queue, more, hq, rfl, hq'⟩
  · rw [publishRound_of_none hrecv] at h
    cases (Prod.mk.inj h).1
  refine ⟨text, queue, hq, ?_⟩
  cases hm : (parseRelayMessage C text).isAuth with
  | false =>
    rw [publishRound_of_message hrecv hm] at h
    obtain ⟨hr, rfl⟩ := Prod.mk.inj h
    obtain rfl := Except.ok.inj hr
    cases hv : (parseRelayMessage C text).verdictOn event.id with
    | some v => exact .inl ⟨v, rfl, rfl⟩
    | none => exact .inr ⟨rfl, _, more, rfl, hq'⟩
  | true =>
    obtain ⟨challenge, hp⟩ := RelayMessage.isAuth_eq_true_iff.1 hm
    rw [hp] at hrecv
    rw [publishRound_of_auth hrecv] at h
    refine .inr ⟨by rw [hp]; rfl, ?_⟩
    cases resent with
    | true =>
      obtain ⟨hr, rfl⟩ := Prod.mk.inj h
      exact ⟨_, more, (Except.ok.inj hr).symm, hq'⟩
    | false =>
      -- The replies to the second copy are queued behind everything else.
      obtain ⟨hr, rfl⟩ := Prod.mk.inj h
      refine ⟨_, more ++ Relay.replies C client₁.conn.relay (eventFrame event),
        (Except.ok.inj hr).symm, ?_⟩
      rw [← List.append_assoc, ← hq']
      rfl

/-- The result of the wait is the first verdict in the queue. -/
theorem publishLoop_eq_firstVerdict {n : Nat} {v v' : Bool × String}
    (hv : firstVerdict C event.id client.conn.queue = some v)
    (h : Eff.loop (publishRound C event timeout) n resent client = (.ok (some v'), client')) :
    v' = v := by
  -- The queue grows at its end only, so that its first verdict stays the first.
  refine Eff.loop_of_invariant (fun _ c => firstVerdict C event.id c.conn.queue = some v)
    (fun v' _ => v' = v) ?_ ?_ hv h
  · intro resent c resent' c' hinv hround
    obtain ⟨text, queue, hq, ⟨v', -, hr⟩ | ⟨hnone, resent', more, -, hq'⟩⟩ :=
      publishRound_cases hround
    · cases hr
    · rw [hq, firstVerdict, messages_cons, List.findSome?_cons, hnone] at hinv
      rw [hq']
      exact firstVerdict_append hinv
  · intro resent c v' c' hinv hround
    obtain ⟨text, queue, hq, ⟨v₁, hsome, hr⟩ | ⟨-, resent', more, hr, -⟩⟩ :=
      publishRound_cases hround
    · rw [hq, firstVerdict, messages_cons, List.findSome?_cons, hsome] at hinv
      obtain rfl := Eff.Round.done.inj hr
      exact Option.some.inj hinv
    · cases hr

/-- Messages that do not concern the event do not change its first verdict. -/
theorem firstVerdict_of_filter {id : String} {texts : List String} {ms : List RelayMessage}
    (h : (messages C texts).filter (·.concernsEvent id) = ms) :
    firstVerdict C id texts = ms.findSome? (·.verdictOn id) := by
  subst h
  rw [firstVerdict]
  induction messages C texts with
  | nil => rfl
  | cons m ms ih =>
    cases hm : m.concernsEvent id with
    | true =>
      rw [List.filter_cons_of_pos hm, List.findSome?_cons, List.findSome?_cons, ih]
    | false =>
      have hv : m.verdictOn id = none := by
        rw [RelayMessage.concernsEvent, Bool.or_eq_false_iff] at hm
        simpa using hm.2
      rw [List.filter_cons_of_neg (by simp [hm]), List.findSome?_cons, hv, ih]

theorem publishRound_of_not_concerns (hq : client.conn.queue = text :: queue)
    (hm : (parseRelayMessage C text).concernsEvent event.id = false) :
    publishRound C event timeout resent client = (.ok (.next resent), client.withQueue queue) := by
  obtain ⟨ha, hv⟩ := Bool.or_eq_false_iff.1 hm
  rw [publishRound_of_message (recvMsg_of_not_auth timeout hq ha) ha,
    Option.not_isSome_iff_eq_none.1 (Bool.eq_false_iff.1 hv)]
  rfl

theorem publishRound_of_verdict {v : Bool × String} (hq : client.conn.queue = text :: queue)
    (hm : (parseRelayMessage C text).verdictOn event.id = some v) :
    publishRound C event timeout resent client = (.ok (.done v), client.withQueue queue) := by
  have ha : (parseRelayMessage C text).isAuth = false := RelayMessage.isAuth_of_verdictOn hm
  rw [publishRound_of_message (recvMsg_of_not_auth timeout hq ha) ha, hm]
  rfl

/-- A verdict in the queue is reached past the messages that do not concern the
    event, if they are fewer than the rounds. -/
theorem publishLoop_of_verdict {n : Nat} {v : Bool × String} {texts more : List String}
    (hq : client.conn.queue = texts ++ text :: more)
    (hskip : ∀ t ∈ texts, (parseRelayMessage C t).concernsEvent event.id = false)
    (hm : (parseRelayMessage C text).verdictOn event.id = some v) (hn : texts.length < n) :
    ∃ client', Eff.loop (publishRound C event timeout) n resent client =
      (.ok (some v), client') := by
  suffices h : ∃ v' client', Eff.loop (publishRound C event timeout) n resent client =
      (.ok (some v'), client') ∧ v' = v by
    obtain ⟨v', client', hloop, rfl⟩ := h
    exact ⟨client', hloop⟩
  -- The rank is the number of messages before the verdict.
  refine Eff.loop_of_ranked (fun k _ c => ∃ texts, texts.length = k ∧
    c.conn.queue = texts ++ text :: more ∧
      ∀ t ∈ texts, (parseRelayMessage C t).concernsEvent event.id = false)
    (fun v' _ => v' = v) ?_ hn ⟨texts, rfl, hq, hskip⟩
  rintro k resent c ⟨texts, rfl, hq, hskip⟩
  cases texts with
  | nil => exact .inl ⟨v, _, publishRound_of_verdict hq hm, rfl⟩
  | cons t texts =>
    obtain ⟨ht, hskip⟩ := List.forall_mem_cons.1 hskip
    exact .inr ⟨texts.length, resent, _, Nat.lt_succ_self _,
      publishRound_of_not_concerns hq ht, texts, rfl, rfl, hskip⟩

/-- A published event is given the first verdict in the queue, if any. -/
theorem publish_eq_firstVerdict {v v' : Bool × String}
    (hv : firstVerdict C event.id
      (client.conn.queue ++ Relay.replies C client.conn.relay (eventFrame event)) = some v)
    (h : publish C event timeout client = (.ok v', client')) : v' = v := by
  rw [publish, Eff.bind_ok (sendFrame_eq C _ _)] at h
  obtain ⟨r, client₁, hloop, h⟩ := Eff.bind_eq_ok.1 h
  cases r with
  | none => cases (Prod.mk.inj h).1
  | some v₁ =>
    obtain ⟨hr, -⟩ := Prod.mk.inj h
    obtain rfl := Except.ok.inj hr
    exact publishLoop_eq_firstVerdict hv hloop

end Publish

section

variable {authenticated : ρ → Bool} (hR : GuardsEvents C ρ authenticated) {event : Event}
  {timeout : Duration}
  (hqueue : ∀ t ∈ client.conn.queue, (parseRelayMessage C t).concernsEvent event.id = false)

include hR hqueue

/-- Before authentication, an event is never reported as accepted. -/
theorem publish_of_unauthenticated (hu : authenticated client.conn.relay = false)
    {v : Bool × String} (h : publish C event timeout client = (.ok v, client')) : v.1 = false := by
  obtain ⟨challenge, message, hreplies⟩ := hR.event_refused client.conn.relay event hu
  have hnone : (messages C client.conn.queue).filter (·.concernsEvent event.id) = [] :=
    filter_messages_eq_nil hqueue
  have hv : firstVerdict C event.id
      (client.conn.queue ++ Relay.replies C client.conn.relay (eventFrame event)) =
        some (false, message) := by
    rcases hreplies with hreplies | hreplies <;>
    · rw [firstVerdict_of_filter (by rw [messages_append, List.filter_append, hnone, hreplies])]
      simp [RelayMessage.verdictOn]
  rw [publish_eq_firstVerdict hv h]

/-- After authentication, an event is reported as accepted. -/
theorem publish_of_authenticated (ha : authenticated client.conn.relay = true)
    (hfew : ((client.conn.queue ++ Relay.replies C client.conn.relay (eventFrame event)).filter
      fun t => !(parseRelayMessage C t).concernsEvent event.id).length < 50) :
    ∃ message client', publish C event timeout client = (.ok (true, message), client') := by
  obtain ⟨message, hreplies⟩ := hR.event_accepted client.conn.relay event ha
  obtain ⟨texts₁, text, texts₂, hsplit, hskip, hm, -⟩ := exists_split hreplies
  have hv : (parseRelayMessage C text).verdictOn event.id = some (true, message) := by
    rw [hm]
    exact if_pos rfl
  have hskip : ∀ t ∈ client.conn.queue ++ texts₁,
      (parseRelayMessage C t).concernsEvent event.id = false := by
    intro t ht
    exact (List.mem_append.1 ht).elim (hqueue t) (hskip t)
  -- What stands before the acknowledgement is unrelated, and so within the bound.
  have hlen : (client.conn.queue ++ texts₁).length < 64 := by
    have hself : (client.conn.queue ++ texts₁).filter
        (fun t => !(parseRelayMessage C t).concernsEvent event.id) = client.conn.queue ++ texts₁ :=
      List.filter_eq_self.2 fun t ht => by simp [hskip t ht]
    rw [hsplit, ← List.append_assoc, List.filter_append, hself, List.length_append] at hfew
    omega
  have hq : (sent C (eventFrame event) client).conn.queue =
      (client.conn.queue ++ texts₁) ++ text :: texts₂ := by
    rw [sent_queue, hsplit, List.append_assoc]
  obtain ⟨client', hloop⟩ : ∃ client', Eff.loop (publishRound C event timeout) 64 false
      (sent C (eventFrame event) client) = (.ok (some (true, message)), client') :=
    publishLoop_of_verdict hq hskip hv hlen
  refine ⟨message, client', ?_⟩
  rw [publish, Eff.bind_ok (sendFrame_eq C _ _), Eff.bind_ok hloop]
  rfl

/-- An event is reported as accepted exactly when the relay had authenticated the
    connection before: otherwise the refusal of the first copy is reported, though
    the challenge is answered and the event sent once more. -/
theorem publish_accepted_iff
    (hfew : ((client.conn.queue ++ Relay.replies C client.conn.relay (eventFrame event)).filter
      fun t => !(parseRelayMessage C t).concernsEvent event.id).length < 50) :
    (∃ message client', publish C event timeout client = (.ok (true, message), client')) ↔
      authenticated client.conn.relay = true := by
  constructor
  · rintro ⟨message, client', h⟩
    by_contra hu
    exact absurd (publish_of_unauthenticated hR hqueue (Bool.eq_false_iff.2 hu) h) (by simp)
  · exact fun ha => publish_of_authenticated hR hqueue ha hfew

end

/-- A client of a relay that demands authentication. -/
def authClient (authenticated : Bool) (stored : List Event) :
    RelayClient (Session (AuthRelay Reference.crates)) :=
  .new { relay := { authenticated, stored }, queue := [] } "wss://relay.example"
    (Reference.signer Reference.one).toSigner

theorem queue_authClient (authenticated : Bool) (stored : List Event) :
    (authClient authenticated stored).conn.queue = [] := rfl

theorem relay_authClient (authenticated : Bool) (stored : List Event) :
    (authClient authenticated stored).conn.relay = { authenticated, stored } := rfl

/-- The relay sends nothing unrelated. -/
theorem few_authClient (authenticated : Bool) (stored : List Event) (event : Event) :
    (((authClient authenticated stored).conn.queue ++ Relay.replies Reference.crates
      (authClient authenticated stored).conn.relay (eventFrame event)).filter fun t =>
        !(parseRelayMessage Reference.crates t).concernsEvent event.id).length < 50 := by
  refine (List.length_filter_le _ _).trans_lt ?_
  rw [queue_authClient, List.nil_append, ← List.length_map (parseRelayMessage Reference.crates),
    ← messages, AuthRelay.messages_replies Reference.json_roundTrips _ (encodable_eventFrame event),
    AuthRelay.reply_eventFrame]
  split_ifs <;> simp

/-- An event published after authentication is accepted. -/
theorem publish_accepted_iff_authClient : ∃ message client',
    publish Reference.crates default 5 (authClient true []) = (.ok (true, message), client') := by
  refine (publish_accepted_iff (AuthRelay.guardsEvents Reference.json_roundTrips) ?_
    (few_authClient true [] default)).2 ?_
  · rw [queue_authClient]
    exact List.forall_mem_nil _
  · rw [relay_authClient]

/-- An event published before authentication is not. -/
theorem refused_event_is_resent_in_vain :
    ¬∀ (ρ : Type) [Relay ρ] [Clock (Session ρ)] (authenticated : ρ → Bool),
      GuardsEvents Reference.crates ρ authenticated →
      ∀ (event : Event) (timeout : Duration) (client : RelayClient (Session ρ)),
      (∀ t ∈ client.conn.queue,
        (parseRelayMessage Reference.crates t).concernsEvent event.id = false) →
      ((client.conn.queue ++ Relay.replies Reference.crates client.conn.relay
        (eventFrame event)).filter fun t =>
          !(parseRelayMessage Reference.crates t).concernsEvent event.id).length < 50 →
      ∃ message client',
        publish Reference.crates event timeout client = (.ok (true, message), client') := by
  intro hclaim
  have hR := AuthRelay.guardsEvents Reference.json_roundTrips
  have hqueue : ∀ t ∈ (authClient false []).conn.queue,
      (parseRelayMessage Reference.crates t).concernsEvent (default : Event).id = false := by
    rw [queue_authClient]
    exact List.forall_mem_nil _
  obtain ⟨message, client', h⟩ := hclaim (AuthRelay Reference.crates) _ hR default 5
    (authClient false []) hqueue (few_authClient false [] default)
  have hu : (authClient false []).conn.relay.authenticated = false := by rw [relay_authClient]
  exact absurd (publish_of_unauthenticated hR hqueue hu h) (by simp)

/-! ## Querying -/

section Query

variable {subId : String} {filter : Filter} {idle : Duration} {events : List Event}

theorem queryRound_of_ends (hq : client.conn.queue = text :: queue)
    (hm : (parseRelayMessage C text).ends subId = true) :
    queryRound C subId filter idle events client =
      (.ok (.done events), client.withQueue queue) := by
  have ha : (parseRelayMessage C text).isAuth = false := RelayMessage.isAuth_of_ends hm
  rw [queryRound_of_message (recvMsg_of_not_auth idle hq ha) ha, hm]
  rfl

/-- A round on a message that does not end the subscription collects what it
    brings, if the signer signs. -/
theorem queryRound_of_not_ends (hx : C.hex.RoundTrips) (hs : client.signer.Signs)
    (hq : client.conn.queue = text :: queue)
    (hm : (parseRelayMessage C text).ends subId = false) :
    ∃ more client', queryRound C subId filter idle events client =
        (.ok (.next (events ++ (parseRelayMessage C text).served C subId)), client') ∧
      client'.conn.queue = queue ++ more ∧ client'.signer = client.signer := by
  obtain ⟨more, client', hrecv, hq', hs'⟩ := recvMsg_of_signs hx hs idle hq
  cases ha : (parseRelayMessage C text).isAuth with
  | false =>
    refine ⟨more, client', ?_, hq', hs'⟩
    rw [queryRound_of_message hrecv ha, hm]
    rfl
  | true =>
    obtain ⟨challenge, hp⟩ := RelayMessage.isAuth_eq_true_iff.1 ha
    have hnone : (parseRelayMessage C text).served C subId = [] := by rw [hp]; rfl
    rw [hp] at hrecv
    -- The answers to the second subscription are queued behind everything else.
    refine ⟨more ++ Relay.replies C client'.conn.relay (reqFrame subId filter),
      sent C (reqFrame subId filter) client', ?_, ?_, hs'⟩
    · rw [queryRound_of_auth hrecv, hnone, List.append_nil]
      rfl
    · rw [sent_queue, hq', List.append_assoc]

/-- The loop of a query collects what the messages before the end of the
    subscription bring. -/
theorem queryLoop_of_ends (hx : C.hex.RoundTrips) (hs : client.signer.Signs) {n : Nat}
    {texts more : List String} (hq : client.conn.queue = texts ++ text :: more)
    (hskip : ∀ t ∈ texts, (parseRelayMessage C t).ends subId = false)
    (hm : (parseRelayMessage C text).ends subId = true) (hn : texts.length < n) :
    ∃ client', Eff.loop (queryRound C subId filter idle) n events client =
      (.ok (some (events ++ (messages C texts).flatMap (·.served C subId))), client') := by
  suffices h : ∃ out client', Eff.loop (queryRound C subId filter idle) n events client =
      (.ok (some out), client') ∧
        out = events ++ (messages C texts).flatMap (·.served C subId) by
    obtain ⟨out, client', hloop, rfl⟩ := h
    exact ⟨client', hloop⟩
  -- The rank is the number of messages before the end, and what they bring is still to come.
  refine Eff.loop_of_ranked (fun k acc c => ∃ texts' more', texts'.length = k ∧
    c.conn.queue = texts' ++ text :: more' ∧
      (∀ t ∈ texts', (parseRelayMessage C t).ends subId = false) ∧ c.signer.Signs ∧
        acc ++ (messages C texts').flatMap (·.served C subId) =
          events ++ (messages C texts).flatMap (·.served C subId))
    (fun out _ => out = events ++ (messages C texts).flatMap (·.served C subId)) ?_ hn
    ⟨texts, more, rfl, hq, hskip, hs, rfl⟩
  rintro k acc c ⟨texts', more', rfl, hq, hskip, hs, hacc⟩
  cases texts' with
  | nil => exact .inl ⟨acc, _, queryRound_of_ends hq hm, by simpa using hacc⟩
  | cons t texts' =>
    obtain ⟨ht, hskip⟩ := List.forall_mem_cons.1 hskip
    obtain ⟨more'', c', hround, hq', hs'⟩ := queryRound_of_not_ends hx hs hq ht
    refine .inr ⟨texts'.length, _, c', Nat.lt_succ_self _, hround, texts', more' ++ more'', rfl,
      hq'.trans (List.append_assoc _ _ _), hskip, hs' ▸ hs, ?_⟩
    rw [← hacc, messages_cons, List.flatMap_cons, List.append_assoc]

/-- The client once a query has opened its subscription. -/
def queried (C : Crates) (filter : Filter) (client : RelayClient (Session ρ)) :
    RelayClient (Session ρ) :=
  sent C (reqFrame client.querySubId filter) { client with nextSub := client.nextSub + 1 }

theorem query_of_loop {n : Nat} {out : List Event}
    (h : Eff.loop (queryRound C client.querySubId filter idle) n [] (queried C filter client) =
      (.ok (some out), client')) :
    ∃ client'', query C n filter idle client = (.ok (some out), client'') := by
  have hreq : sendReq C client.querySubId filter { client with nextSub := client.nextSub + 1 } =
      (.ok (), queried C filter client) := rfl
  simp only [query_eq, hreq, h]
  exact ⟨_, rfl⟩

/-- Only the messages of a subscription bring something on it. -/
theorem flatMap_served {ms : List RelayMessage} :
    ms.flatMap (·.served C subId) = (ms.filter (·.onSub subId)).flatMap (·.served C subId) := by
  induction ms with
  | nil => rfl
  | cons m ms ih =>
    cases hm : m.onSub subId with
    | true => rw [List.filter_cons_of_pos hm, List.flatMap_cons, List.flatMap_cons, ih]
    | false =>
      rw [List.filter_cons_of_neg (by simp [hm]), List.flatMap_cons,
        RelayMessage.served_eq_nil C hm, List.nil_append, ih]

/-- A query returns what the messages of its subscription bring before the first
    one that ends it. -/
theorem query_of_served (hx : C.hex.RoundTrips) (hs : client.signer.Signs)
    {texts more : List String} {ms : List RelayMessage}
    (hq : (queried C filter client).conn.queue = texts ++ text :: more)
    (hms : (messages C texts).filter (·.onSub client.querySubId) = ms)
    (hskip : ∀ m ∈ ms, m.ends client.querySubId = false)
    (hm : (parseRelayMessage C text).ends client.querySubId = true) :
    ∃ n client', query C n filter idle client =
      (.ok (some (ms.flatMap (·.served C client.querySubId))), client') := by
  subst hms
  have hskip : ∀ t ∈ texts, (parseRelayMessage C t).ends client.querySubId = false := by
    intro t ht
    by_contra hends
    have hends := Bool.not_eq_false _ ▸ hends
    have hmem : parseRelayMessage C t ∈
        (messages C texts).filter (·.onSub client.querySubId) :=
      List.mem_filter.2 ⟨List.mem_map_of_mem ht, RelayMessage.onSub_of_ends hends⟩
    exact Bool.false_ne_true ((hskip _ hmem).symm.trans hends)
  have hs : (queried C filter client).signer.Signs := hs
  obtain ⟨client₁, hloop⟩ : ∃ client', Eff.loop (queryRound C client.querySubId filter idle)
      (texts.length + 1) [] (queried C filter client) = (.ok (some ([] ++
        (messages C texts).flatMap (·.served C client.querySubId))), client') :=
    queryLoop_of_ends hx hs hq hskip hm (Nat.lt_succ_self _)
  rw [List.nil_append, flatMap_served] at hloop
  obtain ⟨client', hquery⟩ := query_of_loop hloop
  exact ⟨_, client', hquery⟩

end Query

section

variable {authenticated : ρ → Bool} {stored : ρ → Filter → List Event}
  (hR : GuardsSubs C ρ authenticated stored) (hx : C.hex.RoundTrips)
  (hs : client.signer.Signs) {filter : Filter} {idle : Duration}
  (hqueue : ∀ t ∈ client.conn.queue, (parseRelayMessage C t).onSub client.querySubId = false)

include hR hx hs hqueue

/-- Before authentication, a query returns nothing. -/
theorem query_of_unauthenticated (hu : authenticated client.conn.relay = false) :
    ∃ n client', query C n filter idle client = (.ok (some []), client') := by
  obtain ⟨challenge, message, hreplies⟩ :=
    hR.req_refused client.conn.relay client.querySubId filter hu
  -- Of the two messages, only the refusal is of the subscription.
  have hclosed : (messages C (Relay.replies C client.conn.relay
      (reqFrame client.querySubId filter))).filter (·.onSub client.querySubId) =
        [.closed client.querySubId message] := by
    rw [RelayMessage.filter_onSub_of_concernsSub]
    rcases hreplies with hreplies | hreplies <;>
    · rw [hreplies]
      simp [RelayMessage.onSub, RelayMessage.subId?]
  obtain ⟨texts₁, text, texts₂, hsplit, hskip, hm, -⟩ := exists_split hclosed
  have hq : (queried C filter client).conn.queue =
      (client.conn.queue ++ texts₁) ++ text :: texts₂ := by
    rw [List.append_assoc, ← hsplit]
    rfl
  have hms : (messages C (client.conn.queue ++ texts₁)).filter
      (·.onSub client.querySubId) = [] := by
    rw [messages_append, List.filter_append, filter_messages_eq_nil hqueue,
      filter_messages_eq_nil hskip, List.nil_append]
  exact query_of_served hx hs hq hms (List.forall_mem_nil _) (by rw [hm]; exact beq_self_eq_true _)

/-- After authentication, a query returns the stored events that verify. -/
theorem query_of_authenticated (ha : authenticated client.conn.relay = true) :
    ∃ n client', query C n filter idle client =
      (.ok (some ((stored client.conn.relay filter).filter (·.verify C))), client') := by
  have hreplies := hR.req_served client.conn.relay client.querySubId filter ha
  have hserved : (messages C (Relay.replies C client.conn.relay
      (reqFrame client.querySubId filter))).filter (·.onSub client.querySubId) =
        (stored client.conn.relay filter).map (.event client.querySubId) ++
          [.eose client.querySubId] := by
    rw [RelayMessage.filter_onSub_of_concernsSub, hreplies, List.filter_eq_self]
    intro m hm
    rcases List.mem_append.1 hm with hm | hm
    · obtain ⟨event, -, rfl⟩ := List.mem_map.1 hm
      exact beq_self_eq_true _
    · rw [List.mem_singleton.1 hm]
      exact beq_self_eq_true _
  -- The replies up to the end of the stored events, with other messages in between.
  obtain ⟨texts₁, rest, hsplit, hevents, hend⟩ := exists_split_append hserved
  obtain ⟨texts₂, text, texts₃, rfl, hskip, hm, -⟩ := exists_split hend
  have hq : (queried C filter client).conn.queue =
      (client.conn.queue ++ (texts₁ ++ texts₂)) ++ text :: texts₃ := by
    rw [List.append_assoc, List.append_assoc, ← hsplit]
    rfl
  have hms : (messages C (client.conn.queue ++ (texts₁ ++ texts₂))).filter
      (·.onSub client.querySubId) =
        (stored client.conn.relay filter).map (.event client.querySubId) := by
    rw [messages_append, messages_append, List.filter_append, List.filter_append,
      filter_messages_eq_nil hqueue, hevents, filter_messages_eq_nil hskip, List.nil_append,
      List.append_nil]
  obtain ⟨n, client', hquery⟩ : ∃ n client', query C n filter idle client = (.ok (some
      (((stored client.conn.relay filter).map (RelayMessage.event client.querySubId)).flatMap
        (·.served C client.querySubId))), client') := by
    refine query_of_served hx hs hq hms ?_ (by rw [hm]; exact beq_self_eq_true _)
    rw [List.forall_mem_map]
    exact fun _ _ => rfl
  refine ⟨n, client', hquery.trans ?_⟩
  rw [RelayMessage.flatMap_served_map_event]

/-- A query returns the stored events, each once, exactly when the relay had
    authenticated the connection before, or stores none: otherwise it ends with the
    refusal, though the challenge is answered and the subscription opened once
    more. -/
theorem query_complete_iff
    (hverify : ∀ e ∈ stored client.conn.relay filter, e.verify C = true) :
    (∃ n out client', query C n filter idle client = (.ok (some out), client') ∧
        out.Perm (stored client.conn.relay filter)) ↔
      authenticated client.conn.relay = true ∨ stored client.conn.relay filter = [] := by
  have hall : (stored client.conn.relay filter).filter (·.verify C) =
      stored client.conn.relay filter := List.filter_eq_self.2 hverify
  cases ha : authenticated client.conn.relay with
  | true =>
    obtain ⟨n, client', hquery⟩ := query_of_authenticated hR hx hs hqueue ha
    rw [hall] at hquery
    exact iff_of_true ⟨n, _, client', hquery, .refl _⟩ (.inl rfl)
  | false =>
    obtain ⟨n, client', hquery⟩ := query_of_unauthenticated hR hx hs hqueue ha
    constructor
    · rintro ⟨m, out, client'', hquery', hperm⟩
      obtain rfl := query_unique hquery' hquery
      exact .inr (List.nil_perm.1 hperm)
    · rintro (h | h)
      · cases h
      · exact ⟨n, [], client', hquery, h ▸ .refl _⟩

end

/-- A query after authentication returns the stored event. -/
theorem query_complete_iff_authClient : ∃ event n out client',
    event.verify Reference.crates = true ∧
      query Reference.crates n {} 5 (authClient true [event]) = (.ok (some out), client') ∧
        out.Perm [event] := by
  obtain ⟨event, hverify⟩ := Reference.exists_verified
  have hcomplete : (∃ n out client', query Reference.crates n {} 5 (authClient true [event]) =
      (.ok (some out), client') ∧ out.Perm (authClient true [event]).conn.relay.stored) ↔
        (authClient true [event]).conn.relay.authenticated = true ∨
          (authClient true [event]).conn.relay.stored = [] := by
    refine query_complete_iff (AuthRelay.guardsSubs Reference.json_roundTrips)
      Reference.hex_roundTrips (Reference.signer_signs Reference.one) ?_ ?_
    · rw [queue_authClient]
      exact List.forall_mem_nil _
    · rw [relay_authClient]
      exact List.forall_mem_singleton.2 hverify
  rw [relay_authClient] at hcomplete
  obtain ⟨n, out, client', hquery, hperm⟩ := hcomplete.2 (.inl rfl)
  exact ⟨event, n, out, client', hverify, hquery, hperm⟩

/-- A query before authentication does not. -/
theorem refused_subscription_is_reopened_in_vain :
    ¬∀ (ρ : Type) [Relay ρ] [Clock (Session ρ)] (authenticated : ρ → Bool)
      (stored : ρ → Filter → List Event), GuardsSubs Reference.crates ρ authenticated stored →
      ∀ (filter : Filter) (idle : Duration) (client : RelayClient (Session ρ)),
      client.signer.Signs →
      (∀ t ∈ client.conn.queue,
        (parseRelayMessage Reference.crates t).onSub client.querySubId = false) →
      (∀ e ∈ stored client.conn.relay filter, e.verify Reference.crates = true) →
      ((stored client.conn.relay filter).map Event.id).Nodup →
      ∃ n out client', query Reference.crates n filter idle client = (.ok (some out), client') ∧
        out.Perm (stored client.conn.relay filter) := by
  intro hclaim
  obtain ⟨event, hverify⟩ := Reference.exists_verified
  have hR := AuthRelay.guardsSubs Reference.json_roundTrips
  have hs : (authClient false [event]).signer.Signs := Reference.signer_signs Reference.one
  have hqueue : ∀ t ∈ (authClient false [event]).conn.queue,
      (parseRelayMessage Reference.crates t).onSub (authClient false [event]).querySubId =
        false := by
    rw [queue_authClient]
    exact List.forall_mem_nil _
  obtain ⟨n, out, client', hquery, hperm⟩ := hclaim (AuthRelay Reference.crates) _ _ hR {} 5
    (authClient false [event]) hs hqueue
    (by rw [relay_authClient]; exact List.forall_mem_singleton.2 hverify)
    (by rw [relay_authClient]; exact List.nodup_singleton _)
  obtain ⟨m, client'', hquery'⟩ := query_of_unauthenticated hR Reference.hex_roundTrips hs hqueue
    (by rw [relay_authClient])
  obtain rfl := query_unique hquery hquery'
  rw [relay_authClient] at hperm
  exact List.cons_ne_nil _ _ (List.nil_perm.1 hperm)

end UnicityNostr.RelayClient
