import UnicityNostr.Client.Shared

/-!
# Storing and finding events

Publishing to and querying a relay that stores what it acknowledges, whatever the
other clients send meanwhile.

* `publish_holds`: after an event is accepted, the relay holds it or a later one at
  its address;
* `query_stored`: a query ends, and returns what the relay stores at some moment
  meanwhile (`QueriesAt`);
* `query_finds_copy`: it finds an event that the relay holds, unless another one is
  stored in its place at that moment (`Replaced`).
-/

namespace UnicityNostr

/-! ## Publishing -/

namespace Shared

/-- Whatever is reported as accepted in a frame not read yet holds. -/
def Acked (C : Crates) {ρ : Type} (holds : ρ → String → Prop) {i : Nat} (s : Shared ρ i) : Prop :=
  ∀ text ∈ s.queue, ∀ id message, parseRelayMessage C text = .ok id true message →
    holds s.hub id

variable {C : Crates} {ρ : Type} [Hub ρ] {holds : ρ → String → Prop}
  (ha : Confirms C ρ holds) {i : Nat} {s : Shared ρ i}

include ha

theorem Acked.deliver (h : Acked C holds s) (frame : Nat × String) :
    Acked C holds (s.deliver frame) := by
  intro text htext id message hp
  rcases List.mem_append.1 htext with htext | htext
  · exact ha.keeps _ _ _ id (h text htext id message hp)
  · exact ha.reports _ _ _ _ _ id message (Hub.mem_inbox.1 htext) hp

theorem Acked.yield (h : Acked C holds s) : Acked C holds s.yield :=
  related_yield (R := fun s s' => Acked C holds s → Acked C holds s') (fun _ => id)
    (fun _ _ _ h h' => h' ∘ h) (fun _ _ => id) (fun _ frame _ h => Acked.deliver ha h frame) s h

theorem Acked.send (h : Acked C holds s) (text : String) :
    Acked C holds (RelayConnection.send text s).2 := Acked.deliver ha (Acked.yield ha h) _

theorem Acked.recv (h : Acked C holds s) (timeout : Duration) :
    Acked C holds (RelayConnection.recv timeout s).2 := by
  have hy := Acked.yield ha h
  simp only [RelayConnection.recv]
  split
  · exact hy
  · rename_i text queue hq
    exact fun t ht => hy t (hq ▸ List.mem_cons_of_mem _ ht)

end Shared

namespace RelayClient

variable {C : Crates} {ρ : Type} [Hub ρ] {holds : ρ → String → Prop}
  (ha : Confirms C ρ holds) {i : Nat} [Clock (Shared ρ i)]
  {client client' : RelayClient (Shared ρ i)}

include ha

/-- After an acceptance is received, it holds. -/
theorem recvMsg_holds (h : Shared.Acked C holds client.conn) {timeout : Duration}
    {id message : String}
    (hrecv : recvMsg C timeout client = (.ok (some (.ok id true message)), client')) :
    holds client'.conn.hub id := by
  obtain ⟨text, client₁, hconn, hrest⟩ := Eff.bind_eq_ok.1 hrecv
  rcases text with _ | text
  · cases (Prod.mk.inj hrest).1
  obtain ⟨_, client₂, hanswer, hrest⟩ := Eff.bind_eq_ok.1 hrest
  obtain ⟨hm, rfl⟩ := Prod.mk.inj hrest
  have hp := Option.some.inj (Except.ok.inj hm)
  rw [answer_of_not_auth (by rw [hp]; rfl)] at hanswer
  obtain ⟨-, rfl⟩ := Prod.mk.inj hanswer
  obtain ⟨hresult, rfl⟩ := Prod.mk.inj hconn
  obtain ⟨htext, hhub⟩ := Shared.mem_of_recv (Prod.ext hresult rfl)
  have hheld := Shared.Acked.yield ha h text htext id message hp
  rwa [← hhub] at hheld

/-- When a round of publishing is done with an acceptance, it holds. -/
theorem publishRound_holds (h : Shared.Acked C holds client.conn) {event : Event}
    {timeout : Duration} {resent : Bool} {v : Bool × String}
    (hround : publishRound C event timeout resent client = (.ok (.done v), client'))
    (hv : v.1 = true) : holds client'.conn.hub event.id := by
  rcases hrecv : recvMsg C timeout client with ⟨e | _ | m, client₁⟩
  · rw [publishRound_of_error hrecv] at hround
    cases (Prod.mk.inj hround).1
  · rw [publishRound_of_none hrecv] at hround
    cases (Prod.mk.inj hround).1
  · cases hm : m.isAuth with
    | true =>
      obtain ⟨challenge, rfl⟩ := RelayMessage.isAuth_eq_true_iff.1 hm
      rw [publishRound_of_auth hrecv] at hround
      split at hround
      · cases (Prod.mk.inj hround).1
      · rcases hsend : sendFrame C (eventFrame event) client₁ with ⟨e | _, client₂⟩
        · rw [hsend] at hround
          cases (Prod.mk.inj hround).1
        · rw [hsend] at hround
          cases (Prod.mk.inj hround).1
    | false =>
      rw [publishRound_of_message hrecv hm] at hround
      obtain ⟨hdone, rfl⟩ := Prod.mk.inj hround
      cases hverdict : m.verdictOn event.id with
      | none =>
        rw [hverdict] at hdone
        cases hdone
      | some v' =>
        rw [hverdict] at hdone
        obtain rfl : v' = v := Eff.Round.done.inj (Except.ok.inj hdone)
        obtain ⟨message, rfl⟩ : ∃ message, m = .ok event.id true message := by
          cases m with
          | ok id accepted message =>
            rw [RelayMessage.verdictOn] at hverdict
            split_ifs at hverdict with hid
            obtain rfl := Option.some.inj hverdict
            obtain rfl : accepted = true := hv
            exact ⟨message, by rw [hid]⟩
          | _ => cases hverdict
        exact recvMsg_holds ha h hrecv

/-- After an event is accepted, it holds. -/
theorem publish_holds (h : Shared.Acked C holds client.conn) {event : Event} {timeout : Duration}
    {message : String}
    (hpublish : publish C event timeout client = (.ok (true, message), client')) :
    holds client'.conn.hub event.id := by
  let T : RelayClient (Shared ρ i) → RelayClient (Shared ρ i) → Prop := fun client client' =>
    Shared.Acked C holds client.conn → Shared.Acked C holds client'.conn
  have hsend : ∀ frame, Eff.Moves T (sendFrame C frame) :=
    fun frame client h => Shared.Acked.send ha h _
  have hrecv : ∀ timeout, Eff.Moves T (recvMsg C timeout) :=
    moves_recvMsg (T := T) (fun _ => id) (fun _ _ _ h h' => h' ∘ h)
      (fun timeout client h => Shared.Acked.recv ha h timeout) fun auth => hsend _
  have hround : ∀ resent, Eff.Moves T (publishRound C event timeout resent) :=
    moves_publishRound (T := T) (fun _ => id) (fun _ _ _ h h' => h' ∘ h) hrecv (hsend _) timeout
  obtain ⟨_, client₁, hsent, hrest⟩ := Eff.bind_eq_ok.1 hpublish
  obtain ⟨verdict, client₂, hloop, hrest⟩ := Eff.bind_eq_ok.1 hrest
  cases verdict with
  | none => cases (Prod.mk.inj hrest).1
  | some v =>
    obtain ⟨hv, rfl⟩ := Prod.mk.inj hrest
    obtain rfl := Except.ok.inj hv
    obtain ⟨-, rfl⟩ := Prod.mk.inj hsent
    refine Eff.loop_of_invariant (fun _ c => Shared.Acked C holds c.conn)
      (fun v c => v.1 = true → holds c.conn.hub event.id) ?_ ?_ (hsend _ client h) hloop
        rfl
    · intro resent c resent' c' hc hnext
      have := hround resent c hc
      rwa [hnext] at this
    · exact fun resent c v c' hc hdone hv => publishRound_holds ha hc hdone hv

/-- After a client has published an event with success, over a connection that was new
    before its calls, it holds. -/
theorem holds_of_accepted {newcomer : RelayClient (Shared ρ i)} (hnew : newcomer.conn.queue = [])
    {calls : List Call} {event : Event} {timeout : Duration} {message : String}
    (hpublish : publish C event timeout (performAll C calls newcomer) =
      (.ok (true, message), client)) : holds client.conn.hub event.id := by
  refine publish_holds ha (invariant_performAll (P := Shared.Acked C holds) C
    (fun text s h => Shared.Acked.send ha h text)
    (fun timeout s h => Shared.Acked.recv ha h timeout) calls fun text htext => ?_) hpublish
  rw [hnew] at htext
  cases htext

end RelayClient

/-! ## Querying -/

section Awaits

variable (C : Crates) (wanted : Event → Prop) (subId : String)

/-- Among the frames not read yet, the end of the subscription is still to come after
    `k` others, and what is wanted has been collected or is brought before it. -/
def Awaits (k : Nat) (events : List Event) (queue : List String) : Prop :=
  ∃ before text after, queue = before ++ text :: after ∧ before.length = k ∧
    (parseRelayMessage C text).ends subId = true ∧
    (∀ t ∈ before, (parseRelayMessage C t).ends subId = false) ∧
    ∀ e, wanted e → e ∈ events ∨ ∃ t ∈ before, parseRelayMessage C t = .event subId e

variable {C wanted subId} {k : Nat} {events : List Event} {queue queue' : List String}

/-- Frames that are added to the end do not matter. -/
theorem Awaits.of_prefix (h : Awaits C wanted subId k events queue) (hq : queue <+: queue') :
    Awaits C wanted subId k events queue' := by
  obtain ⟨before, text, after, rfl, hk, hends, hbefore, hwanted⟩ := h
  obtain ⟨more, rfl⟩ := hq
  exact ⟨before, text, after ++ more, by simp, hk, hends, hbefore, hwanted⟩

/-- The first of the frames ends the subscription, and everything has been collected;
    or it does not, and what it brings is collected. -/
theorem Awaits.cases (hwanted : ∀ e, wanted e → e.verify C = true)
    (h : Awaits C wanted subId k events queue) :
    ∃ text rest, queue = text :: rest ∧
      (((parseRelayMessage C text).ends subId = true ∧ ∀ e, wanted e → e ∈ events) ∨
        (parseRelayMessage C text).ends subId = false ∧ ∃ k', k = k' + 1 ∧
          Awaits C wanted subId k' (events ++ (parseRelayMessage C text).served C subId) rest) := by
  obtain ⟨before, text, after, rfl, rfl, hends, hbefore, hall⟩ := h
  cases before with
  | nil =>
    refine ⟨text, after, rfl, .inl ⟨hends, fun e he => ?_⟩⟩
    rcases hall e he with hmem | ⟨t, ht, -⟩
    · exact hmem
    · cases ht
  | cons first before =>
    obtain ⟨hfirst, hbefore⟩ := List.forall_mem_cons.1 hbefore
    refine ⟨first, before ++ text :: after, rfl, .inr ⟨hfirst, before.length, rfl, before, text,
      after, rfl, rfl, hends, hbefore, fun e he => ?_⟩⟩
    rcases hall e he with hmem | ⟨t, ht, hp⟩
    · exact .inl (List.mem_append_left _ hmem)
    rcases List.mem_cons.1 ht with rfl | ht
    · refine .inl (List.mem_append_right _ ?_)
      rw [hp, RelayMessage.served, if_pos ⟨rfl, hwanted e he⟩]
      exact List.mem_singleton_self e
    · exact .inr ⟨t, ht, hp⟩

end Awaits

namespace RelayClient

variable {C : Crates} {ρ : Type} [Hub ρ] {i : Nat} [Clock (Shared ρ i)]
  {client client' : RelayClient (Shared ρ i)}

omit [Clock (Shared ρ i)] in
/-- Sending never fails, and frames are added to those not read yet. -/
theorem sendFrame_shared (frame : Json) (client : RelayClient (Shared ρ i)) :
    ∃ client', sendFrame C frame client = (.ok (), client') ∧
      client.conn.queue <+: client'.conn.queue ∧ client'.signer = client.signer :=
  ⟨_, rfl, (Shared.grows_send _ client.conn).2, rfl⟩

/-- A signer that signs answers every challenge. -/
theorem recvMsg_of_challenge {timeout : Duration} {text challenge : String}
    (hrecv : onConn (RelayConnection.recv timeout) client = (.ok (some text), client'))
    (hp : parseRelayMessage C text = .auth challenge) (hx : C.hex.RoundTrips)
    (hs : client'.signer.Signs) :
    ∃ auth, recvMsg C timeout client =
      (.ok (some (parseRelayMessage C text)), (sendFrame C (authFrame auth) client').2) := by
  obtain ⟨auth, hauth⟩ : ∃ auth, authEvent C challenge client' = .ok auth :=
    Event.exists_create hx hs _ _ _ _
  obtain ⟨client'', hsent, -, -⟩ := sendFrame_shared (C := C) (authFrame auth) client'
  have hread : Eff.read (authEvent C challenge) client' = (.ok auth, _) := congrArg (·, _) hauth
  have hanswer : answer C (.auth challenge) client' = (.ok (), client'') := by
    rw [answer, answerAuth, Eff.bind_ok hread, hsent]
  refine ⟨auth, ?_⟩
  rw [recvMsg, Eff.bind_ok hrecv, hsent]
  simp only [hp]
  exact Eff.bind_ok hanswer _

/-- The first frame not read yet is received, and answered if it is a challenge. -/
theorem recvMsg_shared (hx : C.hex.RoundTrips) (hs : client.signer.Signs) (timeout : Duration)
    {text : String} {queue : List String} (h : client.conn.queue = text :: queue) :
    ∃ client', recvMsg C timeout client = (.ok (some (parseRelayMessage C text)), client') ∧
      queue <+: client'.conn.queue ∧ client'.signer = client.signer := by
  obtain ⟨s, hrecv, hqueue⟩ := Shared.recv_of_cons timeout h
  have hconn : onConn (RelayConnection.recv timeout) client =
      (.ok (some text), { client with conn := s }) := by rw [onConn, hrecv]
  cases ha : (parseRelayMessage C text).isAuth with
  | false => exact ⟨_, recvMsg_of_recv hconn ha, hqueue, rfl⟩
  | true =>
    obtain ⟨challenge, hp⟩ := RelayMessage.isAuth_eq_true_iff.1 ha
    obtain ⟨auth, hanswered⟩ := recvMsg_of_challenge hconn hp hx hs
    exact ⟨_, hanswered, hqueue.trans (Shared.grows_send _ s).2, rfl⟩

/-- An event is published with success when its acceptance is the first frame not read yet
    after it is sent, and the others have sent what they send. -/
theorem publish_of_ok {event : Event} {s : Shared ρ i} {text message : String}
    {queue : List String}
    (hsend : RelayConnection.send (C.json.toString (eventFrame event)) client.conn = (.ok (), s))
    (hothers : s.others = []) (hqueue : s.queue = text :: queue)
    (hp : parseRelayMessage C text = .ok event.id true message) (timeout : Duration) :
    publish C event timeout client =
      (.ok (true, message), { client with conn := { s with queue } }) := by
  have hyield : s.yield = s := by rw [Shared.yield, hothers]
  have hsent : sendFrame C (eventFrame event) client = (.ok (), { client with conn := s }) := by
    rw [sendFrame, onConn, hsend]
  have hrecv : recvMsg C timeout { client with conn := s } =
      (.ok (some (parseRelayMessage C text)), { client with conn := { s with queue } }) := by
    refine recvMsg_of_recv ?_ (by rw [hp]; rfl)
    simp only [onConn, RelayConnection.recv, hyield, hqueue]
  have hround : publishRound C event timeout false { client with conn := s } = _ :=
    publishRound_of_message hrecv (by rw [hp]; rfl)
  rw [hp, RelayMessage.verdictOn, if_pos rfl] at hround
  rw [publish, Eff.bind_ok hsent, Eff.bind_ok (Eff.loop_done hround)]
  rfl

variable {wanted : Event → Prop} {subId : String} {filter : Filter} {idle : Duration}
  {events : List Event} {k : Nat}

/-- A round of a query that awaits its end is done, with everything collected, or goes on
    with one frame fewer to come. -/
theorem queryRound_awaits (hx : C.hex.RoundTrips) (hwanted : ∀ e, wanted e → e.verify C = true)
    (hs : client.signer.Signs) (h : Awaits C wanted subId k events client.conn.queue) :
    (∃ out client', queryRound C subId filter idle events client = (.ok (.done out), client') ∧
      ∀ e, wanted e → e ∈ out) ∨
    ∃ k' events' client', k' < k ∧
      queryRound C subId filter idle events client = (.ok (.next events'), client') ∧
        client'.signer.Signs ∧ Awaits C wanted subId k' events' client'.conn.queue := by
  obtain ⟨text, rest, hqueue, hcases⟩ := h.cases hwanted
  obtain ⟨client₁, hrecv, hgrows, hsigner⟩ := recvMsg_shared hx hs idle hqueue
  rcases hcases with ⟨hends, hall⟩ | ⟨hends, k, rfl, hawaits⟩
  · have hround : queryRound C subId filter idle events client = _ :=
      queryRound_of_message hrecv (RelayMessage.isAuth_of_ends hends)
    rw [if_pos hends] at hround
    exact .inl ⟨events, client₁, hround, hall⟩
  right
  cases ha : (parseRelayMessage C text).isAuth with
  | false =>
    have hround : queryRound C subId filter idle events client = _ :=
      queryRound_of_message hrecv ha
    rw [if_neg (by rw [hends]; exact Bool.false_ne_true)] at hround
    exact ⟨k, _, client₁, Nat.lt_succ_self k, hround, hsigner ▸ hs, hawaits.of_prefix hgrows⟩
  | true =>
    obtain ⟨challenge, hp⟩ := RelayMessage.isAuth_eq_true_iff.1 ha
    obtain ⟨client₂, hsent, hgrows₂, hsigner₂⟩ :=
      sendFrame_shared (C := C) (reqFrame subId filter) client₁
    rw [hp] at hrecv hawaits
    have hround : queryRound C subId filter idle events client = _ := queryRound_of_auth hrecv
    rw [sendReq, hsent] at hround
    rw [RelayMessage.served_eq_nil (C := C) (show RelayMessage.onSub subId (.auth challenge) = false
      from rfl), List.append_nil] at hawaits
    exact ⟨k, _, client₂, Nat.lt_succ_self k, hround, (hsigner₂.trans hsigner) ▸ hs,
      hawaits.of_prefix (hgrows.trans hgrows₂)⟩

variable {stored : ρ → List Event}

omit [Clock (Shared ρ i)] in
/-- Once a subscription has been opened whose end is not already among the frames not
    read yet, its end is among them, after what is stored and matches. -/
theorem awaits_of_sendReq (hr : Stores C ρ stored) (hlimit : filter.limit = none)
    (client : RelayClient (Shared ρ i))
    (hfresh : ∀ text ∈ client.conn.queue, (parseRelayMessage C text).ends subId = false) :
    ∃ r k client', sendReq C subId filter client = (.ok (), client') ∧
      client'.signer = client.signer ∧ Hub.Evolves client.conn.hub r ∧
      Hub.Evolves r client'.conn.hub ∧
      Awaits C (fun e => e ∈ stored r ∧ filter.withoutEmpty.matches e = true) subId k []
        client'.conn.queue := by
  -- The frames of the others, before the subscription is opened, do not end it.
  have hyield : ∀ text ∈ client.conn.yield.queue, (parseRelayMessage C text).ends subId = false :=
    Shared.related_yield (R := fun s s' =>
        (∀ text ∈ s.queue, (parseRelayMessage C text).ends subId = false) →
          ∀ text ∈ s'.queue, (parseRelayMessage C text).ends subId = false)
      (fun _ => id) (fun _ _ _ h h' => h' ∘ h) (fun _ _ => id) (fun s frame hne h text htext => by
        rcases List.mem_append.1 htext with htext | htext
        · exact h text htext
        · refine Bool.eq_false_iff.2 fun hends => hne ?_
          exact (hr.ends_own _ _ _ _ _ _ (Hub.mem_inbox.1 htext) hends).symm) _ hfresh
  obtain ⟨events, hreplies, hserved⟩ := hr.serves client.conn.yield.hub i subId filter hlimit
  obtain ⟨texts, last, hsplit, hevents, hlast⟩ := exists_split_append hreplies
  obtain ⟨before, text, after, rfl, hbefore, htext, -⟩ := exists_split hlast
  refine ⟨client.conn.yield.hub, _, _, rfl, rfl, (Shared.grows_yield _).1,
    Hub.evolves_receive _ _ _, client.conn.yield.queue ++ (texts ++ before), text, after,
    ?_, rfl, ?_, ?_, ?_⟩
  · show client.conn.yield.queue ++ _ = _
    rw [hsplit]
    simp
  · rw [htext]
    exact beq_self_eq_true subId
  · have hends : ∀ t, (∀ m, parseRelayMessage C t = m → m.onSub subId = true →
        ∃ e ∈ events, m = .event subId e) → (parseRelayMessage C t).ends subId = false := by
      intro t h
      refine Bool.eq_false_iff.2 fun hends => ?_
      obtain ⟨e, -, hp⟩ := h _ rfl (RelayMessage.onSub_of_ends hends)
      rw [hp] at hends
      cases hends
    intro t ht
    rcases List.mem_append.1 ht with ht | ht
    · exact hyield t ht
    rcases List.mem_append.1 ht with ht | ht
    · refine hends t fun m hm honSub => ?_
      have hmem : m ∈ (messages C texts).filter (·.onSub subId) :=
        List.mem_filter.2 ⟨hm ▸ List.mem_map_of_mem ht, honSub⟩
      rw [hevents] at hmem
      obtain ⟨e, he, rfl⟩ := List.mem_map.1 hmem
      exact ⟨e, he, rfl⟩
    · refine hends t fun m hm honSub => ?_
      rw [← hm, hbefore t ht] at honSub
      cases honSub
  · rintro e ⟨he, hmatches⟩
    have hmem : RelayMessage.event subId e ∈ (messages C texts).filter (·.onSub subId) :=
      hevents ▸ List.mem_map_of_mem (hserved e he hmatches)
    obtain ⟨t, ht, hp⟩ := List.mem_map.1 (List.mem_filter.1 hmem).1
    exact .inr ⟨t, by simp [ht], hp⟩

/-- The relay goes on while a message is received. -/
theorem evolves_recvMsg (timeout : Duration) :
    Eff.Moves (fun c c' : RelayClient (Shared ρ i) => Hub.Evolves c.conn.hub c'.conn.hub)
      (recvMsg C timeout) :=
  moves_recvMsg (fun _ => .refl) (fun _ _ _ => .trans)
    (fun timeout client => Shared.evolves_recv timeout client.conn)
    (fun _ client => (Shared.grows_send _ client.conn).1) timeout

/-- The relay goes on during the rounds of a query. -/
theorem evolves_queryRound (subId : String) (filter : Filter) (idle : Duration)
    (events : List Event) :
    Eff.Moves (fun c c' : RelayClient (Shared ρ i) => Hub.Evolves c.conn.hub c'.conn.hub)
      (queryRound C subId filter idle events) :=
  moves_queryRound (fun _ _ _ => .trans) evolves_recvMsg
    (fun client => (Shared.grows_send _ client.conn).1) idle events

/-- A query ends with `out`, and meanwhile the relay is at some moment in the state `r`. -/
structure QueriesAt (C : Crates) (filter : Filter) (idle : Duration)
    (client : RelayClient (Shared ρ i)) (out : List Event) (client' : RelayClient (Shared ρ i))
    (r : ρ) : Prop where
  ends : QueryEnds C filter idle client (.ok out) client'
  afterStart : Hub.Evolves client.conn.hub r
  beforeEnd : Hub.Evolves r client'.conn.hub

/-- A query ends, and returns what is stored and matches at some moment meanwhile. -/
theorem query_stored (hr : Stores C ρ stored) (hx : C.hex.RoundTrips) (hs : client.signer.Signs)
    (hlimit : filter.limit = none) (idle : Duration)
    (hfresh : ∀ text ∈ client.conn.queue,
      (parseRelayMessage C text).ends client.querySubId = false) :
    ∃ out client' r, QueriesAt C filter idle client out client' r ∧
      ∀ e ∈ stored r, filter.withoutEmpty.matches e = true → e ∈ out := by
  obtain ⟨r, k, client₁, hreq, hsigner, hevolves, hevolves₁, hawaits⟩ :=
    awaits_of_sendReq hr hlimit { client with nextSub := client.nextSub + 1 } hfresh
  obtain ⟨out, client₂, hloop, hall⟩ : ∃ out client₂,
      Eff.loop (queryRound C client.querySubId filter idle) (k + 1) [] client₁ =
        (.ok (some out), client₂) ∧
      ∀ e, e ∈ stored r ∧ filter.withoutEmpty.matches e = true → e ∈ out := Eff.loop_of_ranked
    (fun k events (c : RelayClient (Shared ρ i)) => c.signer.Signs ∧ Awaits C
      (fun e => e ∈ stored r ∧ filter.withoutEmpty.matches e = true) client.querySubId k events
        c.conn.queue)
    (fun out _ => ∀ e, e ∈ stored r ∧ filter.withoutEmpty.matches e = true → e ∈ out)
    (fun k events c hinv => queryRound_awaits hx (fun e he => hr.verified r e he.1) hinv.1 hinv.2)
    (Nat.lt_succ_self k) ⟨hsigner ▸ hs, hawaits⟩
  have hmoves := Eff.Moves.loop (fun c : RelayClient (Shared ρ i) => .refl) (fun _ _ _ => .trans)
    (evolves_queryRound (C := C) client.querySubId filter idle) (k + 1) [] client₁
  rw [hloop] at hmoves
  refine ⟨out, _, r, ⟨(queryEnds_iff_of_sendReq hreq).2 ⟨client₂, ⟨k + 1, hloop⟩, rfl⟩, hevolves,
    (hevolves₁.trans hmoves).trans ?_⟩, fun e he hm => hall e ⟨he, hm⟩⟩
  exact (Shared.grows_send _ client₂.conn).1

/-! ## Publishing and querying -/

/-- After a client has published an event with success, over a connection that was new
    before its calls, the relay holds the event. -/
theorem holds_of_published (hr : Stores C ρ stored) {newcomer : RelayClient (Shared ρ i)}
    (hnew : newcomer.conn.queue = []) {calls : List Call} {event : Event} {timeout : Duration}
    {message : String}
    (hpublish : publish C event timeout (performAll C calls newcomer) =
      (.ok (true, message), client)) : Holds C stored client.conn.hub event.id :=
  holds_of_accepted hr.confirms_holds hnew hpublish

/-- A query finds the event that is stored at some moment meanwhile for one that the relay
    holds, which is the event or the later one in its place. -/
theorem query_finds (hr : Stores C ρ stored) (hx : C.hex.RoundTrips) (hs : client.signer.Signs)
    (filter : Filter) (hlimit : filter.limit = none) (idle : Duration)
    (hfresh : ∀ text ∈ client.conn.queue,
      (parseRelayMessage C text).ends client.querySubId = false) {event : Event}
    (hholds : Holds C stored client.conn.hub event.id) :
    ∃ out client' r, QueriesAt C filter idle client out client' r ∧
      ∃ e, event.Copies C e ∧
        (Kinds.isEphemeral e.kind = false → ∃ e' ∈ stored r, e.Succeeds e' ∧
          (filter.withoutEmpty.matches e' = true → e' ∈ out)) := by
  obtain ⟨out, client', r, hquery, hout⟩ := query_stored hr hx hs hlimit idle hfresh
  obtain ⟨e, hid, hv, hstored⟩ := hr.holds_evolves hquery.afterStart hholds
  refine ⟨out, client', r, hquery, e, ⟨hid, hv⟩, fun heph => ?_⟩
  obtain ⟨e', he', hsucc⟩ := hstored heph
  exact ⟨e', he', hsucc, hout e' he'⟩

end RelayClient

end UnicityNostr
