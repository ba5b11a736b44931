import UnicityNostr.Client.Feed
import UnicityNostr.Client.Transcript
import UnicityNostr.Reference

/-!
# The ways out of a query

A query closes its subscription when its loop is done, but not when it fails: when
receiving fails, when a challenge cannot be answered, or when the subscription
cannot be opened once more.

* `queryLoop_left`: what the loop of a query has read and sent when it is left;
* `query_settled_iff`: no subscription is left open if and only if none of these
  comes before the end of the subscription.
-/

namespace UnicityNostr.RelayClient

section

variable (C : Crates) {σ : Type} (subId : String) (filter : Filter)

/-- The frame that closes the subscription has been sent, and the connection has taken
    it. -/
def HasClosed (client : RelayClient (Feed (Recorded σ))) : Prop :=
  .sent (C.json.toString (closeFrame subId)) (.ok ()) ∈ client.conn.conn.log

/-- The subscription has been closed, by the client, or by the relay in one of the items
    that have been read. -/
def Settled (items : List (Result (Option String))) (client' : RelayClient (Feed (Recorded σ))) :
    Prop :=
  HasClosed C subId client' ∨ ∃ read text message, items = read ++ client'.conn.items ∧
    .ok (some text) ∈ read ∧ parseRelayMessage C text = .closed subId message

variable [RelayConnection σ] [Clock σ]

/-- The client after an item that does not end the subscription `subId`: a challenge is
    answered, and the subscription opened once more. There is none if this fails. -/
def afterItem (client : RelayClient σ) : Result (Option String) → Option (RelayClient σ)
  | .error _ => none
  | .ok none => some client
  | .ok (some text) =>
    match answer C (parseRelayMessage C text) client with
    | (.error _, _) => none
    | (.ok _, client₁) =>
      if (parseRelayMessage C text).isAuth then
        match sendReq C subId filter client₁ with
        | (.error _, _) => none
        | (.ok _, client₂) => some client₂
      else some client₁

/-- Nothing fails before the items end the subscription. -/
def EndsWell (items : List (Result (Option String))) (client : RelayClient σ) : Prop :=
  ((items.takeWhile fun item => !terminates C subId item).foldlM (afterItem C subId filter)
    client).isSome = true

end

variable {C : Crates} {σ : Type} [RelayConnection σ] [Clock σ] {subId : String} {filter : Filter}
  {idle : Duration} {events : List Event} {items : List (Result (Option String))}
  {client : RelayClient (Recorded σ)}

theorem endsWell_of_terminates {item : Result (Option String)}
    (h : terminates C subId item = true) : EndsWell C subId filter (item :: items) client := by
  rw [EndsWell, List.takeWhile_cons_of_neg (by simp [h])]
  rfl

theorem endsWell_cons {item : Result (Option String)} (h : terminates C subId item = false) :
    EndsWell C subId filter (item :: items) client ↔
      ∃ client₁, afterItem C subId filter client item = some client₁ ∧
        EndsWell C subId filter items client₁ := by
  rw [EndsWell, List.takeWhile_cons_of_pos (by simp [h]), List.foldlM_cons]
  cases afterItem C subId filter client item with
  | none => simp
  | some client₁ => simp [EndsWell]

theorem not_endsWell_cons {item : Result (Option String)} (h : terminates C subId item = false)
    (hitem : afterItem C subId filter client item = none) :
    ¬EndsWell C subId filter (item :: items) client := by
  rw [endsWell_cons h, hitem]
  simp

/-! ## The loop -/

theorem afterItem_of_not_auth {text : String} (h : (parseRelayMessage C text).isAuth = false) :
    afterItem C subId filter client (.ok (some text)) = some client := by
  simp only [afterItem, answer_of_not_auth h, h, Bool.false_eq_true, if_false]

/-- A round of a query on a challenge fails where the challenge cannot be answered or
    the subscription not be opened once more, and goes on where they can. -/
theorem queryRound_challenge (idle : Duration) (events : List Event) {text : String}
    (hm : (parseRelayMessage C text).isAuth = true) (items : List (Result (Option String)))
    (client : RelayClient (Recorded σ)) :
    (afterItem C subId filter client (.ok (some text)) = none ∧ ∃ e client₁,
      queryRound C subId filter idle events (client.feed (.ok (some text) :: items)) =
        (.error e, RelayClient.feed items client₁)) ∨
    ∃ client₁, afterItem C subId filter client (.ok (some text)) = some client₁ ∧
      queryRound C subId filter idle events (client.feed (.ok (some text) :: items)) =
        (.ok (.next events), client₁.feed items) := by
  obtain ⟨challenge, hp⟩ := RelayMessage.isAuth_eq_true_iff.1 hm
  have hrecv : recvMsg C idle (client.feed (.ok (some text) :: items)) = _ :=
    recvMsg_feed_text text
  rcases hanswer : answer C (parseRelayMessage C text) client with ⟨e | _, client₁⟩
  · have hafter : afterItem C subId filter client (.ok (some text)) = none := by
      simp only [afterItem, hanswer]
    rw [hanswer] at hrecv
    exact .inl ⟨hafter, e, client₁, queryRound_of_error hrecv⟩
  · rw [hanswer] at hrecv
    have hround : queryRound C subId filter idle events _ = _ := queryRound_of_auth
      (hrecv.trans (congrArg (fun m => (Except.ok (some m), client₁.feed items)) hp))
    rw [sendReq, sendFrame_feed _ client₁, ← sendReq] at hround
    rcases hreq : sendReq C subId filter client₁ with ⟨e | _, client₂⟩
    · have hafter : afterItem C subId filter client (.ok (some text)) = none := by
        simp only [afterItem, hanswer, hm, if_true, hreq]
      rw [hreq] at hround
      exact .inl ⟨hafter, e, client₂, hround⟩
    · have hafter : afterItem C subId filter client (.ok (some text)) = some client₂ := by
        simp only [afterItem, hanswer, hm, if_true, hreq]
      rw [hreq] at hround
      exact .inr ⟨client₂, hafter, hround⟩

/-- A round of a query is done with an item that ends the subscription, fails where
    the client cannot go on after the item, and goes on where it can. -/
theorem queryRound_feed (subId : String) (filter : Filter) (idle : Duration)
    (events : List Event) (item : Result (Option String))
    (items : List (Result (Option String))) (client : RelayClient (Recorded σ)) :
    (terminates C subId item = true ∧
      queryRound C subId filter idle events (client.feed (item :: items)) =
        (.ok (.done events), client.feed items)) ∨
    (terminates C subId item = false ∧
      ((afterItem C subId filter client item = none ∧ ∃ e client₁,
        queryRound C subId filter idle events (client.feed (item :: items)) =
          (.error e, RelayClient.feed items client₁)) ∨
      ∃ client₁ events', afterItem C subId filter client item = some client₁ ∧
        queryRound C subId filter idle events (client.feed (item :: items)) =
          (.ok (.next events'), client₁.feed items))) := by
  rcases item with e | _ | text
  · exact .inr ⟨rfl, .inl ⟨rfl, e, client, queryRound_of_error (recvMsg_feed_error e)⟩⟩
  · exact .inl ⟨rfl, queryRound_of_none recvMsg_feed_none⟩
  · cases hm : (parseRelayMessage C text).isAuth with
    | false =>
      have hround : queryRound C subId filter idle events
          (client.feed (.ok (some text) :: items)) = _ :=
        queryRound_of_message (recvMsg_feed_of_not_auth hm) hm
      cases hends : (parseRelayMessage C text).ends subId with
      | true =>
        rw [hends] at hround
        exact .inl ⟨hends, hround⟩
      | false =>
        rw [hends] at hround
        exact .inr ⟨hends, .inr ⟨client, _, afterItem_of_not_auth hm, hround⟩⟩
    | true =>
      have hends : terminates C subId (.ok (some text)) = false :=
        Bool.eq_false_iff.2 fun hends =>
          Bool.false_ne_true ((RelayMessage.isAuth_of_ends hends).symm.trans hm)
      rcases queryRound_challenge idle events hm items client with
        hfails | ⟨client₁, hafter, hround⟩
      · exact .inr ⟨hends, .inl hfails⟩
      · exact .inr ⟨hends, .inr ⟨client₁, events, hafter, hround⟩⟩

/-- What the loop of a query has read when it is left: none of the items ends the
    subscription if something fails. -/
theorem queryLoop_left {r : Result (List Event)} {client' : RelayClient (Feed (Recorded σ))}
    (h : Eff.LoopEnds (queryRound C subId filter idle) events (client.feed items) r client') :
    ∃ read, items = read ++ client'.conn.items ∧
      ((r.isOk = true ∧ EndsWell C subId filter items client) ∨
        (r.isOk = false ∧ ¬EndsWell C subId filter items client ∧
          ∀ item ∈ read, terminates C subId item = false)) := by
  induction items generalizing events client with
  | nil =>
    obtain ⟨rfl, rfl⟩ := (Eff.loopEnds_iff (queryRound_of_none recvMsg_feed_nil)).1 h
    exact ⟨[], rfl, .inl ⟨rfl, rfl⟩⟩
  | cons item items ih =>
    rcases queryRound_feed (C := C) subId filter idle events item items client with
      ⟨hends, hround⟩ | ⟨hends, ⟨hnone, e, client₁, hround⟩ | ⟨client₁, events', hsome, hround⟩⟩
    · obtain ⟨rfl, rfl⟩ := (Eff.loopEnds_iff hround).1 h
      exact ⟨[item], rfl, .inl ⟨rfl, endsWell_of_terminates hends⟩⟩
    · obtain ⟨rfl, rfl⟩ := (Eff.loopEnds_iff hround).1 h
      exact ⟨[item], rfl, .inr ⟨rfl, not_endsWell_cons hends hnone,
        List.forall_mem_singleton.2 hends⟩⟩
    · obtain ⟨read, hread, hcases⟩ := ih ((Eff.loopEnds_iff hround).1 h)
      have hwell : EndsWell C subId filter (item :: items) client ↔
          EndsWell C subId filter items client₁ := by
        rw [endsWell_cons hends, hsome]
        simp
      refine ⟨item :: read, congrArg _ hread, ?_⟩
      rw [hwell]
      rcases hcases with hok | ⟨hr, hnot, hall⟩
      · exact .inl hok
      · exact .inr ⟨hr, hnot, List.forall_mem_cons.2 ⟨hends, hall⟩⟩

omit [RelayConnection σ] [Clock σ] in
/-- Only one frame closes the subscription. -/
theorem sent_close_ne (hj : C.json.RoundTrips) {frame : Json} (henc : frame.Encodable 127)
    (hne : frame ≠ closeFrame subId) (result : Result Unit) :
    Io.sent (C.json.toString (closeFrame subId)) (.ok ()) ≠
      .sent (C.json.toString frame) result := by
  intro heq
  have hsome := (hj _ henc).1
  rw [← (Io.sent.inj heq).1, (hj _ (encodable_closeFrame subId)).1] at hsome
  exact hne (Except.ok.inj hsome).symm

omit [Clock σ] in
theorem keeps_hasClosed (hj : C.json.RoundTrips) {frame : Json} (henc : frame.Encodable 127)
    (hne : frame ≠ closeFrame subId) : Eff.Keeps (HasClosed (σ := σ) C subId)
      (sendFrame C frame) := by
  intro client
  have hlog : (sendFrame C frame client).2.conn.conn.log = client.conn.conn.log ++
      [.sent (C.json.toString frame) (sendFrame C frame client).1] := rfl
  rw [HasClosed, hlog, List.mem_append, List.mem_singleton]
  exact propext (or_iff_left (sent_close_ne hj henc hne _))

omit [Clock σ] in
theorem hasClosed_recv (timeout : Duration) : Eff.Keeps (HasClosed (σ := σ) C subId)
    (onConn (RelayConnection.recv timeout)) := by
  rintro ⟨⟨conn, _ | ⟨item, items⟩⟩, url, signer, nextSub⟩ <;> rfl

/-- The loop of a query does not close its subscription. -/
theorem hasClosed_of_loopEnds (hj : C.json.RoundTrips) {r : Result (List Event)}
    {client client' : RelayClient (Feed (Recorded σ))}
    (h : Eff.LoopEnds (queryRound C subId filter idle) events client r client') :
    HasClosed C subId client' = HasClosed C subId client := by
  obtain ⟨n, hn⟩ := h
  have hkeeps := Eff.Keeps.loop (keeps_queryRound (f := HasClosed (σ := σ) C subId)
    hasClosed_recv (fun auth => keeps_hasClosed hj (encodable_authFrame auth) ?_)
    (keeps_hasClosed hj (encodable_reqFrame subId filter) ?_) idle) n events client
  · rwa [hn] at hkeeps
  · simp [authFrame, closeFrame]
  · simp [reqFrame, closeFrame]

/-- A query on a connection with items to receive, once its subscription is open. -/
theorem queryEnds_feed (items : List (Result (Option String))) (client : RelayClient σ)
    {client₁ : RelayClient σ} {r : Result (List Event)} {client' : RelayClient (Feed σ)}
    (h : sendReq C client.querySubId filter { client with nextSub := client.nextSub + 1 } =
      (.ok (), client₁)) :
    QueryEnds C filter idle (client.feed items) r client' ↔ ∃ client₂,
      Eff.LoopEnds (queryRound C client.querySubId filter idle) [] (client₁.feed items) r client₂ ∧
        client' = if r.isOk then (sendClose C client.querySubId client₂).2 else client₂ := by
  have hfeed : sendReq C (client.feed items).querySubId filter
      { client.feed items with nextSub := (client.feed items).nextSub + 1 } =
        (.ok (), client₁.feed items) :=
    (sendFrame_feed _ { client with nextSub := client.nextSub + 1 }).trans
      (congrArg (Prod.map id (feed items)) h)
  exact queryEnds_iff_of_sendReq hfeed

/-- Before and in its loop, a query does not close its subscription. -/
theorem not_hasClosed_of_loopEnds (hj : C.json.RoundTrips) {client : RelayClient σ}
    {client₁ : RelayClient (Recorded σ)} {r : Result (List Event)}
    {client' : RelayClient (Feed (Recorded σ))}
    (hreq : sendReq C subId filter { client.recorded with nextSub := client.nextSub + 1 } =
      (.ok (), client₁))
    (h : Eff.LoopEnds (queryRound C subId filter idle) events (client₁.feed items) r client') :
    ¬HasClosed C subId client' := by
  have hlog : (client₁.feed items).conn.conn.log =
      [] ++ [.sent (C.json.toString (reqFrame subId filter)) (.ok ())] := log_of_sendFrame hreq
  rw [hasClosed_of_loopEnds hj h, HasClosed, hlog, List.nil_append, List.mem_singleton]
  exact sent_close_ne hj (encodable_reqFrame subId filter) (by simp [reqFrame, closeFrame]) _

omit [RelayConnection σ] [Clock σ] in
/-- A subscription that the client has not closed is open if none of the items that have
    been read ends it. -/
theorem not_settled {read : List (Result (Option String))}
    {client' : RelayClient (Feed (Recorded σ))} (hread : items = read ++ client'.conn.items)
    (hall : ∀ item ∈ read, terminates C subId item = false) (h : ¬HasClosed C subId client') :
    ¬Settled C subId items client' := by
  rintro (hclosed | ⟨read', text, message, hread', hmem, hp⟩)
  · exact h hclosed
  · obtain rfl := List.append_cancel_right (hread.symm.trans hread')
    have hends := hall _ hmem
    rw [terminates, hp, RelayMessage.ends, beq_self_eq_true] at hends
    cases hends

/-- A query that has opened its subscription leaves it closed if and only if nothing
    fails before the items received end it. -/
theorem query_settled_iff (hj : C.json.RoundTrips) {client : RelayClient σ}
    {client₁ : RelayClient (Recorded σ)} {r : Result (List Event)}
    {client' : RelayClient (Feed (Recorded σ))}
    (hclose : ∀ s : σ,
      (RelayConnection.send (C.json.toString (closeFrame client.querySubId)) s).1 = .ok ())
    (hreq : sendReq C client.querySubId filter
      { client.recorded with nextSub := client.nextSub + 1 } = (.ok (), client₁))
    (h : QueryEnds C filter idle (client.recorded.feed items) r client') :
    Settled C client.querySubId items client' ↔
      EndsWell C client.querySubId filter items client₁ := by
  have hid : client.recorded.querySubId = client.querySubId := rfl
  obtain ⟨client₂, hloop, hclient'⟩ := (queryEnds_feed items client.recorded hreq).1 h
  rw [hid] at hloop hclient'
  obtain ⟨read, hread, ⟨hr, hwell⟩ | ⟨hr, hnot, hall⟩⟩ := queryLoop_left hloop
  · refine iff_of_true (.inl ?_) hwell
    have hlog : (sendClose C client.querySubId client₂).2.conn.conn.log =
        client₂.conn.conn.log ++ [.sent (C.json.toString (closeFrame client.querySubId))
          (RelayConnection.send (C.json.toString (closeFrame client.querySubId))
            client₂.conn.conn.conn).1] := rfl
    rw [hclient', if_pos hr, HasClosed, hlog, hclose]
    exact List.mem_append_right _ (List.mem_singleton_self _)
  · rw [hr, if_neg Bool.false_ne_true] at hclient'
    subst hclient'
    have hopen : ¬HasClosed C client.querySubId client' :=
      not_hasClosed_of_loopEnds hj hreq hloop
    exact iff_of_false (not_settled hread hall hopen) hnot

/-- A client of a connection that takes whatever is sent. -/
def bareClient : RelayClient Script :=
  .new { items := [] } "wss://relay.example" (Reference.signer Reference.one).toSigner

theorem querySubId_bareClient : bareClient.querySubId = "q1" := by
  have hcount : "q" ++ toString ((0 : UInt64) + 1) = "q1" := by decide
  exact hcount

/-- The client with its subscription opened. -/
def openedClient : RelayClient (Recorded Script) :=
  (sendReq Reference.crates bareClient.querySubId {}
    { bareClient.recorded with nextSub := bareClient.nextSub + 1 }).2

theorem sendReq_bareClient : sendReq Reference.crates bareClient.querySubId {}
    { bareClient.recorded with nextSub := bareClient.nextSub + 1 } = (.ok (), openedClient) := rfl

/-- A query that reads the end of its subscription. -/
theorem query_settled_iff_bareClient : ∃ text client',
    parseRelayMessage Reference.crates text = .eose "q1" ∧
    QueryEnds Reference.crates {} 5 (bareClient.recorded.feed [.ok (some text)]) (.ok []) client' ∧
    Settled Reference.crates bareClient.querySubId [.ok (some text)] client' := by
  obtain ⟨text, hp⟩ : ∃ text, parseRelayMessage Reference.crates text = .eose "q1" :=
    exists_text Reference.json_roundTrips (by simp)
  have hends : terminates Reference.crates bareClient.querySubId (.ok (some text)) = true := by
    rw [querySubId_bareClient, terminates, hp]
    rfl
  obtain ⟨client', h⟩ : ∃ client', QueryEnds Reference.crates {} 5
      (bareClient.recorded.feed [.ok (some text)]) (.ok []) client' := by
    rcases queryRound_feed (C := Reference.crates) bareClient.querySubId {} 5 []
      (.ok (some text)) [] openedClient with ⟨-, hround⟩ | ⟨hnot, -⟩
    · exact ⟨_, (queryEnds_feed _ bareClient.recorded sendReq_bareClient).2
        ⟨_, (Eff.loopEnds_iff hround).2 ⟨rfl, rfl⟩, rfl⟩⟩
    · cases hends.symm.trans hnot
  exact ⟨text, client', hp, h, (query_settled_iff Reference.json_roundTrips (fun _ => rfl)
    sendReq_bareClient h).2 (endsWell_of_terminates hends)⟩

/-- A query that fails to receive leaves its subscription open. -/
theorem failed_query_leaves_subscription :
    ¬∀ (σ : Type) [RelayConnection σ] [Clock σ] (filter : Filter) (idle : Duration)
      (items : List (Result (Option String))) (client : RelayClient σ) (r : Result (List Event))
      (client' : RelayClient (Feed (Recorded σ))),
      (∀ (text : String) (s : σ), (RelayConnection.send text s).1 = .ok ()) →
        QueryEnds Reference.crates filter idle (client.recorded.feed items) r client' →
          Settled Reference.crates client.querySubId items client' := by
  intro hclaim
  have hloop : Eff.LoopEnds (queryRound Reference.crates bareClient.querySubId {} 5) []
      (openedClient.feed [.error .utf8]) (.error .utf8) (openedClient.feed []) :=
    (Eff.loopEnds_iff (queryRound_of_error (recvMsg_feed_error _))).2 ⟨rfl, rfl⟩
  have h : QueryEnds Reference.crates {} 5 (bareClient.recorded.feed [.error .utf8])
      (.error .utf8) (openedClient.feed []) :=
    (queryEnds_feed _ bareClient.recorded sendReq_bareClient).2 ⟨_, hloop, rfl⟩
  have hopen : ¬HasClosed Reference.crates bareClient.querySubId (openedClient.feed []) :=
    not_hasClosed_of_loopEnds Reference.json_roundTrips sendReq_bareClient hloop
  have hread : ∀ item ∈ [(.error .utf8 : Result (Option String))],
      terminates Reference.crates bareClient.querySubId item = false := by
    simp [terminates]
  exact not_settled rfl hread hopen
    (hclaim Script {} 5 [.error .utf8] bareClient _ _ (fun _ _ => rfl) h)

end UnicityNostr.RelayClient
