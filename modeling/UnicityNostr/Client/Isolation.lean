import UnicityNostr.Client.Feed
import UnicityNostr.Client.Transcript
import UnicityNostr.Reference

/-!
# Queries among other subscriptions

The subscription of a query has an id of its own, counted up from query to query,
on a connection on which the caller may have opened subscriptions of any ids.

* `undisturbed_iff`: the queries of a run leave the open subscriptions alone if and
  only if none of them takes the id of one;
* `query_isolated`: the result of a query is what its own subscription brings,
  whatever else is received, and the ids of the queries of a client differ.
-/

namespace UnicityNostr

/-- The subscription that a frame opens, with its filter, or closes. -/
def changeOf : Json → Option (String × Option Json)
  | .arr [.str "REQ", .str subId, filter] => some (subId, some filter)
  | .arr [.str "CLOSE", .str subId] => some (subId, none)
  | _ => none

variable (C : Crates)

/-- The subscription that is opened or closed by what is sent. -/
def Io.change? : Io → Option (String × Option Json)
  | .sent text _ => (C.json.fromStr text).toOption.bind changeOf
  | .received _ => none

/-- The filters of the open subscriptions, after what passes over the connection. -/
def Io.applyTo (subs : String → Option Json) (io : Io) (subId : String) : Option Json :=
  match io, io.change? C with
  | .sent _ (.ok ()), some (subId', filter) => if subId' = subId then filter else subs subId
  | _, _ => subs subId

/-- The event that is received, with the subscription it is received on. -/
def eventOf : Result (Option String) → Option (String × Event)
  | .ok (some text) =>
    match parseRelayMessage C text with
    | .event subId e => some (subId, e)
    | _ => none
  | _ => none

namespace RelayClient

/-- The call leaves the subscriptions that were open when it was made alone: it opens
    and closes others only, so that these stay open with their filters, and the
    events it returns were received on others. -/
structure Exchange.Undisturbed (x : Exchange) (out : List Event) : Prop where
  names : ∀ io ∈ x.log, ∀ p, io.change? C = some p → p.1 ∉ x.openIds
  keeps : ∀ subs, ∀ subId ∈ x.openIds, x.log.foldl (Io.applyTo C) subs subId = subs subId
  returns : ∃ served : List (String × Event),
    served.Sublist ((receipts x.log).filterMap (eventOf C)) ∧
      out = served.map Prod.snd ∧ ∀ p ∈ served, p.1 ∉ x.openIds

variable {C}

/-! ## What a query sends -/

/-- Frames that do not name a subscription leave it as it is. -/
theorem foldl_applyTo {log : List Io} {subId : String}
    (h : ∀ io ∈ log, ∀ p, io.change? C = some p → p.1 ≠ subId) (subs : String → Option Json) :
    log.foldl (Io.applyTo C) subs subId = subs subId := by
  induction log generalizing subs with
  | nil => rfl
  | cons io log ih =>
    obtain ⟨hio, hlog⟩ := List.forall_mem_cons.1 h
    rw [List.foldl_cons, ih hlog]
    unfold Io.applyTo
    split
    · rename_i hchange
      exact if_neg (hio _ hchange)
    · rfl

theorem change?_sent (hj : C.json.RoundTrips) {frame : Json} (henc : frame.Encodable 127)
    (result : Result Unit) :
    Io.change? C (.sent (C.json.toString frame) result) = changeOf frame := by
  rw [Io.change?, (hj _ henc).1]
  rfl

theorem change?_req (hj : C.json.RoundTrips) (subId : String) (filter : Filter)
    (result : Result Unit) :
    Io.change? C (.sent (C.json.toString (reqFrame subId filter)) result) =
      some (subId, some filter.toValue) :=
  change?_sent hj (encodable_reqFrame subId filter) result

/-- A query opens and closes its own subscription only. -/
theorem OfQuery.change?_eq (hj : C.json.RoundTrips) {subId : String} {filter : Filter} {io : Io}
    {p : String × Option Json} (h : OfQuery C subId filter io) (hio : io.change? C = some p) :
    p.1 = subId := by
  cases h with
  | received item => cases hio
  | auth auth result =>
    rw [change?_sent hj (encodable_authFrame auth)] at hio
    simp [authFrame, changeOf] at hio
  | req result =>
    rw [change?_req hj] at hio
    exact Option.some.inj hio ▸ rfl
  | close result =>
    rw [change?_sent hj (encodable_closeFrame subId)] at hio
    exact Option.some.inj hio ▸ rfl

/-! ## What a query returns -/

/-- The verified events of a subscription. -/
theorem flatMap_brought (subId : String) (items : List (Result (Option String))) :
    items.flatMap (brought C subId) =
      ((items.filterMap (eventOf C)).filter fun p => p.1 = subId ∧ p.2.verify C).map Prod.snd := by
  induction items with
  | nil => rfl
  | cons item items ih =>
    rw [List.flatMap_cons, ih]
    rcases item with e | _ | text
    · rfl
    · rfl
    · rw [brought, List.filterMap_cons, eventOf]
      cases hp : parseRelayMessage C text with
      | event s e =>
        by_cases h : s = subId ∧ e.verify C = true
        · simp [RelayMessage.served, h]
        · simp [RelayMessage.served, h]
      | _ => rfl

/-- A query returns events that it has received on its own subscription. -/
theorem ReadToEnd.exists_served {subId : String} {items : List (Result (Option String))}
    {out : List Event} (h : ReadToEnd C subId items out) :
    ∃ served : List (String × Event), served.Sublist (items.filterMap (eventOf C)) ∧
      out = served.map Prod.snd ∧ ∀ p ∈ served, p.1 = subId := by
  obtain ⟨before, last, rfl, -, -, rfl⟩ := h
  refine ⟨_, ?_, flatMap_brought subId before, fun p hp => ?_⟩
  · exact List.filter_sublist.trans ((List.sublist_append_left before _).filterMap _)
  · exact (of_decide_eq_true (List.mem_filter.1 hp).2).1

/-! ## Open subscriptions -/

variable {σ : Type} [RelayConnection σ] [Clock σ]

theorem exchange_answered {v : Visit σ} {out : List Event}
    (h : (v.exchange C).reply = .events (.ok (some out))) :
    ∃ filter, Answered C v.client.querySubId filter (v.exchange C).log out := by
  obtain ⟨call, opened, client⟩ := v
  cases call with
  | query n filter idle =>
    rcases hquery : query C n filter idle client.recorded with ⟨result, client'⟩
    simp only [Visit.exchange, exchange, perform, hquery, Prod.map_fst, Prod.map_snd,
      Reply.events.injEq] at h ⊢
    obtain ⟨more, hlog, hmore⟩ := query_answered (h ▸ hquery)
    exact ⟨filter, hlog ▸ hmore⟩
  | _ => cases h

/-- A query that returns leaves the open subscriptions alone if and only if it has not
    taken the id of one. -/
theorem undisturbed_exchange_iff (hj : C.json.RoundTrips) {v : Visit σ} {out : List Event}
    (h : (v.exchange C).reply = .events (.ok (some out))) :
    (v.exchange C).Undisturbed C out ↔ v.client.querySubId ∉ v.openIds := by
  obtain ⟨filter, hopens, hof, hreads⟩ := exchange_answered h
  constructor
  · intro hx
    exact hx.names _ hopens _ (change?_req hj _ filter _)
  · intro hid
    have hnames : ∀ io ∈ (v.exchange C).log, ∀ p, io.change? C = some p → p.1 ∉ v.openIds :=
      fun io hio p hp => (hof io hio).change?_eq hj hp ▸ hid
    obtain ⟨served, hserved, heq, hids⟩ := hreads.exists_served
    refine ⟨hnames, fun subs subId hsub => ?_, served, hserved, heq, fun p hp => hids p hp ▸ hid⟩
    exact foldl_applyTo (fun io hio p hp heq => hnames io hio p hp (heq ▸ hsub)) subs

/-- The queries of a run leave the open subscriptions alone if and only if none of them
    takes the id of one. -/
theorem undisturbed_iff (hj : C.json.RoundTrips) (calls : List Call)
    (opened : List (String × Filter)) (client : RelayClient σ) :
    (∀ x ∈ run C calls opened client, ∀ out, x.reply = .events (.ok (some out)) →
        x.Undisturbed C out) ↔
      ∀ v ∈ visits C calls opened client, ∀ out,
        (v.exchange C).reply = .events (.ok (some out)) → v.client.querySubId ∉ v.openIds := by
  rw [run_eq_map_visits, List.forall_mem_map]
  exact forall₂_congr fun v _ => forall₂_congr fun out h => undisturbed_exchange_iff hj h

/-- A client of a connection on which nothing arrives. -/
def idleClient : RelayClient Script :=
  .new { items := [] } "wss://relay.example" (Reference.signer Reference.one).toSigner

/-- The states of a run that subscribes and queries on such a connection. -/
theorem visits_idleClient (subId : String) :
    visits Reference.crates [.subscribe subId {}, .query 1 {} 5] [] idleClient =
      [{ call := .subscribe subId {}, opened := [], client := idleClient },
        { call := .query 1 {} 5, opened := [(subId, {})], client := idleClient }] := rfl

theorem querySubId_idleClient : idleClient.querySubId = "q1" := by decide

theorem query_idleClient (opened : List (String × Filter)) :
    (exchange Reference.crates opened (.query 1 {} 5) idleClient).reply =
      .events (.ok (some [])) := rfl

/-- A query beside a subscription of another id. -/
theorem undisturbed_iff_idleClient : idleClient.querySubId ≠ "dm" ∧
    ∀ x ∈ run Reference.crates [.subscribe "dm" {}, .query 1 {} 5] [] idleClient,
      ∀ out, x.reply = .events (.ok (some out)) → x.Undisturbed Reference.crates out := by
  have hid : idleClient.querySubId ≠ "dm" := by simp [querySubId_idleClient]
  refine ⟨hid, (undisturbed_iff Reference.json_roundTrips _ _ _).2 fun v hv out h => ?_⟩
  rw [visits_idleClient] at hv
  rcases List.mem_cons.1 hv with rfl | hv
  · cases h
  · rw [List.mem_singleton.1 hv]
    exact mt List.mem_singleton.1 hid

/-- A query that closes the subscription of the caller, who has chosen the id the
    query takes. -/
theorem query_takes_id_of_subscription :
    ¬∀ (σ : Type) [RelayConnection σ] [Clock σ] (calls : List Call) (client : RelayClient σ),
      ∀ x ∈ run Reference.crates calls [] client, ∀ out,
        x.reply = .events (.ok (some out)) → x.Undisturbed Reference.crates out := by
  intro hclaim
  have hclaim := hclaim Script [.subscribe "q1" {}, .query 1 {} 5] idleClient
  rw [run_eq_map_visits, visits_idleClient] at hclaim
  have hx := hclaim _ (List.mem_cons_of_mem _ List.mem_cons_self) [] (query_idleClient [("q1", {})])
  have hid : "q1" ∉ ["q1"] := querySubId_idleClient ▸
    (undisturbed_exchange_iff (v := ⟨.query 1 {} 5, [("q1", {})], idleClient⟩)
      Reference.json_roundTrips (query_idleClient [("q1", {})])).1 hx
  exact hid (List.mem_singleton_self _)

/-! ## Ids of queries -/

section

variable (C)

omit [Clock σ] in
theorem nextSub_recv (timeout : Duration) : Eff.Keeps nextSub
    (onConn (RelayConnection.recv timeout) : Eff Error (RelayClient σ) _) := fun _ => rfl

omit [Clock σ] in
theorem nextSub_sendFrame (frame : Json) :
    Eff.Keeps nextSub (sendFrame C frame : Eff Error (RelayClient σ) _) := fun _ => rfl

theorem nextSub_recvMsg (timeout : Duration) :
    Eff.Keeps nextSub (recvMsg C timeout : Eff Error (RelayClient σ) _) :=
  keeps_recvMsg nextSub_recv (fun auth => nextSub_sendFrame C (authFrame auth)) timeout

theorem nextSub_publish (event : Event) (timeout : Duration) :
    Eff.Keeps nextSub (publish C event timeout : Eff Error (RelayClient σ) _) := by
  have hround := keeps_publishRound (nextSub_recv (σ := σ))
    (fun auth => nextSub_sendFrame C (authFrame auth)) (nextSub_sendFrame C (eventFrame event))
    timeout
  refine .bind (nextSub_sendFrame C _) fun _ => .bind (.loop hround 64 false) fun verdict => ?_
  rcases verdict with _ | verdict
  · exact .fail _
  · exact .pure _

theorem nextSub_pollEvent (timeout : Duration) :
    Eff.Keeps nextSub (pollEvent C timeout : Eff Error (RelayClient σ) _) := by
  refine (nextSub_recvMsg C timeout).bind fun m => ?_
  rcases m with _ | m
  · exact .pure _
  cases m with
  | event subId e =>
    by_cases h : e.verify C = true
    · simp only [h, if_true]
      exact .pure _
    · simp only [h]
      exact .pure _
  | _ => exact .pure _

end

/-- A query takes the next id, whatever it ends in. -/
theorem nextSub_query (n : Nat) (filter : Filter) (idle : Duration) (client : RelayClient σ) :
    (query C n filter idle client).2.nextSub = client.nextSub + 1 := by
  have hloop := Eff.Keeps.loop (keeps_queryRound (nextSub_recv (σ := σ))
    (fun auth => nextSub_sendFrame C (authFrame auth))
    (nextSub_sendFrame C (reqFrame client.querySubId filter)) idle) n []
  rw [query_eq]
  split
  · rename_i hreq
    exact (congrArg (·.2.nextSub) hreq).symm
  · rename_i client₁ hreq
    have h₁ : client₁.nextSub = client.nextSub + 1 := (congrArg (·.2.nextSub) hreq).symm
    have h₂ := (hloop client₁).trans h₁
    split <;> rename_i h
    · rwa [h] at h₂
    · rwa [h] at h₂
    · rw [h] at h₂
      exact h₂

/-- The id of the query, if the call is one. -/
def Visit.queryId? (v : Visit σ) : Option String :=
  match v.call with
  | .query _ _ _ => some v.client.querySubId
  | _ => none

/-- Only a query takes an id. -/
theorem nextSub_perform (call : Call) (opened : List (String × Filter)) (client : RelayClient σ) :
    (perform C call client.recorded).2.erase.nextSub =
      match (Visit.mk call opened client).queryId? with
      | some _ => client.nextSub + 1
      | none => client.nextSub := by
  cases call with
  | subscribe subId filter => rfl
  | unsubscribe subId => rfl
  | publish event timeout => exact nextSub_publish C event timeout client.recorded
  | query n filter idle => exact nextSub_query n filter idle client.recorded
  | poll timeout => exact nextSub_recvMsg C timeout client.recorded
  | pollEvent timeout => exact nextSub_pollEvent C timeout client.recorded

/-- The ids of the queries of a run count up. -/
theorem queryIds_eq (calls : List Call) (opened : List (String × Filter)) (client : RelayClient σ) :
    ∃ n, (visits C calls opened client).filterMap Visit.queryId? =
      (List.range n).map fun k => "q" ++ toString (client.nextSub + UInt64.ofNat (k + 1)) := by
  induction calls generalizing opened client with
  | nil => exact ⟨0, rfl⟩
  | cons call calls ih =>
    -- The ids of the calls after the first one, if it returns.
    obtain ⟨n, hn⟩ : ∃ n, (if (exchange C opened call client).reply.returned then
        visits C calls (openedAfter opened call (exchange C opened call client).reply)
          (perform C call client.recorded).2.erase else []).filterMap Visit.queryId? =
        (List.range n).map fun k => "q" ++ toString
          ((perform C call client.recorded).2.erase.nextSub + UInt64.ofNat (k + 1)) := by
      split
      · exact ih _ _
      · exact ⟨0, rfl⟩
    rw [nextSub_perform call opened client] at hn
    rw [visits, List.filterMap_cons]
    cases hid : (Visit.mk call opened client).queryId? with
    | none =>
      rw [hid] at hn
      exact ⟨n, hn⟩
    | some id =>
      rw [hid] at hn
      refine ⟨n + 1, ?_⟩
      simp only [hn, List.range_succ_eq_map, List.map_cons, List.map_map]
      congr 1
      · cases call with
        | query n filter idle => exact (Option.some.inj hid).symm
        | _ => cases hid
      · refine List.map_congr_left fun k _ => ?_
        rw [Function.comp_apply, UInt64.ofNat_add k.succ 1, UInt64.add_comm (UInt64.ofNat k.succ),
          ← UInt64.add_assoc]
        rfl

theorem toString_uint64_inj {a b : UInt64} (h : toString a = toString b) : a = b := by
  have hdigits : Nat.ofDigitChars 10 a.toNat.repr.toList 0 =
      Nat.ofDigitChars 10 b.toNat.repr.toList 0 :=
    congrArg (fun s : String => Nat.ofDigitChars 10 s.toList 0) h
  rw [Nat.toList_repr, Nat.toList_repr, Nat.ofDigitChars_ten_toDigits,
    Nat.ofDigitChars_ten_toDigits] at hdigits
  exact UInt64.toNat_inj.1 hdigits

/-- The ids of the queries of a run differ, as long as the counter does not come
    round. -/
theorem nodup_queryIds (calls : List Call) (opened : List (String × Filter))
    (client : RelayClient σ)
    (h : ((visits C calls opened client).filterMap Visit.queryId?).length < 2 ^ 64) :
    ((visits C calls opened client).filterMap Visit.queryId?).Nodup := by
  obtain ⟨n, hn⟩ := queryIds_eq (C := C) calls opened client
  rw [hn, List.length_map, List.length_range] at h
  rw [hn]
  refine List.nodup_range.map_on fun i hi j hj hij => ?_
  rw [List.mem_range] at hi hj
  have hsum := toString_uint64_inj ((String.append_right_inj _).1 hij)
  have hnat := congrArg UInt64.toNat ((UInt64.add_right_inj _).1 hsum)
  rw [UInt64.toNat_ofNat', UInt64.toNat_ofNat', Nat.mod_eq_of_lt (by omega),
    Nat.mod_eq_of_lt (by omega)] at hnat
  omega

/-! ## Other messages -/

/-- The item is a message that is not of the subscription `subId`, and no challenge. -/
def foreign (C : Crates) (subId : String) : Result (Option String) → Bool
  | .ok (some text) => !(parseRelayMessage C text).concernsSub subId
  | _ => false

variable {subId : String} {filter : Filter} {idle : Duration} {events : List Event}

/-- A message of another subscription is passed over. -/
theorem queryRound_foreign {client : RelayClient σ} {item : Result (Option String)}
    (h : foreign C subId item = true) (items : List (Result (Option String))) :
    queryRound C subId filter idle events (client.feed (item :: items)) =
      (.ok (.next events), client.feed items) := by
  rcases item with e | _ | text
  · cases h
  · cases h
  · have hconcerns : (parseRelayMessage C text).concernsSub subId = false := by
      simpa [foreign] using h
    obtain ⟨hauth, hsub⟩ := Bool.or_eq_false_iff.1 hconcerns
    have hends : (parseRelayMessage C text).ends subId = false :=
      Bool.eq_false_iff.2 fun hends =>
        Bool.false_ne_true (hsub.symm.trans (RelayMessage.onSub_of_ends hends))
    rw [queryRound_of_message (recvMsg_feed_of_not_auth hauth) hauth, hends,
      RelayMessage.served_eq_nil C hsub, List.append_nil]
    rfl

/-- What a round of a query does depends on the first item only. -/
theorem queryRound_feed_cons (C : Crates) (subId : String) (filter : Filter) (idle : Duration)
    (events : List Event) (item : Result (Option String)) (client : RelayClient σ) :
    ∃ (r : Result (Eff.Round (List Event) (List Event))) (client' : RelayClient σ), ∀ items,
      queryRound C subId filter idle events (client.feed (item :: items)) =
        (r, client'.feed items) := by
  obtain ⟨m, client₁, hrecv⟩ := recvMsg_feed_cons C idle item client
  rcases m with e | _ | m
  · exact ⟨_, _, fun items => queryRound_of_error (hrecv items)⟩
  · exact ⟨_, _, fun items => queryRound_of_none (hrecv items)⟩
  · cases hm : m.isAuth with
    | false => exact ⟨_, _, fun items => queryRound_of_message (hrecv items) hm⟩
    | true =>
      obtain ⟨challenge, rfl⟩ := RelayMessage.isAuth_eq_true_iff.1 hm
      exact ⟨(sendReq C subId filter client₁).1.map fun _ => .next events,
        (sendReq C subId filter client₁).2, fun items => queryRound_of_auth (hrecv items)⟩

/-- The loop of a query does not depend on messages of other subscriptions. -/
theorem queryLoop_filter (subId : String) (filter : Filter) (idle : Duration)
    (events : List Event) (items : List (Result (Option String))) (client : RelayClient σ)
    (r : Result (List Event)) :
    (∃ client', Eff.LoopEnds (queryRound C subId filter idle) events (client.feed items) r
        client') ↔
      ∃ client', Eff.LoopEnds (queryRound C subId filter idle) events
        (client.feed (items.filter fun item => !foreign C subId item)) r client' := by
  induction items generalizing client events with
  | nil => rfl
  | cons item items ih =>
    cases h : foreign C subId item with
    | true =>
      rw [List.filter_cons_of_neg (by simp [h]), ← ih]
      exact exists_congr fun client' => Eff.loopEnds_iff (queryRound_foreign h items)
    | false =>
      obtain ⟨round, client₁, hround⟩ :=
        queryRound_feed_cons C subId filter idle events item client
      rw [List.filter_cons_of_pos (by simp [h]),
        exists_congr fun client' => Eff.loopEnds_iff (hround items),
        exists_congr fun client' => Eff.loopEnds_iff (hround _)]
      rcases round with e | events' | out
      · simp
      · exact ih events' client₁
      · simp

/-- What a query ends in does not depend on messages of other subscriptions. -/
theorem queryEnds_filter (items : List (Result (Option String))) (client : RelayClient σ)
    (r : Result (List Event)) :
    (∃ client', QueryEnds C filter idle (client.feed items) r client') ↔
      ∃ client', QueryEnds C filter idle (client.feed
        (items.filter fun item => !foreign C client.querySubId item)) r client' := by
  rcases hreq : sendReq C client.querySubId filter { client with nextSub := client.nextSub + 1 }
    with ⟨e | _, client₁⟩
  all_goals
    have hfeed (items) : sendReq C (client.feed items).querySubId filter
        { client.feed items with nextSub := (client.feed items).nextSub + 1 } =
          (_, client₁.feed items) :=
      (sendFrame_feed _ { client with nextSub := client.nextSub + 1 }).trans
        (congrArg (Prod.map id (feed items)) hreq)
    simp only [queryEnds_iff, hfeed]
  · simp
  · have hends := queryLoop_filter (C := C) client.querySubId filter idle [] items client₁ r
    constructor
    · rintro ⟨_, client₂, hloop, -⟩
      obtain ⟨client₂, hloop⟩ := hends.1 ⟨client₂, hloop⟩
      exact ⟨_, client₂, hloop, rfl⟩
    · rintro ⟨_, client₂, hloop, -⟩
      obtain ⟨client₂, hloop⟩ := hends.2 ⟨client₂, hloop⟩
      exact ⟨_, client₂, hloop, rfl⟩

/-- The result of a query depends on its own subscription only: it reads up to the first
    item that ends it, and returns what the items before bring on it; other messages among
    them do not change what the query ends in; and all it sends is of its own subscription,
    which differs between the queries of a client. -/
theorem query_isolated (C : Crates) (client : RelayClient σ) (filter : Filter) (idle : Duration) :
    (∀ out client', QueryEnds C filter idle client.recorded (.ok out) client' →
      ReadToEnd C client.querySubId (receipts client'.conn.log) out) ∧
    (∀ items items' : List (Result (Option String)),
      (items.filter fun item => !foreign C client.querySubId item) =
        (items'.filter fun item => !foreign C client.querySubId item) →
      ∀ r, (∃ client', QueryEnds C filter idle (client.feed items) r client') ↔
        ∃ client', QueryEnds C filter idle (client.feed items') r client') ∧
    (∀ rounds, ∀ io ∈ (query C rounds filter idle client.recorded).2.conn.log,
      OfQuery C client.querySubId filter io) ∧
    ∀ calls opened, ((visits C calls opened client).filterMap Visit.queryId?).length < 2 ^ 64 →
      ((visits C calls opened client).filterMap Visit.queryId?).Nodup := by
  refine ⟨fun out client' hends => ?_, fun items items' h r => ?_, fun rounds => ?_,
    fun calls opened h => ?_⟩
  · obtain ⟨n, hquery⟩ := hends
    obtain ⟨more, hlog, hmore⟩ := query_answered hquery
    rw [hlog]
    exact hmore.reads
  · rw [queryEnds_filter items, queryEnds_filter items', h]
  · obtain ⟨more, hlog, hmore⟩ := query_ofQuery (C := C) rounds filter idle client.recorded
    rw [hlog]
    exact hmore
  · exact nodup_queryIds calls opened client h

/-- The end of an earlier query that arrives late does not end the query. -/
theorem query_isolated_late : ∃ (client : RelayClient Script) (text : String),
    client.querySubId = "q2" ∧ parseRelayMessage Reference.crates text = .eose "q1" ∧
    (∃ client', QueryEnds Reference.crates {} 5 client.recorded (.ok []) client' ∧
      ReadToEnd Reference.crates "q2" (receipts client'.conn.log) []) ∧
    (∃ client', QueryEnds Reference.crates {} 5 (client.feed [.ok (some text)]) (.ok [])
      client') ∧
    ((visits Reference.crates [.query 1 {} 5, .query 1 {} 5] [] client).filterMap
      Visit.queryId?).Nodup := by
  obtain ⟨text, hp⟩ : ∃ text, parseRelayMessage Reference.crates text = .eose "q1" :=
    exists_text Reference.json_roundTrips (by simp)
  obtain ⟨hresult, hothers, -, hids⟩ :=
    query_isolated Reference.crates { idleClient with nextSub := 1 } {} 5
  have hid : RelayClient.querySubId { idleClient with nextSub := 1 } = "q2" := by decide
  rw [hid] at hresult hothers
  refine ⟨_, text, hid, hp, ?_, ?_, hids _ _ ?_⟩
  · obtain ⟨client', hends⟩ : ∃ client', QueryEnds Reference.crates {} 5
        (RelayClient.recorded { idleClient with nextSub := 1 }) (.ok []) client' := ⟨_, 1, rfl⟩
    exact ⟨client', hends, hresult [] client' hends⟩
  · refine (hothers [.ok (some text)] [] ?_ (.ok [])).2 ⟨_, 1, rfl⟩
    have hforeign : foreign Reference.crates "q2" (.ok (some text)) = true := by
      rw [foreign, hp]
      decide
    simp [hforeign]
  · exact (List.length_filterMap_le _ _).trans_lt (by decide)

end RelayClient

end UnicityNostr
