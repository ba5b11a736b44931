import UnicityNostr.Client.Invariant

/-!
# The record of a query

* `query_ofQuery`: whatever a query ends in, it has sent nothing but frames of its own;
* `queryRound_read`: a round of a query reads one item and goes on with what it
  brings, or is done;
* `query_answered`: a query that returns has read up to the first item that ends its
  subscription, and returns what the items before it bring (`ReadToEnd`).
-/

namespace UnicityNostr

/-- What receiving has given, in order. -/
def receipts (log : List Io) : List (Result (Option String)) :=
  log.filterMap fun
    | .received item => some item
    | .sent _ _ => none

theorem receipts_append (log log' : List Io) :
    receipts (log ++ log') = receipts log ++ receipts log' := List.filterMap_append

namespace RelayClient

variable (C : Crates)

/-- The item ends a query on `subId`: it is the end of the subscription, or nothing
    was received within the idle time. -/
def terminates (subId : String) : Result (Option String) → Bool
  | .ok none => true
  | .ok (some text) => (parseRelayMessage C text).ends subId
  | .error _ => false

/-- The verified events the item brings on the subscription `subId`. -/
def brought (subId : String) : Result (Option String) → List Event
  | .ok (some text) => (parseRelayMessage C text).served C subId
  | _ => []

/-- The items have been read up to the first one that ends the subscription `subId`, and
    `out` are the verified events that those before it bring on it, in order. -/
def ReadToEnd (subId : String) (items : List (Result (Option String))) (out : List Event) : Prop :=
  ∃ before last, items = before ++ [last] ∧
    (∀ item ∈ before, terminates C subId item = false) ∧ terminates C subId last = true ∧
      out = before.flatMap (brought C subId)

/-- What a query leaves on the record. -/
inductive OfQuery (subId : String) (filter : Filter) : Io → Prop
  | received (item : Result (Option String)) : OfQuery subId filter (.received item)
  | auth (auth : Event) (result : Result Unit) :
    OfQuery subId filter (.sent (C.json.toString (authFrame auth)) result)
  | req (result : Result Unit) :
    OfQuery subId filter (.sent (C.json.toString (reqFrame subId filter)) result)
  | close (result : Result Unit) :
    OfQuery subId filter (.sent (C.json.toString (closeFrame subId)) result)

/-- The record of a query that returns `out`. -/
structure Answered (subId : String) (filter : Filter) (log : List Io) (out : List Event) :
    Prop where
  opens : .sent (C.json.toString (reqFrame subId filter)) (.ok ()) ∈ log
  ofQuery : ∀ io ∈ log, OfQuery C subId filter io
  reads : ReadToEnd C subId (receipts log) out

variable {C} {subId : String} {filter : Filter} {idle : Duration} {events : List Event}

/-! ## Records -/

variable {σ : Type} [RelayConnection σ] [Clock σ] {client client' : RelayClient (Recorded σ)}

/-- What is on the record of `client'` beyond that of `client` is of the query. -/
def AddsOfQuery (C : Crates) (subId : String) (filter : Filter)
    (client client' : RelayClient (Recorded σ)) : Prop :=
  ∃ more, client'.conn.log = client.conn.log ++ more ∧ ∀ io ∈ more, OfQuery C subId filter io

omit [RelayConnection σ] [Clock σ] in
theorem AddsOfQuery.refl (client : RelayClient (Recorded σ)) :
    AddsOfQuery C subId filter client client :=
  ⟨[], (List.append_nil _).symm, List.forall_mem_nil _⟩

omit [RelayConnection σ] [Clock σ] in
theorem AddsOfQuery.trans (client client₁ client₂ : RelayClient (Recorded σ))
    (h : AddsOfQuery C subId filter client client₁)
    (h' : AddsOfQuery C subId filter client₁ client₂) :
    AddsOfQuery C subId filter client client₂ := by
  obtain ⟨more, hlog, hmore⟩ := h
  obtain ⟨more', hlog', hmore'⟩ := h'
  refine ⟨more ++ more', by rw [hlog', hlog, List.append_assoc], fun io hio => ?_⟩
  exact (List.mem_append.1 hio).elim (hmore io) (hmore' io)

omit [RelayConnection σ] [Clock σ] in
theorem AddsOfQuery.of_one {io : Io} (h : OfQuery C subId filter io)
    (hlog : client'.conn.log = client.conn.log ++ [io]) :
    AddsOfQuery C subId filter client client' :=
  ⟨[io], hlog, List.forall_mem_singleton.2 h⟩

/-- Whatever a query ends in, it has sent nothing but frames of its own. -/
theorem query_ofQuery (n : Nat) (filter : Filter) (idle : Duration)
    (client : RelayClient (Recorded σ)) :
    AddsOfQuery C client.querySubId filter client (query C n filter idle client).2 := by
  have hrecv : ∀ timeout, Eff.Moves (AddsOfQuery C client.querySubId filter)
      (recvMsg C timeout : Eff Error (RelayClient (Recorded σ)) (Option RelayMessage)) :=
    moves_recvMsg .refl .trans (fun _ _ => .of_one (.received _) rfl)
      fun auth _ => .of_one (.auth auth _) (log_of_sendFrame rfl)
  exact moves_query .refl .trans hrecv (fun c => .refl c)
    (fun _ => .of_one (.req _) (log_of_sendFrame rfl))
    fun _ => .of_one (.close _) (log_of_sendFrame rfl)

/-- A round of a query that does not fail ends it when nothing is received, or goes by
    the message; after a challenge it has sent the subscription again. -/
theorem queryRound_received {r : Eff.Round (List Event) (List Event)}
    (h : queryRound C subId filter idle events client = (.ok r, client')) :
    (client'.conn.log = client.conn.log ++ [.received (.ok none)] ∧ r = .done events) ∨
    (∃ text, (parseRelayMessage C text).isAuth = false ∧
      client'.conn.log = client.conn.log ++ [.received (.ok (some text))] ∧
      r = if (parseRelayMessage C text).ends subId then .done events
        else .next (events ++ (parseRelayMessage C text).served C subId)) ∨
    ∃ text challenge auth, parseRelayMessage C text = .auth challenge ∧
      client'.conn.log = client.conn.log ++ [.received (.ok (some text)),
        .sent (C.json.toString (authFrame auth)) (.ok ()),
        .sent (C.json.toString (reqFrame subId filter)) (.ok ())] ∧
      r = .next events := by
  rcases hrecv : recvMsg C idle client with ⟨e | m, client₁⟩
  · rw [queryRound_of_error hrecv] at h
    cases (Prod.mk.inj h).1
  obtain ⟨more, hlog, hreceived⟩ := recvMsg_received hrecv
  rcases hreceived with _ | ⟨text, hm⟩ | ⟨text, challenge, auth, hp⟩
  · rw [queryRound_of_none hrecv] at h
    obtain ⟨hr, rfl⟩ := Prod.mk.inj h
    exact .inl ⟨hlog, (Except.ok.inj hr).symm⟩
  · rw [queryRound_of_message hrecv hm] at h
    obtain ⟨hr, rfl⟩ := Prod.mk.inj h
    exact .inr (.inl ⟨text, hm, hlog, (Except.ok.inj hr).symm⟩)
  · rw [queryRound_of_auth hrecv] at h
    rcases hsend : sendReq C subId filter client₁ with ⟨e | _, client₂⟩
    · rw [hsend] at h
      cases (Prod.mk.inj h).1
    · rw [hsend] at h
      obtain ⟨hr, rfl⟩ := Prod.mk.inj h
      have hlog₂ := log_of_sendFrame hsend
      rw [hlog, List.append_assoc] at hlog₂
      exact .inr (.inr ⟨text, challenge, auth, hp, hlog₂, (Except.ok.inj hr).symm⟩)

/-- A round of a query that does not fail reads an item. If it does not end the
    subscription, what it brings is collected. -/
theorem queryRound_read {r : Eff.Round (List Event) (List Event)}
    (h : queryRound C subId filter idle events client = (.ok r, client')) :
    ∃ item more, client'.conn.log = client.conn.log ++ more ∧ receipts more = [item] ∧
      r = if terminates C subId item then .done events
        else .next (events ++ brought C subId item) := by
  rcases queryRound_received h with ⟨hlog, rfl⟩ | ⟨text, -, hlog, rfl⟩ |
    ⟨text, challenge, auth, hp, hlog, rfl⟩
  · exact ⟨.ok none, _, hlog, rfl, rfl⟩
  · exact ⟨.ok (some text), _, hlog, rfl, rfl⟩
  · refine ⟨.ok (some text), _, hlog, rfl, ?_⟩
    have hends : terminates C subId (.ok (some text)) = false := by
      rw [terminates, hp]
      rfl
    have hnone : brought C subId (.ok (some text)) = [] := by
      rw [brought, hp]
      rfl
    rw [hends, hnone, List.append_nil]
    rfl

/-- What is on the record of a query when its loop is done: it has read all items
    but the last one without any of them ending the subscription. -/
theorem queryLoop_read {n : Nat} {out : List Event}
    (h : Eff.loop (queryRound C subId filter idle) n [] client = (.ok (some out), client')) :
    ∃ more, client'.conn.log = client.conn.log ++ more ∧
      ReadToEnd C subId (receipts more) out := by
  refine Eff.loop_of_invariant
    (fun events c => ∃ more, c.conn.log = client.conn.log ++ more ∧
      (∀ item ∈ receipts more, terminates C subId item = false) ∧
        events = (receipts more).flatMap (brought C subId))
    (fun out c => ∃ more, c.conn.log = client.conn.log ++ more ∧
      ReadToEnd C subId (receipts more) out)
    ?_ ?_ ⟨[], (List.append_nil _).symm, List.forall_mem_nil _, rfl⟩ h
  · rintro events c events' c' ⟨more, hlog, hitems, rfl⟩ hround
    obtain ⟨item, more', hlog', hitem, hr⟩ := queryRound_read hround
    split at hr
    · cases hr
    · rename_i hends
      refine ⟨more ++ more', by rw [hlog', hlog, List.append_assoc], ?_, ?_⟩
      · rw [receipts_append, hitem]
        intro item' h
        rcases List.mem_append.1 h with h | h
        · exact hitems item' h
        · exact List.mem_singleton.1 h ▸ Bool.eq_false_iff.2 hends
      · rw [receipts_append, hitem, List.flatMap_append, List.flatMap_singleton,
          Eff.Round.next.inj hr]
  · rintro events c out c' ⟨more, hlog, hitems, rfl⟩ hround
    obtain ⟨item, more', hlog', hitem, hr⟩ := queryRound_read hround
    split at hr
    · rename_i hends
      refine ⟨more ++ more', by rw [hlog', hlog, List.append_assoc], ?_⟩
      rw [receipts_append, hitem]
      exact ⟨receipts more, item, rfl, hitems, hends, Eff.Round.done.inj hr⟩
    · cases hr

/-- The record of a query that returns. -/
theorem query_answered {n : Nat} {out : List Event}
    (h : query C n filter idle client = (.ok (some out), client')) :
    ∃ more, client'.conn.log = client.conn.log ++ more ∧
      Answered C client.querySubId filter more out := by
  obtain ⟨more, hlog, hof⟩ := query_ofQuery (C := C) n filter idle client
  rw [h] at hlog
  obtain ⟨client₁, client₂, hreq, hloop, rfl⟩ := query_eq_some h
  obtain ⟨read, hread, hreads⟩ := queryLoop_read hloop
  obtain ⟨result, hclose⟩ : ∃ result, (sendClose C client.querySubId client₂).2.conn.log =
      client₂.conn.log ++ [.sent (C.json.toString (closeFrame client.querySubId)) result] :=
    ⟨_, log_of_sendFrame rfl⟩
  -- The request, what the loop leaves, and the end of the subscription.
  have hmore : more = .sent (C.json.toString (reqFrame client.querySubId filter)) (.ok ()) ::
      (read ++ [.sent (C.json.toString (closeFrame client.querySubId)) result]) := by
    rw [hclose, hread, log_of_sendFrame hreq] at hlog
    refine ((List.append_right_inj client.conn.log).1 ?_).symm
    simpa using hlog
  have hreceipts : receipts more = receipts read := by
    rw [hmore]
    exact (receipts_append read _).trans (List.append_nil _)
  exact ⟨more, hlog, hmore ▸ List.mem_cons_self, hof, hreceipts ▸ hreads⟩

/-- A query returns verified events. -/
theorem query_verified {client : RelayClient σ} {out : List Event} {client' : RelayClient σ}
    (h : QueryEnds C filter idle client (.ok out) client') : ∀ e ∈ out, e.verify C = true := by
  obtain ⟨n, hquery⟩ := h
  -- The same query with a record.
  have hrecord : query C n filter idle client = _ := tracks_query C n filter idle client.recorded
  rw [hquery] at hrecord
  obtain ⟨more, -, hmore⟩ := query_answered (Prod.ext (Prod.mk.inj hrecord).1.symm rfl)
  obtain ⟨before, last, -, -, -, rfl⟩ := hmore.reads
  intro e he
  obtain ⟨item, -, he⟩ := List.mem_flatMap.1 he
  rcases item with _ | _ | text
  · cases he
  · cases he
  · rw [brought] at he
    cases hp : parseRelayMessage C text with
    | event s event =>
      rw [hp, RelayMessage.served] at he
      split at he
      · rename_i hs
        exact List.mem_singleton.1 he ▸ hs.2
      · cases he
    | _ =>
      rw [hp] at he
      cases he

end RelayClient

end UnicityNostr
