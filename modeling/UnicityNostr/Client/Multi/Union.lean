import Std.Data.TreeSet.Lemmas
import UnicityNostr.Client.Multi
import UnicityNostr.Client.Transcript
import UnicityNostr.Lib.Firsts
import UnicityNostr.Reference

/-!
# The union of the results of several relays

* `Merges`: what the merged events are of those merged so far, which adding an
  event preserves (`Merges.add`);
* `query_union`: a query of several relays returns the first event of each id among
  the results of the relays that do not fail.
-/

namespace UnicityNostr.MultiRelayClient

variable {C : Crates} {σ : Type} [RelayConnection σ] [Clock σ] {filter : Filter} {idle : Duration}

/-! ## Merging -/

/-- The events merged are the first ones of each id among `events`, and the ids seen
    are those of `events`. -/
structure Merges (merged : Merged) (events : List Event) : Prop where
  out_eq : merged.out = firsts Event.id events
  mem_seen : ∀ id, id ∈ merged.seen ↔ id ∈ events.map Event.id

namespace Merges

variable {merged : Merged} {events more : List Event}

theorem nil : Merges { seen := ∅, out := [] } [] where
  out_eq := rfl
  mem_seen id := by simp

theorem add (h : Merges merged events) (ev : Event) : Merges (merged.add ev) (events ++ [ev]) where
  out_eq := by
    rw [firsts_concat, ← h.out_eq, Merged.add]
    simp only [Std.TreeSet.containsThenInsert_fst, Std.TreeSet.contains_iff_mem, h.mem_seen]
  mem_seen id := by
    rw [Merged.add]
    simp only [Std.TreeSet.containsThenInsert_snd, Std.TreeSet.mem_insert, h.mem_seen,
      Std.LawfulEqCmp.compare_eq_iff_eq, List.map_append, List.mem_append, List.map_cons,
      List.map_nil, List.mem_singleton]
    rw [or_comm, eq_comm]

theorem foldl (h : Merges merged events) (more : List Event) :
    Merges (more.foldl Merged.add merged) (events ++ more) := by
  induction more generalizing merged events with
  | nil => rwa [List.append_nil]
  | cons ev more ih => exact List.append_cons events ev more ▸ ih (h.add ev)

end Merges

/-- What a relay contributes: nothing, if it fails. -/
def contribution (result : Result (List Event)) : List Event := result.toOption.getD []

variable {clients : List (RelayClient σ)} {outcome : RelayClient σ → Result (List Event)}

/-- The results of the relays are merged one after the other. -/
theorem merges_queryAll {n : Nat}
    (h : ∀ client ∈ clients, ∃ client',
      RelayClient.query C n filter idle client = ((outcome client).map some, client'))
    {merged : Merged} {events : List Event} (hm : Merges merged events) :
    ∃ merged' clients', queryAll C n filter idle clients merged = (some merged', clients') ∧
      Merges merged' (events ++ clients.flatMap fun client => contribution (outcome client)) := by
  induction clients generalizing merged events with
  | nil => exact ⟨merged, [], rfl, by rwa [List.flatMap_nil, List.append_nil]⟩
  | cons client clients ih =>
    obtain ⟨⟨client', hclient⟩, hclients⟩ := List.forall_mem_cons.1 h
    rw [List.flatMap_cons, ← List.append_assoc]
    cases hresult : outcome client with
    | ok more =>
      rw [hresult] at hclient
      obtain ⟨merged', clients', hall, hm'⟩ := ih hclients (hm.foldl more)
      refine ⟨merged', client' :: clients', ?_, hm'⟩
      simp only [queryAll, hclient, Except.map, hall, Prod.map_apply, id_eq]
    | error e =>
      rw [hresult] at hclient
      obtain ⟨merged', clients', hall, hm'⟩ := ih hclients hm
      refine ⟨merged', client' :: clients', ?_, ?_⟩
      · simp only [queryAll, hclient, Except.map, hall, Prod.map_apply, id_eq]
      · rwa [contribution, Except.toOption, Option.getD_none, List.append_nil]

/-- A query of several relays that has ended does so with more rounds. -/
theorem queryAll_eq_of_le {n m : Nat} (hm : n ≤ m) {merged merged' : Merged}
    {clients' : List (RelayClient σ)}
    (h : queryAll C n filter idle clients merged = (some merged', clients')) :
    queryAll C m filter idle clients merged = (some merged', clients') := by
  induction clients generalizing merged clients' with
  | nil => exact h
  | cons client clients ih =>
    rw [queryAll] at h ⊢
    rcases hquery : RelayClient.query C n filter idle client with ⟨e | _ | events, client'⟩
    all_goals simp only [hquery] at h
    · rcases hall : queryAll C n filter idle clients merged with ⟨all, clients''⟩
      rw [hall] at h
      obtain ⟨hsome, rfl⟩ := Prod.mk.inj h
      obtain rfl : all = some merged' := hsome
      simp only [RelayClient.query_eq_of_le (r := .error e) hm hquery, Except.map, ih hall]
      rfl
    · cases (Prod.mk.inj h).1
    · rcases hall : queryAll C n filter idle clients (events.foldl Merged.add merged)
        with ⟨all, clients''⟩
      rw [hall] at h
      obtain ⟨hsome, rfl⟩ := Prod.mk.inj h
      obtain rfl : all = some merged' := hsome
      simp only [RelayClient.query_eq_of_le (r := .ok events) hm hquery, Except.map, ih hall]
      rfl

/-- A number of rounds for all queries. -/
theorem exists_rounds
    (h : ∀ client ∈ clients, ∃ client',
      RelayClient.QueryEnds C filter idle client (outcome client) client') :
    ∃ n, ∀ client ∈ clients, ∃ client',
      RelayClient.query C n filter idle client = ((outcome client).map some, client') := by
  induction clients with
  | nil => exact ⟨0, List.forall_mem_nil _⟩
  | cons client clients ih =>
    obtain ⟨⟨client', n, hn⟩, hclients⟩ := List.forall_mem_cons.1 h
    obtain ⟨m, hm⟩ := ih hclients
    refine ⟨max n m, List.forall_mem_cons.2
      ⟨⟨client', RelayClient.query_eq_of_le (Nat.le_max_left n m) hn⟩, fun c hc => ?_⟩⟩
    obtain ⟨c', hc'⟩ := hm c hc
    exact ⟨c', RelayClient.query_eq_of_le (Nat.le_max_right n m) hc'⟩

/-! ## Queries -/

/-- The query of several relays ends in `out`, within some number of rounds. -/
def QueryEnds (C : Crates) (filter : Filter) (idle : Duration) (multi : MultiRelayClient σ)
    (out : List Event) : Prop :=
  ∃ n multi', query C n filter idle multi = (some out, multi')

/-- What the relays contribute, one after the other. -/
def contributions (outcome : RelayClient σ → Result (List Event))
    (clients : List (RelayClient σ)) : List Event :=
  clients.flatMap fun client => contribution (outcome client)

omit [RelayConnection σ] [Clock σ] in
/-- An id is contributed by a relay that does not fail. -/
theorem mem_map_contributions {id : String} :
    id ∈ (contributions outcome clients).map Event.id ↔ ∃ client ∈ clients, ∃ events,
      outcome client = .ok events ∧ id ∈ events.map Event.id := by
  rw [contributions, List.map_flatMap, List.mem_flatMap]
  refine exists_congr fun client => and_congr_right fun _ => ?_
  cases outcome client with
  | ok events => simp [contribution, Except.toOption]
  | error e => simp [contribution, Except.toOption]

omit [RelayConnection σ] [Clock σ] in
/-- The relays that fail contribute nothing. -/
theorem contributions_filter :
    contributions outcome (clients.filter fun client => (outcome client).isOk) =
      contributions outcome clients := by
  induction clients with
  | nil => rfl
  | cons client clients ih =>
    cases h : outcome client with
    | ok events =>
      rw [List.filter_cons_of_pos (by rw [h]; rfl), contributions, List.flatMap_cons,
        ← contributions, ih]
      rfl
    | error e =>
      have hnone : contribution (outcome client) = [] := by rw [h]; rfl
      rw [List.filter_cons_of_neg (by rw [h]; exact Bool.false_ne_true), ih, contributions,
        contributions, List.flatMap_cons, hnone, List.nil_append]

/-- A query of several relays ends in the first event of each id among what they
    contribute. -/
theorem queryEnds_iff
    (h : ∀ client ∈ clients, ∃ client',
      RelayClient.QueryEnds C filter idle client (outcome client) client') (out : List Event) :
    QueryEnds C filter idle { clients } out ↔
      out = firsts Event.id (contributions outcome clients) := by
  obtain ⟨n, hn⟩ := exists_rounds h
  obtain ⟨merged, clients', hall, hmerged⟩ := merges_queryAll hn .nil
  have hout : merged.out = firsts Event.id (contributions outcome clients) := hmerged.out_eq
  have hquery : query C n filter idle { clients } = (some merged.out, { clients := clients' }) := by
    rw [query, hall]
    rfl
  constructor
  · rintro ⟨m, multi', hm⟩
    rcases hall' : queryAll C m filter idle clients { seen := ∅, out := [] }
      with ⟨_ | merged', clients''⟩
    all_goals rw [query, hall'] at hm
    · cases (Prod.mk.inj hm).1
    · have heq := (queryAll_eq_of_le (Nat.le_max_left n m) hall).symm.trans
        (queryAll_eq_of_le (Nat.le_max_right n m) hall')
      obtain rfl := Option.some.inj (Prod.mk.inj heq).1
      exact (Option.some.inj (Prod.mk.inj hm).1).symm.trans hout
  · rintro rfl
    exact ⟨n, _, hout ▸ hquery⟩

/-- A query of several relays returns the union of the results of those that do not
    fail: the first event of each id, in the order of the relays. The ids do not depend
    on the order, and the relays that fail are of no account. -/
theorem query_union
    (h : ∀ client ∈ clients, ∃ client',
      RelayClient.QueryEnds C filter idle client (outcome client) client') :
    ∃ out, (∀ out', QueryEnds C filter idle { clients } out' ↔ out' = out) ∧
      (out.map Event.id).Nodup ∧
      (∀ id, id ∈ out.map Event.id ↔ ∃ client ∈ clients, ∃ events,
        outcome client = .ok events ∧ id ∈ events.map Event.id) ∧
      out.Sublist (contributions outcome clients) ∧
      (∀ e ∈ out, ∃ before after, contributions outcome clients = before ++ e :: after ∧
        e.id ∉ before.map Event.id) ∧
      (∀ e ∈ out, e.verify C = true) ∧
      (∀ clients' : List (RelayClient σ), clients'.Perm clients →
        ∃ out', QueryEnds C filter idle { clients := clients' } out' ∧
          ∀ id, id ∈ out'.map Event.id ↔ id ∈ out.map Event.id) ∧
      QueryEnds C filter idle
        { clients := clients.filter fun client => (outcome client).isOk } out := by
  refine ⟨firsts Event.id (contributions outcome clients), queryEnds_iff h,
    nodup_map_firsts _ _, fun id => ?_, firsts_sublist _, fun e he => mem_firsts_iff.1 he,
    fun e he => ?_, fun clients' hperm => ?_, ?_⟩
  · rw [mem_map_firsts, mem_map_contributions]
  · obtain ⟨client, hclient, he⟩ := List.mem_flatMap.1 ((firsts_sublist _).subset he)
    obtain ⟨client', hends⟩ := h client hclient
    cases hresult : outcome client with
    | error e' =>
      rw [hresult] at he
      cases he
    | ok events =>
      rw [hresult] at he hends
      exact RelayClient.query_verified hends e he
  · refine ⟨_, (queryEnds_iff (fun client hc => h client (hperm.subset hc)) _).2 rfl, fun id => ?_⟩
    rw [mem_map_firsts, mem_map_firsts]
    exact ((hperm.flatMap_right _).map _).mem_iff
  · rw [queryEnds_iff fun client hc => h client (List.mem_filter.1 hc).1, contributions_filter]

/-- A client of a connection on which the items arrive. -/
def scriptClient (items : List (Result (Option String))) : RelayClient Script :=
  .new { items } "wss://relay.example" (Reference.signer Reference.one).toSigner

/-- A query on a connection on which an event arrives. -/
theorem queryEnds_scriptClient {event : Event} {text : String}
    (hp : parseRelayMessage Reference.crates text = .event "q1" event)
    (hverify : event.verify Reference.crates = true) :
    ∃ client', RelayClient.QueryEnds Reference.crates {} 5 (scriptClient [.ok (some text)])
      (.ok [event]) client' := by
  obtain ⟨client₁, hreq, hrecv⟩ : ∃ client₁ : RelayClient Script,
      RelayClient.sendReq Reference.crates (scriptClient [.ok (some text)]).querySubId {}
        { scriptClient [.ok (some text)] with
          nextSub := (scriptClient [.ok (some text)]).nextSub + 1 } = (.ok (), client₁) ∧
      RelayClient.onConn (RelayConnection.recv 5) client₁ =
        (.ok (some text), { client₁ with conn.items := [] }) := ⟨_, rfl, rfl⟩
  have hcount : "q" ++ toString ((0 : UInt64) + 1) = "q1" := by decide
  have hid : (scriptClient [.ok (some text)]).querySubId = "q1" := hcount
  have hauth : (parseRelayMessage Reference.crates text).isAuth = false := by rw [hp]; rfl
  have hround : RelayClient.queryRound Reference.crates "q1" {} 5 [] client₁ =
      (.ok (.next [event]), { client₁ with conn.items := [] }) := by
    rw [RelayClient.queryRound_of_message (RelayClient.recvMsg_of_recv hrecv hauth) hauth, hp]
    simp [RelayMessage.ends, RelayMessage.served, hverify]
  have hloop : Eff.loop (RelayClient.queryRound Reference.crates
      (scriptClient [.ok (some text)]).querySubId {} 5) 2 [] client₁ =
        (.ok (some [event]), { client₁ with conn.items := [] }) := by
    rw [hid, Eff.loop_next hround]
    rfl
  have hquery : RelayClient.query Reference.crates 2 {} 5 (scriptClient [.ok (some text)]) =
      (.ok (some [event]), (RelayClient.sendClose Reference.crates
        (scriptClient [.ok (some text)]).querySubId { client₁ with conn.items := [] }).2) := by
    rw [RelayClient.query_eq]
    simp only [hreq, hloop]
  exact ⟨_, 2, hquery⟩

/-- What the clients of such connections end in. -/
def scriptOutcome (event : Event) (client : RelayClient Script) : Result (List Event) :=
  match client.conn.items with
  | .error e :: _ => .error e
  | _ => .ok [event]

/-- A query of three relays, of which two serve the same event and one fails. -/
theorem query_union_scriptClient : ∃ (event : Event) (text : String) (out : List Event),
    QueryEnds Reference.crates {} 5 { clients := [scriptClient [.ok (some text)],
      scriptClient [.error .utf8], scriptClient [.ok (some text)]] } out ∧
    (out.map Event.id).Nodup ∧ event.id ∈ out.map Event.id := by
  obtain ⟨event, hverify⟩ := Reference.exists_verified
  obtain ⟨text, hp⟩ : ∃ text, parseRelayMessage Reference.crates text = .event "q1" event :=
    exists_text Reference.json_roundTrips (by simp)
  have hends : ∀ client ∈ [scriptClient [.ok (some text)], scriptClient [.error .utf8],
      scriptClient [.ok (some text)]], ∃ client',
        RelayClient.QueryEnds Reference.crates {} 5 client (scriptOutcome event client)
          client' := by
    simp only [List.mem_cons, List.not_mem_nil, or_false]
    rintro client (rfl | rfl | rfl)
    · exact queryEnds_scriptClient hp hverify
    · exact ⟨_, 1, rfl⟩
    · exact queryEnds_scriptClient hp hverify
  obtain ⟨out, hout, hnodup, hids, -⟩ := query_union hends
  refine ⟨event, text, out, (hout out).2 rfl, hnodup, (hids _).2 ?_⟩
  exact ⟨_, List.mem_cons_self, [event], rfl, List.mem_singleton_self _⟩

end UnicityNostr.MultiRelayClient
