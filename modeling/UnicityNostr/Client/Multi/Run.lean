import UnicityNostr.Client.Invariant
import UnicityNostr.Client.Multi.Union

/-!
# Runs over several relays

A client of several relays is no more than the clients of the relays, each on its
own: in a run, every relay has its share of the calls (`Shares`), which depends only on
what the relays before it answer, and the replies are made up of those of the
relays.

* `perform_iff`: a call is the calls of its shares;
* `runs_iff`: a run is a run of each of the relays.
-/

namespace UnicityNostr

/-- A call of a client of several relays; `relay k call` is a call of the client of
    the relay `k`. -/
inductive MultiCall
  | broadcast (event : Event) (timeout : Duration)
  | query (rounds : Nat) (filter : Filter) (idle : Duration)
  | subscribe (subId : String) (filter : Filter)
  | relay (k : Nat) (call : RelayClient.Call)

/-- What a call returns. -/
inductive MultiReply
  | outcomes (outcomes : List PublishOutcome)
  | events (events : Option (List Event))
  | done (result : Result Unit)
  | relay (reply : Option RelayClient.Reply)

/-- Whether the call has returned; a query may be out of its rounds. -/
def MultiReply.returned : MultiReply → Bool
  | .events none => false
  | .relay (some reply) => reply.returned
  | _ => true

/-- The calls of a client of one relay, each with its reply. -/
abbrev Trace := List (RelayClient.Call × RelayClient.Reply)

namespace RelayClient

variable (C : Crates) {σ : Type} [RelayConnection σ] [Clock σ]

/-- The client makes the calls of the trace one after the other, each when the one
    before it has returned. -/
inductive Makes : RelayClient σ → Trace → RelayClient σ → Prop
  | nil (client : RelayClient σ) : Makes client [] client
  | cons {client client₁ client' : RelayClient σ} {call : Call} {reply : Reply} {trace : Trace}
    (h : perform C call client = (reply, client₁)) (hr : reply.returned = true)
    (htrace : Makes client₁ trace client') : Makes client ((call, reply) :: trace) client'

variable {C} {client client' : RelayClient σ}

theorem makes_nil_iff : Makes C client [] client' ↔ client' = client := by
  constructor
  · rintro ⟨⟩
    rfl
  · rintro rfl
    exact .nil _

theorem makes_one_iff {call : Call} {reply : Reply} :
    Makes C client [(call, reply)] client' ↔
      perform C call client = (reply, client') ∧ reply.returned = true := by
  constructor
  · rintro (_ | ⟨h, hr, ⟨⟩⟩)
    exact ⟨h, hr⟩
  · exact fun h => .cons h.1 h.2 (.nil _)

theorem makes_append_iff {trace trace' : Trace} :
    Makes C client (trace ++ trace') client' ↔
      ∃ client₁, Makes C client trace client₁ ∧ Makes C client₁ trace' client' := by
  induction trace generalizing client with
  | nil => simp [makes_nil_iff]
  | cons x trace ih =>
    constructor
    · rintro (_ | ⟨h, hr, htrace⟩)
      obtain ⟨client₁, h₁, h₂⟩ := ih.1 htrace
      exact ⟨client₁, .cons h hr h₁, h₂⟩
    · rintro ⟨client₁, _ | ⟨h, hr, htrace⟩, h₂⟩
      exact .cons h hr (ih.2 ⟨client₁, htrace, h₂⟩)

/-- The calls of a trace do not change the URL. -/
theorem Makes.url {trace : Trace} (h : Makes C client trace client') :
    client'.url = client.url := by
  induction h with
  | nil client => rfl
  | @cons client client₁ client' call reply trace h hr htrace ih =>
    have hcall := (related_performAll C (R := fun _ _ => True) (fun _ => trivial)
      (fun _ _ _ _ _ => trivial) (fun _ _ => trivial) (fun _ _ => trivial) [call] client).2.2
    rw [performAll, List.foldl_cons, List.foldl_nil, h] at hcall
    exact ih.trans hcall

end RelayClient

namespace MultiRelayClient

open RelayClient (Makes Call Reply makes_nil_iff makes_one_iff makes_append_iff)

variable (C : Crates) {σ : Type} [RelayConnection σ] [Clock σ]

/-- Performing a call. -/
def perform : MultiCall → MultiRelayClient σ → MultiReply × MultiRelayClient σ
  | .broadcast event timeout, multi => (broadcast C event timeout multi).map .outcomes id
  | .query rounds filter idle, multi => (query C rounds filter idle multi).map .events id
  | .subscribe subId filter, multi => (subscribe C subId filter multi).map .done id
  | .relay k call, multi =>
    match multi.clients[k]? with
    | some client =>
      let (reply, client') := RelayClient.perform C call client
      (.relay (some reply), { clients := multi.clients.set k client' })
    | none => (.relay none, multi)

/-- The calls are made one after the other, each when the one before it has
    returned. -/
inductive Runs : MultiRelayClient σ → List (MultiCall × MultiReply) → MultiRelayClient σ → Prop
  | nil (multi : MultiRelayClient σ) : Runs multi [] multi
  | cons {multi multi₁ multi' : MultiRelayClient σ} {call : MultiCall} {reply : MultiReply}
    {xs : List (MultiCall × MultiReply)} (h : perform C call multi = (reply, multi₁))
    (hr : reply.returned = true) (hxs : Runs multi₁ xs multi') :
    Runs multi ((call, reply) :: xs) multi'

/-- The shares of the relays in a subscription: those after the first one that fails
    are left out. -/
inductive Subscribes (subId : String) (filter : Filter) :
    List String → Result Unit → List Trace → Prop
  | nil : Subscribes subId filter [] (.ok ()) []
  | next {urls : List String} {result : Result Unit} {shares : List Trace} (url : String)
    (h : Subscribes subId filter urls result shares) :
    Subscribes subId filter (url :: urls) result
      ([(.subscribe subId filter, .done (.ok ()))] :: shares)
  | refused (url : String) (urls : List String) (e : Error) :
    Subscribes subId filter (url :: urls) (.error e)
      ([(.subscribe subId filter, .done (.error e))] :: urls.map fun _ => [])

/-- The shares of the relays in a call, and the reply that their replies make up. -/
inductive Shares (urls : List String) : MultiCall → MultiReply → List Trace → Prop
  | broadcast (event : Event) (timeout : Duration) (results : List (Result (Bool × String)))
    (h : results.length = urls.length) :
    Shares urls (.broadcast event timeout)
      (.outcomes (urls.zipWith
        (fun url result => { url, result := result.mapError Error.display }) results))
      (results.map fun result => [(.publish event timeout, .verdict result)])
  | query (rounds : Nat) (filter : Filter) (idle : Duration) (results : List (Result (List Event)))
    (h : results.length = urls.length) :
    Shares urls (.query rounds filter idle)
      (.events (some (firsts Event.id (results.flatMap contribution))))
      (results.map fun result => [(.query rounds filter idle, .events (result.map some))])
  | subscribe {subId : String} {filter : Filter} {result : Result Unit} {shares : List Trace}
    (h : Subscribes subId filter urls result shares) :
    Shares urls (.subscribe subId filter) (.done result) shares
  | relay {before after : List String} {url : String} (h : urls = before ++ url :: after)
    (call : Call) (reply : Reply) :
    Shares urls (.relay before.length call) (.relay (some reply))
      ((before.map fun _ => []) ++ [(call, reply)] :: after.map fun _ => [])
  | missing {k : Nat} (h : urls.length ≤ k) (call : Call) :
    Shares urls (.relay k call) (.relay none) (urls.map fun _ => [])

/-- The trace of each relay, made up of its shares in the calls of a run. -/
inductive Splits (urls : List String) : List (MultiCall × MultiReply) → List Trace → Prop
  | nil : Splits urls [] (urls.map fun _ => [])
  | cons {call : MultiCall} {reply : MultiReply} {shares : List Trace}
    {xs : List (MultiCall × MultiReply)} {traces : List Trace} (h : Shares urls call reply shares)
    (hxs : Splits urls xs traces) :
    Splits urls ((call, reply) :: xs) (shares.zipWith (· ++ ·) traces)

/-- Each client makes the calls of its trace. -/
inductive Each : List (RelayClient σ) → List Trace → List (RelayClient σ) → Prop
  | nil : Each [] [] []
  | cons {client client' : RelayClient σ} {trace : Trace} {clients clients' : List (RelayClient σ)}
    {traces : List Trace} (h : Makes C client trace client') (hs : Each clients traces clients') :
    Each (client :: clients) (trace :: traces) (client' :: clients')

variable {C} {clients clients' clients'' : List (RelayClient σ)} {traces shares : List Trace}

namespace Each

theorem length_eq (h : Each C clients traces clients') :
    traces.length = clients.length ∧ clients'.length = clients.length := by
  induction h with
  | nil => exact ⟨rfl, rfl⟩
  | cons h hs ih => exact ⟨congrArg Nat.succ ih.1, congrArg Nat.succ ih.2⟩

theorem urls (h : Each C clients traces clients') :
    clients'.map RelayClient.url = clients.map RelayClient.url := by
  induction h with
  | nil => rfl
  | cons h hs ih => rw [List.map_cons, List.map_cons, h.url, ih]

end Each

theorem each_nil_iff {α : Type} {xs : List α} (h : xs.length = clients.length) :
    Each C clients (xs.map fun _ => []) clients' ↔ clients' = clients := by
  induction clients generalizing xs clients' with
  | nil =>
    obtain rfl := List.length_eq_zero_iff.1 h
    constructor
    · rintro ⟨⟩
      rfl
    · rintro rfl
      exact .nil
  | cons client clients ih =>
    obtain _ | ⟨x, xs⟩ := xs
    · cases h
    have hlength : xs.length = clients.length := Nat.succ.inj h
    constructor
    · rintro (_ | ⟨h, hs⟩)
      rw [makes_nil_iff.1 h, (ih hlength).1 hs]
    · rintro rfl
      exact .cons (.nil _) ((ih hlength).2 rfl)

/-- What each client does first, and what it does then. -/
theorem each_zipWith_iff (h : shares.length = traces.length) :
    Each C clients (shares.zipWith (· ++ ·) traces) clients'' ↔
      ∃ clients', Each C clients shares clients' ∧ Each C clients' traces clients'' := by
  induction shares generalizing clients traces clients'' with
  | nil =>
    obtain rfl := List.length_eq_zero_iff.1 h.symm
    constructor
    · rintro ⟨⟩
      exact ⟨[], .nil, .nil⟩
    · rintro ⟨clients', ⟨⟩, ⟨⟩⟩
      exact .nil
  | cons share shares ih =>
    obtain _ | ⟨trace, traces⟩ := traces
    · cases h
    have hlength : shares.length = traces.length := Nat.succ.inj h
    constructor
    · rintro (_ | ⟨h, hs⟩)
      obtain ⟨client', h₁, h₂⟩ := makes_append_iff.1 h
      obtain ⟨clients', hs₁, hs₂⟩ := (ih hlength).1 hs
      exact ⟨client' :: clients', .cons h₁ hs₁, .cons h₂ hs₂⟩
    · rintro ⟨clients', _ | ⟨h₁, hs₁⟩, _ | ⟨h₂, hs₂⟩⟩
      exact .cons (makes_append_iff.2 ⟨_, h₁, h₂⟩) ((ih hlength).2 ⟨_, hs₁, hs₂⟩)

/-! ## One call -/

/-- Publishing to every relay. -/
theorem broadcast_iff {event : Event} {timeout : Duration}
    {results : List (Result (Bool × String))} :
    Each C clients
        (results.map fun result => [(.publish event timeout, .verdict result)]) clients' ↔
      results = clients.map (fun client => (RelayClient.publish C event timeout client).1) ∧
        clients' = clients.map fun client => (RelayClient.publish C event timeout client).2 := by
  induction clients generalizing results clients' with
  | nil =>
    constructor
    · intro h
      obtain rfl := List.map_eq_nil_iff.1 (List.length_eq_zero_iff.1 h.length_eq.1)
      cases h
      exact ⟨rfl, rfl⟩
    · rintro ⟨rfl, rfl⟩
      exact .nil
  | cons client clients ih =>
    rcases hpublish : RelayClient.publish C event timeout client with ⟨result, client₁⟩
    have hperform : RelayClient.perform C (.publish event timeout) client =
        (.verdict result, client₁) := by rw [RelayClient.perform, hpublish]; rfl
    simp only [List.map_cons, hpublish]
    constructor
    · intro h
      obtain _ | ⟨result', results⟩ := results
      · cases h
      obtain _ | ⟨h, hs⟩ := h
      obtain ⟨hreply, rfl⟩ := Prod.mk.inj (hperform.symm.trans (makes_one_iff.1 h).1)
      obtain ⟨rfl, rfl⟩ := ih.1 hs
      exact ⟨by rw [Reply.verdict.inj hreply], rfl⟩
    · rintro ⟨rfl, rfl⟩
      exact .cons (makes_one_iff.2 ⟨hperform, rfl⟩) (ih.2 ⟨rfl, rfl⟩)

omit [RelayConnection σ] [Clock σ] in
theorem map_cons_iff {x : Option Merged × List (RelayClient σ)} {merged : Merged}
    {client : RelayClient σ} : x.map id (client :: ·) = (some merged, clients') ↔
      ∃ clients, x = (some merged, clients) ∧ clients' = client :: clients := by
  constructor
  · intro h
    obtain ⟨hsome, rfl⟩ := Prod.mk.inj h
    exact ⟨_, Prod.ext hsome rfl, rfl⟩
  · rintro ⟨clients, rfl, rfl⟩
    rfl

/-- Querying the relays one after the other. -/
theorem queryAll_iff {rounds : Nat} {filter : Filter} {idle : Duration} {merged merged' : Merged} :
    queryAll C rounds filter idle clients merged = (some merged', clients') ↔
      ∃ results : List (Result (List Event)), Each C clients
          (results.map fun result => [(.query rounds filter idle, .events (result.map some))])
          clients' ∧ merged' = (results.flatMap contribution).foldl Merged.add merged := by
  induction clients generalizing merged clients' with
  | nil =>
    constructor
    · rintro ⟨⟩
      exact ⟨[], .nil, rfl⟩
    · rintro ⟨results, h, rfl⟩
      obtain rfl := List.map_eq_nil_iff.1 (List.length_eq_zero_iff.1 h.length_eq.1)
      cases h
      rfl
  | cons client clients ih =>
    -- What the first client ends in, and then the other ones.
    have hcons : ∀ (result : Result (List Event)) {client₁ : RelayClient σ},
        RelayClient.query C rounds filter idle client = (result.map some, client₁) →
        ((∃ clients₁, queryAll C rounds filter idle clients
            ((contribution result).foldl Merged.add merged) = (some merged', clients₁) ∧
              clients' = client₁ :: clients₁) ↔
          ∃ results : List (Result (List Event)), Each C (client :: clients)
            (results.map fun result => [(.query rounds filter idle, .events (result.map some))])
            clients' ∧ merged' = (results.flatMap contribution).foldl Merged.add merged) := by
      intro result client₁ hquery
      have hperform : RelayClient.perform C (.query rounds filter idle) client =
          (.events (result.map some), client₁) := by rw [RelayClient.perform, hquery]; rfl
      constructor
      · rintro ⟨clients₁, hall, rfl⟩
        obtain ⟨results, hs, rfl⟩ := ih.1 hall
        refine ⟨result :: results, .cons (makes_one_iff.2 ⟨hperform, ?_⟩) hs, ?_⟩
        · cases result with
          | error e => rfl
          | ok events => rfl
        · rw [List.flatMap_cons, List.foldl_append]
      · rintro ⟨_ | ⟨result', results⟩, h, rfl⟩
        · cases h
        obtain _ | ⟨h, hs⟩ := h
        obtain ⟨hreply, rfl⟩ := Prod.mk.inj (hperform.symm.trans (makes_one_iff.1 h).1)
        obtain rfl : result = result' :=
          Except.map_injective (Option.some_injective _) (Reply.events.inj hreply)
        exact ⟨_, ih.2 ⟨results, hs, by rw [List.flatMap_cons, List.foldl_append]⟩, rfl⟩
    rcases hquery : RelayClient.query C rounds filter idle client with ⟨e | _ | events, client₁⟩
    · rw [← hcons (.error e) hquery]
      simp only [queryAll, hquery]
      exact map_cons_iff
    · constructor
      · intro h
        simp only [queryAll, hquery] at h
        cases (Prod.mk.inj h).1
      · -- The query of the first client is out of its rounds.
        rintro ⟨_ | ⟨result, results⟩, h, -⟩
        · cases h
        obtain _ | ⟨h, -⟩ := h
        obtain ⟨h, -⟩ := makes_one_iff.1 h
        rw [RelayClient.perform, hquery] at h
        cases result with
        | error e => cases (Reply.events.inj (Prod.mk.inj h).1)
        | ok events => cases (Reply.events.inj (Prod.mk.inj h).1)
    · rw [← hcons (.ok events) hquery]
      simp only [queryAll, hquery]
      exact map_cons_iff

theorem perform_subscribe {subId : String} {filter : Filter} {client client' : RelayClient σ}
    {result : Result Unit} (h : RelayClient.subscribe C subId filter client = (result, client')) :
    RelayClient.perform C (.subscribe subId filter) client = (.done result, client') := by
  rw [RelayClient.perform, h]
  rfl

/-- Subscribing on the relays up to the first one that fails. -/
theorem subscribeAll_iff {subId : String} {filter : Filter} {result : Result Unit} :
    subscribeAll C subId filter clients = (result, clients') ↔
      ∃ shares, Subscribes subId filter (clients.map RelayClient.url) result shares ∧
        Each C clients shares clients' := by
  induction clients generalizing clients' result with
  | nil =>
    constructor
    · rintro ⟨⟩
      exact ⟨[], .nil, .nil⟩
    · rintro ⟨shares, ⟨⟩, ⟨⟩⟩
      rfl
  | cons client clients ih =>
    rcases hsub : RelayClient.subscribe C subId filter client with ⟨e | ⟨⟩, client₁⟩
    all_goals
      have hperform := perform_subscribe hsub
      rw [subscribeAll, hsub]
    · constructor
      · rintro ⟨⟩
        exact ⟨_, .refused _ _ e, .cons (makes_one_iff.2 ⟨hperform, rfl⟩)
          ((each_nil_iff (List.length_map _)).2 rfl)⟩
      · rintro ⟨shares, _ | ⟨_, h⟩ | ⟨_, _, e'⟩, _ | ⟨h, hs⟩⟩
        · cases (Prod.mk.inj (hperform.symm.trans (makes_one_iff.1 h).1)).1
        · obtain ⟨hreply, rfl⟩ := Prod.mk.inj (hperform.symm.trans (makes_one_iff.1 h).1)
          obtain rfl := (each_nil_iff (List.length_map _)).1 hs
          rw [Except.error.inj (Reply.done.inj hreply)]
    · constructor
      · intro h
        obtain ⟨hresult, rfl⟩ := Prod.mk.inj h
        obtain ⟨shares, hshares, hs⟩ := ih.1 (Prod.ext hresult rfl)
        exact ⟨_, .next _ hshares, .cons (makes_one_iff.2 ⟨hperform, rfl⟩) hs⟩
      · rintro ⟨shares, _ | ⟨_, hshares⟩ | ⟨_, _, e'⟩, _ | ⟨h, hs⟩⟩
        · obtain ⟨-, rfl⟩ := Prod.mk.inj (hperform.symm.trans (makes_one_iff.1 h).1)
          rw [ih.2 ⟨_, hshares, hs⟩]
          rfl
        · cases (Prod.mk.inj (hperform.symm.trans (makes_one_iff.1 h).1)).1

/-- A call of the client of one relay. -/
theorem relay_iff {before after : List (RelayClient σ)} {client : RelayClient σ} {call : Call}
    {reply : Reply} {before' after' : List String}
    (hbefore : before'.length = before.length) (hafter : after'.length = after.length) :
    Each C (before ++ client :: after)
        ((before'.map fun _ => []) ++ [(call, reply)] :: after'.map fun _ => []) clients' ↔
      ∃ client', RelayClient.perform C call client = (reply, client') ∧
        reply.returned = true ∧ clients' = before ++ client' :: after := by
  induction before generalizing before' clients' with
  | nil =>
    obtain rfl := List.length_eq_zero_iff.1 hbefore
    constructor
    · rintro (_ | ⟨h, hs⟩)
      obtain ⟨h, hr⟩ := makes_one_iff.1 h
      exact ⟨_, h, hr, by rw [(each_nil_iff hafter).1 hs]; rfl⟩
    · rintro ⟨client', h, hr, rfl⟩
      exact .cons (makes_one_iff.2 ⟨h, hr⟩) ((each_nil_iff hafter).2 rfl)
  | cons c before ih =>
    obtain _ | ⟨x, before'⟩ := before'
    · cases hbefore
    constructor
    · rintro (_ | ⟨h, hs⟩)
      obtain ⟨client', hcall, hr, rfl⟩ := (ih (Nat.succ.inj hbefore)).1 hs
      exact ⟨client', hcall, hr, by rw [makes_nil_iff.1 h]; rfl⟩
    · rintro ⟨client', hcall, hr, rfl⟩
      exact .cons (.nil _) ((ih (Nat.succ.inj hbefore)).2 ⟨client', hcall, hr, rfl⟩)

theorem perform_broadcast (event : Event) (timeout : Duration) :
    perform C (.broadcast event timeout) { clients } =
      (.outcomes ((clients.map RelayClient.url).zipWith
        (fun url result => { url, result := result.mapError Error.display })
        (clients.map fun client => (RelayClient.publish C event timeout client).1)),
      { clients := clients.map fun client => (RelayClient.publish C event timeout client).2 }) := by
  simp [perform, broadcast, List.zipWith_map_left, List.zipWith_map_right, List.zipWith_self]

theorem perform_query {rounds : Nat} {filter : Filter} {idle : Duration} {merged : Merged}
    (h : queryAll C rounds filter idle clients { seen := ∅, out := [] } =
      (some merged, clients')) :
    perform C (.query rounds filter idle) { clients } =
      (.events (some merged.out), { clients := clients' }) := by
  rw [perform, query, h]
  rfl

theorem perform_relay {before after : List (RelayClient σ)} {client client' : RelayClient σ}
    {call : Call} {reply : Reply} (h : RelayClient.perform C call client = (reply, client')) :
    perform C (.relay before.length call) { clients := before ++ client :: after } =
      (.relay (some reply), { clients := before ++ client' :: after }) := by
  simp [perform, h]

/-- A call that returns is the calls of the shares in it. -/
theorem perform_iff {multi multi' : MultiRelayClient σ} {call : MultiCall} {reply : MultiReply} :
    perform C call multi = (reply, multi') ∧ reply.returned = true ↔
      ∃ shares, Shares (multi.clients.map RelayClient.url) call reply shares ∧
        Each C multi.clients shares multi'.clients := by
  obtain ⟨clients⟩ := multi
  obtain ⟨clients'⟩ := multi'
  constructor
  · rintro ⟨h, hr⟩
    cases call with
    | broadcast event timeout =>
      rw [perform_broadcast] at h
      obtain ⟨rfl, hclients⟩ := Prod.mk.inj h
      obtain rfl := MultiRelayClient.mk.inj hclients
      exact ⟨_, .broadcast _ _ _ (by simp), broadcast_iff.2 ⟨rfl, rfl⟩⟩
    | query rounds filter idle =>
      rcases hall : queryAll C rounds filter idle clients { seen := ∅, out := [] }
        with ⟨_ | merged, clients₁⟩
      · rw [perform, query, hall] at h
        obtain ⟨rfl, -⟩ := Prod.mk.inj h
        cases hr
      · rw [perform_query hall] at h
        obtain ⟨rfl, hclients⟩ := Prod.mk.inj h
        obtain rfl := MultiRelayClient.mk.inj hclients
        obtain ⟨results, hs, rfl⟩ := queryAll_iff.1 hall
        rw [(Merges.nil.foldl (results.flatMap contribution)).out_eq, List.nil_append]
        exact ⟨_, .query _ _ _ _ (by simpa using hs.length_eq.1), hs⟩
    | subscribe subId filter =>
      rcases hall : subscribeAll C subId filter clients with ⟨result, clients₁⟩
      rw [perform, subscribe, hall] at h
      obtain ⟨rfl, hclients⟩ := Prod.mk.inj h
      obtain rfl := MultiRelayClient.mk.inj hclients
      obtain ⟨shares, hshares, hs⟩ := subscribeAll_iff.1 hall
      exact ⟨shares, .subscribe hshares, hs⟩
    | relay k call =>
      rcases Nat.lt_or_ge k clients.length with hk | hk
      · obtain ⟨before, after, hclients, rfl, -⟩ :=
          @List.exists_of_set _ k clients[k] clients hk
        generalize clients[before.length] = client at hclients
        subst hclients
        rcases hcall : RelayClient.perform C call client with ⟨reply', client'⟩
        rw [perform_relay hcall] at h
        obtain ⟨rfl, hclients⟩ := Prod.mk.inj h
        obtain rfl := MultiRelayClient.mk.inj hclients
        have hurls : (before ++ client :: after).map RelayClient.url =
          before.map RelayClient.url ++ client.url :: after.map RelayClient.url := by simp
        have hshares := Shares.relay hurls call reply'
        rw [List.length_map] at hshares
        exact ⟨_, hshares, (relay_iff (by simp) (by simp)).2 ⟨client', hcall, hr, rfl⟩⟩
      · rw [perform, List.getElem?_eq_none hk] at h
        obtain ⟨rfl, hclients⟩ := Prod.mk.inj h
        obtain rfl := MultiRelayClient.mk.inj hclients
        exact ⟨_, .missing (by simpa using hk) call, (each_nil_iff (List.length_map _)).2 rfl⟩
  · rintro ⟨shares, h, hs⟩
    cases h with
    | broadcast event timeout results h =>
      obtain ⟨rfl, rfl⟩ := broadcast_iff.1 hs
      exact ⟨perform_broadcast event timeout, rfl⟩
    | query rounds filter idle results h =>
      have hall : queryAll C rounds filter idle clients { seen := ∅, out := [] } = _ :=
        queryAll_iff.2 ⟨results, hs, rfl⟩
      rw [perform_query hall, (Merges.nil.foldl (results.flatMap contribution)).out_eq]
      exact ⟨rfl, rfl⟩
    | subscribe h =>
      rw [perform, subscribe, subscribeAll_iff.2 ⟨_, h, hs⟩]
      exact ⟨rfl, rfl⟩
    | relay h call reply =>
      obtain ⟨before, rest, rfl, rfl, hrest⟩ := List.map_eq_append_iff.1 h
      obtain ⟨client, after, rfl, rfl, rfl⟩ := List.map_eq_cons_iff.1 hrest
      obtain ⟨client', hcall, hr, rfl⟩ := (relay_iff (by simp) (by simp)).1 hs
      rw [List.length_map, perform_relay hcall]
      exact ⟨rfl, hr⟩
    | missing h call =>
      obtain rfl := (each_nil_iff (List.length_map _)).1 hs
      rw [List.length_map] at h
      rw [perform, List.getElem?_eq_none h]
      exact ⟨rfl, rfl⟩

/-! ## Runs -/

theorem Subscribes.length_eq {subId : String} {filter : Filter} {urls : List String}
    {result : Result Unit} (h : Subscribes subId filter urls result shares) :
    shares.length = urls.length := by
  induction h with
  | nil => rfl
  | next url h ih => exact congrArg Nat.succ ih
  | refused url urls e => exact congrArg Nat.succ (List.length_map _)

theorem Shares.length_eq {urls : List String} {call : MultiCall} {reply : MultiReply}
    (h : Shares urls call reply shares) : shares.length = urls.length := by
  cases h with
  | broadcast event timeout results h => rwa [List.length_map]
  | query rounds filter idle results h => rwa [List.length_map]
  | subscribe h => exact h.length_eq
  | relay h call reply => simp [h]
  | missing h call => exact List.length_map _

theorem Splits.length_eq {urls : List String} {xs : List (MultiCall × MultiReply)}
    (h : Splits urls xs traces) : traces.length = urls.length := by
  induction h with
  | nil => exact List.length_map _
  | cons h hxs ih => rw [List.length_zipWith, h.length_eq, ih, Nat.min_self]

/-- A run over several relays is a run of the client of each relay, on its own, of its
    shares in the calls: what the other relays answer, and whether they fail, shows
    only in which subscriptions it is left out of. -/
theorem runs_iff {multi multi' : MultiRelayClient σ} {xs : List (MultiCall × MultiReply)} :
    Runs C multi xs multi' ↔
      ∃ traces, Splits (multi.clients.map RelayClient.url) xs traces ∧
        Each C multi.clients traces multi'.clients := by
  constructor
  · intro h
    induction h with
    | nil multi => exact ⟨_, .nil, (each_nil_iff (List.length_map _)).2 rfl⟩
    | cons h hr hxs ih =>
      obtain ⟨shares, hshares, hs⟩ := perform_iff.1 ⟨h, hr⟩
      obtain ⟨traces, hsplits, hrest⟩ := ih
      rw [hs.urls] at hsplits
      refine ⟨_, .cons hshares hsplits, (each_zipWith_iff ?_).2 ⟨_, hs, hrest⟩⟩
      rw [hshares.length_eq, hsplits.length_eq]
  · rintro ⟨traces, hsplits, hs⟩
    induction xs generalizing multi traces with
    | nil =>
      cases hsplits
      obtain ⟨clients⟩ := multi
      obtain ⟨clients'⟩ := multi'
      obtain rfl := (each_nil_iff (List.length_map _)).1 hs
      exact .nil _
    | cons x xs ih =>
      obtain _ | ⟨hshares, hsplits⟩ := hsplits
      obtain ⟨clients₁, hs₁, hs₂⟩ := (each_zipWith_iff
        (hshares.length_eq.trans hsplits.length_eq.symm)).1 hs
      obtain ⟨hperform, hr⟩ := perform_iff.2 ⟨_, hshares, hs₁⟩
      refine .cons hperform hr (ih _ ?_ hs₂)
      rwa [hs₁.urls]

end MultiRelayClient

end UnicityNostr
