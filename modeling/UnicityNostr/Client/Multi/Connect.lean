import UnicityNostr.Client.Custody
import UnicityNostr.Client.Multi.Run
import UnicityNostr.Client.Wire

/-!
# Sessions with several relays

From the URLs on: a client that is connected to several relays, and what becomes of each
of them in a run.

* `connect_eq`: every relay is either connected or reported;
* `session`: whatever is called, each of the connected relays has its outcome in every
  broadcast, and is sent nothing but what it is asked for, and answers to its own
  challenges, for its own URL.
-/

namespace UnicityNostr

/-! ## Connecting -/

/-- Opens connections with a record. -/
structure Recording (τ : Type) where
  transport : τ

instance {τ σ : Type} [Transport τ σ] : Transport (Recording τ) (Recorded σ) where
  connect recording url :=
    (Transport.connect recording.transport url).map fun conn => { conn, log := [] }

namespace MultiRelayClient

variable {τ σ : Type} [Transport τ σ]

/-- The client of a relay that can be connected to. -/
def opened (transport : τ) (signer : Signer) (url : String) : Option (RelayClient σ) :=
  (Transport.connect transport url).toOption.map fun conn => .new conn url signer

/-- The report about a relay that cannot be connected to. -/
def refused (transport : τ) (url : String) : Option (String × String) :=
  match Transport.connect transport url with
  | .ok _ => none
  | .error e => some (url, e.display)

/-- The relays that can be connected to are, and the others are reported. -/
theorem connect_eq (transport : τ) (urls : List String) (signer : Signer) :
    connect transport urls signer =
      ({ clients := urls.filterMap (opened transport signer) },
        urls.filterMap (refused transport)) := by
  induction urls using List.reverseRecOn with
  | nil => rfl
  | append_singleton urls url ih =>
    simp only [connect] at ih ⊢
    rw [List.foldl_append, List.foldl_cons, List.foldl_nil]
    generalize List.foldl _ _ urls = connected at ih ⊢
    obtain ⟨clients, errors⟩ := connected
    obtain ⟨hclients, rfl⟩ := Prod.mk.inj ih
    obtain rfl := MultiRelayClient.mk.inj hclients
    cases h : Transport.connect transport url with
    | ok conn => simp [opened, refused, h, Except.toOption]
    | error e => simp [opened, refused, h, Except.toOption]

/-- The URLs of the relays that can be connected to. -/
def reachable (transport : τ) (urls : List String) : List String :=
  urls.filter fun url => (Transport.connect transport url).toOption.isSome

theorem map_url_connect (transport : τ) (urls : List String) (signer : Signer) :
    (connect transport urls signer).1.clients.map RelayClient.url = reachable transport urls := by
  rw [connect_eq, List.map_filterMap, reachable, ← List.filterMap_eq_filter]
  refine List.filterMap_congr fun url _ => ?_
  have hmap : ∀ conn : Option σ, (conn.map fun conn => RelayClient.new conn url signer).map
      RelayClient.url = if conn.isSome then some url else none
    | none => rfl
    | some conn => rfl
  exact hmap _

/-- A record makes no difference to which relays can be connected to. -/
theorem recording_eq (transport : τ) (urls : List String) :
    reachable (Recording.mk transport) urls = reachable transport urls ∧
      urls.filterMap (refused (Recording.mk transport)) = urls.filterMap (refused transport) := by
  constructor
  · refine List.filter_congr fun url _ => ?_
    simp only [Transport.connect]
    cases Transport.connect transport url with
    | ok conn => rfl
    | error e => rfl
  · refine List.filterMap_congr fun url _ => ?_
    simp only [refused, Transport.connect]
    cases Transport.connect transport url with
    | ok conn => rfl
    | error e => rfl

/-- A recorded relay is connected to with the signer, and with nothing on the record. -/
theorem new_of_mem_connect {recording : Recording τ} {urls : List String} {signer : Signer}
    {client : RelayClient (Recorded σ)}
    (h : client ∈ (connect recording urls signer).1.clients) :
    client.signer = signer ∧ client.conn.log = [] := by
  rw [connect_eq] at h
  obtain ⟨url, -, hopened⟩ := List.mem_filterMap.1 h
  obtain ⟨conn, hconn, rfl⟩ := Option.map_eq_some_iff.1 hopened
  refine ⟨rfl, ?_⟩
  simp only [Transport.connect] at hconn
  cases h : Transport.connect recording.transport url with
  | ok conn' =>
    rw [h] at hconn
    obtain rfl := Option.some.inj hconn
    rfl
  | error e =>
    rw [h] at hconn
    cases hconn

end MultiRelayClient

/-! ## Runs -/

namespace RelayClient

variable {C : Crates} {σ : Type} [RelayConnection σ] [Clock σ]
  {client client' : RelayClient (Recorded σ)} {requested : Json → Prop}

/-- A client that makes the calls of a trace sends what is requested by them, and
    answers. -/
theorem Makes.proceeds {trace : Trace} (h : Makes C client trace client')
    (hrequested : ∀ x ∈ trace, ∀ (client : RelayClient (Recorded σ)) frame,
      Requests x.1 client frame → requested frame) : Proceeds C requested client client' := by
  induction h with
  | nil client => exact proceeds_refl requested client
  | @cons client client₁ client' call reply trace h hr htrace ih =>
    obtain ⟨hcall, hrest⟩ := List.forall_mem_cons.1 hrequested
    have hperform : Proceeds C requested client (perform C call client).2 :=
      proceeds_perform (hcall client)
    rw [h] at hperform
    exact proceeds_trans requested _ _ _ hperform (ih hrest)

end RelayClient

/-- The call of a client of several relays asks the client of the relay `k` for the
    call. -/
inductive MultiCall.Asks (k : Nat) : MultiCall → RelayClient.Call → Prop
  | broadcast (event : Event) (timeout : Duration) :
    Asks k (.broadcast event timeout) (.publish event timeout)
  | query (rounds : Nat) (filter : Filter) (idle : Duration) :
    Asks k (.query rounds filter idle) (.query rounds filter idle)
  | subscribe (subId : String) (filter : Filter) :
    Asks k (.subscribe subId filter) (.subscribe subId filter)
  | relay (call : RelayClient.Call) : Asks k (.relay k call) call

namespace MultiRelayClient

variable {C : Crates} {σ : Type} [RelayConnection σ] [Clock σ]

/-- A relay has no share in the call of another. -/
theorem nil_of_getElem? {α : Type} {urls : List α} {k : Nat} {trace : Trace}
    (h : (urls.map fun _ => ([] : Trace))[k]? = some trace) : trace = [] := by
  obtain ⟨_, -, rfl⟩ := List.mem_map.1 (List.mem_of_getElem? h)
  rfl

/-- The shares in a subscription are subscriptions. -/
theorem Subscribes.eq_of_mem {subId : String} {filter : Filter} {urls : List String}
    {result : Result Unit} {shares : List Trace} (h : Subscribes subId filter urls result shares)
    {trace : Trace} (htrace : trace ∈ shares) {x : RelayClient.Call × RelayClient.Reply}
    (hx : x ∈ trace) : x.1 = .subscribe subId filter := by
  induction h with
  | nil => cases htrace
  | next url h ih =>
    rcases List.mem_cons.1 htrace with rfl | htrace
    · obtain rfl := List.mem_singleton.1 hx
      rfl
    · exact ih htrace
  | refused url urls e =>
    rcases List.mem_cons.1 htrace with rfl | htrace
    · obtain rfl := List.mem_singleton.1 hx
      rfl
    · obtain ⟨_, -, rfl⟩ := List.mem_map.1 htrace
      cases hx

/-- The share of a relay consists of calls that it is asked for. -/
theorem Shares.asks {urls : List String} {call : MultiCall} {reply : MultiReply}
    {shares : List Trace} (h : Shares urls call reply shares) {k : Nat} {trace : Trace}
    (hk : shares[k]? = some trace) {x : RelayClient.Call × RelayClient.Reply} (hx : x ∈ trace) :
    call.Asks k x.1 := by
  cases h with
  | broadcast event timeout results h =>
    obtain ⟨result, -, rfl⟩ := List.mem_map.1 (List.mem_of_getElem? hk)
    obtain rfl := List.mem_singleton.1 hx
    exact .broadcast event timeout
  | query rounds filter idle results h =>
    obtain ⟨result, -, rfl⟩ := List.mem_map.1 (List.mem_of_getElem? hk)
    obtain rfl := List.mem_singleton.1 hx
    exact .query rounds filter idle
  | subscribe h =>
    rw [h.eq_of_mem (List.mem_of_getElem? hk) hx]
    exact .subscribe _ _
  | @relay before after url h call reply =>
    rcases Nat.lt_trichotomy k before.length with hlt | rfl | hgt
    · rw [List.getElem?_append_left (by rwa [List.length_map])] at hk
      rw [nil_of_getElem? hk] at hx
      cases hx
    · rw [List.getElem?_append_right (List.length_map _).le, List.length_map, Nat.sub_self] at hk
      obtain rfl := Option.some.inj hk
      obtain rfl := List.mem_singleton.1 hx
      exact .relay call
    · obtain ⟨d, rfl⟩ := Nat.exists_eq_add_of_lt hgt
      rw [List.getElem?_append_right (by rw [List.length_map]; omega), List.length_map,
        show before.length + d + 1 - before.length = d + 1 by omega,
        List.getElem?_cons_succ] at hk
      rw [nil_of_getElem? hk] at hx
      cases hx
  | missing h call =>
    rw [nil_of_getElem? hk] at hx
    cases hx

/-- Each relay has its trace, and makes the calls in it. -/
theorem Each.getElem? {clients clients' : List (RelayClient σ)} {traces : List Trace}
    (h : Each C clients traces clients') {k : Nat} {client' : RelayClient σ}
    (hk : clients'[k]? = some client') : ∃ client trace, clients[k]? = some client ∧
      traces[k]? = some trace ∧ RelayClient.Makes C client trace client' := by
  induction h generalizing k with
  | nil => cases hk
  | cons h hs ih =>
    cases k with
    | zero =>
      obtain rfl := Option.some.inj hk
      exact ⟨_, _, rfl, rfl, h⟩
    | succ k => exact ih hk

/-- The outcomes of a broadcast are those of all relays, in their order. -/
theorem Shares.map_url_outcomes {urls : List String} {event : Event} {timeout : Duration}
    {outcomes : List PublishOutcome} {shares : List Trace}
    (h : Shares urls (.broadcast event timeout) (.outcomes outcomes) shares) :
    outcomes.map PublishOutcome.url = urls := by
  cases h with
  | broadcast event timeout results h =>
    have hfst : (urls.zip results).map Prod.fst = urls := List.map_fst_zip h.ge
    rw [List.zip, List.map_zipWith] at hfst
    rw [List.map_zipWith]
    exact hfst

/-- Over a run, each relay keeps its URL and its place. -/
theorem Runs.urls {multi multi' : MultiRelayClient σ} {xs : List (MultiCall × MultiReply)}
    (h : Runs C multi xs multi') : multi'.clients.map RelayClient.url =
      multi.clients.map RelayClient.url ∧
    ∀ event timeout outcomes, (.broadcast event timeout, .outcomes outcomes) ∈ xs →
      outcomes.map PublishOutcome.url = multi.clients.map RelayClient.url := by
  induction h with
  | nil multi => exact ⟨rfl, fun _ _ _ h => absurd h List.not_mem_nil⟩
  | cons h hr hxs ih =>
    obtain ⟨shares, hshares, hs⟩ := perform_iff.1 ⟨h, hr⟩
    obtain ⟨hurls, houtcomes⟩ := ih
    rw [hs.urls] at hurls houtcomes
    refine ⟨hurls, fun event timeout outcomes hmem => ?_⟩
    rcases List.mem_cons.1 hmem with heq | hmem
    · obtain ⟨rfl, rfl⟩ := Prod.mk.inj heq
      exact hshares.map_url_outcomes
    · exact houtcomes event timeout outcomes hmem

/-- Over a run, each relay is sent what it is asked for, and answers. -/
theorem Runs.proceeds {multi multi' : MultiRelayClient (Recorded σ)}
    {xs : List (MultiCall × MultiReply)} (h : Runs C multi xs multi') {k : Nat}
    {requested : Json → Prop}
    (hrequested : ∀ x ∈ xs, ∀ call, x.1.Asks k call → ∀ (client : RelayClient (Recorded σ)) frame,
      RelayClient.Requests call client frame → requested frame)
    {client' : RelayClient (Recorded σ)} (hk : multi'.clients[k]? = some client') :
    ∃ client, multi.clients[k]? = some client ∧
      RelayClient.Proceeds C requested client client' := by
  induction h with
  | nil multi => exact ⟨client', hk, RelayClient.proceeds_refl _ _⟩
  | cons h hr hxs ih =>
    obtain ⟨hfirst, hrest⟩ := List.forall_mem_cons.1 hrequested
    obtain ⟨client₁, hk₁, hproceeds₁⟩ := ih hrest hk
    obtain ⟨shares, hshares, hs⟩ := perform_iff.1 ⟨h, hr⟩
    obtain ⟨client, trace, hclient, htrace, hmakes⟩ := hs.getElem? hk₁
    refine ⟨client, hclient, RelayClient.proceeds_trans _ _ _ _ (hmakes.proceeds ?_) hproceeds₁⟩
    exact fun x hx => hfirst x.1 (hshares.asks htrace hx)

/-- The frames that the calls ask the relay `k` for. -/
def Requested (σ : Type) (xs : List (MultiCall × MultiReply)) (k : Nat) (frame : Json) : Prop :=
  ∃ x ∈ xs, ∃ call, x.1.Asks k call ∧
    ∃ client : RelayClient σ, RelayClient.Requests call client frame

/-- A session with several relays, from their URLs on. Those that cannot be connected to
    are reported, each with its error. Whatever is called then, every broadcast has the
    outcomes of the others, in their order; and what each of these is sent was asked for by
    a call that concerns it, or answers a challenge of its own, for its own URL. -/
theorem session {τ : Type} [Transport τ σ] (transport : τ) (urls : List String) (signer : Signer)
    {xs : List (MultiCall × MultiReply)} {multi' : MultiRelayClient (Recorded σ)}
    (h : Runs C (connect (Recording.mk transport) urls signer).1 xs multi') :
    (connect (Recording.mk transport) urls signer).2 = urls.filterMap (refused transport) ∧
    multi'.clients.map RelayClient.url = reachable transport urls ∧
    (∀ event timeout outcomes, (.broadcast event timeout, .outcomes outcomes) ∈ xs →
      outcomes.map PublishOutcome.url = reachable transport urls) ∧
    ∀ k client', multi'.clients[k]? = some client' →
      RelayClient.Licensed C signer client'.url (Requested (Recorded σ) xs k)
        client'.conn.log := by
  obtain ⟨hurls, houtcomes⟩ := h.urls
  rw [map_url_connect, (recording_eq transport urls).1] at hurls houtcomes
  refine ⟨?_, hurls, houtcomes, fun k client' hk => ?_⟩
  · rw [connect_eq, (recording_eq transport urls).2]
  · have hrequested : ∀ x ∈ xs, ∀ call, x.1.Asks k call →
        ∀ (client : RelayClient (Recorded σ)) frame, RelayClient.Requests call client frame →
          Requested (Recorded σ) xs k frame :=
      fun x hx call hasks client frame hframe => ⟨x, hx, call, hasks, client, hframe⟩
    obtain ⟨client, hclient, -, hurl, log, hlog, hlicensed⟩ := h.proceeds hrequested hk
    obtain ⟨hsigner, hempty⟩ := new_of_mem_connect (List.mem_of_getElem? hclient)
    rw [hempty, List.nil_append] at hlog
    rw [hlog, hurl, ← hsigner]
    exact hlicensed

/-- Of three relays, the second one cannot be connected to. -/
theorem session_broadcast :
    ∃ (transport : NativeTransport Wire) (event : Event) (outcomes : List PublishOutcome)
      (multi' : MultiRelayClient (Recorded (NativeConnection Wire))),
      Runs Reference.crates (connect (Recording.mk transport)
          ["wss://a", "wss://b", "wss://c"] (Reference.signer Reference.one).toSigner).1
        [(.broadcast event 5, .outcomes outcomes)] multi' ∧
      outcomes.map PublishOutcome.url = ["wss://a", "wss://c"] := by
  let wire : Wire := {
    now := 0, arrivals := [], sorted := .nil, readTimeout := 0, unsent := [], sent := []
    calendar := fun _ => 0 }
  let transport : NativeTransport Wire := {
    socket := fun url => if url = "wss://b" then .error (.other "refused") else .ok wire }
  obtain ⟨event, -⟩ := Reference.exists_verified
  have hruns : Runs Reference.crates (connect (Recording.mk transport)
      ["wss://a", "wss://b", "wss://c"] (Reference.signer Reference.one).toSigner).1
    [(.broadcast event 5, _)] _ := .cons rfl rfl (.nil _)
  exact ⟨transport, event, _, _, hruns, (session transport _ _ hruns).2.2.1 event 5 _
    List.mem_cons_self⟩

end MultiRelayClient

end UnicityNostr
