import UnicityNostr.Client.Archive

/-!
# Listening on a subscription

A relay may forward what it stores to the subscriptions it matches (`Forwards`). A
client that subscribes to such a relay and polls, while others use it, misses nothing of
what is stored, be it before the subscription is opened or after. The relay may drop a
subscription when the client answers a challenge; then the client has to subscribe again
whenever it polls a challenge (`rearmingPoller`), which it is not told by `pollEvent`.

* `Listens`: what holds between two polls;
* `Attentive`: what a way to poll keeps of it; `pollAll_listens`, `mem_pollAll_of_queue`:
  any number of polls;
* `rearming_listener_misses_nothing`, `listener_misses_nothing`: what is stored is
  polled.
-/

namespace UnicityNostr

/-- A relay that stores what it acknowledges and forwards what it stores:
    `opened r j subId filter` says that the client `j` has the subscription open. -/
structure Forwards (C : Crates) (ρ : Type) [Hub ρ] (stored : ρ → List Event)
    (opened : ρ → Nat → String → Filter → Prop) : Prop extends Stores C ρ stored where
  /-- A subscription is opened on request, with the filter as it is on the wire. -/
  opens : ∀ (r : ρ) j subId filter, opened (Hub.receive r j
    (C.json.toString (RelayClient.reqFrame subId filter))).1 j subId filter.withoutEmpty
  /-- Nothing is stored on such a request. -/
  only_opens : ∀ (r : ρ) j subId filter, ∀ e ∈ stored (Hub.receive r j
    (C.json.toString (RelayClient.reqFrame subId filter))).1, e ∈ stored r
  /-- It stays open whatever the others send. -/
  stays : ∀ (r : ρ) i text j subId filter, i ≠ j → opened r j subId filter →
    opened (Hub.receive r i text).1 j subId filter
  /-- What is stored with a frame is forwarded on the subscriptions it matches. -/
  forwards : ∀ (r : ρ) i text, ∀ e ∈ stored (Hub.receive r i text).1, e ∉ stored r →
    ∀ j subId filter, opened r j subId filter → filter.matches e = true →
      ∃ t, (j, t) ∈ (Hub.receive r i text).2 ∧ parseRelayMessage C t = .event subId e

/-- The relay does not drop the subscriptions of a client that authenticates. -/
def KeepsOnAuth (C : Crates) {ρ : Type} [Hub ρ] (opened : ρ → Nat → String → Filter → Prop) :
    Prop :=
  ∀ (r : ρ) j subId filter (auth : Event), opened r j subId filter →
    opened (Hub.receive r j (C.json.toString (RelayClient.authFrame auth))).1 j subId filter

/-! ## Between two polls -/

/-- The event that a poll returns for a frame. -/
def heard (C : Crates) (text : String) : Option (String × Event) :=
  match parseRelayMessage C text with
  | .event subId event => if event.verify C then some (subId, event) else none
  | _ => none

namespace Shared

variable {C : Crates} {ρ : Type} [Hub ρ] {stored : ρ → List Event}
  {opened : ρ → Nat → String → Filter → Prop} {j : Nat} {subId : String} {filter : Filter}

/-- The subscription is open, and what is stored and matches has been seen, or is in a
    frame not read yet. -/
structure Listens (C : Crates) (stored : ρ → List Event)
    (opened : ρ → Nat → String → Filter → Prop) (subId : String) (filter : Filter)
    (seen : List (String × Event)) (s : Shared ρ j) : Prop where
  isOpen : opened s.hub j subId filter
  arrives : ∀ e ∈ stored s.hub, filter.matches e = true →
    (subId, e) ∈ seen ∨ ∃ text ∈ s.queue, parseRelayMessage C text = .event subId e

variable (hf : Forwards C ρ stored opened) {seen : List (String × Event)} {s : Shared ρ j}

include hf

/-- What is stored when the subscription is opened is in the answer. -/
theorem Listens.deliver_req (hlimit : filter.limit = none) :
    Listens C stored opened subId filter.withoutEmpty seen
      (s.deliver (j, C.json.toString (RelayClient.reqFrame subId filter))) where
  isOpen := hf.opens _ _ _ _
  arrives e he hm := by
    obtain ⟨events, hreplies, hserved⟩ := hf.serves s.hub j subId filter hlimit
    have hmem : RelayMessage.event subId e ∈ events.map (.event subId) ++ [.eose subId] :=
      List.mem_append_left _ (List.mem_map_of_mem (hserved e (hf.only_opens _ _ _ _ e he) hm))
    rw [← hreplies] at hmem
    obtain ⟨t, ht, hp⟩ := List.mem_map.1 (List.mem_filter.1 hmem).1
    exact .inr ⟨t, List.mem_append_right _ ht, hp⟩

/-- A frame that reaches the relay and keeps the subscription open is no loss. -/
theorem Listens.deliver (h : Listens C stored opened subId filter seen s) {frame : Nat × String}
    (hopen : opened (Hub.receive s.hub frame.1 frame.2).1 j subId filter) :
    Listens C stored opened subId filter seen (s.deliver frame) where
  isOpen := hopen
  arrives e he hm := by
    by_cases hbefore : e ∈ stored s.hub
    · refine (h.arrives e hbefore hm).imp_right ?_
      exact fun ⟨text, htext, hp⟩ => ⟨text, List.mem_append_left _ htext, hp⟩
    · obtain ⟨t, ht, hp⟩ := hf.forwards _ _ _ e he hbefore j subId filter h.isOpen hm
      exact .inr ⟨t, List.mem_append_right _ (Hub.mem_inbox.2 ht), hp⟩

theorem Listens.yield (h : Listens C stored opened subId filter seen s) :
    Listens C stored opened subId filter seen s.yield :=
  related_yield (R := fun s s' => Listens C stored opened subId filter seen s →
    Listens C stored opened subId filter seen s') (fun _ h => h) (fun _ _ _ h h' => h' ∘ h)
    (fun _ _ h => ⟨h.isOpen, h.arrives⟩)
    (fun _ _ hne h => h.deliver hf (hf.stays _ _ _ _ _ _ hne h.isOpen)) s h

/-- The first frame is read, and what it brings is seen. -/
theorem Listens.read (h : Listens C stored opened subId filter seen s) {text : String}
    {queue : List String} (hq : s.queue = text :: queue) :
    Listens C stored opened subId filter (seen ++ (heard C text).toList) { s with queue } where
  isOpen := h.isOpen
  arrives e he hm := by
    rcases h.arrives e he hm with hseen | ⟨t, ht, hp⟩
    · exact .inl (List.mem_append_left _ hseen)
    rw [hq] at ht
    rcases List.mem_cons.1 ht with rfl | ht
    · refine .inl (List.mem_append_right _ ?_)
      simp [heard, hp, hf.verified _ e he]
    · exact .inr ⟨t, ht, hp⟩

end Shared

/-! ## The board -/

/-- An archive that forwards what it stores to the subscriptions that are open. -/
structure Board (C : Crates) where
  archive : Archive C
  subs : List (Nat × String × Filter)

namespace Board

variable {C : Crates}

/-- The events on the board. -/
def events (r : Board C) : List Event := r.archive.events

/-- The subscriptions after a frame. -/
def subsAfter (r : Board C) (i : Nat) : Json → List (Nat × String × Filter)
  | .arr [.str "REQ", .str subId, filter] =>
    match Filter.ofJson filter with
    | some filter => (i, subId, filter) :: r.subs
    | none => r.subs
  | .arr [.str "CLOSE", .str subId] => r.subs.filter fun sub => ¬(sub.1 = i ∧ sub.2.1 = subId)
  | _ => r.subs

/-- The frames that forward events to the subscriptions they match. -/
def forward (C : Crates) (subs : List (Nat × String × Filter)) (events : List Event) :
    List (Nat × String) :=
  events.flatMap fun e => (subs.filter fun sub => sub.2.2.matches e).map fun sub =>
    (sub.1, C.json.toString (RelayMessage.event sub.2.1 e).frame)

instance : Hub (Board C) where
  receive r i text :=
    let (archive, out) := Hub.receive r.archive i text
    ({ archive
       subs := match C.json.fromStr text with
         | .ok frame => r.subsAfter i frame
         | .error _ => r.subs },
      out ++ forward C r.subs (archive.events.filter (· ∉ r.events)))

instance (i : Nat) : Clock (Shared (Board C) i) where
  now _ := 0

theorem mem_forward {subs : List (Nat × String × Filter)} {events : List Event} {j : Nat}
    {t : String} : (j, t) ∈ forward C subs events ↔ ∃ e ∈ events, ∃ subId filter,
      (j, subId, filter) ∈ subs ∧ filter.matches e = true ∧
        t = C.json.toString (RelayMessage.event subId e).frame := by
  simp only [forward, List.mem_flatMap, List.mem_map, List.mem_filter, Prod.exists, Prod.mk.injEq]
  constructor
  · rintro ⟨e, he, j, subId, filter, ⟨hsub, hm⟩, rfl, rfl⟩
    exact ⟨e, he, subId, filter, hsub, hm, rfl⟩
  · rintro ⟨e, he, subId, filter, hsub, hm, rfl⟩
    exact ⟨e, he, j, subId, filter, ⟨hsub, hm⟩, rfl, rfl⟩

theorem receive_eq (r : Board C) (i : Nat) (text : String) : Hub.receive r i text =
    ({ archive := (Hub.receive r.archive i text).1
       subs := match C.json.fromStr text with
         | .ok frame => r.subsAfter i frame
         | .error _ => r.subs },
      (Hub.receive r.archive i text).2 ++
        forward C r.subs ((Hub.receive r.archive i text).1.events.filter (· ∉ r.events))) := rfl

/-- A frame that is sent is one of the archive, or forwards an event. -/
theorem mem_receive (hj : C.json.RoundTrips) {r : Board C} {i j : Nat} {text t : String}
    (h : (j, t) ∈ (Hub.receive r i text).2) : (j, t) ∈ (Hub.receive r.archive i text).2 ∨
      ∃ subId e, parseRelayMessage C t = .event subId e := by
  refine (List.mem_append.1 h).imp_right fun h => ?_
  obtain ⟨e, -, subId, -, -, -, rfl⟩ := mem_forward.1 h
  exact ⟨subId, e, parseRelayMessage_frame hj (by simp)⟩

/-- The request of a subscription opens it and changes nothing else; the archive answers
    it. -/
theorem receive_req (hj : C.json.RoundTrips) (r : Board C) (i : Nat) (subId : String)
    (filter : Filter) :
    Hub.receive r i (C.json.toString (RelayClient.reqFrame subId filter)) =
      ({ r with subs := (i, subId, filter.withoutEmpty) :: r.subs },
        (Hub.receive r.archive i (C.json.toString (RelayClient.reqFrame subId filter))).2) := by
  have hsubs : r.subsAfter i (RelayClient.reqFrame subId filter) =
      (i, subId, filter.withoutEmpty) :: r.subs := by
    simp only [RelayClient.reqFrame, subsAfter, Filter.ofJson_toValue]
  have hnone : r.archive.events.filter (· ∉ r.events) = [] :=
    List.filter_eq_nil_iff.2 fun e he hnew => of_decide_eq_true hnew he
  rw [receive_eq, Archive.receive_req hj, (hj _ (encodable_reqFrame subId filter)).1]
  simp only [hsubs, hnone, forward, List.flatMap_nil, List.append_nil]

/-- The board stores what it acknowledges and serves what it stores. -/
theorem stores (hj : C.json.RoundTrips) : Stores C (Board C) events where
  verified r e he := Archive.verify_of_mem_events he
  keeps r i text e he := (Archive.stores hj).keeps r.archive i text e he
  acknowledges r i text j t id message ht hp := by
    rcases mem_receive hj ht with ht | ⟨subId, e, hevent⟩
    · exact (Archive.stores hj).acknowledges r.archive i text j t id message ht hp
    · rw [hevent] at hp
      cases hp
  serves r i subId filter hlimit := by
    rw [receive_req hj]
    exact (Archive.stores hj).serves r.archive i subId filter hlimit
  ends_own r i text j t subId ht hends := by
    rcases mem_receive hj ht with ht | ⟨subId', e, hevent⟩
    · exact (Archive.stores hj).ends_own r.archive i text j t subId ht hends
    · rw [hevent] at hends
      cases hends

/-- The client has the subscription open. -/
def Opened (r : Board C) (j : Nat) (subId : String) (filter : Filter) : Prop :=
  (j, subId, filter) ∈ r.subs

/-- A subscription stays open unless the client that has opened it closes it. -/
theorem mem_subsAfter {r : Board C} {i j : Nat} {subId : String} {filter : Filter} {frame : Json}
    (h : (j, subId, filter) ∈ r.subs)
    (hclose : i = j → ∀ subId, frame ≠ RelayClient.closeFrame subId) :
    (j, subId, filter) ∈ r.subsAfter i frame := by
  unfold subsAfter
  split
  · split
    · exact List.mem_cons_of_mem _ h
    · exact h
  · rename_i subId'
    refine List.mem_filter.2 ⟨h, decide_eq_true fun hsame => ?_⟩
    exact hclose hsame.1.symm subId' rfl
  · exact h

/-- The board forwards what it stores. -/
theorem forwards (hj : C.json.RoundTrips) : Forwards C (Board C) events Opened where
  toStores := stores hj
  opens r j subId filter := by
    rw [receive_req hj]
    exact List.mem_cons_self
  only_opens r j subId filter e he := by
    rw [receive_req hj] at he
    exact he
  stays r i text j subId filter hne h := by
    rw [receive_eq, Opened]
    cases C.json.fromStr text with
    | error _ => exact h
    | ok frame => exact mem_subsAfter h fun heq => absurd heq hne
  forwards r i text e he hnew j subId filter hopen hm := by
    refine ⟨_, List.mem_append_right _ (mem_forward.2 ⟨e, ?_, subId, filter, hopen, hm, rfl⟩),
      parseRelayMessage_frame hj (by simp)⟩
    exact List.mem_filter.2 ⟨he, decide_eq_true hnew⟩

theorem keepsOnAuth (hj : C.json.RoundTrips) : KeepsOnAuth C (Opened (C := C)) := by
  intro r j subId filter auth h
  have hmem : (j, subId, filter) ∈ r.subsAfter j (RelayClient.authFrame auth) :=
    mem_subsAfter h fun _ subId' => by simp [RelayClient.authFrame, RelayClient.closeFrame]
  rw [receive_eq, Opened, (hj _ (encodable_authFrame auth)).1]
  exact hmem

/-- Nothing is taken off the board. -/
theorem mem_events_of_evolves {r r' : Board C} (h : Hub.Evolves r r') {e : Event}
    (he : e ∈ r.events) : e ∈ r'.events := by
  induction h with
  | refl => exact he
  | tail _ hstep ih =>
    obtain ⟨i, text, rfl⟩ := hstep
    obtain ⟨r', ms, hreceive, hkeeps, -⟩ := Archive.receive_cases (Board.archive _) i text
    rw [receive_eq, hreceive]
    exact hkeeps e ih

/-- An event that verifies is on the board after it is published. -/
theorem mem_events_receive (hj : C.json.RoundTrips) (r : Board C) (i : Nat) {event : Event}
    (hv : event.verify C = true) :
    event ∈ (Hub.receive r i (C.json.toString (RelayClient.eventFrame event))).1.events := by
  rw [receive_eq, Archive.receive_event hj r.archive i hv]
  simp [events, Archive.events]

/-- The board accepts an event that verifies, if somebody subscribes before and nobody
    sends anything else. -/
theorem publish_eq (hj : C.json.RoundTrips) {i j : Nat} (client : RelayClient (Shared (Board C) i))
    (hqueue : client.conn.queue = []) {subId : String} {filter : Filter} (hne : j ≠ i)
    (hothers : client.conn.others =
      [[⟨(j, C.json.toString (RelayClient.reqFrame subId filter)), hne⟩]])
    {event : Event} (hv : event.verify C = true) (timeout : Duration) :
    ∃ client', RelayClient.publish C event timeout client = (.ok (true, ""), client') ∧
      client'.conn.hub = (Hub.receive (Hub.receive client.conn.hub j
        (C.json.toString (RelayClient.reqFrame subId filter))).1 i
          (C.json.toString (RelayClient.eventFrame event))).1 := by
  have hyield : client.conn.yield = { client.conn with
      hub := (Hub.receive client.conn.hub j
        (C.json.toString (RelayClient.reqFrame subId filter))).1
      others := [] } := by
    have hinbox : Hub.inbox i (Hub.receive client.conn.hub j
        (C.json.toString (RelayClient.reqFrame subId filter))).2 = [] := by
      refine List.eq_nil_iff_forall_not_mem.2 fun text htext => ?_
      have hmem := Hub.mem_inbox.1 htext
      rw [receive_req hj, Archive.receive_req hj] at hmem
      obtain ⟨m, -, heq⟩ := List.mem_map.1 hmem
      exact hne (Prod.mk.inj heq).1
    rw [Shared.yield, hothers]
    simp only [List.foldl_cons, List.foldl_nil, Shared.deliver, hinbox, List.append_nil]
  obtain ⟨queue, hreply⟩ : ∃ queue, (client.conn.yield.deliver
      (i, C.json.toString (RelayClient.eventFrame event))).queue =
        C.json.toString (RelayMessage.ok event.id true "").frame :: queue := by
    rw [hyield, Shared.deliver, receive_eq, Archive.receive_event hj _ i hv, hqueue]
    exact ⟨_, by simp only [Hub.inbox, List.cons_append, List.filterMap_cons, if_true]; rfl⟩
  exact ⟨_, RelayClient.publish_of_ok rfl (by rw [hyield]; rfl) hreply
    (parseRelayMessage_frame hj (by simp)) timeout, by rw [hyield]; rfl⟩

end Board

/-! ## Polling -/

namespace RelayClient

/-- A way to poll: the event that a poll brings, if any, and the client after it. -/
abbrev Poller (σ : Type) := Duration → RelayClient σ → Option (String × Event) × RelayClient σ

/-- Polling several times. -/
def pollAll {σ : Type} (poller : Poller σ) :
    List Duration → RelayClient σ → List (String × Event) × RelayClient σ
  | [], client => ([], client)
  | timeout :: timeouts, client =>
    let (event, client') := poller timeout client
    (pollAll poller timeouts client').map (event.toList ++ ·) id

section

variable (C : Crates) {σ : Type} [RelayConnection σ] [Clock σ]

/-- Polling for events. -/
def eventPoller : Poller σ := fun timeout client =>
  match pollEvent C timeout client with
  | (.ok event, client') => (event, client')
  | (.error _, client') => (none, client')

/-- Polling for messages, and subscribing again on a challenge, since the relay may have
    dropped the subscription. -/
def rearmingPoller (subId : String) (filter : Filter) : Poller σ := fun timeout client =>
  match poll C timeout client with
  | (.ok (some (.auth _)), client') => (none, (subscribe C subId filter client').2)
  | (.ok (some (.event s event)), client') =>
    (if event.verify C then some (s, event) else none, client')
  | (_, client') => (none, client')

end

variable {C : Crates} {ρ : Type} {j : Nat} {client client' : RelayClient (Shared ρ j)}
  {timeout : Duration} {stored : ρ → List Event} {opened : ρ → Nat → String → Filter → Prop}
  {subId : String} {filter : Filter} {seen : List (String × Event)} {poller : Poller (Shared ρ j)}

/-- A way to poll that reads the first frame not read yet and keeps listening. -/
structure Attentive (C : Crates) (stored : ρ → List Event)
    (opened : ρ → Nat → String → Filter → Prop) (subId : String) (filter : Filter)
    (poller : Poller (Shared ρ j)) : Prop where
  listens : ∀ timeout (client : RelayClient (Shared ρ j)) seen, client.signer.Signs →
    client.conn.Listens C stored opened subId filter seen →
    ∃ event client', poller timeout client = (event, client') ∧
      client'.signer = client.signer ∧
      client'.conn.Listens C stored opened subId filter (seen ++ event.toList)
  reads : ∀ timeout (client : RelayClient (Shared ρ j)) text queue, client.signer.Signs →
    client.conn.queue = text :: queue →
    ∃ client', poller timeout client = (heard C text, client') ∧
      queue <+: client'.conn.queue ∧ client'.signer = client.signer

/-- What holds between two polls holds after any number of them. -/
theorem Attentive.pollAll_listens (hp : Attentive C stored opened subId filter poller)
    (timeouts : List Duration) (hs : client.signer.Signs)
    (h : client.conn.Listens C stored opened subId filter seen) :
    (pollAll poller timeouts client).2.signer = client.signer ∧
      (pollAll poller timeouts client).2.conn.Listens C stored opened subId filter
        (seen ++ (pollAll poller timeouts client).1) := by
  induction timeouts generalizing client seen with
  | nil => exact ⟨rfl, by rw [pollAll, List.append_nil]; exact h⟩
  | cons timeout timeouts ih =>
    obtain ⟨event, client', hpoll, hsigner, hlistens⟩ := hp.listens timeout client seen hs h
    obtain ⟨hsigner', hlistens'⟩ := ih (hsigner ▸ hs) hlistens
    simp only [pollAll, hpoll, Prod.map_fst, Prod.map_snd, id_eq, ← List.append_assoc]
    exact ⟨hsigner'.trans hsigner, hlistens'⟩

/-- A frame that is there is read as soon as those before it have been. -/
theorem Attentive.mem_pollAll_of_queue (hp : Attentive C stored opened subId filter poller)
    {x : String × Event} {text : String} (hheard : heard C text = some x)
    {before after : List String} {timeouts : List Duration} (hs : client.signer.Signs)
    (hqueue : client.conn.queue = before ++ text :: after)
    (hlength : before.length < timeouts.length) : x ∈ (pollAll poller timeouts client).1 := by
  induction before generalizing client timeouts after with
  | nil =>
    obtain _ | ⟨timeout, timeouts⟩ := timeouts
    · exact absurd hlength (Nat.not_lt_zero _)
    obtain ⟨client', hpoll, -, -⟩ := hp.reads timeout client _ _ hs hqueue
    simp only [pollAll, hpoll, Prod.map_fst, hheard]
    exact List.mem_append_left _ (Option.mem_toList.2 rfl)
  | cons first before ih =>
    obtain _ | ⟨timeout, timeouts⟩ := timeouts
    · exact absurd hlength (Nat.not_lt_zero _)
    obtain ⟨client', hpoll, ⟨more, hmore⟩, hsigner⟩ := hp.reads timeout client _ _ hs hqueue
    have hqueue' : client'.conn.queue = before ++ text :: (after ++ more) := by
      rw [← hmore]
      simp
    simp only [pollAll, hpoll, Prod.map_fst]
    exact List.mem_append_right _ (ih (hsigner ▸ hs) hqueue' (Nat.lt_of_succ_lt_succ hlength))

/-- Polls after others. -/
theorem pollAll_append_fst (poller : Poller (Shared ρ j)) (timeouts more : List Duration)
    (client : RelayClient (Shared ρ j)) : (pollAll poller (timeouts ++ more) client).1 =
      (pollAll poller timeouts client).1 ++
        (pollAll poller more (pollAll poller timeouts client).2).1 := by
  induction timeouts generalizing client with
  | nil => rfl
  | cons timeout timeouts ih =>
    simp only [List.cons_append, pollAll, ih, Prod.map_fst, Prod.map_snd, id_eq, List.append_assoc]

/-- What is stored and matches after some polls has been polled, or is polled next. -/
theorem Attentive.mem_pollAll_of_stored (hp : Attentive C stored opened subId filter poller)
    (hverified : ∀ (r : ρ), ∀ e ∈ stored r, e.verify C = true) (hs : client.signer.Signs)
    (h : client.conn.Listens C stored opened subId filter []) (timeouts more : List Duration)
    (hmore : (pollAll poller timeouts client).2.conn.queue.length ≤ more.length) {e : Event}
    (he : e ∈ stored (pollAll poller timeouts client).2.conn.hub)
    (hmatches : filter.matches e = true) :
    (subId, e) ∈ (pollAll poller (timeouts ++ more) client).1 := by
  obtain ⟨hsigner, hlistens⟩ := hp.pollAll_listens timeouts hs h
  rw [pollAll_append_fst]
  rcases hlistens.arrives e he hmatches with hseen | ⟨text, htext, hparse⟩
  · exact List.mem_append_left _ hseen
  · obtain ⟨before, after, hqueue⟩ := List.append_of_mem htext
    refine List.mem_append_right _ (hp.mem_pollAll_of_queue ?_ (hsigner ▸ hs) hqueue ?_)
    · simp [heard, hparse, hverified _ e he]
    · rw [hqueue] at hmore
      simp only [List.length_append, List.length_cons] at hmore
      omega

/-- What is stored and matches after a client has subscribed and polled some times has been
    polled, or is as soon as the frames that have arrived have been read. -/
theorem Attentive.mem_pollAll_of_subscribe [Hub ρ]
    (hp : Attentive C stored opened subId filter.withoutEmpty poller)
    (hf : Forwards C ρ stored opened) (hs : client.signer.Signs) (hlimit : filter.limit = none)
    (timeouts more : List Duration) {events : List (String × Event)}
    {listening : RelayClient (Shared ρ j)}
    (hlistening : pollAll poller timeouts (subscribe C subId filter client).2 =
      (events, listening))
    (hmore : listening.conn.queue.length ≤ more.length) {e : Event}
    (he : e ∈ stored listening.conn.hub) (hmatches : filter.withoutEmpty.matches e = true) :
    (subId, e) ∈ (pollAll poller (timeouts ++ more) (subscribe C subId filter client).2).1 := by
  have hstart : (subscribe C subId filter client).2.conn.Listens C stored opened subId
      filter.withoutEmpty [] := .deliver_req hf hlimit
  have hsigner : (subscribe C subId filter client).2.signer.Signs := hs
  refine hp.mem_pollAll_of_stored hf.verified hsigner hstart timeouts more ?_ ?_ hmatches
  · rwa [hlistening]
  · rwa [hlistening]

variable [Hub ρ] [Clock (Shared ρ j)] (hf : Forwards C ρ stored opened) (hx : C.hex.RoundTrips)

include hf hx in
/-- Receiving a message while listening. The answer to a challenge may close the
    subscription. -/
theorem recvMsg_listens (timeout : Duration) (hs : client.signer.Signs)
    (h : client.conn.Listens C stored opened subId filter seen) :
    ∃ client', client'.signer = client.signer ∧
      ((recvMsg C timeout client = (.ok none, client') ∧
          client'.conn.Listens C stored opened subId filter seen) ∨
        ∃ text, recvMsg C timeout client = (.ok (some (parseRelayMessage C text)), client') ∧
          ∃ s : Shared ρ j, s.Listens C stored opened subId filter (seen ++ (heard C text).toList) ∧
            if (parseRelayMessage C text).isAuth then
              ∃ auth, client'.conn = s.deliver (j, C.json.toString (authFrame auth))
            else client'.conn = s) := by
  have hy := h.yield hf
  cases hq : client.conn.yield.queue with
  | nil =>
    have hconn : onConn (RelayConnection.recv timeout) client =
        (.ok none, { client with conn := client.conn.yield }) := by
      simp only [onConn, RelayConnection.recv, hq]
    refine ⟨{ client with conn := client.conn.yield }, rfl, .inl ⟨?_, hy⟩⟩
    rw [recvMsg, Eff.bind_ok hconn]
    rfl
  | cons text queue =>
    have hread := hy.read hf hq
    let client₁ : RelayClient (Shared ρ j) :=
      { client with conn := { client.conn.yield with queue } }
    have hconn : onConn (RelayConnection.recv timeout) client = (.ok (some text), client₁) := by
      simp only [onConn, RelayConnection.recv, hq]
      rfl
    cases ha : (parseRelayMessage C text).isAuth with
    | false =>
      refine ⟨client₁, rfl, .inr ⟨text, recvMsg_of_recv hconn ha, client₁.conn, hread, ?_⟩⟩
      rw [ha]
      rfl
    | true =>
      obtain ⟨challenge, hp⟩ := RelayMessage.isAuth_eq_true_iff.1 ha
      obtain ⟨auth, hrecv⟩ := recvMsg_of_challenge hconn hp hx hs
      refine ⟨(sendFrame C (authFrame auth) client₁).2, rfl,
        .inr ⟨text, hrecv, client₁.conn.yield, hread.yield hf, ?_⟩⟩
      rw [ha, if_pos rfl]
      exact ⟨auth, rfl⟩

/-- What polling for events does when a message is received. -/
theorem eventPoller_of_message {text : String}
    (hrecv : recvMsg C timeout client = (.ok (some (parseRelayMessage C text)), client')) :
    eventPoller C timeout client = (heard C text, client') := by
  rw [eventPoller, pollEvent, Eff.bind_ok hrecv, heard]
  cases parseRelayMessage C text with
  | event s event => by_cases hv : event.verify C = true <;> simp [hv]
  | _ => rfl

/-- What polling and subscribing again does when a message is received. -/
theorem rearmingPoller_of_message {text : String}
    (hrecv : recvMsg C timeout client = (.ok (some (parseRelayMessage C text)), client')) :
    rearmingPoller C subId filter timeout client = (heard C text,
      if (parseRelayMessage C text).isAuth then (subscribe C subId filter client').2
        else client') := by
  rw [rearmingPoller, poll, hrecv, heard]
  cases parseRelayMessage C text with
  | _ => rfl

include hf hx

/-- Polling for events keeps listening, if the relay keeps the subscription when the
    client authenticates. -/
theorem attentive_eventPoller (hauth : KeepsOnAuth C opened) :
    Attentive C stored opened subId filter (eventPoller C : Poller (Shared ρ j)) where
  listens timeout client seen hs h := by
    obtain ⟨client', hsigner, ⟨hrecv, hlistens⟩ | ⟨text, hrecv, s, hlistens, hconn⟩⟩ :=
      recvMsg_listens hf hx timeout hs h
    · refine ⟨none, client', ?_, hsigner, by rwa [Option.toList_none, List.append_nil]⟩
      rw [eventPoller, pollEvent, Eff.bind_ok hrecv]
      rfl
    · refine ⟨_, client', eventPoller_of_message hrecv, hsigner, ?_⟩
      split at hconn
      · obtain ⟨auth, heq⟩ := hconn
        rw [heq]
        exact hlistens.deliver hf (hauth _ _ _ _ auth hlistens.isOpen)
      · rw [hconn]
        exact hlistens
  reads timeout client text queue hs hqueue := by
    obtain ⟨client', hrecv, hgrows, hsigner⟩ := recvMsg_shared hx hs timeout hqueue
    exact ⟨client', eventPoller_of_message hrecv, hgrows, hsigner⟩

/-- Polling and subscribing again keeps listening. -/
theorem attentive_rearmingPoller (hlimit : filter.limit = none) :
    Attentive C stored opened subId filter.withoutEmpty
      (rearmingPoller C subId filter : Poller (Shared ρ j)) where
  listens timeout client seen hs h := by
    obtain ⟨client', hsigner, ⟨hrecv, hlistens⟩ | ⟨text, hrecv, s, hlistens, hconn⟩⟩ :=
      recvMsg_listens hf hx timeout hs h
    · refine ⟨none, client', ?_, hsigner, by rwa [Option.toList_none, List.append_nil]⟩
      rw [rearmingPoller, poll, hrecv]
    · refine ⟨_, _, rearmingPoller_of_message hrecv, ?_, ?_⟩
      · split
        · exact hsigner
        · exact hsigner
      · cases ha : (parseRelayMessage C text).isAuth with
        | true => exact .deliver_req hf hlimit
        | false =>
          rw [ha, if_neg Bool.false_ne_true] at hconn
          rw [if_neg Bool.false_ne_true, hconn]
          exact hlistens
  reads timeout client text queue hs hqueue := by
    obtain ⟨client', hrecv, hgrows, hsigner⟩ := recvMsg_shared hx hs timeout hqueue
    refine ⟨_, rearmingPoller_of_message hrecv, ?_, ?_⟩
    · split
      · exact hgrows.trans (Shared.grows_send _ client'.conn).2
      · exact hgrows
    · split
      · exact hsigner
      · exact hsigner

omit hf hx

/-! ## The others meanwhile -/

/-- While a message is received, the relay goes on from where the others have left it. -/
theorem evolves_recvMsg_yield (C : Crates) (timeout : Duration)
    (client : RelayClient (Shared ρ j)) :
    Hub.Evolves client.conn.yield.hub (recvMsg C timeout client).2.conn.hub := by
  -- The turn of the others may as well be before the message is received.
  let client' : RelayClient (Shared ρ j) :=
    { client with conn := { client.conn.yield with others := [] :: client.conn.yield.others } }
  have hrecv : onConn (RelayConnection.recv timeout) client =
      onConn (RelayConnection.recv timeout) client' := rfl
  have hsame : recvMsg C timeout client = recvMsg C timeout client' := by
    simp only [recvMsg, Eff.bind_apply, hrecv]
  rw [hsame]
  exact evolves_recvMsg timeout client'

theorem evolves_eventPoller (C : Crates) (timeout : Duration) (client : RelayClient (Shared ρ j)) :
    Hub.Evolves client.conn.yield.hub (eventPoller C timeout client).2.conn.hub := by
  have hrecv := evolves_recvMsg_yield C timeout client
  rcases hm : recvMsg C timeout client with ⟨_ | _ | m, client'⟩
  all_goals
    rw [hm] at hrecv
    simp only [eventPoller, pollEvent, Eff.bind_apply, hm]
  · exact hrecv
  · exact hrecv
  · cases m with
    | event s event => by_cases hv : event.verify C = true <;> simp only [hv] <;> exact hrecv
    | _ => exact hrecv

theorem evolves_rearmingPoller (C : Crates) (subId : String) (filter : Filter)
    (timeout : Duration) (client : RelayClient (Shared ρ j)) :
    Hub.Evolves client.conn.yield.hub
      (rearmingPoller C subId filter timeout client).2.conn.hub := by
  have hrecv := evolves_recvMsg_yield C timeout client
  unfold rearmingPoller poll
  split
  · next h =>
    rw [h] at hrecv
    exact hrecv.trans (Shared.grows_send _ _).1
  · next h =>
    rw [h] at hrecv
    exact hrecv
  · next h =>
    rw [h] at hrecv
    exact hrecv

omit [Clock (Shared ρ j)] in
/-- A frame that another client sends between the subscription and the first poll has
    reached the relay after the poll. -/
theorem evolves_pollAll (C : Crates) (hpoller : ∀ timeout (client : RelayClient (Shared ρ j)),
      Hub.Evolves client.conn.yield.hub (poller timeout client).2.conn.hub)
    (client : RelayClient (Shared ρ j)) {i : Nat} {text : String} {hi : i ≠ j}
    {others : List (List {frame : Nat × String // frame.1 ≠ j})}
    (hothers : client.conn.others = [] :: [⟨(i, text), hi⟩] :: others) (subId : String)
    (filter : Filter) (timeout : Duration) :
    Hub.Evolves
      (Hub.receive (Hub.receive client.conn.hub j (C.json.toString (reqFrame subId filter))).1 i
        text).1
      (pollAll poller [timeout] (subscribe C subId filter client).2).2.conn.hub := by
  have hyield : client.conn.yield = { client.conn with others := [⟨(i, text), hi⟩] :: others } := by
    rw [Shared.yield, hothers]
    rfl
  have hconn : (subscribe C subId filter client).2.conn =
      client.conn.yield.deliver (j, C.json.toString (reqFrame subId filter)) := rfl
  have h := hpoller timeout (subscribe C subId filter client).2
  rw [hconn, hyield] at h
  exact h

/-- The client 1 listens on the board, and the client 0 publishes to it before the poll. -/
theorem exists_board (poller : Poller (Shared (Board Reference.crates) 1))
    (hpoller : ∀ timeout client,
      Hub.Evolves client.conn.yield.hub (poller timeout client).2.conn.hub) :
    ∃ (e : Event) (client : RelayClient (Shared (Board Reference.crates) 1))
      (events : List (String × Event))
      (listening : RelayClient (Shared (Board Reference.crates) 1)),
      client.signer.Signs ∧ client.conn.hub.events = [] ∧
      pollAll poller [5] (subscribe Reference.crates "dm" {} client).2 = (events, listening) ∧
      e ∈ listening.conn.hub.events := by
  obtain ⟨event, hv⟩ := Reference.exists_verified
  let client : RelayClient (Shared (Board Reference.crates) 1) := .new
    { hub := { archive := { stored := [] }, subs := [] }, queue := []
      others := [[], [⟨(0, Reference.crates.json.toString (eventFrame event)), Nat.zero_ne_one⟩]] }
    "wss://relay.example" (Reference.signer Reference.one).toSigner
  have hlater := evolves_pollAll Reference.crates hpoller client rfl "dm" {} 5
  obtain ⟨⟨events, listening⟩, hlistening⟩ : ∃ result,
    pollAll poller [5] (subscribe Reference.crates "dm" {} client).2 = result := ⟨_, rfl⟩
  rw [hlistening] at hlater
  exact ⟨event, client, events, listening, Reference.signer_signs Reference.one, rfl, hlistening,
    Board.mem_events_of_evolves hlater
      (Board.mem_events_receive Reference.json_roundTrips _ 0 hv)⟩

/-! ## Nothing is missed -/

include hf hx in
/-- A client that subscribes, polls, and subscribes again on every challenge misses
    nothing: what is stored and matches, be it from before the subscription or after, has
    been polled, or is as soon as the frames that have arrived have been read. -/
theorem rearming_listener_misses_nothing (client : RelayClient (Shared ρ j))
    (hs : client.signer.Signs) (subId : String) (filter : Filter) (hlimit : filter.limit = none)
    (timeouts more : List Duration) {events : List (String × Event)}
    {listening : RelayClient (Shared ρ j)}
    (hlistening : pollAll (rearmingPoller C subId filter) timeouts
      (subscribe C subId filter client).2 = (events, listening))
    (hmore : listening.conn.queue.length ≤ more.length) {e : Event}
    (he : e ∈ stored listening.conn.hub) (hmatches : filter.withoutEmpty.matches e = true) :
    (subId, e) ∈ (pollAll (rearmingPoller C subId filter) (timeouts ++ more)
      (subscribe C subId filter client).2).1 :=
  (attentive_rearmingPoller hf hx hlimit).mem_pollAll_of_subscribe hf hs hlimit timeouts
    more hlistening hmore he hmatches

theorem rearming_listener_misses_nothing_board :
    ∃ (e : Event) (client : RelayClient (Shared (Board Reference.crates) 1))
      (more : List Duration), client.conn.hub.events = [] ∧
      ("dm", e) ∈ (pollAll (rearmingPoller Reference.crates "dm" {}) ([5] ++ more)
        (subscribe Reference.crates "dm" {} client).2).1 := by
  obtain ⟨e, client, events, listening, hs, hempty, hlistening, he⟩ :=
    exists_board _ (evolves_rearmingPoller Reference.crates "dm" {})
  exact ⟨e, client, List.replicate listening.conn.queue.length 5, hempty,
    rearming_listener_misses_nothing (Board.forwards Reference.json_roundTrips)
      Reference.hex_roundTrips client hs "dm" {} rfl [5] _ hlistening
      (by rw [List.length_replicate]) he rfl⟩

include hf hx in
/-- A client that subscribes and polls for events misses nothing either, if the relay
    keeps the subscription when the client authenticates. -/
theorem listener_misses_nothing (hauth : KeepsOnAuth C opened) (client : RelayClient (Shared ρ j))
    (hs : client.signer.Signs) (subId : String) (filter : Filter) (hlimit : filter.limit = none)
    (timeouts more : List Duration) {events : List (String × Event)}
    {listening : RelayClient (Shared ρ j)}
    (hlistening : pollAll (eventPoller C) timeouts (subscribe C subId filter client).2 =
      (events, listening))
    (hmore : listening.conn.queue.length ≤ more.length) {e : Event}
    (he : e ∈ stored listening.conn.hub) (hmatches : filter.withoutEmpty.matches e = true) :
    (subId, e) ∈ (pollAll (eventPoller C) (timeouts ++ more)
      (subscribe C subId filter client).2).1 :=
  (attentive_eventPoller hf hx hauth).mem_pollAll_of_subscribe hf hs hlimit timeouts
    more hlistening hmore he hmatches

theorem listener_misses_nothing_board :
    ∃ (e : Event) (client : RelayClient (Shared (Board Reference.crates) 1))
      (more : List Duration), client.conn.hub.events = [] ∧
      ("dm", e) ∈ (pollAll (eventPoller Reference.crates) ([5] ++ more)
        (subscribe Reference.crates "dm" {} client).2).1 := by
  obtain ⟨e, client, events, listening, hs, hempty, hlistening, he⟩ :=
    exists_board _ (evolves_eventPoller Reference.crates)
  exact ⟨e, client, List.replicate listening.conn.queue.length 5, hempty,
    listener_misses_nothing (Board.forwards Reference.json_roundTrips)
      Reference.hex_roundTrips (Board.keepsOnAuth Reference.json_roundTrips) client hs "dm" {} rfl
      [5] _ hlistening (by rw [List.length_replicate]) he rfl⟩

end RelayClient

end UnicityNostr
