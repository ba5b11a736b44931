import Mathlib.Data.List.Basic
import UnicityNostr.Client.Multi
import UnicityNostr.Client.Run
import UnicityNostr.Reference

/-!
# A subscription on several relays

* `clients_subscribeAll`: what is left of opening a subscription on relays of which
  one fails;
* `subscribe_uniform_iff`: the subscription is open on all working relays or on none
  if and only if no working relay comes before the first one that fails, or none
  after it.
-/

namespace UnicityNostr.MultiRelayClient

variable (C : Crates) {σ : Type} [RelayConnection σ] (subId : String) (filter : Filter)

/-- The client with a record of each connection. -/
def recorded {σ : Type} (multi : MultiRelayClient σ) : MultiRelayClient (Recorded σ) :=
  { clients := multi.clients.map RelayClient.recorded }

/-- The connection of the relay takes the frame of the subscription. -/
def accepts (client : RelayClient σ) : Bool :=
  (RelayClient.subscribe C subId filter client).1.isOk

/-- The subscription is open on the relay. -/
def OpenOn (client : RelayClient (Recorded σ)) : Prop :=
  .sent (C.json.toString (RelayClient.reqFrame subId filter)) (.ok ()) ∈ client.conn.log

/-- After subscribing, the subscription is open on all relays whose connections take
    frames, or on none. -/
def Uniform (multi : MultiRelayClient σ) : Prop :=
  (∀ p ∈ multi.clients.zip (subscribe C subId filter multi.recorded).2.clients,
    accepts C subId filter p.1 = true → OpenOn C subId filter p.2) ∨
  ∀ client ∈ (subscribe C subId filter multi.recorded).2.clients, ¬OpenOn C subId filter client

variable {C subId filter} {client : RelayClient σ} {clients before after : List (RelayClient σ)}
  {failing : RelayClient σ}

/-- The relay after it has been sent the subscription. -/
def asked (C : Crates) (subId : String) (filter : Filter) (client : RelayClient σ) :
    RelayClient (Recorded σ) :=
  (RelayClient.subscribe C subId filter client.recorded).2

theorem openOn_asked :
    OpenOn C subId filter (asked C subId filter client) ↔ accepts C subId filter client = true := by
  have hlog : (asked C subId filter client).conn.log =
      [.sent (C.json.toString (RelayClient.reqFrame subId filter))
        (RelayClient.subscribe C subId filter client).1] := rfl
  rw [OpenOn, hlog, List.mem_singleton, accepts]
  rcases RelayClient.subscribe C subId filter client with ⟨e | ⟨⟩, client'⟩
  · simp [Except.isOk, Except.toBool]
  · simp [Except.isOk, Except.toBool]

omit [RelayConnection σ] in
theorem not_openOn_recorded : ¬OpenOn C subId filter client.recorded := List.not_mem_nil

theorem subscribe_recorded (client : RelayClient σ) :
    RelayClient.subscribe C subId filter client.recorded =
      ((RelayClient.subscribe C subId filter client).1, asked C subId filter client) := rfl

/-- After a relay that takes the frame, the next ones are asked. -/
theorem subscribeAll_cons (h : accepts C subId filter client = true)
    (rest : List (RelayClient (Recorded σ))) :
    (subscribeAll C subId filter (client.recorded :: rest)).2 =
      asked C subId filter client :: (subscribeAll C subId filter rest).2 := by
  rw [accepts] at h
  rw [subscribeAll, subscribe_recorded]
  rcases hsub : RelayClient.subscribe C subId filter client with ⟨e | ⟨⟩, client'⟩
  · rw [hsub] at h
    cases h
  · rfl

/-- All relays are asked if none fails. -/
theorem clients_subscribeAll_of_accepts
    (h : ∀ client ∈ clients, accepts C subId filter client = true) :
    (subscribeAll C subId filter (clients.map RelayClient.recorded)).2 =
      clients.map (asked C subId filter) := by
  induction clients with
  | nil => rfl
  | cons client clients ih =>
    obtain ⟨hclient, hclients⟩ := List.forall_mem_cons.1 h
    rw [List.map_cons, List.map_cons, subscribeAll_cons hclient, ih hclients]

/-- The relays after the first one that fails are not asked. -/
theorem clients_subscribeAll (h : ∀ client ∈ before, accepts C subId filter client = true)
    (hfailing : accepts C subId filter failing = false) :
    (subscribeAll C subId filter ((before ++ failing :: after).map RelayClient.recorded)).2 =
      before.map (asked C subId filter) ++ asked C subId filter failing ::
        after.map RelayClient.recorded := by
  induction before with
  | nil =>
    rw [List.nil_append, List.map_cons, subscribeAll, subscribe_recorded]
    rw [accepts] at hfailing
    rcases hsub : RelayClient.subscribe C subId filter failing with ⟨e | ⟨⟩, client'⟩
    · rfl
    · rw [hsub] at hfailing
      cases hfailing
  | cons client before ih =>
    obtain ⟨hclient, hbefore⟩ := List.forall_mem_cons.1 h
    rw [List.cons_append, List.map_cons, List.map_cons, List.cons_append,
      subscribeAll_cons hclient, ih hbefore]

theorem uniform_of_accepts (h : ∀ client ∈ clients, accepts C subId filter client = true) :
    Uniform C subId filter { clients } := by
  refine .inl fun p hp _ => ?_
  have hclients : (subscribe C subId filter (recorded { clients })).2.clients =
      clients.map (asked C subId filter) := clients_subscribeAll_of_accepts h
  rw [hclients, ← List.map_prod_left_eq_zip] at hp
  obtain ⟨client, hclient, rfl⟩ := List.mem_map.1 hp
  exact openOn_asked.2 (h client hclient)

/-- With a relay that fails, the subscription is open on those before it only. -/
theorem uniform_iff_of_failing (h : ∀ client ∈ before, accepts C subId filter client = true)
    (hfailing : accepts C subId filter failing = false) :
    Uniform C subId filter { clients := before ++ failing :: after } ↔
      before = [] ∨ ∀ client ∈ after, accepts C subId filter client = false := by
  have hclients : (subscribe C subId filter
      (recorded { clients := before ++ failing :: after })).2.clients = _ :=
    clients_subscribeAll h hfailing
  rw [Uniform, hclients, List.zip_append (List.length_map _).symm, List.zip_cons_cons,
    ← List.map_prod_left_eq_zip, ← List.map_prod_left_eq_zip]
  constructor
  · rintro (hall | hnone)
    · refine .inr fun client hclient => Bool.eq_false_iff.2 fun haccepts => ?_
      have hmem : (client, client.recorded) ∈ after.map fun c => (c, c.recorded) :=
        List.mem_map_of_mem hclient
      exact not_openOn_recorded (hall _ (List.mem_append_right _ (List.mem_cons_of_mem _ hmem))
        haccepts)
    · refine .inl (List.eq_nil_iff_forall_not_mem.2 fun client hclient => ?_)
      exact hnone _ (List.mem_append_left _ (List.mem_map_of_mem hclient))
        (openOn_asked.2 (h client hclient))
  · rintro (rfl | hafter)
    · -- The first relay fails, and no other one has been asked.
      refine .inr fun client hclient => ?_
      rcases List.mem_cons.1 hclient with rfl | hclient
      · rw [openOn_asked, hfailing]
        exact Bool.false_ne_true
      · obtain ⟨c, -, rfl⟩ := List.mem_map.1 hclient
        exact not_openOn_recorded
    · refine .inl fun p hp haccepts => ?_
      rcases List.mem_append.1 hp with hp | hp
      · obtain ⟨client, -, rfl⟩ := List.mem_map.1 hp
        exact openOn_asked.2 haccepts
      rcases List.mem_cons.1 hp with rfl | hp
      · exact openOn_asked.2 haccepts
      · obtain ⟨client, hclient, rfl⟩ := List.mem_map.1 hp
        exact absurd haccepts (Bool.eq_false_iff.1 (hafter client hclient))

/-- The subscription is open on all working relays or on none if and only if no
    working relay comes before the first one that fails, or none after it. -/
theorem subscribe_uniform_iff (multi : MultiRelayClient σ) :
    Uniform C subId filter multi ↔ ∀ before failing after,
      multi.clients = before ++ failing :: after →
      (∀ client ∈ before, accepts C subId filter client = true) →
      accepts C subId filter failing = false →
      before = [] ∨ ∀ client ∈ after, accepts C subId filter client = false := by
  obtain ⟨clients⟩ := multi
  constructor
  · rintro huniform before failing after rfl hbefore hfailing
    exact (uniform_iff_of_failing hbefore hfailing).1 huniform
  · intro h
    cases hfind : clients.find? fun client => !accepts C subId filter client with
    | none =>
      refine uniform_of_accepts fun client hclient => ?_
      simpa using List.find?_eq_none.1 hfind client hclient
    | some failing =>
      obtain ⟨hfailing, before, after, rfl, hbefore⟩ := List.find?_eq_some_iff_append.1 hfind
      have hfailing : accepts C subId filter failing = false := by simpa using hfailing
      have hbefore : ∀ client ∈ before, accepts C subId filter client = true := by
        simpa using hbefore
      exact (uniform_iff_of_failing hbefore hfailing).2
        (h before failing after rfl hbefore hfailing)

/-- A connection that takes frames or not, and on which nothing arrives. -/
structure Line where
  up : Bool

instance : RelayConnection Line where
  send _ s := (if s.up then .ok () else .error (.malformed "connection closed"), s)
  recv _ s := (.ok none, s)
  close s := s

/-- A client of such a connection. -/
def lineClient (up : Bool) : RelayClient Line :=
  .new { up } "wss://relay.example" (Reference.signer Reference.one).toSigner

/-- A relay that fails between two that work: the subscription is open on the first one
    only. -/
theorem failing_relay_ends_subscribe :
    ¬∀ (σ : Type) [RelayConnection σ] (subId : String) (filter : Filter)
      (multi : MultiRelayClient σ), Uniform Reference.crates subId filter multi := by
  intro hclaim
  have hbefore : ∀ client ∈ [lineClient true],
      accepts Reference.crates "dm" {} client = true := by
    rw [List.forall_mem_singleton]
    rfl
  rcases (uniform_iff_of_failing hbefore rfl).1
    (hclaim Line "dm" {} { clients := [lineClient true] ++ lineClient false :: [lineClient true] })
    with h | h
  · exact List.cons_ne_nil _ _ h
  · exact Bool.false_ne_true (h _ (List.mem_singleton_self _)).symm

end UnicityNostr.MultiRelayClient
