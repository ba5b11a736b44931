import Mathlib.Logic.Relation
import UnicityNostr.Client.Invariant
import UnicityNostr.Event.Address
import UnicityNostr.Filter.Wire

/-!
# Relays shared by several clients

A relay serves several clients, the frames of which reach it one by one (`Hub`).
The connection of a client carries a schedule of what the others send before each
of its operations (`Shared`), so that what holds for every schedule holds for every
interleaving of the client's frames with those of the others.

* `Shared.grows_yield`, `Shared.grows_send`: meanwhile the relay goes on, and frames
  are added to those not read yet;
* `Stores`: the relays that keep what they acknowledge, as far as it is not
  replaced, and serve what they keep.
-/

namespace UnicityNostr

/-! ## Relays and connections -/

/-- A relay with several clients, in the state `ρ`: a frame of a client changes the
    state, and frames are sent to clients. -/
class Hub (ρ : Type) where
  receive : ρ → Nat → String → ρ × List (Nat × String)

namespace Hub

variable {ρ : Type} [Hub ρ]

/-- The frames for the client `i`. -/
def inbox (i : Nat) (out : List (Nat × String)) : List String :=
  out.filterMap fun frame => if frame.1 = i then some frame.2 else none

theorem mem_inbox {i : Nat} {out : List (Nat × String)} {text : String} :
    text ∈ inbox i out ↔ (i, text) ∈ out := by
  simp only [inbox, List.mem_filterMap, Option.ite_none_right_eq_some, Option.some.injEq]
  constructor
  · rintro ⟨⟨j, t⟩, h, rfl, rfl⟩
    exact h
  · exact fun h => ⟨_, h, rfl, rfl⟩

/-- Replies to one client are all for that client. -/
theorem inbox_map {α : Type} (i : Nat) (f : α → String) (ms : List α) :
    inbox i (ms.map fun m => (i, f m)) = ms.map f := by
  rw [inbox, List.filterMap_map, ← List.filterMap_eq_map]
  exact List.filterMap_congr fun m _ => if_pos rfl

/-- The relay works through frames of any clients. -/
def Evolves : ρ → ρ → Prop :=
  Relation.ReflTransGen fun r r' => ∃ i text, r' = (receive r i text).1

theorem evolves_receive (r : ρ) (i : Nat) (text : String) : Evolves r (receive r i text).1 :=
  .single ⟨i, text, rfl⟩

end Hub

/-- The connection of the client `i`: the relay, the frames the client has not read
    yet, and those the others send before each of its operations. -/
structure Shared (ρ : Type) (i : Nat) where
  hub : ρ
  queue : List String
  others : List (List {frame : Nat × String // frame.1 ≠ i})

namespace Shared

variable {ρ : Type} [Hub ρ] {i : Nat}

/-- A frame reaches the relay. -/
def deliver (s : Shared ρ i) (frame : Nat × String) : Shared ρ i :=
  { s with
    hub := (Hub.receive s.hub frame.1 frame.2).1
    queue := s.queue ++ Hub.inbox i (Hub.receive s.hub frame.1 frame.2).2 }

/-- It is the others' turn. -/
def yield (s : Shared ρ i) : Shared ρ i :=
  match s.others with
  | [] => s
  | batch :: others => batch.foldl (fun s frame => s.deliver frame.1) { s with others }

instance : RelayConnection (Shared ρ i) where
  send text s := (.ok (), s.yield.deliver (i, text))
  recv _ s :=
    match s.yield.queue with
    | [] => (.ok none, s.yield)
    | text :: queue => (.ok (some text), { s.yield with queue })
  close s := s

/-- A relation that the frames of the others are in is one that their turn is in. -/
theorem related_yield {R : Shared ρ i → Shared ρ i → Prop} (hrefl : ∀ s, R s s)
    (htrans : ∀ s s' s'', R s s' → R s' s'' → R s s'')
    (hothers : ∀ s others, R s { s with others })
    (hdeliver : ∀ s (frame : Nat × String), frame.1 ≠ i → R s (s.deliver frame))
    (s : Shared ρ i) : R s s.yield := by
  rw [yield]
  split
  · exact hrefl s
  · rename_i batch others hothers'
    clear hothers'
    refine htrans _ _ _ (hothers s others) ?_
    generalize { s with others } = s
    induction batch generalizing s with
    | nil => exact hrefl s
    | cons frame batch ih =>
      rw [List.foldl_cons]
      exact htrans _ _ _ (hdeliver s _ frame.2) (ih _)

/-- The relay goes on, and frames are added to those not read yet. -/
def Grows (s s' : Shared ρ i) : Prop :=
  Hub.Evolves s.hub s'.hub ∧ s.queue <+: s'.queue

theorem Grows.refl (s : Shared ρ i) : Grows s s := ⟨.refl, List.prefix_rfl⟩

theorem Grows.trans {s s' s'' : Shared ρ i} (h : Grows s s') (h' : Grows s' s'') : Grows s s'' :=
  ⟨Relation.ReflTransGen.trans h.1 h'.1, h.2.trans h'.2⟩

theorem grows_deliver (s : Shared ρ i) (frame : Nat × String) : Grows s (s.deliver frame) :=
  ⟨Hub.evolves_receive _ _ _, List.prefix_append _ _⟩

theorem grows_yield (s : Shared ρ i) : Grows s s.yield :=
  related_yield Grows.refl (fun _ _ _ => Grows.trans) (fun s _ => Grows.refl s)
    (fun s frame _ => grows_deliver s frame) s

theorem grows_send (text : String) (s : Shared ρ i) :
    Grows s (RelayConnection.send text s).2 := (grows_yield s).trans (grows_deliver _ _)

/-- The first frame not read yet is received, and the relay goes on meanwhile. -/
theorem recv_of_cons {text : String} {queue : List String} {s : Shared ρ i} (timeout : Duration)
    (h : s.queue = text :: queue) :
    ∃ s', RelayConnection.recv timeout s = (.ok (some text), s') ∧ queue <+: s'.queue := by
  obtain ⟨-, more, hmore⟩ := grows_yield s
  rw [h, List.cons_append] at hmore
  refine ⟨{ s.yield with queue := queue ++ more }, ?_, List.prefix_append _ _⟩
  simp only [RelayConnection.recv, ← hmore]

/-- What is received was not read yet after the turn of the others. -/
theorem mem_of_recv {timeout : Duration} {text : String} {s s' : Shared ρ i}
    (h : RelayConnection.recv timeout s = (.ok (some text), s')) :
    text ∈ s.yield.queue ∧ s'.hub = s.yield.hub := by
  simp only [RelayConnection.recv] at h
  split at h
  · cases (Prod.mk.inj h).1
  · rename_i text' queue hq
    obtain ⟨htext, rfl⟩ := Prod.mk.inj h
    obtain rfl := Option.some.inj (Except.ok.inj htext)
    exact ⟨hq ▸ List.mem_cons_self, rfl⟩

theorem evolves_recv (timeout : Duration) (s : Shared ρ i) :
    Hub.Evolves s.hub (RelayConnection.recv timeout s).2.hub := by
  have h := (grows_yield s).1
  simp only [RelayConnection.recv]
  split
  · exact h
  · exact h

end Shared

/-! ## Relays that store -/

/-- What the relay reports as accepted holds by then, and from then on. -/
structure Confirms (C : Crates) (ρ : Type) [Hub ρ] (holds : ρ → String → Prop) : Prop where
  keeps : ∀ (r : ρ) i text id, holds r id → holds (Hub.receive r i text).1 id
  reports : ∀ (r : ρ) i text j t id message, (j, t) ∈ (Hub.receive r i text).2 →
    parseRelayMessage C t = .ok id true message → holds (Hub.receive r i text).1 id

theorem Confirms.evolves {C : Crates} {ρ : Type} [Hub ρ] {holds : ρ → String → Prop}
    (ha : Confirms C ρ holds) {r r' : ρ} (h : Hub.Evolves r r') {id : String}
    (hid : holds r id) : holds r' id := by
  induction h with
  | refl => exact hid
  | tail _ hstep ih =>
    obtain ⟨i, text, rfl⟩ := hstep
    exact ha.keeps _ i text id ih

/-- The id is that of an event which is stored, or a later one in its place, unless it
    is ephemeral. -/
def Holds (C : Crates) {ρ : Type} (stored : ρ → List Event) (r : ρ) (id : String) : Prop :=
  ∃ e : Event, e.id = id ∧ e.verify C = true ∧
    (Kinds.isEphemeral e.kind = false → ∃ e' ∈ stored r, e.Succeeds e')

/-- A relay that stores what it acknowledges. -/
structure Stores (C : Crates) (ρ : Type) [Hub ρ] (stored : ρ → List Event) : Prop where
  /-- What is stored verifies. -/
  verified : ∀ (r : ρ), ∀ e ∈ stored r, e.verify C = true
  /-- What is stored stays, or a later event takes its place. -/
  keeps : ∀ (r : ρ) i text, ∀ e ∈ stored r, ∃ e' ∈ stored (Hub.receive r i text).1, e.Succeeds e'
  /-- Whoever is told that an event is accepted, it has been stored by then. -/
  acknowledges : ∀ (r : ρ) i text j t id message, (j, t) ∈ (Hub.receive r i text).2 →
    parseRelayMessage C t = .ok id true message → Holds C stored (Hub.receive r i text).1 id
  /-- A subscription without a limit is answered with what is stored that the filter
      matches, as it is on the wire, and with the end of the stored events. -/
  serves : ∀ (r : ρ) i subId filter, filter.limit = none → ∃ events : List Event,
    (messages C (Hub.inbox i (Hub.receive r i
      (C.json.toString (RelayClient.reqFrame subId filter))).2)).filter (·.onSub subId) =
        events.map (.event subId) ++ [.eose subId] ∧
      ∀ e ∈ stored r, filter.withoutEmpty.matches e = true → e ∈ events
  /-- A subscription of a client ends in answer to its own frames only. -/
  ends_own : ∀ (r : ρ) i text j t subId, (j, t) ∈ (Hub.receive r i text).2 →
    (parseRelayMessage C t).ends subId = true → j = i

namespace Stores

variable {C : Crates} {ρ : Type} [Hub ρ] {stored : ρ → List Event} (hr : Stores C ρ stored)
include hr

theorem confirms_holds : Confirms C ρ (Holds C stored) where
  keeps r i text id hid := by
    obtain ⟨e, heid, hv, hstored⟩ := hid
    refine ⟨e, heid, hv, fun heph => ?_⟩
    obtain ⟨e', he', hsucc⟩ := hstored heph
    obtain ⟨e'', he'', hsucc'⟩ := hr.keeps r i text e' he'
    exact ⟨e'', he'', hsucc.trans hsucc'⟩
  reports := hr.acknowledges

theorem holds_evolves {r r' : ρ} (h : Hub.Evolves r r') {id : String} (hid : Holds C stored r id) :
    Holds C stored r' id := hr.confirms_holds.evolves h hid

end Stores

end UnicityNostr
