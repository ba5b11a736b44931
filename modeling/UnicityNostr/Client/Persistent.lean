import Mathlib.Data.List.Flatten
import UnicityNostr.Client.Round
import UnicityNostr.Client.Run
import UnicityNostr.Reference

/-!
# Persistent subscriptions

The events on the subscriptions a caller listens on are returned to it by the
calls that listen, `poll` and `pollEvent`; the other calls read from the same
connection.

* `lossless_iff`: a run hands over all events it reads on open subscriptions if
  and only if no call that does not listen reads one.
-/

namespace UnicityNostr.RelayClient

variable (C : Crates)

/-- The verified event a message brings on one of the open subscriptions. -/
def owedBy (opened : List String) : RelayMessage → Option (String × Event)
  | .event subId e => if subId ∈ opened ∧ e.verify C then some (subId, e) else none
  | _ => none

/-- The verified events received on the open subscriptions. -/
def owedIn (opened : List String) (log : List Io) : List (String × Event) :=
  log.filterMap fun io =>
    match io with
    | .received (.ok (some text)) => owedBy C opened (parseRelayMessage C text)
    | _ => none

/-- The events owed to the caller after an exchange: those read on subscriptions
    opened and not closed. -/
def Exchange.owed (x : Exchange) : List (String × Event) := owedIn C x.openIds x.log

/-- The event of a subscription a call that listens hands over to its caller. -/
def Reply.handedOver : Reply → List (String × Event)
  | .message (.ok (some (.event subId e))) => [(subId, e)]
  | .event (.ok (some (subId, e))) => [(subId, e)]
  | _ => []

/-- The verified events of open subscriptions handed over in an exchange. -/
def Exchange.delivered (x : Exchange) : List (String × Event) :=
  x.reply.handedOver.filter fun (subId, e) => decide (subId ∈ x.openIds) && e.verify C

/-- Nothing is lost in a run: the events read on subscriptions opened and not
    closed are among those the calls of the run hand over, as often as they are
    read. -/
def Lossless (xs : List Exchange) : Prop :=
  (xs.flatMap (·.owed C)).Subperm (xs.flatMap (·.delivered C))

/-- The call listens on the subscriptions. -/
def Call.listens : Call → Bool
  | .poll _ => true
  | .pollEvent _ => true
  | _ => false

variable {C} {σ : Type} [RelayConnection σ]

/-- Sending reads nothing. -/
theorem owedIn_sendFrame (opened : List String) (frame : Json)
    (client : RelayClient (Recorded σ)) :
    owedIn C opened (sendFrame C frame client).2.conn.log = owedIn C opened client.conn.log := by
  have hlog : (sendFrame C frame client).2.conn.log = client.conn.log ++
      [.sent (C.json.toString frame)
        (RelayConnection.send (C.json.toString frame) client.conn.conn).1] := rfl
  rw [hlog, owedIn, List.filterMap_append]
  exact List.append_nil _

variable [Clock σ]

theorem owedIn_answerAuth (opened : List String) (challenge : String)
    (client : RelayClient (Recorded σ)) :
    owedIn C opened (answerAuth C challenge client).2.conn.log =
      owedIn C opened client.conn.log := by
  rw [answerAuth, Eff.bind_apply, Eff.read_apply]
  cases authEvent C challenge client with
  | error e => rfl
  | ok auth => exact owedIn_sendFrame opened (authFrame auth) client

/-- Receiving reads what it returns. -/
theorem owedIn_recvMsg (opened : List String) (timeout : Duration) (client : RelayClient σ) :
    owedIn C opened (recvMsg C timeout client.recorded).2.conn.log =
      match (recvMsg C timeout client.recorded).1 with
      | .ok (some m) => (owedBy C opened m).toList
      | _ => [] := by
  rcases hr : RelayConnection.recv timeout client.conn with ⟨r, conn⟩
  obtain ⟨client₁, hrecv, hlog⟩ : ∃ client₁ : RelayClient (Recorded σ),
      onConn (RelayConnection.recv timeout) client.recorded = (r, client₁) ∧
        client₁.conn.log = [.received r] := by
    refine ⟨_, Prod.ext ?_ rfl, ?_⟩
    · simp [onConn, recorded, RelayConnection.recv, hr]
    · simp [onConn, recorded, RelayConnection.recv, hr]
  -- By what arrives: an error, nothing, or a frame.
  rcases r with e | _ | text
  · rw [recvMsg, Eff.bind_error hrecv, hlog]
    rfl
  · rw [recvMsg, Eff.bind_ok hrecv]
    simp only [Eff.pure_apply, hlog]
    rfl
  · cases ha : (parseRelayMessage C text).isAuth with
    | false =>
      rw [recvMsg_of_recv hrecv ha]
      simp only [hlog, owedIn, List.filterMap_cons, List.filterMap_nil]
      cases owedBy C opened (parseRelayMessage C text) <;> rfl
    | true =>
      obtain ⟨challenge, hp⟩ := RelayMessage.isAuth_eq_true_iff.1 ha
      -- A challenge is no event, whether it can be answered or not.
      have howed : owedIn C opened (answerAuth C challenge client₁).2.conn.log = [] := by
        rw [owedIn_answerAuth, hlog]
        simp only [owedIn, List.filterMap_cons, List.filterMap_nil, hp, owedBy]
      rw [recvMsg, Eff.bind_ok hrecv]
      simp only [hp, answer, Eff.bind_apply]
      rcases hanswer : answerAuth C challenge client₁ with ⟨_ | _, client₂⟩ <;>
      · rw [hanswer] at howed
        exact howed

/-- An event that is handed over counts if it is owed. -/
theorem filter_handedOver (opened : List String) (subId : String) (e : Event) :
    [(subId, e)].filter (fun (subId, e) => decide (subId ∈ opened) && e.verify C) =
      (owedBy C opened (.event subId e)).toList := by
  by_cases h : subId ∈ opened ∧ e.verify C = true
  · simp [owedBy, h]
  · rw [owedBy, if_neg h, List.filter_cons_of_neg]
    · rfl
    · simpa using h

/-- What a call that listens reads on the open subscriptions, it hands over. -/
theorem owed_eq_delivered (opened : List (String × Filter)) {call : Call} (client : RelayClient σ)
    (h : call.listens = true) : (exchange C opened call client).owed C =
      (exchange C opened call client).delivered C := by
  cases call with
  | poll timeout =>
    show owedIn C (opened.map Prod.fst) (recvMsg C timeout client.recorded).2.conn.log =
      (Reply.message (recvMsg C timeout client.recorded).1).handedOver.filter _
    rw [owedIn_recvMsg]
    rcases (recvMsg C timeout client.recorded).1 with e | _ | m
    · rfl
    · rfl
    · cases m with
      | event subId e => exact (filter_handedOver (opened.map Prod.fst) subId e).symm
      | _ => rfl
  | pollEvent timeout =>
    show owedIn C (opened.map Prod.fst) (pollEvent C timeout client.recorded).2.conn.log =
      (Reply.event (pollEvent C timeout client.recorded).1).handedOver.filter _
    have howed := owedIn_recvMsg (C := C) (opened.map Prod.fst) timeout client
    rcases hrecv : recvMsg C timeout client.recorded with ⟨e | _ | m, client₁⟩
    · rw [hrecv] at howed
      rw [pollEvent, Eff.bind_error hrecv, howed]
      rfl
    · rw [hrecv] at howed
      rw [pollEvent, Eff.bind_ok hrecv]
      exact howed
    · rw [hrecv] at howed
      rw [pollEvent, Eff.bind_ok hrecv]
      cases m with
      | event subId e =>
        cases hv : e.verify C with
        | true =>
          simp only [hv, if_true, Eff.pure_apply, howed]
          exact (filter_handedOver (opened.map Prod.fst) subId e).symm
        | false =>
          -- The event is dropped, and it is not owed.
          simp only [hv, Bool.false_eq_true, if_false, Eff.pure_apply, howed, owedBy, and_false]
          rfl
      | _ => exact howed
  | _ => cases h

/-- A call that does not listen hands over nothing. -/
theorem delivered_eq_nil (opened : List (String × Filter)) {call : Call} (client : RelayClient σ)
    (h : call.listens = false) : (exchange C opened call client).delivered C = [] := by
  cases call with
  | poll timeout => cases h
  | pollEvent timeout => cases h
  | _ => rfl

/-- The exchanges of a run are exchanges of its calls. -/
theorem exists_of_mem_run {calls : List Call} {opened : List (String × Filter)}
    {client : RelayClient σ} {x : Exchange} (h : x ∈ run C calls opened client) :
    ∃ (opened' : List (String × Filter)) (client' : RelayClient σ),
      x = exchange C opened' x.call client' := by
  induction calls generalizing opened client with
  | nil => cases h
  | cons call calls ih =>
    rw [run] at h
    rcases List.mem_cons.1 h with rfl | h
    · exact ⟨opened, client, rfl⟩
    · split at h
      · exact ih h
      · cases h

/-- If parts of lists together make up the lists, each part is the whole. -/
theorem eq_of_flatMap_subperm {α β : Type} {f g : α → List β} {l : List α}
    (hpart : ∀ a ∈ l, (g a).Sublist (f a)) (h : (l.flatMap f).Subperm (l.flatMap g)) :
    ∀ a ∈ l, g a = f a := by
  induction l with
  | nil => exact List.forall_mem_nil _
  | cons a l ih =>
    obtain ⟨ha, hl⟩ := List.forall_mem_cons.1 hpart
    have hrest : (l.flatMap g).Sublist (l.flatMap f) := List.Sublist.flatMap_right l hl
    -- Nothing is missing from `a`, and nothing from the rest.
    have hle := h.length_le
    rw [List.flatMap_cons, List.flatMap_cons, List.length_append, List.length_append] at hle
    have hlea := ha.length_le
    have hlel := hrest.length_le
    have heq : l.flatMap g = l.flatMap f := hrest.eq_of_length (by omega)
    exact List.forall_mem_cons.2 ⟨ha.eq_of_length (by omega), ih hl (heq ▸ .refl _)⟩

/-- A run hands over all verified events it reads on subscriptions opened and not
    closed if and only if no call that does not listen reads one. -/
theorem lossless_iff (calls : List Call) (opened : List (String × Filter))
    (client : RelayClient σ) :
    Lossless C (run C calls opened client) ↔
      ∀ x ∈ run C calls opened client, x.call.listens = false → x.owed C = [] := by
  -- One call either hands over what it reads, or nothing.
  have hcall : ∀ x ∈ run C calls opened client,
      (x.call.listens = true → x.owed C = x.delivered C) ∧
        (x.call.listens = false → x.delivered C = []) := by
    intro x hx
    obtain ⟨opened', client', hexchange⟩ := exists_of_mem_run hx
    rw [hexchange]
    exact ⟨owed_eq_delivered opened' client', delivered_eq_nil opened' client'⟩
  constructor
  · intro hlossless x hx h
    have hpart : ∀ x ∈ run C calls opened client, (x.delivered C).Sublist (x.owed C) := by
      intro x hx
      cases h : x.call.listens with
      | true => exact (hcall x hx).1 h ▸ .refl _
      | false => exact (hcall x hx).2 h ▸ List.nil_sublist _
    rw [← eq_of_flatMap_subperm hpart hlossless x hx]
    exact (hcall x hx).2 h
  · intro hnone
    have heq : (run C calls opened client).flatMap (·.owed C) =
        (run C calls opened client).flatMap (·.delivered C) := by
      refine List.flatMap_congr fun x hx => ?_
      cases h : x.call.listens with
      | true => exact (hcall x hx).1 h
      | false => rw [hnone x hx h, (hcall x hx).2 h]
    rw [Lossless, heq]

/-- An event that arrives before the acknowledgement is read by `publish`. -/
theorem perform_publish_script {client : RelayClient Script} {subId text₁ text₂ message : String}
    {e event : Event} {accepted : Bool} (timeout : Duration)
    (hitems : client.conn.items = [.ok (some text₁), .ok (some text₂)])
    (h₁ : parseRelayMessage C text₁ = .event subId e)
    (h₂ : parseRelayMessage C text₂ = .ok event.id accepted message) :
    ∃ client', perform C (.publish event timeout) client.recorded =
        (.verdict (.ok (accepted, message)), client') ∧
      client'.conn.log = [.sent (C.json.toString (eventFrame event)) (.ok ()),
        .received (.ok (some text₁)), .received (.ok (some text₂))] ∧
      client'.conn.conn.items = [] := by
  obtain ⟨⟨items⟩, url, signer, nextSub⟩ := client
  obtain rfl : items = _ := hitems
  have ha₁ : (parseRelayMessage C text₁).isAuth = false := by rw [h₁]; rfl
  have ha₂ : (parseRelayMessage C text₂).isAuth = false := by rw [h₂]; rfl
  obtain ⟨c₁, hsend, hc₁⟩ : ∃ c₁ : RelayClient (Recorded Script),
      sendFrame C (eventFrame event) (recorded ⟨⟨[.ok (some text₁), .ok (some text₂)]⟩, url, signer,
        nextSub⟩) = (.ok (), c₁) ∧ c₁ = ⟨⟨⟨[.ok (some text₁), .ok (some text₂)]⟩,
          [.sent (C.json.toString (eventFrame event)) (.ok ())]⟩, url, signer, nextSub⟩ :=
    ⟨_, rfl, rfl⟩
  obtain ⟨c₂, hrecv₁, hc₂⟩ : ∃ c₂, onConn (RelayConnection.recv timeout) c₁ =
      (.ok (some text₁), c₂) ∧ c₂ = ⟨⟨⟨[.ok (some text₂)]⟩,
        [.sent (C.json.toString (eventFrame event)) (.ok ()), .received (.ok (some text₁))]⟩, url,
          signer, nextSub⟩ := ⟨_, hc₁ ▸ rfl, rfl⟩
  obtain ⟨c₃, hrecv₂, hc₃⟩ : ∃ c₃, onConn (RelayConnection.recv timeout) c₂ =
      (.ok (some text₂), c₃) ∧ c₃ = ⟨⟨⟨[]⟩, [.sent (C.json.toString (eventFrame event)) (.ok ()),
        .received (.ok (some text₁)), .received (.ok (some text₂))]⟩, url, signer, nextSub⟩ :=
    ⟨_, hc₂ ▸ rfl, rfl⟩
  have hround₁ : publishRound C event timeout false c₁ = (.ok (.next false), c₂) := by
    rw [publishRound_of_message (recvMsg_of_recv hrecv₁ ha₁) ha₁, h₁]
    rfl
  have hround₂ : publishRound C event timeout false c₂ =
      (.ok (.done (accepted, message)), c₃) := by
    rw [publishRound_of_message (recvMsg_of_recv hrecv₂ ha₂) ha₂, h₂, RelayMessage.verdictOn,
      if_pos rfl]
    rfl
  have hloop : Eff.loop (publishRound C event timeout) 64 false c₁ =
      (.ok (some (accepted, message)), c₃) :=
    (Eff.loop_next hround₁).trans (Eff.loop_done hround₂)
  refine ⟨c₃, ?_, by rw [hc₃], by rw [hc₃]⟩
  rw [perform, publish, Eff.bind_ok hsend, Eff.bind_ok hloop]
  rfl

theorem perform_poll_script {client : RelayClient Script} (hitems : client.conn.items = [])
    (timeout : Duration) :
    ∃ client', perform C (.poll timeout) client.recorded = (.message (.ok none), client') := by
  obtain ⟨⟨items⟩, url, signer, nextSub⟩ := client
  obtain rfl : items = [] := hitems
  exact ⟨_, rfl⟩

/-- An event that arrives on an open subscription while another one is published is
    never handed over. -/
theorem event_during_publish_is_lost :
    ¬∀ (σ : Type) [RelayConnection σ] [Clock σ] (calls : List Call) (client : RelayClient σ),
      ∀ x ∈ run Reference.crates calls [] client, ∀ p ∈ x.owed Reference.crates,
        ∃ y ∈ run Reference.crates calls [] client, p ∈ y.reply.handedOver := by
  intro hclaim
  obtain ⟨e, hverify⟩ := Reference.exists_verified
  obtain ⟨text₁, h₁⟩ : ∃ text, parseRelayMessage Reference.crates text = .event "dm" e :=
    exists_text Reference.json_roundTrips (by simp)
  obtain ⟨text₂, h₂⟩ : ∃ text, parseRelayMessage Reference.crates text = .ok e.id true "" :=
    exists_text Reference.json_roundTrips (by simp)
  -- The event arrives before the acknowledgement, and nothing after it.
  obtain ⟨client, hitems⟩ : ∃ client : RelayClient Script,
      client.conn.items = [.ok (some text₁), .ok (some text₂)] :=
    ⟨.new ⟨_⟩ "wss://relay.example" (Reference.signer Reference.one).toSigner, rfl⟩
  obtain ⟨client₁, hsubscribe, hclient₁⟩ : ∃ client₁,
      perform Reference.crates (.subscribe "dm" {}) client.recorded = (.done (.ok ()), client₁) ∧
        client₁.erase = client := ⟨_, rfl, rfl⟩
  obtain ⟨client₂, hpublish, hlog, hread⟩ := perform_publish_script 5 hitems h₁ h₂
  obtain ⟨client₃, hpoll⟩ : ∃ client₃, perform Reference.crates (.poll 5)
      client₂.erase.recorded = (.message (.ok none), client₃) := perform_poll_script hread 5
  have hrun : run Reference.crates [.subscribe "dm" {}, .publish e 5, .poll 5] [] client =
      [{ call := .subscribe "dm" {}, reply := .done (.ok ()), log := client₁.conn.log,
         opened := [] },
       { call := .publish e 5, reply := .verdict (.ok (true, "")), log := client₂.conn.log,
         opened := [("dm", {})] },
       { call := .poll 5, reply := .message (.ok none), log := client₃.conn.log,
         opened := [("dm", {})] }] := by
    rw [run_cons_of_perform _ hsubscribe rfl, hclient₁, run_cons_of_perform _ hpublish rfl,
      run_cons_of_perform _ hpoll rfl]
    rfl
  have howed : ("dm", e) ∈ owedIn Reference.crates ["dm"] client₂.conn.log := by
    rw [hlog]
    simp [owedIn, owedBy, h₁, hverify]
  have hlost := hclaim Script [.subscribe "dm" {}, .publish e 5, .poll 5] client
    { call := .publish e 5, reply := .verdict (.ok (true, "")), log := client₂.conn.log,
      opened := [("dm", {})] } (by rw [hrun]; simp) ("dm", e) howed
  rw [hrun] at hlost
  obtain ⟨y, hy, hmem⟩ := hlost
  simp only [List.mem_cons, List.not_mem_nil, or_false] at hy
  rcases hy with rfl | rfl | rfl <;> cases hmem

end UnicityNostr.RelayClient
