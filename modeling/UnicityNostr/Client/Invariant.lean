import UnicityNostr.Client.Round
import UnicityNostr.Client.Run

/-!
# Invariants of the calls of a client

Calls send and receive and do nothing else to the connection: a relation between
the states of the client that sending and receiving are in, and that is reflexive
and transitive, is one that every call is in (`moves_perform`), and so is every
sequence of calls (`related_performAll`).

* `moves_recvMsg`: receiving a message is receiving and, after a challenge, sending
  the answer;
* `invariant_performAll`: what sending and receiving preserve of the connection
  holds after any calls.
-/

namespace UnicityNostr.RelayClient

variable (C : Crates) {σ : Type} [RelayConnection σ] [Clock σ]

/-- The frames of a call that do not answer challenges. -/
inductive Requests : Call → RelayClient σ → Json → Prop
  | subscribe (subId : String) (filter : Filter) (client : RelayClient σ) :
    Requests (.subscribe subId filter) client (reqFrame subId filter)
  | unsubscribe (subId : String) (client : RelayClient σ) :
    Requests (.unsubscribe subId) client (closeFrame subId)
  | publish (event : Event) (timeout : Duration) (client : RelayClient σ) :
    Requests (.publish event timeout) client (eventFrame event)
  | query (rounds : Nat) (filter : Filter) (idle : Duration) (client : RelayClient σ) :
    Requests (.query rounds filter idle) client (reqFrame client.querySubId filter)
  | endQuery (rounds : Nat) (filter : Filter) (idle : Duration) (client : RelayClient σ) :
    Requests (.query rounds filter idle) client (closeFrame client.querySubId)

/-- Performing calls one after the other. -/
def performAll (calls : List Call) (client : RelayClient σ) : RelayClient σ :=
  calls.foldl (fun client call => (perform C call client).2) client

/-- Calls do the same over a connection that does the same. -/
theorem Mimics.performAll_mapConn {τ : Type} [RelayConnection τ] [Clock τ] {g : τ → σ}
    (h : Mimics g) (calls : List Call) (client : RelayClient τ) :
    performAll C calls (mapConn g client) = mapConn g (performAll C calls client) := by
  induction calls generalizing client with
  | nil => rfl
  | cons call calls ih =>
    rw [performAll, List.foldl_cons, h.perform_mapConn]
    exact ih _

section Moves

variable {C} {T : RelayClient σ → RelayClient σ → Prop} (hrefl : ∀ client, T client client)
  (htrans : ∀ client client' client'', T client client' → T client' client'' →
    T client client'')

include hrefl htrans

/-- Receiving a message is receiving and, after a challenge, sending the answer. -/
theorem moves_recvMsg (hrecv : ∀ timeout, Eff.Moves T (onConn (RelayConnection.recv timeout)))
    (hauth : ∀ auth, Eff.Moves T (sendFrame C (authFrame auth))) (timeout : Duration) :
    Eff.Moves T (recvMsg C timeout) := by
  refine .bind htrans (hrecv timeout) fun text => ?_
  rcases text with _ | text
  · exact .pure hrefl none
  refine .bind htrans ?_ fun _ => .pure hrefl _
  cases parseRelayMessage C text with
  | auth challenge => exact .bind htrans (.read hrefl _) hauth
  | _ => exact .pure hrefl ()

variable (hrecv : ∀ timeout, Eff.Moves T (recvMsg C timeout))
include hrecv

theorem moves_publishRound {event : Event} (hsend : Eff.Moves T (sendFrame C (eventFrame event)))
    (timeout : Duration) (resent : Bool) :
    Eff.Moves T (publishRound C event timeout resent) := by
  refine .bind htrans (hrecv timeout) fun m => ?_
  rcases m with _ | m
  · exact .fail hrefl _
  cases m with
  | ok id accepted message =>
    by_cases hid : id = event.id
    · simp only [hid, if_true]
      exact .pure hrefl _
    · simp only [hid, if_false]
      exact .pure hrefl _
  | auth challenge =>
    cases resent with
    | true => exact .pure hrefl _
    | false => exact .bind htrans hsend fun _ => .pure hrefl _
  | _ => exact .pure hrefl _

theorem moves_publish {event : Event} (hsend : Eff.Moves T (sendFrame C (eventFrame event)))
    (timeout : Duration) : Eff.Moves T (publish C event timeout) := by
  refine .bind htrans hsend fun _ => .bind htrans
    (.loop hrefl htrans (moves_publishRound hrefl htrans hrecv hsend timeout) 64 false)
      fun verdict => ?_
  cases verdict with
  | none => exact .fail hrefl _
  | some verdict => exact .pure hrefl _

omit hrefl in
theorem moves_queryRound {subId : String} {filter : Filter}
    (hreq : Eff.Moves T (sendFrame C (reqFrame subId filter))) (idle : Duration)
    (events : List Event) : Eff.Moves T (queryRound C subId filter idle events) := by
  intro client
  have hmoves := hrecv idle client
  rcases h : recvMsg C idle client with ⟨e | _ | m, client'⟩
  all_goals rw [h] at hmoves
  · rwa [queryRound_of_error h]
  · rwa [queryRound_of_none h]
  · cases hm : m.isAuth with
    | false => rwa [queryRound_of_message h hm]
    | true =>
      obtain ⟨challenge, rfl⟩ := RelayMessage.isAuth_eq_true_iff.1 hm
      rw [queryRound_of_auth h]
      exact htrans _ _ _ hmoves (hreq client')

theorem moves_query {rounds : Nat} {filter : Filter} {idle : Duration} {client : RelayClient σ}
    (hnext : Eff.Moves T nextSubId)
    (hreq : Eff.Moves T (sendFrame C (reqFrame client.querySubId filter)))
    (hclose : Eff.Moves T (sendFrame C (closeFrame client.querySubId))) :
    T client (query C rounds filter idle client).2 := by
  have hstart : T client { client with nextSub := client.nextSub + 1 } := hnext client
  have hopen := hreq { client with nextSub := client.nextSub + 1 }
  rw [query_eq]
  rcases h : sendReq C client.querySubId filter { client with nextSub := client.nextSub + 1 }
    with ⟨e | _, client₁⟩
  all_goals rw [sendReq] at h; rw [h] at hopen
  · exact htrans _ _ _ hstart hopen
  have hloop := Eff.Moves.loop hrefl htrans (moves_queryRound htrans hrecv hreq idle) rounds []
    client₁
  dsimp only
  rcases h : Eff.loop (queryRound C client.querySubId filter idle) rounds [] client₁
    with ⟨e | _ | out, client₂⟩
  all_goals
    rw [h] at hloop
    have hall := htrans _ _ _ (htrans _ _ _ hstart hopen) hloop
  · exact hall
  · exact hall
  · exact htrans _ _ _ hall (hclose client₂)

theorem moves_pollEvent (timeout : Duration) : Eff.Moves T (pollEvent C timeout) := by
  refine .bind htrans (hrecv timeout) fun m => ?_
  rcases m with _ | m
  · exact .pure hrefl _
  cases m with
  | event s event =>
    by_cases h : event.verify C = true
    · simp only [h, if_true]
      exact .pure hrefl _
    · simp only [h]
      exact .pure hrefl _
  | _ => exact .pure hrefl _

/-- A relation that receiving messages and sending the frames of a call are in is one
    that the call is in. -/
theorem moves_perform (hnext : Eff.Moves T nextSubId) {call : Call} {client : RelayClient σ}
    (hreq : ∀ frame, Requests call client frame → Eff.Moves T (sendFrame C frame)) :
    T client (perform C call client).2 := by
  cases call with
  | subscribe subId filter => exact hreq _ (.subscribe subId filter client) client
  | unsubscribe subId => exact hreq _ (.unsubscribe subId client) client
  | publish event timeout =>
    exact moves_publish hrefl htrans hrecv (hreq _ (.publish event timeout client)) timeout client
  | query rounds filter idle =>
    exact moves_query hrefl htrans hrecv hnext (hreq _ (.query rounds filter idle client))
      (hreq _ (.endQuery rounds filter idle client))
  | poll timeout => exact hrecv timeout client
  | pollEvent timeout => exact moves_pollEvent hrefl htrans hrecv timeout client

end Moves

/-! ## The connection -/

/-- A relation between the states of the connection that sending and receiving are in is
    one that any calls are in, and they do not change the signer and the URL. -/
theorem related_performAll {R : σ → σ → Prop} (hrefl : ∀ s, R s s)
    (htrans : ∀ s s' s'', R s s' → R s' s'' → R s s'')
    (hsend : ∀ (text : String) (s : σ), R s (RelayConnection.send text s).2)
    (hrecv : ∀ (timeout : Duration) (s : σ), R s (RelayConnection.recv timeout s).2)
    (calls : List Call) (client : RelayClient σ) :
    R client.conn (performAll C calls client).conn ∧
      (performAll C calls client).signer = client.signer ∧
      (performAll C calls client).url = client.url := by
  let T : RelayClient σ → RelayClient σ → Prop := fun client client' =>
    R client.conn client'.conn ∧ client'.signer = client.signer ∧ client'.url = client.url
  have hrefl' : ∀ client, T client client := fun client => ⟨hrefl _, rfl, rfl⟩
  have htrans' : ∀ client client' client'', T client client' → T client' client'' →
      T client client'' := fun _ _ _ h h' =>
    ⟨htrans _ _ _ h.1 h'.1, h'.2.1.trans h.2.1, h'.2.2.trans h.2.2⟩
  have hsend' : ∀ frame, Eff.Moves T (sendFrame C frame) :=
    fun frame client => ⟨hsend _ client.conn, rfl, rfl⟩
  have hrecv' : ∀ timeout, Eff.Moves T (recvMsg C timeout) :=
    moves_recvMsg hrefl' htrans' (fun timeout client => ⟨hrecv timeout client.conn, rfl, rfl⟩)
      fun auth => hsend' _
  change T client (performAll C calls client)
  induction calls generalizing client with
  | nil => exact hrefl' client
  | cons call calls ih =>
    exact htrans' _ _ _ (moves_perform hrefl' htrans' hrecv' (fun client => ⟨hrefl _, rfl, rfl⟩)
      fun frame _ => hsend' frame) (ih _)

/-- What sending and receiving preserve of the connection holds after any calls. -/
theorem invariant_performAll {P : σ → Prop}
    (hsend : ∀ (text : String) (s : σ), P s → P (RelayConnection.send text s).2)
    (hrecv : ∀ (timeout : Duration) (s : σ), P s → P (RelayConnection.recv timeout s).2)
    (calls : List Call) {client : RelayClient σ} (h : P client.conn) :
    P (performAll C calls client).conn :=
  (related_performAll C (R := fun s s' => P s → P s') (fun _ => id)
    (fun _ _ _ h h' => h' ∘ h) hsend hrecv calls client).1 h

end UnicityNostr.RelayClient
