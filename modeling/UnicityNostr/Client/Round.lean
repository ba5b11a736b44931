import UnicityNostr.Client.Session

/-!
# Rounds of publishing and querying

What a round does after the message it has received, on any connection.

* `publishRound_of_message`, `queryRound_of_message`: a message that is no challenge
  is the verdict or the end that is waited for, or the wait goes on;
* `publishRound_of_auth`, `queryRound_of_auth`: a challenge has the request sent
  once more;
* `query_eq`: the parts of a query.
-/

namespace UnicityNostr.RelayClient

variable {C : Crates} {σ : Type} [RelayConnection σ] [Clock σ] {client client' : RelayClient σ}

/-! ## Publishing -/

section Publish

variable {event : Event} {timeout : Duration} {resent : Bool}

/-- A message that is no challenge is the verdict on the event, or the wait goes on. -/
theorem publishRound_of_message {m : RelayMessage}
    (hrecv : recvMsg C timeout client = (.ok (some m), client')) (hm : m.isAuth = false) :
    publishRound C event timeout resent client =
      (.ok (((m.verdictOn event.id).map Eff.Round.done).getD (.next resent)), client') := by
  rw [publishRound, Eff.bind_ok hrecv]
  cases m with
  | ok id accepted message =>
    by_cases hid : id = event.id
    · simp [RelayMessage.verdictOn, hid]
    · simp [RelayMessage.verdictOn, hid]
  | auth challenge => cases hm
  | _ => rfl

/-- Nothing received within the timeout fails. -/
theorem publishRound_of_none (hrecv : recvMsg C timeout client = (.ok none, client')) :
    publishRound C event timeout resent client =
      (.error (.malformed "publish: timed out waiting for OK"), client') := by
  rw [publishRound, Eff.bind_ok hrecv]
  rfl

/-- After the first challenge, the event is sent once more. -/
theorem publishRound_of_auth {challenge : String}
    (hrecv : recvMsg C timeout client = (.ok (some (.auth challenge)), client')) :
    publishRound C event timeout resent client =
      if resent then (.ok (.next true), client')
      else ((sendFrame C (eventFrame event) client').1.map fun _ => .next true,
        (sendFrame C (eventFrame event) client').2) := by
  rw [publishRound, Eff.bind_ok hrecv]
  cases resent with
  | true => rfl
  | false =>
    rcases hsend : sendFrame C (eventFrame event) client' with ⟨e | _, client''⟩
    · exact Eff.bind_error hsend _
    · exact Eff.bind_ok hsend _

theorem publishRound_of_error {e : Error}
    (hrecv : recvMsg C timeout client = (.error e, client')) :
    publishRound C event timeout resent client = (.error e, client') := by
  rw [publishRound, Eff.bind_error hrecv]

end Publish

/-! ## Querying -/

section Query

variable {subId : String} {filter : Filter} {idle : Duration} {events : List Event}

/-- A message that is no challenge ends the query, or what it brings is collected. -/
theorem queryRound_of_message {m : RelayMessage}
    (hrecv : recvMsg C idle client = (.ok (some m), client')) (hm : m.isAuth = false) :
    queryRound C subId filter idle events client =
      (.ok (if m.ends subId then .done events else .next (events ++ m.served C subId)),
        client') := by
  rw [queryRound, Eff.bind_ok hrecv]
  cases m with
  | event s event =>
    by_cases h : s = subId ∧ event.verify C = true
    · simp only [RelayMessage.served, h, and_self, if_true]
      rfl
    · simp only [RelayMessage.served, h, if_false, List.append_nil]
      rfl
  | eose s =>
    by_cases h : s = subId
    · simp [RelayMessage.ends, h]
    · simp [RelayMessage.ends, RelayMessage.served, h]
  | closed s message =>
    by_cases h : s = subId
    · simp [RelayMessage.ends, h]
    · simp [RelayMessage.ends, RelayMessage.served, h]
  | auth challenge => cases hm
  | _ =>
    simp only [RelayMessage.served, List.append_nil]
    rfl

/-- Nothing received within the idle time ends the query. -/
theorem queryRound_of_none (hrecv : recvMsg C idle client = (.ok none, client')) :
    queryRound C subId filter idle events client = (.ok (.done events), client') := by
  rw [queryRound, Eff.bind_ok hrecv]
  rfl

/-- After a challenge, the subscription is opened once more. -/
theorem queryRound_of_auth {challenge : String}
    (hrecv : recvMsg C idle client = (.ok (some (.auth challenge)), client')) :
    queryRound C subId filter idle events client =
      ((sendReq C subId filter client').1.map fun _ => .next events,
        (sendReq C subId filter client').2) := by
  rw [queryRound, Eff.bind_ok hrecv]
  rcases hsend : sendReq C subId filter client' with ⟨e | _, client''⟩
  · exact Eff.bind_error hsend _
  · exact Eff.bind_ok hsend _

theorem queryRound_of_error {e : Error} (hrecv : recvMsg C idle client = (.error e, client')) :
    queryRound C subId filter idle events client = (.error e, client') := by
  rw [queryRound, Eff.bind_error hrecv]

/-- A query opens its subscription, collects in a loop, and tries to close the
    subscription when the loop is done; an error leaves it at once. -/
theorem query_eq (C : Crates) (n : Nat) (filter : Filter) (idle : Duration)
    (client : RelayClient σ) : query C n filter idle client =
      match sendReq C client.querySubId filter { client with nextSub := client.nextSub + 1 } with
      | (.error e, client₁) => (.error e, client₁)
      | (.ok _, client₁) =>
        match Eff.loop (queryRound C client.querySubId filter idle) n [] client₁ with
        | (.error e, client₂) => (.error e, client₂)
        | (.ok none, client₂) => (.ok none, client₂)
        | (.ok (some out), client₂) =>
          (.ok (some out), (sendClose C client.querySubId client₂).2) := by
  have hsub : nextSubId client =
      (.ok client.querySubId, { client with nextSub := client.nextSub + 1 }) := rfl
  rw [query, Eff.bind_ok hsub]
  rcases hreq : sendReq C client.querySubId filter { client with nextSub := client.nextSub + 1 }
    with ⟨e | _, client₁⟩
  · exact Eff.bind_error hreq _
  rw [Eff.bind_ok hreq]
  rcases hloop : Eff.loop (queryRound C client.querySubId filter idle) n [] client₁
    with ⟨e | _ | out, client₂⟩
  · simp only [Eff.bind_error hloop, hloop]
  · simp only [Eff.bind_ok hloop, hloop]
    rfl
  · simp only [Eff.bind_ok hloop, hloop]
    rfl

/-- A query that returns has opened its subscription, done its loop and tried to close
    the subscription. -/
theorem query_eq_some {n : Nat} {out : List Event}
    (h : query C n filter idle client = (.ok (some out), client')) :
    ∃ client₁ client₂,
      sendReq C client.querySubId filter { client with nextSub := client.nextSub + 1 } =
        (.ok (), client₁) ∧
      Eff.loop (queryRound C client.querySubId filter idle) n [] client₁ =
        (.ok (some out), client₂) ∧
      client' = (sendClose C client.querySubId client₂).2 := by
  rw [query_eq] at h
  split at h
  · cases (Prod.mk.inj h).1
  rename_i client₁ hreq
  split at h
  · cases (Prod.mk.inj h).1
  · cases (Prod.mk.inj h).1
  · rename_i out' client₂ hloop
    obtain ⟨hout, rfl⟩ := Prod.mk.inj h
    obtain rfl := Option.some.inj (Except.ok.inj hout)
    exact ⟨client₁, client₂, hreq, hloop, rfl⟩

/-- The query ends in `r`, with the client `client'`, within some number of rounds. -/
def QueryEnds (C : Crates) (filter : Filter) (idle : Duration) (client : RelayClient σ)
    (r : Result (List Event)) (client' : RelayClient σ) : Prop :=
  ∃ n, query C n filter idle client = (r.map some, client')

/-- What a query ends in: an error that keeps it from opening its subscription, or what
    its loop ends in. -/
theorem queryEnds_iff {r : Result (List Event)} : QueryEnds C filter idle client r client' ↔
    match sendReq C client.querySubId filter { client with nextSub := client.nextSub + 1 } with
    | (.error e, client₁) => r = .error e ∧ client' = client₁
    | (.ok _, client₁) => ∃ client₂,
      Eff.LoopEnds (queryRound C client.querySubId filter idle) [] client₁ r client₂ ∧
        client' = if r.isOk then (sendClose C client.querySubId client₂).2 else client₂ := by
  simp only [QueryEnds, query_eq, Eff.LoopEnds]
  rcases sendReq C client.querySubId filter { client with nextSub := client.nextSub + 1 }
    with ⟨e | _, client₁⟩
  · constructor
    · rintro ⟨n, h⟩
      obtain ⟨hr, rfl⟩ := Prod.mk.inj h
      cases r with
      | error e' => exact ⟨congrArg _ (Except.error.inj hr).symm, rfl⟩
      | ok out => cases hr
    · rintro ⟨rfl, rfl⟩
      exact ⟨0, rfl⟩
  · constructor
    · rintro ⟨n, h⟩
      rcases hloop : Eff.loop (queryRound C client.querySubId filter idle) n [] client₁
        with ⟨e | _ | out, client₂⟩
      all_goals
        simp only [hloop] at h
        obtain ⟨hr, rfl⟩ := Prod.mk.inj h
      · cases r with
        | error e' => exact ⟨client₂, ⟨n, hloop.trans (congrArg (·, client₂) hr)⟩, rfl⟩
        | ok out => cases hr
      · cases r <;> cases hr
      · cases r with
        | error e => cases hr
        | ok out' => exact ⟨client₂, ⟨n, hloop.trans (congrArg (·, client₂) hr)⟩, rfl⟩
    · rintro ⟨client₂, ⟨n, hloop⟩, rfl⟩
      refine ⟨n, ?_⟩
      simp only [hloop]
      cases r <;> rfl

/-- A query that has opened its subscription ends in what its loop ends in. -/
theorem queryEnds_iff_of_sendReq {client₁ : RelayClient σ} {r : Result (List Event)}
    (h : sendReq C client.querySubId filter { client with nextSub := client.nextSub + 1 } =
      (.ok (), client₁)) :
    QueryEnds C filter idle client r client' ↔ ∃ client₂,
      Eff.LoopEnds (queryRound C client.querySubId filter idle) [] client₁ r client₂ ∧
        client' = if r.isOk then (sendClose C client.querySubId client₂).2 else client₂ := by
  simp only [queryEnds_iff, h]

/-- A query that has ended does so with more rounds. -/
theorem query_eq_of_le {n m : Nat} {r : Result (List Event)} (hm : n ≤ m)
    (h : query C n filter idle client = (r.map some, client')) :
    query C m filter idle client = (r.map some, client') := by
  rw [query_eq] at h ⊢
  rcases hreq : sendReq C client.querySubId filter { client with nextSub := client.nextSub + 1 }
    with ⟨e | _, client₁⟩
  all_goals simp only [hreq] at h ⊢
  · exact h
  rcases hloop : Eff.loop (queryRound C client.querySubId filter idle) n [] client₁
    with ⟨e | _ | out, client₂⟩
  all_goals simp only [hloop] at h
  · simp only [Eff.loop_eq_of_le (r := .error e) hm hloop]
    exact h
  · cases r <;> cases (Prod.mk.inj h).1
  · simp only [Eff.loop_eq_of_le (r := .ok out) hm hloop]
    exact h

/-- The results of a query, whatever the bounds, are one. -/
theorem query_unique {n m : Nat} {out out' : List Event} {client'' : RelayClient σ}
    (h : query C n filter idle client = (.ok (some out), client'))
    (h' : query C m filter idle client = (.ok (some out'), client'')) : out = out' := by
  have hn := query_eq_of_le (r := .ok out) (Nat.le_max_left n m) h
  have hm := query_eq_of_le (r := .ok out') (Nat.le_max_right n m) h'
  exact Option.some.inj (Except.ok.inj (Prod.mk.inj (hn.symm.trans hm)).1)

end Query

/-! ## What a round does not change -/

section Keeps

variable {τ : Type} {f : RelayClient σ → τ}
  (hrecv : ∀ timeout, Eff.Keeps f (onConn (RelayConnection.recv timeout)))
  (hauth : ∀ auth, Eff.Keeps f (sendFrame C (authFrame auth)))

include hrecv hauth

theorem keeps_recvMsg (timeout : Duration) : Eff.Keeps f (recvMsg C timeout) := by
  refine (hrecv timeout).bind fun text => ?_
  rcases text with _ | text
  · exact .pure none
  refine .bind ?_ fun _ => .pure _
  cases parseRelayMessage C text with
  | auth challenge => exact .bind (.read _) hauth
  | _ => exact .pure ()

theorem keeps_publishRound {event : Event} (hevent : Eff.Keeps f (sendFrame C (eventFrame event)))
    (timeout : Duration) (resent : Bool) : Eff.Keeps f (publishRound C event timeout resent) := by
  intro client
  have hkeeps := keeps_recvMsg hrecv hauth timeout client
  rcases hrecv : recvMsg C timeout client with ⟨e | _ | m, client'⟩
  all_goals rw [hrecv] at hkeeps
  · rwa [publishRound_of_error hrecv]
  · rwa [publishRound_of_none hrecv]
  · cases hm : m.isAuth with
    | false => rwa [publishRound_of_message hrecv hm]
    | true =>
      obtain ⟨challenge, rfl⟩ := RelayMessage.isAuth_eq_true_iff.1 hm
      rw [publishRound_of_auth hrecv]
      split
      · exact hkeeps
      · exact (hevent client').trans hkeeps

theorem keeps_queryRound {subId : String} {filter : Filter}
    (hreq : Eff.Keeps f (sendFrame C (reqFrame subId filter))) (idle : Duration)
    (events : List Event) : Eff.Keeps f (queryRound C subId filter idle events) := by
  intro client
  have hkeeps := keeps_recvMsg hrecv hauth idle client
  rcases hrecv : recvMsg C idle client with ⟨e | _ | m, client'⟩
  all_goals rw [hrecv] at hkeeps
  · rwa [queryRound_of_error hrecv]
  · rwa [queryRound_of_none hrecv]
  · cases hm : m.isAuth with
    | false => rwa [queryRound_of_message hrecv hm]
    | true =>
      obtain ⟨challenge, rfl⟩ := RelayMessage.isAuth_eq_true_iff.1 hm
      rw [queryRound_of_auth hrecv]
      exact (hreq client').trans hkeeps

end Keeps

end UnicityNostr.RelayClient
