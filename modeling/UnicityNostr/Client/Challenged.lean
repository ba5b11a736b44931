import UnicityNostr.Client.Transcript
import UnicityNostr.Reference

/-!
# Challenges while subscriptions are open

A relay may drop the subscriptions that were open before it authenticates the
client. A listener survives a challenge if all its subscriptions are sent again
after the answer, each with its filter, or if the call that has read the challenge
returns it, so that the caller can send them again.

* `emits_exchange`: what a call sends, and what it sends again when challenged;
* `survives_iff`: a listener survives the challenges of a run if and only if they
  are read by `poll`, or by a query whose request is that of the only open subscription.
-/

namespace UnicityNostr

variable (C : Crates)

/-- The challenge that is read. -/
def Io.challenge? : Io → Option String
  | .received (.ok (some text)) =>
    match parseRelayMessage C text with
    | .auth challenge => some challenge
    | _ => none
  | _ => none

/-- The frame that is sent, if the connection takes it. -/
def Io.frame? : Io → Option Json
  | .sent text (.ok ()) => (C.json.fromStr text).toOption
  | _ => none

namespace RelayClient

/-- A challenge is answered, and after that the requests are sent again. -/
def ResentIn (reqs : List Json) (log : List Io) : Prop :=
  ∃ before answer auth after, log = before ++ answer :: after ∧
    answer.frame? C = some (authFrame auth) ∧ ∀ req ∈ reqs, ∃ io ∈ after, io.frame? C = some req

/-- The requests of the subscriptions that were open, each with its filter. -/
def Exchange.openReqs (x : Exchange) : List Json :=
  x.opened.map fun (subId, filter) => reqFrame subId filter

/-- The result of the call is no error. -/
def Reply.isOk : Reply → Bool
  | .done (.ok _) => true
  | .verdict (.ok _) => true
  | .events (.ok (some _)) => true
  | .message (.ok _) => true
  | .event (.ok _) => true
  | _ => false

/-- If the call reads a challenge while subscriptions are open and ends in a result,
    they have been sent again after the answer, or the challenge is returned. -/
def Exchange.Survives (x : Exchange) : Prop :=
  x.reply.isOk = true → x.opened ≠ [] → ∀ before io challenge after,
    x.log = before ++ io :: after → io.challenge? C = some challenge →
      ResentIn C x.openReqs after ∨ x.reply = .message (.ok (some (.auth challenge)))

/-- The call reads a challenge. -/
def Exchange.Challenged (x : Exchange) : Prop :=
  ∃ io ∈ x.log, ∃ challenge, io.challenge? C = some challenge

/-! ## Records -/

/-- Every challenge on the record is answered, after which the requests are sent again,
    and no other ones are sent. -/
structure Emits (reqs : List Json) (log : List Io) : Prop where
  rearms : ∀ before io challenge after, log = before ++ io :: after →
    io.challenge? C = some challenge → ResentIn C reqs after
  sendsOnly : ∀ io ∈ log, ∀ subId filter,
    io.frame? C = some (reqFrame subId filter) → reqFrame subId filter ∈ reqs

variable {C}

theorem ResentIn.append {reqs : List Json} {log : List Io} (h : ResentIn C reqs log)
    (more : List Io) : ResentIn C reqs (log ++ more) := by
  obtain ⟨before, answer, auth, after, rfl, hanswer, hsent⟩ := h
  refine ⟨before, answer, auth, after ++ more, by simp, hanswer, fun req hreq => ?_⟩
  obtain ⟨io, hio, hframe⟩ := hsent req hreq
  exact ⟨io, List.mem_append_left _ hio, hframe⟩

namespace Emits

variable {reqs : List Json} {log log' : List Io}

theorem nil : Emits C reqs [] where
  rearms before io challenge after h := by simp at h
  sendsOnly io h := by cases h

theorem append (h : Emits C reqs log) (h' : Emits C reqs log') : Emits C reqs (log ++ log') where
  rearms before io challenge after heq hio := by
    -- The challenge is on the first record or on the second one.
    rcases List.append_eq_append_iff.1 heq with ⟨mid, rfl, hlog'⟩ | ⟨mid, rfl, hmid⟩
    · exact h'.rearms mid io challenge after hlog' hio
    · rcases List.cons_eq_append_iff.1 hmid with ⟨rfl, hlog'⟩ | ⟨mid, rfl, rfl⟩
      · exact h'.rearms [] io challenge after hlog' hio
      · exact (h.rearms before io challenge mid rfl hio).append log'
  sendsOnly io hio := by
    rcases List.mem_append.1 hio with hio | hio
    · exact h.sendsOnly io hio
    · exact h'.sendsOnly io hio

/-- A record without challenges. -/
theorem of_unchallenged (hchallenge : ∀ io ∈ log, io.challenge? C = none)
    (hsends : ∀ io ∈ log, ∀ subId filter, io.frame? C = some (reqFrame subId filter) →
      reqFrame subId filter ∈ reqs) : Emits C reqs log where
  rearms before io challenge after heq hio := by
    have hnone := hchallenge io (by simp [heq])
    rw [hnone] at hio
    cases hio
  sendsOnly := hsends

end Emits

/-- What is sent, if the connection takes it. -/
theorem frame?_sent (hj : C.json.RoundTrips) {frame frame' : Json} (henc : frame.Encodable 127)
    {result : Result Unit} (h : Io.frame? C (.sent (C.json.toString frame) result) = some frame') :
    frame' = frame := by
  rcases result with e | _
  · cases h
  · have hsome : Io.frame? C (.sent (C.json.toString frame) (.ok ())) = some frame := by
      rw [Io.frame?, (hj _ henc).1]
      rfl
    exact Option.some.inj (h.symm.trans hsome)

/-- A frame that opens no other subscription may be sent. -/
theorem emits_sent (hj : C.json.RoundTrips) {reqs : List Json} {frame : Json}
    (henc : frame.Encodable 127)
    (hreqs : ∀ subId filter, frame = reqFrame subId filter → frame ∈ reqs)
    (result : Result Unit) : Emits C reqs [.sent (C.json.toString frame) result] := by
  refine .of_unchallenged ?_ ?_
  · rintro io hio
    rw [List.mem_singleton.1 hio]
    rfl
  · intro io hio subId filter hframe
    rw [List.mem_singleton.1 hio] at hframe
    have hsent := frame?_sent hj henc hframe
    exact hsent ▸ hreqs subId filter hsent.symm

/-- A challenge is answered, and the requests are sent again. -/
theorem emits_answered (hj : C.json.RoundTrips) {reqs : List Json} {text : String} {auth : Event}
    {more : List Io} (hmore : Emits C reqs more)
    (hreqs : ∀ req ∈ reqs, ∃ io ∈ more, io.frame? C = some req) :
    Emits C reqs (.received (.ok (some text)) ::
      .sent (C.json.toString (authFrame auth)) (.ok ()) :: more) where
  rearms before io challenge after heq hio := by
    have hanswer : Io.frame? C (.sent (C.json.toString (authFrame auth)) (.ok ())) =
        some (authFrame auth) := by
      rw [Io.frame?, (hj _ (encodable_authFrame auth)).1]
      rfl
    rcases before with _ | ⟨io₁, _ | ⟨io₂, before⟩⟩
    · -- The challenge itself.
      obtain ⟨-, rfl⟩ := List.cons.inj heq
      exact ⟨[], _, auth, more, rfl, hanswer, hreqs⟩
    · obtain ⟨-, heq⟩ := List.cons.inj heq
      obtain ⟨rfl, -⟩ := List.cons.inj heq
      cases hio
    · obtain ⟨-, heq⟩ := List.cons.inj heq
      obtain ⟨-, heq⟩ := List.cons.inj heq
      exact hmore.rearms before io challenge after heq hio
  sendsOnly io hio subId filter hframe := by
    rcases List.mem_cons.1 hio with rfl | hio
    · cases hframe
    rcases List.mem_cons.1 hio with rfl | hio
    · have h := frame?_sent hj (encodable_authFrame auth) hframe
      simp [reqFrame, authFrame] at h
    · exact hmore.sendsOnly io hio subId filter hframe

/-! ## Calls -/

variable {σ : Type} {client client' : RelayClient (Recorded σ)}

/-- What is on the record of `client'` beyond that of `client`. -/
def Records (C : Crates) (reqs : List Json) (client client' : RelayClient (Recorded σ)) : Prop :=
  ∃ more, client'.conn.log = client.conn.log ++ more ∧ Emits C reqs more

theorem Records.trans {reqs : List Json} {client client₁ client₂ : RelayClient (Recorded σ)}
    (h : Records C reqs client client₁) (h' : Records C reqs client₁ client₂) :
    Records C reqs client client₂ := by
  obtain ⟨more, hlog, hmore⟩ := h
  obtain ⟨more', hlog', hmore'⟩ := h'
  exact ⟨more ++ more', by rw [hlog', hlog, List.append_assoc], hmore.append hmore'⟩

variable [RelayConnection σ]

/-- Sending a frame that opens no other subscription. -/
theorem records_sendFrame (hj : C.json.RoundTrips) {reqs : List Json} {frame : Json}
    {result : Result Unit} (henc : frame.Encodable 127)
    (hreqs : ∀ subId filter, frame = reqFrame subId filter → frame ∈ reqs)
    (h : sendFrame C frame client = (result, client')) : Records C reqs client client' :=
  ⟨_, log_of_sendFrame h, emits_sent hj henc hreqs _⟩

theorem records_sendEvent (hj : C.json.RoundTrips) {event : Event} {result : Result Unit}
    (h : sendFrame C (eventFrame event) client = (result, client')) :
    Records C [] client client' :=
  records_sendFrame hj (encodable_eventFrame event) (by simp [eventFrame, reqFrame]) h

variable [Clock σ]

theorem challenge?_eq_none {text : String} (h : (parseRelayMessage C text).isAuth = false) :
    Io.challenge? C (.received (.ok (some text))) = none := by
  rw [Io.challenge?]
  split
  · rename_i challenge hp
    rw [hp] at h
    cases h
  · rfl

/-- What is received may be anything but a challenge. -/
theorem emits_received {reqs : List Json} {result : Result (Option String)}
    (h : Io.challenge? C (.received result) = none) : Emits C reqs [.received result] := by
  refine .of_unchallenged (fun io hio => ?_) fun io hio subId filter hframe => ?_
  · rw [List.mem_singleton.1 hio, h]
  · rw [List.mem_singleton.1 hio] at hframe
    cases hframe

/-- Receiving a message leaves a record, on which a challenge is answered. -/
theorem Received.emits (hj : C.json.RoundTrips) {m : Option RelayMessage} {more : List Io}
    (h : Received C m more) : Emits C [] more := by
  rcases h with _ | ⟨text, h⟩ | ⟨text, challenge, auth, h⟩
  · exact emits_received rfl
  · exact emits_received (challenge?_eq_none h)
  · exact emits_answered hj .nil (by simp)

/-- Receiving a message opens no subscription. -/
theorem recvMsg_records (hj : C.json.RoundTrips) {timeout : Duration} {m : Option RelayMessage}
    (h : recvMsg C timeout client = (.ok m, client')) : Records C [] client client' := by
  obtain ⟨more, hlog, hreceived⟩ := recvMsg_received h
  exact ⟨more, hlog, hreceived.emits hj⟩

/-! ### Publishing -/

/-- A round of publishing opens no subscription. -/
theorem publishRound_records (hj : C.json.RoundTrips) {event : Event} {timeout : Duration}
    {resent : Bool} {r : Eff.Round Bool (Bool × String)}
    (h : publishRound C event timeout resent client = (.ok r, client')) :
    Records C [] client client' := by
  rcases hrecv : recvMsg C timeout client with ⟨e | _ | m, client₁⟩
  · rw [publishRound_of_error hrecv] at h
    cases (Prod.mk.inj h).1
  · rw [publishRound_of_none hrecv] at h
    cases (Prod.mk.inj h).1
  have hrecords := recvMsg_records hj hrecv
  cases hm : m.isAuth with
  | false =>
    rw [publishRound_of_message hrecv hm] at h
    exact (Prod.mk.inj h).2 ▸ hrecords
  | true =>
    obtain ⟨challenge, rfl⟩ := RelayMessage.isAuth_eq_true_iff.1 hm
    rw [publishRound_of_auth hrecv] at h
    split at h
    · exact (Prod.mk.inj h).2 ▸ hrecords
    · -- The event is sent once more.
      exact (Prod.mk.inj h).2 ▸ hrecords.trans (records_sendEvent hj rfl)

theorem publish_records (hj : C.json.RoundTrips) {event : Event} {timeout : Duration}
    {verdict : Bool × String}
    (h : publish C event timeout client = (.ok verdict, client')) :
    Records C [] client client' := by
  obtain ⟨_, client₁, hsend, h⟩ := Eff.bind_eq_ok.1 h
  obtain ⟨verdict', client₂, hloop, h⟩ := Eff.bind_eq_ok.1 h
  have hsent := records_sendEvent hj hsend
  rcases verdict' with _ | verdict'
  · cases h
  · have hrounds : Records C [] client client₂ :=
      Eff.loop_of_invariant (fun _ s => Records C [] client s) (fun _ s => Records C [] client s)
        (fun _ _ _ _ hinv hround => hinv.trans (publishRound_records hj hround))
        (fun _ _ _ _ hinv hround => hinv.trans (publishRound_records hj hround)) hsent hloop
    exact (Prod.mk.inj h).2 ▸ hrounds

/-! ### Querying -/

/-- A query opens its own subscription. -/
theorem emits_sentReq (hj : C.json.RoundTrips) (subId : String) (filter : Filter)
    (result : Result Unit) :
    Emits C [reqFrame subId filter] [.sent (C.json.toString (reqFrame subId filter)) result] :=
  emits_sent hj (encodable_reqFrame subId filter) (fun _ _ _ => List.mem_singleton_self _) result

/-- A round of a query opens its own subscription only, and again when challenged. -/
theorem queryRound_records (hj : C.json.RoundTrips) {subId : String} {filter : Filter}
    {idle : Duration} {events : List Event} {r : Eff.Round (List Event) (List Event)}
    (h : queryRound C subId filter idle events client = (.ok r, client')) :
    Records C [reqFrame subId filter] client client' := by
  rcases queryRound_received h with ⟨hlog, -⟩ | ⟨text, hm, hlog, -⟩ |
    ⟨text, challenge, auth, hp, hlog, -⟩
  · exact ⟨_, hlog, emits_received rfl⟩
  · exact ⟨_, hlog, emits_received (challenge?_eq_none hm)⟩
  · -- After the answer the subscription is sent again.
    have hreq : Io.frame? C (.sent (C.json.toString (reqFrame subId filter)) (.ok ())) =
        some (reqFrame subId filter) := by
      rw [Io.frame?, (hj _ (encodable_reqFrame subId filter)).1]
      rfl
    refine ⟨_, hlog, emits_answered hj (emits_sentReq hj subId filter (.ok ())) fun req h => ?_⟩
    rw [List.mem_singleton.1 h]
    exact ⟨_, List.mem_singleton_self _, hreq⟩

/-- A query opens its own subscription only, and again when challenged. -/
theorem query_records (hj : C.json.RoundTrips) {rounds : Nat} {filter : Filter} {idle : Duration}
    {events : List Event}
    (h : query C rounds filter idle client = (.ok (some events), client')) :
    Records C [reqFrame client.querySubId filter] client client' := by
  obtain ⟨client₁, client₂, hreq, hloop, rfl⟩ := query_eq_some h
  have hlog := log_of_sendFrame hreq
  have hsent : Records C [reqFrame client.querySubId filter] client client₁ :=
    ⟨_, hlog, emits_sentReq hj _ filter (.ok ())⟩
  have hrounds : Records C [reqFrame client.querySubId filter] client client₂ :=
    Eff.loop_of_invariant (fun _ s => Records C _ client s) (fun _ s => Records C _ client s)
      (fun _ _ _ _ hinv hround => hinv.trans (queryRound_records hj hround))
      (fun _ _ _ _ hinv hround => hinv.trans (queryRound_records hj hround)) hsent hloop
  exact hrounds.trans
    (records_sendFrame hj (encodable_closeFrame _) (by simp [closeFrame, reqFrame]) rfl)

/-! ### Listening -/

/-- Receiving an event opens no subscription. -/
theorem pollEvent_records (hj : C.json.RoundTrips) {timeout : Duration}
    {event : Option (String × Event)}
    (h : pollEvent C timeout client = (.ok event, client')) : Records C [] client client' := by
  obtain ⟨m, client₁, hrecv, h⟩ := Eff.bind_eq_ok.1 h
  have hrecords := recvMsg_records hj hrecv
  rcases m with _ | m
  · exact (Prod.mk.inj h).2 ▸ hrecords
  cases m with
  | event subId event =>
    dsimp only at h
    split at h <;> exact (Prod.mk.inj h).2 ▸ hrecords
  | _ => exact (Prod.mk.inj h).2 ▸ hrecords

/-! ## Exchanges -/

/-- The call returns the challenges it reads. -/
def Call.returnsChallenges : Call → Bool
  | .poll _ => true
  | _ => false

/-- The requests a call sends, and sends again when it is challenged. -/
def Call.reqs (client : RelayClient σ) : Call → List Json
  | .subscribe subId filter => [reqFrame subId filter]
  | .query _ filter _ => [reqFrame client.querySubId filter]
  | _ => []

/-- The result of the call behind a reply. -/
theorem exists_of_map {α S : Type} {f : Result α → Reply} {x : Result α × S} {reply : Reply} {s : S}
    (h : x.map f id = (reply, s)) : ∃ r, x = (r, s) ∧ f r = reply :=
  ⟨x.1, Prod.ext rfl (Prod.mk.inj h).2, (Prod.mk.inj h).1⟩

/-- What a call other than `poll` sends, and sends again when it is challenged. -/
theorem perform_records (hj : C.json.RoundTrips) {call : Call} {reply : Reply}
    (hcall : call.returnsChallenges = false) (hok : reply.isOk = true)
    (h : perform C call client = (reply, client')) :
    Records C (call.reqs client) client client' := by
  cases call with
  | poll timeout => cases hcall
  | subscribe subId filter =>
    rw [perform] at h
    obtain ⟨result, hsend, -⟩ := exists_of_map h
    exact ⟨_, log_of_sendFrame hsend, emits_sentReq hj subId filter result⟩
  | unsubscribe subId =>
    rw [perform] at h
    obtain ⟨result, hsend, -⟩ := exists_of_map h
    exact records_sendFrame hj (encodable_closeFrame subId) (by simp [closeFrame, reqFrame]) hsend
  | publish event timeout =>
    obtain ⟨result, hpublish, rfl⟩ := exists_of_map h
    rcases result with e | verdict
    · cases hok
    · exact publish_records hj hpublish
  | query rounds filter idle =>
    obtain ⟨result, hquery, rfl⟩ := exists_of_map h
    rcases result with e | _ | events
    · cases hok
    · cases hok
    · exact query_records hj hquery
  | pollEvent timeout =>
    obtain ⟨result, hpoll, rfl⟩ := exists_of_map h
    rcases result with e | event
    · cases hok
    · exact pollEvent_records hj hpoll

variable {opened : List (String × Filter)} {client : RelayClient σ}

omit [RelayConnection σ] [Clock σ] in
theorem reqs_recorded (call : Call) : call.reqs client.recorded = call.reqs client := by
  cases call with
  | _ => rfl

/-- The record of a call starts empty. -/
theorem emits_exchange (hj : C.json.RoundTrips) {call : Call}
    (hcall : call.returnsChallenges = false)
    (hok : (exchange C opened call client).reply.isOk = true) :
    Emits C (call.reqs client) (exchange C opened call client).log := by
  rcases h : perform C call client.recorded with ⟨reply, client'⟩
  rw [exchange, h] at hok ⊢
  obtain ⟨more, hlog, hmore⟩ := perform_records hj hcall hok h
  rw [reqs_recorded] at hmore
  exact hlog ▸ hmore

/-- `poll` returns the challenge it reads. -/
theorem survives_poll (timeout : Duration) :
    (exchange C opened (.poll timeout) client).Survives C := by
  intro hok _ before io challenge after heq hio
  rcases h : poll C timeout client.recorded with ⟨e | m, client'⟩
  · rw [exchange, perform, h] at hok
    cases hok
  have hexchange : exchange C opened (.poll timeout) client =
      ⟨.poll timeout, .message (.ok m), client'.conn.log, opened⟩ := by
    rw [exchange, perform, h]
    rfl
  rw [hexchange] at heq ⊢
  obtain ⟨more, hmore, hreceived⟩ := recvMsg_received h
  have hmem : io ∈ more := by
    have hlog : io ∈ client'.conn.log := by
      rw [show client'.conn.log = _ from heq]
      exact List.mem_append_right _ List.mem_cons_self
    rwa [hmore] at hlog
  rcases hreceived with _ | ⟨text, hm⟩ | ⟨text, challenge', auth, hp⟩
  · rw [List.mem_singleton.1 hmem] at hio
    cases hio
  · rw [List.mem_singleton.1 hmem, challenge?_eq_none hm] at hio
    cases hio
  · rcases List.mem_cons.1 hmem with rfl | hmem
    · simp only [Io.challenge?, hp, Option.some.injEq] at hio
      exact .inr (by rw [hio])
    · rw [List.mem_singleton.1 hmem] at hio
      cases hio

/-- A listener survives a call if and only if the call returns the challenge it reads,
    or sends again the requests of all open subscriptions itself. -/
theorem survives_exchange_iff (hj : C.json.RoundTrips) (call : Call) :
    (exchange C opened call client).Survives C ↔
      (call.returnsChallenges = false → (exchange C opened call client).reply.isOk = true →
        (exchange C opened call client).Challenged C →
          ∀ p ∈ opened, reqFrame p.1 p.2 ∈ call.reqs client) := by
  constructor
  · rintro hsurvives hcall hok ⟨io, hio, challenge, hchallenge⟩ p hp
    obtain ⟨before, after, heq⟩ := List.append_of_mem hio
    have hopen : opened ≠ [] := List.ne_nil_of_mem hp
    rcases hsurvives hok hopen before io challenge after heq hchallenge with hresent | hreply
    · obtain ⟨_, _, _, after', hafter, -, hsent⟩ := hresent
      obtain ⟨io', hio', hframe⟩ := hsent (reqFrame p.1 p.2) (List.mem_map_of_mem hp)
      refine (emits_exchange hj hcall hok).sendsOnly io' ?_ p.1 p.2 hframe
      rw [heq, hafter]
      simp [hio']
    · cases call with
      | poll timeout => cases hcall
      | _ => cases hreply
  · intro hcond
    cases hcall : call.returnsChallenges with
    | true =>
      cases call with
      | poll timeout => exact survives_poll timeout
      | _ => cases hcall
    | false =>
      intro hok _ before io challenge after heq hio
      have hreqs := hcond hcall hok ⟨io, by simp [heq], challenge, hio⟩
      obtain ⟨before', answer, auth, after', hafter, hanswer, hsent⟩ :=
        (emits_exchange hj hcall hok).rearms before io challenge after heq hio
      refine .inl ⟨before', answer, auth, after', hafter, hanswer, fun req h => ?_⟩
      obtain ⟨p, hp, rfl⟩ := List.mem_map.1 h
      exact hsent _ (hreqs p hp)

/-! ## Runs -/

/-- A listener survives the challenges of a run if and only if no call but `poll` reads
    one while a subscription is open, except for a query whose request, with its id and
    its filter, is that of the only open subscription. -/
theorem survives_iff (hj : C.json.RoundTrips) (calls : List Call)
    (opened : List (String × Filter)) (client : RelayClient σ) :
    (∀ x ∈ run C calls opened client, x.Survives C) ↔
      ∀ v ∈ visits C calls opened client, v.call.returnsChallenges = false →
        (v.exchange C).reply.isOk = true → (v.exchange C).Challenged C →
          ∀ p ∈ v.opened, reqFrame p.1 p.2 ∈ v.call.reqs v.client := by
  rw [run_eq_map_visits, List.forall_mem_map]
  exact forall₂_congr fun v _ => survives_exchange_iff hj v.call

/-- On a connection on which a challenge arrives, which can be answered. -/
theorem recvMsg_script {client : RelayClient Script} {text challenge : String} {auth : Event}
    (timeout : Duration) (hitems : client.conn.items = [.ok (some text)])
    (hp : parseRelayMessage C text = .auth challenge)
    (hauth : Event.create C client.signer Kinds.auth
      [["relay", client.url], ["challenge", challenge]] "" 0 = .ok auth) :
    ∃ client', recvMsg C timeout client.recorded = (.ok (some (.auth challenge)), client') ∧
      .received (.ok (some text)) ∈ client'.conn.log := by
  obtain ⟨⟨items⟩, url, signer, nextSub⟩ := client
  obtain rfl : items = _ := hitems
  obtain ⟨c₁, hrecv, hc₁⟩ : ∃ c₁ : RelayClient (Recorded Script),
      onConn (RelayConnection.recv timeout)
          (recorded ⟨⟨[.ok (some text)]⟩, url, signer, nextSub⟩) = (.ok (some text), c₁) ∧
        c₁ = ⟨⟨⟨[]⟩, [.received (.ok (some text))]⟩, url, signer, nextSub⟩ := ⟨_, rfl, rfl⟩
  have hevent : authEvent C challenge c₁ = .ok auth := hc₁ ▸ hauth
  obtain ⟨c₂, hsend, hc₂⟩ : ∃ c₂, sendFrame C (authFrame auth) c₁ = (.ok (), c₂) ∧
      c₂.conn.log = [.received (.ok (some text)),
        .sent (C.json.toString (authFrame auth)) (.ok ())] := by
    subst hc₁
    exact ⟨_, rfl, rfl⟩
  refine ⟨c₂, ?_, by rw [hc₂]; simp⟩
  rw [recvMsg, Eff.bind_ok hrecv]
  simp only [hp, answer, answerAuth, Eff.bind_apply, Eff.read_apply, hevent, hsend, Eff.pure_apply]

/-- A client that reads a challenge after it has subscribed. -/
theorem exists_challenged : ∃ (client : RelayClient Script) (client₁ client' : _) (text : String),
    perform Reference.crates (.subscribe "dm" {}) client.recorded = (.done (.ok ()), client₁) ∧
    client₁.erase = client ∧
    recvMsg Reference.crates 5 client.recorded = (.ok (some (.auth "c")), client') ∧
    parseRelayMessage Reference.crates text = .auth "c" ∧
    .received (.ok (some text)) ∈ client'.conn.log := by
  obtain ⟨text, hp⟩ : ∃ text, parseRelayMessage Reference.crates text = .auth "c" :=
    exists_text Reference.json_roundTrips (by simp)
  obtain ⟨auth, hauth⟩ := Reference.create_eq_ok Reference.one Kinds.auth
    [["relay", "wss://relay.example"], ["challenge", "c"]] "" 0
  obtain ⟨client, hitems, hcreate⟩ : ∃ client : RelayClient Script,
      client.conn.items = [.ok (some text)] ∧ Event.create Reference.crates client.signer Kinds.auth
        [["relay", client.url], ["challenge", "c"]] "" 0 = .ok auth :=
    ⟨.new ⟨_⟩ "wss://relay.example" (Reference.signer Reference.one).toSigner, rfl, hauth⟩
  obtain ⟨client', hrecv, hread⟩ := recvMsg_script 5 hitems hp hcreate
  exact ⟨client, _, client', text, rfl, rfl, hrecv, hp, hread⟩

/-- A listener that polls survives a challenge. -/
theorem survives_iff_poll : ∃ client : RelayClient Script,
    (∃ x ∈ run Reference.crates [.subscribe "dm" {}, .poll 5] [] client,
      x.opened = [("dm", {})] ∧ x.Challenged Reference.crates) ∧
    ∀ x ∈ run Reference.crates [.subscribe "dm" {}, .poll 5] [] client,
      x.Survives Reference.crates := by
  obtain ⟨client, client₁, client', text, hsubscribe, hclient₁, hrecv, hp, hread⟩ :=
    exists_challenged
  refine ⟨client, ⟨exchange Reference.crates [("dm", {})] (.poll 5) client, ?_, rfl,
    .received (.ok (some text)), ?_, "c", ?_⟩, ?_⟩
  · rw [run_cons_of_perform _ hsubscribe rfl, hclient₁]
    exact List.mem_cons_of_mem _ List.mem_cons_self
  · rw [exchange, perform, poll, hrecv]
    exact hread
  · simp only [Io.challenge?, hp]
  · refine (survives_iff Reference.json_roundTrips _ _ _).2 fun v hv hcall _ _ => ?_
    rcases List.mem_cons.1 hv with rfl | hv
    · exact List.forall_mem_nil _
    · split at hv
      · rcases List.mem_cons.1 hv with rfl | hv
        · cases hcall
        · split at hv <;> cases hv
      · cases hv

/-- A challenge that is read by `pollEvent` while a subscription is open: the
    subscription is not sent again, and the caller does not learn of it. -/
theorem challenge_is_swallowed :
    ¬∀ (σ : Type) [RelayConnection σ] [Clock σ] (calls : List Call) (client : RelayClient σ),
      ∀ x ∈ run Reference.crates calls [] client, x.Survives Reference.crates := by
  intro hclaim
  obtain ⟨client, client₁, client', text, hsubscribe, hclient₁, hrecv, hp, hread⟩ :=
    exists_challenged
  have hpoll : perform Reference.crates (.pollEvent 5) client.recorded =
      (.event (.ok none), client') := by
    rw [perform, pollEvent, Eff.bind_ok hrecv]
    rfl
  have hsurvives := hclaim Script [.subscribe "dm" {}, .pollEvent 5] client
    (exchange Reference.crates [("dm", {})] (.pollEvent 5) client) (by
      rw [run_cons_of_perform _ hsubscribe rfl, hclient₁]
      exact List.mem_cons_of_mem _ List.mem_cons_self)
  have hcond := (survives_exchange_iff Reference.json_roundTrips _).1 hsurvives rfl
    (by rw [exchange, hpoll]; rfl)
    ⟨_, by rw [exchange, hpoll]; exact hread, "c", by simp only [Io.challenge?, hp]⟩
  exact absurd (hcond ("dm", {}) (List.mem_singleton_self _)) (by simp [Call.reqs])

end RelayClient

end UnicityNostr
