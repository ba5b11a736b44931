import UnicityNostr.Client.Feed
import UnicityNostr.Client.Round
import UnicityNostr.Reference

/-!
# The acknowledgement of a published event

What publishing an event does for every sequence of items received, with a
connection that takes every frame and a signer that signs.

* `answer_auth`: a challenge is answered once;
* `publishLoop_acknowledged`: what the wait for the acknowledgement reads, sends
  and ends in;
* `publish_acknowledged`: the verdict is the first acknowledgement of the event
  among the first 64 items, and the event is sent once more if it is challenged.
-/

namespace UnicityNostr.RelayClient

variable (C : Crates)

/-- The first acknowledgement of the event `id`, before which only messages are
    received, gives the verdict `v`. -/
def Acknowledges (id : String) (items : List (Result (Option String))) (v : Bool × String) :
    Prop :=
  ∃ (before : List String) (text : String) (after : List (Result (Option String))),
    items = before.map (fun t => .ok (some t)) ++ .ok (some text) :: after ∧
    (∀ t ∈ before, (parseRelayMessage C t).verdictOn id = none) ∧
    (parseRelayMessage C text).verdictOn id = some v

/-- The challenge that is read. -/
def challengeOf : Result (Option String) → Option String
  | .ok (some text) =>
    match parseRelayMessage C text with
    | .auth challenge => some challenge
    | _ => none
  | _ => none

/-- The frame, sent and taken by the connection. -/
def took (frame : Json) : Io := .sent (C.json.toString frame) (.ok ())

/-- What is sent while waiting for the acknowledgement of an event: the answers to
    the challenges, and the event once more after the first one, unless it has been
    resent before. -/
def sentWaiting (event : Event) : Bool → List Event → List Io
  | false, auth :: auths =>
    took C (authFrame auth) :: took C (eventFrame event) :: auths.map fun a => took C (authFrame a)
  | _, auths => auths.map fun a => took C (authFrame a)

/-- The tags of the answer to a challenge. -/
def authTags (url challenge : String) : List Tag := [["relay", url], ["challenge", challenge]]

variable {C}

theorem challengeOf_of_not_auth {text : String} (h : (parseRelayMessage C text).isAuth = false) :
    challengeOf C (.ok (some text)) = none := by
  rw [challengeOf]
  split
  · rename_i challenge hp
    rw [hp] at h
    cases h
  · rfl

/-! ## Acknowledgements -/

section

variable {id text : String} {items : List (Result (Option String))} {v v' : Bool × String}

theorem not_acknowledges_nil : ¬Acknowledges C id [] v := by
  rintro ⟨before, text, after, heq, -⟩
  cases before <;> cases heq

theorem not_acknowledges {item : Result (Option String)} (h : ∀ text, item ≠ .ok (some text)) :
    ¬Acknowledges C id (item :: items) v := by
  rintro ⟨_ | ⟨t, before⟩, text, after, heq, -, -⟩
  · exact h _ (List.cons.inj heq).1
  · exact h _ (List.cons.inj heq).1

theorem acknowledges_of_verdict (h : (parseRelayMessage C text).verdictOn id = some v) :
    Acknowledges C id (.ok (some text) :: items) v' ↔ v' = v := by
  constructor
  · rintro ⟨_ | ⟨t, before⟩, text', after, heq, hbefore, hv'⟩
    · obtain rfl := Option.some.inj (Except.ok.inj (List.cons.inj heq).1)
      exact Option.some.inj (hv'.symm.trans h)
    · obtain rfl := Option.some.inj (Except.ok.inj (List.cons.inj heq).1)
      cases (hbefore text List.mem_cons_self).symm.trans h
  · rintro rfl
    exact ⟨[], text, items, rfl, List.forall_mem_nil _, h⟩

theorem acknowledges_cons (h : (parseRelayMessage C text).verdictOn id = none) :
    Acknowledges C id (.ok (some text) :: items) v ↔ Acknowledges C id items v := by
  constructor
  · rintro ⟨_ | ⟨t, before⟩, text', after, heq, hbefore, hv⟩
    · obtain rfl := Option.some.inj (Except.ok.inj (List.cons.inj heq).1)
      cases h.symm.trans hv
    · exact ⟨before, text', after, (List.cons.inj heq).2,
        (List.forall_mem_cons.1 hbefore).2, hv⟩
  · rintro ⟨before, text', after, rfl, hbefore, hv⟩
    exact ⟨text :: before, text', after, rfl, List.forall_mem_cons.2 ⟨h, hbefore⟩, hv⟩

end

/-! ## Waiting -/

variable {σ : Type} [RelayConnection σ] [Clock σ] {client : RelayClient (Recorded σ)}
  {event : Event} {timeout : Duration} {resent : Bool}

omit [Clock σ] in
/-- A connection that takes every frame. -/
theorem sendFrame_took (hsend : ∀ (text : String) (s : σ), (RelayConnection.send text s).1 = .ok ())
    (frame : Json) (client : RelayClient (Recorded σ)) :
    ∃ client', sendFrame C frame client = (.ok (), client') ∧
      client'.conn.log = client.conn.log ++ [took C frame] ∧
      client'.signer = client.signer ∧ client'.url = client.url := by
  obtain ⟨⟨conn, log⟩, url, signer, nextSub⟩ := client
  have h := hsend (C.json.toString frame) conn
  rcases hs : RelayConnection.send (C.json.toString frame) conn with ⟨result, conn'⟩
  rw [hs] at h
  obtain rfl : result = .ok () := h
  exact ⟨⟨⟨conn', log ++ [took C frame]⟩, url, signer, nextSub⟩,
    by simp only [sendFrame, onConn, RelayConnection.send, hs, took], rfl, rfl, rfl⟩

/-- A challenge is answered once. -/
theorem answer_auth (hx : C.hex.RoundTrips)
    (hsend : ∀ (text : String) (s : σ), (RelayConnection.send text s).1 = .ok ())
    (hs : client.signer.Signs) (challenge : String) :
    ∃ auth client', answer C (.auth challenge) client = (.ok (), client') ∧
      auth.tags = authTags client.url challenge ∧
      client'.conn.log = client.conn.log ++ [took C (authFrame auth)] ∧
      client'.signer = client.signer ∧ client'.url = client.url := by
  obtain ⟨auth, hauth⟩ : ∃ auth, authEvent C challenge client = .ok auth :=
    Event.exists_create hx hs _ _ _ _
  obtain ⟨client', hsent, hlog, hsigner, hurl⟩ :=
    sendFrame_took (C := C) hsend (authFrame auth) client
  have hread : Eff.read (authEvent C challenge) client = (.ok auth, client) :=
    congrArg (·, client) hauth
  refine ⟨auth, client', ?_, ?_, hlog, hsigner, hurl⟩
  · rw [answer, answerAuth, Eff.bind_ok hread, hsent]
  · obtain ⟨sig, -, rfl⟩ := (Event.create_eq_ok hx).1 hauth
    rfl

/-- What the wait for the acknowledgement reads, sends and ends in. -/
structure Waited (C : Crates) (event : Event) (n : Nat) (resent : Bool)
    (items : List (Result (Option String))) (client : RelayClient (Recorded σ))
    (result : Result (Option (Bool × String))) (client' : RelayClient (Feed (Recorded σ))) :
    Prop where
  verdict : ∀ v, result = .ok (some v) ↔ Acknowledges C event.id (items.take n) v
  reads : ∃ read auths, items = read ++ client'.conn.items ∧ read.length ≤ n ∧
    auths.map Event.tags = (read.filterMap (challengeOf C)).map (authTags client.url) ∧
    client'.conn.conn.log = client.conn.log ++ sentWaiting C event resent auths

namespace Waited

omit [RelayConnection σ] [Clock σ]

variable {n : Nat} {items : List (Result (Option String))} {text : String}
  {result : Result (Option (Bool × String))} {client' : RelayClient (Feed (Recorded σ))}

/-- A wait that ends without a verdict, and without having read a challenge. -/
theorem of_failed {read rest : List (Result (Option String))}
    (hresult : ∀ v, result ≠ .ok (some v))
    (hnot : ∀ v, ¬Acknowledges C event.id (items.take n) v) (hitems : items = read ++ rest)
    (hlen : read.length ≤ n) (hread : read.filterMap (challengeOf C) = []) :
    Waited C event n resent items client result (client.feed rest) where
  verdict v := iff_of_false (hresult v) (hnot v)
  reads := by
    refine ⟨read, [], hitems, hlen, by rw [hread]; rfl, ?_⟩
    cases resent <;> exact (List.append_nil _).symm

/-- A verdict ends the wait. -/
theorem of_verdict {v : Bool × String}
    (hverdict : (parseRelayMessage C text).verdictOn event.id = some v) :
    Waited C event (n + 1) resent (.ok (some text) :: items) client (.ok (some v))
      (client.feed items) where
  verdict v' := by
    rw [List.take_succ_cons, acknowledges_of_verdict hverdict, Except.ok.injEq,
      Option.some.injEq, eq_comm]
  reads := by
    have hauth := challengeOf_of_not_auth (RelayMessage.isAuth_of_verdictOn hverdict)
    refine ⟨[_], [], rfl, Nat.succ_le_succ (Nat.zero_le n), ?_, ?_⟩
    · rw [List.filterMap_cons_none hauth]
      rfl
    · cases resent <;> exact (List.append_nil _).symm

/-- A message that is neither a verdict nor a challenge is passed over. -/
theorem cons (h : Waited C event n resent items client result client')
    (hverdict : (parseRelayMessage C text).verdictOn event.id = none)
    (hauth : challengeOf C (.ok (some text)) = none) :
    Waited C event (n + 1) resent (.ok (some text) :: items) client result client' where
  verdict v := by rw [List.take_succ_cons, acknowledges_cons hverdict, h.verdict v]
  reads := by
    obtain ⟨read, auths, hitems, hlen, htags, hlog⟩ := h.reads
    refine ⟨.ok (some text) :: read, auths, congrArg _ hitems, Nat.succ_le_succ hlen, ?_, hlog⟩
    rw [List.filterMap_cons_none hauth, htags]

/-- After a challenge, the wait goes on once it has been answered, and the event sent
    once more unless it had been resent. -/
theorem challenged {challenge : String} {auth : Event} {client₁ : RelayClient (Recorded σ)}
    (h : Waited C event n true items client₁ result client')
    (hp : parseRelayMessage C text = .auth challenge)
    (htag : auth.tags = authTags client.url challenge) (hurl : client₁.url = client.url)
    (hlog₁ : client₁.conn.log = client.conn.log ++ sentWaiting C event resent [auth]) :
    Waited C event (n + 1) resent (.ok (some text) :: items) client result client' where
  verdict v := by
    have hverdict : (parseRelayMessage C text).verdictOn event.id = none := by rw [hp]; rfl
    rw [List.take_succ_cons, acknowledges_cons hverdict, h.verdict v]
  reads := by
    obtain ⟨read, auths, hitems, hlen, htags, hlog⟩ := h.reads
    have hchallenge : challengeOf C (.ok (some text)) = some challenge := by
      simp only [challengeOf, hp]
    refine ⟨.ok (some text) :: read, auth :: auths, congrArg _ hitems, Nat.succ_le_succ hlen,
      ?_, ?_⟩
    · rw [List.filterMap_cons_some hchallenge, List.map_cons, List.map_cons, htags, htag, hurl]
    · rw [hlog, hlog₁, List.append_assoc]
      cases resent <;> rfl

end Waited

/-- A round on a challenge answers it, and sends the event once more unless it has been
    resent. -/
theorem publishRound_challenge (hx : C.hex.RoundTrips)
    (hsend : ∀ (text : String) (s : σ), (RelayConnection.send text s).1 = .ok ())
    (hs : client.signer.Signs) {text challenge : String}
    (hp : parseRelayMessage C text = .auth challenge) (event : Event) (timeout : Duration)
    (resent : Bool) (items : List (Result (Option String))) :
    ∃ (auth : Event) (client₁ : RelayClient (Recorded σ)), publishRound C event timeout resent
        (client.feed (.ok (some text) :: items)) = (.ok (.next true), client₁.feed items) ∧
      auth.tags = authTags client.url challenge ∧
      client₁.conn.log = client.conn.log ++ sentWaiting C event resent [auth] ∧
      client₁.signer = client.signer ∧ client₁.url = client.url := by
  obtain ⟨auth, client₁, hanswer, htag, hlog₁, hs₁, hurl₁⟩ := answer_auth hx hsend hs challenge
  have hrecv : recvMsg C timeout (client.feed (.ok (some text) :: items)) =
      (.ok (some (.auth challenge)), client₁.feed items) := by
    rw [recvMsg_feed_text, hp, hanswer]
    rfl
  have hround : publishRound C event timeout resent _ = _ := publishRound_of_auth hrecv
  cases resent with
  | true => exact ⟨auth, client₁, hround, htag, hlog₁, hs₁, hurl₁⟩
  | false =>
    obtain ⟨client₂, hsent, hlog₂, hs₂, hurl₂⟩ :=
      sendFrame_took (C := C) hsend (eventFrame event) client₁
    refine ⟨auth, client₂, ?_, htag, ?_, hs₂.trans hs₁, hurl₂.trans hurl₁⟩
    · rw [hround, sendFrame_feed _ client₁, hsent]
      rfl
    · rw [hlog₂, hlog₁, List.append_assoc]
      rfl

/-- What the wait for the acknowledgement does with the items that are received. -/
theorem publishLoop_acknowledged (event : Event) (timeout : Duration) (hx : C.hex.RoundTrips)
    (hsend : ∀ (text : String) (s : σ), (RelayConnection.send text s).1 = .ok ()) (n : Nat)
    (items : List (Result (Option String))) (resent : Bool) (client : RelayClient (Recorded σ))
    (hs : client.signer.Signs) :
    ∃ result client', Eff.loop (publishRound C event timeout) n resent (client.feed items) =
      (result, client') ∧ Waited C event n resent items client result client' := by
  induction n generalizing items resent client with
  | zero =>
    exact ⟨.ok none, client.feed items, rfl, .of_failed (by simp) (fun v => not_acknowledges_nil)
      (List.nil_append items).symm (Nat.le_refl 0) rfl⟩
  | succ n ih =>
    rcases items with _ | ⟨e | _ | text, items⟩
    · exact ⟨_, _, Eff.bind_error (publishRound_of_none recvMsg_feed_nil) _,
        .of_failed (by simp) (fun v => not_acknowledges_nil) (List.nil_append []).symm
          (Nat.zero_le _) rfl⟩
    · exact ⟨_, _, Eff.bind_error (publishRound_of_error (recvMsg_feed_error e)) _,
        .of_failed (by simp) (fun v => not_acknowledges (by simp))
          (List.singleton_append).symm (Nat.succ_le_succ (Nat.zero_le n)) rfl⟩
    · exact ⟨_, _, Eff.bind_error (publishRound_of_none recvMsg_feed_none) _,
        .of_failed (by simp) (fun v => not_acknowledges (by simp))
          (List.singleton_append).symm (Nat.succ_le_succ (Nat.zero_le n)) rfl⟩
    · cases hm : (parseRelayMessage C text).isAuth with
      | false =>
        have hround : publishRound C event timeout resent
            (client.feed (.ok (some text) :: items)) = _ :=
          publishRound_of_message (recvMsg_feed_of_not_auth hm) hm
        cases hverdict : (parseRelayMessage C text).verdictOn event.id with
        | some v =>
          rw [hverdict] at hround
          exact ⟨_, _, Eff.loop_done hround, .of_verdict hverdict⟩
        | none =>
          rw [hverdict] at hround
          obtain ⟨result, client', hloop, hwaited⟩ := ih items resent client hs
          exact ⟨result, client', (Eff.loop_next hround).trans hloop,
            hwaited.cons hverdict (challengeOf_of_not_auth hm)⟩
      | true =>
        obtain ⟨challenge, hp⟩ := RelayMessage.isAuth_eq_true_iff.1 hm
        obtain ⟨auth, client₁, hround, htag, hlog₁, hs₁, hurl₁⟩ :=
          publishRound_challenge hx hsend hs hp event timeout resent items
        obtain ⟨result, client', hloop, hwaited⟩ := ih items true client₁ (hs₁ ▸ hs)
        exact ⟨result, client', (Eff.loop_next hround).trans hloop,
          hwaited.challenged hp htag hurl₁ hlog₁⟩

/-- Publishing an event gives the verdict of its first acknowledgement, if it comes
    within 64 items and before a timeout or an error. At most 64 items are read,
    every challenge is answered once, and the event is sent once, and once more if a
    challenge is read. -/
theorem publish_acknowledged (hx : C.hex.RoundTrips)
    (hsend : ∀ (text : String) (s : σ), (RelayConnection.send text s).1 = .ok ())
    {client : RelayClient σ} (hs : client.signer.Signs) (event : Event) (timeout : Duration)
    (items : List (Result (Option String))) :
    ∃ result client', publish C event timeout (client.recorded.feed items) = (result, client') ∧
      (∀ v, result = .ok v ↔ Acknowledges C event.id (items.take 64) v) ∧
      ∃ read auths, items = read ++ client'.conn.items ∧ read.length ≤ 64 ∧
        auths.map Event.tags = (read.filterMap (challengeOf C)).map (authTags client.url) ∧
        client'.conn.conn.log = took C (eventFrame event) :: sentWaiting C event false auths := by
  obtain ⟨client₁, hsent, hlog₁, hs₁, hurl₁⟩ :=
    sendFrame_took (C := C) hsend (eventFrame event) client.recorded
  obtain ⟨result, client', hloop, hverdict, read, auths, hitems, hlen, htags, hlog⟩ :=
    publishLoop_acknowledged event timeout hx hsend 64 items false client₁ (hs₁ ▸ hs)
  have hfeed : sendFrame C (eventFrame event) (client.recorded.feed items) =
      (.ok (), client₁.feed items) := by
    rw [sendFrame_feed _ client.recorded, hsent]
  rw [hurl₁] at htags
  rw [hlog₁] at hlog
  rw [publish, Eff.bind_ok hfeed]
  rcases result with e | _ | v
  · refine ⟨_, _, Eff.bind_error hloop _, fun v => ?_, read, auths, hitems, hlen, htags, hlog⟩
    rw [← hverdict]
    simp
  · refine ⟨_, _, Eff.bind_ok hloop _, fun v => ?_, read, auths, hitems, hlen, htags, hlog⟩
    rw [← hverdict]
    exact iff_of_false (fun h => by cases h) (by simp)
  · refine ⟨_, _, Eff.bind_ok hloop _, fun v' => ?_, read, auths, hitems, hlen, htags, hlog⟩
    rw [← hverdict]
    exact ⟨fun h => congrArg (Except.ok ∘ some) (Except.ok.inj h),
      fun h => congrArg _ (Option.some.inj (Except.ok.inj h))⟩

/-- An event that is challenged before it is acknowledged. -/
theorem publish_acknowledged_challenged :
    ∃ (client : RelayClient Script) (texts : List String) (result : Result (Bool × String))
      (client' : RelayClient (Feed (Recorded Script))),
      texts.map (parseRelayMessage Reference.crates) =
        [.auth "c", .ok (default : Event).id true "stored"] ∧
      publish Reference.crates default 5
        (client.recorded.feed (texts.map fun t => .ok (some t))) = (result, client') ∧
      result = .ok (true, "stored") := by
  obtain ⟨challenge, hchallenge⟩ : ∃ text, parseRelayMessage Reference.crates text = .auth "c" :=
    exists_text Reference.json_roundTrips (by simp)
  obtain ⟨ack, hack⟩ : ∃ text, parseRelayMessage Reference.crates text =
      .ok (default : Event).id true "stored" :=
    exists_text Reference.json_roundTrips (by simp)
  obtain ⟨client, hs⟩ : ∃ client : RelayClient Script, client.signer.Signs :=
    ⟨.new { items := [] } "wss://relay.example" (Reference.signer Reference.one).toSigner,
      Reference.signer_signs Reference.one⟩
  obtain ⟨result, client', hpublish, hresult, -⟩ := publish_acknowledged Reference.hex_roundTrips
    (fun _ _ => rfl) hs default 5 ([challenge, ack].map fun t => .ok (some t))
  refine ⟨client, [challenge, ack], result, client', ?_, hpublish, (hresult _).2 ?_⟩
  · rw [List.map_cons, List.map_cons, hchallenge, hack]
    rfl
  · refine ⟨[challenge], ack, [], rfl, ?_, ?_⟩
    · rw [List.forall_mem_singleton, hchallenge]
      rfl
    · rw [hack]
      simp [RelayMessage.verdictOn]

end UnicityNostr.RelayClient
