import UnicityNostr.Client.Invariant
import UnicityNostr.Client.Wire

/-!
# How long the calls of a client take

Over a line on which finitely many items arrive, every call of a run returns. A call
may outlast its timeout, since every frame that arrives has the client wait anew, but
it does not outlast the last arrival by more than that (`Line.Within`).

* `Timely`: what is done within a timeout, or takes an arrival; `Timely.loop`: rounds
  of it;
* `run_in_time`: the calls of a run return, each in its time.
-/

namespace UnicityNostr

namespace Line

/-- The time, and what is still to arrive. -/
def timetable (s : Line) : Nat × List (Nat × Result (Option String)) := (s.now, s.arrivals)

/-- It is no later than `M`, and nothing arrives after that. -/
def Within (M : Nat) (s : Line) : Prop := s.now ≤ M ∧ ∀ arrival ∈ s.arrivals, arrival.1 ≤ M

/-- The client has waited `n` times for `d` at most, and has gone on only when an item
    has arrived. -/
structure Waits (n d : Nat) (s s' : Line) : Prop where
  now_le : s'.now ≤ s.now + n * d
  length_le : s'.arrivals.length ≤ s.arrivals.length
  within : ∀ M, s.Within M → s'.Within (M + d)

/-- An item has arrived. -/
structure Takes (s s' : Line) : Prop where
  length_lt : s'.arrivals.length < s.arrivals.length
  within : ∀ M, s.Within M → s'.Within M

variable {s s' s'' : Line} {n n' d M M' : Nat}

theorem Within.mono (h : s.Within M) (hM : M ≤ M') : s.Within M' :=
  ⟨h.1.trans hM, fun arrival ha => (h.2 arrival ha).trans hM⟩

theorem Within.congr (h : s'.timetable = s.timetable) (hs : s.Within M) : s'.Within M := by
  obtain ⟨hnow, harrivals⟩ := Prod.mk.inj h
  rw [Within, hnow, harrivals]
  exact hs

theorem Waits.congr (h : s.Waits n d s') (hs : s''.timetable = s'.timetable) :
    s.Waits n d s'' := by
  obtain ⟨hnow, harrivals⟩ := Prod.mk.inj hs
  exact ⟨hnow ▸ h.now_le, harrivals ▸ h.length_le, fun M hM => (h.within M hM).congr hs⟩

theorem Takes.congr (h : s.Takes s') (hs : s''.timetable = s'.timetable) : s.Takes s'' := by
  obtain ⟨-, harrivals⟩ := Prod.mk.inj hs
  exact ⟨harrivals ▸ h.length_lt, fun M hM => (h.within M hM).congr hs⟩

theorem Waits.mono (h : s.Waits n d s') (hn : n ≤ n') : s.Waits n' d s' :=
  ⟨h.now_le.trans (Nat.add_le_add_left (Nat.mul_le_mul_right d hn) _), h.length_le, h.within⟩

theorem waits_of_timetable (n d : Nat) (h : s'.timetable = s.timetable) : s.Waits n d s' := by
  obtain ⟨hnow, harrivals⟩ := Prod.mk.inj h
  exact ⟨hnow ▸ Nat.le_add_right _ _, harrivals ▸ le_rfl,
    fun M hM => (hM.congr h).mono (Nat.le_add_right M d)⟩

/-- What takes no time may come before. -/
theorem Waits.of_timetable (h : s'.timetable = s.timetable) (h' : s'.Waits n d s'') :
    s.Waits n d s'' := by
  obtain ⟨hnow, harrivals⟩ := Prod.mk.inj h
  exact ⟨hnow ▸ h'.now_le, harrivals ▸ h'.length_le, fun M hM => h'.within M (hM.congr h)⟩

/-- After an item has arrived, the client waits on. -/
theorem Takes.waits (h : s.Takes s') (hn : s.Waits n d s') (h' : s'.Waits n' d s'') :
    s.Waits (n + n') d s'' where
  now_le := by
    rw [Nat.add_mul, ← Nat.add_assoc]
    exact h'.now_le.trans (Nat.add_le_add_right hn.now_le _)
  length_le := h'.length_le.trans h.length_lt.le
  within M hM := h'.within M (h.within M hM)

/-- Receiving takes an arrival, or waits for the timeout to elapse. -/
theorem recv_cases (timeout : Duration) (s : Line) :
    s.Waits 1 timeout (recv timeout s).2 ∧
      ((recv timeout s).1 ≠ .ok none → s.Takes (recv timeout s).2) := by
  have hlate : s.Waits 1 timeout { s with now := s.now + timeout } :=
    ⟨(Nat.one_mul timeout).symm ▸ le_rfl, le_rfl, fun M hM => ⟨Nat.add_le_add_right hM.1 timeout,
      fun arrival ha => (hM.2 arrival ha).trans (Nat.le_add_right M timeout)⟩⟩
  rw [recv]
  split
  · exact ⟨hlate, fun h => absurd rfl h⟩
  · rename_i t item arrivals harrivals
    split
    · rename_i ht
      have hlength : arrivals.length < s.arrivals.length := by
        rw [harrivals]
        exact Nat.lt_succ_self _
      have hwithin : ∀ M, s.Within M → Within M { s with now := max s.now t, arrivals } := by
        intro M hM
        have hall := hM.2
        rw [harrivals] at hall
        obtain ⟨hfirst, hrest⟩ := List.forall_mem_cons.1 hall
        exact ⟨Nat.max_le.2 ⟨hM.1, hfirst⟩, hrest⟩
      refine ⟨⟨(Nat.one_mul timeout).symm ▸ ht.le, hlength.le, fun M hM => ?_⟩,
        fun _ => ⟨hlength, hwithin⟩⟩
      exact (hwithin M hM).mono (Nat.le_add_right M timeout)
    · exact ⟨hlate, fun h => absurd rfl h⟩

end Line

namespace RelayClient

variable (C : Crates) {α β : Type} {d : Nat}

/-- What is still to arrive on the line of a client. -/
def timetable (client : RelayClient Line) : Nat × List (Nat × Result (Option String)) :=
  client.conn.timetable

theorem timetable_sendFrame (frame : Json) : Eff.Keeps timetable (sendFrame C frame) :=
  fun _ => rfl

section

variable {α β : Type}

/-- The computation waits for `d` at most, and takes an arrival if it ends in one of
    the given results. -/
structure Timely (d : Nat) (goesOn : Result α → Prop) (m : Eff Error (RelayClient Line) α) :
    Prop where
  waits : ∀ client : RelayClient Line, client.conn.Waits 1 d (m client).2.conn
  takes : ∀ client : RelayClient Line, goesOn (m client).1 → client.conn.Takes (m client).2.conn

namespace Timely

variable {d : Nat} {goesOn : Result α → Prop} {goesOn' : Result β → Prop}
  {m : Eff Error (RelayClient Line) α}

/-- What is done next does not take any time. -/
theorem bind (h : Timely d goesOn m) {g : α → Eff Error (RelayClient Line) β}
    (hg : ∀ a, Eff.Keeps timetable (g a)) (herror : ∀ e, goesOn' (.error e) → goesOn (.error e))
    (hok : ∀ a client, goesOn' (g a client).1 → goesOn (.ok a)) :
    Timely d goesOn' (m >>= g) where
  waits client := by
    have hwaits := h.waits client
    rcases hm : m client with ⟨e | a, client'⟩
    all_goals rw [hm] at hwaits
    · rwa [Eff.bind_error hm]
    · rw [Eff.bind_ok hm]
      exact hwaits.congr (hg a client')
  takes client hgoes := by
    have htakes := h.takes client
    rcases hm : m client with ⟨e | a, client'⟩
    all_goals rw [hm] at htakes
    · rw [Eff.bind_error hm] at hgoes ⊢
      exact htakes (herror e hgoes)
    · rw [Eff.bind_ok hm] at hgoes ⊢
      exact (htakes (hok a client' hgoes)).congr (hg a client')

/-- Rounds that go on only when an item has arrived are done when none is left. -/
theorem loop {body : α → Eff Error (RelayClient Line) (Eff.Round α β)}
    (h : ∀ a, Timely d (fun r => ∃ a', r = .ok (.next a')) (body a)) (n : Nat) (a : α)
    (client : RelayClient Line) :
    client.conn.Waits n d (Eff.loop body n a client).2.conn ∧
      (client.conn.arrivals.length < n → (Eff.loop body n a client).1 ≠ .ok none) := by
  induction n generalizing a client with
  | zero => exact ⟨Line.waits_of_timetable 0 d rfl, fun h => absurd h (Nat.not_lt_zero _)⟩
  | succ n ih =>
    have hwaits := (h a).waits client
    have htakes := (h a).takes client
    rcases hbody : body a client with ⟨e | a' | b, client'⟩
    all_goals rw [hbody] at hwaits htakes
    · rw [Eff.loop, Eff.bind_error hbody]
      exact ⟨hwaits.mono (Nat.le_add_left 1 n), fun _ => by simp⟩
    · have htakes := htakes ⟨a', rfl⟩
      obtain ⟨hrest, hdone⟩ := ih a' client'
      rw [Eff.loop_next hbody, Nat.add_comm n 1]
      refine ⟨htakes.waits hwaits hrest, fun hn => hdone ?_⟩
      have := htakes.length_lt
      dsimp only at this
      omega
    · rw [Eff.loop_done hbody]
      exact ⟨hwaits.mono (Nat.le_add_left 1 n), fun _ => by simp⟩

end Timely

end

/-! ## Calls -/

theorem keeps_answer (m : RelayMessage) : Eff.Keeps timetable (answer C m) := by
  cases m with
  | auth challenge => exact .bind (fun _ => rfl) fun auth => timetable_sendFrame C _
  | _ => exact .pure ()

/-- Receiving a message takes an arrival, or waits for the timeout to elapse. -/
theorem timely_recvMsg (timeout : Duration) :
    Timely timeout (fun r => r ≠ .ok none) (recvMsg C timeout) := by
  have hrecv : Timely timeout (fun r => r ≠ .ok none)
      (onConn (RelayConnection.recv timeout) : Eff Error (RelayClient Line) _) :=
    ⟨fun client => (Line.recv_cases timeout client.conn).1,
      fun client => (Line.recv_cases timeout client.conn).2⟩
  refine hrecv.bind (fun text => ?_) (fun e _ => by simp) fun text client hgoes => ?_
  · cases text with
    | none => exact .pure none
    | some text => exact .bind (keeps_answer C _) fun _ => .pure _
  · cases text with
    | none => exact absurd rfl hgoes
    | some text => simp

theorem timely_publishRound (event : Event) (timeout : Duration) (resent : Bool) :
    Timely timeout (fun r => ∃ resent', r = .ok (.next resent'))
      (publishRound C event timeout resent) := by
  refine (timely_recvMsg C timeout).bind (fun m => ?_) (fun e _ => by simp) fun m client hgoes => ?_
  · rcases m with _ | m
    · exact .fail _
    cases m with
    | ok id accepted message =>
      dsimp only
      split
      · exact .pure _
      · exact .pure _
    | auth challenge =>
      cases resent with
      | true => exact .pure _
      | false => exact .bind (timetable_sendFrame C _) fun _ => .pure _
    | _ => exact .pure _
  · rcases m with _ | m
    · obtain ⟨_, h⟩ := hgoes
      cases h
    · simp

theorem timely_queryRound (subId : String) (filter : Filter) (idle : Duration)
    (events : List Event) : Timely idle (fun r => ∃ events', r = .ok (.next events'))
      (queryRound C subId filter idle events) := by
  refine (timely_recvMsg C idle).bind (fun m => ?_) (fun e _ => by simp) fun m client hgoes => ?_
  · rcases m with _ | m
    · exact .pure _
    cases m with
    | auth challenge => exact .bind (timetable_sendFrame C _) fun _ => .pure _
    | event _ _ | eose _ | closed _ _ =>
      dsimp only
      split
      · exact .pure _
      · exact .pure _
    | _ => exact .pure _
  · rcases m with _ | m
    · obtain ⟨_, h⟩ := hgoes
      cases h
    · simp

/-- The timeout of a call. -/
def Call.timeout : Call → Duration
  | .subscribe _ _ | .unsubscribe _ => 0
  | .publish _ timeout => timeout
  | .query _ _ idle => idle
  | .poll timeout | .pollEvent timeout => timeout

/-- How many times a call waits, at most. -/
def Call.waits : Call → Nat
  | .subscribe _ _ | .unsubscribe _ => 0
  | .publish _ _ => 64
  | .query rounds _ _ => rounds
  | .poll _ | .pollEvent _ => 1

/-- Whether the call has the time to go through the given number of arrivals. -/
def Call.Lasts (arrivals : Nat) : Call → Prop
  | .query rounds _ _ => arrivals < rounds
  | _ => True

theorem waits_publish (event : Event) (timeout : Duration) (client : RelayClient Line) :
    client.conn.Waits 64 timeout (publish C event timeout client).2.conn := by
  rcases hsend : sendFrame C (eventFrame event) client with ⟨e | _, client₁⟩
  · cases (Prod.mk.inj hsend).1
  have hquiet := timetable_sendFrame C (eventFrame event) client
  rw [hsend] at hquiet
  have hloop := (Timely.loop (timely_publishRound C event timeout) 64 false client₁).1
  refine .of_timetable hquiet (hloop.congr ?_)
  rw [publish, Eff.bind_ok hsend]
  refine Eff.Keeps.snd_bind (f := timetable) (fun verdict => ?_) client₁
  cases verdict with
  | some verdict => exact .pure _
  | none => exact .fail _

theorem waits_query (rounds : Nat) (filter : Filter) (idle : Duration)
    (client : RelayClient Line) :
    client.conn.Waits rounds idle (query C rounds filter idle client).2.conn ∧
      (client.conn.arrivals.length < rounds →
        (query C rounds filter idle client).1 ≠ .ok none) := by
  rw [query_eq]
  rcases hreq : sendReq C client.querySubId filter { client with nextSub := client.nextSub + 1 }
    with ⟨e | _, client₁⟩
  · cases (Prod.mk.inj hreq).1
  have hquiet : timetable client₁ = timetable client := by
    obtain ⟨-, rfl⟩ := Prod.mk.inj hreq
    rfl
  obtain ⟨hloop, hdone⟩ :=
    Timely.loop (timely_queryRound C client.querySubId filter idle) rounds [] client₁
  have hlength : client₁.conn.arrivals.length = client.conn.arrivals.length :=
    congrArg List.length (Prod.mk.inj hquiet).2
  rw [hlength] at hdone
  have hwaits := Line.Waits.of_timetable hquiet hloop
  dsimp only
  rcases h : Eff.loop (queryRound C client.querySubId filter idle) rounds [] client₁
    with ⟨e | _ | out, client₂⟩
  all_goals rw [h] at hwaits hdone
  · exact ⟨hwaits, fun _ => by simp⟩
  · exact ⟨hwaits, fun hn => absurd rfl (hdone hn)⟩
  · exact ⟨hwaits.congr rfl, fun _ => by simp⟩

/-- A call waits a number of times for its timeout, and returns. -/
theorem waits_perform (call : Call) (client : RelayClient Line) :
    client.conn.Waits call.waits call.timeout (perform C call client).2.conn ∧
      (call.Lasts client.conn.arrivals.length → (perform C call client).1.returned = true) := by
  cases call with
  | subscribe subId filter => exact ⟨Line.waits_of_timetable 0 0 rfl, fun _ => rfl⟩
  | unsubscribe subId => exact ⟨Line.waits_of_timetable 0 0 rfl, fun _ => rfl⟩
  | publish event timeout => exact ⟨waits_publish C event timeout client, fun _ => rfl⟩
  | query rounds filter idle =>
    obtain ⟨hwaits, hdone⟩ := waits_query C rounds filter idle client
    refine ⟨hwaits, fun hn => ?_⟩
    have hdone := hdone hn
    rw [perform]
    rcases h : query C rounds filter idle client with ⟨e | _ | out, client'⟩
    · rfl
    · exact absurd (by rw [h]) hdone
    · rfl
  | poll timeout => exact ⟨(timely_recvMsg C timeout).waits client, fun _ => rfl⟩
  | pollEvent timeout =>
    refine ⟨((timely_recvMsg C timeout).waits client).congr ?_, fun _ => rfl⟩
    refine Eff.Keeps.snd_bind (f := timetable) (fun m => ?_) client
    rcases m with _ | m
    · exact .pure _
    cases m with
    | event s event =>
      dsimp only
      split
      · exact .pure _
      · exact .pure _
    | _ => exact .pure _

/-! ## Runs -/

theorem Call.Lasts.mono {call : Call} {n m : Nat} (h : call.Lasts n) (hm : m ≤ n) :
    call.Lasts m := by
  cases call with
  | query rounds filter idle => exact Nat.lt_of_le_of_lt hm h
  | _ => trivial

/-- The calls of a run return, each in its time. -/
theorem waits_performAll (calls : List Call) (client : RelayClient Line) :
    (performAll C calls client).conn.now ≤
        client.conn.now + (calls.map fun call => call.waits * call.timeout).sum ∧
      (∀ M, client.conn.Within M →
        (performAll C calls client).conn.Within (M + (calls.map Call.timeout).sum)) ∧
      ((∀ call ∈ calls, call.Lasts client.conn.arrivals.length) →
        (replies C calls client).length = calls.length ∧
          ∀ reply ∈ replies C calls client, reply.returned = true) := by
  induction calls generalizing client with
  | nil => exact ⟨le_rfl, fun M hM => hM, fun _ => ⟨rfl, List.forall_mem_nil _⟩⟩
  | cons call calls ih =>
    obtain ⟨hwaits, hreturned⟩ := waits_perform C call client
    obtain ⟨hnow, hwithin, hreplies⟩ := ih (perform C call client).2
    simp only [List.map_cons, List.sum_cons, ← Nat.add_assoc]
    refine ⟨?_, fun M hM => hwithin _ (hwaits.within M hM), fun hlasts => ?_⟩
    · exact hnow.trans (Nat.add_le_add_right hwaits.now_le _)
    · obtain ⟨hcall, hcalls⟩ := List.forall_mem_cons.1 hlasts
      obtain ⟨hlength, hall⟩ := hreplies fun c hc => (hcalls c hc).mono hwaits.length_le
      have hr := hreturned hcall
      have hcons : replies C (call :: calls) client =
          (perform C call client).1 :: replies C calls (perform C call client).2 := by
        simp only [replies, hr, if_true]
      rw [hcons, List.length_cons, hlength, List.forall_mem_cons]
      exact ⟨rfl, hr, hall⟩

/-- Over a socket on which finitely many messages arrive, the calls of a run all return,
    a query if it has more rounds than there are arrivals. Together they outlast the last
    arrival by their timeouts at most, and a call that waits for `n` messages outlasts
    its timeout `n` times at most; for publishing, `n` is 64. -/
theorem run_in_time {ω : Type} [WebSocket ω] [Clock ω] {view : ω → Wire}
    (h : WebSocket.Mimics view) (calls : List Call) (client : RelayClient (NativeConnection ω))
    (hrounds : ∀ rounds filter idle, Call.query rounds filter idle ∈ calls →
      (view client.conn.ws).arrivals.length < rounds) :
    (replies C calls client).length = calls.length ∧
      (∀ reply ∈ replies C calls client, reply.returned = true) ∧
      (∀ M, (view client.conn.ws).now ≤ M →
        (∀ arrival ∈ (view client.conn.ws).arrivals, arrival.1 ≤ M) →
        (view (performAll C calls client).conn.ws).now ≤ M + (calls.map Call.timeout).sum) ∧
      (view (performAll C calls client).conn.ws).now ≤ (view client.conn.ws).now +
        (calls.map fun call => call.waits * call.timeout).sum := by
  have hmimics := NativeConnection.mimics_line.comp (NativeConnection.mimics_mapWs h)
  obtain ⟨hnow, hwithin, hreplies⟩ :=
    waits_performAll C calls (mapConn (fun conn => (view conn.ws).line) client)
  have hafter : performAll C calls (mapConn (fun conn => (view conn.ws).line) client) = _ :=
    hmimics.performAll_mapConn C calls client
  have hsame : replies C calls (mapConn (fun conn => (view conn.ws).line) client) = _ :=
    hmimics.replies_mapConn C calls client
  rw [hafter] at hnow hwithin
  rw [hsame] at hreplies
  obtain ⟨hlength, hreturned⟩ := hreplies fun call hcall => by
    cases call with
    | query rounds filter idle =>
      exact Nat.lt_of_le_of_lt (List.length_filterMap_le _ _) (hrounds _ _ _ hcall)
    | _ => trivial
  refine ⟨hlength, hreturned, fun M hM harrivals => (hwithin M ⟨hM, fun arrival ha => ?_⟩).1, hnow⟩
  obtain ⟨a, ha, hat⟩ := Wire.exists_of_mem_line ha
  exact hat ▸ harrivals a ha

/-- A query and a poll while two messages arrive. -/
theorem run_in_time_query : ∃ client : RelayClient (NativeConnection Wire),
    client.conn.ws.arrivals.map Prod.fst = [4, 8] ∧
      (replies Reference.crates [.query 3 {} 5, .poll 2] client).length = 2 ∧
      (performAll Reference.crates [.query 3 {} 5, .poll 2] client).conn.ws.now ≤ 15 := by
  let wire : Wire :=
    { now := 0, arrivals := [(4, .ok (.text "")), (8, .ok (.text ""))], sorted := by simp
      readTimeout := 1, unsent := [], sent := [], calendar := fun _ => 0 }
  let client : RelayClient (NativeConnection Wire) :=
    .new { ws := wire } "wss://relay.example" (Reference.signer Reference.one).toSigner
  have hrounds : ∀ rounds filter idle,
      Call.query rounds filter idle ∈ [Call.query 3 {} 5, Call.poll 2] → 2 < rounds := by
    intro rounds filter idle h
    obtain ⟨rfl, -⟩ : rounds = 3 ∧ _ := by simpa using h
    exact Nat.lt_succ_self 2
  obtain ⟨hlength, -, hnow, -⟩ := run_in_time Reference.crates WebSocket.mimics_id
    [.query 3 {} 5, .poll 2] client hrounds
  have harrivals : ∀ arrival ∈ wire.arrivals, arrival.1 ≤ 8 := by simp [wire]
  have hsum : 8 + ([Call.query 3 {} 5, Call.poll 2].map Call.timeout).sum = 15 := rfl
  have hnow := hnow 8 (Nat.zero_le 8) harrivals
  rw [id_eq, hsum] at hnow
  exact ⟨client, rfl, hlength, hnow⟩

end RelayClient

end UnicityNostr
