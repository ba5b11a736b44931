import UnicityNostr.Client.Native
import UnicityNostr.Reference

/-!
# Timed lines

What a connection over a WebSocket amounts to. A socket on which messages arrive at
given instants (`Wire`) has a line on which only texts do (`Wire.line`), and a
connection over the socket does what the line does (`mimics_line`): it receives a
text if it arrives before the timeout elapses, whatever other messages come in
between.

* `run_over_wire`: a client does the same over the socket as over its line.
-/

namespace UnicityNostr

/-! ## Lines -/

/-- A line on which items arrive at given instants. The calendar gives the time at an
    instant. -/
structure Line where
  now : Nat
  arrivals : List (Nat × Result (Option String))
  sent : List String
  calendar : Nat → Int64

namespace Line

/-- The next item is received when it arrives, if that is before the timeout
    elapses. -/
def recv (timeout : Duration) : Eff Error Line (Option String) := fun s =>
  match s.arrivals with
  | [] => (.ok none, { s with now := s.now + timeout })
  | (t, item) :: arrivals =>
    if max s.now t < s.now + timeout then (item, { s with now := max s.now t, arrivals })
    else (.ok none, { s with now := s.now + timeout })

instance : RelayConnection Line where
  send text s := (.ok (), { s with sent := s.sent ++ [text] })
  recv := recv
  close s := s

instance : Clock Line where
  now s := s.calendar s.now

/-- Nothing is received that arrives after the timeout has elapsed. -/
theorem recv_of_late {timeout : Duration} {s : Line}
    (h : ∀ arrival ∈ s.arrivals, s.now + timeout ≤ arrival.1) :
    recv timeout s = (.ok none, { s with now := s.now + timeout }) := by
  rw [recv]
  split
  · rfl
  · rename_i t item arrivals harrivals
    rw [harrivals] at h
    rw [if_neg (Nat.not_lt.2 ((List.forall_mem_cons.1 h).1.trans (Nat.le_max_right _ _)))]

theorem recv_zero (s : Line) : recv 0 s = (.ok none, s) := by
  rw [recv]
  split
  · rfl
  · exact if_neg (Nat.not_lt.2 (Nat.le_max_left _ _))

/-- Waiting in two parts is waiting for the whole time, if nothing arrives in the
    first. -/
theorem recv_later (s : Line) {now deadline : Nat} (hnow : s.now ≤ now) (hdead : now ≤ deadline)
    (h : ∀ arrival ∈ s.arrivals, now = s.now ∨ now ≤ arrival.1) :
    recv (deadline - now) { s with now } = recv (deadline - s.now) s := by
  have h₁ : now + (deadline - now) = deadline := Nat.add_sub_of_le hdead
  have h₂ : s.now + (deadline - s.now) = deadline := Nat.add_sub_of_le (hnow.trans hdead)
  simp only [recv, h₁, h₂]
  split
  · rfl
  · rename_i t item arrivals harrivals
    have ht : max now t = max s.now t := by
      rw [harrivals] at h
      rcases (List.forall_mem_cons.1 h).1 with rfl | ht
      · rfl
      · rw [Nat.max_eq_right ht, Nat.max_eq_right (hnow.trans ht)]
    simp only [ht]

end Line

/-! ## Wires -/

/-- A socket on which messages and errors arrive at given instants, one after the
    other. -/
structure Wire where
  now : Nat
  arrivals : List (Nat × Except WsError Message)
  sorted : arrivals.Pairwise fun a b => a.1 ≤ b.1
  readTimeout : Duration
  unsent : List Message
  sent : List Message
  calendar : Nat → Int64

namespace Wire

/-- The pong that answers a message, if it is a ping. -/
def pong : Except WsError Message → List Message
  | .ok (.ping payload) => [.pong payload]
  | _ => []

/-- The socket after the next arrival is read. A pong is queued after a ping. -/
def taken (w : Wire) (t : Nat) (r : Except WsError Message) : Wire :=
  { w with
    now := max w.now t, arrivals := w.arrivals.tail, sorted := w.sorted.tail
    unsent := w.unsent ++ pong r }

/-- Reading blocks until the next arrival, or until the timeout has elapsed. -/
def read : Eff WsError Wire Message := fun w =>
  match w.arrivals.head? with
  | none => (.error (.io .wouldBlock "operation would block"),
    { w with now := w.now + w.readTimeout })
  | some (t, r) =>
    if t < w.now + w.readTimeout then (r, w.taken t r)
    else
      (.error (.io .wouldBlock "operation would block"), { w with now := w.now + w.readTimeout })

/-- The socket after what has been written is sent. -/
def flushed (w : Wire) : Wire := { w with unsent := [], sent := w.sent ++ w.unsent }

instance : WebSocket Wire where
  now w := (w.now, w)
  setReadTimeout dur w :=
    if dur = 0 then (.error "cannot set a 0 duration timeout", w)
    else (.ok (), { w with readTimeout := dur })
  read := read
  write m w := (.ok (), { w with unsent := w.unsent ++ [m] })
  flush w := (.ok (), w.flushed)
  close w := (.ok (), { w with unsent := w.unsent ++ [.close] })
  backlog w := w.arrivals.length
  backlog_now _ := le_rfl
  backlog_setReadTimeout dur w := by
    split
    · exact le_rfl
    · exact le_rfl
  backlog_read w m w' h := by
    rw [read] at h
    split at h
    · cases (Prod.mk.inj h).1
    rename_i t r hhead
    split at h
    · obtain ⟨-, rfl⟩ := Prod.mk.inj h
      obtain ⟨arrivals, harrivals⟩ := List.head?_eq_some_iff.1 hhead
      simp [taken, harrivals]
    · cases (Prod.mk.inj h).1
  backlog_flush _ := le_rfl

instance : Clock Wire where
  now w := w.calendar w.now

/-- What a connection makes of an arrival, if it does not read past it. -/
def heard : Except WsError Message → Option (Result (Option String))
  | .ok (.text text) => some (.ok (some text))
  | .ok .close => some (.error (.malformed "relay closed connection"))
  | .ok _ => none
  | .error e =>
    some (if e.isTimeout then .ok none else .error (.decode ("ws read: " ++ toString e)))

/-- The text of a message. -/
def text? : Message → Option String
  | .text text => some text
  | _ => none

/-- The line of a socket, without the messages that are read past. -/
def line (w : Wire) : Line where
  now := w.now
  arrivals := w.arrivals.filterMap fun (t, r) => (heard r).map (t, ·)
  sent := (w.sent ++ w.unsent).filterMap text?
  calendar := w.calendar

@[simp] theorem line_flushed (w : Wire) : w.flushed.line = w.line := by
  simp [line, flushed]

@[simp] theorem filterMap_pong (r : Except WsError Message) : (pong r).filterMap text? = [] := by
  rcases r with e | m
  · rfl
  · cases m with
    | _ => rfl

variable {w : Wire} {t : Nat} {r : Except WsError Message}

/-- The next arrival is the first. -/
theorem le_of_head? (h : w.arrivals.head? = some (t, r)) :
    ∀ arrival ∈ w.arrivals, t ≤ arrival.1 := by
  obtain ⟨arrivals, harrivals⟩ := List.head?_eq_some_iff.1 h
  have hsorted := w.sorted
  rw [harrivals] at hsorted ⊢
  exact List.forall_mem_cons.2 ⟨le_rfl, (List.pairwise_cons.1 hsorted).1⟩

/-- The items of a line arrive when the messages do. -/
theorem exists_of_mem_line {arrival : Nat × Result (Option String)}
    (h : arrival ∈ w.line.arrivals) : ∃ a ∈ w.arrivals, a.1 = arrival.1 := by
  obtain ⟨a, ha, harrival⟩ := List.mem_filterMap.1 h
  obtain ⟨item, -, rfl⟩ := Option.map_eq_some_iff.1 harrival
  exact ⟨a, ha, rfl⟩

theorem line_taken (w : Wire) (t : Nat) (r : Except WsError Message) : (w.taken t r).line =
    { w.line with now := max w.now t, arrivals := (w.taken t r).line.arrivals } := by
  simp [line, taken]

/-- What is heard of the next arrival is the next item of the line. -/
theorem line_arrivals (h : w.arrivals.head? = some (t, r)) :
    w.line.arrivals = ((heard r).map (t, ·)).toList ++ (w.taken t r).line.arrivals := by
  obtain ⟨arrivals, harrivals⟩ := List.head?_eq_some_iff.1 h
  simp only [line, taken, harrivals, List.filterMap_cons, List.tail_cons]
  cases heard r with
  | none => rfl
  | some item => rfl

end Wire

namespace NativeConnection

variable {conn : NativeConnection Wire} {deadline : Nat}

theorem setReadTimeout_wire {w : Wire} {dur : Duration} (h : 0 < dur) :
    WebSocket.setReadTimeout dur w = (.ok (), { w with readTimeout := dur }) :=
  if_neg h.ne'

/-- A round in which nothing arrives before the deadline. -/
theorem recvRound_late (hnow : conn.ws.now < deadline)
    (h : ∀ arrival ∈ conn.ws.arrivals, deadline ≤ arrival.1) :
    recvRound deadline () conn = (.ok (.done none),
      { ws := { conn.ws with now := deadline, readTimeout := deadline - conn.ws.now } }) := by
  have hdead : conn.ws.now + (deadline - conn.ws.now) = deadline := Nat.add_sub_of_le hnow.le
  have hread : WebSocket.read { conn.ws with readTimeout := deadline - conn.ws.now } =
      (.error (.io .wouldBlock "operation would block"),
        { conn.ws with now := deadline, readTimeout := deadline - conn.ws.now }) := by
    simp only [WebSocket.read, Wire.read, hdead]
    rcases hhead : conn.ws.arrivals.head? with _ | ⟨t, r⟩
    · rfl
    · exact if_neg (Nat.not_lt.2 (h (t, r) (List.mem_of_head? hhead)))
  exact recvRound_of_read rfl hnow (setReadTimeout_wire (Nat.sub_pos_of_lt hnow)) hread

/-- A round in which there is an arrival before the deadline. -/
theorem recvRound_arrival {t : Nat} {r : Except WsError Message} (hnow : conn.ws.now < deadline)
    (h : conn.ws.arrivals.head? = some (t, r)) (ht : t < deadline) :
    recvRound deadline () conn = afterRead r
      { ws := Wire.taken { conn.ws with readTimeout := deadline - conn.ws.now } t r } := by
  have hdead : conn.ws.now + (deadline - conn.ws.now) = deadline := Nat.add_sub_of_le hnow.le
  refine recvRound_of_read rfl hnow (setReadTimeout_wire (Nat.sub_pos_of_lt hnow)) ?_
  simp only [WebSocket.read, Wire.read, h, hdead, if_pos ht]

/-- What is heard ends the receiving. -/
theorem afterRead_heard {r : Except WsError Message} {item : Result (Option String)}
    (h : Wire.heard r = some item) : afterRead r conn = (item.map .done, conn) := by
  rcases r with e | m
  · obtain rfl := Option.some.inj h
    rw [afterRead]
    split
    all_goals rfl
  · cases m with
    | text text =>
      obtain rfl := Option.some.inj h
      rfl
    | close =>
      obtain rfl := Option.some.inj h
      rfl
    | _ => cases h

/-- What is not heard is read past, and a pong is sent. -/
theorem afterRead_unheard (w : Wire) {r : Except WsError Message} (h : Wire.heard r = none) :
    ∃ w', afterRead r { ws := w } = (.ok (.next ()), { ws := w' }) ∧
      (w' = w ∨ w' = w.flushed) := by
  rcases r with e | m
  · cases h
  · cases m with
    | text text => cases h
    | close => cases h
    | ping payload => exact ⟨_, afterRead_ping rfl, .inr rfl⟩
    | _ => exact ⟨w, rfl, .inl rfl⟩

/-- Reading messages until the deadline is receiving from the line. -/
theorem loop_line {n : Nat} (hn : conn.ws.arrivals.length < n) (hdead : conn.ws.now ≤ deadline) :
    ∃ conn', Eff.loop (recvRound deadline) n () conn =
        ((Line.recv (deadline - conn.ws.now) conn.ws.line).1.map some, conn') ∧
      conn'.ws.line = (Line.recv (deadline - conn.ws.now) conn.ws.line).2 := by
  induction n generalizing conn with
  | zero => exact absurd hn (Nat.not_lt_zero _)
  | succ n ih =>
    rcases Nat.lt_or_ge conn.ws.now deadline with hnow | hnow
    swap
    · -- The deadline has been reached.
      rw [Nat.sub_eq_zero_of_le hnow, Line.recv_zero]
      exact ⟨conn, Eff.loop_done (recvRound_expired rfl hnow), rfl⟩
    have hadd : conn.ws.now + (deadline - conn.ws.now) = deadline := Nat.add_sub_of_le hdead
    have hlate : (∀ arrival ∈ conn.ws.arrivals, deadline ≤ arrival.1) →
        ∃ conn', Eff.loop (recvRound deadline) (n + 1) () conn =
          ((Line.recv (deadline - conn.ws.now) conn.ws.line).1.map some, conn') ∧
        conn'.ws.line = (Line.recv (deadline - conn.ws.now) conn.ws.line).2 := by
      intro hlate
      rw [Line.recv_of_late fun arrival harrival => ?_]
      · exact ⟨_, Eff.loop_done (recvRound_late hnow hlate), by simp only [Wire.line, hadd]⟩
      · obtain ⟨a, ha, hat⟩ := Wire.exists_of_mem_line harrival
        exact hat ▸ hadd.trans_le (hlate a ha)
    rcases hhead : conn.ws.arrivals.head? with _ | ⟨t, r⟩
    · exact hlate (List.head?_eq_none_iff.1 hhead ▸ List.forall_mem_nil _)
    have hle := Wire.le_of_head? hhead
    rcases Nat.lt_or_ge t deadline with ht | ht
    swap
    · exact hlate fun arrival harrival => ht.trans (hle arrival harrival)
    have hround := recvRound_arrival hnow hhead ht
    have harrivals := Wire.line_arrivals hhead
    generalize hw : Wire.taken { conn.ws with readTimeout := deadline - conn.ws.now } t r = w
      at hround
    have hnow' : w.now = max conn.ws.now t := hw ▸ rfl
    have hline : w.line = { conn.ws.line with
        now := w.now, arrivals := (conn.ws.taken t r).line.arrivals } := by
      rw [← hw, Wire.line_taken]
      rfl
    cases hr : Wire.heard r with
    | none =>
      rw [hr] at harrivals
      obtain ⟨w', hafter, hw'⟩ := afterRead_unheard w hr
      have hsame : w'.now = w.now ∧ w'.arrivals = w.arrivals ∧ w'.line = w.line := by
        rcases hw' with rfl | rfl
        · exact ⟨rfl, rfl, rfl⟩
        · exact ⟨rfl, rfl, w.line_flushed⟩
      have hlength : w'.arrivals.length < n := by
        rw [hsame.2.1, ← hw]
        obtain ⟨arrivals, h⟩ := List.head?_eq_some_iff.1 hhead
        rw [h] at hn
        simpa [Wire.taken, h] using hn
      have hdead' : w'.now ≤ deadline := by
        rw [hsame.1, hnow']
        exact Nat.max_le.2 ⟨hdead, ht.le⟩
      -- The line is the same, and no item arrives before the message that is read past.
      have hlater : Line.recv (deadline - w'.now) w'.line =
          Line.recv (deadline - conn.ws.now) conn.ws.line := by
        have hline' : w'.line = { conn.ws.line with now := w'.now } := by
          rw [hsame.2.2, hline, hsame.1]
          simp only [harrivals, Option.map_none, Option.toList_none, List.nil_append]
        rw [hline']
        refine Line.recv_later conn.ws.line ?_ hdead' fun arrival harrival => ?_
        · rw [hsame.1, hnow']
          exact Nat.le_max_left _ _
        · obtain ⟨a, ha, hat⟩ := Wire.exists_of_mem_line harrival
          rw [hsame.1, hnow']
          rcases Nat.le_total conn.ws.now t with h | h
          · rw [Nat.max_eq_right h]
            exact .inr (hat ▸ hle a ha)
          · exact .inl (Nat.max_eq_left h)
      rw [← hlater]
      obtain ⟨conn', hloop, hconn'⟩ := @ih { ws := w' } hlength hdead'
      exact ⟨conn', (Eff.loop_next (hround.trans hafter)).trans hloop, hconn'⟩
    | some item =>
      rw [hr] at harrivals
      have hrecv : Line.recv (deadline - conn.ws.now) conn.ws.line = (item, w.line) := by
        rw [Line.recv, harrivals]
        exact (if_pos (hadd.symm ▸ Nat.max_lt.2 ⟨hnow, ht⟩)).trans (by rw [hline, hnow']; rfl)
      rw [hrecv]
      rw [afterRead_heard hr] at hround
      cases item with
      | error e => exact ⟨_, Eff.bind_error hround _, rfl⟩
      | ok text => exact ⟨_, Eff.loop_done hround, rfl⟩

/-- A connection over a socket does what the line does. -/
theorem mimics_line :
    RelayClient.Mimics (fun conn => conn.ws.line : NativeConnection Wire → Line) where
  send text conn := by
    have hsend : send text conn = _ := send_eq rfl rfl
    simp only [RelayConnection.send, hsend, Wire.line_flushed]
    simp [Wire.line, Wire.text?, Except.mapError]
  recv timeout conn := by
    obtain ⟨conn', hloop, hconn'⟩ := loop_line (Nat.lt_succ_self conn.ws.arrivals.length)
      (Nat.le_add_right conn.ws.now timeout)
    rw [Nat.add_sub_cancel_left] at hloop hconn'
    have hrecv : recv timeout conn = ((Line.recv timeout conn.ws.line).1, conn') := by
      refine (recv_eq rfl).trans ((congrArg (Prod.map (Except.map Option.join) id) hloop).trans ?_)
      cases (Line.recv timeout conn.ws.line).1 with
      | error e => rfl
      | ok text => rfl
    simp only [RelayConnection.recv, hrecv, hconn']
  now conn := rfl

end NativeConnection

/-! ## Sockets that behave alike -/

/-- The socket `g s` does what the socket `s` does. -/
structure WebSocket.Mimics {ω ω' : Type} [WebSocket ω] [WebSocket ω'] [Clock ω] [Clock ω']
    (g : ω → ω') : Prop where
  now : ∀ s, WebSocket.now (g s) = ((WebSocket.now s).1, g (WebSocket.now s).2)
  setReadTimeout : ∀ dur, Eff.Tracks g (WebSocket.setReadTimeout dur) (WebSocket.setReadTimeout dur)
  read : Eff.Tracks g WebSocket.read WebSocket.read
  write : ∀ m, Eff.Tracks g (WebSocket.write m) (WebSocket.write m)
  flush : Eff.Tracks g WebSocket.flush WebSocket.flush
  backlog : ∀ s, WebSocket.backlog (g s) = WebSocket.backlog s
  clock : ∀ s, (Clock.now (g s) : Int64) = Clock.now s

/-- A socket behaves like itself. -/
theorem WebSocket.mimics_id {ω : Type} [WebSocket ω] [Clock ω] :
    WebSocket.Mimics (id : ω → ω) where
  now _ := rfl
  setReadTimeout _ _ := rfl
  read _ := rfl
  write _ _ := rfl
  flush _ := rfl
  backlog _ := rfl
  clock _ := rfl

namespace NativeConnection

/-- The connection over another socket. -/
def mapWs {ω ω' : Type} (g : ω → ω') (conn : NativeConnection ω) : NativeConnection ω' :=
  { ws := g conn.ws }

section

variable {ω ω' : Type} {g : ω → ω'} {ε α : Type} {m : Eff ε ω α} {m' : Eff ε ω' α}

theorem tracks_onWs (h : Eff.Tracks g m m') : Eff.Tracks (mapWs g) (onWs m) (onWs m') := by
  intro conn
  simp only [onWs, mapWs, h conn.ws]

theorem tracks_mapErr [ToString ε] (what : String) (h : Eff.Tracks g m m') :
    Eff.Tracks (mapWs g) (mapErr what m) (mapErr what m') := by
  refine .bind (tracks_onWs h) fun r => ?_
  cases r with
  | error e => exact .fail _
  | ok a => exact .pure a

variable [WebSocket ω] [WebSocket ω'] [Clock ω] [Clock ω'] (h : WebSocket.Mimics g)

include h

theorem tracks_instant :
    Eff.Tracks (mapWs g) (instant : Eff Error (NativeConnection ω) Nat) instant := by
  intro conn
  simp only [instant, mapWs, h.now]

theorem tracks_recvRound (deadline : Nat) :
    Eff.Tracks (mapWs g) (recvRound deadline ()) (recvRound deadline ()) := by
  refine .bind (tracks_instant h) fun now => ?_
  by_cases hnow : deadline - now = 0
  · simp only [hnow, if_true]
    exact .pure _
  simp only [hnow, if_false]
  refine .bind (tracks_mapErr _ (h.setReadTimeout _)) fun _ =>
    .bind (tracks_onWs h.read) fun r => ?_
  rcases r with e | m
  · rw [afterRead, afterRead]
    split
    · exact .pure _
    · exact .fail _
  cases m with
  | ping payload => exact .bind (tracks_mapErr _ h.flush) fun _ => .pure _
  | close => exact .fail _
  | _ => exact .pure _

theorem tracks_recv (timeout : Duration) :
    Eff.Tracks (mapWs g) (recv timeout) (recv timeout) := by
  refine .bind (tracks_instant h) fun now => .bind (.read fun conn => ?_) fun backlog =>
    .bind (.loop (fun _ => tracks_recvRound h (now + timeout)) (backlog + 1) ()) fun text => ?_
  · exact congrArg Except.ok (h.backlog conn.ws)
  · cases text with
    | none => exact .pure _
    | some text => exact .pure _

/-- Connections over sockets that behave alike do the same. -/
theorem mimics_mapWs : RelayClient.Mimics (mapWs g) where
  send text := .bind (tracks_mapErr _ (h.write (.text text))) fun _ => tracks_mapErr _ h.flush
  recv := tracks_recv h
  now conn := h.clock conn.ws

end

end NativeConnection

/-- A client does over a socket what it does over the line of it: pings, pongs and the
    other messages without text do not make any difference, and a text is received if
    it arrives before the timeout elapses. -/
theorem RelayClient.run_over_wire (C : Crates) {ω : Type} [WebSocket ω] [Clock ω]
    {view : ω → Wire} (h : WebSocket.Mimics view) (calls : List Call)
    (opened : List (String × Filter)) (client : RelayClient (NativeConnection ω)) :
    run C calls opened client =
      run C calls opened (mapConn (fun conn => (view conn.ws).line) client) :=
  ((NativeConnection.mimics_line.comp (NativeConnection.mimics_mapWs h)).run_mapConn C
    calls opened client).symm

/-- A ping before a text makes no difference. -/
theorem RelayClient.run_over_wire_ping :
    ∃ (client : RelayClient (NativeConnection Wire)) (client' : RelayClient Line),
      client.conn.ws.arrivals = [(1, .ok (.ping [7])), (3, .ok (.text "[]"))] ∧
        client'.conn.arrivals = [(3, .ok (some "[]"))] ∧
        run Reference.crates [.poll 5, .poll 5] [] client =
          run Reference.crates [.poll 5, .poll 5] [] client' := by
  let wire : Wire :=
    { now := 0, arrivals := [(1, .ok (.ping [7])), (3, .ok (.text "[]"))], sorted := by simp
      readTimeout := 1, unsent := [], sent := [], calendar := fun _ => 0 }
  let client : RelayClient (NativeConnection Wire) :=
    .new { ws := wire } "wss://relay.example" (Reference.signer Reference.one).toSigner
  exact ⟨client, _, rfl, rfl, run_over_wire Reference.crates WebSocket.mimics_id
    [.poll 5, .poll 5] [] client⟩

end UnicityNostr
