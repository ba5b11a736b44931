import UnicityNostr.Client.Invariant
import UnicityNostr.Client.Multi

/-!
# Connections over WebSockets

A connection sends its texts as messages of a blocking WebSocket (`WebSocket`), and
receives them by reading messages for as long as the timeout allows
(`NativeConnection`). Messages without text are read past.

* `recvRound`: one message, read with what remains of the timeout; `recv_ends`: there are
  always rounds enough to receive;
* `socket_of_run`: how calls of a client use the socket. No text is lost, repeated or
  reordered, nothing is read without a timeout, and every ping is followed by a
  flush.
-/

namespace UnicityNostr

/-! ## Sockets -/

/-- A message of a WebSocket. -/
inductive Message
  | text (text : String)
  | binary (bytes : Bytes)
  | ping (payload : Bytes)
  | pong (payload : Bytes)
  | close
  /-- A raw frame. -/
  | frame (bytes : Bytes)
  deriving DecidableEq

/-- The kinds of errors of input and output that are told apart. -/
inductive ErrorKind
  | wouldBlock
  | timedOut
  | other
  deriving DecidableEq

/-- An error of a WebSocket, with its text. -/
inductive WsError
  | io (kind : ErrorKind) (text : String)
  | other (text : String)
  deriving DecidableEq

namespace WsError

/-- A blocking read that has taken as long as it may. -/
def isTimeout : WsError → Bool
  | .io .wouldBlock _ => true
  | .io .timedOut _ => true
  | _ => false

instance : ToString WsError where
  toString
    | .io _ text => text
    | .other text => text

end WsError

/-- A blocking WebSocket, in the state `ω`. -/
class WebSocket (ω : Type) where
  /-- The instant, in ticks; time may pass while the clock is read. -/
  now : ω → Nat × ω
  setReadTimeout : Duration → Eff String ω Unit
  read : Eff WsError ω Message
  write : Message → Eff WsError ω Unit
  flush : Eff WsError ω Unit
  close : Eff WsError ω Unit
  /-- The number of the messages that are still to be read. -/
  backlog : ω → Nat
  backlog_now : ∀ s, backlog (now s).2 ≤ backlog s
  backlog_setReadTimeout : ∀ dur s, backlog (setReadTimeout dur s).2 ≤ backlog s
  /-- A message that is read is one of them. -/
  backlog_read : ∀ s m s', read s = (.ok m, s') → backlog s' < backlog s
  backlog_flush : ∀ s, backlog (flush s).2 ≤ backlog s

/-! ## Connections -/

/-- A single blocking WebSocket connection. -/
structure NativeConnection (ω : Type) where
  ws : ω

namespace NativeConnection

variable {ω : Type} {ε α : Type}

/-- What an operation of the socket ends in. -/
def onWs (m : Eff ε ω α) : Eff Error (NativeConnection ω) (Except ε α) := fun conn =>
  (.ok (m conn.ws).1, { ws := (m conn.ws).2 })

/-- An operation of the socket. Its errors are reported under the name `what`. -/
def mapErr [ToString ε] (what : String) (m : Eff ε ω α) :
    Eff Error (NativeConnection ω) α := do
  match ← onWs m with
  | .ok a => return a
  | .error e => Eff.fail (.decode (what ++ ": " ++ toString e))

variable [WebSocket ω]

/-- Reading the clock. -/
def instant : Eff Error (NativeConnection ω) Nat := fun conn =>
  (.ok (WebSocket.now conn.ws).1, { ws := (WebSocket.now conn.ws).2 })

/-- Setting the timeout for reading. -/
def setReadTimeout (dur : Duration) : Eff Error (NativeConnection ω) Unit :=
  mapErr "set_read_timeout" (WebSocket.setReadTimeout dur)

/-- Sending a text. -/
def send (text : String) : Eff Error (NativeConnection ω) Unit := do
  mapErr "ws send" (WebSocket.write (.text text))
  mapErr "ws flush" WebSocket.flush

/-- What follows the reading of a message. -/
def afterRead : Except WsError Message →
    Eff Error (NativeConnection ω) (Eff.Round Unit (Option String))
  | .ok (.text text) => return .done (some text)
  | .ok (.ping _) => do
    -- The pong has been queued by the socket.
    mapErr "ws flush" WebSocket.flush
    return .next ()
  | .ok .close => Eff.fail (.malformed "relay closed connection")
  | .ok _ => return .next ()
  | .error e =>
    if e.isTimeout then return .done none
    else Eff.fail (.decode ("ws read: " ++ toString e))

/-- Reading one message in what remains until the deadline. -/
def recvRound (deadline : Nat) (_ : Unit) :
    Eff Error (NativeConnection ω) (Eff.Round Unit (Option String)) := do
  let now ← instant
  if deadline - now = 0 then return .done none
  setReadTimeout (deadline - now)
  afterRead (← onWs WebSocket.read)

/-- Receiving a text: reading messages until it is one, or the deadline has passed. -/
def recv (timeout : Duration) : Eff Error (NativeConnection ω) (Option String) := do
  let now ← instant
  let backlog ← Eff.read fun conn => .ok (WebSocket.backlog conn.ws)
  match ← Eff.loop (recvRound (now + timeout)) (backlog + 1) () with
  | some text => return text
  | none => return none

/-- Closing the socket, in whatever that ends. -/
def close (conn : NativeConnection ω) : NativeConnection ω :=
  { ws := (WebSocket.flush (WebSocket.close conn.ws).2).2 }

instance : RelayConnection (NativeConnection ω) where
  send := send
  recv := recv
  close := close

instance [Clock ω] : Clock (NativeConnection ω) where
  now conn := Clock.now conn.ws

end NativeConnection

/-- Opens connections over the sockets that are connected to the URLs. -/
structure NativeTransport (ω : Type) where
  socket : String → Except WsError ω

instance {ω : Type} : Transport (NativeTransport ω) (NativeConnection ω) where
  connect transport url :=
    match transport.socket url with
    | .ok ws => .ok { ws }
    | .error e => .error (.decode ("ws connect: " ++ toString e))

/-! ## What is done with a socket -/

/-- An operation of a socket, and what it ended in. -/
inductive SocketOp
  | now (instant : Nat)
  | setReadTimeout (dur : Duration) (result : Except String Unit)
  | read (result : Except WsError Message)
  | write (m : Message) (result : Except WsError Unit)
  | flush (result : Except WsError Unit)
  | close (result : Except WsError Unit)

/-- A socket with a record of the operations on it. -/
structure Logged (ω : Type) where
  ws : ω
  ops : List SocketOp

namespace Logged

variable {ω : Type} {ε α : Type}

/-- An operation, put on the record. -/
def log (op : Except ε α → SocketOp) (m : Eff ε ω α) : Eff ε (Logged ω) α := fun s =>
  ((m s.ws).1, { ws := (m s.ws).2, ops := s.ops ++ [op (m s.ws).1] })

theorem log_eq {op : Except ε α → SocketOp} {m : Eff ε ω α} {s : Logged ω} {r : Except ε α}
    {ws : ω} (h : m s.ws = (r, ws)) : log op m s = (r, { ws, ops := s.ops ++ [op r] }) := by
  rw [log, h]

instance [WebSocket ω] : WebSocket (Logged ω) where
  now s := ((WebSocket.now s.ws).1,
    { ws := (WebSocket.now s.ws).2, ops := s.ops ++ [.now (WebSocket.now s.ws).1] })
  setReadTimeout dur := log (.setReadTimeout dur) (WebSocket.setReadTimeout dur)
  read := log .read WebSocket.read
  write m := log (.write m) (WebSocket.write m)
  flush := log .flush WebSocket.flush
  close := log .close WebSocket.close
  backlog s := WebSocket.backlog s.ws
  backlog_now s := WebSocket.backlog_now s.ws
  backlog_setReadTimeout dur s := WebSocket.backlog_setReadTimeout dur s.ws
  backlog_read s m s' h := by
    obtain ⟨hread, rfl⟩ := Prod.mk.inj h
    exact WebSocket.backlog_read s.ws m _ (Prod.ext hread rfl)
  backlog_flush s := WebSocket.backlog_flush s.ws

instance [Clock ω] : Clock (Logged ω) where
  now s := Clock.now s.ws

end Logged

/-- The operations of a connection come in phrases: whatever is read is read with a
    timeout that has just been set, a ping is followed by a flush, and so is a
    text. -/
inductive Phrase : List SocketOp → Prop
  | now (t : Nat) : Phrase [.now t]
  | unset (d : Duration) (e : String) : Phrase [.setReadTimeout d (.error e)]
  | read {d : Duration} {r : Except WsError Message} (hd : 0 < d)
    (hr : ∀ payload, r ≠ .ok (.ping payload)) : Phrase [.setReadTimeout d (.ok ()), .read r]
  | ping {d : Duration} (hd : 0 < d) (payload : Bytes) (r : Except WsError Unit) :
    Phrase [.setReadTimeout d (.ok ()), .read (.ok (.ping payload)), .flush r]
  | unsent (text : String) (e : WsError) : Phrase [.write (.text text) (.error e)]
  | sent (text : String) (r : Except WsError Unit) :
    Phrase [.write (.text text) (.ok ()), .flush r]

/-- The texts read. -/
def textsRead (ops : List SocketOp) : List String :=
  ops.filterMap fun
    | .read (.ok (.text text)) => some text
    | _ => none

/-- The texts written, or attempted to. -/
def textsWritten (ops : List SocketOp) : List String :=
  ops.filterMap fun
    | .write (.text text) _ => some text
    | _ => none

/-- The text received over a connection. -/
def Io.received? : Io → Option String
  | .received (.ok text) => text
  | _ => none

/-- The text sent over a connection, or attempted to. -/
def Io.sent? : Io → Option String
  | .sent text _ => some text
  | _ => none

/-- From the one record to the other there are further phrases, in which the texts
    are read and written. -/
def Goes (ops ops' : List SocketOp) (read written : List String) : Prop :=
  ∃ phrases : List (List SocketOp), (∀ phrase ∈ phrases, Phrase phrase) ∧
    ops' = ops ++ phrases.flatten ∧ textsRead phrases.flatten = read ∧
    textsWritten phrases.flatten = written

namespace Goes

theorem refl (ops : List SocketOp) : Goes ops ops [] [] :=
  ⟨[], List.forall_mem_nil _, (List.append_nil ops).symm, rfl, rfl⟩

theorem of_phrase {phrase : List SocketOp} (h : Phrase phrase) (ops : List SocketOp) :
    Goes ops (ops ++ phrase) (textsRead phrase) (textsWritten phrase) := by
  refine ⟨[phrase], List.forall_mem_singleton.2 h, ?_, ?_, ?_⟩
  all_goals rw [List.flatten_singleton]

theorem trans {ops ops' ops'' : List SocketOp} {read read' written written' : List String}
    (h : Goes ops ops' read written) (h' : Goes ops' ops'' read' written') :
    Goes ops ops'' (read ++ read') (written ++ written') := by
  obtain ⟨phrases, hphrases, rfl, rfl, rfl⟩ := h
  obtain ⟨phrases', hphrases', rfl, rfl, rfl⟩ := h'
  refine ⟨phrases ++ phrases', List.forall_mem_append.2 ⟨hphrases, hphrases'⟩, ?_, ?_, ?_⟩
  · rw [List.flatten_append, List.append_assoc]
  · rw [List.flatten_append, textsRead, List.filterMap_append]
    rfl
  · rw [List.flatten_append, textsWritten, List.filterMap_append]
    rfl

end Goes

namespace NativeConnection

variable {ω : Type} {ε α : Type} [ToString ε] {what : String} {m : Eff ε ω α}
  {conn : NativeConnection ω} {ws : ω}

theorem mapErr_ok {a : α} (h : m conn.ws = (.ok a, ws)) :
    mapErr what m conn = (.ok a, { ws }) := by
  rw [mapErr, Eff.bind_apply, onWs, h]
  rfl

theorem mapErr_error {e : ε} (h : m conn.ws = (.error e, ws)) :
    mapErr what m conn = (.error (.decode (what ++ ": " ++ toString e)), { ws }) := by
  rw [mapErr, Eff.bind_apply, onWs, h]
  rfl

section

variable [WebSocket ω]

/-- After a ping is read, the pong is flushed. -/
theorem afterRead_ping {payload : Bytes} (h : WebSocket.flush conn.ws = (.ok (), ws)) :
    afterRead (.ok (.ping payload)) conn = (.ok (.next ()), { ws }) :=
  Eff.bind_ok (mapErr_ok h) _

theorem afterRead_ping_error {payload : Bytes} {e : WsError}
    (h : WebSocket.flush conn.ws = (.error e, ws)) :
    afterRead (.ok (.ping payload)) conn =
      (.error (.decode ("ws flush: " ++ toString e)), { ws }) :=
  Eff.bind_error (mapErr_error h) _

theorem send_eq {text : String} {ws' : ω} {r : Except WsError Unit}
    (hwrite : WebSocket.write (.text text) conn.ws = (.ok (), ws))
    (hflush : WebSocket.flush ws = (r, ws')) :
    send text conn =
      (r.mapError fun e => .decode ("ws flush: " ++ toString e), { ws := ws' }) := by
  rw [send, Eff.bind_ok (mapErr_ok hwrite)]
  cases r with
  | error e => exact mapErr_error hflush
  | ok _ => exact mapErr_ok hflush

theorem send_error {text : String} {e : WsError}
    (hwrite : WebSocket.write (.text text) conn.ws = (.error e, ws)) :
    send text conn = (.error (.decode ("ws send: " ++ toString e)), { ws }) := by
  rw [send, Eff.bind_error (mapErr_error hwrite)]
  rfl

/-- Receiving is reading messages until the deadline. -/
theorem recv_eq {timeout : Duration} {t : Nat} (hnow : WebSocket.now conn.ws = (t, ws)) :
    recv timeout conn =
      (Eff.loop (recvRound (t + timeout)) (WebSocket.backlog ws + 1) () { ws }).map
        (Except.map Option.join) id := by
  have hinstant : instant conn = (.ok t, { ws }) := by rw [instant, hnow]
  have hbacklog : (Eff.read fun conn => .ok (WebSocket.backlog conn.ws) :
      Eff Error (NativeConnection ω) Nat) { ws } = (.ok (WebSocket.backlog ws), { ws }) := rfl
  rw [recv, Eff.bind_ok hinstant, Eff.bind_ok hbacklog, Eff.bind_apply]
  rcases Eff.loop (recvRound (t + timeout)) (WebSocket.backlog ws + 1) () { ws }
    with ⟨e | _ | text, conn'⟩
  all_goals rfl

variable {deadline t : Nat}

/-- After the deadline nothing is read. -/
theorem recvRound_expired (hnow : WebSocket.now conn.ws = (t, ws)) (h : deadline ≤ t) :
    recvRound deadline () conn = (.ok (.done none), { ws }) := by
  have hinstant : instant conn = (.ok t, { ws }) := by rw [instant, hnow]
  rw [recvRound, Eff.bind_ok hinstant, if_pos (Nat.sub_eq_zero_of_le h)]
  rfl

/-- Before the deadline, the timeout is set to what remains, which may fail. -/
theorem recvRound_of_error {e : String} {ws' : ω} (hnow : WebSocket.now conn.ws = (t, ws))
    (h : t < deadline) (hset : WebSocket.setReadTimeout (deadline - t) ws = (.error e, ws')) :
    recvRound deadline () conn =
      (.error (.decode ("set_read_timeout: " ++ toString e)), { ws := ws' }) := by
  have hinstant : instant conn = (.ok t, { ws }) := by rw [instant, hnow]
  rw [recvRound, Eff.bind_ok hinstant, if_neg (Nat.sub_ne_zero_of_lt h)]
  exact Eff.bind_error (mapErr_error hset) _

/-- Before the deadline, a message is read with the timeout set to what remains. -/
theorem recvRound_of_read {r : Except WsError Message} {ws' ws'' : ω}
    (hnow : WebSocket.now conn.ws = (t, ws)) (h : t < deadline)
    (hset : WebSocket.setReadTimeout (deadline - t) ws = (.ok (), ws'))
    (hread : WebSocket.read ws' = (r, ws'')) :
    recvRound deadline () conn = afterRead r { ws := ws'' } := by
  have hinstant : instant conn = (.ok t, { ws }) := by rw [instant, hnow]
  have honWs : onWs WebSocket.read { ws := ws' } = (.ok r, { ws := ws'' }) := by rw [onWs, hread]
  rw [recvRound, Eff.bind_ok hinstant, if_neg (Nat.sub_ne_zero_of_lt h)]
  exact (Eff.bind_ok (mapErr_ok hset) _).trans (Eff.bind_ok honWs _)

/-- A message that is read past leaves fewer to be read. -/
theorem backlog_afterRead {r : Except WsError Message} {conn' : NativeConnection ω}
    (h : afterRead r conn = (.ok (.next ()), conn')) :
    (∃ m, r = .ok m) ∧ WebSocket.backlog conn'.ws ≤ WebSocket.backlog conn.ws := by
  rcases r with e | m
  · rw [afterRead] at h
    split at h <;> cases (Prod.mk.inj h).1
  refine ⟨⟨m, rfl⟩, ?_⟩
  cases m with
  | ping payload =>
    have hle := WebSocket.backlog_flush conn.ws
    rcases hflush : WebSocket.flush conn.ws with ⟨e | _, ws⟩
    · rw [afterRead_ping_error hflush] at h
      cases (Prod.mk.inj h).1
    · rw [afterRead_ping hflush] at h
      rw [hflush] at hle
      exact (Prod.mk.inj h).2 ▸ hle
  | text text => cases (Prod.mk.inj h).1
  | close => cases (Prod.mk.inj h).1
  | _ => exact (Prod.mk.inj h).2 ▸ le_rfl

theorem backlog_recvRound {conn' : NativeConnection ω}
    (h : recvRound deadline () conn = (.ok (.next ()), conn')) :
    WebSocket.backlog conn'.ws < WebSocket.backlog conn.ws := by
  have hle := WebSocket.backlog_now conn.ws
  rcases hnow : WebSocket.now conn.ws with ⟨t, ws⟩
  rw [hnow] at hle
  rcases Nat.lt_or_ge t deadline with ht | ht
  swap
  · rw [recvRound_expired hnow ht] at h
    cases (Prod.mk.inj h).1
  have hle' := WebSocket.backlog_setReadTimeout (deadline - t) ws
  rcases hset : WebSocket.setReadTimeout (deadline - t) ws with ⟨e | _, ws'⟩
  · rw [recvRound_of_error hnow ht hset] at h
    cases (Prod.mk.inj h).1
  rcases hread : WebSocket.read ws' with ⟨r, ws''⟩
  rw [hset] at hle'
  rw [recvRound_of_read hnow ht hset hread] at h
  obtain ⟨⟨m, rfl⟩, hlt⟩ := backlog_afterRead h
  have := WebSocket.backlog_read ws' m ws'' hread
  dsimp only at hle hle' hlt
  omega

/-- Reading messages ends within as many rounds as there are messages, and one more. -/
theorem exists_loop_recvRound {n : Nat} (hn : WebSocket.backlog conn.ws < n) :
    ∃ (r : Result (Option String)) (conn' : NativeConnection ω),
      Eff.loop (recvRound deadline) n () conn = (r.map some, conn') := by
  induction n generalizing conn with
  | zero => exact absurd hn (Nat.not_lt_zero _)
  | succ n ih =>
    rcases hround : recvRound deadline () conn with ⟨e | _ | text, conn₁⟩
    · exact ⟨.error e, conn₁, Eff.bind_error hround _⟩
    · have hlt := backlog_recvRound hround
      obtain ⟨r, conn', hloop⟩ := @ih conn₁ (by omega)
      exact ⟨r, conn', (Eff.loop_next hround).trans hloop⟩
    · exact ⟨.ok text, conn₁, Eff.loop_done hround⟩

/-- Receiving is reading messages until the deadline, in however many rounds. -/
theorem recv_ends {timeout : Duration} (hnow : WebSocket.now conn.ws = (t, ws)) :
    Eff.LoopEnds (recvRound (t + timeout)) () { ws } (recv timeout conn).1
      (recv timeout conn).2 := by
  obtain ⟨r, conn', hloop⟩ : ∃ (r : Result (Option String)) (conn' : NativeConnection ω),
      Eff.loop (recvRound (t + timeout)) (WebSocket.backlog ws + 1) () { ws } =
        (r.map some, conn') := exists_loop_recvRound (Nat.lt_succ_self _)
  have hrecv : recv timeout conn = (r, conn') := by
    rw [recv_eq hnow, hloop]
    cases r with
    | error e => rfl
    | ok text => rfl
  rw [hrecv]
  exact ⟨_, hloop⟩

end

section

variable [WebSocket ω]

/-- The text that a round of receiving ends in. -/
def roundText : Result (Eff.Round Unit (Option String)) → Option String
  | .ok (.done text) => text
  | _ => none

/-- A round of receiving is made in phrases, and reads the text it ends in. -/
theorem goes_recvRound {deadline : Nat} {conn conn' : NativeConnection (Logged ω)}
    {r : Result (Eff.Round Unit (Option String))}
    (h : recvRound deadline () conn = (r, conn')) :
    Goes conn.ws.ops conn'.ws.ops (roundText r).toList [] := by
  rcases hnow : WebSocket.now conn.ws.ws with ⟨t, ws⟩
  have hnow' : WebSocket.now conn.ws = (t, { ws, ops := conn.ws.ops ++ [.now t] }) := by
    simp only [WebSocket.now, hnow]
  have hgoes := Goes.of_phrase (.now t) conn.ws.ops
  rcases Nat.lt_or_ge t deadline with ht | ht
  · have hd : 0 < deadline - t := Nat.sub_pos_of_lt ht
    rcases hset : WebSocket.setReadTimeout (deadline - t) ws with ⟨e | _, ws'⟩
    · obtain ⟨rfl, rfl⟩ := Prod.mk.inj
        ((recvRound_of_error hnow' ht (Logged.log_eq hset)).symm.trans h)
      exact hgoes.trans (.of_phrase (.unset _ e) _)
    rcases hread : WebSocket.read ws' with ⟨r, ws''⟩
    have h := (recvRound_of_read hnow' ht (Logged.log_eq hset) (Logged.log_eq hread)).symm.trans h
    rw [List.append_assoc _ _ [_]] at h
    rcases r with e | m
    · have hphrase : Phrase [.setReadTimeout (deadline - t) (.ok ()), .read (.error e)] :=
        .read hd (by simp)
      rw [afterRead] at h
      split at h
      all_goals
        obtain ⟨rfl, rfl⟩ := Prod.mk.inj h
        exact hgoes.trans (.of_phrase hphrase _)
    cases m with
    | ping payload =>
      rcases hflush : WebSocket.flush ws'' with ⟨r, ws₃⟩
      have hphrase := Phrase.ping hd payload r
      rcases r with e | _
      · obtain ⟨rfl, rfl⟩ := Prod.mk.inj
          ((afterRead_ping_error (Logged.log_eq hflush)).symm.trans h)
        rw [List.append_assoc _ (_ ++ _)]
        exact hgoes.trans (.of_phrase hphrase _)
      · obtain ⟨rfl, rfl⟩ := Prod.mk.inj ((afterRead_ping (Logged.log_eq hflush)).symm.trans h)
        rw [List.append_assoc _ (_ ++ _)]
        exact hgoes.trans (.of_phrase hphrase _)
    | _ =>
      obtain ⟨rfl, rfl⟩ := Prod.mk.inj h
      exact hgoes.trans (Goes.of_phrase (.read hd (by simp)) _)
  · obtain ⟨rfl, rfl⟩ := Prod.mk.inj ((recvRound_expired hnow' ht).symm.trans h)
    exact hgoes

theorem goes_loop (deadline n : Nat) {conn conn' : NativeConnection (Logged ω)}
    {r : Result (Option (Option String))}
    (h : Eff.loop (recvRound deadline) n () conn = (r, conn')) :
    Goes conn.ws.ops conn'.ws.ops (Io.received (r.map Option.join)).received?.toList [] := by
  induction n generalizing conn with
  | zero =>
    obtain ⟨rfl, rfl⟩ := Prod.mk.inj h
    exact .refl _
  | succ n ih =>
    rcases hr : recvRound deadline () conn with ⟨e | _ | text, conn₁⟩
    all_goals have hround := goes_recvRound hr
    · obtain ⟨rfl, rfl⟩ := Prod.mk.inj ((Eff.bind_error hr _).symm.trans h)
      exact hround
    · exact hround.trans (ih ((Eff.loop_next hr).symm.trans h))
    · obtain ⟨rfl, rfl⟩ := Prod.mk.inj ((Eff.loop_done hr).symm.trans h)
      exact hround

/-- Receiving is made in phrases, and reads the text that is received. -/
theorem goes_recv (timeout : Duration) (conn : NativeConnection (Logged ω)) :
    Goes conn.ws.ops (recv timeout conn).2.ws.ops
      (Io.received (recv timeout conn).1).received?.toList [] := by
  rcases hnow : WebSocket.now conn.ws.ws with ⟨t, ws⟩
  have hnow' : WebSocket.now conn.ws = (t, { ws, ops := conn.ws.ops ++ [.now t] }) := by
    simp only [WebSocket.now, hnow]
  have hgoes := Goes.of_phrase (.now t) conn.ws.ops
  rw [recv_eq hnow']
  rcases h : Eff.loop (recvRound (t + timeout)) _ () _ with ⟨r, conn'⟩
  exact hgoes.trans (goes_loop _ _ h)

/-- Sending is made in phrases, and writes the text. -/
theorem goes_send (text : String) (conn : NativeConnection (Logged ω)) :
    Goes conn.ws.ops (send text conn).2.ws.ops [] [text] := by
  rcases hwrite : WebSocket.write (.text text) conn.ws.ws with ⟨e | _, ws⟩
  · rw [send_error (Logged.log_eq hwrite)]
    exact .of_phrase (.unsent text e) _
  · rcases hflush : WebSocket.flush ws with ⟨r, ws'⟩
    rw [send_eq (Logged.log_eq hwrite) (Logged.log_eq hflush), List.append_assoc]
    exact .of_phrase (.sent text r) _

end

end NativeConnection

/-- From the one record of a connection to the other, the socket has been used for what
    has passed. -/
def Recorded.Uses {ω : Type} (s s' : Recorded (NativeConnection (Logged ω))) : Prop :=
  ∃ ios, s'.log = s.log ++ ios ∧
    Goes s.conn.ws.ops s'.conn.ws.ops (ios.filterMap Io.received?) (ios.filterMap Io.sent?)

namespace Recorded.Uses

variable {ω : Type}

theorem refl (s : Recorded (NativeConnection (Logged ω))) : Uses s s :=
  ⟨[], (List.append_nil _).symm, .refl _⟩

theorem trans (s s' s'' : Recorded (NativeConnection (Logged ω))) (h : Uses s s')
    (h' : Uses s' s'') : Uses s s'' := by
  obtain ⟨ios, hlog, hgoes⟩ := h
  obtain ⟨ios', hlog', hgoes'⟩ := h'
  refine ⟨ios ++ ios', ?_, ?_⟩
  · rw [hlog', hlog, List.append_assoc]
  · rw [List.filterMap_append, List.filterMap_append]
    exact hgoes.trans hgoes'

variable [WebSocket ω]

theorem send (text : String) (s : Recorded (NativeConnection (Logged ω))) :
    Uses s (RelayConnection.send text s).2 :=
  ⟨_, rfl, NativeConnection.goes_send text s.conn⟩

theorem recv (timeout : Duration) (s : Recorded (NativeConnection (Logged ω))) :
    Uses s (RelayConnection.recv timeout s).2 := by
  refine ⟨_, rfl, ?_⟩
  have hgoes := NativeConnection.goes_recv timeout s.conn
  rcases h : NativeConnection.recv timeout s.conn with ⟨_ | _ | text, conn⟩
  all_goals
    rw [h] at hgoes
    simp only [RelayConnection.recv, h]
    exact hgoes

end Recorded.Uses

/-- Whatever a client is called for, it uses the socket in phrases: nothing is read
    without a timeout that has just been set, and every ping is followed by a flush. The
    texts read are the ones received, and the texts written are the ones sent, each
    once and in the same order. -/
theorem RelayClient.socket_of_run (C : Crates) {ω : Type} [WebSocket ω] [Clock ω]
    (calls : List Call) (client : RelayClient (Recorded (NativeConnection (Logged ω)))) :
    ∃ (ios : List Io) (phrases : List (List SocketOp)),
      (performAll C calls client).conn.log = client.conn.log ++ ios ∧
      (performAll C calls client).conn.conn.ws.ops = client.conn.conn.ws.ops ++ phrases.flatten ∧
      (∀ phrase ∈ phrases, Phrase phrase) ∧
      textsRead phrases.flatten = ios.filterMap Io.received? ∧
      textsWritten phrases.flatten = ios.filterMap Io.sent? := by
  obtain ⟨⟨ios, hlog, phrases, hphrases, hops, hread, hwritten⟩, -⟩ := related_performAll C
    Recorded.Uses.refl Recorded.Uses.trans Recorded.Uses.send Recorded.Uses.recv calls client
  exact ⟨ios, phrases, hlog, hops, hphrases, hread, hwritten⟩

end UnicityNostr
