import UnicityNostr.Client.Wire

/-!
# Pings

A WebSocket queues a pong for every ping that is read, and sends what is queued when it
is flushed (`WebSocket.QueuesPongs`). Any operation may fail, and then what is queued may
be lost.

* `pings_are_answered`: whatever a client is called for, the pongs sent meanwhile answer
  pings that have been read. No ping is left out but for a flush that has failed.
-/

namespace UnicityNostr

/-! ## Operations as steps -/

/-- The operation takes the socket from the one state to the other. -/
def SocketOp.Takes {ω : Type} [WebSocket ω] (s s' : ω) : SocketOp → Prop
  | .now t => WebSocket.now s = (t, s')
  | .setReadTimeout dur r => WebSocket.setReadTimeout dur s = (r, s')
  | .read r => WebSocket.read s = (r, s')
  | .write m r => WebSocket.write m s = (r, s')
  | .flush r => WebSocket.flush s = (r, s')
  | .close r => WebSocket.close s = (r, s')

/-- The operations take the socket from the one state to the other, in turn. -/
inductive Leads {ω : Type} [WebSocket ω] : List SocketOp → ω → ω → Prop
  | nil (s : ω) : Leads [] s s
  | cons {op : SocketOp} {ops : List SocketOp} {s s' s'' : ω} (h : op.Takes s s')
    (hops : Leads ops s' s'') : Leads (op :: ops) s s''

namespace Leads

variable {ω : Type} [WebSocket ω] {ops ops' : List SocketOp} {s s' s'' : ω}

theorem single {op : SocketOp} (h : op.Takes s s') : Leads [op] s s' :=
  .cons h (.nil s')

theorem append (h : Leads ops s s') (h' : Leads ops' s' s'') : Leads (ops ++ ops') s s'' := by
  induction h with
  | nil => exact h'
  | cons hop _ ih => exact .cons hop (ih h')

theorem of_append (h : Leads (ops ++ ops') s s'') : ∃ s', Leads ops s s' ∧ Leads ops' s' s'' := by
  induction ops generalizing s with
  | nil => exact ⟨s, .nil s, h⟩
  | cons op ops ih =>
    obtain _ | ⟨hop, hops⟩ := h
    obtain ⟨s', h, h'⟩ := ih hops
    exact ⟨s', .cons hop h, h'⟩

end Leads

namespace Logged

variable {ω : Type} [WebSocket ω]

/-- The operations put on record meanwhile are what the socket has gone through. -/
def Follows (s s' : Logged ω) : Prop := ∃ ops, s'.ops = s.ops ++ ops ∧ Leads ops s.ws s'.ws

theorem Follows.refl (s : Logged ω) : Follows s s := ⟨[], (List.append_nil _).symm, .nil _⟩

theorem Follows.trans {s s' s'' : Logged ω} (h : Follows s s') (h' : Follows s' s'') :
    Follows s s'' := by
  obtain ⟨ops, hops, hleads⟩ := h
  obtain ⟨ops', hops', hleads'⟩ := h'
  exact ⟨ops ++ ops', by rw [hops', hops, List.append_assoc], hleads.append hleads'⟩

/-- An operation is on the record if it is put there. -/
theorem follows_log {ε α : Type} (op : Except ε α → SocketOp) {m : Eff ε ω α}
    (h : ∀ s, (op (m s).1).Takes s (m s).2) (s : Logged ω) : Follows s (log op m s).2 :=
  ⟨_, rfl, .single (h s.ws)⟩

end Logged

namespace NativeConnection

open Logged (Follows)

variable {ω ε α : Type} [WebSocket ω]

/-- From the one state of a connection to the other, the socket does what is
    recorded. -/
def Follow (conn conn' : NativeConnection (Logged ω)) : Prop := Follows conn.ws conn'.ws

theorem follow_refl (conn : NativeConnection (Logged ω)) : Follow conn conn := .refl conn.ws

theorem follow_trans (conn conn' conn'' : NativeConnection (Logged ω)) (h : Follow conn conn')
    (h' : Follow conn' conn'') : Follow conn conn'' := h.trans h'

theorem follow_mapErr [ToString ε] (what : String) {m : Eff ε (Logged ω) α}
    (h : Eff.Moves Follows m) : Eff.Moves Follow (mapErr what m) := by
  refine .bind follow_trans (fun conn => h conn.ws) fun r => ?_
  cases r with
  | error e => exact .fail follow_refl _
  | ok a => exact .pure follow_refl a

theorem follow_instant :
    Eff.Moves Follow (instant : Eff Error (NativeConnection (Logged ω)) Nat) :=
  fun _ => ⟨_, rfl, .single rfl⟩

theorem follow_setReadTimeout (dur : Duration) :
    Eff.Moves (@Follow ω _) (setReadTimeout dur) :=
  follow_mapErr _ (Logged.follows_log _ fun _ => rfl)

theorem follow_read :
    Eff.Moves Follow (onWs (WebSocket.read : Eff WsError (Logged ω) Message)) :=
  fun conn => Logged.follows_log .read (fun _ => rfl) conn.ws

theorem follow_flush : Eff.Moves (@Follow ω _) (mapErr "ws flush" WebSocket.flush) :=
  follow_mapErr _ (Logged.follows_log _ fun _ => rfl)

theorem follow_recvRound (deadline : Nat) :
    Eff.Moves (@Follow ω _) (recvRound deadline ()) := by
  refine .bind follow_trans follow_instant fun now => ?_
  by_cases hnow : deadline - now = 0
  · simp only [hnow, if_true]
    exact .pure follow_refl _
  simp only [hnow, if_false]
  refine .bind follow_trans (follow_setReadTimeout _) fun _ =>
    .bind follow_trans follow_read fun r => ?_
  rcases r with e | m
  · rw [afterRead]
    split
    · exact .pure follow_refl _
    · exact .fail follow_refl _
  cases m with
  | ping payload => exact .bind follow_trans follow_flush fun _ => .pure follow_refl _
  | close => exact .fail follow_refl _
  | _ => exact .pure follow_refl _

theorem follow_recv (timeout : Duration) : Eff.Moves (@Follow ω _) (recv timeout) := by
  refine .bind follow_trans follow_instant fun now => .bind follow_trans
    (.read follow_refl _) fun backlog => .bind follow_trans
    (.loop follow_refl follow_trans (fun _ => follow_recvRound (now + timeout)) _ ()) fun text => ?_
  cases text with
  | none => exact .pure follow_refl _
  | some text => exact .pure follow_refl _

theorem follow_send (text : String) : Eff.Moves (@Follow ω _) (send text) :=
  .bind follow_trans (follow_mapErr _ (Logged.follows_log _ fun _ => rfl)) fun _ => follow_flush

/-- From the one state of a connection to the other there are phrases on the record, and
    they are what the socket has gone through. -/
def InPhrases (conn conn' : NativeConnection (Logged ω)) : Prop :=
  ∃ phrases : List (List SocketOp), (∀ phrase ∈ phrases, Phrase phrase) ∧
    conn'.ws.ops = conn.ws.ops ++ phrases.flatten ∧
    Leads phrases.flatten conn.ws.ws conn'.ws.ws

theorem inPhrases_refl (conn : NativeConnection (Logged ω)) : InPhrases conn conn :=
  ⟨[], List.forall_mem_nil _, (List.append_nil _).symm, .nil _⟩

theorem inPhrases_trans (conn conn' conn'' : NativeConnection (Logged ω))
    (h : InPhrases conn conn') (h' : InPhrases conn' conn'') : InPhrases conn conn'' := by
  obtain ⟨phrases, hphrases, hops, hleads⟩ := h
  obtain ⟨phrases', hphrases', hops', hleads'⟩ := h'
  refine ⟨phrases ++ phrases', List.forall_mem_append.2 ⟨hphrases, hphrases'⟩, ?_, ?_⟩
  · rw [hops', hops, List.flatten_append, List.append_assoc]
  · rw [List.flatten_append]
    exact hleads.append hleads'

/-- What is recorded in phrases is what the socket goes through. -/
theorem inPhrases_of_goes {conn conn' : NativeConnection (Logged ω)} {read written : List String}
    (hgoes : Goes conn.ws.ops conn'.ws.ops read written) (h : Follow conn conn') :
    InPhrases conn conn' := by
  obtain ⟨phrases, hphrases, hops, -, -⟩ := hgoes
  obtain ⟨ops, hops', hleads⟩ := h
  obtain rfl := List.append_cancel_left (hops'.symm.trans hops)
  exact ⟨phrases, hphrases, hops, hleads⟩

theorem inPhrases_recv (timeout : Duration) : Eff.Moves (@InPhrases ω _) (recv timeout) :=
  fun conn => inPhrases_of_goes (goes_recv timeout conn) (follow_recv timeout conn)

theorem inPhrases_send (text : String) : Eff.Moves (@InPhrases ω _) (send text) :=
  fun conn => inPhrases_of_goes (goes_send text conn) (follow_send text conn)

end NativeConnection

/-! ## Pongs -/

/-- The payloads of the pings read. -/
def pingsRead (ops : List SocketOp) : List Bytes :=
  ops.filterMap fun
    | .read (.ok (.ping payload)) => some payload
    | _ => none

/-- The payloads of the pings read that a successful flush follows. -/
def pingsFlushed : List SocketOp → List Bytes
  | .read (.ok (.ping payload)) :: .flush (.ok ()) :: ops => payload :: pingsFlushed ops
  | _ :: ops => pingsFlushed ops
  | [] => []

/-- The payloads of the pongs that an operation may queue. -/
def SocketOp.pongs : SocketOp → List Bytes
  | .read (.ok (.ping payload)) => [payload]
  | .write (.pong payload) _ => [payload]
  | _ => []

/-- A socket, the pongs it has sent and those it is going to, as their payloads. What is
    queued is sent in order, unless it is lost. -/
structure WebSocket.QueuesPongs {ω : Type} [WebSocket ω] (sent queued : ω → List Bytes) :
    Prop where
  prefix_sent {op : SocketOp} {s s' : ω} : op.Takes s s' → sent s <+: sent s'
  sublist {op : SocketOp} {s s' : ω} : op.Takes s s' →
    (sent s' ++ queued s').Sublist (sent s ++ queued s ++ op.pongs)
  /-- The pong of the ping that is read comes last. -/
  read {payload : Bytes} {s s' : ω} : WebSocket.read s = (.ok (.ping payload), s') →
    ∃ before, sent s' ++ queued s' = sent s ++ before ++ [payload]
  flush {s s' : ω} : WebSocket.flush s = (.ok (), s') → sent s' = sent s ++ queued s

/-- From the one state to the other, only pongs that have been queued or that answer
    `read` are sent, and `flushed` are answered. -/
structure Answers {ω : Type} (sent queued : ω → List Bytes) (read flushed : List Bytes)
    (s s' : ω) : Prop where
  sublist : (sent s' ++ queued s').Sublist (sent s ++ queued s ++ read)
  answered : ∃ answered, sent s' = sent s ++ answered ∧ flushed.Sublist answered

namespace Answers

variable {ω : Type} {sent queued : ω → List Bytes} {read read' flushed flushed' : List Bytes}
  {s s' s'' : ω}

theorem refl (s : ω) : Answers sent queued [] [] s s :=
  ⟨by rw [List.append_nil], [], (List.append_nil _).symm, List.Sublist.slnil⟩

theorem trans (h : Answers sent queued read flushed s s')
    (h' : Answers sent queued read' flushed' s' s'') :
    Answers sent queued (read ++ read') (flushed ++ flushed') s s'' := by
  obtain ⟨answered, hsent, hflushed⟩ := h.answered
  obtain ⟨answered', hsent', hflushed'⟩ := h'.answered
  refine ⟨?_, answered ++ answered', ?_, hflushed.append hflushed'⟩
  · rw [← List.append_assoc]
    exact h'.sublist.trans (h.sublist.append_right read')
  · rw [hsent', hsent, List.append_assoc]

/-- Where the queue was empty, the pongs sent answer pings that have been read. -/
theorem exists_of_queued (h : Answers sent queued read flushed s s') (hqueued : queued s = []) :
    ∃ answered, sent s' = sent s ++ answered ∧ flushed.Sublist answered ∧
      answered.Sublist read ∧ (flushed = read → answered = read ∧ queued s' = []) := by
  obtain ⟨answered, hsent, hflushed⟩ := h.answered
  have hsublist := h.sublist
  rw [hqueued, hsent, List.append_nil, List.append_assoc, List.append_sublist_append_left]
    at hsublist
  have hread : answered.Sublist read := (List.sublist_append_left _ _).trans hsublist
  refine ⟨answered, hsent, hflushed, hread, ?_⟩
  rintro rfl
  obtain rfl := hread.antisymm hflushed
  exact ⟨rfl, List.append_right_eq_self.1 (hsublist.antisymm (List.sublist_append_left _ _))⟩

end Answers

namespace WebSocket.QueuesPongs

variable {ω : Type} [WebSocket ω] {sent queued : ω → List Bytes}
  (h : WebSocket.QueuesPongs sent queued) {s s' : ω}

include h

theorem answers_op {op : SocketOp} (hop : op.Takes s s') :
    Answers sent queued op.pongs [] s s' := by
  obtain ⟨answered, hanswered⟩ := h.prefix_sent hop
  exact ⟨h.sublist hop, answered, hanswered.symm, List.nil_sublist _⟩

theorem answers_ops {ops : List SocketOp} (hops : Leads ops s s') :
    Answers sent queued (ops.flatMap SocketOp.pongs) [] s s' := by
  induction hops with
  | nil s => exact .refl s
  | cons hop _ ih => exact (h.answers_op hop).trans ih

/-- A ping that a successful flush follows is answered. -/
theorem answers_flushed {payload : Bytes} {s₁ : ω}
    (hread : WebSocket.read s = (.ok (.ping payload), s₁))
    (hflush : WebSocket.flush s₁ = (.ok (), s')) :
    Answers sent queued [payload] [payload] s s' := by
  obtain ⟨before, hbefore⟩ := h.read hread
  have hops : Leads [.read (.ok (.ping payload)), .flush (.ok ())] s s' :=
    .cons hread (.single hflush)
  refine ⟨(h.answers_ops hops).sublist, before ++ [payload], ?_, List.sublist_append_right _ _⟩
  rw [h.flush hflush, hbefore, List.append_assoc]

end WebSocket.QueuesPongs

/-! ## Phrases -/

variable {ω : Type} [WebSocket ω] {sent queued : ω → List Bytes}

/-- Reading anything but a ping asks for no pong. -/
theorem pings_of_read {d : Duration} {r : Except WsError Message}
    (hr : ∀ payload, r ≠ .ok (.ping payload)) :
    pingsRead [.setReadTimeout d (.ok ()), .read r] = [] ∧
      [SocketOp.setReadTimeout d (.ok ()), .read r].flatMap SocketOp.pongs = [] ∧
      ∀ ops, pingsFlushed (.setReadTimeout d (.ok ()) :: .read r :: ops) = pingsFlushed ops := by
  rcases r with e | m
  · exact ⟨rfl, rfl, fun _ => rfl⟩
  cases m with
  | ping payload => exact absurd rfl (hr payload)
  | _ => exact ⟨rfl, rfl, fun _ => rfl⟩

theorem pingsRead_append (ops ops' : List SocketOp) :
    pingsRead (ops ++ ops') = pingsRead ops ++ pingsRead ops' := List.filterMap_append

namespace Phrase

variable {phrase : List SocketOp} (h : Phrase phrase)

include h

/-- A ping and the flush after it are in one phrase. -/
theorem pingsFlushed_append (ops : List SocketOp) :
    pingsFlushed (phrase ++ ops) = pingsFlushed phrase ++ pingsFlushed ops := by
  cases h with
  | read hd hr =>
    obtain ⟨-, -, hflushed⟩ := pings_of_read hr
    rw [hflushed []]
    exact hflushed ops
  | ping hd payload r =>
    cases r with
    | error e => rfl
    | ok _ => rfl
  | _ => rfl

/-- In a phrase without a failed flush every ping is flushed. -/
theorem pingsFlushed_eq (hflush : ∀ e, SocketOp.flush (.error e) ∉ phrase) :
    pingsFlushed phrase = pingsRead phrase := by
  cases h with
  | read hd hr =>
    obtain ⟨hread, -, hflushed⟩ := pings_of_read hr
    exact (hflushed []).trans hread.symm
  | ping hd payload r =>
    cases r with
    | error e => exact absurd (by simp) (hflush e)
    | ok _ => rfl
  | _ => rfl

/-- A phrase answers the pings that are flushed in it. -/
theorem answers (hpongs : WebSocket.QueuesPongs sent queued) {s s' : ω}
    (hleads : Leads phrase s s') :
    Answers sent queued (pingsRead phrase) (pingsFlushed phrase) s s' := by
  have hops := hpongs.answers_ops hleads
  cases h with
  | read hd hr =>
    obtain ⟨hread, hpongs, hflushed⟩ := pings_of_read hr
    rw [hpongs] at hops
    rw [hread, hflushed []]
    exact hops
  | ping hd payload r =>
    cases r with
    | error e => exact hops
    | ok _ =>
      obtain _ | ⟨hset, _ | ⟨hread, _ | ⟨hflush, _ | _⟩⟩⟩ := hleads
      exact (hpongs.answers_op hset).trans (hpongs.answers_flushed hread hflush)
  | _ => exact hops

end Phrase

/-- Phrases answer the pings that are flushed in them. -/
theorem answers_phrases (hpongs : WebSocket.QueuesPongs sent queued)
    {phrases : List (List SocketOp)} (h : ∀ phrase ∈ phrases, Phrase phrase) {s s' : ω}
    (hleads : Leads phrases.flatten s s') :
    Answers sent queued (pingsRead phrases.flatten) (pingsFlushed phrases.flatten) s s' := by
  induction phrases generalizing s with
  | nil =>
    cases hleads
    exact .refl _
  | cons phrase phrases ih =>
    obtain ⟨hphrase, hphrases⟩ := List.forall_mem_cons.1 h
    rw [List.flatten_cons] at hleads ⊢
    obtain ⟨s₁, hleads, hleads'⟩ := hleads.of_append
    rw [pingsRead_append, hphrase.pingsFlushed_append]
    exact (hphrase.answers hpongs hleads).trans (ih hphrases hleads')

/-- Without a failed flush every ping is flushed. -/
theorem pingsFlushed_phrases {phrases : List (List SocketOp)}
    (h : ∀ phrase ∈ phrases, Phrase phrase)
    (hflush : ∀ e, SocketOp.flush (.error e) ∉ phrases.flatten) :
    pingsFlushed phrases.flatten = pingsRead phrases.flatten := by
  induction phrases with
  | nil => rfl
  | cons phrase phrases ih =>
    obtain ⟨hphrase, hphrases⟩ := List.forall_mem_cons.1 h
    simp only [List.flatten_cons, List.mem_append, not_or, forall_and] at hflush
    rw [List.flatten_cons, pingsRead_append, hphrase.pingsFlushed_append,
      hphrase.pingsFlushed_eq hflush.1, ih hphrases hflush.2]

/-- Whatever a client is called for, and whatever fails meanwhile, the pongs sent answer
    pings that have been read, each once and in the order of the pings. Every ping is
    answered that a successful flush follows: where no flush fails, all of them are. -/
theorem RelayClient.pings_are_answered (C : Crates) [Clock ω]
    (h : WebSocket.QueuesPongs sent queued) (calls : List Call)
    (client : RelayClient (NativeConnection (Logged ω)))
    (hqueued : queued client.conn.ws.ws = []) :
    ∃ (ops : List SocketOp) (answered : List Bytes),
      (performAll C calls client).conn.ws.ops = client.conn.ws.ops ++ ops ∧
      sent (performAll C calls client).conn.ws.ws = sent client.conn.ws.ws ++ answered ∧
      answered.Sublist (pingsRead ops) ∧ (pingsFlushed ops).Sublist answered ∧
      ((∀ e, .flush (.error e) ∉ ops) → answered = pingsRead ops ∧
        queued (performAll C calls client).conn.ws.ws = []) := by
  obtain ⟨⟨phrases, hphrases, hops, hleads⟩, -⟩ := related_performAll
    (R := @NativeConnection.InPhrases ω _) C NativeConnection.inPhrases_refl
    NativeConnection.inPhrases_trans NativeConnection.inPhrases_send
    NativeConnection.inPhrases_recv calls client
  obtain ⟨answered, hsent, hflushed, hread, hall⟩ :=
    (answers_phrases h hphrases hleads).exists_of_queued hqueued
  exact ⟨_, answered, hops, hsent, hread, hflushed, fun hflush =>
    hall (pingsFlushed_phrases hphrases hflush)⟩

/-! ## Pings on a wire -/

namespace Wire

/-- The payload of a pong. -/
def ponged? : Message → Option Bytes
  | .pong payload => some payload
  | _ => none

theorem sent_read {w w' : Wire} {r : Except WsError Message} (h : read w = (r, w')) :
    w'.sent = w.sent ∧ w'.unsent = w.unsent ++ pong r := by
  rw [read] at h
  split at h
  · obtain ⟨rfl, rfl⟩ := Prod.mk.inj h
    exact ⟨rfl, (List.append_nil _).symm⟩
  · split at h
    · obtain ⟨rfl, rfl⟩ := Prod.mk.inj h
      exact ⟨rfl, rfl⟩
    · obtain ⟨rfl, rfl⟩ := Prod.mk.inj h
      exact ⟨rfl, (List.append_nil _).symm⟩

theorem ponged_pong (r : Except WsError Message) :
    (pong r).filterMap ponged? = (SocketOp.read r).pongs := by
  rcases r with e | m
  · rfl
  · cases m with
    | _ => rfl

/-- An operation adds to the messages that are to be sent, and may send some. -/
theorem takes_wire {w w' : Wire} {op : SocketOp} (h : op.Takes w w') :
    ∃ flushed added : List Message, w'.sent = w.sent ++ flushed ∧
      flushed ++ w'.unsent = w.unsent ++ added ∧ added.filterMap ponged? = op.pongs := by
  cases op with
  | now t =>
    obtain ⟨-, rfl⟩ := Prod.mk.inj h
    exact ⟨[], [], by simp, by simp, rfl⟩
  | setReadTimeout dur r =>
    simp only [SocketOp.Takes, WebSocket.setReadTimeout] at h
    split at h
    all_goals
      obtain ⟨-, rfl⟩ := Prod.mk.inj h
      exact ⟨[], [], by simp, by simp, rfl⟩
  | read r =>
    obtain ⟨hsent, hunsent⟩ := sent_read h
    exact ⟨[], pong r, by rw [hsent, List.append_nil], hunsent, ponged_pong r⟩
  | write m r =>
    obtain ⟨-, rfl⟩ := Prod.mk.inj h
    refine ⟨[], [m], by simp, rfl, ?_⟩
    cases m with
    | _ => rfl
  | flush r =>
    obtain ⟨-, rfl⟩ := Prod.mk.inj h
    exact ⟨w.unsent, [], rfl, rfl, rfl⟩
  | close r =>
    obtain ⟨-, rfl⟩ := Prod.mk.inj h
    exact ⟨[], [.close], by simp, rfl, rfl⟩

/-- A wire queues its pongs. -/
theorem queuesPongs : WebSocket.QueuesPongs (fun w : Wire => w.sent.filterMap ponged?)
    (fun w : Wire => w.unsent.filterMap ponged?) where
  prefix_sent h := by
    obtain ⟨flushed, added, hsent, -, -⟩ := takes_wire h
    rw [hsent, List.filterMap_append]
    exact List.prefix_append _ _
  sublist h := by
    obtain ⟨flushed, added, hsent, hunsent, hadded⟩ := takes_wire h
    rw [← hadded, ← List.filterMap_append, ← List.filterMap_append, ← List.filterMap_append,
      hsent, List.append_assoc, hunsent, List.append_assoc]
  read {payload w w'} h := by
    obtain ⟨hsent, hunsent⟩ := sent_read h
    refine ⟨w.unsent.filterMap ponged?, ?_⟩
    rw [hsent, hunsent, List.filterMap_append, List.append_assoc]
    rfl
  flush h := by
    obtain ⟨-, rfl⟩ := Prod.mk.inj h
    exact List.filterMap_append

end Wire

/-- A ping arrives while a message is awaited. -/
theorem RelayClient.pings_are_answered_poll :
    ∃ client : RelayClient (NativeConnection (Logged Wire)),
      client.conn.ws.ws.arrivals = [(1, .ok (.ping [7]))] ∧ client.conn.ws.ws.sent = [] ∧
        (performAll Reference.crates [.poll 5] client).conn.ws.ws.sent.filterMap
          Wire.ponged? = [[7]] := by
  let wire : Wire :=
    { now := 0, arrivals := [(1, .ok (.ping [7]))], sorted := List.pairwise_singleton _ _
      readTimeout := 1, unsent := [], sent := [], calendar := fun _ => 0 }
  let client : RelayClient (NativeConnection (Logged Wire)) :=
    .new { ws := { ws := wire, ops := [] } } "wss://relay.example"
      (Reference.signer Reference.one).toSigner
  refine ⟨client, rfl, rfl, ?_⟩
  obtain ⟨ops, answered, hops, hsent, -, -, hall⟩ :=
    pings_are_answered Reference.crates Wire.queuesPongs [.poll 5] client rfl
  have hread : (performAll Reference.crates [.poll 5] client).conn.ws.ops =
      [.now 0, .now 0, .setReadTimeout 5 (.ok ()), .read (.ok (.ping [7])), .flush (.ok ()),
        .now 1, .setReadTimeout 4 (.ok ()),
        .read (.error (.io .wouldBlock "operation would block"))] := rfl
  obtain rfl : ops = _ := hops.symm.trans hread
  obtain ⟨rfl, -⟩ := hall (by simp)
  exact hsent

end UnicityNostr
