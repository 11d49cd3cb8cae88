import Mathlib.Data.List.Forall2
import PostGraph.Smtp.Interleaving
import PostGraph.Smtp.Upgrade

/-! # Chunks

The network cuts a client's octets into chunks at will. No session, and nothing that
sessions share, depends on where.
-/

namespace PostGraph.Smtp

open Foundation

/-! ## Connections -/

namespace Connection

/-- What the client sends after the handshake. -/
def securedOctets (connection : Connection Wire) : Bytes :=
  connection.stream.inner.secured.flatten

/-- The connections are of the same kind, and their clients send the same octets. -/
structure SameOctets (c d : Connection Wire) : Prop where
  kind : ∀ stream, c.withStream stream = d.withStream stream
  pending : Indistinguishable Operation.perform c d
  secured : c.securedOctets = d.securedOctets

theorem fillBuf_secured (connection : Connection Wire) : ∃ stream,
    connection.fillBuf.2 = connection.withStream stream ∧
      stream.inner.secured = connection.stream.inner.secured := by
  refine ⟨connection.stream.fillBuf.2, rfl, ?_⟩
  unfold BufReader.fillBuf
  cases connection.stream.buffer with
  | nil =>
      rcases hwire : connection.stream.inner with ⟨_ | ⟨chunk, rest⟩, secured, hchunks, hsecured⟩
      · rfl
      · rfl
  | cons byte rest => rfl

end Connection

theorem readLineWithin_secured (fetches : Nat) (line : Bytes) (connection : Connection Wire) :
    ∃ stream, (readLineWithin fetches line connection).2 = connection.withStream stream ∧
      stream.inner.secured = connection.stream.inner.secured := by
  induction fetches generalizing line connection with
  | zero => exact ⟨connection.stream, (connection.withStream_self).symm, rfl⟩
  | succ fetches ih =>
      obtain ⟨filled, hfilled, hsecured⟩ := connection.fillBuf_secured
      rw [readLineWithin]
      rcases hfill : connection.fillBuf with ⟨error | buf, after⟩ <;> rw [hfill] at hfilled <;>
        dsimp only at hfilled ⊢
      · exact ⟨filled, hfilled, hsecured⟩
      · subst hfilled
        split
        · split <;> exact ⟨filled, rfl, hsecured⟩
        · split
          · exact ⟨filled, rfl, hsecured⟩
          · split
            · exact ⟨filled.consume (lineOctets buf), by simp [Connection.consume], hsecured⟩
            · obtain ⟨stream, hloop, hkept⟩ := ih (line ++ buf.take (lineOctets buf))
                ((connection.withStream filled).consume (lineOctets buf))
              refine ⟨stream, ?_, ?_⟩
              · rw [hloop]
                simp [Connection.consume]
              · rw [hkept]
                simpa [Connection.consume, BufReader.consume] using hsecured

namespace Connection

/-- An operation may change the stream, but neither the kind of the connection nor what
follows the handshake. -/
theorem run_secured (operation : Operation) (connection : Connection Wire) :
    ∃ stream, (operation.run connection).2 = connection.withStream stream ∧
      stream.inner.secured = connection.stream.inner.secured := by
  cases operation with
  | readLine => exact readLineWithin_secured _ _ connection
  | write data => exact ⟨_, rfl, rfl⟩
  | flush => exact ⟨_, rfl, rfl⟩

theorem SameOctets.run {c d : Connection Wire} (h : c.SameOctets d) (operation : Operation) :
    (∃ answer c' d', operation.run c = (.ok answer, c') ∧ operation.run d = (.ok answer, d') ∧
      c'.SameOctets d') ∨
    ∃ error c' d', operation.run c = (.error error, c') ∧ operation.run d = (.error error, d') := by
  rcases operation.run_cases h.pending with ⟨answer, c', d', hc, hd, hpending⟩ | hfailed
  · obtain ⟨stream, hstream, hsecured⟩ := run_secured operation c
    obtain ⟨stream', hstream', hsecured'⟩ := run_secured operation d
    rw [hc] at hstream
    rw [hd] at hstream'
    refine .inl ⟨answer, c', d', hc, hd, ?_, hpending, ?_⟩
    · intro other
      dsimp only at hstream hstream'
      rw [hstream, hstream', withStream_withStream, withStream_withStream]
      exact h.kind other
    · dsimp only at hstream hstream'
      rw [securedOctets, securedOctets, hstream, hstream', withStream_stream, withStream_stream,
        hsecured, hsecured']
      exact h.secured
  · exact .inr hfailed

theorem SameOctets.startTls {c d : Connection Wire} (h : c.SameOctets d) :
    (∃ c' d', c.startTls = .ok c' ∧ d.startTls = .ok d' ∧ c'.SameOctets d') ∨
      ∃ error, c.startTls = .error error ∧ d.startTls = .error error := by
  have hkind := h.kind c.stream
  cases c with
  | tls stream =>
      cases d with
      | tls stream' => exact .inr ⟨_, rfl, rfl⟩
      | plain stream' acceptor => cases hkind
  | plain stream acceptor =>
      cases d with
      | tls stream' => cases hkind
      | plain stream' acceptor' =>
          cases hkind
          cases acceptor with
          | none => exact .inr ⟨_, rfl, rfl⟩
          | some acceptor =>
              refine .inl ⟨_, _, rfl, rfl, fun _ => rfl, ?_, rfl⟩
              exact indistinguishable_of_pending h.secured

end Connection

namespace Session

variable {H : Type} [Handler H]

/-- Two sessions that have done the same, as it can be seen from outside. -/
structure SameOutcome (s t : Session Wire H) : Prop where
  config : s.config = t.config
  state : s.state = t.state
  log : s.log = t.log

/-- Two sessions with the same past whose clients send the same octets from now on. -/
structure SameFuture (s t : Session Wire H) : Prop extends SameOutcome s t where
  connection : Option.Rel Connection.SameOctets s.connection t.connection

namespace SameFuture

variable {s t : Session Wire H}

omit [Handler H]

theorem connection_cases (h : SameFuture s t) : s.connection = none ∧ t.connection = none ∨
    ∃ c d, s.connection = some c ∧ t.connection = some d ∧ c.SameOctets d := by
  rcases hs : s.connection with _ | c <;> rcases ht : t.connection with _ | d <;>
    have hsame := h.connection <;> rw [hs, ht] at hsame
  · exact .inl ⟨rfl, rfl⟩
  · cases hsame
  · cases hsame
  · cases hsame with
    | some hsame => exact .inr ⟨c, d, rfl, rfl, hsame⟩

theorem view (h : SameFuture s t) : SameView s t := by
  have hsettings : s.config.SameSettings t.config := by
    rw [h.config]
    exact ⟨rfl, rfl, rfl⟩
  rcases h.connection_cases with ⟨hs, ht⟩ | ⟨c, d, hs, ht, hsame⟩
  · exact ⟨hsettings, h.state, by rw [hs, ht], by rw [hs, ht]⟩
  · have hkind := hsame.kind c.stream
    rw [Connection.withStream_self] at hkind
    refine ⟨hsettings, h.state, ?_, ?_⟩
    · rw [hs, ht, hkind]
      cases d <;> rfl
    · rw [hs, ht, hkind]
      cases d <;> rfl

end SameFuture

/-- What the session is built of does not tell chunks apart. -/
theorem Built.agree {α : Type} {program : SessionM Wire H α} (h : Free program)
    (s t : Session Wire H) (hst : SameFuture s t) :
    Agree SameFuture SameOutcome program program s t := by
  induction h generalizing s t with
  | pure a => exact .pure hst
  | throw error herror => exact .throw hst.toSameOutcome
  | bind h hnext ih ihnext => exact .bind (ih s t hst) fun a s' t' => ihnext a s' t'
  | observe h hview ih =>
      apply Agree.get_bind
      rw [← hview s t hst.view]
      exact ih s s t hst
  | operation operation =>
      unfold Agree onConnection
      rcases hst.connection_cases with ⟨hs, ht⟩ | ⟨c, d, hs, ht, hsame⟩
      · simp only [hs, ht]
        exact ⟨trivial, hst.toSameOutcome⟩
      · rcases hsame.run operation with
          ⟨answer, c', d', hc, hd, hsame'⟩ | ⟨error, c', d', hc, hd⟩
        · simp only [hs, ht, hc, hd]
          exact ⟨trivial, ⟨hst.config, hst.state, hst.log⟩, .some hsame'⟩
        · simp only [hs, ht, hc, hd]
          exact ⟨trivial, hst.config, hst.state, hst.log⟩
  | callback callback isTls hevent =>
      unfold Agree callHandler
      rw [hst.config, hst.log]
      exact ⟨rfl, ⟨rfl, hst.state, rfl⟩, hst.connection⟩
  | change change hchanges =>
      apply Agree.modify
      rw [hst.state]
      exact ⟨⟨hst.config, rfl, hst.log⟩, hst.connection⟩
  | record response hevent =>
      apply Agree.modify
      rw [hst.log]
      exact ⟨⟨hst.config, hst.state, rfl⟩, hst.connection⟩
  | upgrade hevent hchanges =>
      unfold Agree Session.upgrade
      rcases hst.connection_cases with ⟨hs, ht⟩ | ⟨c, d, hs, ht, hsame⟩
      · simp only [hs, ht]
        exact ⟨trivial, hst.toSameOutcome⟩
      · rcases hsame.startTls with ⟨c', d', hc, hd, hsame'⟩ | ⟨error, hc, hd⟩
        · simp only [hs, ht, hc, hd]
          exact ⟨trivial, ⟨hst.config, rfl, by rw [hst.log]⟩, .some hsame'⟩
        · simp only [hs, ht, hc, hd]
          exact ⟨trivial, hst.config, hst.state, hst.log⟩

variable [Base64]

theorem iteration_agree (s t : Session Wire H) (hst : SameFuture s t) :
    Flow.Agree SameFuture SameOutcome (iteration s) (iteration t) := by
  have hturn := Built.turn.agree s t hst
  unfold Agree at hturn
  unfold iteration
  rcases hs : turn s with ⟨control, s'⟩ | ⟨error, s'⟩ <;>
    rcases ht : turn t with ⟨control', t'⟩ | ⟨error', t'⟩ <;> rw [hs, ht] at hturn
  · obtain ⟨rfl, hlive⟩ := hturn
    cases control with
    | next => exact hlive
    | quit => exact ⟨rfl, hlive.toSameOutcome⟩
  · exact hturn.elim
  · exact hturn.elim
  · exact ⟨congrArg _ hturn.1, hturn.2⟩

omit [Base64] in
theorem greet_agree (s t : Session Wire H) (hst : SameFuture s t) :
    Flow.Agree SameFuture SameOutcome (greet s) (greet t) := by
  have hreply := (Built.freeReply (.banner t.config.serverName)).agree s t hst
  unfold Agree at hreply
  unfold greet
  rw [hst.config]
  rcases hs : reply (.banner t.config.serverName) s with ⟨_, s'⟩ | ⟨error, s'⟩ <;>
    rcases ht : reply (.banner t.config.serverName) t with ⟨_, t'⟩ | ⟨error', t'⟩ <;>
    rw [hs, ht] at hreply
  · exact hreply.2
  · exact hreply.elim
  · exact hreply.elim
  · exact ⟨congrArg _ hreply.1, hreply.2⟩

omit [Handler H] [Base64] in
theorem SameFuture.of_new {first second : Wire} (config : SessionConfig H)
    (tls : Option TlsAcceptor) (hchunks : first.chunks.flatten = second.chunks.flatten)
    (hsecured : first.secured.flatten = second.secured.flatten) :
    SameFuture (new (.newPlain first tls) config) (new (.newPlain second tls) config) :=
  ⟨⟨rfl, rfl, rfl⟩, .some ⟨fun _ => rfl, indistinguishable_of_pending hchunks, hsecured⟩⟩

end Session

/-! ## Servers -/

variable {H Shared Clock Network : Type}

/-- The same happening, but for where the network cuts the octets. -/
inductive Happening.SameOctets :
    Happening Wire Clock Network → Happening Wire Clock Network → Prop
  | accept {peer : IpAddr} {first second : Wire} {clock : Clock} {network : Network}
      (hchunks : first.chunks.flatten = second.chunks.flatten)
      (hsecured : first.secured.flatten = second.secured.flatten) :
      SameOctets (.accept peer first clock network) (.accept peer second clock network)
  | turn (i : Nat) : SameOctets (.turn i) (.turn i)
  | leave (i : Nat) (clock : Clock) : SameOctets (.leave i clock) (.leave i clock)

/-- The result of the session, once it has stopped. -/
def Task.result {π : Type} : Task π H → Option (Except Error Unit)
  | refused _ => none
  | serving flow => flow.result

def Task.Agree : Task Wire H → Task Wire H → Prop
  | refused config, refused config' => config = config'
  | serving flow, serving flow' => Flow.Agree Session.SameFuture Session.SameOutcome flow flow'
  | _, _ => False

structure Served.Agree (s t : Served Wire H) : Prop where
  peer : s.peer = t.peer
  closed : s.closed = t.closed
  task : s.task.Agree t.task

structure World.Agree (first second : World Wire H Shared) : Prop where
  shared : first.shared = second.shared
  tasks : List.Forall₂ Served.Agree first.tasks second.tasks

theorem Task.Agree.config {s t : Task Wire H} (h : s.Agree t) : s.config = t.config := by
  cases s with
  | refused config =>
      cases t with
      | refused config' => exact h
      | serving flow' => exact h.elim
  | serving flow =>
      cases t with
      | refused config' => exact h.elim
      | serving flow' =>
          have hstate : Session.SameOutcome flow.state flow'.state :=
            Flow.Agree.state h (fun _ _ hfuture => hfuture.toSameOutcome) fun _ _ h => h
          exact hstate.config

theorem Task.Agree.log {s t : Task Wire H} (h : s.Agree t) : s.log = t.log := by
  cases s with
  | refused config =>
      cases t with
      | refused config' => rfl
      | serving flow' => exact h.elim
  | serving flow =>
      cases t with
      | refused config' => exact h.elim
      | serving flow' =>
          have hstate : Session.SameOutcome flow.state flow'.state :=
            Flow.Agree.state h (fun _ _ hfuture => hfuture.toSameOutcome) fun _ _ h => h
          exact hstate.log

theorem Task.Agree.result {s t : Task Wire H} (h : s.Agree t) : s.result = t.result := by
  cases s with
  | refused config =>
      cases t with
      | refused config' => rfl
      | serving flow' => exact h.elim
  | serving flow =>
      cases t with
      | refused config' => exact h.elim
      | serving flow' => exact Flow.Agree.result_eq h

theorem Task.Agree.turn [Handler H] [Base64] {s t : Task Wire H} (h : s.Agree t) :
    s.turn.Agree t.turn := by
  cases s with
  | refused config =>
      cases t with
      | refused config' => exact h
      | serving flow' => exact h.elim
  | serving flow =>
      cases t with
      | refused config' => exact h.elim
      | serving flow' => exact Flow.step_agree Session.iteration_agree h

theorem Served.Agree.turn [Handler H] [Base64] {s t : Served Wire H} (h : s.Agree t) :
    s.turn.Agree t.turn := by
  unfold Served.turn
  rw [h.closed]
  split
  · exact h
  · exact ⟨h.peer, rfl, h.task.turn⟩

/-- A change that keeps two tasks in agreement, and what they share equal. -/
theorem World.Agree.update {first second : World Wire H Shared} (h : first.Agree second) (i : Nat)
    {change : Served Wire H → Shared → Served Wire H × Shared}
    (hchange : ∀ s t shared, s.Agree t → (change s shared).1.Agree (change t shared).1 ∧
      (change s shared).2 = (change t shared).2) :
    (first.update i change).Agree (second.update i change) := by
  have hlength := h.tasks.length_eq
  unfold World.update
  by_cases hi : i < first.tasks.length
  · have hi' : i < second.tasks.length := hlength ▸ hi
    have hserved := h.tasks.get hi hi'
    obtain ⟨hagree, hshared⟩ := hchange _ _ first.shared hserved
    rw [List.getElem?_eq_getElem hi, List.getElem?_eq_getElem hi', ← h.shared]
    refine ⟨hshared, List.forall₂_iff_get.mpr ⟨by simp [hlength], ?_⟩⟩
    intro j hj hj'
    simp only [List.get_eq_getElem, List.getElem_set]
    split
    · exact hagree
    · exact h.tasks.get (by simpa using hj) (by simpa using hj')
  · have hi' : ¬ i < second.tasks.length := hlength ▸ hi
    rw [List.getElem?_eq_none (Nat.le_of_not_lt hi), List.getElem?_eq_none (Nat.le_of_not_lt hi')]
    exact h

section Worlds

variable [Handler H] [Base64] [PeerHandler H Shared Clock Network]

omit [Base64] in
theorem Server.accept_agree (config : Config H) (peer : IpAddr) {first second : Wire}
    (clock : Clock) (network : Network) (shared : Shared)
    (hchunks : first.chunks.flatten = second.chunks.flatten)
    (hsecured : first.secured.flatten = second.secured.flatten) :
    (accept config peer first clock network shared).1.Agree
      (accept config peer second clock network shared).1 := by
  rcases hanswer : PeerHandler.onConnect peer clock shared
      (PeerHandler.clone network config.sessionConfig.handler) with ⟨_ | _ | _, shared', handler⟩
  all_goals rw [accept, accept, hanswer]
  · exact rfl
  · exact Session.greet_agree _ _ (.of_new _ _ hchunks hsecured)
  · exact rfl

theorem World.step_agree (config : Config H) {first second : World Wire H Shared}
    (h : first.Agree second) {happening happening' : Happening Wire Clock Network}
    (hsame : happening.SameOctets happening') :
    (first.step config happening).Agree (second.step config happening') := by
  cases hsame with
  | accept hchunks hsecured =>
      rename_i peer stream stream' clock network
      have hagree := Server.accept_agree config peer clock network first.shared hchunks hsecured
      rw [World.step, World.step, ← h.shared]
      refine ⟨?_, List.rel_append h.tasks (.cons ⟨rfl, rfl, hagree⟩ .nil)⟩
      exact (Server.accept_shared ..).trans (Server.accept_shared ..).symm
  | turn i =>
      rw [World.step, World.step]
      exact h.update i fun s t shared hagree => ⟨hagree.turn, rfl⟩
  | leave i clock =>
      rw [World.step, World.step]
      apply h.update i
      intro s t shared hagree
      unfold Server.leave
      rw [hagree.closed, hagree.peer, hagree.task.config]
      split
      · exact ⟨hagree, rfl⟩
      · exact ⟨⟨rfl, rfl, hagree.task⟩, rfl⟩

/-- Two runs whose clients send the same octets, however these are cut into chunks, do the
same: what tasks share is the same, and so is all that each session says, does and
results in. -/
theorem Server.chunks_irrelevant (config : Config H) (shared : Shared)
    (first second : List (Happening Wire Clock Network))
    (h : List.Forall₂ Happening.SameOctets first second) :
    (listen config shared first).shared = (listen config shared second).shared ∧
      List.Forall₂ (fun s t : Served Wire H => s.peer = t.peer ∧ s.closed = t.closed ∧
          s.task.config = t.task.config ∧ s.task.log = t.task.log ∧ s.task.result = t.task.result)
        (listen config shared first).tasks (listen config shared second).tasks := by
  have hagree : (listen config shared first).Agree (listen config shared second) :=
    List.rel_foldl (P := World.Agree) (R := Happening.SameOctets)
      (fun _ _ hworld _ _ hhappening => World.step_agree config hworld hhappening) ⟨rfl, .nil⟩ h
  exact ⟨hagree.shared, hagree.tasks.imp fun s t hserved =>
    ⟨hserved.peer, hserved.closed, hserved.task.config, hserved.task.log, hserved.task.result⟩⟩

end Worlds

/-! ## Two clients that say the same -/

section Sample

attribute [local instance] sampleBase64

/-- A handler that accepts every peer. -/
@[reducible] def openSample : PeerHandler Unit Unit Unit Unit where
  clone _ handler := handler

attribute [local instance] openSample

def wholeSample : Wire := ⟨[ascii "EHLO c\r\nQUIT\r\n"], [], by decide, Wire.noChunks⟩

def cutSample : Wire :=
  ⟨[ascii "EHL", ascii "O c\r", ascii "\nQUIT\r\n"], [], by decide, Wire.noChunks⟩

def serverSample : Config Unit := ⟨[], none, ⟨(), "s".toList, .none, 100⟩⟩

def cuttingSample (stream : Wire) : List (Happening Wire Unit Unit) :=
  [.accept (.v4 1) stream () (), .turn 0, .turn 0, .leave 0 ()]

theorem Server.chunks_irrelevant_sample :
    List.Forall₂ (fun s t : Served Wire Unit => s.peer = t.peer ∧ s.closed = t.closed ∧
        s.task.config = t.task.config ∧ s.task.log = t.task.log ∧ s.task.result = t.task.result)
      (listen serverSample () (cuttingSample wholeSample)).tasks
      (listen serverSample () (cuttingSample cutSample)).tasks :=
  (chunks_irrelevant serverSample () (cuttingSample wholeSample) (cuttingSample cutSample)
    (.cons (.accept rfl rfl) (.cons (.turn 0) (.cons (.turn 0) (.cons (.leave 0 ()) .nil))))).2

end Sample

end PostGraph.Smtp
