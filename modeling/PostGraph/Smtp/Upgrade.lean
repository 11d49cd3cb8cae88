import PostGraph.Foundation.TwoRuns
import PostGraph.Smtp.EndOfData
import PostGraph.Smtp.Refinement

/-! # The upgrade to TLS

An accepted STARTTLS leaves nothing of the plaintext behind: the session starts
anew on the secured stream, with an empty buffer. Two sessions that upgrade
after different plaintexts then go through the same dialogue.
-/

namespace PostGraph.Smtp

open Foundation Foundation.Framing

variable {π H : Type}

/-! ## What a session observes -/

/-- An operation as the step of a machine that fails for good. -/
def Operation.perform [Transport π] (operation : Operation) (connection : Connection π) :
    Except Error (operation.Answer × Connection π) :=
  match operation.run connection with
  | (.ok answer, connection) => .ok (answer, connection)
  | (.error error, _) => .error error

/-- Through a TLS connection, both streams deliver the same lines and take the
same writes. -/
def SameStream [Transport π] (first second : π) : Prop :=
  Indistinguishable Operation.perform (Connection.newTls first) (Connection.newTls second)

/-- From now on, both handlers answer the same calls in the same way. -/
def SameAnswers [Handler H] (first second : H) : Prop :=
  Indistinguishable (total Callback.call) first second

/-- What an operation does to indistinguishable connections. -/
theorem Operation.run_cases [Transport π] {first second : Connection π}
    (h : Indistinguishable perform first second) (operation : Operation) :
    (∃ answer first' second', operation.run first = (.ok answer, first') ∧
      operation.run second = (.ok answer, second') ∧ Indistinguishable perform first' second') ∨
    ∃ error first' second', operation.run first = (.error error, first') ∧
      operation.run second = (.error error, second') := by
  have hmatching := h.matching operation
  unfold perform at hmatching
  rcases hfirst : operation.run first with ⟨error | answer, first'⟩ <;>
    rcases hsecond : operation.run second with ⟨error' | answer', second'⟩ <;>
    rw [hfirst, hsecond] at hmatching
  · exact .inr ⟨error, first', second', rfl, by rw [show error = error' from hmatching]⟩
  · exact hmatching.elim
  · exact hmatching.elim
  · exact .inl ⟨answer, first', second', rfl, by rw [show answer = answer' from hmatching.1],
      hmatching.2⟩

namespace Session

/-! ## Two sessions in lockstep -/

/-- The same events came after both starts, and no upgrade among them. -/
def SameSince (start start' log log' : List Event) : Prop :=
  ∃ events, log = start ++ events ∧ log' = start' ++ events ∧ .startTls ∉ events

variable {start start' : List Event}

theorem SameSince.concat {log log' : List Event} (h : SameSince start start' log log')
    {event : Event} (hevent : .startTls ≠ event) :
    SameSince start start' (log ++ [event]) (log' ++ [event]) := by
  obtain ⟨events, rfl, rfl, hnone⟩ := h
  refine ⟨events ++ [event], by simp, by simp, ?_⟩
  rw [List.mem_append, not_or, List.mem_singleton]
  exact ⟨hnone, hevent⟩

variable [Transport π] [Handler H]

/-- Two secured sessions that no client and no handler tells apart. -/
structure Lockstep (start start' : List Event) (s t : Session π H) : Prop where
  connected : ∃ c d, s.connection = some c ∧ t.connection = some d ∧ c.security = .tls ∧
    d.security = .tls ∧ Indistinguishable Operation.perform c d
  settings : s.config.SameSettings t.config
  answers : SameAnswers s.config.handler t.config.handler
  state_eq : s.state = t.state
  log : SameSince start start' s.log t.log

namespace Lockstep

variable {s t : Session π H}

theorem secured (h : Lockstep start start' s t) :
    ∃ first second, s.connection = some (.tls first) ∧ t.connection = some (.tls second) := by
  obtain ⟨c, d, hs, ht, hc, hd, -⟩ := h.connected
  cases c with
  | plain stream acceptor => cases hc
  | tls first =>
      cases d with
      | plain stream acceptor => cases hd
      | tls second => exact ⟨first, second, hs, ht⟩

theorem view (h : Lockstep start start' s t) : SameView s t := by
  obtain ⟨first, second, hs, ht⟩ := h.secured
  exact ⟨h.settings, h.state_eq, by rw [hs, ht]; rfl, by rw [hs, ht]; rfl⟩

/-- Sessions that have just been connected, whatever their logs say. -/
theorem of_new {first second : π} {config config' : SessionConfig H}
    (hsettings : config.SameSettings config')
    (hanswers : SameAnswers config.handler config'.handler) (hstream : SameStream first second) :
    Lockstep start start' { new (.newTls first) config with log := start }
      { new (.newTls second) config' with log := start' } where
  connected := ⟨_, _, rfl, rfl, rfl, rfl, hstream⟩
  settings := hsettings
  answers := hanswers
  state_eq := rfl
  log := ⟨[], by simp, by simp, by simp⟩

end Lockstep

/-- Secured sessions agree in what they do, whatever came before the two starts. -/
theorem Built.together {α : Type} {program : SessionM π H α} (h : Free program)
    {s t : Session π H} (hst : Lockstep start start' s t) :
    Agree (Lockstep start start') (fun s t => SameSince start start' s.log t.log)
      program program s t := by
  induction h generalizing s t with
  | pure a => exact .pure hst
  | throw error herror => exact .throw hst.log
  | bind h hnext ih ihnext => exact .bind (ih hst) fun a s' t' => ihnext a
  | observe h hview ih =>
      apply Agree.get_bind
      rw [← hview s t hst.view]
      exact ih s hst
  | operation operation =>
      obtain ⟨c, d, hs, ht, hc, hd, hsame⟩ := hst.connected
      have hfirst := operation.run_security c
      have hsecond := operation.run_security d
      unfold Agree onConnection
      rw [hs, ht]
      rcases operation.run_cases hsame with
        ⟨answer, c', d', hc', hd', hnext⟩ | ⟨error, c', d', hc', hd'⟩
      · rw [hc'] at hfirst
        rw [hd'] at hsecond
        simp only [hc', hd', true_and]
        exact ⟨⟨c', d', rfl, rfl, hfirst.trans hc, hsecond.trans hd, hnext⟩, hst.settings,
          hst.answers, hst.state_eq, hst.log⟩
      · simp only [hc', hd', true_and]
        exact hst.log
  | callback callback isTls hevent =>
      obtain ⟨hanswer, hnext⟩ := hst.answers.total_eq callback
      have hnone : .startTls ≠ callback.event isTls (callback.call s.config.handler).1 := by
        cases callback <;> exact nofun
      unfold Agree callHandler
      refine ⟨hanswer, hst.connected, ?_, hnext, hst.state_eq, ?_⟩
      · exact ⟨hst.settings.serverName, hst.settings.authMode, hst.settings.maxMessageSize⟩
      · have hlog := hst.log.concat hnone
        change SameSince start start' _
          (t.log ++ [callback.event isTls (callback.call t.config.handler).1])
        rwa [← hanswer]
  | change change hchanges =>
      apply Agree.modify
      rw [hst.state_eq]
      exact ⟨hst.connected, hst.settings, hst.answers, rfl, hst.log⟩
  | record response hevent =>
      exact .modify ⟨hst.connected, hst.settings, hst.answers, hst.state_eq,
        hst.log.concat (by simp)⟩
  | upgrade hevent hchanges =>
      -- no handshake starts on a connection that is secured
      obtain ⟨first, second, hs, ht⟩ := hst.secured
      unfold Agree Session.upgrade
      rw [hs, ht]
      exact ⟨rfl, hst.log⟩

/-- One more line keeps two sessions in lockstep, until both have ended. -/
theorem iteration_lockstep [Base64] (s t : Session π H) (h : Lockstep start start' s t) :
    Flow.Agree (Lockstep start start') (fun s t => SameSince start start' s.log t.log)
      (iteration s) (iteration t) := by
  have hturn := Built.turn.together h
  unfold Agree at hturn
  unfold iteration
  rcases hs : turn s with ⟨control, s'⟩ | ⟨error, s'⟩ <;>
    rcases ht : turn t with ⟨control', t'⟩ | ⟨error', t'⟩ <;> rw [hs, ht] at hturn
  · obtain ⟨rfl, hlive⟩ := hturn
    cases control with
    | next => exact hlive
    | quit => exact ⟨rfl, hlive.log⟩
  · exact hturn.elim
  · exact hturn.elim
  · exact ⟨congrArg _ hturn.1, hturn.2⟩

/-! ## The upgrade -/

/-- The next line of the session is a STARTTLS that it accepts, and the handshake
succeeds, whatever else it has received. -/
structure Upgrades [Base64] (session after : Session π H) : Prop where
  accepted : ∃ line read, readLine session = .ok (some line) read ∧
    Command.parse line = .ok .startTls ∧ read.state.phase = .greeted ∧
    ∃ connection, read.connection = some connection ∧ connection.supportsTls = true
  run : iteration session = .running after

omit [Handler H] in
/-- What an upgrade leaves: a new connection, with nothing in its buffer. -/
theorem upgrade_ok {session after : Session π H} (h : upgrade session = .ok () after) :
    ∃ acceptor behind secured, Transport.accept acceptor behind = .ok secured ∧
      after = { session with
        connection := some (.newTls secured)
        state := .new
        log := session.log ++ [.startTls] } := by
  unfold upgrade at h
  split at h
  next => cases h
  next connection hconnection =>
    unfold Connection.startTls at h
    split at h
    next => cases h
    next secured hstart =>
      cases h
      split at hstart
      next stream acceptor =>
        split at hstart
        next inner haccept =>
          cases hstart
          exact ⟨acceptor, _, inner, haccept, rfl⟩
        next => cases hstart
      next => cases hstart
      next => cases hstart

/-- The session starts anew over the secured stream. -/
theorem Upgrades.eq_new [Base64] {session after : Session π H} (h : Upgrades session after) :
    ∃ acceptor behind secured, Transport.accept acceptor behind = .ok secured ∧
      after = { new (.newTls secured) session.config with
        log := session.log ++ [.reply .startTls, .startTls] } := by
  obtain ⟨⟨line, read, hread, hparse, hphase, connection, hconnection, hsupports⟩, hrun⟩ := h
  obtain ⟨_, hsame⟩ := onConnection_ok hread
  have hturn : turn session = (do startTls; return Control.next : SessionM π H Control) read := by
    rw [turn, bind_apply, hread]
    exact handleLine_command (by rw [hphase]; decide) hparse
  have hstart : (startTls : SessionM π H Unit) read =
      (do reply .startTls; upgrade : SessionM π H Unit) read := by
    have hsupported : supportsTls read = .ok true read := by
      simp [supportsTls, hconnection, hsupports]
    rw [startTls, bind_apply, hsupported]
    simp [SessionState.inPhase, hphase]
  -- a session that goes on has sent the reply and finished the handshake
  unfold iteration at hrun
  rw [hturn, bind_apply, hstart, bind_apply] at hrun
  rcases hreply : reply .startTls read with ⟨_, replied⟩ | ⟨error, replied⟩
  · rw [hreply] at hrun
    dsimp only at hrun
    rcases hupgrade : upgrade replied with ⟨_, upgraded⟩ | ⟨error, upgraded⟩
    · rw [hupgrade] at hrun
      cases hrun
      obtain ⟨_, rfl⟩ := reply_ok hreply
      obtain ⟨acceptor, behind, secured, haccept, rfl⟩ := upgrade_ok hupgrade
      exact ⟨acceptor, behind, secured, haccept, by simp [hsame, new]⟩
    · rw [hupgrade] at hrun
      cases hrun
  · rw [hreply] at hrun
    cases hrun

/-- Nothing of the plaintext survives an accepted STARTTLS, neither what came
before it nor what was buffered behind it: the sessions start anew, and if both
secured streams deliver the same, they do the same from then on, and neither
upgrades again. -/
theorem startTls_isolates [Base64] {s t s' t' : Session π H} (hs : Upgrades s s')
    (ht : Upgrades t t') (hsettings : s.config.SameSettings t.config)
    (hanswers : SameAnswers s.config.handler t.config.handler) :
    ∃ first second : π,
      (∃ acceptor behind, Transport.accept acceptor behind = .ok first) ∧
      (∃ acceptor behind, Transport.accept acceptor behind = .ok second) ∧
      s' = { new (.newTls first) s.config with log := s.log ++ [.reply .startTls, .startTls] } ∧
      t' = { new (.newTls second) t.config with log := t.log ++ [.reply .startTls, .startTls] } ∧
      (SameStream first second → ∀ turns,
        (Flow.iterate iteration turns (.running s')).result =
          (Flow.iterate iteration turns (.running t')).result ∧
        SameSince s'.log t'.log (Flow.iterate iteration turns (.running s')).state.log
          (Flow.iterate iteration turns (.running t')).state.log) := by
  obtain ⟨acceptor, behind, first, haccept, hafter⟩ := hs.eq_new
  obtain ⟨acceptor', behind', second, haccept', hafter'⟩ := ht.eq_new
  refine ⟨first, second, ⟨acceptor, behind, haccept⟩, ⟨acceptor', behind', haccept'⟩, hafter,
    hafter', ?_⟩
  intro hstream turns
  have hstart : Flow.Agree (Lockstep s'.log t'.log)
      (fun u v => SameSince s'.log t'.log u.log v.log)
      (.running s' : Flow (Session π H) (Except Error Unit)) (.running t') := by
    rw [hafter, hafter']
    exact .of_new hsettings hanswers hstream
  have hrun := Flow.iterate_agree iteration_lockstep hstart turns
  exact ⟨hrun.result_eq, hrun.state (fun _ _ h => h.log) (fun _ _ h => h)⟩

end Session

/-! ## Wires -/

/-- The chunks that octets come in do not tell two wires apart. -/
theorem indistinguishable_of_pending {first second : Connection Wire}
    (h : first.pending = second.pending) :
    Indistinguishable Operation.perform first second := by
  refine Indistinguishable.of_preserved (fun c d => c.pending = d.pending) ?_ h
  intro c d hsame operation
  cases operation with
  | readLine =>
      obtain ⟨stream, hloop, hwhole⟩ := readLineWithin_wire (maxLineLength + 1) [] c
        (by simp) (by simp) (by simp)
      obtain ⟨stream', hloop', hwhole'⟩ := readLineWithin_wire (maxLineLength + 1) [] d
        (by simp) (by simp) (by simp)
      rw [List.nil_append] at hloop hwhole hloop' hwhole'
      rw [hsame] at hloop hwhole
      rcases hnext : nextLine d.pending with error | _ | whole
      · simp only [Operation.perform, Operation.run, hloop, hloop', hnext, Matching]
      · have hnone := nextLine_eq_none hnext
        obtain ⟨stream, hloop, hpending⟩ := readLineWithin_end (hsame.trans hnone) maxLineLength
        obtain ⟨stream', hloop', hpending'⟩ := readLineWithin_end hnone maxLineLength
        simp only [Operation.perform, Operation.run, hloop, hloop', Matching]
        exact ⟨rfl, hpending.trans hpending'.symm⟩
      · have hrest := (hwhole whole hnext).trans (hwhole' whole hnext).symm
        simp only [Operation.perform, Operation.run, hloop, hloop', hnext, Matching]
        exact ⟨rfl, List.append_cancel_left hrest⟩
  | write data => cases c <;> cases d <;> exact ⟨rfl, hsame⟩
  | flush => cases c <;> cases d <;> exact ⟨rfl, hsame⟩

/-- What a client sends over TLS, in some chunks. -/
def securedSample (chunks : List Bytes) (hchunks : [] ∉ chunks) : Wire :=
  ⟨chunks, [], hchunks, Wire.noChunks⟩

/-- A session of a client that has logged in, and that sends a command behind
STARTTLS without waiting. -/
def impatientSample : Session Wire Unit :=
  ⟨some (.plain ⟨ascii "STARTTLS\r\nMAIL FROM:<e@f>\r\n",
      ⟨[], [ascii "NOOP\r\nQU", ascii "IT\r\n"], Wire.noChunks, by decide⟩⟩ (some ⟨[], []⟩)),
    ⟨(), "s".toList, .always, 100⟩, ⟨.greeted, true, .empty⟩,
    [.login "a".toList "b".toList (.ok .ok) false]⟩

/-- A session of a client that has only said hello. -/
def patientSample : Session Wire Unit :=
  ⟨some (.newPlain ⟨[ascii "STARTTLS\r\n"], [ascii "NOOP\r\n", ascii "QUIT\r\n"], by decide,
      by decide⟩ (some ⟨[], []⟩)),
    ⟨(), "s".toList, .always, 100⟩, ⟨.greeted, false, .empty⟩, []⟩

section Sample

attribute [local instance] sampleBase64

theorem Session.startTls_isolates_samples :
    ∃ s' t', iteration impatientSample = .running s' ∧
      iteration patientSample = .running t' ∧
      SameSince s'.log t'.log
        (Flow.iterate iteration 2 (.running s')).state.log
        (Flow.iterate iteration 2 (.running t')).state.log := by
  have hs : Upgrades impatientSample
      { new (.newTls (securedSample [ascii "NOOP\r\nQU", ascii "IT\r\n"] (by decide)))
          impatientSample.config with
        log := impatientSample.log ++ [.reply .startTls, .startTls] } :=
    ⟨⟨ascii "STARTTLS\r\n", _, rfl, rfl, rfl, _, rfl, rfl⟩, rfl⟩
  have ht : Upgrades patientSample
      { new (.newTls (securedSample [ascii "NOOP\r\n", ascii "QUIT\r\n"] (by decide)))
          patientSample.config with
        log := patientSample.log ++ [.reply .startTls, .startTls] } :=
    ⟨⟨ascii "STARTTLS\r\n", _, rfl, rfl, rfl, _, rfl, rfl⟩, rfl⟩
  refine ⟨_, _, hs.run, ht.run, ?_⟩
  obtain ⟨first, second, -, -, hfirst, hsecond, hrun⟩ :=
    startTls_isolates hs ht ⟨rfl, rfl, rfl⟩ (.refl _)
  refine (hrun ?_ 2).2
  cases hfirst
  cases hsecond
  exact indistinguishable_of_pending rfl

end Sample

end PostGraph.Smtp
