import PostGraph.Smtp.ReadLine

/-! # Sessions over wires

Over a wire, replies arrive and lines come in whole, so that a line determines
the next state of the session except for the chunks of what is still pending.
-/

namespace PostGraph.Smtp

open Foundation Foundation.Framing

/-- The mails that were handed to the handler, in order. -/
def mailsOf (log : List Event) : List Mail :=
  log.filterMap fun event => match event with
    | .mail mail _ _ => some mail
    | _ => none

@[simp] theorem mailsOf_append (first second : List Event) :
    mailsOf (first ++ second) = mailsOf first ++ mailsOf second := by
  simp [mailsOf]

theorem mailsOf_replies (replies : List Response) : mailsOf (replies.map .reply) = [] := by
  rw [mailsOf, List.filterMap_eq_nil_iff]
  intro event hevent
  obtain ⟨response, _, rfl⟩ := List.mem_map.mp hevent
  rfl

/-- The lines that end the data. -/
def EndsData (line : Bytes) : Prop := line = ascii ".\r\n" ∨ line = ascii ".\n"

instance (line : Bytes) : Decidable (EndsData line) :=
  inferInstanceAs (Decidable (line = ascii ".\r\n" ∨ line = ascii ".\n"))

namespace Session

variable {H : Type}

@[simp] theorem reply_wire (connection : Connection Wire) (config : SessionConfig H)
    (state : SessionState) (log : List Event) (response : Response) :
    reply response ⟨some connection, config, state, log⟩ =
      .ok () ⟨some connection, config, state, log ++ [.reply response]⟩ := by
  cases connection <;> rfl

theorem inTransaction_apply {π : Type} [Transport π] {phase : Phase}
    {action : SessionM π H Unit} (connection : Option (Connection π)) (config : SessionConfig H)
    (state : SessionState) (log : List Event) (hphase : state.phase = phase)
    (hallowed : isAuthenticated ⟨connection, config, state, log⟩ = true) :
    inTransaction phase action ⟨connection, config, state, log⟩ =
      action ⟨connection, config, state, log⟩ := by
  simp [inTransaction, SessionState.inPhase, hphase, hallowed]

theorem onConnection_ok {π α : Type} {operation : Connection π → Except Error α × Connection π}
    {session after : Session π H} {a : α} (h : onConnection operation session = .ok a after) :
    ∃ connection, after = { session with connection := some connection } := by
  unfold onConnection at h
  split at h
  · cases h
  · split at h
    · cases h
      exact ⟨_, rfl⟩
    · cases h

theorem reply_ok {π : Type} [Transport π] {response : Response} {session after : Session π H}
    (h : reply response session = .ok () after) : ∃ connection,
      after = { session with
        connection := some connection, log := session.log ++ [.reply response] } := by
  obtain ⟨_, written, hwrite, hrest⟩ := bind_eq_ok h
  obtain ⟨_, flushed, hflush, hlogged⟩ := bind_eq_ok hrest
  obtain ⟨_, rfl⟩ := onConnection_ok hwrite
  obtain ⟨connection, rfl⟩ := onConnection_ok hflush
  cases hlogged
  exact ⟨connection, rfl⟩

variable [Handler H] [Base64]

theorem handleLine_command {π : Type} [Transport π] {session : Session π H} {line : Bytes}
    {command : Command} (hphase : session.state.phase ≠ .data)
    (hparse : Command.parse line = .ok command) :
    handleLine line session = handleCommand command session := by
  simp [handleLine, SessionState.inPhase, hphase, commandLine, hparse]

/-- The next turn handles the line that the pending octets start with. -/
theorem turn_line {session : Session Wire H} {line rest : Bytes} (hline : IsLine line)
    (hlength : line.length ≤ maxLineLength) (hdelivers : session.Delivers (line ++ rest)) :
    ∃ connection, turn session =
        handleLine line { session with connection := some connection } ∧
      connection.pending = rest ∧ connection.isTls = session.isTls := by
  obtain ⟨connection, hread, hpending, htls⟩ := readLine_line hline hlength hdelivers
  exact ⟨connection, by simp [turn, hread], hpending, htls⟩

theorem handleLine_capture {π : Type} [Transport π] {line : Bytes}
    (connection : Option (Connection π)) (config : SessionConfig H) (state : SessionState)
    (log : List Event) (hphase : state.phase = .data) (hline : ¬ EndsData line)
    (hsize : state.currentMail.dataLength + (unstuff line).length ≤ config.maxMessageSize) :
    handleLine line ⟨connection, config, state, log⟩ = .ok .next
      ⟨connection, config,
        { state with currentMail := state.currentMail.appendData (unstuff line) }, log⟩ := by
  rw [EndsData] at hline
  simp [handleLine, SessionState.inPhase, hphase, dataLine, handleData, hline,
    Nat.not_lt_of_le hsize, modifyMail]

theorem handleLine_tooLong {line : Bytes} (connection : Connection Wire)
    (config : SessionConfig H) (state : SessionState) (log : List Event)
    (hphase : state.phase = .data) (hline : ¬ EndsData line)
    (hsize : config.maxMessageSize < state.currentMail.dataLength + (unstuff line).length) :
    handleLine line ⟨some connection, config, state, log⟩ =
      .error (.anyhow "message data was too long.".toList)
        ⟨some connection, config, state, log ++ [.reply .dataTooLong]⟩ := by
  rw [EndsData] at hline
  simp [handleLine, SessionState.inPhase, hphase, dataLine, handleData, hline, hsize]

/-- The session after the handler took the captured mail. -/
def delivered (connection : Connection Wire) (config : SessionConfig H) (state : SessionState)
    (log : List Event) : Session Wire H :=
  let (answer, handler) := Handler.onMail state.currentMail config.handler
  { connection := some connection
    config := { config with handler }
    state := { state with phase := .greeted, currentMail := .empty }
    log := log ++ [.mail state.currentMail answer connection.isTls, .reply (mailReply answer)] }

theorem handleLine_end {line : Bytes} (connection : Connection Wire) (config : SessionConfig H)
    (state : SessionState) (log : List Event) (hphase : state.phase = .data)
    (hline : EndsData line) :
    handleLine line ⟨some connection, config, state, log⟩ =
      .ok .next (delivered connection config state log) := by
  rw [EndsData] at hline
  simp [handleLine, SessionState.inPhase, hphase, dataLine, handleData, hline, deliver,
    callHandler, modifyMail, setPhase, delivered, isTls]

/-- A turn whose line cannot be read ends the session and leaves the log as it is. -/
theorem turn_error {session : Session Wire H} {octets : Bytes} {error : Error}
    (hdelivers : session.Delivers octets) (hnext : nextLine octets = .error error) :
    ∃ connection, turn session = .error error { session with connection := some connection } := by
  obtain ⟨connection, hread⟩ := readLine_error hdelivers hnext
  exact ⟨connection, by simp [turn, hread]⟩

theorem turn_of_running {π : Type} [Transport π] {session after : Session π H}
    (h : iteration session = .running after) : turn session = .ok .next after := by
  unfold iteration at h
  split at h
  next hturn => rw [hturn, Flow.running.inj h]
  next => cases h
  next => cases h

/-- A session that goes on has read a line and handled it. -/
theorem iteration_running {π : Type} [Transport π] {session after : Session π H}
    (h : iteration session = .running after) : ∃ line read connection,
      readLine session = .ok (some line) read ∧
      read = { session with connection := some connection } ∧
      handleLine line read = .ok .next after := by
  obtain ⟨line, read, hread, hturn⟩ := bind_eq_ok (turn_of_running h)
  obtain ⟨connection, hsame⟩ := onConnection_ok hread
  cases line with
  | none => cases hturn
  | some line => exact ⟨line, read, connection, hread, hsame, hturn⟩

/-- What holds however the turn ends holds of the state after the iteration. -/
theorem iteration_state {π : Type} [Transport π] {session : Session π H} {q : Session π H → Prop}
    (h : Sat turn session (fun _ after => q after) fun _ after => q after) :
    q (iteration session).state := by
  unfold iteration
  split
  next hturn => exact h.of_ok hturn
  next hturn => exact h.of_ok hturn
  next hturn => exact h.of_error hturn

theorem iteration_next {session after : Session Wire H} (hturn : turn session = .ok .next after) :
    iteration session = .running after := by
  rw [iteration, hturn]

end Session

end PostGraph.Smtp
