import PostGraph.Smtp.Answers
import PostGraph.Smtp.Execution
import PostGraph.Smtp.Refinement

/-! # Conversations

Each line that a session reads is answered by one reply, and the lines of a
message's data all together by one. Two answers differ from this: a data line
that makes the message too long is answered before the session closes, and the
lines of the answer to HELP have different codes.
-/

namespace PostGraph.Smtp

open Foundation Foundation.Reply

/-- A turn of a session: the line it starts with, what it reads behind its
challenges, and what it writes. -/
structure Exchange where
  line : Bytes
  continuations : List (Option Bytes)
  octets : Bytes

namespace Exchange

variable {H : Type}

def reads (exchange : Exchange) : List (Option Bytes) :=
  some exchange.line :: exchange.continuations

/-- One reply for each line, and for the end of the stream behind a challenge. A
line of data has none unless it ends the message, and the answer to HELP is a
group of two lines with the codes 250 and 214. -/
def Answered (exchange : Exchange) (session : Session (Recorder Wire) H) : Prop :=
  if session.state.phase = .data then
    exchange.continuations = [] ∧
      if EndsData exchange.line then Replies 1 exchange.octets else exchange.octets = []
  else if Command.parse exchange.line = .ok .help then
    exchange.continuations = [] ∧ Group [ascii "250", ascii "214"] exchange.octets
  else Replies (exchange.continuations.length + 1) exchange.octets

/-- The last turn of a session that closes: the last line of a command may have
no reply, and the line that makes a message too long has one. -/
def Closing (exchange : Exchange) (session : Session (Recorder Wire) H) : Prop :=
  if session.state.phase = .data then
    exchange.continuations = [] ∧ ¬ EndsData exchange.line ∧
      session.config.maxMessageSize <
        session.state.currentMail.dataLength + (Session.unstuff exchange.line).length ∧
      exchange.octets = Response.dataTooLong.octets
  else
    Replies exchange.continuations.length exchange.octets ∨
      Replies (exchange.continuations.length + 1) exchange.octets

end Exchange

namespace Session

variable {H : Type} [Handler H] [Base64]

/-- A line that is not data. -/
theorem commandLine_concludes {session : Session (Recorder Wire) H} (line : Bytes)
    (hphase : session.state.phase ≠ .data) (hconnected : session.connection.isSome = true)
    (hname : session.config.serverName ≠ []) (hline : OneLine session.config.serverName) :
    Concludes (commandLine line) session
      (fun reads octets => Exchange.Answered ⟨line, reads, octets⟩ session)
      (fun reads octets => Exchange.Closing ⟨line, reads, octets⟩ session) := by
  have hanswered : Command.parse line ≠ .ok .help → ∀ reads octets, Due 1 reads octets →
      Exchange.Answered ⟨line, reads, octets⟩ session := by
    intro hhelp reads octets hdue
    unfold Exchange.Answered
    rwa [if_neg hphase, if_neg hhelp]
  have hclosing : ∀ reads octets, BrokenOff reads octets →
      Exchange.Closing ⟨line, reads, octets⟩ session := by
    intro reads octets hbroken
    unfold Exchange.Closing
    rwa [if_neg hphase]
  unfold commandLine
  cases hparse : Command.parse line with
  | error error =>
      have hproper : (Response.syntaxError (some error)).Proper := by
        apply Response.Proper.syntaxError
        rintro _ ⟨⟩
        exact Command.OneLineError.parse line error hparse
      have hreply : Answers (reply (.syntaxError (some error))) session :=
        .reply hproper rfl hconnected
      exact (hreply.concludes.then_return Control.next).mono
        (hanswered (by rw [hparse]; exact nofun)) hclosing
  | ok command =>
      -- the lines of the answer to HELP are one group, but no proper reply
      by_cases hhelp : command = .help
      · subst hhelp
        have hgroup : Concludes (handleCommand .help) session _ _ :=
          (help_talks hconnected).concludes.then_return Control.next
        apply hgroup.mono
        · rintro _ octets ⟨rfl, hgroup⟩
          unfold Exchange.Answered
          rw [if_neg hphase, if_pos hparse]
          exact ⟨rfl, hgroup⟩
        · exact fun _ _ h => h.elim
      · exact (handleCommand_concludes hconnected hname hline hhelp).mono
          (hanswered (by rw [hparse]; exact fun h => hhelp (Except.ok.inj h))) hclosing

section Data

omit [Base64]

variable {session : Session (Recorder Wire) H} {line : Bytes}

theorem dataLine_end (hend : EndsData line) : dataLine line session = deliver session := by
  unfold EndsData at hend
  simp [dataLine, handleData, hend]

omit [Handler H] in
/-- A line within the data is measured before it is captured. -/
theorem handleData_within (hend : ¬ EndsData line) : handleData line session =
    (if session.config.maxMessageSize <
        session.state.currentMail.dataLength + (unstuff line).length then
      reply .dataTooLong >>= fun _ => pure .dataTooLong
    else
      modifyMail (fun mail => mail.appendData (unstuff line)) >>= fun _ => pure .continue :
      SessionM (Recorder Wire) H HandleDataResult) session := by
  unfold EndsData at hend
  rw [handleData, if_neg hend, bind_apply, get_apply]

theorem dataLine_tooLong (hend : ¬ EndsData line) (hlong : session.config.maxMessageSize <
    session.state.currentMail.dataLength + (unstuff line).length) :
    dataLine line session = (reply .dataTooLong >>= fun _ =>
      MonadExcept.throw (Error.anyhow "message data was too long.".toList) :
        SessionM (Recorder Wire) H Unit) session := by
  rw [dataLine, bind_apply, handleData_within hend, if_pos hlong, bind_apply, bind_apply]
  cases reply .dataTooLong session <;> rfl

theorem dataLine_capture (hend : ¬ EndsData line) (hroom : ¬ session.config.maxMessageSize <
    session.state.currentMail.dataLength + (unstuff line).length) :
    dataLine line session = .ok ()
      { session with
        state := { session.state with
          currentMail := session.state.currentMail.appendData (unstuff line) } } := by
  rw [dataLine, bind_apply, handleData_within hend, if_neg hroom]
  rfl

/-- A line of data. -/
theorem dataLine_concludes (line : Bytes) (herrors : Answers.OneLineErrors H)
    (hphase : session.state.phase = .data) (hconnected : session.connection.isSome = true) :
    Concludes (dataLine line) session
      (fun reads octets => Exchange.Answered ⟨line, reads, octets⟩ session)
      (fun reads octets => Exchange.Closing ⟨line, reads, octets⟩ session) := by
  by_cases hend : EndsData line
  · apply Sat.of_eq (dataLine_end hend)
    apply (Answers.deliver_talks herrors hconnected).concludes.mono
    · rintro _ octets ⟨rfl, hone⟩
      unfold Exchange.Answered
      rw [if_pos hphase, if_pos hend]
      exact ⟨rfl, hone⟩
    · exact fun _ _ h => h.elim
  by_cases hlong : session.config.maxMessageSize <
      session.state.currentMail.dataLength + (unstuff line).length
  · -- the one line of data that is answered: the session closes behind the reply
    have hreply : Talks (reply .dataTooLong) session
        (fun _ reads octets => reads = [] ∧ octets = Response.dataTooLong.octets)
        (fun reads octets => Exchange.Closing ⟨line, reads, octets⟩ session) :=
      Talks.reply _ hconnected ⟨rfl, rfl⟩
    apply Sat.of_eq (dataLine_tooLong hend hlong)
    apply Talks.concludes
    apply hreply.bind
    rintro _ _ octets after hexchanged ⟨rfl, rfl⟩
    apply Talks.throw hexchanged.connected
    unfold Exchange.Closing
    rw [if_pos hphase, List.append_nil, List.append_nil]
    exact ⟨rfl, hend, hlong, rfl⟩
  · unfold Concludes Sat
    rw [dataLine_capture hend hlong]
    refine ⟨[], [], _, .of_same hconnected rfl rfl, fun _ => rfl, ?_⟩
    change Exchange.Answered ⟨line, [], []⟩ session
    unfold Exchange.Answered
    rw [if_pos hphase, if_neg hend]
    exact ⟨rfl, rfl⟩

end Data

theorem handleLine_concludes {session : Session (Recorder Wire) H} (line : Bytes)
    (herrors : Answers.OneLineErrors H) (hconnected : session.connection.isSome = true)
    (hname : session.config.serverName ≠ []) (hline : OneLine session.config.serverName) :
    Concludes (handleLine line) session
      (fun reads octets => Exchange.Answered ⟨line, reads, octets⟩ session)
      (fun reads octets => Exchange.Closing ⟨line, reads, octets⟩ session) := by
  by_cases hphase : session.state.phase = .data
  · have hdata : handleLine line session = (dataLine line >>= fun _ => pure .next) session := by
      rw [handleLine, bind_apply, get_apply]
      dsimp only
      rw [SessionState.inPhase, hphase]
      rfl
    exact Sat.of_eq hdata ((dataLine_concludes line herrors hphase hconnected).then_return _)
  · have hcommand : handleLine line session = commandLine line session := by
      rw [handleLine, bind_apply, get_apply]
      dsimp only
      rw [SessionState.inPhase, decide_eq_false hphase]
      rfl
    exact Sat.of_eq hcommand (commandLine_concludes line hphase hconnected hname hline)

/-- What a turn reads and writes. Without a line it writes nothing. -/
theorem turn_exchanges {session : Session (Recorder Wire) H} (herrors : Answers.OneLineErrors H)
    (hconnected : session.connection.isSome = true) (hname : session.config.serverName ≠ [])
    (hline : OneLine session.config.serverName) :
    Sat turn session
      (fun _ after => ∃ (exchange : Exchange) (rest : Bytes),
        Exchanged session exchange.reads exchange.octets rest after ∧
        (after.isTls = session.isTls → after.pending = rest) ∧ exchange.Answered session)
      (fun _ after => after.written = session.written ∨ ∃ (exchange : Exchange) (rest : Bytes),
        Exchanged session exchange.reads exchange.octets rest after ∧
          exchange.Closing session) := by
  have hread : Talks readLine session
      (fun line reads octets => reads = [line] ∧ octets = [])
      (fun reads octets => reads = [] ∧ octets = []) :=
    Talks.readLine hconnected (fun _ => ⟨rfl, rfl⟩) ⟨rfl, rfl⟩
  unfold turn
  cases hresult : readLine session with
  | error error after =>
      obtain ⟨_, _, rest, hexchanged, rfl, rfl⟩ := hread.of_error hresult
      unfold Sat
      rw [bind_apply, hresult]
      left
      rw [hexchanged.writes, List.append_nil]
  | ok line middle =>
      obtain ⟨_, _, hexchanged, rfl, rfl⟩ := hread.of_ok hresult
      obtain ⟨connection, hmiddle⟩ := onConnection_ok hresult
      cases line with
      | none =>
          unfold Sat
          rw [bind_apply, hresult]
          left
          rw [hexchanged.writes, List.append_nil]
      | some line =>
          -- reading keeps the connection plain or secured, so the rest is still pending
          have htls : middle.isTls = session.isTls := by
            obtain ⟨replies, hreplies⟩ := (Says.readLine session).of_ok hresult
            rw [← dialogue_isTls, ← dialogue_isTls, hreplies]
            rfl
          subst hmiddle
          have hhandled := handleLine_concludes line herrors hexchanged.connected hname hline
          unfold Sat
          rw [bind_apply, hresult]
          refine Sat.mono hhandled ?_ ?_
          · rintro _ after ⟨reads, octets, rest, hafter, hrest, hanswered⟩
            exact ⟨⟨line, reads, octets⟩, rest, hexchanged.trans hafter,
              fun hsame => hrest (hsame.trans htls.symm), hanswered⟩
          · rintro _ after ⟨reads, octets, rest, hafter, hclosing⟩
            exact .inr ⟨⟨line, reads, octets⟩, rest, hexchanged.trans hafter, hclosing⟩

/-! ## Conversations -/

/-- The exchanges of a run, in order, one for each turn that read a line. -/
inductive Conversation : Session (Recorder Wire) H → List Exchange →
    Flow (Session (Recorder Wire) H) (Except Error Unit) → Prop
  | paused {session : Session (Recorder Wire) H} : Conversation session [] (.running session)
  | goesOn {session after : Session (Recorder Wire) H} {exchange : Exchange}
      {exchanges : List Exchange} {rest : Bytes}
      {flow : Flow (Session (Recorder Wire) H) (Except Error Unit)}
      (hturn : iteration session = .running after)
      (hexchanged : Exchanged session exchange.reads exchange.octets rest after)
      (hrest : after.isTls = session.isTls → after.pending = rest)
      (hanswered : exchange.Answered session) (hnext : Conversation after exchanges flow) :
      Conversation session (exchange :: exchanges) flow
  | closes {session after : Session (Recorder Wire) H} {exchange : Exchange} {rest : Bytes}
      {result : Except Error Unit} (hturn : iteration session = .stopped after result)
      (hexchanged : Exchanged session exchange.reads exchange.octets rest after)
      (hanswered : exchange.Answered session ∨ exchange.Closing session) :
      Conversation session [exchange] (.stopped after result)
  | ends {session after : Session (Recorder Wire) H} {result : Except Error Unit}
      (hturn : iteration session = .stopped after result)
      (hwritten : after.written = session.written) :
      Conversation session [] (.stopped after result)

theorem conversation {session : Session (Recorder Wire) H} (herrors : Answers.OneLineErrors H)
    (hconnected : session.connection.isSome = true) (hname : session.config.serverName ≠ [])
    (hline : OneLine session.config.serverName) (turns : Nat) :
    ∃ exchanges,
      Conversation session exchanges (Flow.iterate iteration turns (.running session)) := by
  induction turns generalizing session with
  | zero => exact ⟨[], .paused⟩
  | succ turns ih =>
      have hturn := turn_exchanges herrors hconnected hname hline
      rw [Flow.iterate_succ]
      cases hresult : turn session with
      | error error after =>
          have hstopped : iteration session = .stopped after (.error error) := by
            rw [iteration, hresult]
          rw [hstopped, Flow.iterate_stopped]
          rcases hturn.of_error hresult with hwritten | ⟨exchange, rest, hexchanged, hclosing⟩
          · exact ⟨[], .ends hstopped hwritten⟩
          · exact ⟨[exchange], .closes hstopped hexchanged (.inr hclosing)⟩
      | ok control after =>
          obtain ⟨exchange, rest, hexchanged, hrest, hanswered⟩ := hturn.of_ok hresult
          cases control with
          | quit =>
              have hstopped : iteration session = .stopped after (.ok ()) := by
                rw [iteration, hresult]
              rw [hstopped, Flow.iterate_stopped]
              exact ⟨[exchange], .closes hstopped hexchanged (.inl hanswered)⟩
          | next =>
              have hrunning : iteration session = .running after := by
                rw [iteration, hresult]
              obtain ⟨exchanges, hconversation⟩ := ih hexchanged.connected
                (hexchanged.serverName ▸ hname) (hexchanged.serverName ▸ hline)
              rw [hrunning]
              exact ⟨_, .goesOn hrunning hexchanged hrest hanswered hconversation⟩

/-- All that was written is what the exchanges say, in order. -/
theorem Conversation.written {session : Session (Recorder Wire) H} {exchanges : List Exchange}
    {flow : Flow (Session (Recorder Wire) H) (Except Error Unit)}
    (h : Conversation session exchanges flow) :
    flow.state.written = session.written ++ exchanges.flatMap Exchange.octets := by
  induction h with
  | paused => exact (List.append_nil _).symm
  | goesOn hturn hexchanged hrest hanswered hnext ih =>
      rw [ih, hexchanged.writes, List.flatMap_cons, List.append_assoc]
  | closes hturn hexchanged hanswered =>
      rw [List.flatMap_singleton]
      exact hexchanged.writes
  | ends hturn hwritten =>
      rw [List.flatMap_nil, List.append_nil]
      exact hwritten

omit [Handler H] [Base64] in
theorem greet_new (connection : Connection (Recorder Wire)) (config : SessionConfig H) :
    ∃ greeted, greet (new connection config) = .running greeted ∧
      greeted.connection.isSome = true ∧ greeted.config = config ∧
      greeted.written = connection.written ++ (Response.banner config.serverName).octets := by
  have hconnection : (new connection config).connection = some connection := rfl
  have hreply := Talks.reply_apply (.banner config.serverName) hconnection
  have hgreet : greet (new connection config) =
      match reply (.banner config.serverName) (new connection config) with
      | .ok () session => .running session
      | .error error session => .stopped session (.error error) := rfl
  rw [hreply] at hgreet
  exact ⟨_, hgreet, rfl, rfl, connection.record_written _⟩

/-- A session answers the lines that it reads, in order, each by one reply, and
before the first line it sends the banner. -/
theorem lines_answered (herrors : Answers.OneLineErrors H)
    (connection : Connection (Recorder Wire)) (config : SessionConfig H)
    (hname : config.serverName ≠ []) (hline : OneLine config.serverName) (turns : Nat) :
    ∃ greeted exchanges, greet (new connection config) = .running greeted ∧
      Conversation greeted exchanges (handle turns (new connection config)) ∧
      IsReply (Response.banner config.serverName).octets ∧
      (handle turns (new connection config)).state.written =
        connection.written ++ ((Response.banner config.serverName).octets ++
          exchanges.flatMap Exchange.octets) := by
  obtain ⟨greeted, hgreet, hconnected, hconfig, hwritten⟩ := greet_new connection config
  obtain ⟨exchanges, hconversation⟩ :=
    conversation herrors hconnected (hconfig ▸ hname) (hconfig ▸ hline) turns
  refine ⟨greeted, exchanges, hgreet, ?_, (Response.Proper.banner hline).isReply rfl, ?_⟩
  · rw [handle, hgreet]
    exact hconversation
  · rw [handle, hgreet, hconversation.written, hwritten, List.append_assoc]

end Session

theorem notMem_singleton {sent : Bytes} (hsent : sent ≠ []) : [] ∉ [sent] :=
  fun hmem => hsent (List.mem_singleton.mp hmem).symm

/-- A connection whose client sends these octets. -/
def recorded (sent : Bytes) (hsent : sent ≠ []) : Connection (Recorder Wire) :=
  .newPlain ⟨⟨[sent], [], notMem_singleton hsent, Wire.noChunks⟩, []⟩ none

def shortConfig : SessionConfig Unit := ⟨(), "s".toList, .none, 2⟩

def bannerOctets : Bytes := ascii "220" ++ sp :: ascii "2.2.0 s ESMTP ready" ++ [cr, lf]

/-- The answer to HELP, without TLS and logins. -/
def helpOctets : Bytes :=
  (ascii "250" ++ hyphen :: ascii "Commands supported" ++ [cr, lf]) ++
    (ascii "214" ++ sp :: ascii "HELO EHLO HELP MAIL RCPT DATA RSET NOOP QUIT" ++ [cr, lf])

theorem group_bannerOctets : Group [ascii "220"] bannerOctets :=
  .last ⟨by decide, forall_mem_of_all (by decide)⟩ (.text ⟨by decide, by decide⟩)

theorem group_helpOctets : Group [ascii "250", ascii "214"] helpOctets :=
  .continued ⟨by decide, forall_mem_of_all (by decide)⟩ (.text ⟨by decide, by decide⟩)
    (.last ⟨by decide, forall_mem_of_all (by decide)⟩ (.text ⟨by decide, by decide⟩))

section Sample

attribute [local instance] sampleBase64

theorem Session.lines_answered_client : ∃ greeted exchanges,
    greet (new (recorded (ascii "EHLO c\r\nNOOP\r\n") (by decide)) shortConfig) =
        .running greeted ∧
      Conversation greeted exchanges
        (handle 2 (new (recorded (ascii "EHLO c\r\nNOOP\r\n") (by decide)) shortConfig)) ∧
      IsReply (Response.banner shortConfig.serverName).octets ∧
      (handle 2 (new (recorded (ascii "EHLO c\r\nNOOP\r\n") (by decide))
          shortConfig)).state.written =
        [] ++ ((Response.banner shortConfig.serverName).octets ++
          exchanges.flatMap Exchange.octets) := by
  have herrors : Answers.OneLineErrors Unit := fun mail handler error h => nomatch h
  exact lines_answered herrors (recorded (ascii "EHLO c\r\nNOOP\r\n") (by decide)) shortConfig
    (by decide) (by decide) 2

/-- Behind the banner HELP is answered by lines of different codes; and a line
that makes the message too long is answered though it does not end the message. -/
theorem Session.answers_differ :
    (∀ count, ¬ Replies count
      (handle 1 (new (recorded (ascii "HELP\r\n") (by decide)) shortConfig)).state.written) ∧
    let flow := fun turns => handle turns (new (recorded (ascii
      "HELO c\r\nMAIL FROM:<a@b>\r\nRCPT TO:<c@d>\r\nDATA\r\nx\r\n") (by decide)) shortConfig)
    (flow 4).state.state.phase = .data ∧ ¬ EndsData (ascii "x\r\n") ∧
      (flow 5).state.written = (flow 4).state.written ++ Response.dataTooLong.octets := by
  constructor
  · have hwritten : (handle 1 (new (recorded (ascii "HELP\r\n") (by decide))
        shortConfig)).state.written = [bannerOctets, helpOctets].flatten := by decide +kernel
    rw [hwritten]
    apply not_replies ?_ (List.mem_cons_of_mem _ (List.mem_singleton_self _)) group_helpOctets
    · exact List.mem_cons_self
    · exact List.mem_cons_of_mem _ (List.mem_singleton_self _)
    · decide
    · intro group hgroup
      rcases List.mem_cons.mp hgroup with rfl | hhelp
      · exact ⟨_, group_bannerOctets⟩
      · exact ⟨_, List.mem_singleton.mp hhelp ▸ group_helpOctets⟩
  · decide +kernel

end Sample

end PostGraph.Smtp
