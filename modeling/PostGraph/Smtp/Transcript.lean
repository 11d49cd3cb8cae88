import PostGraph.Smtp.Transaction

/-! # Transcripts

What a session says and does while it reads a message is known to the last event: a
positive reply for each command, the intermediate one for DATA, then the handler's answer
and the reply that it becomes. Of the handler nothing but `onMail` is called, with the
addresses and the body as they were before the client wrote them down.
-/

namespace PostGraph.Smtp

open Foundation Foundation.Framing

/-- What a message adds to the log, if the handler answers so. -/
def Submission.transcript (message : Submission) (answer : Except Text Unit) (isTls : Bool) :
    List Event :=
  List.replicate (message.recipients.length + 1) (.reply .ok) ++
    [.reply .dataStart, .mail message.mail answer isTls, .reply (Session.mailReply answer)]

theorem Submission.mailsOf_transcript (message : Submission) (answer : Except Text Unit)
    (isTls : Bool) : mailsOf (message.transcript answer isTls) = [message.mail] := by
  have hreplies : mailsOf (List.replicate (message.recipients.length + 1) (.reply .ok)) = [] := by
    rw [← List.map_replicate]
    exact mailsOf_replies _
  rw [transcript, mailsOf_append, hreplies]
  rfl

namespace Session

variable {H : Type} [Handler H] [Base64]

/-- Within the turns, the session goes on to this state and this handler with this rest
pending, and logs these events. -/
structure Proceeds (turns : Nat) (session after : Session Wire H) (rest : Bytes)
    (state : SessionState) (handler : H) (events : List Event) : Prop where
  run : Flow.iterate iteration turns (.running session) = .running after
  delivers : after.Delivers rest
  state_eq : after.state = state
  config_eq : after.config = { session.config with handler }
  log_eq : after.log = session.log ++ events
  isTls_eq : after.isTls = session.isTls

theorem Proceeds.refl {session : Session Wire H} {octets : Bytes}
    (hdelivers : session.Delivers octets) :
    Proceeds 0 session session octets session.state session.config.handler [] :=
  ⟨rfl, hdelivers, rfl, rfl, (List.append_nil _).symm, rfl⟩

theorem Proceeds.trans {first second : Nat} {session middle after : Session Wire H}
    {rest rest' : Bytes} {state state' : SessionState} {handler handler' : H}
    {events events' : List Event} (h : Proceeds first session middle rest state handler events)
    (h' : Proceeds second middle after rest' state' handler' events') :
    Proceeds (first + second) session after rest' state' handler' (events ++ events') where
  run := by rw [Flow.iterate_add, h.run, h'.run]
  delivers := h'.delivers
  state_eq := h'.state_eq
  config_eq := by rw [h'.config_eq, h.config_eq]
  log_eq := by rw [h'.log_eq, h.log_eq, List.append_assoc]
  isTls_eq := h'.isTls_eq.trans h.isTls_eq

theorem Proceeds.isAuthenticated {turns : Nat} {session after : Session Wire H} {rest : Bytes}
    {state : SessionState} {handler : H} {events : List Event}
    (h : Proceeds turns session after rest state handler events)
    (hsame : state.isAuthenticated = session.state.isAuthenticated)
    (hallowed : session.isAuthenticated = true) : after.isAuthenticated = true := by
  unfold Session.isAuthenticated SessionConfig.hasAuth at hallowed ⊢
  rwa [h.config_eq, h.state_eq, hsame]

/-- A line whose handling is known, whatever chunks are still pending. -/
theorem proceeds_line {session : Session Wire H} {line rest : Bytes} {state : SessionState}
    {handler : H} (events : List Event) (hline : IsLine line)
    (hlength : line.length ≤ maxLineLength) (hdelivers : session.Delivers (line ++ rest))
    (hhandle : ∀ connection : Connection Wire, connection.isTls = session.isTls →
      handleLine line ⟨some connection, session.config, session.state, session.log⟩ =
        .ok .next ⟨some connection, { session.config with handler }, state,
          session.log ++ events⟩) :
    ∃ after, Proceeds 1 session after rest state handler events := by
  obtain ⟨connection, hturn, hpending, htls⟩ := turn_line hline hlength hdelivers
  rw [hhandle connection htls] at hturn
  exact ⟨_, iteration_next hturn, ⟨connection, rfl, hpending⟩, rfl, rfl, rfl, htls⟩

theorem proceeds_sender {session : Session Wire H} {line rest : Bytes} {sender : Text}
    (hline : IsLine line) (hparse : Command.parse line = .ok (.mail sender))
    (hlength : line.length ≤ maxLineLength) (hdelivers : session.Delivers (line ++ rest))
    (hphase : session.state.phase = .greeted) (hallowed : session.isAuthenticated = true) :
    ∃ after, Proceeds 1 session after rest
      ⟨.envelope, session.state.isAuthenticated, Mail.empty.setSender sender⟩
      session.config.handler [.reply .ok] := by
  refine proceeds_line _ hline hlength hdelivers fun connection _ => ?_
  rw [handleLine_command (by simp [hphase]) hparse]
  simp only [handleCommand, bind_apply, mail,
    inTransaction_apply (some connection) session.config session.state session.log hphase hallowed]
  simp [modifyMail, setPhase]

theorem proceeds_mail {session : Session Wire H} (line : AddressLine "MAIL" "FROM:")
    {rest : Bytes} (hlength : line.octets.length ≤ maxLineLength)
    (hdelivers : session.Delivers (line.octets ++ rest))
    (hphase : session.state.phase = .greeted) (hallowed : session.isAuthenticated = true) :
    ∃ after, Proceeds 1 session after rest
      ⟨.envelope, session.state.isAuthenticated, ⟨line.address, [], []⟩⟩ session.config.handler
      [.reply .ok] := by
  have hsender : Mail.empty.setSender line.written = ⟨line.address, [], []⟩ := by
    rw [Mail.setSender, line.normalizeAddress_written]
    rfl
  rw [← hsender]
  exact proceeds_sender (line.isLine_octets (by decide) (by decide)) (parse_mail line) hlength
    hdelivers hphase hallowed

theorem proceeds_recipient {session : Session Wire H} (line : AddressLine "RCPT" "TO:")
    {rest : Bytes} (hlength : line.octets.length ≤ maxLineLength)
    (hdelivers : session.Delivers (line.octets ++ rest))
    (hphase : session.state.phase = .envelope) (hallowed : session.isAuthenticated = true) :
    ∃ after, Proceeds 1 session after rest
      { session.state with
        currentMail := { session.state.currentMail with
          recipients := session.state.currentMail.recipients ++ [line.address] } }
      session.config.handler [.reply .ok] := by
  refine proceeds_line _ (line.isLine_octets (by decide) (by decide)) hlength hdelivers
    fun connection _ => ?_
  rw [handleLine_command (by simp [hphase]) (parse_recipient line)]
  simp only [handleCommand, bind_apply, recipient,
    inTransaction_apply (some connection) session.config session.state session.log hphase hallowed]
  simp [modifyMail, Mail.addRecipient, line.normalizeAddress_written]

theorem proceeds_recipients {session : Session Wire H}
    {recipients : List (AddressLine "RCPT" "TO:")} {rest : Bytes}
    (hlength : ∀ line ∈ recipients, line.octets.length ≤ maxLineLength)
    (hdelivers : session.Delivers ((recipients.map AddressLine.octets).flatten ++ rest))
    (hphase : session.state.phase = .envelope) (hallowed : session.isAuthenticated = true) :
    ∃ after, Proceeds recipients.length session after rest
      { session.state with
        currentMail := { session.state.currentMail with
          recipients := session.state.currentMail.recipients ++
            recipients.map AddressLine.address } }
      session.config.handler (List.replicate recipients.length (.reply .ok)) := by
  induction recipients generalizing session with
  | nil =>
      refine ⟨session, ?_⟩
      simpa using Proceeds.refl hdelivers
  | cons line recipients ih =>
      rw [List.map_cons, List.flatten_cons, List.append_assoc] at hdelivers
      obtain ⟨middle, hmiddle⟩ := proceeds_recipient line (hlength line List.mem_cons_self)
        hdelivers hphase hallowed
      obtain ⟨after, hafter⟩ := ih
        (fun other hother => hlength other (List.mem_cons_of_mem _ hother)) hmiddle.delivers
        (by rw [hmiddle.state_eq]; exact hphase) (hmiddle.isAuthenticated rfl hallowed)
      refine ⟨after, ?_⟩
      have htrans := hmiddle.trans hafter
      rw [hmiddle.state_eq, hmiddle.config_eq] at htrans
      simpa [Nat.add_comm 1, List.replicate_succ] using htrans

theorem proceeds_data {session : Session Wire H} {verb ending rest : Bytes}
    (hverb : SameIgnoringCase verb "DATA") (hending : ending = [cr, lf] ∨ ending = [lf])
    (hlength : (verb ++ ending).length ≤ maxLineLength)
    (hdelivers : session.Delivers (verb ++ ending ++ rest))
    (hphase : session.state.phase = .envelope) (hallowed : session.isAuthenticated = true) :
    ∃ after, Proceeds 1 session after rest { session.state with phase := .data }
      session.config.handler [.reply .dataStart] := by
  have hopen : lf ∉ verb := hverb.notMem (by decide) (by decide)
  refine proceeds_line _ (isLine_append hopen hending) hlength hdelivers fun connection _ => ?_
  rw [handleLine_command (by simp [hphase]) (parse_data hverb hending)]
  simp only [handleCommand, bind_apply, data,
    inTransaction_apply (some connection) session.config session.state session.log hphase hallowed]
  simp [setPhase]

/-- The body is captured without a word. -/
theorem proceeds_capture {session : Session Wire H} {body : List Bytes} {rest : Bytes}
    (hbody : DataLines body) (hlength : ∀ line ∈ body, line.length ≤ maxLineLength)
    (hdelivers : session.Delivers (body.flatten ++ rest)) (hphase : session.state.phase = .data)
    (hsize : session.state.currentMail.dataLength + (body.map unstuff).flatten.length ≤
      session.config.maxMessageSize) :
    ∃ after, Proceeds body.length session after rest
      { session.state with
        currentMail := session.state.currentMail.appendData (body.map unstuff).flatten }
      session.config.handler [] := by
  induction body generalizing session with
  | nil =>
      refine ⟨session, ?_⟩
      simpa [Mail.appendData] using Proceeds.refl hdelivers
  | cons line body ih =>
      obtain ⟨hline, hdata⟩ := hbody line List.mem_cons_self
      rw [List.flatten_cons, List.append_assoc] at hdelivers
      simp only [List.map_cons, List.flatten_cons, List.length_append] at hsize
      have hroom : session.state.currentMail.dataLength + (unstuff line).length ≤
          session.config.maxMessageSize := by omega
      obtain ⟨middle, hmiddle⟩ := proceeds_line [] hline (hlength line List.mem_cons_self)
        hdelivers (fun connection _ => by
          rw [handleLine_capture _ _ _ _ hphase hdata hroom, List.append_nil])
      obtain ⟨after, hafter⟩ := ih (fun other hother => hbody other (List.mem_cons_of_mem _ hother))
        (fun other hother => hlength other (List.mem_cons_of_mem _ hother)) hmiddle.delivers
        (by rw [hmiddle.state_eq]; exact hphase) (by
          rw [hmiddle.state_eq, hmiddle.config_eq]
          simp only [Mail.dataLength, Mail.appendData, List.length_append] at hsize ⊢
          omega)
      refine ⟨after, ?_⟩
      have htrans := hmiddle.trans hafter
      rw [hmiddle.state_eq, hmiddle.config_eq] at htrans
      simpa [Mail.appendData, Nat.add_comm] using htrans

/-- The final dot hands the mail over. -/
theorem proceeds_end {session : Session Wire H} {line rest : Bytes} (hline : EndsData line)
    (hdelivers : session.Delivers (line ++ rest)) (hphase : session.state.phase = .data) :
    ∃ after, Proceeds 1 session after rest ⟨.greeted, session.state.isAuthenticated, .empty⟩
      (Handler.onMail session.state.currentMail session.config.handler).2
      [.mail session.state.currentMail
          (Handler.onMail session.state.currentMail session.config.handler).1 session.isTls,
        .reply (mailReply
          (Handler.onMail session.state.currentMail session.config.handler).1)] := by
  refine proceeds_line _ hline.isLine hline.length_le hdelivers fun connection htls => ?_
  rw [handleLine_end _ _ _ _ hphase hline, delivered, htls]

/-- One message, from its first line to the reply to its last. -/
theorem proceeds_submission {session : Session Wire H} (submission : Submission) {rest : Bytes}
    (hfits : submission.Fits session.config.maxMessageSize)
    (hdelivers : session.Delivers (submission.lines.flatten ++ rest))
    (hphase : session.state.phase = .greeted) (hallowed : session.isAuthenticated = true) :
    ∃ after, Proceeds submission.lines.length session after rest
      ⟨.greeted, session.state.isAuthenticated, .empty⟩
      (Handler.onMail submission.mail session.config.handler).2
      (submission.transcript (Handler.onMail submission.mail session.config.handler).1
        session.isTls) := by
  have hsplit : submission.lines.flatten ++ rest = submission.sender.octets ++
      ((submission.recipients.map AddressLine.octets).flatten ++
        (submission.dataVerb ++ submission.dataEnding ++
          ((submission.body.map stuff).flatten ++ (ascii ".\r\n" ++ rest)))) := by
    simp [Submission.lines]
  rw [hsplit] at hdelivers
  obtain ⟨first, hfirst⟩ := proceeds_mail submission.sender
    (hfits.lines _ (by simp [Submission.lines])) hdelivers hphase hallowed
  have hallowed₁ := hfirst.isAuthenticated rfl hallowed
  have hrecipients : ∀ line ∈ submission.recipients, line.octets.length ≤ maxLineLength :=
    fun line hline => hfits.lines _ (by
      simp only [Submission.lines, List.mem_append, List.mem_cons, List.mem_map]
      exact .inl (.inl (.inr ⟨line, hline, rfl⟩)))
  obtain ⟨second, hsecond⟩ := proceeds_recipients hrecipients hfirst.delivers
    (by rw [hfirst.state_eq]) hallowed₁
  rw [hfirst.state_eq, hfirst.config_eq] at hsecond
  obtain ⟨third, hthird⟩ := proceeds_data submission.dataVerb_eq submission.dataEnding_eq
    (hfits.lines _ (by simp [Submission.lines])) hsecond.delivers (by rw [hsecond.state_eq])
    (hsecond.isAuthenticated (by rw [hfirst.state_eq]) hallowed₁)
  rw [hsecond.state_eq, hsecond.config_eq] at hthird
  have hbody : ∀ line ∈ submission.body.map stuff, line.length ≤ maxLineLength :=
    fun line hline => hfits.lines _ (by
      simp only [Submission.lines, List.mem_append, List.mem_cons]
      exact .inl (.inr (.inr hline)))
  obtain ⟨fourth, hfourth⟩ := proceeds_capture (dataLines_stuff submission.body_lines) hbody
    hthird.delivers (by rw [hthird.state_eq]) (by
      rw [unstuff_map_stuff, hthird.state_eq, hthird.config_eq]
      simpa [Mail.dataLength, hsecond.config_eq, hfirst.config_eq] using hfits.body)
  rw [hthird.state_eq, unstuff_map_stuff, hthird.config_eq] at hfourth
  obtain ⟨after, hafter⟩ := proceeds_end (.inl rfl) hfourth.delivers (by rw [hfourth.state_eq])
  rw [hfourth.state_eq, hfourth.config_eq] at hafter
  refine ⟨after, ?_⟩
  have hbefore := (((hfirst.trans hsecond).trans hthird).trans hfourth)
  rw [hbefore.isTls_eq] at hafter
  have hcount : submission.lines.length =
      1 + submission.recipients.length + 1 + (submission.body.map stuff).length + 1 := by
    simp [Submission.lines]
    omega
  rw [hcount]
  simpa [Submission.mail, Submission.transcript, Mail.appendData, List.replicate_succ] using
    hbefore.trans hafter

/-- Transactions are faithful: after the lines of any messages, in any chunks,
the handler has got each message once, in order, with the addresses and the body
as they were, whatever it answered. -/
theorem submissions_delivered {session : Session Wire H} (submissions : List Submission)
    {rest : Bytes} (hphase : session.state.phase = .greeted)
    (hallowed : session.isAuthenticated = true)
    (hfits : ∀ submission ∈ submissions, submission.Fits session.config.maxMessageSize)
    (hdelivers : session.Delivers ((submissions.flatMap Submission.lines).flatten ++ rest)) :
    ∃ after, Flow.iterate iteration (submissions.flatMap Submission.lines).length
        (.running session) = .running after ∧
      mailsOf after.log = mailsOf session.log ++ submissions.map Submission.mail ∧
      after.state.phase = .greeted ∧ after.Delivers rest := by
  induction submissions generalizing session with
  | nil => exact ⟨session, rfl, (List.append_nil _).symm, hphase, hdelivers⟩
  | cons submission submissions ih =>
      rw [List.flatMap_cons, List.flatten_append, List.append_assoc] at hdelivers
      obtain ⟨middle, hmiddle⟩ := proceeds_submission submission
        (hfits submission List.mem_cons_self) hdelivers hphase hallowed
      have hfits' : ∀ other ∈ submissions, other.Fits middle.config.maxMessageSize := by
        rw [hmiddle.config_eq]
        exact fun other hother => hfits other (List.mem_cons_of_mem _ hother)
      obtain ⟨after, hrun, hmails, hgreeted, hafter⟩ := ih (by rw [hmiddle.state_eq])
        (hmiddle.isAuthenticated rfl hallowed) hfits' hmiddle.delivers
      refine ⟨after, ?_, ?_, hgreeted, hafter⟩
      · rw [List.flatMap_cons, List.length_append, Flow.iterate_add, hmiddle.run, hrun]
      · rw [hmails, hmiddle.log_eq, mailsOf_append, submission.mailsOf_transcript,
          List.append_assoc, List.singleton_append, List.map_cons]

/-- Messages one after the other, with an invariant of the handler on the messages that it
has got, under which it accepts them all. -/
theorem proceeds_submissions {P : List Submission → H → Prop} {submissions : List Submission}
    (hanswers : ∀ done, ∀ submission ∈ submissions, ∀ handler : H, P done handler →
      (Handler.onMail submission.mail handler).1 = .ok () ∧
        P (done ++ [submission]) (Handler.onMail submission.mail handler).2)
    {session : Session Wire H} {rest : Bytes} {done : List Submission}
    (hhandler : P done session.config.handler) (hphase : session.state.phase = .greeted)
    (hallowed : session.isAuthenticated = true)
    (hfits : ∀ submission ∈ submissions, submission.Fits session.config.maxMessageSize)
    (hdelivers : session.Delivers ((submissions.flatMap Submission.lines).flatten ++ rest)) :
    ∃ after state, Proceeds (submissions.flatMap Submission.lines).length session after rest state
        after.config.handler
        (submissions.flatMap (Submission.transcript · (.ok ()) session.isTls)) ∧
      P (done ++ submissions) after.config.handler := by
  induction submissions generalizing session done with
  | nil =>
      exact ⟨session, session.state, .refl hdelivers, by rwa [List.append_nil]⟩
  | cons submission submissions ih =>
      rw [List.flatMap_cons, List.flatten_append, List.append_assoc] at hdelivers
      obtain ⟨hanswer, hnext⟩ := hanswers done submission List.mem_cons_self _ hhandler
      obtain ⟨middle, hmiddle⟩ := proceeds_submission submission
        (hfits submission List.mem_cons_self) hdelivers hphase hallowed
      rw [hanswer] at hmiddle
      have hconfig := hmiddle.config_eq
      obtain ⟨after, state, hafter, hdone⟩ := ih
        (fun done other hother => hanswers done other (List.mem_cons_of_mem _ hother))
        (by rw [hconfig]; exact hnext) (by rw [hmiddle.state_eq])
        (hmiddle.isAuthenticated rfl hallowed) (by
          rw [hconfig]
          exact fun other hother => hfits other (List.mem_cons_of_mem _ hother))
        hmiddle.delivers
      refine ⟨after, state, ?_, by rwa [List.append_assoc] at hdone⟩
      rw [List.flatMap_cons, List.flatMap_cons, List.length_append, ← hmiddle.isTls_eq]
      rw [← hmiddle.isTls_eq] at hmiddle
      exact hmiddle.trans hafter

end Session

/-- A greeted session to which the message comes twice, cut within its lines. -/
def submittingSample : Session Wire Unit :=
  ⟨some (.newPlain ⟨[(sampleSubmission.lines.flatten ++ sampleSubmission.lines.flatten).take 50,
    (sampleSubmission.lines.flatten ++ sampleSubmission.lines.flatten).drop 50], [],
    by decide, Wire.noChunks⟩ none), openConfig, ⟨.greeted, false, .empty⟩, []⟩

theorem Session.submissions_delivered_sample :
    ∃ after, Flow.iterate (@iteration _ _ _ _ sampleBase64) 14 (.running submittingSample) =
        .running after ∧
      mailsOf after.log = [⟨"a@b".toList, ["c@d".toList], ascii ".\r\n..\n\r\n"⟩,
        ⟨"a@b".toList, ["c@d".toList], ascii ".\r\n..\n\r\n"⟩] ∧
      after.state.phase = .greeted ∧ after.Delivers [] := by
  have hfits : sampleSubmission.Fits submittingSample.config.maxMessageSize :=
    ⟨by decide, by decide⟩
  exact @submissions_delivered _ _ sampleBase64 submittingSample
    [sampleSubmission, sampleSubmission] [] rfl rfl (by simpa using hfits) ⟨_, rfl, by decide⟩

end PostGraph.Smtp
