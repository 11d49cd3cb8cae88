import PostGraph.Smtp.Execution
import PostGraph.Smtp.Refinement

/-! # Mails without recipients

The envelope phase starts with the sender, and DATA is accepted in it with or
without a recipient. Mails have recipients as long as no client sends DATA
before the first one.
-/

namespace PostGraph.Smtp

open Foundation

/-- The mail has a recipient. -/
def Mail.Addressed (mail : Mail) : Prop := mail.recipients ≠ []

instance (mail : Mail) : Decidable mail.Addressed :=
  inferInstanceAs (Decidable (mail.recipients ≠ []))

namespace Dialogue

variable {H : Type} [Handler H]

/-- The mail that is captured has a recipient, and so has each that was handed over. -/
structure Addressed (d : Dialogue H) : Prop where
  captured : d.state.phase = .data → d.state.currentMail.Addressed
  delivered : ∀ mail ∈ mailsOf d.log, mail.Addressed

omit [Handler H] in
theorem mailsOf_say (d : Dialogue H) (replies : List Response) :
    mailsOf (d.say replies).log = mailsOf d.log := by
  rw [say, mailsOf_append, mailsOf_replies, List.append_nil]

omit [Handler H] in
theorem Addressed.say {d : Dialogue H} (h : d.Addressed) (replies : List Response) :
    (d.say replies).Addressed :=
  ⟨h.captured, by rw [mailsOf_say]; exact h.delivered⟩

/-- Only the start of the data may leave a mail without a recipient. -/
theorem Addressed.act {d d' : Dialogue H} (h : d.Addressed) (hact : Act d d') :
    (∀ mail ∈ mailsOf d'.log, mail.Addressed) ∧
      (d'.state.phase = .data →
        (d.state.phase = .envelope → d.isAuthenticated = true → d.state.currentMail.Addressed) →
        d'.state.currentMail.Addressed) := by
  have hsame : ∀ event, mailsOf [event] = [] →
      ∀ mail ∈ mailsOf (d.log ++ [event]), mail.Addressed := by
    intro event hevent
    rw [mailsOf_append, hevent, List.append_nil]
    exact h.delivered
  -- the data is entered from the envelope only, and left by delivery or reset
  cases hact with
  | greet hphase hanswer => exact ⟨hsame _ rfl, fun hdata => by cases hdata⟩
  | secure hphase hsecurity => exact ⟨hsame _ rfl, fun hdata => by cases hdata⟩
  | logIn hphase hmode hanswer =>
      refine ⟨hsame _ rfl, fun hdata => ?_⟩
      cases hphase.symm.trans hdata
  | mail sender hphase hallowed => exact ⟨h.delivered, fun hdata => by cases hdata⟩
  | recipient address hphase hallowed =>
      refine ⟨h.delivered, fun hdata => ?_⟩
      cases hphase.symm.trans hdata
  | data hphase hallowed => exact ⟨h.delivered, fun _ henvelope => henvelope hphase hallowed⟩
  | capture line hphase hsize => exact ⟨h.delivered, fun _ _ => h.captured hphase⟩
  | deliver hphase hanswer =>
      refine ⟨?_, fun hdata => by cases hdata⟩
      intro mail hmail
      rcases List.mem_append.mp (mailsOf_append .. ▸ hmail) with hmail | hmail
      · exact h.delivered mail hmail
      · rw [List.mem_singleton.mp hmail]
        exact h.captured hphase
  | reset hanswer => exact ⟨hsame _ rfl, fun hdata => by cases hdata⟩

/-- A turn that does not start to capture a mail without a recipient. -/
theorem Addressed.turn {d d' : Dialogue H} (h : d.Addressed) (hturn : Turn d d')
    (hdata : d'.state.phase = .data → d.state.phase = .envelope → d.isAuthenticated = true →
      d.state.currentMail.Addressed) : d'.Addressed := by
  obtain ⟨start, middle, ⟨before, rfl⟩, rfl | hact, ⟨after, rfl⟩⟩ := hturn
  · exact (h.say before).say after
  · obtain ⟨hdelivered, hcaptured⟩ := (h.say before).act hact
    have hmiddle : middle.Addressed :=
      ⟨fun hphase => hcaptured hphase (hdata hphase), hdelivered⟩
    exact hmiddle.say after

theorem Addressed.close {d d' : Dialogue H} (h : d.Addressed) (hclose : Close d d') :
    ∀ mail ∈ mailsOf d'.log, mail.Addressed := by
  obtain ⟨start, middle, last, ⟨before, rfl⟩, hmiddle, ⟨after, rfl⟩, _, hlog⟩ := hclose
  rw [hlog, mailsOf_say]
  rcases hmiddle with rfl | hact | hparting
  · exact (h.say before).delivered
  · exact ((h.say before).act hact).1
  · cases hparting with
    | hello hphase hanswer hrejected =>
        rw [Dialogue.heard, mailsOf_append]
        simpa [mailsOf] using (h.say before).delivered
    | login hphase hmode hanswer hrejected =>
        rw [Dialogue.heard, mailsOf_append]
        simpa [mailsOf] using (h.say before).delivered

end Dialogue

namespace Session

variable {π H : Type} [Transport π] [Handler H] [Base64]

/-- If the next line is a DATA command that the session accepts, then the current
mail has a recipient. -/
def DataAfterRecipient (session : Session π H) : Prop :=
  ∀ line read, readLine session = .ok (some line) read → Command.parse line = .ok .data →
    session.state.phase = .envelope → session.isAuthenticated = true →
    session.state.currentMail.Addressed

omit [Transport π] [Handler H] [Base64] in
/-- Programs that only speak keep the phase. -/
theorem Says.keeps_phase {α : Type} {program : SessionM π H α} (h : Says program)
    {session : Session π H} {phase : Phase} (hphase : session.state.phase = phase) :
    Sat program session (fun _ after => after.state.phase = phase) (fun _ _ => True) := by
  apply (h session).mono _ fun _ _ _ => trivial
  rintro _ after ⟨replies, hreplies⟩
  have hsame : after.state.phase = session.state.phase := congrArg (·.state.phase) hreplies
  rw [hsame, hphase]

/-- In the envelope phase no command but DATA starts the data. -/
theorem handleCommand_envelope {command : Command} (hcommand : command ≠ .data)
    {session : Session π H} (hphase : session.state.phase = .envelope) :
    Sat (handleCommand command) session (fun _ after => after.state.phase ≠ .data)
      (fun _ _ => True) := by
  have hstays : ∀ {program : SessionM π H Unit} {control : Control},
      Sat program session (fun _ after => after.state.phase = .envelope) (fun _ _ => True) →
      Sat (do program; return control) session (fun _ after => after.state.phase ≠ .data)
        (fun _ _ => True) := by
    intro program control h
    refine .bind h ?_
    intro _ after henvelope hdata
    cases henvelope.symm.trans hdata
  -- commands that are out of sequence here are refused
  have hsequence : ∀ {program : SessionM π H Unit}, program session = reply .badSequence session →
      Sat program session (fun _ after => after.state.phase = .envelope) (fun _ _ => True) :=
    fun heq => .of_eq heq ((Says.reply .badSequence).keeps_phase hphase)
  cases command with
  | hello domain extended =>
      exact hstays (hsequence (by simp [hello, SessionState.inPhase, hphase]))
  | help => exact hstays (Says.help.keeps_phase hphase)
  | startTls =>
      apply hstays
      apply Sat.bind (Says.supportsTls.keeps_phase hphase)
      rintro (_ | _) after hafter
      · exact (Says.reply _).keeps_phase hafter
      · apply Sat.get_bind
        rw [if_pos (by simp [SessionState.inPhase, hafter])]
        exact (Says.reply _).keeps_phase hafter
  | authenticate method initial =>
      exact hstays (hsequence (by simp [authenticate, SessionState.inPhase, hphase]))
  | mail sender =>
      exact hstays (hsequence (by simp [mail, inTransaction, SessionState.inPhase, hphase]))
  | recipient address =>
      apply hstays
      apply Sat.get_bind
      split
      · exact (Says.reply _).keeps_phase hphase
      · split
        · exact (Says.reply _).keeps_phase hphase
        · apply Sat.modify_bind
          exact (Says.reply _).keeps_phase hphase
  | data => exact absurd rfl hcommand
  | reset =>
      have hreset : Sat (reset : SessionM π H Unit) session
          (fun _ after => after.state.phase = .connected) (fun _ _ => True) := by
        apply Sat.modify_bind
        apply Sat.bind ((Says.reply _).keeps_phase rfl)
        intro _ after hafter
        exact hafter
      refine .bind hreset ?_
      intro _ after hafter hdata
      cases hafter.symm.trans hdata
  | noOp => exact hstays ((Says.reply _).keeps_phase hphase)
  | quit => exact hstays ((Says.reply _).keeps_phase hphase)

theorem handleLine_envelope {line : Bytes} (hline : Command.parse line ≠ .ok .data)
    {session : Session π H} (hphase : session.state.phase = .envelope) :
    Sat (handleLine line) session (fun _ after => after.state.phase ≠ .data) (fun _ _ => True) := by
  apply Sat.get_bind
  rw [if_neg (by simp [SessionState.inPhase, hphase])]
  unfold commandLine
  split
  next command hparse =>
    refine handleCommand_envelope (fun hcommand => ?_) hphase
    rw [hparse, hcommand] at hline
    exact hline rfl
  next error hparse =>
    apply Sat.bind ((Says.reply _).keeps_phase hphase)
    intro _ after hafter hdata
    cases hafter.symm.trans hdata

/-- One turn of a session that sends DATA only behind a recipient. -/
theorem iteration_addressed {session : Session π H} (h : session.dialogue.Addressed)
    (hdata : session.DataAfterRecipient) :
    (iteration session).Holds (fun after => after.dialogue.Addressed)
      (fun after => ∀ mail ∈ mailsOf after.log, mail.Addressed) := by
  have hrefines := iteration_refines session
  have hstart : ∀ after, iteration session = .running after → after.state.phase = .data →
      session.state.phase = .envelope → session.isAuthenticated = true →
      session.state.currentMail.Addressed := by
    intro after hrun hphase henvelope hallowed
    obtain ⟨line, read, connection, hread, hsame, hhandle⟩ := iteration_running hrun
    by_cases hline : Command.parse line = .ok .data
    · exact hdata line read hread hline henvelope hallowed
    · have henvelope' : read.state.phase = .envelope := by
        rw [hsame]
        exact henvelope
      exact absurd hphase ((handleLine_envelope hline henvelope').of_ok hhandle)
  cases hrun : iteration session with
  | running after =>
      rw [hrun] at hrefines
      exact h.turn hrefines (hstart after hrun)
  | stopped after result =>
      rw [hrun] at hrefines
      exact h.close hrefines

instance (session : Session π H) : Decidable session.DataAfterRecipient :=
  match h : readLine session with
  | .ok (some line) read =>
      decidable_of_iff (Command.parse line = .ok .data → session.state.phase = .envelope →
          session.isAuthenticated = true → session.state.currentMail.Addressed)
        ⟨fun hline line' read' hread => by
          rw [h] at hread
          cases hread
          exact hline, fun hdata => hdata line read h⟩
  | .ok none _ => .isTrue fun line read hread => by
      rw [h] at hread
      cases hread
  | .error _ _ => .isTrue fun line read hread => by
      rw [h] at hread
      cases hread

/-- For every handler, configuration and connection: as long as each DATA command
that the session accepts finds a recipient, no mail is captured without one, and
none is handed over. -/
theorem mails_addressed (connection : Connection π) (config : SessionConfig H) (turns : Nat)
    (hdata : ∀ count < turns,
      (handle count (new connection config)).Holds DataAfterRecipient fun _ => True) :
    (∀ mail ∈ mailsOf (handle turns (new connection config)).state.log, mail.Addressed) ∧
      (handle turns (new connection config)).Holds
        (fun session => session.state.phase = .data → session.state.currentMail.Addressed)
        fun _ => True := by
  have hnew : (new connection config).dialogue.Addressed :=
    ⟨fun hphase => (by cases hphase), List.forall_mem_nil _⟩
  have hgreet : (greet (new connection config)).Holds (fun after => after.dialogue.Addressed)
      (fun after => ∀ mail ∈ mailsOf after.log, mail.Addressed) := by
    refine (greet_said _).mono ?_ ?_
    · rintro after ⟨replies, hreplies⟩
      rw [hreplies]
      exact hnew.say replies
    · rintro after ⟨replies, hreplies⟩
      have hlog : after.log = ((new connection config).dialogue.say replies).log :=
        congrArg (·.log) hreplies
      rw [hlog, Dialogue.mailsOf_say]
      exact hnew.delivered
  have hrun := Flow.iterate_holds_along (fun _ => iteration_addressed) hgreet turns hdata
  change (handle turns (new connection config)).Holds _ _ at hrun
  cases hflow : handle turns (new connection config) with
  | running after =>
      rw [hflow] at hrun
      exact ⟨hrun.delivered, hrun.captured⟩
  | stopped after result =>
      rw [hflow] at hrun
      exact ⟨hrun, trivial⟩

end Session

/-- A client that names a recipient before its data. -/
def addressingClient : Wire :=
  ⟨[ascii "HELO c\r\nMAIL FROM:<a@b>\r\nRCPT TO:<c@d>\r\nDATA\r\nx\r\n.\r\n"], [], by decide,
    Wire.noChunks⟩

/-- A client that names none. -/
def hastyClient : Wire :=
  ⟨[ascii "HELO c\r\nMAIL FROM:<a@b>\r\nDATA\r\nx\r\n.\r\n"], [], by decide, Wire.noChunks⟩

section Sample

attribute [local instance] sampleBase64

/-- Its mail is handed over, to the recipient that it named. -/
theorem Session.mails_addressed_client :
    mailsOf (handle 6 (new (.newPlain addressingClient none)
        (⟨(), "s".toList, .none, 100⟩ : SessionConfig Unit))).state.log ≠ [] ∧
      ∀ mail ∈ mailsOf (handle 6 (new (.newPlain addressingClient none)
        (⟨(), "s".toList, .none, 100⟩ : SessionConfig Unit))).state.log, mail.Addressed :=
  ⟨by decide +kernel, (mails_addressed (.newPlain addressingClient none)
    ⟨(), "s".toList, .none, 100⟩ 6 (by decide +kernel)).1⟩

/-- Its mail is captured and handed over without a recipient. -/
theorem Session.mail_without_recipient :
    let flow := fun turns => handle turns (new (.newPlain hastyClient none)
      (⟨(), "s".toList, .none, 100⟩ : SessionConfig Unit))
    (flow 3).state.state.phase = .data ∧ ¬ (flow 3).state.state.currentMail.Addressed ∧
      ¬ ∀ mail ∈ mailsOf (flow 5).state.log, mail.Addressed := by
  decide +kernel

end Sample

end PostGraph.Smtp
