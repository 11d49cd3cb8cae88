import PostGraph.Smtp.Refinement
import PostGraph.Smtp.Transcript

/-! # The limit on the size of mails

A session compares each data line, without a stuffed dot, with the room that is
left. Outside the data phase nothing is captured, so the lines of one message
decide alone whether it fits.
-/

namespace PostGraph.Smtp

open Foundation Foundation.Framing

namespace Dialogue

variable {H : Type} [Handler H]

/-- The captured data and all mails are within the limit, and data is captured
in the data phase only. -/
structure Sized (limit : Nat) (d : Dialogue H) : Prop where
  limit_eq : d.config.maxMessageSize = limit
  captured : d.state.currentMail.dataLength ≤ limit
  outside : d.state.phase ≠ .data → d.state.currentMail.data = []
  delivered : ∀ mail ∈ mailsOf d.log, mail.dataLength ≤ limit

variable {limit : Nat}

omit [Handler H] in
theorem Sized.say {d : Dialogue H} (h : Sized limit d) (replies : List Response) :
    Sized limit (d.say replies) where
  limit_eq := h.limit_eq
  captured := h.captured
  outside := h.outside
  delivered := by
    rw [Dialogue.say, mailsOf_append, mailsOf_replies, List.append_nil]
    exact h.delivered

omit [Handler H] in
/-- The dialogue after a callback that is no mail. -/
theorem Sized.heard {d : Dialogue H} (h : Sized limit d) (handler : H) {event : Event}
    (hevent : mailsOf [event] = []) : Sized limit (d.heard handler event) where
  limit_eq := h.limit_eq
  captured := h.captured
  outside := h.outside
  delivered := by
    rw [Dialogue.heard, mailsOf_append, hevent, List.append_nil]
    exact h.delivered

omit [Handler H] in
/-- A new state of the session whose mail has no data yet. -/
theorem Sized.withState {d : Dialogue H} (h : Sized limit d) {state : SessionState}
    (hdata : state.currentMail.data = []) : Sized limit { d with state } where
  limit_eq := h.limit_eq
  captured := by
    dsimp only
    rw [Mail.dataLength, hdata]
    exact Nat.zero_le limit
  outside _ := hdata
  delivered := h.delivered

theorem Sized.act {d d' : Dialogue H} (h : Sized limit d) (hact : Act d d') : Sized limit d' := by
  have houtside : ∀ phase, d.state.phase = phase → phase ≠ .data →
      d.state.currentMail.data = [] :=
    fun phase hphase hne => h.outside (hphase ▸ hne)
  cases hact with
  | greet hphase hanswer =>
      exact (h.heard _ rfl).withState (houtside _ hphase (by decide))
  | secure hphase hsecurity =>
      have hheard := h.heard d.config.handler (rfl : mailsOf [.startTls] = [])
      exact ⟨h.limit_eq, Nat.zero_le limit, fun _ => rfl, hheard.delivered⟩
  | logIn hphase hmode hanswer =>
      exact (h.heard _ rfl).withState (houtside _ hphase (by decide))
  | mail sender hphase hallowed => exact h.withState rfl
  | recipient address hphase hallowed => exact h.withState (houtside _ hphase (by decide))
  | data hphase hallowed => exact h.withState (houtside _ hphase (by decide))
  | capture line hphase hsize =>
      refine ⟨h.limit_eq, ?_, fun hne => absurd hphase hne, h.delivered⟩
      rw [h.limit_eq] at hsize
      simpa [withMail, Mail.dataLength, Mail.appendData] using hsize
  | deliver hphase hanswer =>
      refine ⟨h.limit_eq, Nat.zero_le limit, fun _ => rfl, ?_⟩
      intro mail hmail
      rcases List.mem_append.mp (mailsOf_append .. ▸ hmail) with hmail | hmail
      · exact h.delivered mail hmail
      · rw [List.mem_singleton.mp hmail]
        exact h.captured
  | reset hanswer => exact (h.heard _ rfl).withState rfl

theorem Sized.parting {d d' : Dialogue H} (h : Sized limit d) (hparting : Parting d d') :
    Sized limit d' := by
  cases hparting with
  | hello hphase hanswer hrejected => exact h.heard _ rfl
  | login hphase hmode hanswer hrejected => exact h.heard _ rfl

theorem sized_invariant (limit : Nat) : Invariant (Sized limit : Dialogue H → Prop)
    (fun _ log => ∀ mail ∈ mailsOf log, mail.dataLength ≤ limit) where
  say replies hd := hd.say replies
  act hd hact := hd.act hact
  parting hd hparting := (hd.parting hparting).delivered
  ended_of_live hd := hd.delivered
  ended_say replies hended := by
    rw [mailsOf_append, mailsOf_replies, List.append_nil]
    exact hended

/-- A turn that starts the data keeps the mail as it is. -/
theorem Turn.currentMail_eq {d d' : Dialogue H} (h : Turn d d') (hbefore : d.state.phase ≠ .data)
    (hafter : d'.state.phase = .data) : d'.state.currentMail = d.state.currentMail := by
  obtain ⟨start, middle, ⟨before, rfl⟩, rfl | hact, ⟨after, rfl⟩⟩ := h
  · rfl
  · cases hact with
    | greet hphase hanswer => cases hafter
    | secure hphase hsecurity => cases hafter
    | logIn hphase hmode hanswer => rfl
    | mail sender hphase hallowed => cases hafter
    | recipient address hphase hallowed => cases hphase.symm.trans hafter
    | data hphase hallowed => rfl
    | capture line hphase hsize => exact absurd hphase hbefore
    | deliver hphase hanswer => cases hafter
    | reset hanswer => cases hafter

end Dialogue

namespace Session

variable {H : Type} [Handler H] [Base64]

/-- The session has refused the message and is over. -/
def Refused (start : Session Wire H) (flow : Flow (Session Wire H) (Except Error Unit)) : Prop :=
  ∃ after, flow = .stopped after (.error (.anyhow "message data was too long.".toList)) ∧
    after.log = start.log ++ [.reply .dataTooLong]

/-- The handler has taken the message, with data added to what was captured. -/
def Accepted (start : Session Wire H) (data : Bytes)
    (flow : Flow (Session Wire H) (Except Error Unit)) : Prop :=
  ∃ after, flow = .running after ∧ start.Took after data

theorem capture_overflow {session : Session Wire H} {body : List Bytes} {rest : Bytes}
    (hbody : DataLines body) (hlength : ∀ line ∈ body, line.length ≤ maxLineLength)
    (hdelivers : session.Delivers (body.flatten ++ rest)) (hphase : session.state.phase = .data)
    (hfits : session.state.currentMail.dataLength ≤ session.config.maxMessageSize)
    (hsize : session.config.maxMessageSize <
      session.state.currentMail.dataLength + (body.map unstuff).flatten.length) :
    session.Refused (Flow.iterate iteration body.length (.running session)) := by
  induction body generalizing session with
  | nil =>
      rw [List.map_nil, List.flatten_nil, List.length_nil] at hsize
      omega
  | cons line body ih =>
      obtain ⟨hline, hdata⟩ := hbody line List.mem_cons_self
      rw [List.flatten_cons, List.append_assoc] at hdelivers
      simp only [List.map_cons, List.flatten_cons, List.length_append] at hsize
      rw [List.length_cons, Flow.iterate_succ]
      obtain ⟨connection, hturn, hpending, -⟩ :=
        turn_line hline (hlength line List.mem_cons_self) hdelivers
      -- either this line is refused, or it is captured and the rest is too long
      by_cases hroom : session.state.currentMail.dataLength + (unstuff line).length ≤
          session.config.maxMessageSize
      · rw [handleLine_capture _ _ _ _ hphase hdata hroom] at hturn
        rw [iteration_next hturn]
        have hbody' : DataLines body := fun other hother =>
          hbody other (List.mem_cons_of_mem _ hother)
        have hlength' : ∀ other ∈ body, other.length ≤ maxLineLength := fun other hother =>
          hlength other (List.mem_cons_of_mem _ hother)
        refine @ih ⟨some connection, session.config,
            { session.state with
              currentMail := session.state.currentMail.appendData (unstuff line) }, session.log⟩
          hbody' hlength' ⟨connection, rfl, hpending⟩ hphase ?_ ?_
        · simpa [Mail.dataLength, Mail.appendData] using hroom
        · simpa [Mail.dataLength, Mail.appendData, Nat.add_assoc] using hsize
      · rw [handleLine_tooLong _ _ _ _ hphase hdata (by omega)] at hturn
        rw [iteration, hturn, Flow.iterate_stopped]
        exact ⟨_, rfl, rfl⟩

/-- A session that starts to capture refuses the message exactly if its body,
without the stuffed dots, is longer than the limit, and takes it otherwise. -/
theorem refused_iff {session : Session Wire H} {body : List Bytes} {last rest : Bytes}
    (hphase : session.state.phase = .data) (hempty : session.state.currentMail.data = [])
    (hdelivers : session.Delivers (body.flatten ++ (last ++ rest))) (hbody : DataLines body)
    (hlength : ∀ line ∈ body, line.length ≤ maxLineLength) (hlast : EndsData last) :
    let flow := Flow.iterate iteration (body.length + 1) (.running session)
    (session.Refused flow ↔ session.config.maxMessageSize < (body.map unstuff).flatten.length) ∧
      ((body.map unstuff).flatten.length ≤ session.config.maxMessageSize →
        session.Accepted (body.map unstuff).flatten flow) := by
  have hnone : session.state.currentMail.dataLength = 0 := by rw [Mail.dataLength, hempty]; rfl
  have haccepted : (body.map unstuff).flatten.length ≤ session.config.maxMessageSize →
      session.Accepted (body.map unstuff).flatten
        (Flow.iterate iteration (body.length + 1) (.running session)) := by
    intro hfits
    obtain ⟨middle, hmiddle⟩ := proceeds_capture hbody hlength hdelivers hphase (by omega)
    obtain ⟨after, hafter⟩ := proceeds_end hlast hmiddle.delivers (by rw [hmiddle.state_eq, hphase])
    have hall := hmiddle.trans hafter
    refine ⟨after, hall.run, by rw [hall.state_eq], ?_⟩
    rw [hall.log_eq, mailsOf_append, hmiddle.state_eq]
    rfl
  refine ⟨⟨?_, ?_⟩, haccepted⟩
  · rintro ⟨after, hstopped, _⟩
    by_contra hfits
    obtain ⟨taken, hrunning, _⟩ := haccepted (by omega)
    cases hstopped.symm.trans hrunning
  · intro hlong
    obtain ⟨after, hstopped, hlog⟩ := capture_overflow hbody hlength hdelivers hphase
      (by omega) (by omega)
    refine ⟨after, ?_, hlog⟩
    rw [Flow.iterate, hstopped]
    rfl

/-- The limit on the size of mails. For every handler, configuration, connection
and number of lines: neither the mail that is captured nor one that was handed
over is longer than the limit. And for every message of a session, after whatever
came before its DATA, and in any chunks: it is refused exactly if its body is too
long, and handed over otherwise. -/
theorem size_limit (config : SessionConfig H) (turns : Nat) :
    (∀ (π : Type) [Transport π] (connection : Connection π),
      (handle turns (new connection config)).Holds
        (fun session => session.state.currentMail.dataLength ≤ config.maxMessageSize)
        (fun _ => True) ∧
      ∀ mail ∈ mailsOf (handle turns (new connection config)).state.log,
        mail.dataLength ≤ config.maxMessageSize) ∧
    ∀ (connection : Connection Wire) (session start : Session Wire H),
      handle turns (new connection config) = .running session → session.state.phase ≠ .data →
      iteration session = .running start → start.state.phase = .data →
      ∀ body last rest, start.Delivers (body.flatten ++ (last ++ rest)) → DataLines body →
        (∀ line ∈ body, line.length ≤ maxLineLength) → EndsData last →
        let flow := Flow.iterate iteration (body.length + 1) (.running start)
        (start.Refused flow ↔ config.maxMessageSize < (body.map unstuff).flatten.length) ∧
          ((body.map unstuff).flatten.length ≤ config.maxMessageSize →
            start.Accepted (body.map unstuff).flatten flow) := by
  have hnew : ∀ (π : Type) (connection : Connection π),
      Dialogue.Sized config.maxMessageSize (new connection config).dialogue :=
    fun _ _ => ⟨rfl, Nat.zero_le _, fun _ => rfl, List.forall_mem_nil _⟩
  constructor
  · intro π _ connection
    have hholds := handle_holds (Dialogue.sized_invariant _) (hnew π connection) turns
    cases hflow : handle turns (new connection config) with
    | running session =>
        rw [hflow] at hholds
        exact ⟨hholds.captured, hholds.delivered⟩
    | stopped session result =>
        rw [hflow] at hholds
        exact ⟨trivial, hholds⟩
  · intro connection session start hrun hbefore hstart hphase body last rest hdelivers hbody
      hlength hlast
    have hsession := handle_holds (Dialogue.sized_invariant _) (hnew Wire connection) turns
    rw [hrun] at hsession
    have hsized := iteration_holds (Dialogue.sized_invariant _) hsession
    have hturn := iteration_refines session
    rw [hstart] at hsized hturn
    -- DATA keeps the mail of the envelope, which has no data yet
    have hempty : start.state.currentMail.data = [] := by
      have hsame : start.state.currentMail = session.state.currentMail :=
        hturn.currentMail_eq hbefore hphase
      rw [hsame]
      exact hsession.outside hbefore
    have hlimit : start.config.maxMessageSize = config.maxMessageSize := hsized.limit_eq
    have hrefused := refused_iff hphase hempty hdelivers hbody hlength hlast
    rwa [hlimit] at hrefused

end Session

/-- A client whose message has one line. -/
def sizedClient (line : Bytes) : Wire :=
  ⟨[ascii "HELO c\r\nMAIL FROM:<a@b>\r\nRCPT TO:<c@d>\r\nDATA\r\n" ++ (line ++ ascii ".\r\n")], [],
    by simp [ascii], Wire.noChunks⟩

def fourOctets : SessionConfig Unit := ⟨(), "s".toList, .none, 4⟩

section Sample

attribute [local instance] sampleBase64

/-- A session that has read the recipient of that client. -/
def addressedSample (line : Bytes) : Session Wire Unit :=
  (Session.handle 3 (.new (.newPlain (sizedClient line) none) fourOctets)).state

/-- The session behind DATA. -/
def startedSample (line : Bytes) : Session Wire Unit :=
  (Session.iteration (addressedSample line)).state

/-- Of two messages the one of four octets is handed over, and the one of five is refused. -/
theorem Session.size_limit_at_limit :
    (startedSample (ascii "ab\r\n")).Accepted (ascii "ab\r\n")
        (Flow.iterate iteration 2 (.running (startedSample (ascii "ab\r\n")))) ∧
      (startedSample (ascii "abc\r\n")).Refused
        (Flow.iterate iteration 2 (.running (startedSample (ascii "abc\r\n")))) := by
  have hfits := (size_limit fourOctets 3).2 (.newPlain (sizedClient (ascii "ab\r\n")) none)
    (addressedSample (ascii "ab\r\n")) (startedSample (ascii "ab\r\n"))
    (Flow.eq_running (by decide +kernel)) (by decide +kernel)
    (Flow.eq_running (by decide +kernel)) (by decide +kernel)
    [ascii "ab\r\n"] (ascii ".\r\n") [] (.of_pending (by decide +kernel))
    (List.forall_mem_singleton.mpr ⟨⟨ascii "ab\r", by decide, rfl⟩, by decide⟩) (by decide)
    (.inl rfl)
  have hlong := (size_limit fourOctets 3).2 (.newPlain (sizedClient (ascii "abc\r\n")) none)
    (addressedSample (ascii "abc\r\n")) (startedSample (ascii "abc\r\n"))
    (Flow.eq_running (by decide +kernel)) (by decide +kernel)
    (Flow.eq_running (by decide +kernel)) (by decide +kernel)
    [ascii "abc\r\n"] (ascii ".\r\n") [] (.of_pending (by decide +kernel))
    (List.forall_mem_singleton.mpr ⟨⟨ascii "abc\r", by decide, rfl⟩, by decide⟩) (by decide)
    (.inl rfl)
  exact ⟨hfits.2 (by decide), hlong.1.mpr (by decide)⟩

end Sample

end PostGraph.Smtp
