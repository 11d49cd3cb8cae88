import PostGraph.Smtp.Execution

/-! # The end of data

In the data phase a session captures line after line, a line ending at its LF.
It leaves the phase at the first line that is a dot and a line ending, CRLF or
LF, and calls the handler then and not before. Until then it executes nothing
of what it receives: it captures, or it ends with an error.
-/

namespace PostGraph.Smtp

open Foundation Foundation.Framing

theorem EndsData.isLine {line : Bytes} (h : EndsData line) : IsLine line := by
  rcases h with rfl | rfl
  · exact ⟨ascii ".\r", by decide, rfl⟩
  · exact ⟨ascii ".", by decide, rfl⟩

theorem EndsData.length_le {line : Bytes} (h : EndsData line) : line.length ≤ maxLineLength := by
  rcases h with rfl | rfl <;> decide

/-- Lines that are data. -/
def DataLines (lines : List Bytes) : Prop := ∀ line ∈ lines, IsLine line ∧ ¬ EndsData line

theorem DataLines.cons {line : Bytes} {lines : List Bytes} (hline : IsLine line)
    (hdata : ¬ EndsData line) (h : DataLines lines) : DataLines (line :: lines) := by
  intro other hother
  rcases List.mem_cons.mp hother with rfl | hother
  · exact ⟨hline, hdata⟩
  · exact h other hother

namespace Session

variable {H : Type} [Handler H] [Base64]

/-- The session captures data, and has done nothing else since. -/
def Capturing (start session : Session Wire H) : Prop :=
  session.state.phase = .data ∧ session.log = start.log

/-- The handler took one more mail, with data added to what was captured. -/
def Took (start session : Session Wire H) (data : Bytes) : Prop :=
  session.state.phase = .greeted ∧
    mailsOf session.log = mailsOf start.log ++ [start.state.currentMail.appendData data]

/-- The session ended with an error in the data phase, and since has only replied,
if anything, that the data is too long. -/
structure Aborted (start session : Session Wire H) (result : Except Error Unit) : Prop where
  phase : session.state.phase = .data
  error : ∃ error, result = .error error
  log : session.log = start.log ∨ session.log = start.log ++ [.reply .dataTooLong]

omit [Handler H] [Base64] in
theorem Aborted.of_log_eq {start middle session : Session Wire H} {result : Except Error Unit}
    (h : middle.Aborted session result) (hlog : middle.log = start.log) :
    start.Aborted session result :=
  ⟨h.phase, h.error, hlog ▸ h.log⟩

/-- What one line does in the data phase. -/
theorem iteration_dataLine {session : Session Wire H} {line rest : Bytes}
    (hphase : session.state.phase = .data) (hline : IsLine line)
    (hdelivers : session.Delivers (line ++ rest)) :
    (iteration session).HoldsWith
      (fun after => after.Delivers rest ∧
        if EndsData line then session.Took after []
        else session.Capturing after ∧
          after.state.currentMail = session.state.currentMail.appendData (unstuff line))
      session.Aborted := by
  by_cases hlength : line.length ≤ maxLineLength
  · obtain ⟨connection, hturn, hpending, -⟩ := turn_line hline hlength hdelivers
    rw [iteration, hturn]
    by_cases hend : EndsData line
    · rw [handleLine_end _ _ _ _ hphase hend]
      simp only [hend, if_true]
      refine ⟨⟨connection, rfl, hpending⟩, rfl, ?_⟩
      simp [delivered, mailsOf, Mail.appendData]
    · by_cases hsize : session.state.currentMail.dataLength + (unstuff line).length ≤
          session.config.maxMessageSize
      · rw [handleLine_capture _ _ _ _ hphase hend hsize]
        simp only [hend, if_false]
        exact ⟨⟨connection, rfl, hpending⟩, ⟨hphase, rfl⟩, rfl⟩
      · rw [handleLine_tooLong _ _ _ _ hphase hend (by omega)]
        exact ⟨hphase, ⟨_, rfl⟩, .inr rfl⟩
  · obtain ⟨connection, hturn⟩ := turn_error hdelivers (nextLine_overlong hline (by omega) rest)
    rw [iteration, hturn]
    exact ⟨hphase, ⟨_, rfl⟩, .inl rfl⟩

theorem iteration_tail {session : Session Wire H} {octets : Bytes}
    (hphase : session.state.phase = .data) (hopen : lf ∉ octets)
    (hdelivers : session.Delivers octets) :
    ∃ after result, iteration session = .stopped after result ∧ session.Aborted after result := by
  rcases nextLine_open hopen with hnone | ⟨error, herror⟩
  · obtain ⟨connection, hread, -⟩ := readLine_ok hdelivers hnone
    refine ⟨{ session with connection := some connection },
      .error (.anyhow "unexpected EOF".toList), ?_, hphase, ⟨_, rfl⟩, .inl rfl⟩
    simp [iteration, turn, hread]
  · obtain ⟨connection, hturn⟩ := turn_error hdelivers herror
    refine ⟨{ session with connection := some connection }, .error error, ?_, hphase, ⟨_, rfl⟩,
      .inl rfl⟩
    simp [iteration, hturn]

/-- Unless an ending line is among the first lines of the stream, a session
that handled as many is still capturing, or has ended with an error. -/
theorem capturing_until_end {session : Session Wire H} {octets : Bytes}
    (hphase : session.state.phase = .data) (hdelivers : session.Delivers octets) (turns : Nat) :
    (∃ body last rest, octets = body.flatten ++ (last ++ rest) ∧ body.length < turns ∧
      DataLines body ∧ EndsData last) ∨
    (Flow.iterate iteration turns (.running session)).HoldsWith session.Capturing
      session.Aborted := by
  induction turns generalizing session octets with
  | zero => exact .inr ⟨hphase, rfl⟩
  | succ turns ih =>
      rw [Flow.iterate_succ]
      by_cases hmem : lf ∈ octets
      · obtain ⟨line, rest, hline, rfl⟩ := exists_line_of_mem hmem
        have hstep := iteration_dataLine hphase hline hdelivers
        by_cases hend : EndsData line
        · exact .inl ⟨[], line, rest, rfl, by simp, by simp [DataLines], hend⟩
        · cases hiteration : iteration session with
          | stopped after result =>
              rw [hiteration] at hstep
              rw [Flow.iterate_stopped]
              exact .inr hstep
          | running after =>
              rw [hiteration] at hstep
              simp only [Flow.HoldsWith, hend, if_false] at hstep
              obtain ⟨hrest, ⟨hphase', hlog⟩, -⟩ := hstep
              rcases ih hphase' hrest with ⟨body, last, rest, rfl, hlength, hbody, hlast⟩ | hholds
              · refine .inl ⟨line :: body, last, rest, by simp, ?_, hbody.cons hline hend, hlast⟩
                rw [List.length_cons]
                omega
              · refine .inr (hholds.mono ?_ fun last result haborted => haborted.of_log_eq hlog)
                rintro last ⟨hdata, hsame⟩
                exact ⟨hdata, hsame.trans hlog⟩
      · obtain ⟨after, result, hiteration, haborted⟩ := iteration_tail hphase hmem hdelivers
        rw [hiteration, Flow.iterate_stopped]
        exact .inr haborted

/-- After as many turns as there are data lines, they are captured. -/
theorem capture_run {session : Session Wire H} {body : List Bytes} {rest : Bytes}
    (hphase : session.state.phase = .data) (hbody : DataLines body)
    (hdelivers : session.Delivers (body.flatten ++ rest)) :
    (Flow.iterate iteration body.length (.running session)).HoldsWith
      (fun after => after.Delivers rest ∧ session.Capturing after ∧
        after.state.currentMail =
          session.state.currentMail.appendData (body.map unstuff).flatten)
      session.Aborted := by
  induction body generalizing session with
  | nil => exact ⟨hdelivers, ⟨hphase, rfl⟩, by simp [Mail.appendData]⟩
  | cons line body ih =>
      obtain ⟨hline, hdata⟩ := hbody line List.mem_cons_self
      have hrest : DataLines body := fun other hother =>
        hbody other (List.mem_cons_of_mem _ hother)
      rw [List.flatten_cons, List.append_assoc] at hdelivers
      have hstep := iteration_dataLine hphase hline hdelivers
      rw [List.length_cons, Flow.iterate_succ]
      cases hiteration : iteration session with
      | stopped after result =>
          rw [hiteration] at hstep
          rw [Flow.iterate_stopped]
          exact hstep
      | running after =>
          rw [hiteration] at hstep
          simp only [Flow.HoldsWith, hdata, if_false] at hstep
          obtain ⟨hafter, ⟨hphase', hlog⟩, hmail⟩ := hstep
          refine (ih hphase' hrest hafter).mono ?_ fun last result haborted =>
            haborted.of_log_eq hlog
          rintro last ⟨hlast, ⟨hdata', hsame⟩, hcaptured⟩
          refine ⟨hlast, ⟨hdata', hsame.trans hlog⟩, ?_⟩
          rw [hcaptured, hmail]
          simp [Mail.appendData]

/-- The session leaves the data phase, and hands the mail over, only at the
first line of the stream that is a dot and a CRLF or LF; what is behind that
line is still pending then. Until then, or if it ends with an error, it has
executed nothing of the stream: its log is as before, but for the reply that the
data is too long. -/
theorem data_until_dot_line {session : Session Wire H} {octets : Bytes}
    (hphase : session.state.phase = .data) (hdelivers : session.Delivers octets) :
    (∀ turns, (∃ body last rest, octets = body.flatten ++ (last ++ rest) ∧ body.length < turns ∧
        DataLines body ∧ EndsData last) ∨
      (Flow.iterate iteration turns (.running session)).HoldsWith session.Capturing
        session.Aborted) ∧
    ∀ body last rest, octets = body.flatten ++ (last ++ rest) → DataLines body → EndsData last →
      (Flow.iterate iteration (body.length + 1) (.running session)).HoldsWith
        (fun after => session.Took after (body.map unstuff).flatten ∧ after.Delivers rest)
        session.Aborted := by
  refine ⟨capturing_until_end hphase hdelivers, ?_⟩
  rintro body last rest rfl hbody hlast
  have hrun := capture_run hphase hbody hdelivers
  rw [Flow.iterate]
  cases hflow : Flow.iterate iteration body.length (.running session) with
  | stopped after result =>
      rw [hflow] at hrun
      exact hrun
  | running middle =>
      rw [hflow] at hrun
      obtain ⟨hmiddle, ⟨hphase', hlog⟩, hcaptured⟩ := hrun
      refine (iteration_dataLine hphase' hlast.isLine hmiddle).mono ?_
        fun after result haborted => haborted.of_log_eq hlog
      rintro after ⟨hafter, htook⟩
      rw [if_pos hlast] at htook
      obtain ⟨hgreeted, hmails⟩ := htook
      refine ⟨⟨hgreeted, ?_⟩, hafter⟩
      rw [hmails, hlog, hcaptured]
      simp [Mail.appendData]

end Session

/-- Data with a dot on a line between bare LFs, and no CRLF, dot and CRLF. Behind
the dot stands what would be a command. -/
def smuggled : Wire :=
  ⟨[ascii "x\n.\nMAIL FROM:<e@f>\r\n"], [], by decide, Wire.noChunks⟩

/-- A client that sends this data in its first mail. -/
def smugglingClient : Wire :=
  ⟨ascii "HELO c\r\nMAIL FROM:<a@b>\r\nRCPT TO:<c@d>\r\nDATA\r\n" :: smuggled.chunks, [],
    by decide, Wire.noChunks⟩

def openConfig : SessionConfig Unit := ⟨(), "s".toList, .none, 100⟩

/-- A session that starts to capture the data. -/
def capturingSample : Session Wire Unit :=
  ⟨some (.newPlain smuggled none), openConfig, ⟨.data, false, .empty⟩, []⟩

theorem Session.data_until_dot_line_sample :
    (Flow.iterate (@iteration _ _ _ _ sampleBase64) 2 (.running capturingSample)).HoldsWith
      (fun after => capturingSample.Took after (ascii "x\n") ∧
        after.Delivers (ascii "MAIL FROM:<e@f>\r\n"))
      capturingSample.Aborted :=
  (@data_until_dot_line _ _ sampleBase64 capturingSample
      (ascii "x\n.\nMAIL FROM:<e@f>\r\n") rfl ⟨_, rfl, by decide⟩).2
    [ascii "x\n"] (ascii ".\n") (ascii "MAIL FROM:<e@f>\r\n") (by decide)
    (DataLines.cons ⟨ascii "x", by decide, rfl⟩ (by decide) (List.forall_mem_nil _))
    (by decide)

/-- The dot between bare LFs ends the data, and what follows is executed. -/
theorem Session.dot_between_bare_line_feeds :
    let run := fun turns => (@handle _ _ _ _ sampleBase64 turns
      (new (.newPlain smugglingClient none) openConfig)).state
    (run 4).state.phase = .data ∧ (run 4).log.getLast? = some (.reply .dataStart) ∧
      ¬ ascii "\r\n.\r\n" <:+: ascii "\r\n" ++ smuggled.chunks.flatten ∧
      mailsOf (run 6).log = [⟨"a@b".toList, ["c@d".toList], ascii "x\n"⟩] ∧
      (run 7).state = ⟨.envelope, false, ⟨"e@f".toList, [], []⟩⟩ := by
  decide +kernel

end PostGraph.Smtp
