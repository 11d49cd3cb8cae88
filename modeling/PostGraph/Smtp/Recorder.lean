import Mathlib.Data.List.ReduceOption
import PostGraph.Smtp.ReadLine

/-! # Recorders

A recorder is a stream that keeps what was written to it. Reading does not
depend on what was written, so lines come from it as they come from the stream
inside.
-/

namespace PostGraph.Smtp

open Foundation Foundation.Framing

/-- A stream with the octets written to it, before and after a TLS handshake. -/
structure Recorder (π : Type) where
  inner : π
  written : Bytes

variable {π : Type}

instance [Transport π] : Transport (Recorder π) where
  read recorder :=
    let (result, inner) := Transport.read recorder.inner
    (result, { recorder with inner })
  writeAll data recorder :=
    match Transport.writeAll data recorder.inner with
    | (.ok (), inner) => (.ok (), ⟨inner, recorder.written ++ data⟩)
    | (.error error, inner) => (.error error, { recorder with inner })
  flush recorder :=
    let (result, inner) := Transport.flush recorder.inner
    (result, { recorder with inner })
  accept acceptor stream :=
    match Transport.accept acceptor ⟨stream.readAhead, stream.inner.inner⟩ with
    | .ok inner => .ok ⟨inner, stream.inner.written⟩
    | .error error => .error error

namespace Connection

def written (connection : Connection (Recorder π)) : Bytes := connection.stream.inner.written

/-- The connection over the stream inside the recorder. -/
def inside : Connection (Recorder π) → Connection π
  | plain stream acceptor => plain ⟨stream.buffer, stream.inner.inner⟩ acceptor
  | tls stream => tls ⟨stream.buffer, stream.inner.inner⟩

/-- The connection after octets were written to it. -/
def record (octets : Bytes) (connection : Connection (Recorder π)) : Connection (Recorder π) :=
  connection.withStream
    { connection.stream with
      inner := ⟨connection.stream.inner.inner, connection.stream.inner.written ++ octets⟩ }

@[simp] theorem record_inside (octets : Bytes) (connection : Connection (Recorder π)) :
    (connection.record octets).inside = connection.inside := by
  cases connection <;> rfl

@[simp] theorem record_written (octets : Bytes) (connection : Connection (Recorder π)) :
    (connection.record octets).written = connection.written ++ octets := by
  cases connection <;> rfl

variable [Transport π]

/-- A fetch takes the same octets from the stream inside. -/
theorem fillBuf_inside (connection : Connection (Recorder π)) :
    connection.inside.fillBuf = (connection.fillBuf.1, connection.fillBuf.2.inside) ∧
      connection.fillBuf.2.written = connection.written := by
  have hstream : ∀ stream : BufReader (Recorder π),
      (⟨stream.buffer, stream.inner.inner⟩ : BufReader π).fillBuf =
          (stream.fillBuf.1, ⟨stream.fillBuf.2.buffer, stream.fillBuf.2.inner.inner⟩) ∧
        stream.fillBuf.2.inner.written = stream.inner.written := by
    rintro ⟨_ | ⟨byte, rest⟩, recorder⟩
    · simp only [BufReader.fillBuf, Transport.read]
      cases Transport.read recorder.inner with
      | mk result inner => cases result <;> exact ⟨rfl, rfl⟩
    · exact ⟨rfl, rfl⟩
  cases connection with
  | plain stream acceptor =>
      obtain ⟨hfill, hwritten⟩ := hstream stream
      refine ⟨?_, hwritten⟩
      rw [fillBuf, inside, Connection.stream, hfill]
      rfl
  | tls stream =>
      obtain ⟨hfill, hwritten⟩ := hstream stream
      refine ⟨?_, hwritten⟩
      rw [fillBuf, inside, Connection.stream, hfill]
      rfl

omit [Transport π] in
theorem consume_inside (connection : Connection (Recorder π)) (length : Nat) :
    (connection.consume length).inside = connection.inside.consume length ∧
      (connection.consume length).written = connection.written := by
  cases connection <;> exact ⟨rfl, rfl⟩

end Connection

theorem readLineWithin_inside [Transport π] (fetches : Nat) (line : Bytes)
    (connection : Connection (Recorder π)) :
    readLineWithin fetches line connection.inside =
        ((readLineWithin fetches line connection).1,
          (readLineWithin fetches line connection).2.inside) ∧
      (readLineWithin fetches line connection).2.written = connection.written := by
  induction fetches generalizing line connection with
  | zero => exact ⟨rfl, rfl⟩
  | succ fetches ih =>
      -- both streams fetch the same octets, so they leave the loop at the same place
      obtain ⟨hfill, hwritten⟩ := connection.fillBuf_inside
      rw [readLineWithin, readLineWithin, hfill]
      cases hresult : connection.fillBuf with
      | mk result after =>
          rw [hresult] at hwritten
          cases result with
          | error error => exact ⟨rfl, hwritten⟩
          | ok buf =>
              obtain ⟨hconsume, hkept⟩ := after.consume_inside (lineOctets buf)
              dsimp only
              split
              · split <;> exact ⟨rfl, hwritten⟩
              · split
                · exact ⟨rfl, hwritten⟩
                · rw [← hconsume]
                  split
                  · exact ⟨rfl, hkept.trans hwritten⟩
                  · obtain ⟨hread, hsame⟩ :=
                      ih (line ++ buf.take (lineOctets buf)) (after.consume (lineOctets buf))
                    exact ⟨hread, hsame.trans (hkept.trans hwritten)⟩

namespace Connection

variable {connection after : Connection (Recorder Wire)}

theorem written_of_read {result : Except Error (Option Bytes)}
    (h : readLineWithin (maxLineLength + 1) [] connection = (result, after)) :
    after.written = connection.written := by
  obtain ⟨-, hwritten⟩ := readLineWithin_inside (maxLineLength + 1) [] connection
  rwa [h] at hwritten

theorem pending_of_line {line : Bytes}
    (h : readLineWithin (maxLineLength + 1) [] connection = (.ok (some line), after)) :
    IsLine line ∧ connection.inside.pending = line ++ after.inside.pending := by
  obtain ⟨hinside, -⟩ := readLineWithin_inside (maxLineLength + 1) [] connection
  obtain ⟨stream, hloop, hwhole⟩ :=
    readLineWithin_wire (maxLineLength + 1) [] connection.inside (by simp) (by simp) (by simp)
  rw [h, hloop, List.nil_append, Prod.mk.injEq] at hinside
  obtain ⟨hnext, hafter⟩ := hinside
  rw [List.nil_append] at hwhole
  exact ⟨nextLine_isLine hnext, by rw [← hwhole line hnext, ← hafter]⟩

theorem pending_of_end
    (h : readLineWithin (maxLineLength + 1) [] connection = (.ok none, after)) :
    connection.inside.pending = [] ∧ after.inside.pending = [] := by
  obtain ⟨hinside, -⟩ := readLineWithin_inside (maxLineLength + 1) [] connection
  obtain ⟨stream, hloop, -⟩ :=
    readLineWithin_wire (maxLineLength + 1) [] connection.inside (by simp) (by simp) (by simp)
  rw [h, hloop, List.nil_append, Prod.mk.injEq] at hinside
  have hempty := nextLine_eq_none hinside.1
  obtain ⟨stream', hend, hpending⟩ := readLineWithin_end hempty maxLineLength
  rw [hloop, Prod.mk.injEq] at hend
  exact ⟨hempty, by rw [← hinside.2, hend.2, hpending]⟩

end Connection

/-! ## What a session reads and writes -/

namespace Response

/-- What a reply writes for the response. -/
def octets (response : Response) : Bytes := Utf8.encode response.line ++ [cr, lf]

end Response

namespace Session

variable {H : Type}

/-- Octets that the client sent and that the session has not consumed. -/
def pending (session : Session (Recorder Wire) H) : Bytes :=
  (session.connection.map (·.inside.pending)).getD []

def written (session : Session (Recorder Wire) H) : Bytes :=
  (session.connection.map (·.written)).getD []

/-- From one session to the other this was read, line by line or at the end of
the stream, and that was written; the rest of what was pending was not read. -/
structure Exchanged (session : Session (Recorder Wire) H) (reads : List (Option Bytes))
    (octets rest : Bytes) (after : Session (Recorder Wire) H) : Prop where
  connected : after.connection.isSome = true
  serverName : after.config.serverName = session.config.serverName
  takes : session.pending = reads.reduceOption.flatten ++ rest
  lines : ∀ line, some line ∈ reads → IsLine line
  ends : none ∈ reads → rest = []
  writes : after.written = session.written ++ octets

theorem Exchanged.refl {session : Session (Recorder Wire) H}
    (hconnected : session.connection.isSome = true) :
    Exchanged session [] [] session.pending session where
  connected := hconnected
  serverName := rfl
  takes := rfl
  lines _ hline := absurd hline List.not_mem_nil
  ends hnone := absurd hnone List.not_mem_nil
  writes := (List.append_nil _).symm

theorem Exchanged.trans {session middle after : Session (Recorder Wire) H}
    {reads reads' : List (Option Bytes)} {octets octets' rest : Bytes}
    (h : Exchanged session reads octets middle.pending middle)
    (h' : Exchanged middle reads' octets' rest after) :
    Exchanged session (reads ++ reads') (octets ++ octets') rest after where
  connected := h'.connected
  serverName := h'.serverName.trans h.serverName
  takes := by rw [h.takes, h'.takes, List.reduceOption_append, List.flatten_append,
    List.append_assoc]
  lines line hline := (List.mem_append.mp hline).elim (h.lines line) (h'.lines line)
  ends hnone := by
    rcases List.mem_append.mp hnone with hfirst | hsecond
    · have hempty := h'.takes
      rw [h.ends hfirst] at hempty
      exact (List.append_eq_nil_iff.mp hempty.symm).2
    · exact h'.ends hsecond
  writes := by rw [h'.writes, h.writes, List.append_assoc]

/-- A session that differs in nothing that was read or written. -/
theorem Exchanged.of_same {session after : Session (Recorder Wire) H}
    (hconnected : session.connection.isSome = true)
    (hconnection : after.connection = session.connection)
    (hname : after.config.serverName = session.config.serverName) :
    Exchanged session [] [] after.pending after where
  connected := by rw [hconnection, hconnected]
  serverName := hname
  takes := by simp [pending, hconnection]
  lines _ hline := absurd hline List.not_mem_nil
  ends hnone := absurd hnone List.not_mem_nil
  writes := by simp [written, hconnection]

/-- The program returns with `ok` or fails with `err` of what it read and wrote. -/
def Talks {α : Type} (program : SessionM (Recorder Wire) H α)
    (session : Session (Recorder Wire) H) (ok : α → List (Option Bytes) → Bytes → Prop)
    (err : List (Option Bytes) → Bytes → Prop) : Prop :=
  Sat program session
    (fun a after => ∃ reads octets,
      Exchanged session reads octets after.pending after ∧ ok a reads octets)
    (fun _ after => ∃ reads octets rest,
      Exchanged session reads octets rest after ∧ err reads octets)

namespace Talks

variable {α β : Type} {session : Session (Recorder Wire) H}
variable {ok : α → List (Option Bytes) → Bytes → Prop} {err : List (Option Bytes) → Bytes → Prop}

theorem pure {a : α} (hconnected : session.connection.isSome = true) (h : ok a [] []) :
    Talks (Pure.pure a) session ok err :=
  ⟨[], [], .refl hconnected, h⟩

theorem throw {error : Error} (hconnected : session.connection.isSome = true) (h : err [] []) :
    Talks (MonadExcept.throw error : SessionM (Recorder Wire) H α) session ok err :=
  ⟨[], [], _, .refl hconnected, h⟩

theorem mono {program : SessionM (Recorder Wire) H α}
    {ok' : α → List (Option Bytes) → Bytes → Prop} {err' : List (Option Bytes) → Bytes → Prop}
    (h : Talks program session ok err)
    (hok : ∀ a reads octets, ok a reads octets → ok' a reads octets)
    (herr : ∀ reads octets, err reads octets → err' reads octets) :
    Talks program session ok' err' := by
  apply Sat.mono h
  · rintro a after ⟨reads, octets, hexchanged, h⟩
    exact ⟨reads, octets, hexchanged, hok a reads octets h⟩
  · rintro error after ⟨reads, octets, rest, hexchanged, h⟩
    exact ⟨reads, octets, rest, hexchanged, herr reads octets h⟩

/-- One program after the other. What the second one reads and writes comes
behind what the first one did. -/
theorem bind {program : SessionM (Recorder Wire) H α} {next : α → SessionM (Recorder Wire) H β}
    {okNext : β → List (Option Bytes) → Bytes → Prop} (h : Talks program session ok err)
    (hnext : ∀ a reads octets after, Exchanged session reads octets after.pending after →
      ok a reads octets →
      Talks (next a) after (fun b reads' octets' => okNext b (reads ++ reads') (octets ++ octets'))
        (fun reads' octets' => err (reads ++ reads') (octets ++ octets'))) :
    Talks (program >>= next) session okNext err := by
  apply Sat.bind h
  rintro a middle ⟨reads, octets, hexchanged, hok⟩
  apply Sat.mono (hnext a reads octets middle hexchanged hok)
  · rintro b after ⟨reads', octets', hexchanged', hok'⟩
    exact ⟨_, _, hexchanged.trans hexchanged', hok'⟩
  · rintro error after ⟨reads', octets', rest, hexchanged', herr'⟩
    exact ⟨_, _, rest, hexchanged.trans hexchanged', herr'⟩

/-- A program after a change that the connection does not depend on. -/
theorem of_same {program other : SessionM (Recorder Wire) H α}
    {changed : Session (Recorder Wire) H} (heq : program session = other changed)
    (hconnected : session.connection.isSome = true)
    (hconnection : changed.connection = session.connection)
    (hname : changed.config.serverName = session.config.serverName)
    (h : Talks other changed ok err) : Talks program session ok err := by
  have hsame := Exchanged.of_same hconnected hconnection hname
  unfold Talks Sat at h ⊢
  rw [heq]
  split at h
  · obtain ⟨reads, octets, hexchanged, hok⟩ := h
    exact ⟨_, _, hsame.trans hexchanged, hok⟩
  · obtain ⟨reads, octets, rest, hexchanged, herr⟩ := h
    exact ⟨_, _, rest, hsame.trans hexchanged, herr⟩

/-- A program, and then one that neither reads nor writes. -/
theorem then_quiet {program : SessionM (Recorder Wire) H α}
    {next : SessionM (Recorder Wire) H β} {b : β} {ok : List (Option Bytes) → Bytes → Prop}
    {change : Session (Recorder Wire) H → Session (Recorder Wire) H}
    (h : Talks program session (fun _ => ok) err)
    (hnext : ∀ after, next after = .ok b (change after))
    (hconnection : ∀ after, (change after).connection = after.connection)
    (hname : ∀ after, (change after).config.serverName = after.config.serverName) :
    Talks (program >>= fun _ => next) session (fun _ => ok) err := by
  apply h.bind
  intro _ reads octets after hexchanged hok
  have hquiet : Talks (Pure.pure b : SessionM (Recorder Wire) H β) (change after)
      (fun _ reads' octets' => ok (reads ++ reads') (octets ++ octets'))
      (fun reads' octets' => err (reads ++ reads') (octets ++ octets')) := by
    apply pure
    · rw [hconnection, hexchanged.connected]
    · simpa using hok
  exact of_same (hnext after) hexchanged.connected (hconnection after) (hname after) hquiet

theorem get_bind {next : Session (Recorder Wire) H → SessionM (Recorder Wire) H α}
    (h : Talks (next session) session ok err) : Talks (get >>= next) session ok err := h

theorem modify_bind {change : Session (Recorder Wire) H → Session (Recorder Wire) H}
    {next : PUnit → SessionM (Recorder Wire) H α} (hconnected : session.connection.isSome = true)
    (hconnection : (change session).connection = session.connection)
    (hname : (change session).config.serverName = session.config.serverName)
    (h : Talks (next ()) (change session) ok err) :
    Talks (modify change >>= next) session ok err := by
  have heq : (modify change >>= next) session = next () (change session) := rfl
  exact of_same heq hconnected hconnection hname h

theorem callHandler_bind {callback : H → β × H} {event : β → Event}
    {next : β → SessionM (Recorder Wire) H α} (hconnected : session.connection.isSome = true)
    (h : Talks (next (callback session.config.handler).1)
      { session with
        config := { session.config with handler := (callback session.config.handler).2 }
        log := session.log ++ [event (callback session.config.handler).1] } ok err) :
    Talks (callHandler callback event >>= next) session ok err := by
  have heq : (callHandler callback event >>= next) session =
      next (callback session.config.handler).1
        { session with
          config := { session.config with handler := (callback session.config.handler).2 }
          log := session.log ++ [event (callback session.config.handler).1] } := rfl
  exact of_same heq hconnected rfl rfl h

theorem supportsTls_apply {connection : Connection (Recorder Wire)}
    (h : session.connection = some connection) :
    supportsTls session = .ok connection.supportsTls session := by
  rw [supportsTls, bind_apply]
  simp only [get_apply, h, pure_apply]

theorem supportsTls_bind {next : Bool → SessionM (Recorder Wire) H α}
    (hconnected : session.connection.isSome = true)
    (h : ∀ supported, Talks (next supported) session ok err) :
    Talks (supportsTls >>= next) session ok err := by
  cases hconnection : session.connection with
  | none => rw [hconnection] at hconnected; cases hconnected
  | some connection =>
      have heq : (supportsTls >>= next) session = next connection.supportsTls session := by
        rw [bind_apply, supportsTls_apply hconnection]
      exact of_same heq hconnected rfl rfl (h connection.supportsTls)

theorem reply_apply {connection : Connection (Recorder Wire)} (response : Response)
    (h : session.connection = some connection) :
    Session.reply response session = .ok ()
      { session with
        connection := some (connection.record response.octets)
        log := session.log ++ [.reply response] } := by
  obtain ⟨_, config, state, log⟩ := session
  cases h
  cases connection <;> rfl

theorem reply (response : Response) (hconnected : session.connection.isSome = true)
    {ok : Unit → List (Option Bytes) → Bytes → Prop} (h : ok () [] response.octets) :
    Talks (Session.reply response) session ok err := by
  obtain ⟨connection, hconnection⟩ := Option.isSome_iff_exists.mp hconnected
  unfold Talks Sat
  rw [reply_apply response hconnection]
  refine ⟨[], _, ⟨rfl, rfl, ?_, by simp, by simp, ?_⟩, h⟩
  · simp [pending, hconnection]
  · simp [written, hconnection]

theorem readLine (hconnected : session.connection.isSome = true)
    {ok : Option Bytes → List (Option Bytes) → Bytes → Prop} (hok : ∀ line, ok line [line] [])
    (herr : err [] []) : Talks Session.readLine session ok err := by
  obtain ⟨connection, config, state, log⟩ := session
  cases connection with
  | none => cases hconnected
  | some connection =>
      unfold Talks Sat
      cases hresult : readLineWithin (maxLineLength + 1) [] connection with
      | mk result after =>
          have hwritten := connection.written_of_read hresult
          cases result with
          | error error =>
              have hread : Session.readLine (⟨some connection, config, state, log⟩ : Session _ H) =
                  .error error ⟨some after, config, state, log⟩ := by
                simp only [Session.readLine, onConnection, hresult]
              rw [hread]
              exact ⟨[], [], _,
                ⟨rfl, rfl, rfl, by simp, by simp, by simp [written, hwritten]⟩, herr⟩
          | ok line =>
              have hread : Session.readLine (⟨some connection, config, state, log⟩ : Session _ H) =
                  .ok line ⟨some after, config, state, log⟩ := by
                simp only [Session.readLine, onConnection, hresult]
              rw [hread]
              refine ⟨[line], [], ⟨rfl, rfl, ?_, ?_, ?_, by simp [written, hwritten]⟩, hok line⟩
              · cases line with
                | none =>
                    obtain ⟨hbefore, hafter⟩ := connection.pending_of_end hresult
                    simp [pending, hbefore, hafter]
                | some line =>
                    obtain ⟨-, hrest⟩ := connection.pending_of_line hresult
                    simp [pending, hrest]
              · intro whole hwhole
                cases List.mem_singleton.mp hwhole
                exact (connection.pending_of_line hresult).1
              · intro hnone
                cases List.mem_singleton.mp hnone
                exact (connection.pending_of_end hresult).2

end Talks

end Session

end PostGraph.Smtp
