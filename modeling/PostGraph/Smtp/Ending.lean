import PostGraph.Smtp.Chunks

/-! # The end of a session

A session over a finite stream ends by itself, at the latest when it has read every
octet: each line takes some, and nothing brings them back.
-/

namespace PostGraph.Smtp

open Foundation

namespace Connection

/-- What a call of `read_line` returns was pending before. -/
theorem readLine_pending {connection after : Connection Wire} {line : Option Bytes}
    (h : readLineWithin (maxLineLength + 1) [] connection = (.ok line, after)) :
    line.getD [] ++ after.pending = connection.pending ∧ line ≠ some [] := by
  obtain ⟨stream, hloop, hwhole⟩ := readLineWithin_wire (maxLineLength + 1) [] connection
    (by simp) (by simp) (by simp)
  rw [List.nil_append] at hloop hwhole
  have hboth := hloop.symm.trans h
  obtain ⟨hnext, rfl⟩ := Prod.mk.inj hboth
  cases line with
  | none =>
      have hnone := nextLine_eq_none hnext
      obtain ⟨stream', hend, hpending⟩ := readLineWithin_end hnone maxLineLength
      rw [← (Prod.mk.inj (hend.symm.trans h)).2]
      exact ⟨hpending.trans hnone.symm, fun h => by cases h⟩
  | some whole =>
      obtain ⟨body, -, rfl⟩ := nextLine_isLine hnext
      exact ⟨hwhole _ hnext, by simp⟩

theorem run_pending {operation : Operation} {connection after : Connection Wire}
    {answer : operation.Answer} (h : operation.run connection = (.ok answer, after)) :
    after.pending.length ≤ connection.pending.length := by
  cases operation with
  | readLine =>
      rw [← (readLine_pending h).1, List.length_append]
      exact Nat.le_add_left ..
  | write data =>
      cases h
      cases connection <;> exact le_rfl
  | flush =>
      cases h
      cases connection <;> exact le_rfl

/-- After the handshake, what follows it is pending. -/
theorem startTls_octets {connection secured : Connection Wire}
    (h : connection.startTls = .ok secured) :
    secured.pending = connection.securedOctets ∧ secured.securedOctets = [] := by
  unfold startTls at h
  split at h
  · cases h
    exact ⟨rfl, rfl⟩
  · cases h
  · cases h

end Connection

namespace Session

variable {H : Type} [Handler H] [Base64]

omit [Handler H] [Base64] in
/-- How many octets the client may still send, before and after the handshake. -/
def octets (session : Session Wire H) : Nat :=
  session.connection.elim 0 fun connection =>
    connection.pending.length + connection.securedOctets.length

omit [Handler H] [Base64] in
theorem raise_ne {π α : Type} {outcome : Except IoError α × Connection π} {error : Error}
    {after : Connection π} (h : raise outcome = (.error error, after)) : error ≠ .outOfFetches := by
  obtain ⟨result, connection⟩ := outcome
  cases result with
  | error failure =>
      cases h
      exact fun h => by cases h
  | ok a => cases h

omit [Base64] in
/-- No program of a session reports that a loop of its own ran out of its budget. -/
theorem Built.inBudget {π α : Type} [Transport π] {program : SessionM π H α}
    (h : Free program) (session : Session π H) :
    Sat program session (fun _ _ => True) fun error _ => error ≠ .outOfFetches := by
  induction h generalizing session with
  | pure a => exact .pure trivial
  | throw error herror => exact .throw herror
  | bind h hnext ih ihnext => exact .bind (ih session) fun a after _ => ihnext a after
  | observe h hview ih => exact .get_bind (ih session session)
  | operation operation =>
      unfold Sat onConnection
      cases session.connection with
      | none => exact fun h => by cases h
      | some connection =>
          rcases hrun : operation.run connection with ⟨error | answer, after⟩
          · simp only [hrun]
            cases operation with
            | readLine =>
                rintro rfl
                exact readLineWithin_bounded (maxLineLength + 1) [] connection after (by simp)
                  (by simp) hrun
            | write data => exact raise_ne hrun
            | flush => exact raise_ne hrun
          · simp only [hrun]
  | callback callback isTls hevent => exact trivial
  | change change hchanges => exact trivial
  | record response hevent => exact trivial
  | upgrade hevent hchanges =>
      unfold Sat Session.upgrade
      cases session.connection with
      | none => exact fun h => by cases h
      | some connection =>
          dsimp only
          cases connection.startTls with
          | error error => exact fun h => by cases h
          | ok secured => exact trivial

omit [Base64] in
/-- No program of a session brings octets back. -/
theorem Built.shrinks {α : Type} {program : SessionM Wire H α} (h : Free program)
    (session : Session Wire H) :
    Sat program session (fun _ after => after.octets ≤ session.octets) fun _ _ => True := by
  induction h generalizing session with
  | pure a => exact .pure le_rfl
  | throw error herror => exact .throw trivial
  | bind h hnext ih ihnext =>
      exact .bind (ih session) fun a after hafter =>
        (ihnext a after).mono (fun _ _ hlast => hlast.trans hafter) fun _ _ h => h
  | observe h hview ih => exact .get_bind (ih session session)
  | operation operation =>
      unfold Sat onConnection
      cases hconnection : session.connection with
      | none => exact trivial
      | some connection =>
          rcases hrun : operation.run connection with ⟨error | answer, after⟩
          · simp only [hrun]
          · simp only [hrun, octets, hconnection, Option.elim_some]
            obtain ⟨stream, hstream, hsecured⟩ := connection.run_secured operation
            have hpending := Connection.run_pending hrun
            rw [hrun] at hstream
            dsimp only at hstream
            subst hstream
            rw [Connection.securedOctets, Connection.withStream_stream, hsecured]
            exact Nat.add_le_add_right hpending _
  | callback callback isTls hevent => exact le_rfl
  | change change hchanges => exact le_rfl
  | record response hevent => exact le_rfl
  | upgrade hevent hchanges =>
      unfold Sat Session.upgrade
      cases hconnection : session.connection with
      | none => exact trivial
      | some connection =>
          dsimp only
          cases hstart : connection.startTls with
          | error error => exact trivial
          | ok secured =>
              have hoctets := Connection.startTls_octets hstart
              simp only [octets, hconnection, Option.elim_some]
              rw [hoctets.1, hoctets.2]
              exact Nat.le_add_left ..

omit [Handler H] [Base64] in
/-- A line takes at least one octet. -/
theorem readLine_octets (session : Session Wire H) :
    Sat readLine session (fun line after => line ≠ none → after.octets < session.octets)
      fun _ _ => True := by
  unfold Sat readLine onConnection
  cases hconnection : session.connection with
  | none => exact trivial
  | some connection =>
      obtain ⟨stream, hstream, hsecured⟩ := connection.run_secured .readLine
      rcases hrun : readLineWithin (maxLineLength + 1) [] connection with ⟨error | line, after⟩
      · simp only [hrun]
      · simp only [hrun, octets, hconnection, Option.elim_some]
        intro hsome
        obtain ⟨whole, rfl⟩ := Option.ne_none_iff_exists'.mp hsome
        obtain ⟨hpending, hne⟩ := Connection.readLine_pending hrun
        have hpositive : 0 < whole.length :=
          List.length_pos_iff.mpr fun hempty => hne (congrArg some hempty)
        have hlength := congrArg List.length hpending
        rw [Operation.run, hrun] at hstream
        dsimp only at hstream
        subst hstream
        rw [List.length_append, Option.getD_some] at hlength
        rw [Connection.securedOctets, Connection.withStream_stream, hsecured]
        exact Nat.add_lt_add_right (by omega) _

theorem turn_octets (session : Session Wire H) :
    Sat turn session (fun _ after => after.octets < session.octets) fun _ _ => True := by
  refine Sat.bind (readLine_octets session) fun line after hafter => ?_
  cases line with
  | none => exact .throw trivial
  | some line =>
      refine ((Built.handleLine line).shrinks after).mono (fun _ last hlast => ?_) fun _ _ h => h
      exact hlast.trans_lt (hafter (by simp))

theorem handle_octets (session : Session Wire H) (turns : Nat) :
    (handle turns session).Holds (fun after => after.octets + turns ≤ session.octets)
      fun _ => True := by
  induction turns with
  | zero =>
      have hgreet := (Built.freeReply (.banner session.config.serverName)).shrinks session
      unfold Sat at hgreet
      rw [handle, Flow.iterate, greet]
      split at hgreet
      next heq =>
        rw [heq]
        exact hgreet
      next heq =>
        rw [heq]
        trivial
  | succ turns ih =>
      rw [handle, Flow.iterate, ← handle]
      cases hflow : handle turns session with
      | stopped before result => trivial
      | running before =>
          rw [hflow] at ih
          have hturn := turn_octets before
          unfold Sat at hturn
          rw [Flow.step, iteration]
          rcases hcontrol : turn before with ⟨control, after⟩ | ⟨error, after⟩ <;>
            rw [hcontrol] at hturn
          · cases control with
            | next =>
                change after.octets + (turns + 1) ≤ session.octets
                have hbefore : before.octets + turns ≤ session.octets := ih
                omega
            | quit => trivial
          · trivial

theorem handle_inBudget {π : Type} [Transport π] (session : Session π H) (turns : Nat) :
    (handle turns session).result ≠ some (.error .outOfFetches) := by
  induction turns with
  | zero =>
      have hgreet := (Built.freeReply (.banner session.config.serverName)).inBudget session
      unfold Sat at hgreet
      rw [handle, Flow.iterate, greet]
      split at hgreet
      next heq =>
        rw [heq]
        exact fun h => by cases h
      next heq =>
        rw [heq]
        exact fun h => hgreet (Except.error.inj (Option.some.inj h))
  | succ turns ih =>
      rw [handle, Flow.iterate, ← handle]
      cases hflow : handle turns session with
      | stopped before result =>
          rw [hflow] at ih
          exact ih
      | running before =>
          have hturn := Built.turn.inBudget before
          unfold Sat at hturn
          rw [Flow.step, iteration]
          rcases hcontrol : turn before with ⟨control, after⟩ | ⟨error, after⟩ <;>
            rw [hcontrol] at hturn
          · cases control <;> exact fun h => by cases h
          · exact fun h => hturn (Except.error.inj (Option.some.inj h))

/-- Every session over a finite stream ends by itself: by the line at the latest that
comes after as many lines as there are octets. And it never ends because a loop of its
own ran out of its budget. -/
theorem session_ends (stream : Wire) (tls : Option TlsAcceptor) (config : SessionConfig H)
    (turns : Nat) (hturns : stream.chunks.flatten.length + stream.secured.flatten.length < turns) :
    ∃ result, (handle turns (new (.newPlain stream tls) config)).result = some result ∧
      result ≠ .error .outOfFetches := by
  have hoctets := handle_octets (new (.newPlain stream tls) config) turns
  have hbudget := handle_inBudget (new (.newPlain stream tls) config) turns
  cases hflow : handle turns (new (.newPlain stream tls) config) with
  | running after =>
      rw [hflow] at hoctets
      have hbound : after.octets + turns ≤
          stream.chunks.flatten.length + stream.secured.flatten.length := hoctets
      omega
  | stopped after result =>
      rw [hflow] at hbudget
      exact ⟨result, rfl, fun herror => hbudget (congrArg some herror)⟩

end Session

section Sample

attribute [local instance] sampleBase64

theorem Session.session_ends_sample : ∃ result,
    (handle 15 (new (.newPlain cutSample none) ⟨(), "s".toList, .none, 100⟩)).result =
      some result ∧ result ≠ .error .outOfFetches :=
  session_ends cutSample none ⟨(), "s".toList, .none, 100⟩ 15 (by decide)

end Sample

end PostGraph.Smtp
