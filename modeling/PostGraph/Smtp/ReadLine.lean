import PostGraph.Foundation.Framing
import PostGraph.Smtp.Wire

/-! # Reading lines

A wire delivers its octets in chunks. What `readLine` returns depends only on
the octets that are pending, not on the chunks they come in, and it fetches a
buffer no more often than a line may have octets, plus one.
-/

namespace PostGraph.Smtp

open Foundation Foundation.Framing

/-! ## The octets of a line within a buffer -/

theorem lineOctets_of_notMem {buf : Bytes} (hopen : lf ∉ buf) : lineOctets buf = buf.length := by
  have hnone : buf.findIdx? (· == lf) = none := by
    rw [List.findIdx?_eq_none_iff]
    intro byte hbyte
    simpa using fun h : byte = lf => hopen (h ▸ hbyte)
  rw [lineOctets, hnone]
  rfl

theorem lineOctets_append {body rest : Bytes} (hbody : lf ∉ body) :
    lineOctets (body ++ lf :: rest) = body.length + 1 := by
  have hsome : (body ++ lf :: rest).findIdx? (· == lf) = some body.length := by
    rw [List.findIdx?_append, List.findIdx?_eq_none_iff.mpr, List.findIdx?_cons]
    · simp
    · intro byte hbyte
      simpa using fun h : byte = lf => hbody (h ▸ hbyte)
  rw [lineOctets, hsome]
  rfl

theorem lineOctets_le (buf : Bytes) : lineOctets buf ≤ buf.length := by
  by_cases hmem : lf ∈ buf
  · obtain ⟨body, rest, rfl, hbody⟩ := List.eq_append_cons_of_mem hmem
    rw [lineOctets_append hbody]
    simp
  · rw [lineOctets_of_notMem hmem]

theorem lineOctets_pos {buf : Bytes} (hne : buf ≠ []) : 0 < lineOctets buf := by
  by_cases hmem : lf ∈ buf
  · obtain ⟨body, rest, rfl, hbody⟩ := List.eq_append_cons_of_mem hmem
    rw [lineOctets_append hbody]
    omega
  · rw [lineOctets_of_notMem hmem]
    exact List.length_pos_of_ne_nil hne

/-! ## The loop -/

/-- What the pending octets alone determine: the line they start with, or why
there is none. -/
def nextLine (octets : Bytes) : Except Error (Option Bytes) :=
  if maxLineLength < lineOctets octets then .error (.anyhow "SMTP line is too long".toList)
  else if lf ∈ octets then .ok (some (octets.take (lineOctets octets)))
  else if octets = [] then .ok none
  else .error (.anyhow "unexpected EOF in SMTP line read".toList)

theorem nextLine_line {line : Bytes} (hline : IsLine line) (hlength : line.length ≤ maxLineLength)
    (rest : Bytes) : nextLine (line ++ rest) = .ok (some line) := by
  obtain ⟨body, hbody, rfl⟩ := hline
  simp only [List.length_append, List.length_singleton] at hlength
  rw [nextLine, List.append_assoc, List.singleton_append, lineOctets_append hbody,
    if_neg (by omega), if_pos (by simp)]
  simp [List.take_append, List.take_of_length_le]

theorem nextLine_overlong {line : Bytes} (hline : IsLine line)
    (hlength : maxLineLength < line.length) (rest : Bytes) :
    nextLine (line ++ rest) = .error (.anyhow "SMTP line is too long".toList) := by
  obtain ⟨body, hbody, rfl⟩ := hline
  simp only [List.length_append, List.length_singleton] at hlength
  rw [nextLine, List.append_assoc, List.singleton_append, lineOctets_append hbody,
    if_pos hlength]

theorem nextLine_open {octets : Bytes} (hopen : lf ∉ octets) :
    nextLine octets = .ok none ∨ ∃ error, nextLine octets = .error error := by
  rw [nextLine, if_neg hopen]
  split
  · exact .inr ⟨_, rfl⟩
  · split
    · exact .inl rfl
    · exact .inr ⟨_, rfl⟩

theorem nextLine_append_overlong {line buf : Bytes} (hopen : lf ∉ line)
    (hlength : maxLineLength < line.length + lineOctets buf) (rest : Bytes) :
    nextLine (line ++ (buf ++ rest)) = .error (.anyhow "SMTP line is too long".toList) := by
  by_cases hmem : lf ∈ buf
  · obtain ⟨body, tail, rfl, hbody⟩ := List.eq_append_cons_of_mem hmem
    rw [lineOctets_append hbody] at hlength
    have hwhole : IsLine (line ++ body ++ [lf]) := ⟨line ++ body, by simp [hopen, hbody], rfl⟩
    have hsplit : line ++ (body ++ lf :: tail ++ rest) =
        line ++ body ++ [lf] ++ (tail ++ rest) := by
      simp
    rw [hsplit]
    exact nextLine_overlong hwhole (by simp; omega) _
  · rw [lineOctets_of_notMem hmem] at hlength
    by_cases hrest : lf ∈ rest
    · obtain ⟨body, tail, rfl, hbody⟩ := List.eq_append_cons_of_mem hrest
      have hwhole : IsLine (line ++ buf ++ body ++ [lf]) :=
        ⟨line ++ buf ++ body, by simp [hopen, hmem, hbody], rfl⟩
      have hsplit : line ++ (buf ++ (body ++ lf :: tail)) =
          line ++ buf ++ body ++ [lf] ++ tail := by simp
      rw [hsplit]
      exact nextLine_overlong hwhole (by simp; omega) _
    · rw [nextLine, lineOctets_of_notMem (by simp [hopen, hmem, hrest]), if_pos]
      simp only [List.length_append]
      omega

/-- At the end of the stream. -/
theorem nextLine_end {line : Bytes} (hopen : lf ∉ line) (hlength : line.length ≤ maxLineLength) :
    nextLine line = if line.isEmpty then .ok none
      else .error (.anyhow "unexpected EOF in SMTP line read".toList) := by
  rw [nextLine, lineOctets_of_notMem hopen, if_neg (Nat.not_lt.mpr hlength), if_neg hopen]
  cases line with
  | nil => rfl
  | cons byte rest => rfl

/-- A line whose end is in the buffer. -/
theorem nextLine_complete {line body : Bytes} (hopen : lf ∉ line) (hbody : lf ∉ body)
    (hlength : line.length + (body.length + 1) ≤ maxLineLength) (rest : Bytes) :
    nextLine (line ++ (body ++ lf :: rest)) = .ok (some (line ++ (body ++ [lf]))) := by
  have hwhole : IsLine (line ++ (body ++ [lf])) := ⟨line ++ body, by simp [hopen, hbody], by simp⟩
  have hsplit : line ++ (body ++ lf :: rest) = line ++ (body ++ [lf]) ++ rest := by simp
  rw [hsplit]
  exact nextLine_line hwhole (by simpa using hlength) rest

/-- What is pending once the octets of the line are consumed. -/
theorem Connection.pending_consume_line {connection : Connection Wire} {stream : BufReader Wire}
    {after : Bytes} (hpending : (connection.withStream stream).pending = stream.buffer ++ after) :
    (connection.withStream (stream.consume (lineOctets stream.buffer))).pending =
      (stream.buffer ++ after).drop (lineOctets stream.buffer) := by
  have hconsume : connection.withStream (stream.consume (lineOctets stream.buffer)) =
      (connection.withStream stream).consume (lineOctets stream.buffer) := by
    simp [Connection.consume]
  rw [hconsume, Connection.pending_consume, hpending]
  rw [Connection.withStream_stream]
  exact lineOctets_le stream.buffer

/-- Octets read and octets pending together never change while the loop runs,
and they determine its result. -/
theorem readLineWithin_wire (fetches : Nat) (line : Bytes) (connection : Connection Wire)
    (hopen : lf ∉ line) (hlength : line.length ≤ maxLineLength)
    (hbudget : maxLineLength < fetches + line.length) :
    ∃ stream, readLineWithin fetches line connection =
        (nextLine (line ++ connection.pending), connection.withStream stream) ∧
      ∀ whole, nextLine (line ++ connection.pending) = .ok (some whole) →
        whole ++ (connection.withStream stream).pending = line ++ connection.pending := by
  induction fetches generalizing line connection with
  | zero => omega
  | succ fetches ih =>
      obtain ⟨stream, hfill, hpending, hempty⟩ := connection.fillBuf_wire
      rw [readLineWithin, hfill]
      by_cases hbuf : stream.buffer = []
      · -- The end of the stream: no octet is pending.
        rw [hempty hbuf, List.append_nil, nextLine_end hopen hlength]
        refine ⟨stream, ?_, ?_⟩
        · simp only [hbuf, List.isEmpty_nil, ↓reduceIte]
          split <;> rfl
        · intro whole hwhole
          split at hwhole <;> cases hwhole
      · obtain ⟨after, hafter⟩ : ∃ after, connection.pending = stream.buffer ++ after := by
          rw [← hpending, Connection.pending, Connection.withStream_stream]
          exact ⟨_, rfl⟩
        simp only [List.isEmpty_iff, hbuf, ↓reduceIte]
        by_cases hlong : maxLineLength < line.length + lineOctets stream.buffer
        · rw [if_pos hlong, hafter, nextLine_append_overlong hopen hlong]
          exact ⟨stream, rfl, by simp⟩
        · rw [if_neg hlong]
          have hrest := Connection.pending_consume_line (hpending.trans hafter)
          simp only [Connection.consume, Connection.withStream_stream,
            Connection.withStream_withStream]
          by_cases hmem : lf ∈ stream.buffer
          · -- The line is complete.
            obtain ⟨body, tail, hsplit, hbody⟩ := List.eq_append_cons_of_mem hmem
            rw [hsplit, lineOctets_append hbody] at hlong hrest ⊢
            have htake : (body ++ lf :: tail).take (body.length + 1) = body ++ [lf] := by
              simp [List.take_append, List.take_of_length_le]
            have htotal : line ++ connection.pending =
                line ++ (body ++ lf :: (tail ++ after)) := by
              rw [hafter, hsplit]
              simp
            rw [htotal, nextLine_complete hopen hbody (Nat.le_of_not_lt hlong), htake,
              if_pos (by simp)]
            refine ⟨_, rfl, ?_⟩
            rintro whole ⟨⟩
            rw [hrest]
            simp [List.drop_append, List.drop_of_length_le]
          · -- Another fetch follows, for the rest of the line.
            rw [lineOctets_of_notMem hmem] at hlong hrest ⊢
            have hopen' : lf ∉ line ++ stream.buffer := by simp [hopen, hmem]
            have hpos := List.length_pos_of_ne_nil hbuf
            rw [List.take_length, if_neg fun hlast => hopen' (List.mem_of_getLast? hlast)]
            rw [List.drop_left] at hrest
            obtain ⟨stream', hloop, hwhole⟩ := ih (line ++ stream.buffer)
              (connection.withStream (stream.consume stream.buffer.length)) hopen'
              (by simp; omega) (by simp; omega)
            rw [hrest, List.append_assoc, ← hafter] at hloop hwhole
            rw [Connection.withStream_withStream] at hloop hwhole
            exact ⟨stream', hloop, hwhole⟩

/-- For every stream: a call of `read_line` ends within its budget. -/
theorem readLineWithin_bounded {π : Type} [Transport π] (fetches : Nat) (line : Bytes)
    (connection after : Connection π) (hlength : line.length ≤ maxLineLength)
    (hbudget : maxLineLength < fetches + line.length) :
    readLineWithin fetches line connection ≠ (.error .outOfFetches, after) := by
  induction fetches generalizing line connection with
  | zero => omega
  | succ fetches ih =>
      rw [readLineWithin]
      split
      next error connection' hfill => simp
      next buf connection' hfill =>
        by_cases hbuf : buf = []
        · rw [if_pos (by simp [hbuf])]
          split <;> simp
        · rw [if_neg (by simp [hbuf])]
          have hpos := lineOctets_pos hbuf
          have hle := lineOctets_le buf
          dsimp only
          split
          next hlong => simp
          next hlong =>
            split
            next hlast => simp
            next hlast =>
              exact ih _ _ (by simp; omega) (by simp; omega)

theorem readLineWithin_end {connection : Connection Wire} (hpending : connection.pending = [])
    (fetches : Nat) : ∃ stream,
      readLineWithin (fetches + 1) [] connection = (.ok none, connection.withStream stream) ∧
      (connection.withStream stream).pending = [] := by
  obtain ⟨stream, hfill, hsame, _⟩ := connection.fillBuf_wire
  have hbuffer : stream.buffer = [] := by
    have hnone := hsame.trans hpending
    rw [Connection.pending, Connection.withStream_stream] at hnone
    exact (List.append_eq_nil_iff.mp hnone).1
  refine ⟨stream, ?_, hsame.trans hpending⟩
  rw [readLineWithin, hfill]
  simp [hbuffer]

theorem nextLine_eq_none {octets : Bytes} (h : nextLine octets = .ok none) : octets = [] := by
  unfold nextLine at h
  split at h
  · cases h
  · split at h
    · cases h
    · split at h
      next hnone => exact hnone
      next => cases h

theorem nextLine_isLine {octets line : Bytes} (h : nextLine octets = .ok (some line)) :
    IsLine line := by
  unfold nextLine at h
  split at h
  · cases h
  · split at h
    next hmem =>
      obtain ⟨body, rest, rfl, hbody⟩ := List.eq_append_cons_of_mem hmem
      rw [lineOctets_append hbody] at h
      cases h
      exact ⟨body, hbody, by simp [List.take_append, List.take_of_length_le]⟩
    next => split at h <;> cases h

namespace Session

variable {H : Type}

theorem readLine_ok {session : Session Wire H} {octets : Bytes} {line : Option Bytes}
    (hdelivers : session.Delivers octets) (hnext : nextLine octets = .ok line) :
    ∃ connection, readLine session = .ok line { session with connection := some connection } ∧
      (∀ whole, line = some whole → whole ++ connection.pending = octets) ∧
      connection.isTls = session.isTls := by
  obtain ⟨connection, hconnection, hpending⟩ := hdelivers
  obtain ⟨stream, hloop, hwhole⟩ := readLineWithin_wire (maxLineLength + 1) [] connection
    (by simp) (by simp) (by simp)
  rw [List.nil_append, hpending, hnext] at hloop hwhole
  refine ⟨connection.withStream stream, ?_, ?_, ?_⟩
  · simp only [readLine, onConnection, hconnection, hloop]
  · rintro whole rfl
    exact hwhole whole rfl
  · simp [isTls, hconnection]

theorem readLine_error {session : Session Wire H} {octets : Bytes} {error : Error}
    (hdelivers : session.Delivers octets) (hnext : nextLine octets = .error error) :
    ∃ connection,
      readLine session = .error error { session with connection := some connection } := by
  obtain ⟨connection, hconnection, hpending⟩ := hdelivers
  obtain ⟨stream, hloop, _⟩ := readLineWithin_wire (maxLineLength + 1) [] connection
    (by simp) (by simp) (by simp)
  rw [List.nil_append, hpending, hnext] at hloop
  refine ⟨connection.withStream stream, ?_⟩
  simp only [readLine, onConnection, hconnection, hloop]

/-- A complete line is read whole, and what is behind it stays pending. -/
theorem readLine_line {session : Session Wire H} {line rest : Bytes} (hline : IsLine line)
    (hlength : line.length ≤ maxLineLength) (hdelivers : session.Delivers (line ++ rest)) :
    ∃ connection, readLine session =
        .ok (some line) { session with connection := some connection } ∧
      connection.pending = rest ∧ connection.isTls = session.isTls := by
  obtain ⟨connection, hread, hwhole, htls⟩ :=
    readLine_ok hdelivers (nextLine_line hline hlength rest)
  exact ⟨connection, hread, List.append_cancel_left (hwhole line rfl), htls⟩

/-- Calls of `read_line` one after the other give these lines; the last call
returns none, or fails with the error. -/
inductive Yields {π : Type} [Transport π] : Session π H → List Bytes → Option Error → Prop
  | none {session after : Session π H} (hread : readLine session = .ok .none after) :
      Yields session [] .none
  | error {session after : Session π H} {error : Error}
      (hread : readLine session = .error error after) : Yields session [] (some error)
  | line {session after : Session π H} {line : Bytes} {lines : List Bytes}
      {error : Option Error} (hread : readLine session = .ok (some line) after)
      (hrest : Yields after lines error) : Yields session (line :: lines) error

/-- How the last call reports the end of the lines. -/
def endingError : Ending → Option Error
  | .clean => none
  | .unterminated => some (.anyhow "unexpected EOF in SMTP line read".toList)
  | .overlong => some (.anyhow "SMTP line is too long".toList)

/-- Framing survives every way of cutting the stream into chunks. -/
theorem Yields.of_framed {octets : Bytes} {lines : List Bytes} {ending : Ending}
    (hframed : Framed maxLineLength octets lines ending) {session : Session Wire H}
    (hdelivers : session.Delivers octets) : Yields session lines (endingError ending) := by
  induction hframed generalizing session with
  | clean =>
      have hnext : nextLine [] = .ok Option.none := rfl
      obtain ⟨connection, hread, _⟩ := readLine_ok hdelivers hnext
      exact .none hread
  | @unterminated tail hne hopen hlength =>
      have hnext : nextLine tail = .error (.anyhow "unexpected EOF in SMTP line read".toList) := by
        rw [nextLine, lineOctets_of_notMem hopen, if_neg (by omega), if_neg hopen, if_neg hne]
      obtain ⟨connection, hread⟩ := readLine_error hdelivers hnext
      exact .error hread
  | @overlongTail tail hopen hlength =>
      have hnext : nextLine tail = .error (.anyhow "SMTP line is too long".toList) := by
        rw [nextLine, lineOctets_of_notMem hopen, if_pos hlength]
      obtain ⟨connection, hread⟩ := readLine_error hdelivers hnext
      exact .error hread
  | overlongLine rest hline hlength =>
      obtain ⟨connection, hread⟩ := readLine_error hdelivers (nextLine_overlong hline hlength rest)
      exact .error hread
  | line hline hlength hrest ih =>
      obtain ⟨connection, hread, hpending, _⟩ := readLine_line hline hlength hdelivers
      exact .line hread (ih ⟨connection, rfl, hpending⟩)

/-- The lines that calls of `read_line` give are those of the stream, whatever
chunks it comes in; and on every stream, endless ones included, a call ends
within one fetch more than a line may have octets. -/
theorem readLine_framing (octets : Bytes) :
    (∃ lines ending, Framed maxLineLength octets lines ending ∧
      ∀ session : Session Wire H, session.Delivers octets →
        Yields session lines (endingError ending)) ∧
    ∀ (π : Type) [Transport π] (session after : Session π H),
      readLine session ≠ .error .outOfFetches after := by
  constructor
  · obtain ⟨lines, ending, hframed⟩ := Framed.exists maxLineLength octets
    exact ⟨lines, ending, hframed, fun _ hdelivers => .of_framed hframed hdelivers⟩
  · intro π _ session after hread
    unfold readLine onConnection at hread
    split at hread
    next hconnection => simp at hread
    next connection hconnection =>
      split at hread
      next => simp at hread
      next error connection' hloop =>
        simp only [EStateM.Result.error.injEq] at hread
        rw [hread.1] at hloop
        exact readLineWithin_bounded _ [] connection connection' (by simp) (by simp) hloop

end Session

end PostGraph.Smtp
