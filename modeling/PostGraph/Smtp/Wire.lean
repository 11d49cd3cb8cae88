import PostGraph.Smtp.Session

/-! # Wires

A stream of given octets, and with it a handler and a base64 library, so that
sessions can be run. Which octets a session has not consumed yet does not
depend on the chunks they come in.
-/

namespace PostGraph.Smtp

open Foundation

/-- The handler that keeps the trait's defaults. -/
instance : Handler Unit := {}

/-- Standard base64, for the credentials `a` and `b` of the PLAIN mechanism. -/
@[reducible] def sampleBase64 : Base64 where
  decode input := if input = ascii "AGEAYg==" then .ok [0, 0x61, 0, 0x62] else .error []
  encode bytes := if bytes = [0, 0x61, 0, 0x62] then ascii "AGEAYg==" else []

/-- A stream that delivers given chunks and then ends, and that takes all
writes. After a TLS handshake it delivers other chunks. -/
structure Wire where
  chunks : List Bytes
  secured : List Bytes
  chunks_ne : [] ∉ chunks
  secured_ne : [] ∉ secured

namespace Wire

theorem noChunks : [] ∉ ([] : List Bytes) := List.not_mem_nil

def read (wire : Wire) : Except IoError Bytes × Wire :=
  match wire with
  | ⟨[], secured, hchunks, hsecured⟩ => (.ok [], ⟨[], secured, hchunks, hsecured⟩)
  | ⟨chunk :: rest, secured, hchunks, hsecured⟩ =>
      (.ok chunk, ⟨rest, secured, fun h => hchunks (List.mem_cons_of_mem _ h), hsecured⟩)

instance : Transport Wire where
  read := read
  writeAll _ wire := (.ok (), wire)
  flush wire := (.ok (), wire)
  accept _ stream :=
    .ok ⟨stream.inner.secured, [], stream.inner.secured_ne, noChunks⟩

/-- A chunk that is read is not empty, unless none is left. -/
theorem read_eq (wire : Wire) : ∃ buf after, wire.read = (.ok buf, after) ∧
    buf ++ after.chunks.flatten = wire.chunks.flatten ∧
    (buf = [] → wire.chunks.flatten = []) := by
  obtain ⟨chunks, secured, hchunks, hsecured⟩ := wire
  cases chunks with
  | nil => exact ⟨[], _, rfl, rfl, fun _ => rfl⟩
  | cons chunk rest =>
      refine ⟨chunk, _, rfl, rfl, fun hempty => ?_⟩
      subst hempty
      exact absurd List.mem_cons_self hchunks

end Wire

namespace Connection

/-- Octets that the session has not consumed. -/
def pending (connection : Connection Wire) : Bytes :=
  connection.stream.buffer ++ connection.stream.inner.chunks.flatten

theorem fillBuf_wire (connection : Connection Wire) : ∃ stream,
    connection.fillBuf = (.ok stream.buffer, connection.withStream stream) ∧
    (connection.withStream stream).pending = connection.pending ∧
    (stream.buffer = [] → connection.pending = []) := by
  cases hbuffer : connection.stream.buffer with
  | nil =>
      obtain ⟨buf, after, hread, hflatten, hempty⟩ := connection.stream.inner.read_eq
      refine ⟨⟨buf, after⟩, ?_, ?_, ?_⟩
      · simp only [fillBuf, BufReader.fillBuf, hbuffer, Transport.read, hread]
      · simp only [pending, withStream_stream, hbuffer, hflatten, List.nil_append]
      · simpa only [pending, hbuffer, List.nil_append] using hempty
  | cons byte rest =>
      refine ⟨connection.stream, ?_, ?_, ?_⟩
      · simp only [fillBuf, BufReader.fillBuf, hbuffer]
      · rw [withStream_self]
      · simp [hbuffer]

theorem pending_consume (connection : Connection Wire) {length : Nat}
    (hlength : length ≤ connection.stream.buffer.length) :
    (connection.consume length).pending = connection.pending.drop length := by
  simp only [pending, consume, withStream_stream, BufReader.consume]
  rw [List.drop_append_of_le_length hlength]

end Connection

namespace Session

/-- The session's connection still delivers exactly these octets. -/
def Delivers {H : Type} (session : Session Wire H) (octets : Bytes) : Prop :=
  ∃ connection, session.connection = some connection ∧ connection.pending = octets

theorem Delivers.of_pending {H : Type} {session : Session Wire H} {octets : Bytes}
    (h : session.connection.map Connection.pending = some octets) : session.Delivers octets :=
  Option.map_eq_some_iff.mp h

end Session

end PostGraph.Smtp
