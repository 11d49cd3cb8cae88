import PostGraph.Foundation.ByteStream
import PostGraph.Smtp.Connection

/-! # Octets read ahead

When a connection is secured, octets that were read ahead of the handshake are handed
to it first, and then those of the socket. The handshake cannot tell the two apart,
however it reads.
-/

namespace PostGraph.Smtp

open Foundation Foundation.AsyncRead Foundation.ByteStream
open Stream' (Seq)

namespace PrefixedTcpStream

variable {ε π : Type}

/-- The stream of a reader, with what the reader has buffered. -/
def fromExisting (reader : BufReader π) : PrefixedTcpStream π where
  readAhead := reader.buffer
  inner := reader.inner

/-- The handshake is over this stream. -/
theorem startTls_fromExisting [Transport π] (reader : BufReader π) (acceptor : TlsAcceptor) :
    (Connection.plain reader (some acceptor)).startTls =
      match Transport.accept acceptor (fromExisting reader) with
      | .ok secured => .ok (.newTls secured)
      | .error error => .error error := rfl

theorem length_replayed (stream : PrefixedTcpStream π) (buf : ReadBuf) :
    (stream.readAhead.take (min stream.readAhead.length buf.remaining)).length ≤
      buf.remaining := by
  rw [List.length_take]
  omega

section Polls

variable [AsyncRead ε π]

def pollRead (stream : PrefixedTcpStream π) (buf : ReadBuf) :
    Poll (Except ε Unit) × ReadBuf × PrefixedTcpStream π :=
  if stream.readAhead ≠ [] then
    let n := min stream.readAhead.length buf.remaining
    (.ready (.ok ()), buf.putSlice (stream.readAhead.take n) (stream.length_replayed buf),
      { stream with readAhead := stream.readAhead.drop n })
  else
    let (answer, buf, inner) := AsyncRead.pollRead stream.inner buf
    (answer, buf, { stream with inner })

instance : AsyncRead ε (PrefixedTcpStream π) := ⟨pollRead⟩

/-- A poll while octets remain replays as many of them as there is room for. -/
theorem pollRead_readAhead {stream : PrefixedTcpStream π} (hremain : stream.readAhead ≠ [])
    (buf : ReadBuf) :
    AsyncRead.pollRead stream buf = (.ready (.ok ()),
      buf.putSlice (stream.readAhead.take (min stream.readAhead.length buf.remaining))
        (stream.length_replayed buf),
      { stream with
        readAhead := stream.readAhead.drop (min stream.readAhead.length buf.remaining) }) :=
  if_pos hremain

/-- Once they are used up, a poll is one of the socket. -/
theorem pollRead_inner (inner : π) (buf : ReadBuf) :
    AsyncRead.pollRead (⟨[], inner⟩ : PrefixedTcpStream π) buf =
      let (answer, buf, inner) := AsyncRead.pollRead inner buf
      (answer, buf, ⟨[], inner⟩) := rfl

/-! ## Runs of polls -/

/-- After these octets were delivered: some of those read ahead remain, or what else
was delivered came from the socket. -/
inductive Stage (reader : BufReader π) : Bytes → PrefixedTcpStream π → Prop
  | replaying {octets rest : Bytes} (hsplit : octets ++ rest = reader.buffer) :
      Stage reader octets ⟨rest, reader.inner⟩
  | live (octets : Bytes) (inner : π) : Stage reader (reader.buffer ++ octets) ⟨[], inner⟩

theorem Stage.poll {reader : BufReader π} {octets : Bytes}
    {stream : PrefixedTcpStream π} (h : Stage reader octets stream) (buf : ReadBuf) :
    Stage reader (octets ++ polled stream buf) (AsyncRead.pollRead stream buf).2.2 := by
  cases h with
  | @replaying octets rest hsplit =>
      by_cases hremain : rest = []
      · cases hremain
        rw [List.append_nil] at hsplit
        rw [hsplit, pollRead_inner]
        exact .live _ _
      · have hstream : (⟨rest, reader.inner⟩ : PrefixedTcpStream π).readAhead ≠ [] := hremain
        rw [polled, pollRead_readAhead hstream, ReadBuf.added_putSlice]
        refine .replaying ?_
        rw [List.append_assoc, List.take_append_drop, hsplit]
  | live octets inner =>
      rw [List.append_assoc, pollRead_inner]
      exact .live _ _

theorem stage_after (reader : BufReader π) (bufs : List ReadBuf) :
    Stage reader (delivered (fromExisting reader) bufs) (after (fromExisting reader) bufs) := by
  induction bufs using List.reverseRecOn with
  | nil => exact .replaying (List.nil_append _)
  | append_singleton bufs buf ih =>
      rw [delivered_concat, after_concat]
      exact ih.poll buf

/-- As long as fewer octets were delivered than were read ahead, some remain, and the
socket is as it was. -/
theorem Stage.remain {reader : BufReader π} {octets : Bytes} {stream : PrefixedTcpStream π}
    (h : Stage reader octets stream) (hfewer : octets.length < reader.buffer.length) :
    stream.readAhead ≠ [] ∧ stream.inner = reader.inner := by
  cases h with
  | @replaying _ rest hsplit =>
      refine ⟨?_, rfl⟩
      rintro rfl
      rw [← hsplit, List.append_nil] at hfewer
      exact Nat.lt_irrefl _ hfewer
  | live octets inner =>
      rw [List.length_append] at hfewer
      omega

end Polls

section Octets

variable [ByteStream ε π]

/-- A poll takes the next of the octets read ahead, and then of those of the socket. -/
theorem pollRead_takes_next (stream : PrefixedTcpStream π) (buf : ReadBuf) :
    ∃ answer octets, ∃ after : PrefixedTcpStream π, ∃ h : octets.length ≤ buf.remaining,
      AsyncRead.pollRead stream buf = (answer, buf.putSlice octets h, after) ∧
        (Seq.ofList stream.readAhead).append (incoming stream.inner) =
          (Seq.ofList octets).append
            ((Seq.ofList after.readAhead).append (incoming after.inner)) ∧
        (octets ≠ [] → answer = .ready (.ok ())) := by
  by_cases hremain : stream.readAhead = []
  · obtain ⟨readAhead, inner⟩ := stream
    cases hremain
    obtain ⟨answer, octets, after, hroom, hpoll, htakes, hready⟩ := pollRead_takes inner buf
    refine ⟨answer, octets, ⟨[], after⟩, hroom, ?_, ?_, hready⟩
    · rw [pollRead_inner, hpoll]
    · simpa using htakes
  · refine ⟨_, _, _, stream.length_replayed buf, pollRead_readAhead hremain buf, ?_,
      fun _ => rfl⟩
    rw [← Seq.append_assoc, ← Seq.ofList_append, List.take_append_drop]

/-- The octets read ahead come first, and then those of the socket. -/
instance : ByteStream ε (PrefixedTcpStream π) where
  incoming stream := (Seq.ofList stream.readAhead).append (incoming stream.inner)
  pollRead_takes := pollRead_takes_next

/-- Polls with these buffers deliver what was read ahead and then what the socket has
to say, and so does any further one. -/
structure Replays (reader : BufReader π) (bufs : List ReadBuf) : Prop where
  conserved : (Seq.ofList reader.buffer).append (incoming reader.inner) =
    (Seq.ofList (delivered (fromExisting reader) bufs)).append
      (incoming (after (fromExisting reader) bufs))
  fits : ∀ buf, (polled (after (fromExisting reader) bufs) buf).length ≤ buf.remaining
  waits : (delivered (fromExisting reader) bufs).length < reader.buffer.length → ∀ buf,
    (AsyncRead.pollRead (after (fromExisting reader) bufs) buf).2.2.inner = reader.inner
  progress : (delivered (fromExisting reader) bufs).length < reader.buffer.length → ∀ buf,
    0 < buf.remaining → polled (after (fromExisting reader) bufs) buf ≠ []

/-- However the handshake reads, it gets the octets read ahead and then those of the
socket. -/
theorem fromExisting_replays (reader : BufReader π) (bufs : List ReadBuf) :
    Replays reader bufs := by
  have hstage := stage_after reader bufs
  constructor
  case conserved => exact incoming_delivered (fromExisting reader) bufs
  case fits => exact length_polled _
  case waits =>
    intro hfewer buf
    obtain ⟨hremain, hinner⟩ := hstage.remain hfewer
    rw [pollRead_readAhead hremain]
    exact hinner
  case progress =>
    intro hfewer buf hroom hnone
    obtain ⟨hremain, -⟩ := hstage.remain hfewer
    rw [polled, pollRead_readAhead hremain, ReadBuf.added_putSlice] at hnone
    have hlength := congrArg List.length hnone
    have hpos := List.length_pos_of_ne_nil hremain
    rw [List.length_take, List.length_nil] at hlength
    omega

end Octets

end PrefixedTcpStream

section Sample

open PrefixedTcpStream

/-- A socket at which these octets arrive, and no more for the time being. -/
structure Arrivals where
  octets : Bytes

namespace Arrivals

theorem length_next (socket : Arrivals) (buf : ReadBuf) :
    (socket.octets.take buf.remaining).length ≤ buf.remaining :=
  List.length_take_le _ _

def pollRead (socket : Arrivals) (buf : ReadBuf) :
    Poll (Except IoError Unit) × ReadBuf × Arrivals :=
  if socket.octets = [] then (.pending, buf.putSlice [] (Nat.zero_le _), socket)
  else (.ready (.ok ()), buf.putSlice (socket.octets.take buf.remaining) (socket.length_next buf),
    ⟨socket.octets.drop buf.remaining⟩)

theorem pollRead_takes (socket : Arrivals) (buf : ReadBuf) : ∃ answer octets after,
    ∃ h : octets.length ≤ buf.remaining,
      socket.pollRead buf = (answer, buf.putSlice octets h, after) ∧
        Seq.ofList socket.octets = (Seq.ofList octets).append (Seq.ofList after.octets) ∧
        (octets ≠ [] → answer = .ready (.ok ())) := by
  by_cases hnone : socket.octets = []
  · exact ⟨_, _, _, _, if_pos hnone, (Seq.nil_append _).symm, fun hne => absurd rfl hne⟩
  · refine ⟨_, _, _, socket.length_next buf, if_neg hnone, ?_, fun _ => rfl⟩
    rw [← Seq.ofList_append, List.take_append_drop]

end Arrivals

local instance : ByteStream IoError Arrivals where
  pollRead := Arrivals.pollRead
  incoming socket := Seq.ofList socket.octets
  pollRead_takes := Arrivals.pollRead_takes

/-- An empty buffer of this capacity. -/
def room (capacity : Nat) : ReadBuf := ⟨[], capacity, Nat.zero_le capacity⟩

/-- The client has sent three octets ahead of the handshake, and sends five more. -/
def hastyReader : BufReader Arrivals := ⟨ascii "abc", ⟨ascii "defgh"⟩⟩

theorem PrefixedTcpStream.fromExisting_replays_hasty :
    Replays hastyReader [room 2, room 0, room 2] ∧
      delivered (fromExisting hastyReader) [room 2, room 0, room 2] = ascii "abc" ∧
      delivered (fromExisting hastyReader) [room 2, room 0, room 2, room 4] = ascii "abcdefg" :=
  ⟨fromExisting_replays hastyReader [room 2, room 0, room 2], by decide, by decide⟩

end Sample

end PostGraph.Smtp
