import Mathlib.Data.Seq.Basic
import PostGraph.Foundation.Text

/-! # Streams that are polled

A poll of a stream puts octets into what room a buffer has left, or finds that there
are none yet. What a stream has to say does not depend on how it is polled: whatever
the polls put into their buffers, taken together, is what the stream starts with.
-/

namespace Foundation

open Stream' (Seq)

inductive Poll (α : Type) where
  | pending
  | ready (result : α)

/-- A buffer that is filled from its front. -/
structure ReadBuf where
  filled : Bytes
  capacity : Nat
  fits : filled.length ≤ capacity

namespace ReadBuf

def remaining (buf : ReadBuf) : Nat := buf.capacity - buf.filled.length

theorem fits_append (buf : ReadBuf) {octets : Bytes} (h : octets.length ≤ buf.remaining) :
    (buf.filled ++ octets).length ≤ buf.capacity := by
  have hfits := buf.fits
  rw [remaining] at h
  rw [List.length_append]
  omega

/-- Octets are put behind those that are there; there has to be room for them. -/
def putSlice (buf : ReadBuf) (octets : Bytes) (h : octets.length ≤ buf.remaining) : ReadBuf where
  filled := buf.filled ++ octets
  capacity := buf.capacity
  fits := buf.fits_append h

/-- The octets of a later state of the buffer that it does not have itself. -/
def added (buf after : ReadBuf) : Bytes := after.filled.drop buf.filled.length

@[simp] theorem added_putSlice (buf : ReadBuf) {octets : Bytes}
    (h : octets.length ≤ buf.remaining) : buf.added (buf.putSlice octets h) = octets :=
  List.drop_left

end ReadBuf

/-- A stream that is read by polling it. -/
class AsyncRead (ε : outParam Type) (π : Type) where
  pollRead : π → ReadBuf → Poll (Except ε Unit) × ReadBuf × π

/-- A stream that is polled for its next octets: a poll that succeeds takes as many of
them as it likes and as there is room for, and any other one takes none. There need
not be an end of them. -/
class ByteStream (ε : outParam Type) (π : Type) extends AsyncRead ε π where
  incoming : π → Seq UInt8
  pollRead_takes : ∀ (stream : π) (buf : ReadBuf), ∃ answer octets after,
    ∃ h : octets.length ≤ buf.remaining,
      pollRead stream buf = (answer, buf.putSlice octets h, after) ∧
        incoming stream = (Seq.ofList octets).append (incoming after) ∧
        (octets ≠ [] → answer = .ready (.ok ()))

namespace AsyncRead

variable {ε π : Type} [AsyncRead ε π]

/-- The octets that a poll puts into the buffer. -/
def polled (stream : π) (buf : ReadBuf) : Bytes := buf.added (pollRead stream buf).2.1

/-- The stream after polls with these buffers. -/
def after (stream : π) (bufs : List ReadBuf) : π :=
  bufs.foldl (fun stream buf => (pollRead stream buf).2.2) stream

/-- What polls put into their buffers, one after the other. -/
def delivered (stream : π) : List ReadBuf → Bytes
  | [] => []
  | buf :: rest => polled stream buf ++ delivered (pollRead stream buf).2.2 rest

theorem after_concat (stream : π) (bufs : List ReadBuf) (buf : ReadBuf) :
    after stream (bufs ++ [buf]) = (pollRead (after stream bufs) buf).2.2 :=
  List.foldl_concat ..

theorem delivered_concat (stream : π) (bufs : List ReadBuf) (buf : ReadBuf) :
    delivered stream (bufs ++ [buf]) =
      delivered stream bufs ++ polled (after stream bufs) buf := by
  induction bufs generalizing stream with
  | nil => exact List.append_nil _
  | cons first rest ih =>
      rw [List.cons_append, delivered, ih, delivered, List.append_assoc]
      rfl

end AsyncRead

namespace ByteStream

open AsyncRead

variable {ε π : Type} [ByteStream ε π]

theorem length_polled (stream : π) (buf : ReadBuf) :
    (polled stream buf).length ≤ buf.remaining := by
  obtain ⟨answer, octets, after, hroom, hpoll, -, -⟩ := pollRead_takes stream buf
  rw [polled, hpoll, ReadBuf.added_putSlice]
  exact hroom

theorem incoming_polled (stream : π) (buf : ReadBuf) :
    incoming stream =
      (Seq.ofList (polled stream buf)).append (incoming (pollRead stream buf).2.2) := by
  obtain ⟨answer, octets, after, hroom, hpoll, htakes, -⟩ := pollRead_takes stream buf
  rw [polled, hpoll, ReadBuf.added_putSlice]
  exact htakes

/-- What has been delivered and what is still to come is all that there was to come. -/
theorem incoming_delivered (stream : π) (bufs : List ReadBuf) :
    incoming stream =
      (Seq.ofList (delivered stream bufs)).append (incoming (after stream bufs)) := by
  induction bufs generalizing stream with
  | nil => exact (Seq.nil_append _).symm
  | cons buf rest ih =>
      rw [incoming_polled stream buf, ih, delivered, Seq.ofList_append, Seq.append_assoc]
      rfl

end ByteStream

end Foundation
