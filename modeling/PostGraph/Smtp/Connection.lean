import PostGraph.Smtp.Response

/-! # Connections

A connection is a buffered stream, plain or secured. The operating system, the
TLS library and the timers stand behind `Transport`: each read, write or
handshake returns a result and the next state of the stream. A read into the
empty buffer returns no octet exactly at the end of the stream. A timeout shows
as the error `elapsed` of the operation that it interrupts.
-/

namespace PostGraph.Smtp

open Foundation

/-- Kinds of the I/O errors that the connection itself raises. -/
inductive ErrorKind where
  | notConnected
  | invalidInput
  | other
  deriving DecidableEq, Repr

/-- Errors of the operations of a stream. -/
inductive IoError where
  | raised (kind : ErrorKind) (message : Text)
  | elapsed
  deriving DecidableEq, Repr

/-- Certificate chain and private key that a TLS server presents. -/
structure TlsAcceptor where
  certs : List Bytes
  key : Bytes
  deriving DecidableEq, Repr

/-- A TCP stream wrapper that replays octets read ahead first. -/
structure PrefixedTcpStream (π : Type) where
  readAhead : Bytes
  inner : π

/-- A network stream. -/
class Transport (π : Type) where
  read : π → Except IoError Bytes × π
  writeAll : Bytes → π → Except IoError Unit × π
  flush : π → Except IoError Unit × π
  /-- The TLS handshake, which turns a plain stream into a secured one. -/
  accept : TlsAcceptor → PrefixedTcpStream π → Except IoError π

variable {π : Type}

/-- A stream with the octets that were read but not consumed. -/
structure BufReader (π : Type) where
  buffer : Bytes
  inner : π

namespace BufReader

def new (inner : π) : BufReader π := ⟨[], inner⟩

variable [Transport π]

/-- The unread octets of the buffer, after a read if it is empty. -/
def fillBuf (reader : BufReader π) : Except IoError Bytes × BufReader π :=
  match reader.buffer with
  | [] =>
      match Transport.read reader.inner with
      | (.ok bytes, inner) => (.ok bytes, ⟨bytes, inner⟩)
      | (.error error, inner) => (.error error, ⟨[], inner⟩)
  | byte :: rest => (.ok (byte :: rest), reader)

def consume (reader : BufReader π) (length : Nat) : BufReader π :=
  { reader with buffer := reader.buffer.drop length }

def writeAll (data : Bytes) (reader : BufReader π) : Except IoError Unit × BufReader π :=
  let (result, inner) := Transport.writeAll data reader.inner
  (result, { reader with inner })

def flush (reader : BufReader π) : Except IoError Unit × BufReader π :=
  let (result, inner) := Transport.flush reader.inner
  (result, { reader with inner })

end BufReader

/-- A client connection. -/
inductive Connection (π : Type) where
  | plain (stream : BufReader π) (tls : Option TlsAcceptor)
  | tls (stream : BufReader π)

namespace Connection

def newPlain (stream : π) (tls : Option TlsAcceptor) : Connection π := plain (.new stream) tls

def newTls (stream : π) : Connection π := tls (.new stream)

/-- The buffered stream, plain or secured. -/
def stream : Connection π → BufReader π
  | plain stream _ => stream
  | tls stream => stream

/-- The same connection over another state of its stream. -/
def withStream (connection : Connection π) (stream : BufReader π) : Connection π :=
  match connection with
  | plain _ acceptor => plain stream acceptor
  | tls _ => tls stream

def supportsTls : Connection π → Bool
  | plain _ acceptor => acceptor.isSome
  | tls _ => false

def isTls : Connection π → Bool
  | plain _ _ => false
  | tls _ => true

@[simp] theorem withStream_isTls (connection : Connection π) (stream : BufReader π) :
    (connection.withStream stream).isTls = connection.isTls := by
  cases connection <;> rfl

@[simp] theorem withStream_stream (connection : Connection π) (stream : BufReader π) :
    (connection.withStream stream).stream = stream := by
  cases connection <;> rfl

@[simp] theorem withStream_withStream (connection : Connection π) (first second : BufReader π) :
    (connection.withStream first).withStream second = connection.withStream second := by
  cases connection <;> rfl

@[simp] theorem withStream_self (connection : Connection π) :
    connection.withStream connection.stream = connection := by
  cases connection <;> rfl

variable [Transport π]

def writeAll (data : Bytes) (connection : Connection π) : Except IoError Unit × Connection π :=
  let (result, stream) := connection.stream.writeAll data
  (result, connection.withStream stream)

def flush (connection : Connection π) : Except IoError Unit × Connection π :=
  let (result, stream) := connection.stream.flush
  (result, connection.withStream stream)

def fillBuf (connection : Connection π) : Except IoError Bytes × Connection π :=
  let (result, stream) := connection.stream.fillBuf
  (result, connection.withStream stream)

def consume (connection : Connection π) (length : Nat) : Connection π :=
  connection.withStream (connection.stream.consume length)

/-- Upgrade to TLS; octets read ahead go to the handshake first. -/
def startTls : Connection π → Except IoError (Connection π)
  | plain stream (some acceptor) =>
      match Transport.accept acceptor ⟨stream.buffer, stream.inner⟩ with
      | .ok secured => .ok (newTls secured)
      | .error error => .error error
  | plain _ none => .error (.raised .invalidInput "connection cannot support TLS".toList)
  | tls _ => .error (.raised .invalidInput "connection is already TLS".toList)

end Connection

end PostGraph.Smtp
