import PostGraph.Smtp.Mail
import PostGraph.Smtp.Connection

/-! # Event handlers

A handler is cloned for each session. Callbacks on a session's own events may
update that clone; callbacks on connecting and disconnecting also see what all
clones share, and the clock.
-/

namespace PostGraph.Smtp

open Foundation

/-- Address of a remote peer. -/
inductive IpAddr where
  | v4 (address : BitVec 32)
  | v6 (address : BitVec 128)
  deriving DecidableEq, Repr

inductive ConnectResult where
  | ok
  | reject
  deriving DecidableEq, Repr

inductive HelloResult where
  | ok
  | reject
  deriving DecidableEq, Repr

inductive LoginResult where
  | ok
  | reject
  deriving DecidableEq, Repr

/-- Callbacks of a session, with the defaults of the trait. -/
class Handler (H : Type) where
  onHello : Text → Bool → H → Except Text HelloResult × H := fun _ _ handler =>
    (.ok .ok, handler)
  onLogin : Text → Text → H → Except Text LoginResult × H := fun _ _ handler =>
    (.ok .ok, handler)
  onMail : Mail → H → Except Text Unit × H := fun _ handler => (.ok (), handler)
  onReset : H → Except Text Unit × H := fun handler => (.ok (), handler)

/-- Callbacks around a session: `Shared` is what all clones share, `Clock` what
one call reads of the clock, and `Network` what a clone meets of the outside. -/
class PeerHandler (H : Type) (Shared Clock Network : outParam Type) where
  clone : Network → H → H
  onConnect : IpAddr → Clock → Shared → H → Except Text ConnectResult × Shared × H :=
    fun _ _ shared handler => (.ok .ok, shared, handler)
  onDisconnect : IpAddr → Clock → Shared → H → Except Text Unit × Shared × H :=
    fun _ _ shared handler => (.ok (), shared, handler)

end PostGraph.Smtp
