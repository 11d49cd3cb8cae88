import PostGraph.Smtp.Programs

/-! # Entries of the log

What a program adds to the log, however it ends. The entries of a program are those
of its parts, so a predicate on entries is checked reply by reply and callback by
callback.
-/

namespace PostGraph.Smtp

open Foundation

namespace Session

variable {π H : Type} {p : Event → Prop}

/-- The log has grown by entries that satisfy `p`. -/
def Grows (p : Event → Prop) (session after : Session π H) : Prop :=
  ∃ entries, after.log = session.log ++ entries ∧ ∀ entry ∈ entries, p entry

theorem Grows.of_log {session after : Session π H} (h : after.log = session.log) :
    Grows p session after :=
  ⟨[], by rw [h, List.append_nil], List.forall_mem_nil _⟩

theorem Grows.trans {session middle after : Session π H} (h : Grows p session middle)
    (h' : Grows p middle after) : Grows p session after := by
  obtain ⟨first, hfirst, hall⟩ := h
  obtain ⟨second, hsecond, hall'⟩ := h'
  refine ⟨first ++ second, by rw [hsecond, hfirst, List.append_assoc], ?_⟩
  exact List.forall_mem_append.mpr ⟨hall, hall'⟩

/-- Whether the program returns or fails, it has added entries that satisfy `p`. -/
def Adds (p : Event → Prop) {α : Type} (program : SessionM π H α) : Prop :=
  ∀ session, Sat program session (fun _ after => Grows p session after)
    fun _ after => Grows p session after

namespace Adds

variable {α β : Type}

theorem pure (a : α) : Adds p (Pure.pure a : SessionM π H α) := fun _ => .of_log rfl

theorem throw (error : Error) : Adds p (throw error : SessionM π H α) := fun _ => .of_log rfl

theorem get : Adds p (get : SessionM π H (Session π H)) := fun _ => .of_log rfl

theorem modify {change : Session π H → Session π H}
    (hlog : ∀ session, (change session).log = session.log) :
    Adds p (modify change : SessionM π H PUnit) :=
  fun session => .of_log (hlog session)

theorem bind {program : SessionM π H α} {next : α → SessionM π H β} (h : Adds p program)
    (hnext : ∀ a, Adds p (next a)) : Adds p (program >>= next) := by
  intro session
  apply Sat.bind (h session)
  intro a after hafter
  exact (hnext a after).mono (fun _ last => hafter.trans) fun _ last => hafter.trans

theorem onConnection (operation : Connection π → Except Error α × Connection π) :
    Adds p (Session.onConnection operation : SessionM π H α) := by
  intro session
  unfold Sat Session.onConnection
  cases session.connection with
  | none => exact .of_log rfl
  | some connection =>
      dsimp only
      split
      next hresult =>
        split at hresult
        next => cases hresult; exact .of_log rfl
        next => cases hresult
      next hresult =>
        split at hresult
        next => cases hresult
        next => cases hresult; exact .of_log rfl

theorem callHandler {callback : H → α × H} {event : α → Event}
    (hevent : ∀ answer, p (event answer)) :
    Adds p (Session.callHandler callback event : SessionM π H α) :=
  fun _ => ⟨[_], rfl, List.forall_mem_singleton.mpr (hevent _)⟩

variable [Transport π]

theorem upgrade (h : p .startTls) : Adds p (Session.upgrade : SessionM π H Unit) := by
  intro session
  unfold Sat Session.upgrade
  cases session.connection with
  | none => exact .of_log rfl
  | some connection =>
      dsimp only
      cases connection.startTls with
      | error error => exact .of_log rfl
      | ok secured => exact ⟨[.startTls], rfl, List.forall_mem_singleton.mpr h⟩

variable [Handler H]

/-- The entries of a program are those that it is built with. -/
theorem of_built {changes : Prop} {program : SessionM π H α}
    (h : Built p changes program) : Adds p program := by
  induction h with
  | pure a => exact pure a
  | throw error herror => exact throw error
  | bind h hnext ih ihnext => exact bind ih ihnext
  | observe h hview ih => exact fun session => ih session session
  | operation operation => exact onConnection _
  | callback callback isTls hevent => exact callHandler hevent
  | change change hchanges => exact modify fun _ => rfl
  | record response hevent =>
      exact fun _ => ⟨[.reply response], rfl, List.forall_mem_singleton.mpr hevent⟩
  | upgrade hevent hchanges => exact upgrade hevent

theorem supportsTls : Adds p (Session.supportsTls : SessionM π H Bool) :=
  .of_built (Built.supportsTls : Built p False _)

theorem readLine : Adds p (Session.readLine : SessionM π H (Option Bytes)) :=
  .of_built (Built.readLine : Built p False _)

theorem reply {response : Response} (h : p (.reply response)) :
    Adds p (Session.reply response : SessionM π H Unit) :=
  .of_built (Built.reply h : Built p False _)

theorem replyHello (h : ∀ response : Response, response.code = 250 → p (.reply response))
    (extended : Bool) : Adds p (Session.replyHello extended : SessionM π H Unit) :=
  .of_built (Built.replyHello h extended : Built p False _)

/-- An exchange adds nothing but challenges. -/
theorem handleAuth [Base64] (h : ∀ response : Response, response.code = 334 → p (.reply response))
    (method : AuthMethod) (initial : Option Bytes) :
    Adds p (Session.handleAuth method initial : SessionM π H AuthHandshakeResult) :=
  .of_built (Built.handleAuth h method initial : Built p False _)

end Adds

end Session

end PostGraph.Smtp
