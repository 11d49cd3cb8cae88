import PostGraph.Smtp.Entries
import PostGraph.Smtp.Execution
import PostGraph.Smtp.Ordering

/-! # Refusals

A line that is refused leaves the session as it was: what a command changes, and
the callbacks it makes, come only where none of its replies refuses it any more.
-/

namespace PostGraph.Smtp

open Foundation

/-- The codes of syntax errors, bad sequences and missing authentication. -/
def Response.Refuses (response : Response) : Prop :=
  response.code = 500 ∨ response.code = 503 ∨ response.code = 530

instance (response : Response) : Decidable response.Refuses :=
  inferInstanceAs (Decidable (response.code = 500 ∨ response.code = 503 ∨ response.code = 530))

/-- The code of completed commands refuses nothing, whatever the message. -/
theorem Response.not_refuses {response : Response} (h : response.code = 250) :
    ¬ response.Refuses := by
  rw [Refuses, h]
  decide

def Event.Refuses : Event → Prop
  | reply response => response.Refuses
  | _ => False

instance (event : Event) : Decidable event.Refuses :=
  match event with
  | .reply response => inferInstanceAs (Decidable response.Refuses)
  | .hello .. | .login .. | .mail .. | .reset .. | .startTls => .isFalse id

namespace Session

open Dialogue

variable {π H : Type}

/-- The entries that were added to the log refuse nothing. -/
abbrev Grants (session after : Session π H) : Prop := Grows (¬ ·.Refuses) session after

/-- The program refuses nothing. -/
abbrev Granting {α : Type} (program : SessionM π H α) : Prop := Adds (¬ ·.Refuses) program

theorem grants_challenge (response : Response) (h : response.code = 334) :
    ¬ (Event.reply response).Refuses := by
  change ¬ response.Refuses
  rw [Response.Refuses, h]
  decide

theorem grants_feature (response : Response) (h : response.code = 250) :
    ¬ (Event.reply response).Refuses :=
  Response.not_refuses h

/-! ## Lines that are refused -/

/-- The session has only replied since, or has refused nothing. -/
def Settles (session after : Session π H) : Prop :=
  Said session.dialogue after.dialogue ∨ Grants session after

/-- Whenever the program returns, it has only replied, or refused nothing. -/
def Settled {α : Type} (program : SessionM π H α) : Prop :=
  ∀ session, Sat program session (fun _ after => Settles session after) fun _ _ => True

theorem Says.settled {α : Type} {program : SessionM π H α} (h : Says program) : Settled program :=
  fun session => (h session).mono (fun _ _ => .inl) fun _ _ _ => trivial

theorem Granting.settled {α : Type} {program : SessionM π H α} (h : Granting program) :
    Settled program :=
  fun session => (h session).mono (fun _ _ => .inr) fun _ _ _ => trivial

namespace Settled

variable {α β : Type}

theorem get_bind {next : Session π H → SessionM π H α} (h : ∀ session,
    Sat (next session) session (fun _ after => Settles session after) fun _ _ => True) :
    Settled (get >>= next) :=
  fun session => Sat.get_bind (h session)

/-- A program behind one that only replied and refused nothing. -/
theorem bind {program : SessionM π H α} {next : α → SessionM π H β} (hspeaks : Says program)
    (hgrants : Granting program) (hnext : ∀ a, Settled (next a)) : Settled (program >>= next) := by
  intro session
  have hboth := (hspeaks session).and (hgrants session)
  apply Sat.bind (hboth.mono (fun _ _ => id) fun _ _ _ => trivial)
  rintro a middle ⟨hsaid, hgranted⟩
  apply (hnext a middle).mono
  · rintro _ after (hsaid' | hgranted')
    · exact .inl (hsaid.trans hsaid')
    · exact .inr (hgranted.trans hgranted')
  · exact fun _ _ => id

theorem then_return {program : SessionM π H α} (h : Settled program) (b : β) :
    Settled (program >>= fun _ => Pure.pure b) :=
  fun session => Sat.bind (h session) fun _ _ hsettles => hsettles

variable [Transport π] [Handler H]

theorem reply (response : Response) : Settled (Session.reply response : SessionM π H Unit) :=
  (Says.reply response).settled

theorem startTls : Settled (Session.startTls : SessionM π H Unit) := by
  apply bind Says.supportsTls Adds.supportsTls
  rintro (_ | _)
  · exact reply _
  · apply get_bind
    intro session
    split
    · exact reply _ session
    · exact Granting.settled (Adds.bind (Adds.reply (by decide)) fun _ => Adds.upgrade id) session

theorem inTransaction {phase : Phase} {action : SessionM π H Unit} (h : Granting action) :
    Settled (Session.inTransaction phase action) := by
  apply get_bind
  intro session
  split
  · exact reply _ session
  · split
    · exact reply _ session
    · exact h.settled session

theorem mail (sender : Text) : Settled (Session.mail sender : SessionM π H Unit) :=
  inTransaction <| .bind (.modify fun _ => rfl) fun _ =>
    .bind (.modify fun _ => rfl) fun _ => .reply (by decide)

theorem recipient (address : Text) : Settled (Session.recipient address : SessionM π H Unit) :=
  inTransaction <| .bind (.modify fun _ => rfl) fun _ => .reply (by decide)

theorem data : Settled (Session.data : SessionM π H Unit) :=
  inTransaction <| .bind (.modify fun _ => rfl) fun _ => .reply (by decide)

theorem hello (domain : Text) (extended : Bool) :
    Settled (Session.hello domain extended : SessionM π H Unit) := by
  apply get_bind
  intro session
  split
  · exact reply _ session
  · refine Granting.settled (Adds.bind (Adds.callHandler fun _ => id) ?_) session
    intro answer
    split
    · exact .bind (.replyHello grants_feature _) fun _ => .modify fun _ => rfl
    · exact .throw _
    · exact .throw _

theorem reset : Settled (Session.reset : SessionM π H Unit) :=
  Granting.settled <| .bind (.modify fun _ => rfl) fun _ =>
    .bind (.reply (by decide)) fun _ => .bind (.callHandler fun _ => id) fun _ => .pure _

variable [Base64]

/-- Credentials that cannot be read are refused before the handler sees them. -/
theorem login (method : AuthMethod) (initial : Option Bytes) :
    Settled (Session.login method initial : SessionM π H Unit) := by
  apply bind (Says.handleAuth method initial) (Adds.handleAuth grants_challenge method initial)
  intro result
  cases result with
  | syntaxError error => exact reply _
  | ok username password =>
      apply Granting.settled
      refine .bind .get fun session => .bind (.callHandler fun _ => id) ?_
      intro answer
      split
      · exact .bind (.reply (by decide)) fun _ => .modify fun _ => rfl
      · exact .bind (.reply (by decide)) fun _ => .throw _
      · exact .bind (.reply (by decide)) fun _ => .throw _

theorem authenticate (method : AuthMethod) (initial : Option Bytes) :
    Settled (Session.authenticate method initial : SessionM π H Unit) := by
  apply get_bind
  intro session
  split
  · exact reply _ session
  · split
    · exact reply _ session
    · split
      · exact (Says.throw _).settled session
      · split
        · exact login method initial session
        · exact reply _ session
    · exact login method initial session

theorem handleCommand (command : Command) :
    Settled (Session.handleCommand command : SessionM π H Control) := by
  cases command with
  | hello domain extended => exact (hello domain extended).then_return _
  | help => exact Says.help.settled.then_return _
  | startTls => exact startTls.then_return _
  | authenticate method initial => exact (authenticate method initial).then_return _
  | mail sender => exact (mail sender).then_return _
  | recipient address => exact (recipient address).then_return _
  | data => exact data.then_return _
  | reset => exact reset.then_return _
  | noOp => exact (reply _).then_return _
  | quit => exact (reply _).then_return _

theorem commandLine (line : Bytes) :
    Settled (Session.commandLine line : SessionM π H Control) := by
  unfold Session.commandLine
  split
  · exact handleCommand _
  · exact (reply _).then_return _

end Settled

variable [Transport π] [Handler H] [Base64]

theorem turn_settles {session : Session π H} (hphase : session.state.phase ≠ .data) :
    Sat turn session (fun _ after => Settles session after) fun _ _ => True := by
  have hgranting : Granting (Session.readLine : SessionM π H (Option Bytes)) := Adds.readLine
  have hread := (Says.readLine session).and (hgranting session)
  apply Sat.bind (hread.mono (fun _ _ => id) fun _ _ _ => trivial)
  rintro (_ | line) middle ⟨⟨replies, hreplies⟩, hgranted⟩
  · trivial
  · have hmiddle : middle.state.phase ≠ .data := by
      have hstate : middle.state = session.state := congrArg (·.state) hreplies
      rwa [hstate]
    apply Sat.get_bind
    rw [if_neg (by simpa [SessionState.inPhase] using hmiddle)]
    apply (Settled.commandLine line middle).mono
    · rintro _ after (hsaid | hgranted')
      · exact .inl (.trans ⟨replies, hreplies⟩ hsaid)
      · exact .inr (hgranted.trans hgranted')
    · exact fun _ _ => id

/-- A line outside the data phase that is refused, and behind which the session goes
on, changes nothing and calls nobody: all that is new are replies. -/
theorem refusal_keeps_state {session after : Session π H}
    (hphase : session.state.phase ≠ .data) (hnext : iteration session = .running after)
    {entries : List Event} (hlog : after.log = session.log ++ entries) {response : Response}
    (hreplied : .reply response ∈ entries)
    (hrefused : response.code = 500 ∨ response.code = 503 ∨ response.code = 530) :
    after.state = session.state ∧ after.config = session.config ∧
      after.connection.map Connection.security = session.connection.map Connection.security ∧
      ∀ entry ∈ entries, ∃ reply, entry = .reply reply := by
  have hturn := turn_of_running hnext
  rcases (turn_settles hphase).of_ok hturn with ⟨replies, hsaid⟩ | ⟨granted, hgranted, hnone⟩
  · have hentries : session.log ++ entries = session.log ++ replies.map .reply :=
      hlog.symm.trans (congrArg (·.log) hsaid)
    rw [List.append_cancel_left hentries]
    refine ⟨congrArg (·.state) hsaid, congrArg (·.config) hsaid, congrArg (·.security) hsaid, ?_⟩
    intro entry hentry
    obtain ⟨reply, -, rfl⟩ := List.mem_map.mp hentry
    exact ⟨reply, rfl⟩
  · have hentries := List.append_cancel_left (hlog.symm.trans hgranted)
    have hgrants : ¬ response.Refuses := hnone (.reply response) (hentries ▸ hreplied)
    exact absurd hrefused hgrants

end Session

/-- A client that greets and then cancels a login. -/
def cancellingClient : Connection Wire :=
  .newPlain ⟨[ascii "EHLO c\r\nAUTH PL", ascii "AIN\r\n*\r\n"], [], by decide, Wire.noChunks⟩ none

section Sample

open Session

attribute [local instance] sampleBase64

/-- The session after the client's greeting. -/
def cancellingSession : Session Wire Unit :=
  (handle 1 (new cancellingClient ⟨(), "s".toList, .always, 100⟩)).state

/-- The challenge and the refusal are all that is new. -/
theorem Session.refusal_keeps_state_cancelled : ∃ after,
    iteration cancellingSession = .running after ∧
    after.log = cancellingSession.log ++
      [.reply .authChallengePlain, .reply (.syntaxError (some "invalid base64 data".toList))] ∧
    after.state = cancellingSession.state ∧ after.config = cancellingSession.config := by
  have hruns : (iteration cancellingSession).Holds
      (fun after => after.log = cancellingSession.log ++ [.reply .authChallengePlain,
        .reply (.syntaxError (some "invalid base64 data".toList))]) fun _ => False := by
    decide +kernel
  cases hflow : iteration cancellingSession with
  | running after =>
      rw [hflow] at hruns
      obtain ⟨hstate, hconfig, -, -⟩ := refusal_keeps_state (by decide +kernel) hflow hruns
        (List.mem_cons_of_mem _ List.mem_cons_self) (.inl rfl)
      exact ⟨after, rfl, hruns, hstate, hconfig⟩
  | stopped after result =>
      rw [hflow] at hruns
      exact hruns.elim

end Sample

end PostGraph.Smtp
