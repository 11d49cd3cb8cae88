import PostGraph.Smtp.Dialogue
import PostGraph.Smtp.Programs

/-! # Sessions refine dialogues

Whatever the stream does, each iteration of a session is a turn of its
dialogue, and a session that ends closes it.
-/

namespace PostGraph.Smtp

open Foundation

variable {π H : Type}

namespace Connection

def security : Connection π → Security
  | plain _ acceptor => .plain acceptor.isSome
  | tls _ => .tls

@[simp] theorem withStream_security (connection : Connection π) (stream : BufReader π) :
    (connection.withStream stream).security = connection.security := by
  cases connection <;> rfl

theorem startTls_ok [Transport π] {connection secured : Connection π}
    (h : connection.startTls = .ok secured) :
    connection.security = .plain true ∧ secured.security = .tls := by
  unfold startTls at h
  split at h
  next stream acceptor =>
    split at h
    next inner haccept =>
      cases h
      exact ⟨rfl, rfl⟩
    next => cases h
  next => cases h
  next => cases h

end Connection

theorem readLineWithin_security [Transport π] (fetches : Nat) (line : Bytes)
    (connection : Connection π) :
    (readLineWithin fetches line connection).2.security = connection.security := by
  induction fetches generalizing line connection with
  | zero => rfl
  | succ fetches ih =>
      have hfill : connection.fillBuf.2.security = connection.security := by
        simp [Connection.fillBuf]
      rw [readLineWithin]
      split
      next error after heq => rwa [heq] at hfill
      next buf after heq =>
        rw [heq] at hfill
        have hconsume : (after.consume (lineOctets buf)).security = after.security := by
          simp [Connection.consume]
        dsimp only
        split
        · split <;> exact hfill
        · split
          · exact hfill
          · split
            · rw [hconsume, hfill]
            · rw [ih, hconsume, hfill]

theorem Operation.run_security [Transport π] (operation : Operation) (connection : Connection π) :
    (operation.run connection).2.security = connection.security := by
  cases operation with
  | readLine => exact readLineWithin_security _ _ connection
  | write data => simp [run, Session.raise, Connection.writeAll]
  | flush => simp [run, Session.raise, Connection.flush]

namespace Session

open Dialogue

def dialogue (session : Session π H) : Dialogue H :=
  ⟨session.config, session.state, session.log, session.connection.map Connection.security⟩

theorem dialogue_isTls (session : Session π H) : session.dialogue.isTls = session.isTls := by
  unfold Dialogue.isTls isTls dialogue
  cases session.connection with
  | none => rfl
  | some connection => cases connection <;> rfl

/-! ## Programs that only speak -/

/-- The program sends replies, and then returns or fails. -/
def Says {α : Type} (program : SessionM π H α) : Prop :=
  ∀ session, Sat program session (fun _ after => Said session.dialogue after.dialogue)
    (fun _ after => Said session.dialogue after.dialogue)

namespace Says

variable {α β : Type}

theorem pure (a : α) : Says (Pure.pure a : SessionM π H α) := fun _ => .refl _

theorem throw (error : Error) : Says (throw error : SessionM π H α) := fun _ => .refl _

theorem bind {program : SessionM π H α} {next : α → SessionM π H β} (h : Says program)
    (hnext : ∀ a, Says (next a)) : Says (program >>= next) := by
  intro session
  apply Sat.bind (h session)
  intro a after hafter
  exact (hnext a after).mono (fun _ last => hafter.trans) (fun _ last => hafter.trans)

variable [Transport π]

theorem operation (operation : Operation) :
    Says (onConnection operation.run : SessionM π H operation.Answer) := by
  intro session
  unfold Sat onConnection
  cases hconnection : session.connection with
  | none => exact .refl _
  | some connection =>
      have hsame := operation.run_security connection
      have hdialogue : { session with connection := some (operation.run connection).2 }.dialogue =
          session.dialogue := by
        simp [dialogue, hconnection, hsame]
      cases hoperation : operation.run connection with
      | mk result after =>
          rw [hoperation] at hdialogue
          simp only [hoperation]
          cases result <;> exact hdialogue ▸ .refl _

variable [Handler H]

/-- A program that logs replies only, and changes nothing of the session's own. -/
theorem of_built {program : SessionM π H α}
    (h : Built (fun event => ∃ response, event = .reply response) False program) :
    Says program := by
  induction h with
  | pure a => exact pure a
  | throw error herror => exact throw error
  | bind h hnext ih ihnext => exact bind ih ihnext
  | observe h hview ih => exact fun session => ih session session
  | operation operation => exact Says.operation operation
  | callback callback isTls hevent =>
      obtain ⟨answer, hanswer⟩ : ∃ answer, ∀ response, callback.event isTls answer ≠
          .reply response := by cases callback <;> exact ⟨.error [], nofun⟩
      obtain ⟨response, hreply⟩ := hevent answer
      exact absurd hreply (hanswer response)
  | change change hchanges => exact hchanges.elim
  | record response hevent => exact fun _ => ⟨[response], rfl⟩
  | upgrade hevent hchanges => exact hchanges.elim

theorem supportsTls : Says (Session.supportsTls : SessionM π H Bool) := .of_built .supportsTls

theorem readLine : Says (Session.readLine : SessionM π H (Option Bytes)) := .of_built .readLine

theorem reply (response : Response) : Says (Session.reply response : SessionM π H Unit) :=
  .of_built (.reply ⟨_, rfl⟩)

theorem replyHello (extended : Bool) : Says (Session.replyHello extended : SessionM π H Unit) :=
  .of_built (.replyHello (fun _ _ => ⟨_, rfl⟩) extended)

theorem help : Says (Session.help : SessionM π H Unit) := .of_built (.help fun _ => ⟨_, rfl⟩)

theorem handleAuth [Base64] (method : AuthMethod) (initial : Option Bytes) :
    Says (Session.handleAuth method initial : SessionM π H AuthHandshakeResult) :=
  .of_built (.handleAuth (fun _ _ => ⟨_, rfl⟩) method initial)

end Says

/-! ## Programs that make a turn -/

section Refines

variable {α β : Type}

/-- The session after a callback. -/
def heard (session : Session π H) (handler : H) (event : Event) : Session π H :=
  { session with
    config := { session.config with handler }
    log := session.log ++ [event] }

theorem callHandler_bind {callback : H → α × H} {event : α → Event}
    {next : α → SessionM π H β} {session : Session π H} {ok : β → Session π H → Prop}
    {err : Error → Session π H → Prop}
    (h : Sat (next (callback session.config.handler).1)
      (session.heard (callback session.config.handler).2
        (event (callback session.config.handler).1)) ok err) :
    Sat (callHandler callback event >>= next) session ok err := h

variable [Handler H]

/-- The program is a turn of the dialogue, or closes it. -/
def Refines (program : SessionM π H α) : Prop :=
  ∀ session, Sat program session (fun _ after => Turn session.dialogue after.dialogue)
    (fun _ after => Close session.dialogue after.dialogue)

theorem Says.refines {program : SessionM π H α} (h : Says program) : Refines program :=
  fun session => (h session).mono (fun _ _ => Turn.of_said)
    (fun _ _ hsaid => (Turn.of_said hsaid).close)

/-- What a turn, or the close after a QUIT, makes of the dialogue. -/
def Continues (d : Dialogue H) (control : Control) (d' : Dialogue H) : Prop :=
  match control with
  | .next => Turn d d'
  | .quit => Close d d'

theorem Refines.then_next {program : SessionM π H Unit} (h : Refines program)
    (session : Session π H) :
    Sat (do program; return Control.next) session
      (fun control after => Continues session.dialogue control after.dialogue)
      (fun _ after => Close session.dialogue after.dialogue) :=
  Sat.bind (h session) fun _ _ hturn => hturn

theorem Says.bind_sat {program : SessionM π H α} {next : α → SessionM π H β}
    {session : Session π H} (h : Says program)
    (hnext : ∀ a after, Said session.dialogue after.dialogue →
      Sat (next a) after (fun _ last => Turn after.dialogue last.dialogue)
        (fun _ last => Close after.dialogue last.dialogue)) :
    Sat (program >>= next) session (fun _ after => Turn session.dialogue after.dialogue)
      (fun _ after => Close session.dialogue after.dialogue) := by
  refine Sat.bind ((h session).mono (fun _ _ hsaid => hsaid)
    fun _ _ hsaid => (Turn.of_said hsaid).close) ?_
  intro a after hsaid
  exact (hnext a after hsaid).mono (fun _ _ => Turn.after_said hsaid)
    (fun _ _ => Close.after_said hsaid)

/-- An act before whose replies the session has updated its own state. -/
theorem Says.after_act {program : SessionM π H α} (h : Says program) {d : Dialogue H}
    {session : Session π H} (hact : Act d session.dialogue) :
    Sat program session (fun _ after => Turn d after.dialogue)
      (fun _ after => Close d after.dialogue) :=
  (h session).mono (fun _ _ hsaid => ⟨d, _, .refl d, .inr hact, hsaid⟩)
    (fun _ _ hsaid => ⟨d, _, _, .refl d, .inr (.inl hact), hsaid, rfl, rfl⟩)

/-- An act after whose replies the session still updates its own state. -/
theorem Says.then_update {program : SessionM π H α} (h : Says program) {d : Dialogue H}
    {session : Session π H} {next : α → SessionM π H Unit} (update : SessionState → SessionState)
    (hnext : ∀ a after, next a after = .ok () { after with state := update after.state })
    (hact : Act d { session.dialogue with state := update session.dialogue.state }) :
    Sat (program >>= next) session (fun _ after => Turn d after.dialogue)
      (fun _ after => Close d after.dialogue) := by
  refine Sat.bind ((h session).mono (fun _ _ hsaid => hsaid) ?_) ?_
  · rintro _ after ⟨replies, hreplies⟩
    refine ⟨d, _, _, .refl d, .inr (.inl hact), ⟨replies, rfl⟩, ?_, ?_⟩ <;> rw [hreplies] <;> rfl
  · rintro a after ⟨replies, hreplies⟩
    unfold Sat
    rw [hnext]
    have hafter : { after with state := update after.state }.dialogue =
        { after.dialogue with state := update after.dialogue.state } := rfl
    exact ⟨d, _, .refl d, .inr hact, replies, by rw [hafter, hreplies]; rfl⟩

theorem Says.after_parting {program : SessionM π H α} (h : Says program) {d : Dialogue H}
    {session : Session π H} (hparting : Parting d session.dialogue) (error : Error) :
    Sat (program >>= fun _ => MonadExcept.throw error : SessionM π H β) session
      (fun _ after => Turn d after.dialogue) (fun _ after => Close d after.dialogue) := by
  have hclose : ∀ after : Session π H, Said session.dialogue after.dialogue →
      Close d after.dialogue :=
    fun after hsaid => ⟨d, _, _, .refl d, .inr (.inr hparting), hsaid, rfl, rfl⟩
  exact Sat.bind ((h session).mono (fun _ _ hsaid => hsaid) fun _ => hclose)
    fun _ after hsaid => hclose after hsaid

variable [Transport π]

theorem deliver_sat {session : Session π H} (hphase : session.state.phase = .data) :
    Sat deliver session (fun _ after => Turn session.dialogue after.dialogue)
      (fun _ after => Close session.dialogue after.dialogue) := by
  have hact : Act session.dialogue _ := Act.deliver hphase rfl
  rw [dialogue_isTls] at hact
  unfold deliver
  exact Sat.get_bind <| callHandler_bind <| (Says.reply _).then_update
    (fun state => { state with currentMail := .empty, phase := .greeted })
    (fun _ _ => rfl) hact

theorem handleData_sat (line : Bytes) {session : Session π H}
    (hphase : session.state.phase = .data) :
    Sat (handleData line) session
      (fun result after => match result with
        | .continue => Turn session.dialogue after.dialogue
        | .dataEnd => after = session
        | .dataTooLong => Close session.dialogue after.dialogue)
      (fun _ after => Close session.dialogue after.dialogue) := by
  unfold handleData
  split
  next hend => exact rfl
  next hline =>
    apply Sat.get_bind
    split
    next hlong =>
      exact Sat.bind ((Says.reply _).refines session) fun _ after hturn => hturn.close
    next hfits =>
      have hact : Act session.dialogue _ :=
        Act.capture (unstuff line) hphase (Nat.le_of_not_lt hfits)
      exact ⟨_, _, .refl _, .inr hact, .refl _⟩

theorem dataLine_sat (line : Bytes) {session : Session π H} (hphase : session.state.phase = .data) :
    Sat (dataLine line) session (fun _ after => Turn session.dialogue after.dialogue)
      (fun _ after => Close session.dialogue after.dialogue) := by
  apply Sat.bind (handleData_sat line hphase)
  rintro (_ | _ | _) after hafter
  · exact hafter
  · rw [hafter]
    exact deliver_sat hphase
  · exact hafter

theorem hello_refines (domain : Text) (extended : Bool) :
    Refines (hello domain extended : SessionM π H Unit) := by
  intro session
  unfold hello
  apply Sat.get_bind
  split
  next => exact (Says.reply _).refines session
  next hphase =>
    have hphase : session.state.phase = .connected := by
      simpa [SessionState.inPhase] using hphase
    apply callHandler_bind
    cases hanswer : Handler.onHello domain extended session.config.handler with
    | mk answer handler =>
        dsimp only
        split
        next =>
          have hact : Act session.dialogue _ := Act.greet hphase hanswer
          exact (Says.replyHello _).then_update (fun state => { state with phase := .greeted })
            (fun _ _ => rfl) hact
        next =>
          have hparting : Parting session.dialogue _ := Parting.hello hphase hanswer (by simp)
          exact (Says.pure ()).after_parting hparting _
        next =>
          have hparting : Parting session.dialogue _ := Parting.hello hphase hanswer (by simp)
          exact (Says.pure ()).after_parting hparting _

theorem upgrade_sat {session : Session π H} (hphase : session.state.phase = .greeted) :
    Sat upgrade session (fun _ after => Turn session.dialogue after.dialogue)
      (fun _ after => Close session.dialogue after.dialogue) := by
  unfold Sat upgrade
  cases hconnection : session.connection with
  | none => exact (Turn.of_said (.refl _)).close
  | some connection =>
      dsimp only
      cases hupgrade : connection.startTls with
      | error error => exact ⟨_, _, _, .refl _, .inl rfl, .refl _, rfl, rfl⟩
      | ok secured =>
          obtain ⟨hplain, htls⟩ := Connection.startTls_ok hupgrade
          have hact : Act session.dialogue _ :=
            Act.secure hphase (by simp [dialogue, hconnection, hplain])
          refine ⟨_, _, .refl _, .inr hact, [], ?_⟩
          simp [dialogue, htls, cleared, Dialogue.secured, say]

theorem startTls_refines : Refines (startTls : SessionM π H Unit) := by
  intro session
  apply Says.supportsTls.bind_sat
  intro supported after _
  cases supported with
  | false => exact (Says.reply _).refines after
  | true =>
      apply Sat.get_bind
      split
      next => exact (Says.reply _).refines after
      next hphase =>
        have hphase : after.state.phase = .greeted := by
          simpa [SessionState.inPhase] using hphase
        refine (Says.reply _).bind_sat fun _ last ⟨replies, hreplies⟩ => upgrade_sat ?_
        change last.dialogue.state.phase = .greeted
        rw [hreplies]
        exact hphase

/-! ## Transactions and logins -/

theorem inTransaction_refines {phase : Phase} {action : SessionM π H Unit}
    (haction : ∀ session : Session π H, session.state.phase = phase →
      session.dialogue.isAuthenticated = true →
      Sat action session (fun _ after => Turn session.dialogue after.dialogue)
        (fun _ after => Close session.dialogue after.dialogue)) :
    Refines (inTransaction phase action) := by
  intro session
  unfold inTransaction
  apply Sat.get_bind
  split
  next => exact (Says.reply _).refines session
  next hphase =>
    split
    next => exact (Says.reply _).refines session
    next hallowed =>
      have hallowed : session.isAuthenticated = true := by simpa using hallowed
      exact haction session (by simpa [SessionState.inPhase] using hphase) hallowed

theorem mail_refines (sender : Text) : Refines (mail sender : SessionM π H Unit) :=
  inTransaction_refines fun _ hphase hallowed =>
    Sat.modify_bind <| Sat.modify_bind <|
      (Says.reply _).after_act (Act.mail sender hphase hallowed)

theorem recipient_refines (address : Text) :
    Refines (recipient address : SessionM π H Unit) :=
  inTransaction_refines fun _ hphase hallowed =>
    Sat.modify_bind <| (Says.reply _).after_act (Act.recipient address hphase hallowed)

theorem data_refines : Refines (data : SessionM π H Unit) :=
  inTransaction_refines fun _ hphase hallowed =>
    Sat.modify_bind <| (Says.reply _).after_act (Act.data hphase hallowed)

theorem reset_refines : Refines (reset : SessionM π H Unit) := by
  intro session
  have hreply : Sat (reply .reset) { session with state := .new }
      (fun _ after => Said session.dialogue.cleared after.dialogue)
      (fun _ after => Close session.dialogue after.dialogue) := by
    apply (Says.reply _ _).mono (fun _ _ hsaid => hsaid)
    rintro _ after ⟨replies, hreplies⟩
    refine ⟨_, _, _, .refl _, .inl rfl, ⟨replies, rfl⟩, ?_, ?_⟩ <;> rw [hreplies] <;> rfl
  refine Sat.modify_bind <| Sat.bind hreply ?_
  rintro _ after ⟨replies, hreplies⟩
  have hact : Act (session.dialogue.say replies) _ := Act.reset rfl
  have hhandler : after.config.handler = session.config.handler :=
    congrArg (fun d => d.config.handler) hreplies
  refine callHandler_bind ⟨_, _, ⟨replies, rfl⟩, .inr hact, [], ?_⟩
  rw [hhandler]
  change after.dialogue.heard _ _ = _
  rw [hreplies]
  simp only [say, cleared, Dialogue.heard, List.map_nil, List.append_nil]
  rfl

/-- The banner is all that a session says by itself. -/
theorem greet_said (session : Session π H) :
    (greet session).Holds (fun after => Said session.dialogue after.dialogue)
      (fun after => Said session.dialogue after.dialogue) := by
  have hreply := Says.reply (.banner session.config.serverName) session
  unfold greet
  cases hresult : reply _ session with
  | ok result after => exact hreply.of_ok hresult
  | error error after => exact hreply.of_error hresult

theorem greet_refines (session : Session π H) :
    (greet session).Holds (fun after => Turn session.dialogue after.dialogue)
      (fun after => Close session.dialogue after.dialogue) :=
  (greet_said session).mono (fun _ => Turn.of_said) (fun _ hsaid => (Turn.of_said hsaid).close)

variable [Base64]

theorem login_sat (method : AuthMethod) (initial : Option Bytes) {session : Session π H}
    (hphase : session.state.phase = .greeted) (hmode : session.dialogue.MayLogIn) :
    Sat (login method initial) session (fun _ after => Turn session.dialogue after.dialogue)
      (fun _ after => Close session.dialogue after.dialogue) := by
  refine (Says.handleAuth method initial).bind_sat fun result after ⟨replies, hreplies⟩ => ?_
  cases result with
  | syntaxError error => exact (Says.reply _).refines after
  | ok username password =>
      have hphase : after.dialogue.state.phase = .greeted := hreplies ▸ hphase
      have hmode : after.dialogue.MayLogIn := hreplies ▸ hmode
      refine Sat.get_bind (callHandler_bind ?_)
      cases hanswer : Handler.onLogin username password after.config.handler with
      | mk answer handler =>
          have hpart : answer ≠ .ok .ok → Parting after.dialogue _ :=
            fun hrejected => Parting.login hphase hmode hanswer hrejected
          rw [dialogue_isTls] at hpart
          dsimp only
          split
          next =>
            have hact : Act after.dialogue _ := Act.logIn hphase hmode hanswer
            rw [dialogue_isTls] at hact
            exact (Says.reply _).then_update (fun state => { state with isAuthenticated := true })
              (fun _ _ => rfl) hact
          next => exact (Says.reply _).after_parting (hpart (by simp)) _
          next => exact (Says.reply _).after_parting (hpart (by simp)) _

theorem authenticate_refines (method : AuthMethod) (initial : Option Bytes) :
    Refines (authenticate method initial : SessionM π H Unit) := by
  intro session
  unfold authenticate
  apply Sat.get_bind
  split
  next => exact (Says.reply _).refines session
  next hphase =>
    have hphase : session.state.phase = .greeted := by
      simpa [SessionState.inPhase] using hphase
    cases hmode : session.config.authMode with
    | none => exact (Says.reply _).refines session
    | always => exact login_sat method initial hphase (.inl hmode)
    | requireTls =>
        dsimp only
        cases hconnection : session.connection with
        | none => exact (Says.throw _).refines session
        | some connection =>
            dsimp only
            split
            next htls =>
              have hsecure : session.dialogue.isTls = true := by
                rw [dialogue_isTls, isTls, hconnection]
                exact htls
              exact login_sat method initial hphase (.inr ⟨hmode, hsecure⟩)
            next => exact (Says.reply _).refines session

/-! ## Whole sessions -/

theorem handleCommand_sat (command : Command) (session : Session π H) :
    Sat (handleCommand command) session
      (fun control after => Continues session.dialogue control after.dialogue)
      (fun _ after => Close session.dialogue after.dialogue) := by
  cases command with
  | hello domain extended => exact (hello_refines domain extended).then_next session
  | help => exact Says.help.refines.then_next session
  | startTls => exact startTls_refines.then_next session
  | authenticate method initial => exact (authenticate_refines method initial).then_next session
  | mail sender => exact (mail_refines sender).then_next session
  | recipient address => exact (recipient_refines address).then_next session
  | data => exact data_refines.then_next session
  | reset => exact reset_refines.then_next session
  | noOp => exact (Says.reply _).refines.then_next session
  | quit => exact Sat.bind ((Says.reply _).refines session) fun _ _ hturn => hturn.close

theorem handleLine_sat (line : Bytes) (session : Session π H) :
    Sat (handleLine line) session
      (fun control after => Continues session.dialogue control after.dialogue)
      (fun _ after => Close session.dialogue after.dialogue) := by
  apply Sat.get_bind
  split
  next hphase =>
    have hphase : session.state.phase = .data := by
      simpa [SessionState.inPhase] using hphase
    exact Sat.bind (dataLine_sat line hphase) fun _ _ hturn => hturn
  next =>
    unfold commandLine
    split
    next command _ => exact handleCommand_sat command session
    next error _ => exact (Says.reply _).refines.then_next session

theorem turn_sat (session : Session π H) :
    Sat turn session
      (fun control after => Continues session.dialogue control after.dialogue)
      (fun _ after => Close session.dialogue after.dialogue) := by
  refine Sat.bind ((Says.readLine session).mono (fun _ _ hsaid => hsaid)
    fun _ _ hsaid => (Turn.of_said hsaid).close) ?_
  rintro (_ | line) after hsaid
  · exact (Turn.of_said hsaid).close
  · refine (handleLine_sat line after).mono ?_ fun _ _ hclose => hclose.after_said hsaid
    rintro (_ | _) last hcontinues
    · exact Turn.after_said hsaid hcontinues
    · exact Close.after_said hsaid hcontinues

/-- Each iteration of a session is a turn of its dialogue, or closes it. -/
theorem iteration_refines (session : Session π H) :
    (iteration session).Holds (fun after => Turn session.dialogue after.dialogue)
      (fun after => Close session.dialogue after.dialogue) := by
  have hturn := turn_sat session
  unfold iteration
  cases hresult : turn session with
  | ok control after =>
      have hcontinues := hturn.of_ok hresult
      cases control <;> exact hcontinues
  | error error after => exact hturn.of_error hresult

section Invariant

variable {live : Dialogue H → Prop} {ended : SessionConfig H → List Event → Prop}

omit [Base64] in
/-- What turns preserve holds after the banner. -/
theorem greet_holds (hinvariant : Invariant live ended) {session : Session π H}
    (hsession : live session.dialogue) :
    (greet session).Holds (fun after => live after.dialogue)
      (fun after => ended after.config after.log) :=
  (greet_refines session).mono (fun _ => hinvariant.turn hsession)
    (fun _ => hinvariant.close hsession)

/-- What turns preserve holds after one more line. -/
theorem iteration_holds (hinvariant : Invariant live ended) {session : Session π H}
    (hsession : live session.dialogue) :
    (iteration session).Holds (fun after => live after.dialogue)
      (fun after => ended after.config after.log) :=
  (iteration_refines session).mono (fun _ => hinvariant.turn hsession)
    (fun _ => hinvariant.close hsession)

/-- What turns preserve holds after any number of lines of a session. -/
theorem handle_holds (hinvariant : Invariant live ended) {session : Session π H}
    (hsession : live session.dialogue) (turns : Nat) :
    (handle turns session).Holds (fun after => live after.dialogue)
      (fun after => ended after.config after.log) :=
  Flow.iterate_holds (fun _ => iteration_holds hinvariant) (greet_holds hinvariant hsession) turns

end Invariant

end Refines

end Session

end PostGraph.Smtp
