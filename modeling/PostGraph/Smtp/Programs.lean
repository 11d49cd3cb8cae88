import PostGraph.Smtp.Session

/-! # What sessions are built of

Every program of a session is built of few operations: it reads lines, writes and
flushes, calls the handler, changes the session's own data and upgrades the connection.
What these keep, and sequencing keeps, holds of the whole session.
-/

namespace PostGraph.Smtp

open Foundation

variable {π H : Type}

/-- What a session does with its connection. -/
inductive Operation where
  | readLine
  | write (data : Bytes)
  | flush

def Operation.Answer : Operation → Type
  | readLine => Option Bytes
  | write _ => Unit
  | flush => Unit

def Operation.run [Transport π] :
    (operation : Operation) → Connection π → Except Error operation.Answer × Connection π
  | readLine, connection => readLineWithin (maxLineLength + 1) [] connection
  | write data, connection => Session.raise (connection.writeAll data)
  | flush, connection => Session.raise connection.flush

/-- A callback on a session's own events. -/
inductive Callback where
  | hello (domain : Text) (extended : Bool)
  | login (username password : Text)
  | mail (mail : Mail)
  | reset

def Callback.Answer : Callback → Type
  | hello _ _ => Except Text HelloResult
  | login _ _ => Except Text LoginResult
  | mail _ => Except Text Unit
  | reset => Except Text Unit

def Callback.call [Handler H] : (callback : Callback) → H → callback.Answer × H
  | hello domain extended, handler => Handler.onHello domain extended handler
  | login username password, handler => Handler.onLogin username password handler
  | mail content, handler => Handler.onMail content handler
  | reset, handler => Handler.onReset handler

/-- The entry of a callback in the log. -/
def Callback.event (isTls : Bool) : (callback : Callback) → callback.Answer → Event
  | hello domain extended, answer => .hello domain extended answer
  | login username password, answer => .login username password answer isTls
  | mail content, answer => .mail content answer isTls
  | reset, answer => .reset answer

/-- The configurations differ in their handlers at most. -/
structure SessionConfig.SameSettings (first second : SessionConfig H) : Prop where
  serverName : first.serverName = second.serverName
  authMode : first.authMode = second.authMode
  maxMessageSize : first.maxMessageSize = second.maxMessageSize

namespace Session
/-- Two sessions that look the same from inside, whatever their streams, handlers and
logs. -/
structure SameView (s t : Session π H) : Prop where
  settings : s.config.SameSettings t.config
  state : s.state = t.state
  isTls : s.connection.map Connection.isTls = t.connection.map Connection.isTls
  supportsTls : s.connection.map Connection.supportsTls = t.connection.map Connection.supportsTls

theorem SameView.hasAuth {s t : Session π H} (h : SameView s t) :
    s.config.hasAuth = t.config.hasAuth := by
  rw [SessionConfig.hasAuth, SessionConfig.hasAuth, h.settings.authMode]

variable [Transport π] [Handler H] {p : Event → Prop} {changes : Prop}

/-- Programs of a session that log events with `p` only, and that change its own data only
if `changes` is true. What a program does next depends on what the session sees of itself. -/
inductive Built (p : Event → Prop) (changes : Prop) : {α : Type} → SessionM π H α → Prop
  | pure {α : Type} (a : α) : Built p changes (Pure.pure a : SessionM π H α)
  | throw {α : Type} (error : Error) (herror : error ≠ .outOfFetches) :
      Built p changes (MonadExcept.throw error : SessionM π H α)
  | bind {α β : Type} {program : SessionM π H α} {next : α → SessionM π H β}
      (h : Built p changes program) (hnext : ∀ a, Built p changes (next a)) :
      Built p changes (program >>= next)
  | observe {α : Type} {next : Session π H → SessionM π H α}
      (h : ∀ session, Built p changes (next session))
      (hview : ∀ s t, SameView s t → next s = next t) : Built p changes (get >>= next)
  | operation (operation : Operation) : Built p changes (onConnection operation.run)
  | callback (callback : Callback) (isTls : Bool)
      (hevent : ∀ answer, p (callback.event isTls answer)) :
      Built p changes (callHandler callback.call (callback.event isTls))
  | change (change : SessionState → SessionState) (hchanges : changes) :
      Built p changes (modify fun session => { session with state := change session.state })
  | record (response : Response) (hevent : p (.reply response)) :
      Built p changes
        (modify fun session => { session with log := session.log ++ [.reply response] })
  | upgrade (hevent : p .startTls) (hchanges : changes) : Built p changes upgrade

/-- Programs that may do all of it. -/
abbrev Free {α : Type} (program : SessionM π H α) : Prop := Built (fun _ => True) True program

namespace Built

theorem readLine : Built p changes (Session.readLine : SessionM π H (Option Bytes)) :=
  operation .readLine

theorem reply {response : Response} (h : p (.reply response)) :
    Built p changes (Session.reply response : SessionM π H Unit) :=
  bind (operation (.write _)) fun _ => bind (operation .flush) fun _ => record _ h

/-- The replies to EHLO and HELO all have the same code. -/
theorem replyFeatures (h : ∀ response : Response, response.code = 250 → p (.reply response))
    (features : List Text) :
    Built p changes (Session.replyFeatures features : SessionM π H Unit) := by
  induction features with
  | nil => exact pure ()
  | cons feature rest ih =>
      cases rest with
      | nil => exact reply (h _ rfl)
      | cons next rest => exact bind (reply (h _ rfl)) fun _ => ih

theorem supportsTls : Built p changes (Session.supportsTls : SessionM π H Bool) := by
  apply observe
  · intro session
    cases session.connection with
    | none => exact throw _ (by simp)
    | some connection => exact pure _
  · intro s t h
    have hsame := h.supportsTls
    cases hs : s.connection <;> cases ht : t.connection <;> rw [hs, ht] at hsame
    · cases hsame
    · cases hsame
    · dsimp only
      rw [Option.some.inj hsame]

theorem replyHello (h : ∀ response : Response, response.code = 250 → p (.reply response))
    (extended : Bool) : Built p changes (Session.replyHello extended : SessionM π H Unit) := by
  apply observe
  · intro session
    cases extended with
    | false => exact reply (h _ rfl)
    | true =>
        refine bind (reply (h _ rfl)) fun _ => ?_
        exact bind supportsTls fun _ => replyFeatures h _
  · intro s t hview
    simp only [features, hview.hasAuth, hview.settings.serverName, hview.settings.maxMessageSize]

theorem help (h : ∀ response, p (.reply response)) :
    Built p changes (Session.help : SessionM π H Unit) :=
  bind (reply (h _)) fun _ => bind supportsTls fun _ => observe (fun _ => reply (h _))
    fun s t hview => by simp only [commands, hview.hasAuth]

theorem initialOrChallenge (initial : Option Bytes) {response : Response}
    (h : p (.reply response)) :
    Built p changes
      (Session.initialOrChallenge initial response : SessionM π H (Option Bytes)) := by
  cases initial with
  | some initial => exact pure _
  | none => exact bind (reply h) fun _ => readLine

section Mechanisms

variable [Base64]

theorem decodeLoginString (input : Bytes) :
    Built p changes (Session.decodeLoginString input : SessionM π H Text) := by
  unfold Session.decodeLoginString
  split
  · exact pure _
  · exact throw _ (by simp)

/-- An exchange sends nothing but challenges. -/
theorem handleAuth (h : ∀ response : Response, response.code = 334 → p (.reply response))
    (method : AuthMethod) (initial : Option Bytes) :
    Built p changes (Session.handleAuth method initial : SessionM π H AuthHandshakeResult) := by
  cases method with
  | plain =>
      apply bind (initialOrChallenge initial (h _ rfl))
      rintro (_ | credentials)
      · exact pure _
      · exact pure _
  | login =>
      apply bind (initialOrChallenge initial (h _ rfl))
      rintro (_ | username)
      · exact pure _
      · refine bind (decodeLoginString _) fun _ =>
          bind (bind (reply (h _ rfl)) fun _ => readLine) ?_
        rintro (_ | password)
        · exact pure _
        · exact bind (decodeLoginString _) fun _ => pure _

end Mechanisms

/-! ### All programs -/

theorem freeReply (response : Response) : Free (Session.reply response : SessionM π H Unit) :=
  reply trivial

theorem setPhase (phase : Phase) : Free (Session.setPhase phase : SessionM π H Unit) :=
  change (fun state => { state with phase }) trivial

theorem modifyMail (f : Mail → Mail) : Free (Session.modifyMail f : SessionM π H Unit) :=
  change (fun state => { state with currentMail := f state.currentMail }) trivial

theorem hello (domain : Text) (extended : Bool) :
    Free (Session.hello domain extended : SessionM π H Unit) := by
  apply observe
  · intro session
    split
    · exact reply trivial
    · apply bind (callback (.hello domain extended) false fun _ => trivial)
      intro answer
      split
      · exact bind (replyHello (fun _ _ => trivial) extended) fun _ => setPhase _
      · exact throw _ (by simp)
      · exact throw _ (by simp)
  · intro s t h
    rw [h.state]

theorem startTls : Free (Session.startTls : SessionM π H Unit) := by
  apply bind supportsTls
  intro supported
  split
  · exact reply trivial
  · apply observe
    · intro session
      split
      · exact reply trivial
      · exact bind (reply trivial) fun _ => upgrade trivial trivial
    · intro s t h
      rw [h.state]

theorem deliver : Free (Session.deliver : SessionM π H Unit) := by
  apply observe
  · intro session
    apply bind (callback (.mail session.state.currentMail) session.isTls fun _ => trivial)
    intro answer
    exact bind (reply trivial) fun _ => bind (modifyMail _) fun _ => setPhase _
  · intro s t h
    have htls : s.isTls = t.isTls := congrArg (·.getD false) h.isTls
    rw [h.state, htls]

theorem handleData (line : Bytes) :
    Free (Session.handleData line : SessionM π H HandleDataResult) := by
  unfold Session.handleData
  split
  · exact pure _
  · apply observe
    · intro session
      split
      · exact bind (reply trivial) fun _ => pure _
      · exact bind (modifyMail _) fun _ => pure _
    · intro s t h
      rw [h.state, h.settings.maxMessageSize]

theorem dataLine (line : Bytes) : Free (Session.dataLine line : SessionM π H Unit) := by
  apply bind (handleData line)
  rintro (_ | _ | _)
  · exact pure _
  · exact deliver
  · exact throw _ (by simp)

theorem inTransaction {phase : Phase} {action : SessionM π H Unit} (haction : Free action) :
    Free (Session.inTransaction phase action) := by
  apply observe
  · intro session
    split
    · exact reply trivial
    · split
      · exact reply trivial
      · exact haction
  · intro s t h
    rw [h.state, isAuthenticated, isAuthenticated, h.state, h.hasAuth]

theorem reset : Free (Session.reset : SessionM π H Unit) :=
  bind (change (fun _ => .new) trivial) fun _ => bind (reply trivial) fun _ =>
    bind (callback .reset false fun _ => trivial) fun _ => pure _

variable [Base64]

theorem login (method : AuthMethod) (initial : Option Bytes) :
    Free (Session.login method initial : SessionM π H Unit) := by
  apply bind (handleAuth (fun _ _ => trivial) method initial)
  rintro (⟨username, password⟩ | error)
  · apply observe
    · intro session
      apply bind (callback (.login username password) session.isTls fun _ => trivial)
      intro answer
      split
      · exact bind (reply trivial) fun _ =>
          change (fun state => { state with isAuthenticated := true }) trivial
      · exact bind (reply trivial) fun _ => throw _ (by simp)
      · exact bind (reply trivial) fun _ => throw _ (by simp)
    · intro s t h
      have htls : s.isTls = t.isTls := congrArg (·.getD false) h.isTls
      rw [htls]
  · exact reply trivial

theorem authenticate (method : AuthMethod) (initial : Option Bytes) :
    Free (Session.authenticate method initial : SessionM π H Unit) := by
  apply observe
  · intro session
    split
    · exact reply trivial
    · split
      · exact reply trivial
      · split
        · exact throw _ (by simp)
        · split
          · exact login method initial
          · exact reply trivial
      · exact login method initial
  · intro s t h
    have hsame := h.isTls
    rw [h.state, h.settings.authMode]
    cases hs : s.connection <;> cases ht : t.connection <;> rw [hs, ht] at hsame
    · cases hsame
    · cases hsame
    · dsimp only
      rw [Option.some.inj hsame]

theorem handleCommand (command : Command) :
    Free (Session.handleCommand command : SessionM π H Control) := by
  cases command with
  | hello domain extended => exact bind (hello _ _) fun _ => pure _
  | help => exact bind (help fun _ => trivial) fun _ => pure _
  | startTls => exact bind startTls fun _ => pure _
  | authenticate method initial => exact bind (authenticate _ _) fun _ => pure _
  | mail sender =>
      refine bind (inTransaction ?_) fun _ => pure _
      exact bind (modifyMail _) fun _ => bind (setPhase _) fun _ => reply trivial
  | recipient address =>
      exact bind (inTransaction (bind (modifyMail _) fun _ => reply trivial)) fun _ => pure _
  | data => exact bind (inTransaction (bind (setPhase _) fun _ => reply trivial)) fun _ => pure _
  | reset => exact bind reset fun _ => pure _
  | noOp => exact bind (reply trivial) fun _ => pure _
  | quit => exact bind (reply trivial) fun _ => pure _

theorem handleLine (line : Bytes) : Free (Session.handleLine line : SessionM π H Control) := by
  apply observe
  · intro session
    split
    · exact bind (dataLine line) fun _ => pure _
    · unfold commandLine
      split
      · exact handleCommand _
      · exact bind (reply trivial) fun _ => pure _
  · intro s t h
    rw [h.state]

theorem turn : Free (Session.turn : SessionM π H Control) := by
  apply bind readLine
  rintro (_ | line)
  · exact throw _ (by simp)
  · exact handleLine line

end Built

end Session

end PostGraph.Smtp
