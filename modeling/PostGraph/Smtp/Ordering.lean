import PostGraph.Foundation.History
import PostGraph.Smtp.Refinement
import PostGraph.Smtp.Wire

/-! # The order of callbacks

Where authentication is required, a mail reaches the handler only after an
accepted hello and then an accepted login, since the last reset and the last
upgrade to TLS.
-/

namespace PostGraph.Smtp

open Foundation Foundation.History

namespace Event

/-- Entries that take a session back to its start. -/
def StartsOver : Event → Prop
  | reset _ => True
  | startTls => True
  | _ => False

def GreetedOk : Event → Prop
  | hello _ _ (.ok .ok) => True
  | _ => False

def LoginOk : Event → Prop
  | login _ _ (.ok .ok) _ => True
  | _ => False

/-- A login or a mail happened over TLS. -/
def OverTls : Event → Prop
  | login _ _ _ isTls => isTls = true
  | mail _ _ isTls => isTls = true
  | _ => True

def IsMail : Event → Prop
  | mail _ _ _ => True
  | _ => False

end Event

/-- An accepted hello stands. -/
def Greeted : List Event → Prop :=
  Stands (fun _ event => event.GreetedOk) Event.StartsOver

/-- An accepted login stands that came when an accepted hello stood. -/
def LoggedIn : List Event → Prop :=
  Stands (fun before event => event.LoginOk ∧ Greeted before) Event.StartsOver

/-- Each mail comes when an accepted hello and then an accepted login stand. -/
def Ordered : List Event → Prop :=
  Justified fun before event => event.IsMail → LoggedIn before

/-- What the order says of a log: where TLS is required, each login and each mail
came over TLS. -/
structure LogInOrder (mode : AuthMode) (log : List Event) : Prop where
  ordered : Ordered log
  overTls : mode = .requireTls → ∀ event ∈ log, event.OverTls

theorem LogInOrder.concat {mode : AuthMode} {log : List Event} (h : LogInOrder mode log)
    {event : Event} (hmail : event.IsMail → LoggedIn log)
    (htls : mode = .requireTls → event.OverTls) : LogInOrder mode (log ++ [event]) where
  ordered := h.ordered.concat hmail
  overTls hmode other hother := by
    rcases List.mem_append.mp hother with hother | hother
    · exact h.overTls hmode other hother
    · rw [List.mem_singleton.mp hother]
      exact htls hmode

theorem LogInOrder.say {mode : AuthMode} {log : List Event} (h : LogInOrder mode log)
    (replies : List Response) : LogInOrder mode (log ++ replies.map .reply) := by
  induction replies generalizing log with
  | nil => simpa using h
  | cons response rest ih =>
      have hreply : LogInOrder mode (log ++ [.reply response]) :=
        h.concat False.elim fun _ => trivial
      simpa using ih hreply

namespace Dialogue

variable {H : Type}

/-- Greetings and logins of the session's own state are those of its log. -/
structure InOrder (mode : AuthMode) (d : Dialogue H) : Prop where
  mode_eq : d.config.authMode = mode
  log : LogInOrder mode d.log
  greeted : d.state.phase ≠ .connected → Greeted d.log
  loggedIn : d.state.isAuthenticated = true → LoggedIn d.log
  secure : d.state.isAuthenticated = true → mode = .requireTls → d.isTls = true
  authenticated : d.state.phase = .envelope ∨ d.state.phase = .data →
    d.state.isAuthenticated = true

theorem not_startsOver_reply {replies : List Response} :
    ∀ event ∈ replies.map Event.reply, ¬ event.StartsOver := by
  intro event hevent
  obtain ⟨response, _, rfl⟩ := List.mem_map.mp hevent
  exact id

variable {mode : AuthMode}

theorem InOrder.say {d : Dialogue H} (h : InOrder mode d) (replies : List Response) :
    InOrder mode (d.say replies) where
  mode_eq := h.mode_eq
  log := h.log.say replies
  greeted hphase := (h.greeted hphase).append not_startsOver_reply
  loggedIn hauth := (h.loggedIn hauth).append not_startsOver_reply
  secure := h.secure
  authenticated := h.authenticated

theorem InOrder.heard {d : Dialogue H} (h : InOrder mode d) (handler : H) (event : Event)
    (hevent : ¬ event.StartsOver) (hmail : event.IsMail → LoggedIn d.log)
    (htls : mode = .requireTls → event.OverTls) : InOrder mode (d.heard handler event) where
  mode_eq := h.mode_eq
  log := h.log.concat hmail htls
  greeted hphase := (h.greeted hphase).append (by simpa using hevent)
  loggedIn hauth := (h.loggedIn hauth).append (by simpa using hevent)
  secure := h.secure
  authenticated := h.authenticated

/-- A new state of the session that claims no more than the log shows. -/
theorem InOrder.withState {d : Dialogue H} (h : InOrder mode d) (state : SessionState)
    (hgreeted : state.phase ≠ .connected → Greeted d.log)
    (hlogin : state.isAuthenticated = true → d.state.isAuthenticated = true)
    (hauth : state.phase = .envelope ∨ state.phase = .data → state.isAuthenticated = true) :
    InOrder mode { d with state } where
  mode_eq := h.mode_eq
  log := h.log
  greeted := hgreeted
  loggedIn hauthenticated := h.loggedIn (hlogin hauthenticated)
  secure hauthenticated := h.secure (hlogin hauthenticated)
  authenticated := hauth

/-- The start of a session claims nothing. -/
theorem InOrder.of_new {d : Dialogue H} (hmode : d.config.authMode = mode)
    (hlog : LogInOrder mode d.log) (hstate : d.state = .new) : InOrder mode d where
  mode_eq := hmode
  log := hlog
  greeted hphase := absurd (by rw [hstate]; rfl) hphase
  loggedIn hauth := by rw [hstate] at hauth; cases hauth
  secure hauth := by rw [hstate] at hauth; cases hauth
  authenticated hphase := by rw [hstate] at hphase; cases hphase <;> contradiction

theorem InOrder.isTls_of_mayLogIn {d : Dialogue H} (h : InOrder mode d) (hmay : d.MayLogIn)
    (hmode : mode = .requireTls) : d.isTls = true := by
  rcases hmay with halways | ⟨_, htls⟩
  · rw [h.mode_eq, hmode] at halways
    cases halways
  · exact htls

/-- Where authentication is required, the session's own flag decides. -/
theorem InOrder.state_isAuthenticated {d : Dialogue H} (h : InOrder mode d)
    (hmode : mode ≠ .none) (hallowed : d.isAuthenticated = true) :
    d.state.isAuthenticated = true := by
  have hauth : d.config.hasAuth = true := by simp [SessionConfig.hasAuth, h.mode_eq, hmode]
  simpa [isAuthenticated, hauth] using hallowed

variable [Handler H]

/-- Acts keep the order if authentication is required. -/
theorem InOrder.act (hmode : mode ≠ .none) {d d' : Dialogue H} (h : InOrder mode d)
    (hact : Act d d') : InOrder mode d' := by
  cases hact with
  | @greet domain extended handler hphase hanswer =>
      have hheard := h.heard handler (.hello domain extended (.ok .ok)) id False.elim
        (fun _ => trivial)
      exact hheard.withState _ (fun _ => .concat trivial) id (by simp)
  | secure hphase hsecurity =>
      exact .of_new h.mode_eq (h.log.concat False.elim fun _ => trivial) rfl
  | @logIn username password handler hphase hmay hanswer =>
      have hgreeted : Greeted d.log := h.greeted (by simp [hphase])
      have hheard := h.heard handler (.login username password (.ok .ok) d.isTls) id False.elim
        (h.isTls_of_mayLogIn hmay)
      exact { hheard with
        loggedIn := fun _ => .concat ⟨trivial, hgreeted⟩
        secure := fun _ => h.isTls_of_mayLogIn hmay
        authenticated := fun _ => rfl }
  | mail sender hphase hallowed =>
      have hauth := h.state_isAuthenticated hmode hallowed
      exact h.withState _ (fun _ => h.greeted (by simp [hphase])) id (fun _ => hauth)
  | recipient address hphase hallowed =>
      exact h.withState _ h.greeted id h.authenticated
  | data hphase hallowed =>
      have hauth := h.state_isAuthenticated hmode hallowed
      exact h.withState _ (fun _ => h.greeted (by simp [hphase])) id (fun _ => hauth)
  | capture line hphase hsize =>
      exact h.withState _ h.greeted id h.authenticated
  | @deliver answer handler hphase hanswer =>
      have hauth := h.authenticated (.inr hphase)
      have hheard := h.heard handler (.mail d.state.currentMail answer d.isTls) id
        (fun _ => h.loggedIn hauth) (h.secure hauth)
      refine hheard.withState _ (fun _ => ?_) id (by simp)
      exact hheard.greeted (by simp [Dialogue.heard, hphase])
  | reset hanswer =>
      exact .of_new h.mode_eq (h.log.concat False.elim fun _ => trivial) rfl

theorem InOrder.parting {d d' : Dialogue H} (h : InOrder mode d) (hparting : Parting d d') :
    LogInOrder mode d'.log := by
  cases hparting with
  | hello hphase hanswer hrejected => exact h.log.concat False.elim fun _ => trivial
  | login hphase hmay hanswer hrejected =>
      exact h.log.concat False.elim (h.isTls_of_mayLogIn hmay)

theorem inOrder_invariant (hmode : mode ≠ .none) :
    Invariant (InOrder mode : Dialogue H → Prop) (fun _ => LogInOrder mode) where
  say replies hd := hd.say replies
  act hd hact := hd.act hmode hact
  parting hd hparting := hd.parting hparting
  ended_of_live hd := hd.log
  ended_say replies hlog := hlog.say replies

end Dialogue

/-- For every handler, connection and client, with authentication required:
each mail comes after an accepted hello and then an accepted login, with no
reset and no upgrade since; and where TLS is required, logins and mails come
over TLS only. -/
theorem Session.mail_in_order {π H : Type} [Transport π] [Handler H] [Base64]
    (connection : Connection π) (config : SessionConfig H) (hmode : config.authMode ≠ .none)
    (turns : Nat) :
    LogInOrder config.authMode (handle turns (new connection config)).state.log := by
  have hnew : Dialogue.InOrder config.authMode (new connection config).dialogue :=
    .of_new rfl ⟨.nil, fun _ _ hevent => by cases hevent⟩ rfl
  have hholds := handle_holds (Dialogue.inOrder_invariant hmode) hnew turns
  cases hflow : handle turns (new connection config) with
  | running after =>
      rw [hflow] at hholds
      exact hholds.log
  | stopped after result =>
      rw [hflow] at hholds
      exact hholds

/-- A client that upgrades the connection, logs in and sends one mail. -/
def upgradingClient : Connection Wire :=
  .newPlain ⟨[ascii "EHLO c\r\nSTART", ascii "TLS\r\n"],
    [ascii "EHLO c\r\nAUTH PLAIN AGEAYg==\r\nMAIL FROM:<a@b>\r\n",
      ascii "RCPT TO:<c@d>\r\nDATA\r\nhi\r\n.\r\n"], by decide, by decide⟩ (some ⟨[], []⟩)

def tlsConfig : SessionConfig Unit := ⟨(), "s".toList, .requireTls, 100⟩

theorem Session.mail_in_order_upgraded :
    LogInOrder .requireTls
      (@handle _ _ _ _ sampleBase64 9 (new upgradingClient tlsConfig)).state.log ∧
    (@handle _ _ _ _ sampleBase64 9 (new upgradingClient tlsConfig)).state.log.getLast? =
      some (.reply .mailAccepted) :=
  ⟨@mail_in_order _ _ _ _ sampleBase64 upgradingClient tlsConfig (by decide) 9,
    by decide +kernel⟩

end PostGraph.Smtp
