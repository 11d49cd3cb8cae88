import PostGraph.MailProxy.LoginState
import PostGraph.Smtp.Ordering

/-! # Who may relay

Where the configuration makes authentication required, a mail is handed to the
Graph client only for a user who has logged in and may send as its sender.
-/

namespace PostGraph.MailProxy

open Foundation Foundation.History Smtp

/-- A mail goes out for a user who logged in before and may send as its sender. -/
def Authorised [Lowercase] [Argon2] (users : UserList) (before : List ProxyEvent) :
    ProxyEvent → Prop
  | .login _ _ _ => True
  | .sendMail sender _ => ∃ username password, .login username password true ∈ before ∧
      users.verifyUserPassword username password = .ok () ∧
      users.verifyUserCanSendAs username sender = .ok ()

section Relay

variable {N : Type} [Lowercase] [Argon2]

/-- The login of the given user is in the history. -/
def Known (handler : ProxyHandler N) (username : Text) : Prop :=
  ∃ password, .login username password true ∈ handler.history ∧
    handler.config.smtp.users.verifyUserPassword username password = .ok ()

/-- The handler's history is authorised, and so is its username. -/
structure Trusted (file : ConfigFile) (d : Dialogue (ProxyHandler N)) : Prop where
  authorised : Justified (Authorised file.smtp.users) d.config.handler.history
  known : ∀ username, d.config.handler.username = some username → Known d.config.handler username

variable {file : ConfigFile} {mode : AuthMode} {d : Dialogue (ProxyHandler N)}

variable [MsGraph.HttpClient N] [Base64]

/-- A mail in a session whose client is logged in. -/
theorem Trusted.deliver (h : Trusted file d) (hstate : LoginState file d)
    (hauthenticated : d.state.isAuthenticated = true) {mail : Mail} {answer : Except Text Unit}
    {handler : ProxyHandler N}
    (hanswer : Handler.onMail mail d.config.handler = (answer, handler)) :
    Justified (Authorised file.smtp.users) handler.history ∧
      ∀ username, handler.username = some username → Known handler username := by
  obtain ⟨username, husername⟩ :=
    Option.isSome_iff_exists.mp (hstate.agrees.authenticated.mp hauthenticated)
  have hknown := h.known username husername
  rcases d.config.handler.onMail_cases mail with
    ⟨error, hmail⟩ | ⟨hcheck, answer, graphClient, hmail⟩
  · cases hmail.symm.trans hanswer
    exact ⟨h.authorised, h.known⟩
  · cases hmail.symm.trans hanswer
    obtain ⟨password, hlogin, hverify⟩ := hknown
    have hsender := ProxyHandler.checkSender_ok husername hcheck
    rw [hstate.config_eq] at hverify hsender
    refine ⟨h.authorised.concat ⟨username, password, hlogin, hverify, hsender⟩, ?_⟩
    intro other hother
    obtain ⟨password', hlogin', hverify'⟩ := h.known other hother
    exact ⟨password', List.mem_append_left _ hlogin', hverify'⟩

theorem Trusted.act (h : Trusted file d) (horder : Dialogue.InOrder mode d)
    (hstate : LoginState file d) {d' : Dialogue (ProxyHandler N)} (hact : Dialogue.Act d d') :
    Trusted file d' := by
  cases hact with
  | greet hphase hanswer =>
      cases hanswer
      exact ⟨h.authorised, h.known⟩
  | secure hphase hsecurity => exact ⟨h.authorised, h.known⟩
  | @logIn username password handler hphase hmode hanswer =>
      rcases d.config.handler.onLogin_cases username password with
        ⟨hverify, hlogin⟩ | ⟨_, hlogin⟩
      · cases hlogin.symm.trans hanswer
        refine ⟨h.authorised.concat trivial, ?_⟩
        rintro _ ⟨⟩
        exact ⟨password, List.mem_append_right _ List.mem_cons_self, hverify⟩
      · cases hlogin.symm.trans hanswer
  | mail sender hphase hallowed => exact ⟨h.authorised, h.known⟩
  | recipient address hphase hallowed => exact ⟨h.authorised, h.known⟩
  | data hphase hallowed => exact ⟨h.authorised, h.known⟩
  | capture line hphase hsize => exact ⟨h.authorised, h.known⟩
  | deliver hphase hanswer =>
      -- A mail is captured only when its client is logged in.
      obtain ⟨hauthorised, hknown⟩ :=
        h.deliver hstate (horder.authenticated (.inr hphase)) hanswer
      exact ⟨hauthorised, hknown⟩
  | reset hanswer =>
      cases hanswer
      exact ⟨h.authorised, fun _ husername => by cases husername⟩

theorem Trusted.parting (h : Trusted file d) {d' : Dialogue (ProxyHandler N)}
    (hparting : Dialogue.Parting d d') :
    Justified (Authorised file.smtp.users) d'.config.handler.history := by
  cases hparting with
  | hello hphase hanswer hrejected =>
      cases hanswer
      exact h.authorised
  | @login username password answer handler hphase hmode hanswer hrejected =>
      cases ProxyHandler.onLogin_rejected hanswer hrejected
      exact h.authorised.concat trivial

theorem trusted_invariant (hmode : mode ≠ .none) :
    Dialogue.Invariant
      (fun d : Dialogue (ProxyHandler N) =>
        (Dialogue.InOrder mode d ∧ LoginState file d) ∧ Trusted file d)
      (fun config log => (LogInOrder mode log ∧ True) ∧
        Justified (Authorised file.smtp.users) config.handler.history) := by
  have hboth : Dialogue.Invariant
      (fun d : Dialogue (ProxyHandler N) => Dialogue.InOrder mode d ∧ LoginState file d)
      (fun _ log => LogInOrder mode log ∧ True) :=
    (Dialogue.inOrder_invariant hmode).and (fun replies hd => hd.say replies)
      (fun _ hd hact => hd.act hact) (fun _ _ _ => trivial) (fun _ => trivial)
      (fun _ _ => trivial)
  exact hboth.and (fun _ hd => ⟨hd.authorised, hd.known⟩)
    (fun hd hd' hact => hd'.act hd.1 hd.2 hact) (fun _ hd' hparting => hd'.parting hparting)
    (fun hd' => hd'.authorised) (fun _ hended => hended)

omit [MsGraph.HttpClient N] [Base64] in
theorem trusted_of_starts (h : Starts file d) :
    (Dialogue.InOrder file.smtp.authMode d ∧ LoginState file d) ∧ Trusted file d := by
  refine ⟨⟨.of_new h.mode_eq ?_ h.state_eq, .of_starts h⟩, ?_, ?_⟩
  · rw [h.log_eq]
    exact ⟨.nil, fun _ _ hevent => by cases hevent⟩
  · rw [h.handler.history_eq]
    exact .nil
  · intro username husername
    rw [h.handler.username_eq] at husername
    cases husername

/-- Where logins are possible, what a session sends is authorised. -/
theorem run_authorised {π : Type} [TlsFiles] [Transport π] {network : N}
    {happenings : List (Happening π Readings N)} {world : World π (ProxyHandler N) Fail2Ban}
    (hmode : file.smtp.authMode ≠ .none) (hrun : run file network happenings = .ok world) :
    ∀ served ∈ world.tasks,
      Justified (Authorised file.smtp.users) served.task.config.handler.history := by
  have hholds : world.Forall (·.Holds _ _ fun config : SessionConfig (ProxyHandler N) =>
      Justified (Authorised file.smtp.users) config.handler.history) :=
    run_holds (trusted_invariant hmode) (fun _ => trusted_of_starts) (fun config hfresh => by
      rw [hfresh.history_eq]
      exact .nil) hrun
  intro served hserved
  exact Task.Holds.shown (hholds served hserved) (fun _ hd => hd.2.authorised)
    (fun _ _ hended => hended.2) fun _ hidle => hidle

/-- For every configuration with users that enables authentication, and every run
of the proxy: each call of the Graph client in a session comes after a login of
that session with the right password, of a user who may send as the sender. -/
theorem mails_authorised {π : Type} [TlsFiles] [Transport π] (file : ConfigFile) (network : N)
    (happenings : List (Happening π Readings N)) (world : World π (ProxyHandler N) Fail2Ban)
    (hrun : run file network happenings = .ok world)
    (husers : file.smtp.users.hasUsers = true)
    (hauth : file.smtp.tls.isSome = true ∨ file.smtp.allowInsecureAuth = true) :
    ∀ served ∈ world.tasks,
      Justified (Authorised file.smtp.users) served.task.config.handler.history := by
  refine run_authorised ?_ hrun
  rw [SMTPServerConfig.authMode, if_pos husers]
  rcases hauth with htls | hinsecure
  · rw [if_pos htls]
    decide
  · rw [if_pos hinsecure]
    split <;> decide

end Relay

namespace Sample

/-- Log in, and send one mail for the user's domain. -/
def relaying : List (Happening Wire Readings Unit) :=
  visit (ascii "EHLO c\r\nAUTH PLAIN AGEAYg==\r\nMAIL FROM:<x@example.com>\r\n" ++
    ascii "RCPT TO:<y@z>\r\nDATA\r\nhi\r\n.\r\n") (by decide) 7

/-- Send one mail without a login. -/
def relayingOpenly : List (Happening Wire Readings Unit) :=
  visit (ascii "EHLO c\r\nMAIL FROM:<ceo@other.org>\r\n" ++
    ascii "RCPT TO:<y@z>\r\nDATA\r\nhi\r\n.\r\n") (by decide) 6

end Sample

open Sample in
theorem mails_authorised_sample : ∃ world, run (file true) () relaying = .ok world ∧
    (∀ served ∈ world.tasks, Justified (Authorised users) served.task.config.handler.history) ∧
    (world.tasks.map fun served => served.task.config.handler.history.getLast?) =
      [some (.sendMail "x@example.com".toList (ascii "hi\r\n"))] :=
  ⟨_, rfl, mails_authorised (file true) () relaying _ rfl (by decide) (.inr rfl),
    by decide +kernel⟩

/-- A session that starts with a mail is not authorised. -/
theorem not_authorised {π N : Type} [Lowercase] [Argon2] {users : UserList}
    {world : World π (ProxyHandler N) Fail2Ban} (sender : Text) (data : Bytes)
    (h : [.sendMail sender data] ∈
      world.tasks.map fun served => served.task.config.handler.history) :
    ¬ ∀ served ∈ world.tasks,
      Justified (Authorised users) served.task.config.handler.history := by
  intro hauthorised
  obtain ⟨served, hserved, hhistory⟩ := List.mem_map.mp h
  obtain ⟨username, password, hlogin, _⟩ := hauthorised served hserved [] _ [] hhistory
  exact absurd hlogin List.not_mem_nil

open Sample in
/-- With users, but neither TLS nor insecure authentication, anyone may send. -/
theorem open_relay : ∃ world, run (file false) () relayingOpenly = .ok world ∧
    (file false).smtp.users.hasUsers = true ∧
    ¬ ∀ served ∈ world.tasks,
      Justified (Authorised users) served.task.config.handler.history :=
  ⟨_, rfl, by decide,
    not_authorised "ceo@other.org".toList (ascii "hi\r\n") (by decide +kernel)⟩

end PostGraph.MailProxy
