import PostGraph.Foundation.Base64
import PostGraph.MailProxy.Proxy
import PostGraph.Smtp.Wire

/-! # The two copies of the login state

The session remembers that its client is authenticated, and the handler
remembers as whom. An upgrade to TLS clears the session's copy only. It cannot
follow a login: where a login comes over a plain connection, the connection
supports no upgrade.
-/

namespace PostGraph.MailProxy

open Foundation Smtp

/-- Logins of a log with their answers. -/
def logins (log : List Event) : List (Text × Text × Except Text LoginResult) :=
  log.filterMap fun
    | .login username password answer _ => some (username, password, answer)
    | _ => none

theorem logins_append (log other : List Event) :
    logins (log ++ other) = logins log ++ logins other :=
  List.filterMap_append

theorem logins_replies (replies : List Response) : logins (replies.map .reply) = [] := by
  induction replies with
  | nil => rfl
  | cons response rest ih => simp [logins] at ih ⊢

/-- Handler and session agree on the login: the username is that of the most
recent login, which was accepted and whose password was right. -/
structure LoginAgrees {N : Type} [Lowercase] [Argon2] (state : SessionState)
    (handler : ProxyHandler N) (log : List Event) : Prop where
  authenticated : state.isAuthenticated = true ↔ handler.username.isSome = true
  verified : ∀ username, handler.username = some username → ∃ password,
    (logins log).getLast? = some (username, password, .ok .ok) ∧
      handler.config.smtp.users.verifyUserPassword username password = .ok ()

section Agreement

variable {N : Type} [Lowercase] [Argon2]

/-- The session follows a configuration: a client that is authenticated cannot
upgrade its connection any more. -/
structure LoginState (file : ConfigFile) (d : Dialogue (ProxyHandler N)) : Prop where
  config_eq : d.config.handler.config = file
  mode_eq : d.config.authMode = file.smtp.authMode
  plain : file.smtp.authMode = .always → d.security ≠ some (.plain true)
  settled : d.state.isAuthenticated = true → d.MayLogIn
  agrees : LoginAgrees d.state d.config.handler d.log

variable {file : ConfigFile} {d : Dialogue (ProxyHandler N)}

/-- Without a new login, the log may grow and the state may change. -/
theorem LoginAgrees.of_eq {state state' : SessionState} {handler handler' : ProxyHandler N}
    {log log' : List Event} (h : LoginAgrees state handler log)
    (hstate : state'.isAuthenticated = state.isAuthenticated)
    (husername : handler'.username = handler.username)
    (hconfig : handler'.config = handler.config) (hlog : logins log' = logins log) :
    LoginAgrees state' handler' log' where
  authenticated := by rw [hstate, husername, h.authenticated]
  verified := by
    rw [husername, hlog, hconfig]
    exact h.verified

/-- Nobody is logged in. -/
theorem LoginAgrees.of_none {state : SessionState} {handler : ProxyHandler N} {log : List Event}
    (hstate : state.isAuthenticated = false) (husername : handler.username = none) :
    LoginAgrees state handler log where
  authenticated := by rw [hstate, husername, Option.isSome_none]
  verified username hsome := by
    rw [husername] at hsome
    cases hsome

/-- A client that is authenticated has no way to upgrade its connection. -/
theorem LoginState.not_authenticated (h : LoginState file d)
    (hsecurity : d.security = some (.plain true)) : d.state.isAuthenticated = false := by
  rw [← Bool.not_eq_true]
  intro hauthenticated
  rcases h.settled hauthenticated with hmode | ⟨_, htls⟩
  · exact h.plain (h.mode_eq ▸ hmode) hsecurity
  · rw [Dialogue.isTls, hsecurity] at htls
    exact absurd htls (by decide)

theorem LoginState.username_eq_none (h : LoginState file d)
    (hstate : d.state.isAuthenticated = false) : d.config.handler.username = none := by
  rw [← Option.not_isSome_iff_eq_none, ← h.agrees.authenticated, hstate]
  exact Bool.false_ne_true

theorem LoginState.say (h : LoginState file d) (replies : List Response) :
    LoginState file (d.say replies) where
  config_eq := h.config_eq
  mode_eq := h.mode_eq
  plain := h.plain
  settled := h.settled
  agrees := h.agrees.of_eq rfl rfl rfl (by
    rw [Dialogue.say, logins_append, logins_replies, List.append_nil])

/-- The session's own data may change, but for the login. -/
theorem LoginState.withState (h : LoginState file d) (state : SessionState)
    (hstate : state.isAuthenticated = d.state.isAuthenticated) :
    LoginState file { d with state } where
  config_eq := h.config_eq
  mode_eq := h.mode_eq
  plain := h.plain
  settled hauthenticated := h.settled (hstate ▸ hauthenticated)
  agrees := h.agrees.of_eq hstate rfl rfl rfl

/-- A callback that leaves the login alone. -/
theorem LoginState.heard (h : LoginState file d) {handler : ProxyHandler N} {event : Event}
    (husername : handler.username = d.config.handler.username)
    (hconfig : handler.config = d.config.handler.config) (hevent : logins [event] = []) :
    LoginState file (d.heard handler event) where
  config_eq := hconfig.trans h.config_eq
  mode_eq := h.mode_eq
  plain := h.plain
  settled := h.settled
  agrees := h.agrees.of_eq rfl husername hconfig (by
    rw [Dialogue.heard, logins_append, hevent, List.append_nil])

variable [MsGraph.HttpClient N] [Base64]

theorem LoginState.act (h : LoginState file d) {d' : Dialogue (ProxyHandler N)}
    (hact : Dialogue.Act d d') : LoginState file d' := by
  cases hact with
  | greet hphase hanswer =>
      cases hanswer
      exact (h.heard rfl rfl rfl).withState _ rfl
  | secure hphase hsecurity =>
      -- The upgrade clears the session's copy of a login that cannot have been.
      have hstate := h.not_authenticated hsecurity
      exact {
        config_eq := h.config_eq
        mode_eq := h.mode_eq
        plain := fun _ hplain => by cases hplain
        settled := fun hauthenticated => by cases hauthenticated
        agrees := .of_none rfl (h.username_eq_none hstate) }
  | @logIn username password handler hphase hmode hanswer =>
      rcases d.config.handler.onLogin_cases username password with
        ⟨hverify, hlogin⟩ | ⟨_, hlogin⟩
      · cases hlogin.symm.trans hanswer
        exact {
          config_eq := h.config_eq
          mode_eq := h.mode_eq
          plain := h.plain
          settled := fun _ => hmode
          agrees :=
            { authenticated := by simp [Dialogue.loggedIn, Dialogue.heard]
              verified := by
                intro username' husername
                cases husername
                exact ⟨password, by simp [Dialogue.loggedIn, Dialogue.heard, logins], hverify⟩ } }
      · cases hlogin.symm.trans hanswer
  | mail sender hphase hallowed => exact h.withState _ rfl
  | recipient address hphase hallowed => exact h.withState _ rfl
  | data hphase hallowed => exact h.withState _ rfl
  | capture line hphase hsize => exact h.withState _ rfl
  | deliver hphase hanswer =>
      obtain ⟨husername, hconfig⟩ := ProxyHandler.onMail_keeps hanswer
      exact (h.heard husername hconfig rfl).withState _ rfl
  | reset hanswer =>
      cases hanswer
      exact {
        config_eq := h.config_eq
        mode_eq := h.mode_eq
        plain := h.plain
        settled := fun hauthenticated => by cases hauthenticated
        agrees := .of_none rfl rfl }

theorem loginState_invariant :
    Dialogue.Invariant (LoginState file : Dialogue (ProxyHandler N) → Prop)
      (fun _ _ => True) where
  say replies hd := hd.say replies
  act hd hact := hd.act hact
  parting _ _ := trivial
  ended_of_live _ := trivial
  ended_say _ _ := trivial

omit [MsGraph.HttpClient N] [Base64] in
theorem LoginState.of_starts (h : Starts file d) : LoginState file d where
  config_eq := h.handler.config_eq
  mode_eq := h.mode_eq
  plain hmode hsecurity := by
    -- Logins over plain connections are configured only without TLS.
    rw [h.security_eq, Option.some_inj] at hsecurity
    rw [SMTPServerConfig.authMode, Security.plain.inj hsecurity] at hmode
    split at hmode <;> simp at hmode
  settled hauthenticated := by
    rw [h.state_eq] at hauthenticated
    cases hauthenticated
  agrees := .of_none (by rw [h.state_eq]; rfl) h.handler.username_eq

/-- For every configuration that is accepted and every run of the proxy: at each
command boundary of each session the two copies of the login state agree, and
both are empty when a connection starts. -/
theorem login_state_agrees {π : Type} [TlsFiles] [Transport π] (file : ConfigFile) (network : N)
    (happenings : List (Happening π Readings N)) (world : World π (ProxyHandler N) Fail2Ban)
    (hrun : run file network happenings = .ok world) :
    (∀ served ∈ world.tasks, ∀ session, served.task = .serving (.running session) →
      LoginAgrees session.state session.config.handler session.log) ∧
    ∀ peer stream clock network' world',
      run file network (happenings ++ [.accept peer stream clock network']) = .ok world' →
      ∀ served ∈ world'.tasks.getLast?, ∀ session, served.task = .serving (.running session) →
        session.state.isAuthenticated = false ∧ session.config.handler.username = none := by
  constructor
  · intro served hserved session htask
    have hholds : world.Forall (·.Holds (LoginState file) (fun _ _ => True) fun _ => True) :=
      run_holds loginState_invariant (fun _ => LoginState.of_starts) (fun _ _ => trivial) hrun
    have hsession := hholds served hserved
    rw [htask] at hsession
    exact hsession.agrees
  · intro peer stream clock network' world' hrun' served hserved session htask
    obtain ⟨smtpConfig, fail2ban, hprepare, rfl⟩ := run_ok hrun'
    rw [Server.listen_concat] at hserved
    simp only [World.step, List.getLast?_concat, Option.mem_def, Option.some_inj] at hserved
    subst hserved
    have hstarts := starts_of_prepare hprepare network'
    obtain ⟨replies, hsaid⟩ := Server.accept_said rfl htask
    constructor
    · have hstate : session.state = .new :=
        (congrArg Dialogue.state hsaid).trans hstarts.state_eq
      rw [hstate]
      rfl
    · have hconfig : session.config.handler.username = _ :=
        congrArg (·.config.handler.username) hsaid
      exact hconfig.trans hstarts.handler.username_eq

end Agreement

/-! ## A small configuration -/

namespace Sample

/-- A network without servers, at the start of time. -/
scoped instance : MsGraph.HttpClient Unit where
  send _ network := (.error "no network".toList, network)
  now network := (0, network)
  statusError _ := []
  json _ := .error []

/-- Files that do not exist. -/
scoped instance : TlsFiles where
  readCerts _ := .error "no such file".toList
  readKey _ := .error "no such file".toList
  withSingleCert _ _ := .error []

/-- Lower case of ASCII text. -/
scoped instance : Lowercase where
  toLowercase := List.map Char.toLower

theorem toLower_toLower (c : Char) : c.toLower.toLower = c.toLower := by
  by_cases hupper : c.val ≥ 'A'.val ∧ c.val ≤ 'Z'.val
  · have hval : c.toLower.val = c.val + 32 := congrArg Char.val (dif_pos hupper)
    have hlower : ¬ (c.toLower.val ≥ 'A'.val ∧ c.toLower.val ≤ 'Z'.val) := by
      rw [hval]
      simp only [ge_iff_le, UInt32.le_iff_toNat_le, UInt32.toNat_add, Char.reduceVal,
        UInt32.reduceToNat] at hupper ⊢
      omega
    exact dif_neg hlower
  · have hsame : c.toLower = c := dif_neg hupper
    rw [hsame, hsame]

theorem toLowercase_toLowercase (text : Text) :
    toLowercase (toLowercase text) = toLowercase text := by
  change (text.map Char.toLower).map Char.toLower = text.map Char.toLower
  rw [List.map_map]
  apply List.map_congr_left
  intro c _
  exact toLower_toLower c

/-- The hash of the password `b`. -/
def hash : PasswordHash := "$argon2id$v=19$m=19456,t=2,p=1$c2FsdHNhbHQ$b".toList

scoped instance : Argon2 where
  verifyPassword password stored := password = ascii "b" ∧ stored = hash

scoped instance : Base64 := standardBase64

/-- One user may send for a whole domain. -/
def users : UserList :=
  ⟨Finmap.singleton "a".toList ⟨hash, {"*@example.com".toList}⟩⟩

def file (allowInsecureAuth : Bool) : ConfigFile where
  smtp := { ConfigFile.empty.smtp with allowInsecureAuth, users }
  graph := ConfigFile.empty.graph

/-- A client that sends all its lines at once. -/
def client (lines : Bytes) (hlines : lines ≠ []) : Wire where
  chunks := [lines]
  secured := []
  chunks_ne hmem := hlines (List.mem_singleton.mp hmem).symm
  secured_ne := Wire.noChunks

/-- One connection of which the given number of lines is read. -/
def visit (lines : Bytes) (hlines : lines ≠ []) (turns : Nat) :
    List (Happening Wire Readings Unit) :=
  .accept (.v4 1) (client lines hlines) ⟨0, 0⟩ () :: List.replicate turns (.turn 0)

def loggingIn : List (Happening Wire Readings Unit) :=
  visit (ascii "EHLO c\r\nAUTH PLAIN AGEAYg==\r\n") (by decide) 2

end Sample

open Sample in
theorem login_state_agrees_sample : ∃ world, run (file true) () loggingIn = .ok world ∧
    (∀ served ∈ world.tasks, ∀ session, served.task = .serving (.running session) →
      LoginAgrees session.state session.config.handler session.log) ∧
    (world.tasks.map fun served => served.task.config.handler.username) = [some "a".toList] :=
  ⟨_, rfl, (login_state_agrees (file true) () loggingIn _ rfl).1, by decide +kernel⟩

end PostGraph.MailProxy
