import PostGraph.MailProxy.ConfigFile
import PostGraph.MailProxy.Fail2Ban
import PostGraph.Smtp.Server

/-! # The mail proxy

The proxy's handler checks peers, logins and senders, and hands mails to the
client of the Graph API. Besides the source's data it keeps a history of logins
and of calls of that client, oldest first; no function of the handler reads it.
-/

namespace PostGraph.MailProxy

open Foundation Smtp

/-- A login and whether it was accepted, or a call of the Graph client. -/
inductive ProxyEvent where
  | login (username password : Text) (accepted : Bool)
  | sendMail (sender : Text) (data : Bytes)
  deriving DecidableEq

/-- The handler of one session. What all sessions share is the `Fail2Ban` store,
which stands beside the handler. -/
structure ProxyHandler (N : Type) where
  config : ConfigFile
  graphClient : MsGraph.Client N
  username : Option Text
  productive : Bool
  history : List ProxyEvent

/-- What one call reads of the clock, in order. -/
structure Readings where
  first : Instant
  second : Instant
  deriving DecidableEq

namespace ProxyHandler

variable {N : Type}

def new (config : ConfigFile) (graphClient : MsGraph.Client N) : ProxyHandler N :=
  ⟨config, graphClient, none, false, []⟩

def onConnect (peer : IpAddr) (clock : Readings) (fail2ban : Fail2Ban)
    (handler : ProxyHandler N) : Except Text ConnectResult × Fail2Ban × ProxyHandler N :=
  let handler := { handler with productive := false }
  let fail2ban := fail2ban.pushConnection peer clock.first
  let (verdict, fail2ban) := fail2ban.getVerdict peer clock.second
  let answer : ConnectResult :=
    if verdict ≠ .ok then .reject
    else if handler.config.smtp.peerFilter.evaluate peer ≠ .allow then .reject
    else .ok
  (.ok answer, fail2ban, handler)

def onDisconnect (peer : IpAddr) (clock : Readings) (fail2ban : Fail2Ban)
    (handler : ProxyHandler N) : Except Text Unit × Fail2Ban × ProxyHandler N :=
  let fail2ban :=
    if handler.productive then fail2ban else fail2ban.pushFail peer clock.first
  (.ok (), fail2ban.popConnection peer, handler)

variable [Lowercase]

def onLogin [Argon2] (username password : Text) (handler : ProxyHandler N) :
    Except Text LoginResult × ProxyHandler N :=
  match handler.config.smtp.users.verifyUserPassword username password with
  | .ok () =>
      (.ok .ok, { handler with
        username := some username
        history := handler.history ++ [.login username password true] })
  | .error _ =>
      (.ok .reject, { handler with
        username := none
        productive := false
        history := handler.history ++ [.login username password false] })

/-- The check of a sender, which needs a username. -/
def checkSender (handler : ProxyHandler N) (sender : Text) : Except Text Unit :=
  match handler.username with
  | none => .ok ()
  | some username =>
      match handler.config.smtp.users.verifyUserCanSendAs username sender with
      | .ok () => .ok ()
      | .error _ => .error "Sender is not allowed for this user".toList

theorem checkSender_ok {handler : ProxyHandler N} {username sender : Text}
    (husername : handler.username = some username) (h : handler.checkSender sender = .ok ()) :
    handler.config.smtp.users.verifyUserCanSendAs username sender = .ok () := by
  unfold ProxyHandler.checkSender at h
  rw [husername] at h
  cases hverify : handler.config.smtp.users.verifyUserCanSendAs username sender with
  | ok _ => rfl
  | error error => simp [hverify] at h

def onMail [MsGraph.HttpClient N] [Base64] (mail : Mail) (handler : ProxyHandler N) :
    Except Text Unit × ProxyHandler N :=
  match handler.checkSender mail.sender with
  | .error error => (.error error, handler)
  | .ok () =>
      let handler := { handler with
        productive := true
        history := handler.history ++ [ProxyEvent.sendMail mail.sender mail.data] }
      match MsGraph.Client.sendMail mail.sender mail.data handler.graphClient with
      | .ok () graphClient => (.ok (), { handler with graphClient })
      | .error error graphClient => (.error error, { handler with graphClient })

/-- A login is accepted or rejected, as the password is. -/
theorem onLogin_cases [Argon2] (username password : Text) (handler : ProxyHandler N) :
    handler.config.smtp.users.verifyUserPassword username password = .ok () ∧
        onLogin username password handler = (.ok .ok, { handler with
          username := some username
          history := handler.history ++ [.login username password true] }) ∨
      (∃ error, handler.config.smtp.users.verifyUserPassword username password = .error error) ∧
        onLogin username password handler = (.ok .reject, { handler with
          username := none
          productive := false
          history := handler.history ++ [.login username password false] }) := by
  unfold onLogin
  cases hverify : handler.config.smtp.users.verifyUserPassword username password with
  | ok accepted => exact .inl ⟨rfl, rfl⟩
  | error error => exact .inr ⟨⟨error, rfl⟩, rfl⟩

/-- What a login that is not accepted leaves behind. -/
theorem onLogin_rejected [Argon2] {username password : Text} {handler after : ProxyHandler N}
    {answer : Except Text LoginResult} (hanswer : onLogin username password handler =
      (answer, after)) (hrejected : answer ≠ .ok .ok) :
    after = { handler with
      username := none
      productive := false
      history := handler.history ++ [.login username password false] } := by
  rcases handler.onLogin_cases username password with ⟨-, hlogin⟩ | ⟨-, hlogin⟩
  · cases hlogin.symm.trans hanswer
    exact absurd rfl hrejected
  · cases hlogin.symm.trans hanswer
    rfl

/-- A mail is refused for its sender, or handed to the Graph client. -/
theorem onMail_cases [MsGraph.HttpClient N] [Base64] (mail : Mail) (handler : ProxyHandler N) :
    (∃ error, onMail mail handler = (.error error, handler)) ∨
      handler.checkSender mail.sender = .ok () ∧ ∃ answer graphClient, onMail mail handler =
        (answer, { handler with
          graphClient
          productive := true
          history := handler.history ++ [.sendMail mail.sender mail.data] }) := by
  unfold onMail
  cases hcheck : handler.checkSender mail.sender with
  | error error => exact .inl ⟨error, rfl⟩
  | ok checked =>
      refine .inr ⟨rfl, ?_⟩
      dsimp only
      split
      next graphClient _ => exact ⟨_, graphClient, rfl⟩
      next error graphClient _ => exact ⟨_, graphClient, rfl⟩

theorem onMail_keeps [MsGraph.HttpClient N] [Base64] {mail : Mail}
    {handler handler' : ProxyHandler N} {answer : Except Text Unit}
    (h : onMail mail handler = (answer, handler')) :
    handler'.username = handler.username ∧ handler'.config = handler.config := by
  rcases handler.onMail_cases mail with ⟨error, hmail⟩ | ⟨_, answer, graphClient, hmail⟩
  · cases hmail.symm.trans h
    exact ⟨rfl, rfl⟩
  · cases hmail.symm.trans h
    exact ⟨rfl, rfl⟩

def onReset (handler : ProxyHandler N) : Except Text Unit × ProxyHandler N :=
  (.ok (), { handler with username := none })

/-- A clone of the handler over its own network. -/
def clone (network : N) (handler : ProxyHandler N) : ProxyHandler N :=
  { handler with graphClient := handler.graphClient.withHttpClient network }

instance [Argon2] [MsGraph.HttpClient N] [Base64] : Handler (ProxyHandler N) where
  onLogin := onLogin
  onMail := onMail
  onReset := onReset

instance : PeerHandler (ProxyHandler N) Fail2Ban Readings N where
  clone := clone
  onConnect := onConnect
  onDisconnect := onDisconnect

end ProxyHandler

/-- What `run` sets up before the server listens: its configuration, with the
handler, and the store of all sessions. -/
def prepare {N : Type} [TlsFiles] (config : ConfigFile) (network : N) :
    Except Text (Smtp.Config (ProxyHandler N) × Fail2Ban) := do
  let (maxConnections, maxFailures, banDuration) := config.smtp.getEffectiveFail2banConfig
  let fail2ban := Fail2Ban.new maxConnections maxFailures banDuration
  let handler := ProxyHandler.new config (.new (config.graph.intoClientConfig network))
  let smtpConfig ← config.smtp.applyToServerConfig (.new handler)
  return (smtpConfig, fail2ban)

/-- What an accepted configuration leads to. -/
theorem prepare_ok {N : Type} [TlsFiles] {config : ConfigFile} {network : N}
    {smtpConfig : Smtp.Config (ProxyHandler N)} {fail2ban : Fail2Ban}
    (h : prepare config network = .ok (smtpConfig, fail2ban)) :
    smtpConfig.sessionConfig.handler =
        .new config (.new (config.graph.intoClientConfig network)) ∧
      smtpConfig.sessionConfig.authMode = config.smtp.authMode ∧
      smtpConfig.tls.isSome = config.smtp.tls.isSome ∧
      fail2ban = .new config.smtp.getEffectiveFail2banConfig.1
        config.smtp.getEffectiveFail2banConfig.2.1
        config.smtp.getEffectiveFail2banConfig.2.2 := by
  unfold prepare at h
  cases happly : config.smtp.applyToServerConfig (.new (ProxyHandler.new config
      (.new (config.graph.intoClientConfig network)))) with
  | error error =>
      simp only [happly] at h
      cases h
  | ok applied =>
      obtain ⟨hhandler, hmode, htls⟩ := SMTPServerConfig.applyToServerConfig_ok rfl happly
      simp only [happly] at h
      cases h
      exact ⟨hhandler, hmode, htls, rfl⟩

/-- The handler of a session that has only just been accepted or refused. -/
structure ProxyHandler.Fresh {N : Type} (file : ConfigFile) (handler : ProxyHandler N) : Prop where
  config_eq : handler.config = file
  username_eq : handler.username = none
  productive_eq : handler.productive = false
  history_eq : handler.history = []

/-- How a session starts under a configuration. -/
structure Starts {N : Type} (file : ConfigFile) (d : Dialogue (ProxyHandler N)) : Prop where
  handler : d.config.handler.Fresh file
  mode_eq : d.config.authMode = file.smtp.authMode
  state_eq : d.state = .new
  log_eq : d.log = []
  security_eq : d.security = some (.plain file.smtp.tls.isSome)

section Run

variable {π N : Type} [TlsFiles] [Lowercase] [Argon2] [MsGraph.HttpClient N] [Base64] [Transport π]

/-- The proxy under a configuration, through the given happenings. -/
def run (config : ConfigFile) (network : N) (happenings : List (Happening π Readings N)) :
    Except Text (World π (ProxyHandler N) Fail2Ban) := do
  let (smtpConfig, fail2ban) ← prepare config network
  return Server.listen smtpConfig fail2ban happenings

theorem run_ok {file : ConfigFile} {network : N} {happenings : List (Happening π Readings N)}
    {world : World π (ProxyHandler N) Fail2Ban} (h : run file network happenings = .ok world) :
    ∃ smtpConfig fail2ban, prepare file network = .ok (smtpConfig, fail2ban) ∧
      Server.listen smtpConfig fail2ban happenings = world := by
  unfold run at h
  cases hprepare : prepare file network with
  | error error =>
      simp only [hprepare] at h
      cases h
  | ok prepared =>
      simp only [hprepare] at h
      exact ⟨prepared.1, prepared.2, rfl, Except.ok.inj h⟩

theorem run_of_prepare {file : ConfigFile} {network : N} {smtpConfig : Smtp.Config (ProxyHandler N)}
    {fail2ban : Fail2Ban} (h : prepare file network = .ok (smtpConfig, fail2ban))
    (happenings : List (Happening π Readings N)) :
    run file network happenings = .ok (Server.listen smtpConfig fail2ban happenings) := by
  unfold run
  rw [h]
  rfl

variable {live : Dialogue (ProxyHandler N) → Prop}
variable {ended : SessionConfig (ProxyHandler N) → List Event → Prop}
variable {idle : SessionConfig (ProxyHandler N) → Prop}
variable {file : ConfigFile} {network : N} {smtpConfig : Smtp.Config (ProxyHandler N)}
variable {fail2ban : Fail2Ban}

omit [Lowercase] [Argon2] [MsGraph.HttpClient N] [Base64] in
/-- The handler that the callback on connecting leaves for a session. -/
theorem starts_of_prepare (hprepare : prepare file network = .ok (smtpConfig, fail2ban))
    (network' : N) :
    Starts file (.start smtpConfig { smtpConfig.sessionConfig.handler.clone network' with
      productive := false }) := by
  obtain ⟨hhandler, hmode, htls, _⟩ := prepare_ok hprepare
  refine ⟨?_, hmode, rfl, rfl, congrArg (some ∘ Security.plain) htls⟩
  rw [hhandler]
  exact ⟨rfl, rfl, rfl, rfl⟩

/-- What holds at the start of sessions holds of each task when it starts. -/
theorem accept_holds (hinvariant : Dialogue.Invariant live ended)
    (hlive : ∀ d, Starts file d → live d)
    (hidle : ∀ config, config.handler.Fresh file → idle config)
    (hprepare : prepare file network = .ok (smtpConfig, fail2ban)) (peer : IpAddr) (stream : π)
    (clock : Readings) (network' : N) (shared : Fail2Ban) :
    (Server.accept smtpConfig peer stream clock network' shared).1.Holds live ended idle :=
  have hstarts := starts_of_prepare hprepare network'
  Server.accept_holds hinvariant rfl (hlive _ hstarts) (hidle _ hstarts.handler)

/-- What holds at the start of sessions and is preserved by their acts holds of
every task in every run of the proxy. -/
theorem run_holds (hinvariant : Dialogue.Invariant live ended)
    (hlive : ∀ d, Starts file d → live d)
    (hidle : ∀ config, config.handler.Fresh file → idle config)
    {happenings : List (Happening π Readings N)} {world : World π (ProxyHandler N) Fail2Ban}
    (hrun : run file network happenings = .ok world) :
    world.Forall (·.Holds live ended idle) := by
  obtain ⟨smtpConfig, fail2ban, hprepare, rfl⟩ := run_ok hrun
  exact Server.listen_forall (accept_holds hinvariant hlive hidle hprepare)
    (fun _ => Task.turn_holds hinvariant) fail2ban happenings

end Run

end PostGraph.MailProxy
