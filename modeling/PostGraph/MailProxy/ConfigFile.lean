import PostGraph.MailProxy.PeerFilter
import PostGraph.MailProxy.User
import PostGraph.MsGraph.Client
import PostGraph.Smtp.Config

/-! # The configuration file -/

namespace PostGraph.MailProxy

open Foundation Smtp

/-- Paths of the certificates and of the private key. -/
structure TLSConfig where
  certificateChain : List Text
  privateKey : Text

structure Fail2BanConfig where
  maxConnections : Option UInt32
  maxFailures : Option UInt32
  banDuration : Option Duration

structure SMTPServerConfig where
  address : Text
  name : Option Text
  maxMessageSize : Option Nat
  allowInsecureAuth : Bool
  tls : Option TLSConfig
  fail2ban : Option Fail2BanConfig
  users : UserList
  peerFilter : PeerFilter

structure GraphAPIConfig where
  tenantId : Text
  clientId : Text
  clientSecret : Text

structure ConfigFile where
  smtp : SMTPServerConfig
  graph : GraphAPIConfig

def defaultSmtpBindAddress : Text := "127.0.0.1:25".toList

def defaultFail2banConnections : UInt32 := 5

def defaultFail2banFails : UInt32 := 5

def defaultFail2banDuration : Duration := .fromMins 30

/-- The configuration without users and without access to the Graph API. -/
def ConfigFile.empty : ConfigFile where
  smtp :=
    { address := defaultSmtpBindAddress
      name := none
      maxMessageSize := none
      allowInsecureAuth := false
      tls := none
      fail2ban := none
      users := .default
      peerFilter := .newAllowAny }
  graph := ⟨[], [], []⟩

def GraphAPIConfig.intoClientConfig {N : Type} (config : GraphAPIConfig) (httpClient : N) :
    MsGraph.Config N :=
  .new config.tenantId config.clientId config.clientSecret httpClient

namespace SMTPServerConfig

/-- The authentication mode that the configuration stands for. -/
def authMode (config : SMTPServerConfig) : AuthMode :=
  if config.users.hasUsers then
    if config.tls.isSome then .requireTls
    else if config.allowInsecureAuth then .always else .none
  else .none

def applyToServerConfig {H : Type} [TlsFiles] (file : SMTPServerConfig) (config : Smtp.Config H) :
    Except Text (Smtp.Config H) := do
  let config := config.withAddress file.address
  let config := config.withServerName (file.name.getD "postgraph".toList)
  let config ← match file.tls with
    | some tls => config.withTls (.chain tls.certificateChain tls.privateKey)
    | none => .ok config
  let config := config.withAuth file.authMode
  return config.withMaxMessageSize
    (file.maxMessageSize.getD MsGraph.recommendedMaxMessageSize)

/-- What an applied configuration has, besides its texts and limits. -/
theorem applyToServerConfig_ok {H : Type} [TlsFiles] {file : SMTPServerConfig}
    {config applied : Smtp.Config H} (hconfig : config.tls = none)
    (h : file.applyToServerConfig config = .ok applied) :
    applied.sessionConfig.handler = config.sessionConfig.handler ∧
      applied.sessionConfig.authMode = file.authMode ∧ applied.tls.isSome = file.tls.isSome := by
  unfold applyToServerConfig at h
  cases htls : file.tls with
  | none =>
      rw [htls] at h
      cases h
      exact ⟨rfl, rfl, congrArg Option.isSome hconfig⟩
  | some tls =>
      rw [htls] at h
      cases hacceptor :
          (Smtp.TlsConfig.chain tls.certificateChain tls.privateKey).intoTlsAcceptor with
      | error error =>
          simp only [Smtp.Config.withTls, hacceptor] at h
          cases h
      | ok acceptor =>
          simp only [Smtp.Config.withTls, hacceptor] at h
          cases h
          exact ⟨rfl, rfl, rfl⟩

/-- Maximum number of connections, maximum number of fails and ban duration. -/
def getEffectiveFail2banConfig (config : SMTPServerConfig) : UInt32 × UInt32 × Duration :=
  let fail2ban := config.fail2ban.getD ⟨none, none, none⟩
  (fail2ban.maxConnections.getD defaultFail2banConnections,
    fail2ban.maxFailures.getD defaultFail2banFails,
    fail2ban.banDuration.getD defaultFail2banDuration)

end SMTPServerConfig

end PostGraph.MailProxy
