import PostGraph.MailProxy.Admission
import PostGraph.MailProxy.ConfigFormat
import PostGraph.MailProxy.Delivery
import PostGraph.Smtp.SizeLimit

/-! # Settings

What a configuration has besides users and rules is a list of single values. The server
is set up with them, and nothing that clients do changes them: every session shows the
same name and limit, TLS is offered or not, and peers have the same chances.
-/

namespace PostGraph.Smtp

open Foundation

variable {H : Type}

/-- What a session shows of the settings that it was set up with. -/
structure SetUp (name : Text) (limit : Nat) (offered : Bool) (config : SessionConfig H)
    (log : List Event) : Prop where
  name_eq : config.serverName = name
  limit_eq : config.maxMessageSize = limit
  sized : ∀ mail ∈ mailsOf log, mail.dataLength ≤ limit
  secured : .startTls ∈ log → offered = true

/-- The dialogue goes by its name, and to TLS only if that is offered. -/
structure Dialogue.Presents (name : Text) (offered : Bool) (d : Dialogue H) : Prop where
  name_eq : d.config.serverName = name
  plain : d.security = some (.plain true) → offered = true
  secured : .startTls ∈ d.log → offered = true

variable {name : Text} {limit : Nat} {offered : Bool}

namespace Dialogue.Presents

variable {d d' : Dialogue H}

theorem say (h : d.Presents name offered) (replies : List Response) :
    (d.say replies).Presents name offered where
  name_eq := h.name_eq
  plain := h.plain
  secured hmem := h.secured (by simpa [Dialogue.say] using hmem)

theorem heard (h : d.Presents name offered) (handler : H) {event : Event}
    (hevent : event ≠ .startTls) : (d.heard handler event).Presents name offered where
  name_eq := h.name_eq
  plain := h.plain
  secured hmem := by
    rcases List.mem_append.mp hmem with hbefore | hnew
    · exact h.secured hbefore
    · exact absurd (List.mem_singleton.mp hnew).symm hevent

theorem withState (h : d.Presents name offered) (state : SessionState) :
    ({ d with state } : Dialogue H).Presents name offered :=
  ⟨h.name_eq, h.plain, h.secured⟩

variable [Handler H]

theorem act (h : d.Presents name offered) (hact : Act d d') : d'.Presents name offered := by
  cases hact with
  | greet hphase hanswer => exact (h.heard _ (by nofun)).withState _
  | secure hphase hsecurity => exact ⟨h.name_eq, nofun, fun _ => h.plain hsecurity⟩
  | logIn hphase hmay hanswer => exact (h.heard _ (by nofun)).withState _
  | mail sender hphase hallowed => exact h.withState _
  | recipient address hphase hallowed => exact h.withState _
  | data hphase hallowed => exact h.withState _
  | capture line hphase hsize => exact h.withState _
  | deliver hphase hanswer => exact (h.heard _ (by nofun)).withState _
  | reset hanswer => exact (h.heard _ (by nofun)).withState _

theorem parting (h : d.Presents name offered) (hparting : Parting d d') :
    d'.Presents name offered := by
  cases hparting with
  | hello hphase hanswer hrejected => exact h.heard _ (by nofun)
  | login hphase hmay hanswer hrejected => exact h.heard _ (by nofun)

end Dialogue.Presents

/-- Sessions stay as they were set up. -/
theorem setUp_invariant [Handler H] : Dialogue.Invariant
    (fun d : Dialogue H => d.Sized limit ∧ d.Presents name offered) (SetUp name limit offered) where
  say replies hd := ⟨hd.1.say replies, hd.2.say replies⟩
  act hd hact := ⟨hd.1.act hact, hd.2.act hact⟩
  parting hd hparting :=
    have hsized := hd.1.parting hparting
    have hpresents := hd.2.parting hparting
    ⟨hpresents.name_eq, hsized.limit_eq, hsized.delivered, hpresents.secured⟩
  ended_of_live hd := ⟨hd.2.name_eq, hd.1.limit_eq, hd.1.delivered, hd.2.secured⟩
  ended_say replies hended := by
    refine ⟨hended.name_eq, hended.limit_eq, ?_, fun hmem => hended.secured (by simpa using hmem)⟩
    rw [mailsOf_append, mailsOf_replies, List.append_nil]
    exact hended.sized

variable {π Shared Clock Network : Type} [Handler H] [Base64] [Transport π]
variable [PeerHandler H Shared Clock Network]

/-- In every run each session stays as the server was set up. -/
theorem Server.listen_setUp (config : Config H) (shared : Shared)
    (happenings : List (Happening π Clock Network)) :
    ∀ served ∈ (listen config shared happenings).tasks,
      SetUp config.sessionConfig.serverName config.sessionConfig.maxMessageSize
        config.tls.isSome served.task.config served.task.log := by
  have hstart : ∀ handler,
      (Dialogue.start config handler).Sized config.sessionConfig.maxMessageSize ∧
        (Dialogue.start config handler).Presents config.sessionConfig.serverName
          config.tls.isSome := by
    refine fun handler => ⟨⟨rfl, Nat.zero_le _, fun _ => rfl, nofun⟩, rfl, ?_, nofun⟩
    intro hplain
    simpa [Dialogue.start] using hplain
  have hidle : ∀ handler : H, SetUp config.sessionConfig.serverName
      config.sessionConfig.maxMessageSize config.tls.isSome
      { config.sessionConfig with handler } [] := fun _ => ⟨rfl, rfl, nofun, nofun⟩
  have hholds : (listen config shared happenings).Forall (·.Holds _ _ fun config' =>
      SetUp config.sessionConfig.serverName config.sessionConfig.maxMessageSize
        config.tls.isSome config' []) :=
    listen_forall (fun _ _ _ _ _ => accept_holds setUp_invariant rfl (hstart _) (hidle _))
      (fun _ => Task.turn_holds setUp_invariant) shared happenings
  exact fun served hserved => Task.Holds.shown (hholds served hserved)
    (fun _ hd => setUp_invariant.ended_of_live hd) (fun _ _ hended => hended) fun _ hidle => hidle

end PostGraph.Smtp

namespace PostGraph.MailProxy

open Foundation MsGraph Smtp

/-- The settings of a configuration: all that has one value. -/
structure Settings where
  address : Text
  name : Option Text
  maxMessageSize : Option Nat
  tls : Option TLSConfig
  maxConnections : Option UInt32
  maxFailures : Option UInt32
  banDuration : Option Duration
  tenantId : Text
  clientId : Text
  clientSecret : Text

def ConfigFile.settings (file : ConfigFile) : Settings where
  address := file.smtp.address
  name := file.smtp.name
  maxMessageSize := file.smtp.maxMessageSize
  tls := file.smtp.tls
  maxConnections := file.smtp.fail2ban.bind (·.maxConnections)
  maxFailures := file.smtp.fail2ban.bind (·.maxFailures)
  banDuration := file.smtp.fail2ban.bind (·.banDuration)
  tenantId := file.graph.tenantId
  clientId := file.graph.clientId
  clientSecret := file.graph.clientSecret

namespace Settings

/-- The name in the banner. -/
def serverName (settings : Settings) : Text := settings.name.getD "postgraph".toList

/-- The maximum size of a mail. -/
def sizeLimit (settings : Settings) : Nat :=
  settings.maxMessageSize.getD recommendedMaxMessageSize

/-- The maximum number of connections and of fails, and how long records are kept. -/
def peerLimits (settings : Settings) : UInt32 × UInt32 × Duration :=
  (settings.maxConnections.getD defaultFail2banConnections,
    settings.maxFailures.getD defaultFail2banFails,
    settings.banDuration.getD defaultFail2banDuration)

/-- The settings as they are after they were written to a file. -/
def wholeSeconds (settings : Settings) : Settings :=
  { settings with banDuration := settings.banDuration.map fun duration =>
      Duration.fromSecs duration.asSecs }

/-- Access to the Graph API. -/
def clientConfig {N : Type} (settings : Settings) (network : N) : MsGraph.Config N :=
  .new settings.tenantId settings.clientId settings.clientSecret network

end Settings

theorem ConfigFile.settings_wholeSeconds (file : ConfigFile) :
    file.wholeSeconds.settings = file.settings.wholeSeconds := by
  obtain ⟨smtp, graph⟩ := file
  unfold wholeSeconds settings Settings.wholeSeconds
  cases smtp.fail2ban <;> rfl

theorem SMTPServerConfig.getEffectiveFail2banConfig_eq (file : ConfigFile) :
    file.smtp.getEffectiveFail2banConfig = file.settings.peerLimits := by
  unfold getEffectiveFail2banConfig ConfigFile.settings Settings.peerLimits
  cases file.smtp.fail2ban <;> rfl

/-- The name and the limit of an applied configuration. -/
theorem SMTPServerConfig.applyToServerConfig_texts {H : Type} [TlsFiles]
    {file : SMTPServerConfig} {config applied : Smtp.Config H}
    (h : file.applyToServerConfig config = .ok applied) :
    applied.sessionConfig.serverName = file.name.getD "postgraph".toList ∧
      applied.sessionConfig.maxMessageSize =
        file.maxMessageSize.getD recommendedMaxMessageSize := by
  unfold applyToServerConfig at h
  cases htls : file.tls with
  | none =>
      rw [htls] at h
      cases h
      exact ⟨rfl, rfl⟩
  | some tls =>
      rw [htls] at h
      cases hacceptor :
          (Smtp.TlsConfig.chain tls.certificateChain tls.privateKey).intoTlsAcceptor with
      | error error =>
          simp only [Smtp.Config.withTls, hacceptor] at h
          cases h
      | ok acceptor =>
          simp only [Smtp.Config.withTls, hacceptor] at h
          cases h
          exact ⟨rfl, rfl⟩

theorem prepare_texts {N : Type} [TlsFiles] {file : ConfigFile} {network : N}
    {smtpConfig : Smtp.Config (ProxyHandler N)} {fail2ban : Fail2Ban}
    (h : prepare file network = .ok (smtpConfig, fail2ban)) :
    smtpConfig.sessionConfig.serverName = file.settings.serverName ∧
      smtpConfig.sessionConfig.maxMessageSize = file.settings.sizeLimit := by
  unfold prepare at h
  cases happly : file.smtp.applyToServerConfig (.new (ProxyHandler.new file
      (.new (file.graph.intoClientConfig network)))) with
  | error error =>
      simp only [happly] at h
      cases h
  | ok applied =>
      simp only [happly] at h
      cases h
      exact SMTPServerConfig.applyToServerConfig_texts happly

section Runs

variable {π N : Type} [Lowercase] [Argon2] [MsGraph.HttpClient N] [Base64] [Transport π]

/-- Callbacks change records of peers, but not the limits for them. -/
theorem listen_limits (config : Smtp.Config (ProxyHandler N)) (fail2ban : Fail2Ban)
    (happenings : List (Happening π Readings N)) :
    (Server.listen config fail2ban happenings).shared.limits = fail2ban.limits := by
  induction happenings using List.reverseRecOn with
  | nil => rfl
  | append_singleton happenings happening ih =>
      rw [Server.listen_concat, ← ih]
      generalize Server.listen config fail2ban happenings = world
      cases happening with
      | accept peer stream clock network =>
          rw [step_accept_shared]
          exact PeerCall.run_limits _ _
      | turn i =>
          rw [World.step, World.update_shared_eq _ _ fun _ _ => rfl]
      | leave i clock =>
          rw [World.step, World.update_shared]
          cases world.tasks[i]? with
          | none => rfl
          | some served =>
              change (Server.leave served clock world.shared).2.limits = _
              unfold Server.leave
              split
              next => rfl
              next =>
                exact PeerCall.run_limits world.shared
                  (.disconnect served.peer clock served.task.config.handler)

variable [TlsFiles] {file : ConfigFile} {network : N} {happenings : List (Happening π Readings N)}
variable {world : World π (ProxyHandler N) Fail2Ban}

theorem run_peerLimits (hrun : run file network happenings = .ok world) :
    world.shared.limits = file.settings.peerLimits := by
  obtain ⟨smtpConfig, fail2ban, hprepare, rfl⟩ := run_ok hrun
  obtain ⟨-, -, -, hstore⟩ := prepare_ok hprepare
  rw [listen_limits, hstore, ← SMTPServerConfig.getEffectiveFail2banConfig_eq]
  rfl

/-- Every session of a run is set up with the settings, and stays so. -/
theorem run_setUp (hrun : run file network happenings = .ok world) :
    ∀ served ∈ world.tasks, SetUp file.settings.serverName file.settings.sizeLimit
      file.settings.tls.isSome served.task.config served.task.log := by
  obtain ⟨smtpConfig, fail2ban, hprepare, rfl⟩ := run_ok hrun
  obtain ⟨hname, hlimit⟩ := prepare_texts hprepare
  obtain ⟨-, -, htls, -⟩ := prepare_ok hprepare
  have hsetUp := Server.listen_setUp smtpConfig fail2ban happenings
  rwa [hname, hlimit, htls] at hsetUp

end Runs

end PostGraph.MailProxy
