import PostGraph.App.Main
import PostGraph.App.Users
import PostGraph.Foundation.History
import PostGraph.MailProxy.Settings

/-! # The settings that commands leave

Each setting of the configuration is as the last command about it has set it, whatever
other commands there are. The proxy then runs with these settings.
-/

namespace PostGraph.App

open Foundation Foundation.History MailProxy MsGraph Smtp
open Serde (Value)

/-- What a command sets: nothing, or the new value of a setting. -/
structure Changes where
  address : Option Text := none
  name : Option (Option Text) := none
  maxMessageSize : Option (Option Nat) := none
  tls : Option (Option TLSConfig) := none
  maxConnections : Option (Option UInt32) := none
  maxFailures : Option (Option UInt32) := none
  banDuration : Option (Option Duration) := none
  tenantId : Option Text := none
  clientId : Option Text := none
  clientSecret : Option Text := none

/-- All settings as they are. -/
def Changes.all (settings : Settings) : Changes where
  address := some settings.address
  name := some settings.name
  maxMessageSize := some settings.maxMessageSize
  tls := some settings.tls
  maxConnections := some settings.maxConnections
  maxFailures := some settings.maxFailures
  banDuration := some settings.banDuration
  tenantId := some settings.tenantId
  clientId := some settings.clientId
  clientSecret := some settings.clientSecret

/-- A size of zero stands for no limit of one's own. -/
def ConfigCommand.changes : ConfigCommand → Changes
  | smtp (.setup address name maxMessageSize) =>
      { address
        name := name.map some
        maxMessageSize := maxMessageSize.map fun size =>
          if size = 0 then none else some size.toNat }
  | smtp (.fail2ban connections failures duration resets) =>
      if resets then
        { maxConnections := some none
          maxFailures := some none
          banDuration := some none }
      else
        { maxConnections := connections.map some
          maxFailures := failures.map some
          banDuration := duration.map fun given => some given.val }
  | smtp (.tls (.setup certificate privateKey)) => { tls := some (some ⟨certificate, privateKey⟩) }
  | smtp (.tls .disable) => { tls := some none }
  | graph (.setup tenantId clientId clientSecret) => { tenantId, clientId, clientSecret }
  | reset => .all ConfigFile.empty.settings
  | _ => {}

def Changes.apply (changes : Changes) (settings : Settings) : Settings where
  address := changes.address.getD settings.address
  name := changes.name.getD settings.name
  maxMessageSize := changes.maxMessageSize.getD settings.maxMessageSize
  tls := changes.tls.getD settings.tls
  maxConnections := changes.maxConnections.getD settings.maxConnections
  maxFailures := changes.maxFailures.getD settings.maxFailures
  banDuration := changes.banDuration.getD settings.banDuration
  tenantId := changes.tenantId.getD settings.tenantId
  clientId := changes.clientId.getD settings.clientId
  clientSecret := changes.clientSecret.getD settings.clientSecret

/-- Every setting as the last command about it has set it. -/
def lastSettings (settings : Settings) (commands : List (Inputs × ConfigCommand)) : Settings where
  address := lastWord (·.2.changes.address) settings.address commands
  name := lastWord (·.2.changes.name) settings.name commands
  maxMessageSize := lastWord (·.2.changes.maxMessageSize) settings.maxMessageSize commands
  tls := lastWord (·.2.changes.tls) settings.tls commands
  maxConnections := lastWord (·.2.changes.maxConnections) settings.maxConnections commands
  maxFailures := lastWord (·.2.changes.maxFailures) settings.maxFailures commands
  banDuration := lastWord (·.2.changes.banDuration) settings.banDuration commands
  tenantId := lastWord (·.2.changes.tenantId) settings.tenantId commands
  clientId := lastWord (·.2.changes.clientId) settings.clientId commands
  clientSecret := lastWord (·.2.changes.clientSecret) settings.clientSecret commands

theorem lastSettings_concat (settings : Settings) (commands : List (Inputs × ConfigCommand))
    (given : Inputs × ConfigCommand) : lastSettings settings (commands ++ [given]) =
      given.2.changes.apply (lastSettings settings commands) := by
  simp only [lastSettings, Changes.apply, lastWord_concat]

theorem disableInsecureAuth_settings (config : ConfigFile) :
    (disableInsecureAuth config).settings = config.settings := by
  unfold disableInsecureAuth
  split
  next => rfl
  next => rfl

theorem SmtpCommand.execute_settings (config : ConfigFile) (command : SmtpCommand) :
    (command.execute config).settings =
      (ConfigCommand.smtp command).changes.apply config.settings := by
  cases command with
  | display => rfl
  | setup address name maxMessageSize =>
      cases name with
      | none => cases maxMessageSize <;> rfl
      | some name => cases maxMessageSize <;> rfl
  | fail2ban connections failures duration reset =>
      cases reset with
      | true => rfl
      | false =>
          cases hstored : config.smtp.fail2ban <;> cases connections <;> cases failures <;>
            cases duration <;>
              simp [execute, ConfigFile.settings, ConfigCommand.changes, Changes.apply, hstored]
  | peers command =>
      cases command with
      | allow network remove => cases remove <;> rfl
      | deny network remove => cases remove <;> rfl
      | test ip => rfl
      | display => rfl
  | tls command => cases command <;> rfl

section Runs

variable [Lowercase] [PasswordHasher] [UrlSafeBase64]

theorem ConfigCommand.execute_settings (inputs : Inputs) (config : ConfigFile)
    (command : ConfigCommand) :
    (command.execute inputs config).settings = command.changes.apply config.settings := by
  unfold execute
  rw [disableInsecureAuth_settings]
  cases command with
  | smtp command => exact command.execute_settings config
  | graph command => cases command <;> rfl
  | auth command =>
      obtain ⟨users, allowInsecureAuth, hcommand⟩ := command.execute_eq inputs config
      dsimp only
      rw [hcommand]
      rfl
  | reset => rfl

/-- Commands leave each setting as the last of them about it has set it. -/
theorem settings_after (config : ConfigFile) (commands : List (Inputs × ConfigCommand)) :
    (after config commands).settings = lastSettings config.settings commands := by
  induction commands using List.reverseRecOn with
  | nil => rfl
  | append_singleton commands given ih =>
      rw [after_concat, given.2.execute_settings, ih, lastSettings_concat]

variable [Uppercase] [PasswordHashString] [HashOrder] [IpNetText] [Yaml]
variable {F : Type} [FileSystem F]
variable (hlower : ∀ text, toLowercase (toLowercase text) = toLowercase text)
variable (hhashes : ∀ password salt hash, PasswordHasher.hashPassword password salt = some hash →
  PasswordHashString.new hash = .ok hash)
variable (hreads : ∀ text hash, PasswordHashString.new text = .ok hash →
  PasswordHashString.new hash = .ok hash)
variable (hnets : ∀ net, IpNetText.fromStr (IpNetText.toString net) = .ok net)
variable (hyaml : ∀ (value : Value) (yaml : Text), value.Writable →
  Yaml.toString value = .ok yaml → Yaml.fromStr yaml = .ok value)
variable (hfiles : ∀ (files files' : F) (path text : Text),
  FileSystem.write files path text = (.ok (), files') →
    FileSystem.readToString files' path = .ok text)

include hlower hhashes hreads hnets hyaml hfiles

/-- Start from any file, run any commands, each of which is saved, and then the proxy with
any clients. The next invocation finds every setting as the last command about it has set
it, up to the fraction of a second, and so does the proxy: its limits for peers, the name
and the limit on mails in every session, TLS, and the credentials in every request. -/
theorem settings_in_force {π N : Type} [TlsFiles] [Argon2] [HttpClient N] [Base64] [Transport π]
    {path : Text} {files : F} {config : ConfigFile} {commands : List (Inputs × ConfigCommand)}
    {network : N} {happenings : List (Happening π Readings N)}
    {world : World π (ProxyHandler (Recorded N)) Fail2Ban}
    (hload : loadConfig path files = .ok config)
    (hsaved : Saved (configure path commands files).1)
    (hrun : runMailProxy path (.new network) (happenings.map .recorded)
      (configure path commands files).2 = .ok world) :
    let settings := (lastSettings config.settings commands).wholeSeconds
    (∃ file, loadConfig path (configure path commands files).2 = .ok file ∧
        file.settings = settings) ∧
      world.shared.limits = settings.peerLimits ∧
        ∀ served ∈ world.tasks,
          SetUp settings.serverName settings.sizeLimit settings.tls.isSome served.task.config
              served.task.log ∧
            Justified (InOrder (settings.clientConfig network))
              served.task.config.handler.graphClient.traffic := by
  intro settings
  have hconfigured := configure_saved hlower hhashes hreads hnets hyaml hfiles hload hsaved
  have hsettings : (after config commands).wholeSeconds.settings = settings := by
    rw [ConfigFile.settings_wholeSeconds, settings_after]
  rw [runMailProxy, hconfigured] at hrun
  refine ⟨⟨_, hconfigured, hsettings⟩, ?_, fun served hserved => ⟨?_, ?_⟩⟩
  · rw [← hsettings]
    exact run_peerLimits hrun
  · rw [← hsettings]
    exact run_setUp hrun served hserved
  · rw [← hsettings]
    exact (run_delivers hrun served hserved).shown.ordered

end Runs

open Sample MailProxy.Sample

/-- The proxy forgets peers after the 90 seconds that a command has left in the file. -/
theorem settings_in_force_adjusting : ∃ world,
    runMailProxy "config.yaml".toList (.new Cloud.cloud) (sending.map .recorded)
        (configure "config.yaml".toList adjusting stored).2 = .ok world ∧
      world.shared.limits = (5, 5, .fromSecs 90) ∧
        ∀ served ∈ world.tasks, SetUp "postgraph".toList recommendedMaxMessageSize false
          served.task.config served.task.log := by
  obtain ⟨world, hrun⟩ := exists_run_adjusting (Recorded.new Cloud.cloud) (sending.map .recorded)
  obtain ⟨-, hlimits, htasks⟩ := settings_in_force toLowercase_toLowercase new_hashPassword
    new_of_new fromStr_toString parse_print readToString_write loadConfig_stored saved_adjusting
    hrun
  exact ⟨_, hrun, hlimits, fun served hserved => (htasks served hserved).1⟩

end PostGraph.App
