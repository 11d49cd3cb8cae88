import PostGraph.App.Consent
import PostGraph.MailProxy.AcceptedFiles
import PostGraph.Smtp.Interleaving

/-! # Invocations of the program

Every invocation reads the configuration file. A command of the configuration changes
what it has read and writes the file again; to run the proxy leaves the file alone.
-/

namespace PostGraph.App

open Foundation MailProxy Smtp
open Serde (Value)

section Invocations

variable [Lowercase] [Uppercase] [PasswordHasher] [PasswordHashString] [HashOrder] [IpNetText]
variable [UrlSafeBase64] [Yaml] {F : Type} [FileSystem F]

/-- The configuration of an invocation. -/
def loadConfig (path : Text) (files : F) : Except Text ConfigFile :=
  (ConfigFile.fromFile files path).mapError ("Failed to load configuration file: ".toList ++ ·)

/-- An invocation with a command of the configuration. The result tells whether the file
could be loaded; whether it could be saved is only printed. -/
def runConfigCli (path : Text) (inputs : Inputs) (command : ConfigCommand) (files : F) :
    Except Text (Except Text Unit) × F :=
  match loadConfig path files with
  | .error error => (.error error, files)
  | .ok config =>
      let (saved, files) := (command.execute inputs config).toFile files path
      (.ok saved, files)

/-- One invocation after the other. -/
def configure (path : Text) :
    List (Inputs × ConfigCommand) → F → List (Except Text (Except Text Unit)) × F
  | [], files => ([], files)
  | (inputs, command) :: rest, files =>
      let (outcome, files) := runConfigCli path inputs command files
      let (outcomes, files) := configure path rest files
      (outcome :: outcomes, files)

/-- An invocation that runs the proxy, through the given happenings. -/
def runMailProxy {π N : Type} [TlsFiles] [Argon2] [MsGraph.HttpClient N] [Base64] [Transport π]
    (path : Text) (network : N) (happenings : List (Happening π Readings N)) (files : F) :
    Except Text (World π (ProxyHandler N) Fail2Ban) := do
  MailProxy.run (← loadConfig path files) network happenings

/-! ## Commands and the fraction of a second -/

section WholeSeconds

omit [Uppercase] [PasswordHashString] [HashOrder] [IpNetText] [Yaml]

section Unchanged

omit [Lowercase] [PasswordHasher] [UrlSafeBase64]

theorem disableInsecureAuth_wholeSeconds (config : ConfigFile) :
    disableInsecureAuth config.wholeSeconds = (disableInsecureAuth config).wholeSeconds := by
  unfold disableInsecureAuth
  by_cases hneeded : (config.smtp.allowInsecureAuth &&
      (config.smtp.tls.isSome || !config.smtp.users.hasUsers)) = true
  · rw [if_pos hneeded]
    exact if_pos hneeded
  · rw [if_neg hneeded]
    exact if_neg hneeded

theorem wholeSeconds_wholeSeconds (config : ConfigFile) :
    config.wholeSeconds.wholeSeconds = config.wholeSeconds := by
  rw [ConfigFile.wholeSeconds_eq_iff, ConfigFile.wholeSeconds_banDuration]
  intro duration hduration
  obtain ⟨given, -, rfl⟩ := Option.map_eq_some_iff.mp hduration
  exact Nat.mul_mod_left _ _

theorem users_wholeSeconds (config : ConfigFile) :
    config.wholeSeconds.smtp.users = config.smtp.users := rfl

theorem authMode_wholeSeconds (config : ConfigFile) :
    config.wholeSeconds.smtp.authMode = config.smtp.authMode := rfl

theorem PeersCommand.execute_wholeSeconds (config : ConfigFile) (command : PeersCommand) :
    command.execute config.wholeSeconds = (command.execute config).wholeSeconds := by
  cases command with
  | allow network remove => cases remove <;> rfl
  | deny network remove => cases remove <;> rfl
  | test ip => rfl
  | display => rfl

/-- A new ban duration takes the place of the one that was there, and otherwise that one
stays. -/
theorem SmtpCommand.execute_wholeSeconds (config : ConfigFile) (command : SmtpCommand) :
    (command.execute config.wholeSeconds).wholeSeconds =
      (command.execute config).wholeSeconds := by
  cases command with
  | display => exact wholeSeconds_wholeSeconds config
  | setup address name maxMessageSize =>
      exact wholeSeconds_wholeSeconds ((setup address name maxMessageSize).execute config)
  | fail2ban connections failures duration reset =>
      cases reset with
      | true => rfl
      | false =>
          rcases hlimits : config.smtp.fail2ban with _ | limits
          · simp [execute, ConfigFile.wholeSeconds, hlimits]
          · cases duration with
            | some given => simp [execute, ConfigFile.wholeSeconds, Fail2BanConfig.wholeSeconds,
                hlimits]
            | none =>
                cases hban : limits.banDuration with
                | none => simp [execute, ConfigFile.wholeSeconds, Fail2BanConfig.wholeSeconds,
                    hlimits, hban]
                | some kept => simp [execute, ConfigFile.wholeSeconds,
                    Fail2BanConfig.wholeSeconds, hlimits, hban, Duration.asSecs_fromSecs]
  | peers command =>
      change (command.execute config.wholeSeconds).wholeSeconds = _
      rw [command.execute_wholeSeconds]
      exact wholeSeconds_wholeSeconds (command.execute config)
  | tls command =>
      cases command with
      | setup certificate privateKey =>
          exact wholeSeconds_wholeSeconds ((TlsCommand.setup certificate privateKey).execute config)
      | disable => exact wholeSeconds_wholeSeconds (TlsCommand.disable.execute config)

theorem AllowInsecureAuthCommand.execute_wholeSeconds (inputs : Inputs) (config : ConfigFile)
    (command : AllowInsecureAuthCommand) :
    command.execute inputs config.wholeSeconds = (command.execute inputs config).wholeSeconds := by
  have htls : config.wholeSeconds.smtp.tls = config.smtp.tls := rfl
  cases command with
  | yes =>
      rw [execute, execute, htls]
      split
      next => rfl
      next =>
        split
        next => rfl
        next => rfl
  | no =>
      rw [execute, execute, htls]
      split
      next => rfl
      next => rfl

theorem GraphCommand.execute_wholeSeconds (config : ConfigFile) (command : GraphCommand) :
    command.execute config.wholeSeconds = (command.execute config).wholeSeconds := by
  cases command <;> rfl

end Unchanged

theorem UserCommand.execute_wholeSeconds (inputs : Inputs) (config : ConfigFile)
    (username : Text) (command : UserCommand) :
    command.execute inputs config.wholeSeconds username =
      (command.execute inputs config username).wholeSeconds := by
  cases command with
  | setPassword password force =>
      have husers : config.wholeSeconds.smtp.users = config.smtp.users := rfl
      rw [execute, execute, husers]
      split
      next => rfl
      next => rfl
  | remove => rfl
  | senders command => cases command <;> rfl

theorem AuthCommand.execute_wholeSeconds (inputs : Inputs) (config : ConfigFile)
    (command : AuthCommand) :
    command.execute inputs config.wholeSeconds = (command.execute inputs config).wholeSeconds := by
  cases command with
  | user username command => exact command.execute_wholeSeconds inputs config username
  | showUsers => rfl
  | allowInsecureAuth command => exact command.execute_wholeSeconds inputs config

/-- No command tells a configuration from the one without the fraction of a second. -/
theorem ConfigCommand.execute_wholeSeconds (inputs : Inputs) (config : ConfigFile)
    (command : ConfigCommand) :
    (command.execute inputs config.wholeSeconds).wholeSeconds =
      (command.execute inputs config).wholeSeconds := by
  unfold execute
  rw [← disableInsecureAuth_wholeSeconds, ← disableInsecureAuth_wholeSeconds]
  congr 1
  cases command with
  | smtp command => exact command.execute_wholeSeconds config
  | graph command =>
      dsimp only
      rw [command.execute_wholeSeconds]
      exact wholeSeconds_wholeSeconds (command.execute config)
  | auth command =>
      dsimp only
      rw [command.execute_wholeSeconds]
      exact wholeSeconds_wholeSeconds (command.execute inputs config)
  | reset => rfl

end WholeSeconds

/-! ## What invocations make of the file -/

/-- Every invocation loaded the file and saved it. -/
def Saved (outcomes : List (Except Text (Except Text Unit))) : Prop :=
  ∀ outcome ∈ outcomes, outcome = .ok (.ok ())

omit [PasswordHashString] [HashOrder] [Uppercase] [IpNetText] [Yaml] in
/-- Configurations that differ in the fraction of a second only go the same way. -/
theorem after_wholeSeconds {config config' : ConfigFile}
    (hsame : config.wholeSeconds = config'.wholeSeconds)
    (commands : List (Inputs × ConfigCommand)) :
    (after config commands).wholeSeconds = (after config' commands).wholeSeconds := by
  induction commands generalizing config config' with
  | nil => exact hsame
  | cons given rest ih =>
      apply ih
      rw [← given.2.execute_wholeSeconds, hsame, given.2.execute_wholeSeconds]

omit [PasswordHasher] [UrlSafeBase64] in
theorem loadConfig_eq_ok {path : Text} {files : F} {config : ConfigFile} :
    loadConfig path files = .ok config ↔ ConfigFile.fromFile files path = .ok config := by
  unfold loadConfig
  cases ConfigFile.fromFile files path with
  | error error => exact ⟨nofun, nofun⟩
  | ok read => exact Iff.rfl

/-- A file that cannot be loaded is left as it is. -/
theorem configure_of_error {path : Text} {files : F} {error : Text}
    (herror : loadConfig path files = .error error) (commands : List (Inputs × ConfigCommand)) :
    configure path commands files = (commands.map fun _ => .error error, files) := by
  induction commands with
  | nil => rfl
  | cons given rest ih =>
      rw [configure, runConfigCli, herror]
      dsimp only
      rw [ih]
      rfl

section Assumptions

variable (hlower : ∀ text, toLowercase (toLowercase text) = toLowercase text)
variable (hhashes : ∀ password salt hash, PasswordHasher.hashPassword password salt = some hash →
  PasswordHashString.new hash = .ok hash)
variable (hreads : ∀ text hash, PasswordHashString.new text = .ok hash →
  PasswordHashString.new hash = .ok hash)
variable (hnets : ∀ net, IpNetText.fromStr (IpNetText.toString net) = .ok net)
variable (hyaml : ∀ (value : Value) (yaml : Text), value.Writable →
  Yaml.toString value = .ok yaml → Yaml.fromStr yaml = .ok value)
variable (hfiles : ∀ (files files' : F) (path text : Text),
  FileSystem.write files path text = (.ok (), files') →
    FileSystem.readToString files' path = .ok text)

include hlower hreads hnets hyaml hfiles

include hhashes

/-- What a saved command makes of the file. -/
theorem runConfigCli_saved {path : Text} {files : F} {config : ConfigFile} {inputs : Inputs}
    {command : ConfigCommand} (hload : loadConfig path files = .ok config)
    (hsaved : (runConfigCli path inputs command files).1 = .ok (.ok ())) :
    loadConfig path (runConfigCli path inputs command files).2 =
      .ok (command.execute inputs config).wholeSeconds := by
  have hread := loadConfig_eq_ok.mp hload
  obtain ⟨hstorable, -⟩ := ConfigFile.of_fromFile hreads hlower hread
  unfold runConfigCli at hsaved ⊢
  rw [hload] at hsaved ⊢
  apply loadConfig_eq_ok.mpr
  apply ConfigFile.fromFile_toFile hnets hyaml hfiles
    (command.execute_storable hlower hhashes hstorable inputs)
  exact Prod.ext (Except.ok.inj hsaved) rfl

theorem configure_saved {path : Text} {files : F} {config : ConfigFile}
    (hload : loadConfig path files = .ok config) {commands : List (Inputs × ConfigCommand)}
    (hsaved : Saved (configure path commands files).1) :
    loadConfig path (configure path commands files).2 =
      .ok (after config commands).wholeSeconds := by
  induction commands generalizing files config with
  | nil =>
      have hread := loadConfig_eq_ok.mp hload
      obtain ⟨-, hwhole⟩ := ConfigFile.of_fromFile hreads hlower hread
      exact hload.trans (congrArg Except.ok hwhole.symm)
  | cons given rest ih =>
      have hfirst : (runConfigCli path given.1 given.2 files).1 = .ok (.ok ()) :=
        hsaved _ List.mem_cons_self
      have hnext := runConfigCli_saved hlower hhashes hreads hnets hyaml hfiles hload hfirst
      have hrest := ih hnext fun outcome houtcome =>
        hsaved outcome (List.mem_cons_of_mem _ houtcome)
      exact hrest.trans (congrArg Except.ok (after_wholeSeconds (wholeSeconds_wholeSeconds _) rest))

/-- Invocations one after the other, with the file written and read between them, do
what their commands do one after the other in memory. A file that cannot be loaded
stops them all and is never touched. -/
theorem invocations_compose (path : Text) (commands : List (Inputs × ConfigCommand)) (files : F) :
    (∀ config, loadConfig path files = .ok config → Saved (configure path commands files).1 →
      loadConfig path (configure path commands files).2 =
        .ok (after config commands).wholeSeconds) ∧
      ∀ error, loadConfig path files = .error error →
        configure path commands files = (commands.map fun _ => .error error, files) :=
  ⟨fun _ hload hsaved =>
    configure_saved hlower hhashes hreads hnets hyaml hfiles hload hsaved,
    fun _ herror => configure_of_error herror commands⟩

end Assumptions

end Invocations

namespace Sample

open MailProxy.Sample

theorem new_of_new (text hash : PasswordHash) (hnew : PasswordHashString.new text = .ok hash) :
    (PasswordHashString.new hash : Except Text PasswordHash) = .ok hash := by
  have htext : (if text = MailProxy.Sample.hash then .ok MailProxy.Sample.hash
      else .error "invalid password hash".toList) = Except.ok hash := hnew
  split at htext
  next =>
    cases htext
    rfl
  next => cases htext

/-- Ninety seconds and a half. -/
def precise : ParsedDuration := ⟨90500000000, by decide⟩

/-- The ban duration is set anew. -/
def adjusting : List (Inputs × ConfigCommand) :=
  [(inputs, .smtp (.fail2ban none none (some precise) false))]

/-- No time at all. -/
def zero : ParsedDuration := ⟨.fromSecs 0, by decide⟩

theorem written_zero (files : Files) (path : Text) : (configured zero).toFile files path =
    (.ok (), Function.update files path (some (banning 0).2)) :=
  toFile_configured (.tail _ (.head _) : banning zero.val.asSecs ∈ known) files path

/-- The file of a configuration that bans for no time at all. -/
def stored : Files := Function.update noFiles "config.yaml".toList (some (banning 0).2)

theorem fromFile_stored : ConfigFile.fromFile stored "config.yaml".toList =
    .ok (configured zero) := by
  have hstorable := (produced_configured zero).storable toLowercase_toLowercase new_hashPassword
    fromStr_toString parse_print readToString_write
  exact ConfigFile.fromFile_toFile fromStr_toString parse_print readToString_write hstorable
    (written_zero noFiles "config.yaml".toList)

theorem loadConfig_stored : loadConfig "config.yaml".toList stored = .ok (configured zero) :=
  loadConfig_eq_ok.mpr fromFile_stored

theorem after_adjusting : after (configured zero) adjusting = configured precise := rfl

theorem written_precise : (configured precise).toFile stored "config.yaml".toList =
    (.ok (), Function.update stored "config.yaml".toList (some (banning 90).2)) :=
  toFile_configured (.head _ : banning precise.val.asSecs ∈ known) stored "config.yaml".toList

theorem configure_adjusting : configure "config.yaml".toList adjusting stored =
    ([.ok (.ok ())], Function.update stored "config.yaml".toList (some (banning 90).2)) := by
  have hwritten := written_precise
  rw [← after_adjusting] at hwritten
  rw [adjusting, configure, runConfigCli, loadConfig_stored]
  dsimp only
  rw [adjusting, after, List.foldl_cons, List.foldl_nil] at hwritten
  rw [hwritten]
  rfl

theorem saved_adjusting : Saved (configure "config.yaml".toList adjusting stored).1 := by
  rw [configure_adjusting]
  intro outcome houtcome
  exact List.mem_singleton.mp houtcome

/-! ### A user who joins -/

/-- A command whose configuration can be printed is saved, before others that are. -/
theorem saved_cons {given : Inputs × ConfigCommand} {rest : List (Inputs × ConfigCommand)}
    {files : Files} {path : Text} {config : ConfigFile} {entry : Value × Text}
    (hload : loadConfig path files = .ok config) (hentry : entry ∈ known)
    (hvalue : Serde.serialize (given.2.execute given.1 config) = entry.1)
    (hrest : ∀ files' : Files, loadConfig path files' =
        .ok (given.2.execute given.1 config).wholeSeconds → Saved (configure path rest files').1) :
    Saved (configure path (given :: rest) files).1 := by
  have hsaved : (runConfigCli path given.1 given.2 files).1 = .ok (.ok ()) := by
    rw [runConfigCli, hload]
    dsimp only
    rw [ConfigFile.toFile, hvalue, print_known hentry]
    rfl
  have hnext := runConfigCli_saved toLowercase_toLowercase new_hashPassword new_of_new
    fromStr_toString parse_print readToString_write hload hsaved
  exact List.forall_mem_cons.mpr ⟨hsaved, hrest _ hnext⟩

/-- A user is added, logins over plain connections are consented to, and the user may send
for a domain. -/
def joining : List (Inputs × ConfigCommand) :=
  [(inputs, .auth (.user "a".toList (.setPassword (some "b".toList) true))),
    (confirming, .auth (.allowInsecureAuth .yes)),
    (inputs, .auth (.user "a".toList (.senders (.add "*@example.com".toList))))]

/-- The file of a configuration without users. -/
def unused : Files := Function.update noFiles "config.yaml".toList (some blank.2)

theorem serialize_empty : Serde.serialize ConfigFile.empty = blank.1 := by
  have husers : Serde.serialize ConfigFile.empty.smtp.users = .mapping [] := by
    change Value.mapping ((listing .users (UserList.mk ∅).users).map _) = _
    have hnone : HashOrder.arrange .users (∅ : Finset Text) = [] := Finset.sort_empty _
    rw [listing, Finmap.keys_empty, hnone]
    rfl
  rw [blank, document, ← husers]
  rfl

theorem loadConfig_unused : loadConfig "config.yaml".toList unused = .ok .empty := by
  have hwritten : ConfigFile.empty.toFile noFiles "config.yaml".toList = (.ok (), unused) := by
    rw [ConfigFile.toFile, serialize_empty, print_known (by simp [known])]
    rfl
  exact loadConfig_eq_ok.mpr (ConfigFile.fromFile_toFile fromStr_toString parse_print
    readToString_write ConfigFile.storable_empty hwritten)

/-- The configuration with that user. -/
def member (insecure : Bool) (senders : Finset Text) : ConfigFile where
  smtp := { ConfigFile.empty.smtp with
    allowInsecureAuth := insecure
    users := ⟨Finmap.singleton "a".toList ⟨MailProxy.Sample.hash, senders⟩⟩ }
  graph := ConfigFile.empty.graph

theorem serialize_member {insecure : Bool} {senders : Finset Text} (hsenders : senders ≠ ∅) :
    Serde.serialize (member insecure senders) =
      document insecure [] [userEntry "a".toList (senders.sort (· ≤ ·))] := by
  rw [document, ← serialize_singleton hsenders]
  rfl

def domainAndName : Finset Text := {"*@example.com".toList, "a".toList}

theorem sort_domainAndName :
    domainAndName.sort (· ≤ ·) = ["*@example.com".toList, "a".toList] := by
  rw [domainAndName, Finset.sort_insert, Finset.sort_singleton]
  · simp
    decide
  · decide

theorem saved_joining : Saved (configure "config.yaml".toList joining unused).1 := by
  have hname : Serde.serialize (member false {"a".toList}) = (joined false).1 := by
    rw [serialize_member (Finset.singleton_ne_empty _), Finset.sort_singleton]
    rfl
  have hconsent : Serde.serialize (member true {"a".toList}) = (joined true).1 := by
    rw [serialize_member (Finset.singleton_ne_empty _), Finset.sort_singleton]
    rfl
  have hdomain : Serde.serialize (member true domainAndName) = granted.1 := by
    rw [serialize_member (by decide), sort_domainAndName]
    rfl
  refine saved_cons loadConfig_unused (by simp [known]) hname fun files hfiles => ?_
  refine saved_cons hfiles (by simp [known]) hconsent fun files hfiles => ?_
  exact saved_cons hfiles (by simp [known]) hdomain fun files hfiles => List.forall_mem_nil _

/-- A client logs in with the password of that user, and then with a wrong one. -/
def loggingInTwice : List (Happening Wire Readings Unit) :=
  visit (ascii "EHLO c\r\nAUTH PLAIN AGEAYg==\r\nAUTH PLAIN AGEAYw==\r\n") (by decide) 3

/-- The proxy runs with what commands have left in the file. -/
theorem runMailProxy_configure {N : Type} [MsGraph.HttpClient N] {files : Files}
    {config : ConfigFile} {commands : List (Inputs × ConfigCommand)} {network : N}
    {smtpConfig : Smtp.Config (ProxyHandler N)} {fail2ban : Fail2Ban}
    (hload : loadConfig "config.yaml".toList files = .ok config)
    (hsaved : Saved (configure "config.yaml".toList commands files).1)
    (hprepare : prepare (after config commands).wholeSeconds network = .ok (smtpConfig, fail2ban))
    (happenings : List (Happening Wire Readings N)) :
    runMailProxy "config.yaml".toList network happenings
        (configure "config.yaml".toList commands files).2 =
      .ok (Server.listen smtpConfig fail2ban happenings) := by
  have hconfigured := configure_saved toLowercase_toLowercase new_hashPassword new_of_new
    fromStr_toString parse_print readToString_write hload hsaved
  rw [runMailProxy, hconfigured]
  exact run_of_prepare hprepare happenings

/-- Both logins reach the handler, over a plain connection. -/
theorem exists_run_joining : ∃ world, runMailProxy "config.yaml".toList () loggingInTwice
      (configure "config.yaml".toList joining unused).2 = .ok world ∧
    ∃ served ∈ world.tasks,
      .login "a".toList "b".toList (.ok .ok) false ∈ served.task.log ∧
        .login "a".toList "c".toList (.ok .reject) false ∈ served.task.log := by
  refine ⟨_, runMailProxy_configure loadConfig_unused saved_joining rfl loggingInTwice, ?_⟩
  decide +kernel

theorem exists_run_adjusting {N : Type} [MsGraph.HttpClient N] (network : N)
    (happenings : List (Happening Wire Readings N)) :
    ∃ world, runMailProxy "config.yaml".toList network happenings
      (configure "config.yaml".toList adjusting stored).2 = .ok world :=
  ⟨_, runMailProxy_configure loadConfig_stored saved_adjusting rfl happenings⟩

end Sample

open Sample MailProxy.Sample

/-- A ban duration of 90 seconds and a half is set, and its 90 seconds stay in the file. -/
theorem invocations_compose_adjusting :
    loadConfig "config.yaml".toList (configure "config.yaml".toList adjusting stored).2 =
        .ok (configured precise).wholeSeconds ∧
      configure "other.yaml".toList adjusting stored =
        ([.error "Failed to load configuration file: No such file or directory".toList],
          stored) := by
  have hcompose := invocations_compose toLowercase_toLowercase new_hashPassword new_of_new
    fromStr_toString parse_print readToString_write
  constructor
  · have hloaded :=
      (hcompose "config.yaml".toList adjusting stored).1 _ loadConfig_stored saved_adjusting
    rwa [after_adjusting] at hloaded
  · exact (hcompose "other.yaml".toList adjusting stored).2 _ rfl

end PostGraph.App
