import PostGraph.App.Main
import PostGraph.MailProxy.Verdicts

/-! # Logins over plain connections

Credentials reach the proxy over a plain connection only if a command that changed its
configuration consented to it. The session keeps to the authentication mode; the mode
comes from the file; and what allows the mode in the file is the consent.
-/

namespace PostGraph.Smtp

open Foundation

/-- A login that the authentication mode provides for. -/
def Event.Permitted (mode : AuthMode) : Event → Prop
  | login _ _ _ isTls => mode = .always ∨ mode = .requireTls ∧ isTls = true
  | _ => True

theorem permitted_observed {H : Type} [Handler H] (mode : AuthMode) :
    Observed (fun config : SessionConfig H => config.authMode = mode) (Event.Permitted mode) where
  reply _ := trivial
  startTls := trivial
  hello hconfig _ := ⟨trivial, hconfig⟩
  login hconfig hmay _ := by
    rw [Dialogue.MayLogIn, hconfig] at hmay
    exact ⟨hmay, hconfig⟩
  mail _ hconfig _ := ⟨trivial, hconfig⟩
  reset hconfig _ := ⟨trivial, hconfig⟩

end PostGraph.Smtp

namespace PostGraph.App

open Foundation MailProxy Smtp
open Serde (Value)

/-- When logins over plain connections are configured. -/
theorem needsConsent_of_always {config : ConfigFile}
    (halways : config.wholeSeconds.smtp.authMode = .always) :
    config.smtp.allowInsecureAuth = true ∧ NeedsConsent config := by
  change config.smtp.authMode = .always at halways
  unfold SMTPServerConfig.authMode at halways
  split at halways
  next husers =>
    split at halways
    next => cases halways
    next htls =>
      split at halways
      next hallowed => exact ⟨hallowed, by simpa using htls, husers⟩
      next => cases halways
  next => cases halways

section Runs

variable [Lowercase] [PasswordHasher] [UrlSafeBase64]

/-- Without a consent, insecure authentication is not allowed. -/
theorem consents_of_allowed {config : ConfigFile} (hoff : config.smtp.allowInsecureAuth = false)
    {commands : List (Inputs × ConfigCommand)}
    (hon : (after config commands).smtp.allowInsecureAuth = true) :
    ∃ given ∈ commands, Consents given := by
  induction commands using List.reverseRecOn with
  | nil => exact absurd (hoff.symm.trans hon) Bool.false_ne_true
  | append_singleton commands last ih =>
      rw [after_concat] at hon
      rcases (ConfigCommand.execute_allows hon).2 with hbefore | hconsents
      · obtain ⟨given, hgiven, hconsents⟩ := ih hbefore
        exact ⟨given, List.mem_append_left _ hgiven, hconsents⟩
      · exact ⟨last, List.mem_append_right _ (List.mem_singleton_self _), hconsents⟩

variable [Uppercase] [PasswordHashString] [HashOrder] [IpNetText] [Yaml]
variable {F : Type} [FileSystem F]
variable (hlower : ∀ text, toLowercase (toLowercase text) = toLowercase text)
variable (hhashes : ∀ password salt hash, PasswordHasher.hashPassword password salt = some hash →
  PasswordHashString.new hash = .ok hash)
variable (hreads : ∀ text hash, PasswordHashString.new text = .ok hash →
  PasswordHashString.new hash = .ok hash)
variable (hnets : ∀ net, IpNetText.fromStr (IpNetText.toString net) = .ok net)
variable (hyaml : ∀ (value : Value) (yaml : Text), value.Writable →
  Yaml.toString value = .ok yaml → Yaml.fromStr yaml = .ok value)
variable (hfiles : ∀ (files files' : F) (path text : Text),
  FileSystem.write files path text = (.ok (), files') →
    FileSystem.readToString files' path = .ok text)

include hlower hhashes hreads hnets hyaml hfiles

/-- Start from a file that does not allow insecure authentication, run any commands, and
then the proxy with any clients: a login that the proxy got over a plain connection means
that one of the commands consented, and that in the end there were users but no TLS. -/
theorem plain_login_consented {π N : Type} [TlsFiles] [Argon2] [MsGraph.HttpClient N] [Base64]
    [Transport π] {path : Text} {files : F} {config : ConfigFile}
    {commands : List (Inputs × ConfigCommand)} {network : N}
    {happenings : List (Happening π Readings N)} {world : World π (ProxyHandler N) Fail2Ban}
    (hload : loadConfig path files = .ok config) (hoff : config.smtp.allowInsecureAuth = false)
    (hsaved : Saved (configure path commands files).1)
    (hrun : runMailProxy path network happenings (configure path commands files).2 = .ok world) :
    ∀ served ∈ world.tasks, ∀ username password answer isTls,
      .login username password answer isTls ∈ served.task.log →
        isTls = true ∨
          (∃ given ∈ commands, Consents given) ∧ NeedsConsent (after config commands) := by
  have hconfigured := configure_saved hlower hhashes hreads hnets hyaml hfiles hload hsaved
  rw [runMailProxy, hconfigured] at hrun
  intro served hserved username password answer isTls hlogin
  have hpermitted := run_observed (permitted_observed _) (fun _ hd => hd.mode_eq) hrun
  rcases hpermitted served hserved _ hlogin with halways | ⟨-, htls⟩
  · obtain ⟨hon, hneeds⟩ := needsConsent_of_always halways
    exact .inr ⟨consents_of_allowed hoff hon, hneeds⟩
  · exact .inl htls

end Runs

open Sample MailProxy.Sample

/-- Logins over a plain connection get through, and a command has consented. -/
theorem plain_login_consented_joining : ∃ world,
    runMailProxy "config.yaml".toList () loggingInTwice
        (configure "config.yaml".toList joining unused).2 = .ok world ∧
      (∃ served ∈ world.tasks,
        .login "a".toList "b".toList (.ok .ok) false ∈ served.task.log ∧
          .login "a".toList "c".toList (.ok .reject) false ∈ served.task.log) ∧
      ∀ served ∈ world.tasks, ∀ username password answer isTls,
        Event.login username password answer isTls ∈ served.task.log →
          isTls = true ∨ (∃ given ∈ joining, Consents given) ∧
            NeedsConsent (after .empty joining) := by
  obtain ⟨world, hrun, hlogins⟩ := exists_run_joining
  exact ⟨world, hrun, hlogins, plain_login_consented toLowercase_toLowercase new_hashPassword
    new_of_new fromStr_toString parse_print readToString_write loadConfig_unused rfl saved_joining
    hrun⟩

end PostGraph.App
