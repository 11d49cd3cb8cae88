import PostGraph.App.RoundTrip

/-! # Consent to insecure authentication

Only a confirmed command allows authentication without TLS, and whenever it is not
needed any more, the command that brings this about takes it back.
-/

namespace PostGraph.App

open Foundation MailProxy

/-- Authentication is possible over plain connections only. -/
def NeedsConsent (config : ConfigFile) : Prop :=
  config.smtp.tls = none ∧ config.smtp.users.hasUsers = true

/-- The command asks to allow insecure authentication, and the prompt is answered. -/
def Consents (given : Inputs × ConfigCommand) : Prop :=
  given.2 = .auth (.allowInsecureAuth .yes) ∧
    promptUserConfirmation given.1.line "yes, i understand".toList = .ok ()

theorem disableInsecureAuth_allows {config : ConfigFile}
    (h : (disableInsecureAuth config).smtp.allowInsecureAuth = true) :
    disableInsecureAuth config = config ∧ NeedsConsent config := by
  unfold disableInsecureAuth at h ⊢
  split at h
  next => cases h
  next hneeded =>
    rw [if_neg hneeded]
    rw [h] at hneeded
    simpa [NeedsConsent] using hneeded

theorem SmtpCommand.execute_allowInsecureAuth (config : ConfigFile) (command : SmtpCommand) :
    (command.execute config).smtp.allowInsecureAuth = config.smtp.allowInsecureAuth := by
  cases command with
  | display => rfl
  | setup address name maxMessageSize => rfl
  | fail2ban connections failures duration reset => cases reset <;> rfl
  | peers command =>
      cases command with
      | allow network remove => cases remove <;> rfl
      | deny network remove => cases remove <;> rfl
      | test ip => rfl
      | display => rfl
  | tls command => cases command <;> rfl

theorem GraphCommand.execute_allowInsecureAuth (config : ConfigFile) (command : GraphCommand) :
    (command.execute config).smtp.allowInsecureAuth = config.smtp.allowInsecureAuth := by
  cases command <;> rfl

section Commands

variable [Lowercase] [PasswordHasher] [UrlSafeBase64]

theorem UserCommand.execute_allowInsecureAuth (inputs : Inputs) (config : ConfigFile)
    (username : Text) (command : UserCommand) :
    (command.execute inputs config username).smtp.allowInsecureAuth =
      config.smtp.allowInsecureAuth := by
  cases command with
  | setPassword password force =>
      rw [execute]
      split
      next => rfl
      next => rfl
  | remove => rfl
  | senders command => cases command <;> rfl

/-- Insecure authentication was allowed before, or the user consents to it now. -/
theorem AuthCommand.execute_allows {inputs : Inputs} {config : ConfigFile} {command : AuthCommand}
    (h : (command.execute inputs config).smtp.allowInsecureAuth = true) :
    config.smtp.allowInsecureAuth = true ∨ Consents (inputs, .auth command) := by
  cases command with
  | user username command =>
      exact .inl ((command.execute_allowInsecureAuth inputs config username).symm.trans h)
  | showUsers => exact .inl h
  | allowInsecureAuth command =>
      cases command with
      | yes =>
          rw [execute, AllowInsecureAuthCommand.execute] at h
          split at h
          next => exact .inl h
          next =>
            split at h
            next hconfirmed => exact .inr ⟨rfl, hconfirmed⟩
            next => exact .inl h
      | no =>
          rw [execute, AllowInsecureAuthCommand.execute] at h
          split at h
          next => exact .inl h
          next => cases h

/-- What it takes for a command to leave insecure authentication allowed. -/
theorem ConfigCommand.execute_allows {inputs : Inputs} {config : ConfigFile}
    {command : ConfigCommand}
    (h : (command.execute inputs config).smtp.allowInsecureAuth = true) :
    NeedsConsent (command.execute inputs config) ∧
      (config.smtp.allowInsecureAuth = true ∨ Consents (inputs, command)) := by
  unfold execute at h ⊢
  obtain ⟨hsame, hneeds⟩ := disableInsecureAuth_allows h
  rw [hsame] at h ⊢
  refine ⟨hneeds, ?_⟩
  cases command with
  | smtp command => exact .inl ((command.execute_allowInsecureAuth config).symm.trans h)
  | graph command => exact .inl ((command.execute_allowInsecureAuth config).symm.trans h)
  | auth command => exact command.execute_allows h
  | reset => cases h

theorem after_concat (config : ConfigFile) (commands : List (Inputs × ConfigCommand))
    (given : Inputs × ConfigCommand) :
    after config (commands ++ [given]) = given.2.execute given.1 (after config commands) :=
  List.foldl_concat ..

/-- If insecure authentication is allowed in the end, it was consented to, and has been
needed ever since. -/
theorem consent_stands {config : ConfigFile} (hoff : config.smtp.allowInsecureAuth = false)
    {commands : List (Inputs × ConfigCommand)}
    (hon : (after config commands).smtp.allowInsecureAuth = true) :
    ∃ before consent later, commands = before ++ consent :: later ∧ Consents consent ∧
      ∀ passed, passed <+: later → NeedsConsent (after config (before ++ consent :: passed)) := by
  induction commands using List.reverseRecOn with
  | nil => exact absurd (hoff.symm.trans hon) Bool.false_ne_true
  | append_singleton commands given ih =>
      rw [after_concat] at hon
      obtain ⟨hneeds, hallowed | hconsents⟩ := ConfigCommand.execute_allows hon
      · obtain ⟨before, consent, later, rfl, hconsents, hsince⟩ := ih hallowed
        refine ⟨before, consent, later ++ [given], by simp, hconsents, fun passed hpassed => ?_⟩
        rcases List.prefix_concat_iff.mp hpassed with rfl | hpassed
        · rwa [← List.cons_append, ← List.append_assoc, after_concat]
        · exact hsince passed hpassed
      · refine ⟨commands, given, [], rfl, hconsents, fun passed hpassed => ?_⟩
        rw [List.prefix_nil.mp hpassed, after_concat]
        exact hneeds

end Commands

namespace Sample

open MailProxy.Sample

def confirming : Inputs := ⟨[], [], .ok "yes, i understand\n".toList⟩

/-- The user consents, and looks at the configuration. -/
def consenting : List (Inputs × ConfigCommand) :=
  [(confirming, .auth (.allowInsecureAuth .yes)), (confirming, .smtp .display)]

theorem consent_stands_consenting :
    (after (file false) consenting).smtp.allowInsecureAuth = true ∧
      ∃ before consent later, consenting = before ++ consent :: later ∧ Consents consent ∧
        ∀ passed, passed <+: later →
          NeedsConsent (after (file false) (before ++ consent :: passed)) := by
  have hon : (after (file false) consenting).smtp.allowInsecureAuth = true := by decide
  exact ⟨hon, consent_stands rfl hon⟩

end Sample

end PostGraph.App
