import PostGraph.App.Cli
import PostGraph.MailProxy.UserEdits

/-! # The users that commands leave

Of the configuration a command needs to know nothing but the users to tell which users
there are after it.
-/

namespace PostGraph.App

open Foundation MailProxy

section Commands

variable [Lowercase] [PasswordHasher] [UrlSafeBase64]

/-- The users after a command, which takes from outside what it is given. -/
def usersAfter (users : UserList) (given : Inputs × ConfigCommand) : UserList :=
  match given.2 with
  | .auth (.user other (.setPassword password force)) =>
      if users.hasUser other = true ∨ other.contains '@' = true ∨ force = true then
        (users.setUserPassword other
          (password.getD (UrlSafeBase64.encode given.1.random)) given.1.salt).2
      else users
  | .auth (.user other .remove) => (users.removeUser other).2
  | .auth (.user other (.senders (.add sender))) => (users.addUserSendAs other sender).2
  | .auth (.user other (.senders (.remove sender))) => (users.removeUserSendAs other sender).2
  | .reset => .default
  | _ => users

omit [Lowercase] [PasswordHasher] [UrlSafeBase64] in
theorem disableInsecureAuth_users (config : ConfigFile) :
    (disableInsecureAuth config).smtp.users = config.smtp.users := by
  unfold disableInsecureAuth
  split
  next => rfl
  next => rfl

omit [Lowercase] [PasswordHasher] [UrlSafeBase64] in
theorem SmtpCommand.execute_users (config : ConfigFile) (command : SmtpCommand) :
    (command.execute config).smtp.users = config.smtp.users := by
  cases command with
  | display => rfl
  | setup address name maxMessageSize => rfl
  | fail2ban connections failures duration reset => cases reset <;> rfl
  | peers command =>
      cases command with
      | allow network remove => cases remove <;> rfl
      | deny network remove => cases remove <;> rfl
      | test ip => rfl
      | display => rfl
  | tls command => cases command <;> rfl

omit [Lowercase] [PasswordHasher] [UrlSafeBase64] in
theorem AllowInsecureAuthCommand.execute_users (inputs : Inputs) (config : ConfigFile)
    (command : AllowInsecureAuthCommand) :
    (command.execute inputs config).smtp.users = config.smtp.users := by
  cases command with
  | yes =>
      rw [execute]
      split
      next => rfl
      next => split <;> rfl
  | no =>
      rw [execute]
      split
      next => rfl
      next => rfl

/-- Commands about authentication change the users, and whether insecure authentication is
allowed. -/
theorem AuthCommand.execute_eq (inputs : Inputs) (config : ConfigFile) (command : AuthCommand) :
    ∃ users allowInsecureAuth, command.execute inputs config =
      { config with smtp := { config.smtp with users, allowInsecureAuth } } := by
  cases command with
  | user other command =>
      cases command with
      | setPassword password force =>
          rw [execute, UserCommand.execute]
          split
          next => exact ⟨_, _, rfl⟩
          next => exact ⟨_, _, rfl⟩
      | remove => exact ⟨_, _, rfl⟩
      | senders command => cases command <;> exact ⟨_, _, rfl⟩
  | showUsers => exact ⟨_, _, rfl⟩
  | allowInsecureAuth command =>
      cases command with
      | yes =>
          rw [execute, AllowInsecureAuthCommand.execute]
          split
          next => exact ⟨_, _, rfl⟩
          next => split <;> exact ⟨_, _, rfl⟩
      | no =>
          rw [execute, AllowInsecureAuthCommand.execute]
          split
          next => exact ⟨_, _, rfl⟩
          next => exact ⟨_, _, rfl⟩

/-- A password is set unless the user would be new and may not be created. -/
theorem setPassword_users (inputs : Inputs) (config : ConfigFile) (other : Text)
    (password : Option Text) (force : Bool) :
    (UserCommand.execute inputs config other (.setPassword password force)).smtp.users =
      if config.smtp.users.hasUser other = true ∨ other.contains '@' = true ∨ force = true then
        (config.smtp.users.setUserPassword other
          (password.getD (UrlSafeBase64.encode inputs.random)) inputs.salt).2
      else config.smtp.users := by
  unfold UserCommand.execute
  by_cases hadmitted : config.smtp.users.hasUser other = true ∨ other.contains '@' = true ∨
      force = true
  · have hnot : ¬ (!config.smtp.users.hasUser other && !other.contains '@' && !force) = true := by
      intro hskipped
      simp only [Bool.and_eq_true, Bool.not_eq_true'] at hskipped
      obtain ⟨⟨hnew, hat⟩, hforce⟩ := hskipped
      rcases hadmitted with huser | hat' | hforce'
      · cases hnew.symm.trans huser
      · cases hat.symm.trans hat'
      · cases hforce.symm.trans hforce'
    simp only [if_neg hnot, if_pos hadmitted]
  · have hskipped : (!config.smtp.users.hasUser other && !other.contains '@' && !force) = true := by
      simp only [not_or, Bool.not_eq_true] at hadmitted
      obtain ⟨hnew, hat, hforce⟩ := hadmitted
      rw [hnew, hat, hforce]
      rfl
    simp only [if_pos hskipped, if_neg hadmitted]

theorem ConfigCommand.execute_users (config : ConfigFile) (given : Inputs × ConfigCommand) :
    (given.2.execute given.1 config).smtp.users = usersAfter config.smtp.users given := by
  obtain ⟨inputs, command⟩ := given
  unfold execute
  rw [disableInsecureAuth_users]
  cases command with
  | smtp command => exact command.execute_users config
  | graph command => cases command <;> rfl
  | auth command =>
      cases command with
      | user other command =>
          cases command with
          | setPassword password force =>
              exact setPassword_users inputs config other password force
          | remove => rfl
          | senders command => cases command <;> rfl
      | showUsers => rfl
      | allowInsecureAuth command => exact command.execute_users inputs config
  | reset => rfl

/-! ## What commands are about -/

/-- The hash of the password that a command has for the user, typed or generated. -/
def newHash (username : Text) (given : Inputs × ConfigCommand) : Option PasswordHash :=
  match given.2 with
  | .auth (.user other (.setPassword password _)) =>
      if toLowercase username = toLowercase other then
        PasswordHasher.hashPassword
          (Utf8.encode (password.getD (UrlSafeBase64.encode given.1.random))) given.1.salt
      else none
  | _ => none

/-- The command sets a password also for a user who is new. -/
def MayCreate : ConfigCommand → Prop
  | .auth (.user other (.setPassword _ force)) => other.contains '@' = true ∨ force = true
  | _ => False

/-- The command removes the user, or all of them. -/
def Removes (username : Text) : ConfigCommand → Prop
  | .auth (.user other .remove) => toLowercase username = toLowercase other
  | .reset => True
  | _ => False

end Commands

end PostGraph.App
