import PostGraph.App.Main
import PostGraph.App.Users
import PostGraph.Foundation.History
import PostGraph.MailProxy.Verdicts

/-! # The passwords that commands leave

A login at the proxy is judged by the password that was last set for the user, by a
command or in the file that the commands started from.
-/

namespace PostGraph.App

open Foundation Foundation.History MailProxy Smtp
open Serde (Value)

section Commands

variable [Lowercase] [PasswordHasher] [UrlSafeBase64]

/-- The user gets the password from a command that comes after the given ones. -/
def Gives [Argon2] (config : ConfigFile) (username password : Text)
    (before : List (Inputs × ConfigCommand)) (given : Inputs × ConfigCommand) : Prop :=
  (MayCreate given.2 ∨ (after config before).smtp.users.hasUser username = true) ∧
    ∃ hash, newHash username given = some hash ∧
      Argon2.verifyPassword (Utf8.encode password) hash = true

/-- The user loses the password that he had, if any. -/
def Withdraws (username : Text) (given : Inputs × ConfigCommand) : Prop :=
  (newHash username given).isSome = true ∨ Removes username given.2

/-- The password was given by a command, or stood in the file from the start, and no later
command withdrew it. -/
def PasswordInForce [Argon2] (config : ConfigFile) (commands : List (Inputs × ConfigCommand))
    (username password : Text) : Prop :=
  Stands (Gives config username password) (Withdraws username) commands ∨
    (∀ given ∈ commands, ¬ Withdraws username given) ∧
      config.smtp.users.verifyUserPassword username password = .ok ()

/-- A command that neither removes the user nor has a password for him leaves his password
alone. -/
theorem passwordOf_usersAfter_of_other {given : Inputs × ConfigCommand} {username : Text}
    (hkept : ¬ Removes username given.2) (hnone : newHash username given = none)
    (users : UserList) : (usersAfter users given).passwordOf (toLowercase username) =
      users.passwordOf (toLowercase username) := by
  obtain ⟨inputs, command⟩ := given
  cases command with
  | smtp command => rfl
  | graph command => rfl
  | auth command =>
      cases command with
      | user other command =>
          cases command with
          | setPassword password force =>
              unfold usersAfter
              dsimp only
              split
              next =>
                refine (UserList.passwordOf_setUserPassword ..).trans ?_
                unfold newHash at hnone
                dsimp only at hnone
                split
                next hsame =>
                  rw [if_pos hsame] at hnone
                  rw [hnone, Option.none_or]
                next => rfl
              next => rfl
          | remove => exact (UserList.passwordOf_removeUser ..).trans (if_neg hkept)
          | senders command =>
              cases command with
              | add sender => exact UserList.passwordOf_addUserSendAs ..
              | remove sender => exact UserList.passwordOf_removeUserSendAs ..
              | display => rfl
      | showUsers => rfl
      | allowInsecureAuth command => rfl
  | reset => exact absurd trivial hkept

theorem passwordOf_usersAfter_of_removes {given : Inputs × ConfigCommand} {username : Text}
    (hremoves : Removes username given.2) (users : UserList) :
    (usersAfter users given).passwordOf (toLowercase username) = none := by
  obtain ⟨inputs, command⟩ := given
  dsimp only at hremoves
  unfold Removes at hremoves
  split at hremoves
  next other => exact (UserList.passwordOf_removeUser ..).trans (if_pos hremoves)
  next => rfl
  next => exact hremoves.elim

/-- A password for the user replaces the old one, or is refused to a user who is new. -/
theorem passwordOf_usersAfter_of_newHash {given : Inputs × ConfigCommand} {username : Text}
    {hash : PasswordHash} (hhash : newHash username given = some hash) (users : UserList) :
    (MayCreate given.2 ∨ users.hasUser username = true) ∧
        (usersAfter users given).passwordOf (toLowercase username) = some hash ∨
      ¬ (MayCreate given.2 ∨ users.hasUser username = true) ∧
        (usersAfter users given).passwordOf (toLowercase username) = none := by
  obtain ⟨inputs, command⟩ := given
  unfold newHash at hhash
  dsimp only at hhash
  split at hhash
  next other password force =>
    split at hhash
    next hsame =>
      have huser : users.hasUser username = users.hasUser other := by
        unfold UserList.hasUser
        rw [hsame]
      rw [huser]
      unfold usersAfter
      dsimp only
      by_cases hadmitted : users.hasUser other = true ∨ other.contains '@' = true ∨ force = true
      · refine .inl ⟨hadmitted.symm, ?_⟩
        rw [if_pos hadmitted, UserList.passwordOf_setUserPassword, if_pos hsame, hhash,
          Option.some_or]
      · refine .inr ⟨fun h => hadmitted h.symm, ?_⟩
        rw [if_neg hadmitted, ← Option.not_isSome_iff_eq_none, hsame, ← UserList.hasUser_iff]
        exact (not_or.mp hadmitted).1
    next => cases hhash
  next => cases hhash

/-- One command, after others, gives the password, takes it, or leaves it in force. -/
theorem right_password_step [Argon2] (config : ConfigFile) (username password : Text)
    (before : List (Inputs × ConfigCommand)) (given : Inputs × ConfigCommand) :
    (given.2.execute given.1 (after config before)).smtp.users.verifyUserPassword username
        password = .ok () ↔
      Gives config username password before given ∨ ¬ Withdraws username given ∧
        (after config before).smtp.users.verifyUserPassword username password = .ok () := by
  rw [ConfigCommand.execute_users, UserList.verifyUserPassword_ok_iff,
    UserList.verifyUserPassword_ok_iff]
  cases hhash : newHash username given with
  | some hash =>
      have hwithdraws : Withdraws username given := .inl (by rw [hhash]; rfl)
      rcases passwordOf_usersAfter_of_newHash hhash (after config before).smtp.users with
        ⟨hadmitted, hset⟩ | ⟨hadmitted, hset⟩
      · rw [hset]
        constructor
        · intro h
          exact .inl ⟨hadmitted, by rwa [hhash]⟩
        · rintro (⟨-, hright⟩ | ⟨hkept, -⟩)
          · rwa [hhash] at hright
          · exact absurd hwithdraws hkept
      · rw [hset]
        refine iff_of_false nofun ?_
        rintro (⟨hadmitted', -⟩ | ⟨hkept, -⟩)
        · exact hadmitted hadmitted'
        · exact hkept hwithdraws
  | none =>
      have hnot : ¬ Gives config username password before given := by
        rintro ⟨-, hash, hsome, -⟩
        cases hhash.symm.trans hsome
      by_cases hremoves : Removes username given.2
      · rw [passwordOf_usersAfter_of_removes hremoves]
        refine iff_of_false nofun ?_
        rintro (hgives | ⟨hkept, -⟩)
        · exact hnot hgives
        · exact hkept (.inr hremoves)
      · have hkept : ¬ Withdraws username given := by
          rintro (hsome | hremoves')
          · rw [hhash] at hsome
            cases hsome
          · exact hremoves hremoves'
        rw [passwordOf_usersAfter_of_other hremoves hhash, or_iff_right hnot,
          and_iff_right hkept]

/-- After any commands, exactly the password in force is right. -/
theorem right_password_iff [Argon2] (config : ConfigFile)
    (commands : List (Inputs × ConfigCommand)) (username password : Text) :
    (after config commands).smtp.users.verifyUserPassword username password = .ok () ↔
      PasswordInForce config commands username password :=
  @foldl_iff_stands _ (Gives config username password) (Withdraws username) _
    (fun config given => given.2.execute given.1 config)
    (fun config => config.smtp.users.verifyUserPassword username password = .ok ()) config
    (right_password_step config username password) commands

end Commands

section Runs

variable [Lowercase] [PasswordHasher] [UrlSafeBase64]
variable [Uppercase] [PasswordHashString] [HashOrder] [IpNetText] [Yaml]
variable {F : Type} [FileSystem F]
variable (hlower : ∀ text, toLowercase (toLowercase text) = toLowercase text)
variable (hhashes : ∀ password salt hash, PasswordHasher.hashPassword password salt = some hash →
  PasswordHashString.new hash = .ok hash)
variable (hreads : ∀ text hash, PasswordHashString.new text = .ok hash →
  PasswordHashString.new hash = .ok hash)
variable (hnets : ∀ net, IpNetText.fromStr (IpNetText.toString net) = .ok net)
variable (hyaml : ∀ (value : Value) (yaml : Text), value.Writable →
  Yaml.toString value = .ok yaml → Yaml.fromStr yaml = .ok value)
variable (hfiles : ∀ (files files' : F) (path text : Text),
  FileSystem.write files path text = (.ok (), files') →
    FileSystem.readToString files' path = .ok text)

include hlower hhashes hreads hnets hyaml hfiles

/-- Start from any file, run any commands, each of which is saved, and then the proxy with
any clients: a login is accepted exactly if its password is in force for its user, in
whatever case the name is written, and else it is rejected. -/
theorem logins_by_last_password {π N : Type} [TlsFiles] [Argon2] [MsGraph.HttpClient N] [Base64]
    [Transport π] {path : Text} {files : F} {config : ConfigFile}
    {commands : List (Inputs × ConfigCommand)} {network : N}
    {happenings : List (Happening π Readings N)} {world : World π (ProxyHandler N) Fail2Ban}
    (hload : loadConfig path files = .ok config)
    (hsaved : Saved (configure path commands files).1)
    (hrun : runMailProxy path network happenings (configure path commands files).2 = .ok world) :
    ∀ served ∈ world.tasks, ∀ username password answer isTls,
      .login username password answer isTls ∈ served.task.log →
        (answer = .ok .ok ↔ PasswordInForce config commands username password) ∧
          (answer = .ok .ok ∨ answer = .ok .reject) := by
  have hconfigured := configure_saved hlower hhashes hreads hnets hyaml hfiles hload hsaved
  rw [runMailProxy, hconfigured] at hrun
  intro served hserved username password answer isTls hlogin
  obtain ⟨haccepted, hanswer⟩ := run_judged hrun served hserved _ hlogin
  rw [users_wholeSeconds] at haccepted
  exact ⟨haccepted.trans (right_password_iff config commands username password), hanswer⟩

end Runs

open Sample MailProxy.Sample

/-- Of two logins the one with the password that a command set is accepted. -/
theorem logins_by_last_password_joining : ∃ world,
    runMailProxy "config.yaml".toList () loggingInTwice
        (configure "config.yaml".toList joining unused).2 = .ok world ∧
      (∃ served ∈ world.tasks,
        .login "a".toList "b".toList (.ok .ok) false ∈ served.task.log ∧
          .login "a".toList "c".toList (.ok .reject) false ∈ served.task.log) ∧
      ∀ served ∈ world.tasks, ∀ username password answer isTls,
        Event.login username password answer isTls ∈ served.task.log →
          (answer = .ok .ok ↔ PasswordInForce .empty joining username password) ∧
            (answer = .ok .ok ∨ answer = .ok .reject) := by
  obtain ⟨world, hrun, hlogins⟩ := exists_run_joining
  exact ⟨world, hrun, hlogins, logins_by_last_password toLowercase_toLowercase new_hashPassword
    new_of_new fromStr_toString parse_print readToString_write loadConfig_unused saved_joining
    hrun⟩

end PostGraph.App
