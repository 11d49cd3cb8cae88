import PostGraph.App.Passwords
import PostGraph.MailProxy.Relay

/-! # The senders that commands leave

A mail reaches the API for a user who logged in with the password in force, and to whom
one of the entries in force grants the sender.
-/

namespace PostGraph.App

open Foundation Foundation.History MailProxy Smtp
open Serde (Value)

section Commands

variable [Lowercase] [PasswordHasher] [UrlSafeBase64]

/-- The command adds the entry to those of the user. -/
def AddsSender (username entry : Text) : ConfigCommand → Prop
  | .auth (.user other (.senders (.add sender))) =>
      toLowercase username = toLowercase other ∧ entry = sender
  | _ => False

def RemovesSender (username entry : Text) : ConfigCommand → Prop
  | .auth (.user other (.senders (.remove sender))) =>
      toLowercase username = toLowercase other ∧ entry = sender
  | _ => False

/-- The user gets the entry from a command that comes after the given ones: it is added to
the user's entries, or the user is created and it is the own name. -/
def Grants (config : ConfigFile) (username entry : Text)
    (before : List (Inputs × ConfigCommand)) (given : Inputs × ConfigCommand) : Prop :=
  AddsSender username entry given.2 ∧
      (after config before).smtp.users.hasUser username = true ∨
    ((newHash username given).isSome = true ∧ MayCreate given.2) ∧
      (after config before).smtp.users.hasUser username = false ∧ entry = toLowercase username

/-- The user loses the entry, with all others or alone. -/
def Strips (username entry : Text) (given : Inputs × ConfigCommand) : Prop :=
  Removes username given.2 ∨ RemovesSender username entry given.2

/-- The entry was granted by a command, or stood in the file from the start, and no later
command stripped the user of it. -/
def SenderInForce (config : ConfigFile) (commands : List (Inputs × ConfigCommand))
    (username entry : Text) : Prop :=
  Stands (Grants config username entry) (Strips username entry) commands ∨
    (∀ given ∈ commands, ¬ Strips username entry given) ∧
      entry ∈ config.smtp.users.entries username

omit [PasswordHasher] [UrlSafeBase64] in
theorem hasUser_congr {users : UserList} {username other : Text}
    (hsame : toLowercase username = toLowercase other) :
    users.hasUser username = users.hasUser other := by
  unfold UserList.hasUser
  rw [hsame]

theorem sender_step_setPassword
    (hlower : ∀ text, toLowercase (toLowercase text) = toLowercase text) (config : ConfigFile)
    (username entry : Text) (before : List (Inputs × ConfigCommand)) (inputs : Inputs)
    (other : Text) (password : Option Text) (force : Bool) :
    entry ∈ (usersAfter (after config before).smtp.users
        (inputs, .auth (.user other (.setPassword password force)))).entries username ↔
      Grants config username entry before
          (inputs, .auth (.user other (.setPassword password force))) ∨
        entry ∈ (after config before).smtp.users.entries username := by
  unfold usersAfter Grants AddsSender newHash MayCreate
  dsimp only
  generalize (after config before).smtp.users = users
  rw [false_and, false_or]
  by_cases hsame : toLowercase username = toLowercase other
  · rw [hasUser_congr hsame, if_pos hsame, hsame]
    split
    next hadmitted =>
      rw [UserList.mem_entries_setUserPassword hlower, hsame]
      refine or_congr_left ?_
      constructor
      · rintro ⟨⟨hhash, hnew⟩, -, hentry⟩
        refine ⟨⟨hhash, ?_⟩, hnew, hentry⟩
        rcases hadmitted with huser | hmay
        · cases hnew.symm.trans huser
        · exact hmay
      · rintro ⟨⟨hhash, -⟩, hnew, hentry⟩
        exact ⟨⟨hhash, hnew⟩, rfl, hentry⟩
    next hrefused =>
      refine (or_iff_right ?_).symm
      rintro ⟨⟨-, hmay⟩, -⟩
      exact hrefused (.inr hmay)
  · rw [if_neg hsame]
    refine Iff.trans ?_ (or_iff_right fun h => Bool.false_ne_true h.1.1).symm
    split
    next hadmitted =>
      rw [UserList.mem_entries_setUserPassword hlower]
      exact or_iff_right fun h => hsame h.2.1
    next => exact Iff.rfl

theorem sender_step_add (config : ConfigFile) (username entry : Text)
    (before : List (Inputs × ConfigCommand)) (inputs : Inputs) (other sender : Text) :
    entry ∈ (usersAfter (after config before).smtp.users
        (inputs, .auth (.user other (.senders (.add sender))))).entries username ↔
      Grants config username entry before
          (inputs, .auth (.user other (.senders (.add sender)))) ∨
        entry ∈ (after config before).smtp.users.entries username := by
  refine (UserList.mem_entries_addUserSendAs ..).trans (or_congr_left ?_)
  simp only [Grants, AddsSender, newHash, Option.isSome_none, Bool.false_eq_true, false_and,
    or_false]
  constructor
  · rintro ⟨⟨hsame, huser⟩, hentry⟩
    exact ⟨⟨hsame, hentry⟩, (hasUser_congr hsame).trans huser⟩
  · rintro ⟨⟨hsame, hentry⟩, huser⟩
    exact ⟨⟨hsame, (hasUser_congr hsame).symm.trans huser⟩, hentry⟩

/-- One command, after others, grants the entry, takes it, or leaves it in force. -/
theorem sender_step (hlower : ∀ text, toLowercase (toLowercase text) = toLowercase text)
    (config : ConfigFile) (username entry : Text) (before : List (Inputs × ConfigCommand))
    (given : Inputs × ConfigCommand) :
    entry ∈ (given.2.execute given.1 (after config before)).smtp.users.entries username ↔
      Grants config username entry before given ∨ ¬ Strips username entry given ∧
        entry ∈ (after config before).smtp.users.entries username := by
  rw [ConfigCommand.execute_users]
  obtain ⟨inputs, command⟩ := given
  cases command with
  | smtp command =>
      simp [usersAfter, Grants, AddsSender, Strips, Removes, RemovesSender, newHash]
  | graph command =>
      simp [usersAfter, Grants, AddsSender, Strips, Removes, RemovesSender, newHash]
  | auth command =>
      cases command with
      | user other command =>
          cases command with
          | setPassword password force =>
              rw [sender_step_setPassword hlower]
              simp [Strips, Removes, RemovesSender]
          | remove =>
              refine (UserList.mem_entries_removeUser ..).trans ?_
              simp [Grants, AddsSender, Strips, Removes, RemovesSender, newHash]
          | senders command =>
              cases command with
              | add sender =>
                  rw [sender_step_add]
                  simp [Strips, Removes, RemovesSender]
              | remove sender =>
                  refine (UserList.mem_entries_removeUserSendAs ..).trans ?_
                  simp [Grants, AddsSender, Strips, Removes, RemovesSender, newHash]
              | display =>
                  simp [usersAfter, Grants, AddsSender, Strips, Removes, RemovesSender, newHash]
      | showUsers =>
          simp [usersAfter, Grants, AddsSender, Strips, Removes, RemovesSender, newHash]
      | allowInsecureAuth command =>
          simp [usersAfter, Grants, AddsSender, Strips, Removes, RemovesSender, newHash]
  | reset =>
      -- no user is left, and so no entry
      refine iff_of_false ?_ ?_
      · exact Finset.notMem_empty entry
      · rintro ((⟨hadds, -⟩ | ⟨⟨hhash, -⟩, -⟩) | ⟨hkept, -⟩)
        · exact hadds
        · cases hhash
        · exact hkept (.inl trivial)

/-- After any commands, exactly the entries in force are the user's. -/
theorem mem_entries_after (hlower : ∀ text, toLowercase (toLowercase text) = toLowercase text)
    (config : ConfigFile) (commands : List (Inputs × ConfigCommand)) (username entry : Text) :
    entry ∈ (after config commands).smtp.users.entries username ↔
      SenderInForce config commands username entry :=
  @foldl_iff_stands _ (Grants config username entry) (Strips username entry) _
    (fun config given => given.2.execute given.1 config)
    (fun config => entry ∈ config.smtp.users.entries username) config
    (sender_step hlower config username entry) commands

end Commands

section Runs

variable [Lowercase] [PasswordHasher] [UrlSafeBase64]
variable [Uppercase] [PasswordHashString] [HashOrder] [IpNetText] [Yaml]
variable {F : Type} [FileSystem F]
variable (hlower : ∀ text, toLowercase (toLowercase text) = toLowercase text)
variable (hhashes : ∀ password salt hash, PasswordHasher.hashPassword password salt = some hash →
  PasswordHashString.new hash = .ok hash)
variable (hreads : ∀ text hash, PasswordHashString.new text = .ok hash →
  PasswordHashString.new hash = .ok hash)
variable (hnets : ∀ net, IpNetText.fromStr (IpNetText.toString net) = .ok net)
variable (hyaml : ∀ (value : Value) (yaml : Text), value.Writable →
  Yaml.toString value = .ok yaml → Yaml.fromStr yaml = .ok value)
variable (hfiles : ∀ (files files' : F) (path text : Text),
  FileSystem.write files path text = (.ok (), files') →
    FileSystem.readToString files' path = .ok text)

include hlower hhashes hreads hnets hyaml hfiles

/-- Start from any file, run any commands, each of which is saved, and then the proxy with
any clients. If logins are possible at all, every call of the Graph client in a session
comes after a login of that session, with the password in force for a user to whom an entry
in force grants the sender. -/
theorem mails_by_granted_senders {π N : Type} [TlsFiles] [Argon2] [MsGraph.HttpClient N]
    [Base64] [Transport π] {path : Text} {files : F} {config : ConfigFile}
    {commands : List (Inputs × ConfigCommand)} {network : N}
    {happenings : List (Happening π Readings N)} {world : World π (ProxyHandler N) Fail2Ban}
    (hload : loadConfig path files = .ok config)
    (hsaved : Saved (configure path commands files).1)
    (hmode : (after config commands).smtp.authMode ≠ .none)
    (hrun : runMailProxy path network happenings (configure path commands files).2 = .ok world) :
    ∀ served ∈ world.tasks, ∀ before sender data rest,
      served.task.config.handler.history = before ++ .sendMail sender data :: rest →
        ∃ username password entry, .login username password true ∈ before ∧
          PasswordInForce config commands username password ∧
          SenderInForce config commands username entry ∧
          UserList.covers (toLowercase entry) (toLowercase sender) = true := by
  have hconfigured := configure_saved hlower hhashes hreads hnets hyaml hfiles hload hsaved
  rw [runMailProxy, hconfigured] at hrun
  rw [← authMode_wholeSeconds] at hmode
  intro served hserved before sender data rest hhistory
  obtain ⟨username, password, hlogin, hpassword, hsender⟩ :=
    run_authorised hmode hrun served hserved before _ rest hhistory
  rw [users_wholeSeconds] at hpassword hsender
  obtain ⟨entry, hentry, hcovers⟩ := UserList.verifyUserCanSendAs_ok_iff.mp hsender
  exact ⟨username, password, entry, hlogin,
    (right_password_iff config commands username password).mp hpassword,
    (mem_entries_after hlower config commands username entry).mp hentry, hcovers⟩

end Runs

open Sample MailProxy.Sample

/-- The user whom commands created and granted a domain logs in, and sends for it. -/
theorem mails_by_granted_senders_joining : ∃ world,
    runMailProxy "config.yaml".toList () relaying
        (configure "config.yaml".toList joining unused).2 = .ok world ∧
      (world.tasks.map fun served => served.task.config.handler.history.getLast?) =
        [some (.sendMail "x@example.com".toList (ascii "hi\r\n"))] ∧
      ∀ served ∈ world.tasks, ∀ before sender data rest,
        served.task.config.handler.history = before ++ .sendMail sender data :: rest →
          ∃ username password entry, .login username password true ∈ before ∧
            PasswordInForce .empty joining username password ∧
            SenderInForce .empty joining username entry ∧
            UserList.covers (toLowercase entry) (toLowercase sender) = true := by
  have hrun : runMailProxy "config.yaml".toList () relaying
      (configure "config.yaml".toList joining unused).2 = .ok (Server.listen _ _ relaying) :=
    runMailProxy_configure loadConfig_unused saved_joining rfl relaying
  refine ⟨_, hrun, ?_, mails_by_granted_senders toLowercase_toLowercase new_hashPassword
    new_of_new fromStr_toString parse_print readToString_write loadConfig_unused saved_joining
    (by decide) hrun⟩
  decide +kernel

end PostGraph.App
