import Mathlib.Data.Option.Basic
import PostGraph.Foundation.History
import PostGraph.MailProxy.Revocation

/-! # Accounts

What the list of users is for: a map from names in lower case to accounts with a
password and a set of senders. The list stores hashes instead of the passwords and
looks names up in lower case, and it follows the map through all calls.
-/

namespace PostGraph.MailProxy

open Foundation Foundation.History

/-- What a user was given. -/
structure Account where
  password : Text
  senders : Finset Text

abbrev Accounts := Text → Option Account

namespace UserList

variable [Lowercase] [PasswordHasher]

/-- The user that a call is about, as the caller spells it. -/
def Change.username : Change → Text
  | setUserPassword username _ _ => username
  | removeUser username => username
  | addUserSendAs username _ => username
  | removeUserSendAs username _ => username

/-- The call gives the user of this name the password. -/
def Change.SetsPassword (name password : Text) : Change → Prop
  | setUserPassword username password' salt =>
      toLowercase username = name ∧ password' = password ∧
        (PasswordHasher.hashPassword (Utf8.encode password') salt).isSome
  | _ => False

/-- The call takes from the user of this name the password that he had. -/
def Change.Replaces (name : Text) : Change → Prop
  | setUserPassword username password salt =>
      toLowercase username = name ∧
        (PasswordHasher.hashPassword (Utf8.encode password) salt).isSome
  | removeUser username => toLowercase username = name
  | _ => False

/-- The password last set for the user of this name since his last creation. -/
def LastPassword (changes : List Change) (name password : Text) : Prop :=
  Stands (fun _ change => change.SetsPassword name password) (Change.Replaces name) changes

end UserList

namespace Accounts

open UserList

variable [Lowercase] [PasswordHasher]

/-- What a call does to the accounts. A password that cannot be hashed is not set. -/
def perform (accounts : Accounts) : Change → Accounts
  | .setUserPassword username password salt =>
      if (PasswordHasher.hashPassword (Utf8.encode password) salt).isSome then
        let name := toLowercase username
        Function.update accounts name (some ⟨password,
          ((accounts name).map Account.senders).getD {name}⟩)
      else accounts
  | .removeUser username => Function.update accounts (toLowercase username) none
  | .addUserSendAs username sender =>
      let name := toLowercase username
      Function.update accounts name ((accounts name).map fun account =>
        { account with senders := Insert.insert sender account.senders })
  | .removeUserSendAs username sender =>
      let name := toLowercase username
      Function.update accounts name ((accounts name).map fun account =>
        { account with senders := account.senders.erase sender })

def after (changes : List Change) : Accounts := changes.foldl perform fun _ => none

theorem after_concat (changes : List Change) (change : Change) :
    after (changes ++ [change]) = (after changes).perform change :=
  List.foldl_concat ..

/-- The password in an account is the one that was last set. -/
theorem password_after (changes : List Change) (name password : Text) :
    (after changes name).map Account.password = some password ↔
      LastPassword changes name password := by
  induction changes using List.reverseRecOn generalizing password with
  | nil => exact iff_of_false (by simp [after]) not_stands_nil
  | append_singleton changes change ih =>
      rw [after_concat, LastPassword, stands_concat_iff, ← LastPassword, ← ih]
      cases change with
      | setUserPassword username password' salt =>
          by_cases hhash :
              (PasswordHasher.hashPassword (Utf8.encode password') salt).isSome = true
          · by_cases hname : toLowercase username = name
            · subst hname
              simp [perform, Change.SetsPassword, Change.Replaces, hhash]
            · simp [perform, Change.SetsPassword, Change.Replaces, hhash, hname,
                Function.update_of_ne (Ne.symm hname)]
          · simp [perform, Change.SetsPassword, Change.Replaces, hhash]
      | removeUser username =>
          by_cases hname : toLowercase username = name
          · subst hname
            simp [perform, Change.SetsPassword, Change.Replaces]
          · simp [perform, Change.SetsPassword, Change.Replaces, hname,
              Function.update_of_ne (Ne.symm hname)]
      | addUserSendAs username sender | removeUserSendAs username sender =>
          by_cases hname : toLowercase username = name
          · subst hname
            simp [perform, Change.SetsPassword, Change.Replaces, Option.map_map,
              Function.comp_def]
          · simp [perform, Change.SetsPassword, Change.Replaces,
              Function.update_of_ne (Ne.symm hname)]

end Accounts

/-! ## The list follows the map -/

namespace UserList

section Refinement

variable [Lowercase] [Argon2]

/-- The entry of a user verifies the password of the account, and no other one. -/
structure Matches (user : UserEntry) (account : Account) : Prop where
  senders : user.allowSendAs = account.senders
  password : ∀ attempt, Argon2.verifyPassword (Utf8.encode attempt) user.password = true ↔
    attempt = account.password

/-- The list holds the accounts under their names in lower case. -/
structure Represents (list : UserList) (accounts : Accounts) : Prop where
  keys : ∀ name ∈ list.users.keys, toLowercase name = name
  entries : ∀ name, Option.Rel Matches (list.users.lookup name) (accounts name)

theorem represents_default : default.Represents fun _ => none where
  keys := by simp [default]
  entries _ := .none

/-- A user's entry is replaced, in the list and in the map. -/
theorem Represents.insert {list : UserList} {accounts : Accounts} (h : list.Represents accounts)
    {name : Text} (hname : toLowercase name = name) {user : UserEntry} {account : Account}
    (hmatches : Matches user account) :
    (list.insert name user).Represents (Function.update accounts name (some account)) where
  keys other hother := by
    rw [UserList.insert, Finmap.mem_keys, Finmap.mem_insert] at hother
    rcases hother with rfl | hother
    · exact hname
    · exact h.keys other (Finmap.mem_keys.mpr hother)
  entries other := by
    by_cases hsame : other = name
    · subst hsame
      rw [UserList.insert, Finmap.lookup_insert, Function.update_self]
      exact .some hmatches
    · rw [UserList.insert, Finmap.lookup_insert_of_ne _ hsame, Function.update_of_ne hsame]
      exact h.entries other

theorem Represents.erase {list : UserList} {accounts : Accounts} (h : list.Represents accounts)
    (name : Text) :
    (UserList.mk (list.users.erase name)).Represents (Function.update accounts name none) where
  keys other hother := by
    rw [Finmap.mem_keys, Finmap.mem_erase] at hother
    exact h.keys other (Finmap.mem_keys.mpr hother.2)
  entries other := by
    by_cases hsame : other = name
    · subst hsame
      rw [Finmap.lookup_erase, Function.update_self]
      exact .none
    · rw [Finmap.lookup_erase_ne hsame, Function.update_of_ne hsame]
      exact h.entries other

/-- Either nobody has the name, or the entry matches the account. -/
theorem Represents.cases {list : UserList} {accounts : Accounts} (h : list.Represents accounts)
    (name : Text) : list.users.lookup name = none ∧ accounts name = none ∨
      ∃ user account, list.users.lookup name = some user ∧ accounts name = some account ∧
        Matches user account := by
  have hentry := h.entries name
  cases huser : list.users.lookup name with
  | none =>
      rw [huser] at hentry
      cases haccount : accounts name with
      | none => exact .inl ⟨rfl, rfl⟩
      | some account =>
          rw [haccount] at hentry
          cases hentry
  | some user =>
      rw [huser] at hentry
      cases haccount : accounts name with
      | none =>
          rw [haccount] at hentry
          cases hentry
      | some account =>
          rw [haccount] at hentry
          exact .inr ⟨user, account, rfl, rfl, Option.rel_some_some.mp hentry⟩

/-- Taking a name out that nobody has changes nothing. -/
theorem Represents.absent {list : UserList} {accounts : Accounts} (h : list.Represents accounts)
    {name : Text} (habsent : accounts name = none) :
    list.Represents (Function.update accounts name none) := by
  rwa [← habsent, Function.update_eq_self]

end Refinement

section Calls

variable [Lowercase] [Argon2] [PasswordHasher]
variable (hlower : ∀ text, toLowercase (toLowercase text) = toLowercase text)
variable (hverifies : ∀ password salt hash, PasswordHasher.hashPassword password salt = some hash →
  ∀ attempt, Argon2.verifyPassword attempt hash = true ↔ attempt = password)

include hlower

theorem Represents.addUserSendAs {list : UserList} {accounts : Accounts}
    (h : list.Represents accounts) (username sender : Text) :
    (list.addUserSendAs username sender).2.Represents
      (accounts.perform (.addUserSendAs username sender)) := by
  rw [UserList.addUserSendAs, Accounts.perform]
  rcases h.cases (toLowercase username) with
      ⟨hnone, habsent⟩ | ⟨user, account, huser, haccount, hmatches⟩
  · rw [hnone, habsent]
    exact h.absent habsent
  · rw [huser, haccount]
    exact h.insert (hlower username) ⟨by rw [hmatches.senders], hmatches.password⟩

theorem Represents.removeUserSendAs {list : UserList} {accounts : Accounts}
    (h : list.Represents accounts) (username sender : Text) :
    (list.removeUserSendAs username sender).2.Represents
      (accounts.perform (.removeUserSendAs username sender)) := by
  rw [UserList.removeUserSendAs, Accounts.perform]
  rcases h.cases (toLowercase username) with
      ⟨hnone, habsent⟩ | ⟨user, account, huser, haccount, hmatches⟩
  · rw [hnone, habsent]
    exact h.absent habsent
  · rw [huser, haccount]
    exact h.insert (hlower username) ⟨by rw [hmatches.senders], hmatches.password⟩

omit hlower in
theorem Represents.removeUser {list : UserList} {accounts : Accounts}
    (h : list.Represents accounts) (username : Text) :
    (list.removeUser username).2.Represents (accounts.perform (.removeUser username)) := by
  rw [UserList.removeUser, Accounts.perform]
  rcases h.cases (toLowercase username) with ⟨hnone, habsent⟩ | ⟨user, account, huser, -, -⟩
  · rw [hnone]
    exact h.absent habsent
  · rw [huser]
    exact h.erase (toLowercase username)

omit [Argon2] in
/-- A user who is created is granted his own name, by a call of its own. -/
theorem setUserPassword_created (list : UserList) {username password : Text} {salt : Bytes}
    {hash : PasswordHash}
    (hhash : PasswordHasher.hashPassword (Utf8.encode password) salt = some hash)
    (hnone : list.users.lookup (toLowercase username) = none) :
    list.setUserPassword username password salt =
      (.ok (), list.insert (toLowercase username) ⟨hash, {toLowercase username}⟩) := by
  rw [setUserPassword]
  rw [hhash, hnone]
  dsimp only
  rw [addUserSendAs, hlower, insert, Finmap.lookup_insert]
  dsimp only
  rw [insert, Finmap.insert_insert]
  rfl

include hverifies

theorem Represents.setUserPassword {list : UserList} {accounts : Accounts}
    (h : list.Represents accounts) (username password : Text) (salt : Bytes) :
    (list.setUserPassword username password salt).2.Represents
      (accounts.perform (.setUserPassword username password salt)) := by
  rw [Accounts.perform]
  dsimp only
  cases hhash : PasswordHasher.hashPassword (Utf8.encode password) salt with
  | none =>
      rw [UserList.setUserPassword]
      rw [hhash]
      exact h
  | some hash =>
      have hpassword : ∀ attempt, Argon2.verifyPassword (Utf8.encode attempt) hash = true ↔
          attempt = password := by
        intro attempt
        rw [hverifies _ _ _ hhash]
        exact ⟨fun heq => Utf8.encode_injective heq, congrArg Utf8.encode⟩
      rw [if_pos Option.isSome_some]
      rcases h.cases (toLowercase username) with
          ⟨hnone, habsent⟩ | ⟨user, account, huser, haccount, hmatches⟩
      · rw [setUserPassword_created hlower list hhash hnone, habsent]
        exact h.insert (hlower username) ⟨rfl, hpassword⟩
      · rw [UserList.setUserPassword]
        rw [hhash, huser, haccount]
        exact h.insert (hlower username) ⟨hmatches.senders, hpassword⟩

theorem Represents.run {list : UserList} {accounts : Accounts} (h : list.Represents accounts)
    (change : Change) : (change.run list).2.Represents (accounts.perform change) := by
  cases change with
  | setUserPassword username password salt =>
      exact h.setUserPassword hlower hverifies username password salt
  | removeUser username => exact h.removeUser username
  | addUserSendAs username sender => exact h.addUserSendAs hlower username sender
  | removeUserSendAs username sender => exact h.removeUserSendAs hlower username sender

/-- After all calls the list holds the accounts. -/
theorem represents_after (changes : List Change) :
    (default.after changes).Represents (Accounts.after changes) := by
  induction changes using List.reverseRecOn with
  | nil => exact represents_default
  | append_singleton changes change ih =>
      rw [Accounts.after_concat, after, List.foldl_concat]
      exact ih.run hlower hverifies change

end Calls

/-! ## The list as a map -/

section Behaviour

variable [Lowercase] [Argon2] [PasswordHasher]

/-- The list that the calls have made is a map keyed by names in lower case. -/
structure BehavesAsMap (changes : List Change) (list : UserList) : Prop where
  represents : list.Represents (Accounts.after changes)
  keys : ∀ name ∈ list.listUsers, toLowercase name = name
  hasUser_variant : ∀ username variant, SameLowercase username variant →
    list.hasUser username = list.hasUser variant
  verify_variant : ∀ username variant password, SameLowercase username variant →
    list.verifyUserPassword username password = list.verifyUserPassword variant password
  hasUser_iff : ∀ username, list.hasUser username = true ↔
    ∃ password, LastPassword changes (toLowercase username) password
  verify_iff : ∀ username password, list.verifyUserPassword username password = .ok () ↔
    LastPassword changes (toLowercase username) password
  keeps_senders : ∀ username password salt, list.hasUser username = true →
    (list.setUserPassword username password salt).2.listUserSendAs username =
      list.listUserSendAs username
  created_senders : ∀ username password salt after, list.hasUser username = false →
    list.setUserPassword username password salt = (.ok (), after) →
    after.listUserSendAs username = .ok {toLowercase username}
  others : ∀ change : Change, ∀ name, name ≠ toLowercase change.username →
    (change.run list).2.users.lookup name = list.users.lookup name
  unchanged : ∀ change : Change, ∀ error after, change.run list = (.error error, after) →
    after = list

omit [Argon2] in
/-- A call fails and changes nothing, or it replaces or erases the entry of its user. -/
theorem run_cases (hlower : ∀ text, toLowercase (toLowercase text) = toLowercase text)
    (list : UserList) (change : Change) :
    (∃ error, change.run list = (.error error, list)) ∨
      (∃ user, change.run list = (.ok (), list.insert (toLowercase change.username) user)) ∨
      change.run list = (.ok (), ⟨list.users.erase (toLowercase change.username)⟩) := by
  cases change with
  | setUserPassword username password salt =>
      rw [Change.run]
      cases hhash : PasswordHasher.hashPassword (Utf8.encode password) salt with
      | none => exact .inl ⟨_, by rw [setUserPassword, hhash]⟩
      | some hash =>
          cases huser : list.users.lookup (toLowercase username) with
          | none => exact .inr (.inl ⟨_, setUserPassword_created hlower list hhash huser⟩)
          | some user =>
              refine .inr (.inl ⟨{ user with password := hash }, ?_⟩)
              rw [setUserPassword, hhash, huser]
              rfl
  | removeUser username =>
      rw [Change.run, removeUser]
      split
      · exact .inl ⟨_, rfl⟩
      · exact .inr (.inr rfl)
  | addUserSendAs username sender =>
      rw [Change.run, addUserSendAs]
      split
      · exact .inl ⟨_, rfl⟩
      · exact .inr (.inl ⟨_, rfl⟩)
  | removeUserSendAs username sender =>
      rw [Change.run, removeUserSendAs]
      split
      · exact .inl ⟨_, rfl⟩
      · exact .inr (.inl ⟨_, rfl⟩)

omit [Argon2] [PasswordHasher] in
theorem hasUser_eq (list : UserList) (username : Text) :
    list.hasUser username = (list.users.lookup (toLowercase username)).isSome := by
  rw [hasUser, Bool.eq_iff_iff, decide_eq_true_iff, Finmap.mem_keys, Finmap.lookup_isSome]

omit [PasswordHasher] in
/-- What the list verifies is the password of the account. -/
theorem Represents.verify_iff {list : UserList} {accounts : Accounts}
    (h : list.Represents accounts) (username password : Text) :
    list.verifyUserPassword username password = .ok () ↔
      (accounts (toLowercase username)).map Account.password = some password := by
  rw [verifyUserPassword]
  rcases h.cases (toLowercase username) with
      ⟨hnone, habsent⟩ | ⟨user, account, huser, haccount, hmatches⟩
  · rw [hnone, habsent]
    exact iff_of_false (by simp) (by simp)
  · rw [huser, haccount, Option.map_some, Option.some.injEq, eq_comm (b := password),
      ← hmatches.password password]
    dsimp only
    split
    next hverified => exact iff_of_true rfl hverified
    next hrefuted => exact iff_of_false (by simp) hrefuted

/-- After every sequence of calls the list behaves as the map that they describe. -/
theorem users_behave_as_map
    (hlower : ∀ text, toLowercase (toLowercase text) = toLowercase text)
    (hverifies : ∀ password salt hash, PasswordHasher.hashPassword password salt = some hash →
      ∀ attempt, Argon2.verifyPassword attempt hash = true ↔ attempt = password)
    (changes : List Change) : BehavesAsMap changes (default.after changes) := by
  have hrepresents := represents_after hlower hverifies changes
  generalize default.after changes = list at hrepresents
  constructor
  case represents => exact hrepresents
  case keys => exact hrepresents.keys
  case hasUser_variant =>
    intro username variant hsame
    rw [hasUser, hasUser, hsame]
  case verify_variant =>
    intro username variant password hsame
    rw [verifyUserPassword, verifyUserPassword, hsame]
  case hasUser_iff =>
    intro username
    simp only [← Accounts.password_after, hasUser_eq]
    rcases hrepresents.cases (toLowercase username) with
        ⟨hnone, habsent⟩ | ⟨user, account, huser, haccount, -⟩
    · simp [hnone, habsent]
    · simp [huser, haccount]
  case verify_iff =>
    intro username password
    rw [hrepresents.verify_iff, Accounts.password_after]
  case keeps_senders =>
    intro username password salt hknown
    rw [hasUser_eq, Option.isSome_iff_exists] at hknown
    obtain ⟨user, huser⟩ := hknown
    rw [setUserPassword]
    cases PasswordHasher.hashPassword (Utf8.encode password) salt with
    | none => rfl
    | some hash =>
        rw [huser]
        dsimp only
        rw [listUserSendAs, insert, Finmap.lookup_insert, listUserSendAs, huser]
  case created_senders =>
    intro username password salt after hunknown hset
    rw [hasUser_eq, Option.isSome_eq_false_iff, Option.isNone_iff_eq_none] at hunknown
    cases hhash : PasswordHasher.hashPassword (Utf8.encode password) salt with
    | none =>
        rw [setUserPassword, hhash] at hset
        cases hset
    | some hash =>
        rw [setUserPassword_created hlower list hhash hunknown] at hset
        cases hset
        rw [listUserSendAs, insert, Finmap.lookup_insert]
  case others =>
    intro change name hname
    rcases run_cases hlower list change with ⟨error, hrun⟩ | ⟨user, hrun⟩ | hrun
    · rw [hrun]
    · rw [hrun]
      exact Finmap.lookup_insert_of_ne _ hname
    · rw [hrun]
      exact Finmap.lookup_erase_ne hname
  case unchanged =>
    intro change error after hfails
    rcases run_cases hlower list change with ⟨error, hrun⟩ | ⟨user, hrun⟩ | hrun
    · exact (congrArg Prod.snd (hrun.symm.trans hfails)).symm
    · rw [hrun] at hfails
      cases hfails
    · rw [hrun] at hfails
      cases hfails

end Behaviour

section Sample

attribute [local instance] Sample.instLowercase

/-- One character for each octet. -/
def spell (octets : Bytes) : Text := octets.map fun b => Char.ofNat b.toNat

theorem spell_injective {octets other : Bytes} (h : spell octets = spell other) :
    octets = other := by
  apply List.map_injective_iff.mpr ?_ h
  intro a b hab
  have hvalid : ∀ c : UInt8, (Char.ofNat c.toNat).toNat = c.toNat := by
    intro c
    have hc := c.toNat_lt
    have hvalid : c.toNat.isValidChar := .inl (by omega)
    rw [Char.ofNat, dif_pos hvalid]
    rfl
  exact UInt8.toNat_inj.mp ((hvalid a).symm.trans ((congrArg Char.toNat hab).trans (hvalid b)))

/-- Passwords in clear text. -/
local instance : PasswordHasher where
  hashPassword password _ := some (spell password)

local instance : Argon2 where
  verifyPassword password stored := spell password = stored

/-- A user is created, granted one more sender and given another password. -/
def bobsChanges : List Change :=
  [.setUserPassword "Bob".toList "old".toList [], .addUserSendAs "BOB".toList "*@x".toList,
    .setUserPassword "bOB".toList "new".toList [], .removeUser "eve".toList]

theorem users_behave_as_map_bob : BehavesAsMap bobsChanges (default.after bobsChanges) ∧
    (default.after bobsChanges).verifyUserPassword "bob".toList "new".toList = .ok () ∧
    (default.after bobsChanges).listUserSendAs "BoB".toList =
      .ok {"*@x".toList, "bob".toList} := by
  have hverifies : ∀ password salt hash,
      PasswordHasher.hashPassword password salt = some hash →
        ∀ attempt, Argon2.verifyPassword attempt hash = true ↔ attempt = password := by
    rintro password salt hash ⟨⟩ attempt
    exact decide_eq_true_iff.trans ⟨spell_injective, congrArg spell⟩
  exact ⟨users_behave_as_map Sample.toLowercase_toLowercase hverifies bobsChanges,
    by decide +kernel, by decide +kernel⟩

end Sample

end UserList

end PostGraph.MailProxy
