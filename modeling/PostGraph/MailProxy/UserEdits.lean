import PostGraph.MailProxy.Accounts
import PostGraph.MailProxy.Revocation

/-! # Edits of the list of users

What each call makes of the passwords and of the entries of every user.
-/

namespace PostGraph.MailProxy

open Foundation

namespace UserList

/-- The hash of the password of a user, whose name is in lower case. -/
def passwordOf (list : UserList) (name : Text) : Option PasswordHash :=
  (list.users.lookup name).map UserEntry.password

theorem passwordOf_insert (list : UserList) (other : Text) (user : UserEntry) (name : Text) :
    (list.insert other user).passwordOf name =
      if name = other then some user.password else list.passwordOf name := by
  unfold passwordOf insert
  by_cases hname : name = other
  · rw [if_pos hname, hname, Finmap.lookup_insert]
    rfl
  · rw [if_neg hname, Finmap.lookup_insert_of_ne _ hname]

/-- Other senders of a user change no password. -/
theorem passwordOf_insert_senders {list : UserList} {other : Text} {user : UserEntry}
    (hlookup : list.users.lookup other = some user) (senders : Finset Text) (name : Text) :
    (list.insert other ⟨user.password, senders⟩).passwordOf name = list.passwordOf name := by
  rw [passwordOf_insert]
  by_cases hname : name = other
  · rw [if_pos hname, passwordOf, hname, hlookup]
    rfl
  · rw [if_neg hname]

variable [Lowercase]

theorem passwordOf_addUserSendAs (list : UserList) (username sender name : Text) :
    (list.addUserSendAs username sender).2.passwordOf name = list.passwordOf name := by
  unfold addUserSendAs
  dsimp only
  cases hlookup : list.users.lookup (toLowercase username) with
  | none => rfl
  | some user => exact passwordOf_insert_senders hlookup _ name

theorem passwordOf_removeUserSendAs (list : UserList) (username sender name : Text) :
    (list.removeUserSendAs username sender).2.passwordOf name = list.passwordOf name := by
  unfold removeUserSendAs
  dsimp only
  cases hlookup : list.users.lookup (toLowercase username) with
  | none => rfl
  | some user => exact passwordOf_insert_senders hlookup _ name

theorem passwordOf_removeUser (list : UserList) (username name : Text) :
    (list.removeUser username).2.passwordOf name =
      if name = toLowercase username then none else list.passwordOf name := by
  unfold removeUser
  dsimp only
  by_cases hname : name = toLowercase username
  · rw [if_pos hname, hname]
    cases hlookup : list.users.lookup (toLowercase username) with
    | none =>
        unfold passwordOf
        rw [hlookup]
        rfl
    | some user =>
        unfold passwordOf
        rw [Finmap.lookup_erase]
        rfl
  · rw [if_neg hname]
    cases list.users.lookup (toLowercase username) with
    | none => rfl
    | some user =>
        unfold passwordOf
        rw [Finmap.lookup_erase_ne hname]

theorem passwordOf_setUserPassword [PasswordHasher] (list : UserList)
    (username password : Text) (salt : Bytes) (name : Text) :
    (list.setUserPassword username password salt).2.passwordOf name =
      if name = toLowercase username then
        (PasswordHasher.hashPassword (Utf8.encode password) salt).or (list.passwordOf name)
      else list.passwordOf name := by
  unfold setUserPassword
  dsimp only
  cases PasswordHasher.hashPassword (Utf8.encode password) salt with
  | none =>
      rw [Option.none_or, ite_self]
  | some hash =>
      cases hlookup : list.users.lookup (toLowercase username) with
      | some user => exact passwordOf_insert ..
      | none => exact (passwordOf_addUserSendAs ..).trans (passwordOf_insert ..)

theorem entries_insert (list : UserList) (other : Text) (user : UserEntry) (username : Text) :
    (list.insert other user).entries username =
      if toLowercase username = other then user.allowSendAs else list.entries username := by
  unfold entries insert
  by_cases hname : toLowercase username = other
  · rw [if_pos hname, hname, Finmap.lookup_insert]
    rfl
  · rw [if_neg hname, Finmap.lookup_insert_of_ne _ hname]

theorem hasUser_of_some {list : UserList} {other : Text} {user : UserEntry}
    (hlookup : list.users.lookup (toLowercase other) = some user) : list.hasUser other = true := by
  rw [hasUser, decide_eq_true_iff, Finmap.mem_keys, ← Finmap.lookup_isSome, hlookup]
  rfl

theorem hasUser_of_none {list : UserList} {other : Text}
    (hlookup : list.users.lookup (toLowercase other) = none) : list.hasUser other = false := by
  rw [hasUser, decide_eq_false_iff_not, Finmap.mem_keys, ← Finmap.lookup_isSome, hlookup]
  exact Bool.false_ne_true

/-- Another entry of the user, of whom the list has one. -/
theorem entries_insert_of_lookup {list : UserList} {other : Text} {user : UserEntry}
    (hlookup : list.users.lookup (toLowercase other) = some user) (changed : UserEntry)
    (username : Text) : (list.insert (toLowercase other) changed).entries username =
      if toLowercase username = toLowercase other ∧ list.hasUser other = true then
        changed.allowSendAs
      else list.entries username := by
  simp only [entries_insert, hasUser_of_some hlookup, and_true]

theorem entries_of_lookup {list : UserList} {other username : Text} {user : UserEntry}
    (hlookup : list.users.lookup (toLowercase other) = some user)
    (hsame : toLowercase username = toLowercase other) :
    list.entries username = user.allowSendAs := by
  rw [entries, hsame, hlookup]
  rfl

theorem mem_entries_addUserSendAs (list : UserList) (other sender username entry : Text) :
    entry ∈ (list.addUserSendAs other sender).2.entries username ↔
      (toLowercase username = toLowercase other ∧ list.hasUser other = true) ∧ entry = sender ∨
        entry ∈ list.entries username := by
  unfold addUserSendAs
  dsimp only
  cases hlookup : list.users.lookup (toLowercase other) with
  | none => simp [hasUser_of_none hlookup]
  | some user =>
      dsimp only
      rw [entries_insert_of_lookup hlookup]
      split
      next hsame =>
        simp [hsame, entries_of_lookup hlookup hsame.1]
      next hother => simp [hother]

theorem mem_entries_removeUserSendAs (list : UserList) (other sender username entry : Text) :
    entry ∈ (list.removeUserSendAs other sender).2.entries username ↔
      ¬ (toLowercase username = toLowercase other ∧ entry = sender) ∧
        entry ∈ list.entries username := by
  unfold removeUserSendAs
  dsimp only
  cases hlookup : list.users.lookup (toLowercase other) with
  | none =>
      refine ⟨fun hmem => ⟨?_, hmem⟩, And.right⟩
      rintro ⟨hsame, -⟩
      rw [entries, hsame, hlookup] at hmem
      exact Finset.notMem_empty _ hmem
  | some user =>
      dsimp only
      rw [entries_insert]
      split
      next hsame =>
        simp [hsame, entries_of_lookup hlookup hsame]
      next hother => simp [hother]

theorem mem_entries_removeUser (list : UserList) (other username entry : Text) :
    entry ∈ (list.removeUser other).2.entries username ↔
      toLowercase username ≠ toLowercase other ∧ entry ∈ list.entries username := by
  unfold removeUser
  dsimp only
  by_cases hname : toLowercase username = toLowercase other
  · refine iff_of_false (fun hmem => ?_) fun h => h.1 hname
    cases hlookup : list.users.lookup (toLowercase other) with
    | none =>
        rw [hlookup, entries, hname, hlookup] at hmem
        exact Finset.notMem_empty _ hmem
    | some user =>
        rw [hlookup, entries, hname] at hmem
        dsimp only at hmem
        rw [Finmap.lookup_erase] at hmem
        exact Finset.notMem_empty _ hmem
  · rw [and_iff_right hname]
    cases list.users.lookup (toLowercase other) with
    | none => rfl
    | some user =>
        unfold entries
        rw [Finmap.lookup_erase_ne hname]

/-- A new user is granted the own name, and others keep their entries. -/
theorem mem_entries_setUserPassword [PasswordHasher]
    (hlower : ∀ text, toLowercase (toLowercase text) = toLowercase text) (list : UserList)
    (other password : Text) (salt : Bytes) (username entry : Text) :
    entry ∈ (list.setUserPassword other password salt).2.entries username ↔
      ((PasswordHasher.hashPassword (Utf8.encode password) salt).isSome = true ∧
          list.hasUser other = false) ∧
        toLowercase username = toLowercase other ∧ entry = toLowercase other ∨
      entry ∈ list.entries username := by
  cases hhash : PasswordHasher.hashPassword (Utf8.encode password) salt with
  | none =>
      unfold setUserPassword
      rw [hhash]
      simp
  | some hash =>
      cases hlookup : list.users.lookup (toLowercase other) with
      | none =>
          rw [setUserPassword_created hlower list hhash hlookup, entries_insert,
            hasUser_of_none hlookup]
          split
          next hsame =>
            have hnone : list.entries username = ∅ := by
              rw [entries, hsame, hlookup]
              rfl
            simp [hsame, hnone]
          next hother => simp [hother]
      | some user =>
          unfold setUserPassword
          dsimp only
          rw [hhash]
          dsimp only
          rw [hlookup]
          dsimp only
          rw [entries_insert_of_lookup hlookup]
          split
          next hsame => simp [hsame, entries_of_lookup hlookup hsame.1]
          next hother =>
            refine (or_iff_right ?_).symm
            rintro ⟨⟨-, hnew⟩, -⟩
            cases hnew.symm.trans (hasUser_of_some hlookup)

theorem hasUser_iff (list : UserList) (username : Text) :
    list.hasUser username = true ↔ (list.passwordOf (toLowercase username)).isSome = true := by
  unfold hasUser passwordOf
  rw [decide_eq_true_iff, Finmap.mem_keys, Option.isSome_map, Finmap.lookup_isSome]

theorem verifyUserPassword_ok_iff [Argon2] (list : UserList) (username password : Text) :
    list.verifyUserPassword username password = .ok () ↔
      ∃ hash, list.passwordOf (toLowercase username) = some hash ∧
        Argon2.verifyPassword (Utf8.encode password) hash = true := by
  unfold verifyUserPassword passwordOf
  dsimp only
  cases list.users.lookup (toLowercase username) with
  | none => exact iff_of_false nofun nofun
  | some user =>
      rw [Option.map_some]
      by_cases hverify : Argon2.verifyPassword (Utf8.encode password) user.password = true
      · exact iff_of_true (if_pos hverify) ⟨_, rfl, hverify⟩
      · refine iff_of_false (fun haccepted => ?_) ?_
        · cases (if_neg hverify).symm.trans haccepted
        · rintro ⟨hash, hhash, hright⟩
          cases hhash
          exact hverify hright

end UserList

end PostGraph.MailProxy
