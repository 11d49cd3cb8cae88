import Mathlib.Data.Finmap
import PostGraph.Foundation.Utf8

/-! # Users

Users are known by their names in lower case. Each has a password hash and a set
of sender addresses: exact addresses, whole domains, or all addresses.
-/

namespace PostGraph.MailProxy

open Foundation

/-- Unicode lower case, as the standard library computes it. -/
class Lowercase where
  toLowercase : Text → Text

export Lowercase (toLowercase)

/-- A password hash in its text format. -/
abbrev PasswordHash := Text

/-- The Argon2 library. -/
class Argon2 where
  verifyPassword : Bytes → PasswordHash → Bool

/-- The hashing side of the Argon2 library, with the salt that it draws. -/
class PasswordHasher where
  hashPassword : Bytes → Bytes → Option PasswordHash

structure UserEntry where
  password : PasswordHash
  allowSendAs : Finset Text

structure UserList where
  users : Finmap fun _ : Text => UserEntry

/-- The parts before and behind the last occurrence of a character. -/
def rsplitOnce (c : Char) : Text → Option (Text × Text)
  | [] => none
  | first :: rest =>
      match rsplitOnce c rest with
      | some (before, after) => some (first :: before, after)
      | none => if first = c then some ([], rest) else none

theorem rsplitOnce_eq_none_iff {c : Char} {text : Text} :
    rsplitOnce c text = none ↔ c ∉ text := by
  induction text with
  | nil => simp [rsplitOnce]
  | cons first rest ih =>
      rw [rsplitOnce, List.mem_cons, not_or, ← ih]
      cases rsplitOnce c rest with
      | some parts => simp
      | none => simp [eq_comm]

theorem rsplitOnce_append {c : Char} (before : Text) {after : Text} (h : c ∉ after) :
    rsplitOnce c (before ++ c :: after) = some (before, after) := by
  induction before with
  | nil =>
      rw [List.nil_append, rsplitOnce, rsplitOnce_eq_none_iff.mpr h]
      exact if_pos rfl
  | cons first rest ih => rw [List.cons_append, rsplitOnce, ih]

theorem rsplitOnce_eq_some {c : Char} {text before after : Text}
    (h : rsplitOnce c text = some (before, after)) : text = before ++ c :: after ∧ c ∉ after := by
  induction text generalizing before with
  | nil => cases h
  | cons first rest ih =>
      rw [rsplitOnce] at h
      cases hrest : rsplitOnce c rest with
      | some parts =>
          rw [hrest] at h
          cases h
          obtain ⟨hsplit, hafter⟩ := ih hrest
          exact ⟨congrArg (first :: ·) hsplit, hafter⟩
      | none =>
          rw [hrest] at h
          obtain ⟨hfirst, hparts⟩ := Option.ite_none_right_eq_some.mp h
          cases hparts
          exact ⟨congrArg (· :: after) hfirst, rsplitOnce_eq_none_iff.mp hrest⟩

/-- What is behind the last at sign of an address. -/
def IsDomainOf (domain address : Text) : Prop :=
  ∃ before, address = before ++ '@' :: domain ∧ '@' ∉ domain

theorem IsDomainOf.unique {domain other address : Text} (h : IsDomainOf domain address)
    (hother : IsDomainOf other address) : domain = other := by
  obtain ⟨before, rfl, hdomain⟩ := h
  obtain ⟨front, hsplit, hfree⟩ := hother
  have hparts := rsplitOnce_append before hdomain
  rw [hsplit, rsplitOnce_append front hfree] at hparts
  cases hparts
  rfl

theorem rsplitOnce_any_iff {domain address : Text} :
    ((rsplitOnce '@' address).any fun parts => parts.2 = domain) = true ↔
      IsDomainOf domain address := by
  constructor
  · intro h
    cases hsplit : rsplitOnce '@' address with
    | none => simp [hsplit] at h
    | some parts =>
        rw [hsplit] at h
        have hdomain : parts.2 = domain := by simpa using h
        exact ⟨parts.1, hdomain ▸ rsplitOnce_eq_some hsplit⟩
  · rintro ⟨before, rfl, hdomain⟩
    simp [rsplitOnce_append before hdomain]

namespace UserList

def default : UserList := ⟨∅⟩

def hasUsers (list : UserList) : Bool := list.users.keys ≠ ∅

def userNotFound (username : Text) : Text :=
  "user ".toList ++ username ++ " not found".toList

/-- The list with another entry of one user. -/
def insert (list : UserList) (username : Text) (user : UserEntry) : UserList :=
  ⟨list.users.insert username user⟩

/-- The names of all users. -/
def listUsers (list : UserList) : Finset Text := list.users.keys

variable [Lowercase]

def addUserSendAs (list : UserList) (username sender : Text) : Except Text Unit × UserList :=
  let username := toLowercase username
  match list.users.lookup username with
  | none => (.error (userNotFound username), list)
  | some user =>
      (.ok (), list.insert username
        { user with allowSendAs := Insert.insert sender user.allowSendAs })

def removeUserSendAs (list : UserList) (username sender : Text) : Except Text Unit × UserList :=
  let username := toLowercase username
  match list.users.lookup username with
  | none => (.error (userNotFound username), list)
  | some user =>
      (.ok (), list.insert username { user with allowSendAs := user.allowSendAs.erase sender })

def listUserSendAs (list : UserList) (username : Text) : Except Text (Finset Text) :=
  let username := toLowercase username
  match list.users.lookup username with
  | none => .error (userNotFound username)
  | some user => .ok user.allowSendAs

def setUserPassword [PasswordHasher] (list : UserList) (username password : Text) (salt : Bytes) :
    Except Text Unit × UserList :=
  let username := toLowercase username
  match PasswordHasher.hashPassword (Utf8.encode password) salt with
  | none => (.error "could not set password".toList, list)
  | some hash =>
      match list.users.lookup username with
      | some user => (.ok (), list.insert username { user with password := hash })
      | none => (list.insert username ⟨hash, ∅⟩).addUserSendAs username username

def removeUser (list : UserList) (username : Text) : Except Text Unit × UserList :=
  let username := toLowercase username
  match list.users.lookup username with
  | none => (.error "User not found".toList, list)
  | some _ => (.ok (), ⟨list.users.erase username⟩)

def hasUser (list : UserList) (username : Text) : Bool :=
  toLowercase username ∈ list.users.keys

/-- A call that may change the list. -/
inductive Change where
  | setUserPassword (username password : Text) (salt : Bytes)
  | removeUser (username : Text)
  | addUserSendAs (username sender : Text)
  | removeUserSendAs (username sender : Text)

def Change.run [PasswordHasher] (list : UserList) : Change → Except Text Unit × UserList
  | setUserPassword username password salt => list.setUserPassword username password salt
  | removeUser username => list.removeUser username
  | addUserSendAs username sender => list.addUserSendAs username sender
  | removeUserSendAs username sender => list.removeUserSendAs username sender

/-- The list after the calls, whatever each of them returned. -/
def after [PasswordHasher] (list : UserList) (changes : List Change) : UserList :=
  changes.foldl (fun list change => (change.run list).2) list

def verifyUserPassword [Argon2] (list : UserList) (username password : Text) :
    Except Text Unit :=
  let username := toLowercase username
  match list.users.lookup username with
  | none => .error (userNotFound username)
  | some user =>
      if Argon2.verifyPassword (Utf8.encode password) user.password then .ok ()
      else .error "invalid password".toList

/-- One entry of the set covers the sender; both are in lower case. -/
def covers (entry sender : Text) : Bool :=
  entry = "*@*".toList ||
    (match entry.dropPrefix? "*@".toList with
      | none => false
      | some domain =>
          let domain : Text := domain
          domain ≠ [] && (rsplitOnce '@' sender).any fun parts => parts.2 = domain) ||
    entry = sender

omit [Lowercase] in
theorem covers_iff {entry sender : Text} : covers entry sender = true ↔
    entry = "*@*".toList ∨
      (∃ domain, entry = "*@".toList ++ domain ∧ domain ≠ [] ∧ IsDomainOf domain sender) ∨
      entry = sender := by
  rw [covers, Bool.or_eq_true, Bool.or_eq_true, decide_eq_true_iff, decide_eq_true_iff, or_assoc]
  refine or_congr Iff.rfl (or_congr ?_ Iff.rfl)
  cases hprefix : entry.dropPrefix? "*@".toList with
  | none =>
      apply iff_of_false Bool.false_ne_true
      rintro ⟨domain, hentry, -, -⟩
      rw [dropPrefix?_eq_some.mpr hentry] at hprefix
      cases hprefix
  | some rest =>
      have hentry : entry = "*@".toList ++ rest := dropPrefix?_eq_some.mp hprefix
      simp only [Bool.and_eq_true, decide_eq_true_iff, rsplitOnce_any_iff]
      constructor
      · rintro ⟨hrest, hdomain⟩
        exact ⟨rest, hentry, hrest, hdomain⟩
      · rintro ⟨domain, hsame, hrest, hdomain⟩
        rw [hentry] at hsame
        cases List.append_cancel_left hsame
        exact ⟨hrest, hdomain⟩

def verifyUserCanSendAs (list : UserList) (username sender : Text) : Except Text Unit :=
  let username := toLowercase username
  let sender := toLowercase sender
  match list.users.lookup username with
  | none => .error (userNotFound username)
  | some user =>
      if ∃ entry ∈ user.allowSendAs, covers (toLowercase entry) sender then .ok ()
      else .error
        ("user ".toList ++ username ++ " not allowed to send as ".toList ++ sender)

end UserList

end PostGraph.MailProxy
