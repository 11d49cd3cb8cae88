import PostGraph.Foundation.Serde
import PostGraph.MailProxy.User

/-! # The format of users

Users are written as a mapping from their names, in whatever order the hash table
lists them. They are read into another table, whose names are then put in lower
case.
-/

namespace PostGraph.MailProxy

open Foundation
open Serde (Value Serialize Deserialize Survives serialize deserialize Field)

/-- The hash tables that are listed: all users, all users that were read, and the
senders of one user. -/
inductive HashTable where
  | users
  | loaded
  | senders (username : Text)

/-- The order in which hash tables list their keys. -/
class HashOrder where
  arrange : HashTable → Finset Text → List Text
  nodup_arrange : ∀ table keys, (arrange table keys).Nodup
  mem_arrange : ∀ table keys key, key ∈ arrange table keys ↔ key ∈ keys

/-- Password hashes are read by the library that makes them. -/
class PasswordHashString where
  new : Text → Except Text PasswordHash

/-- A table with the given entries, of which later ones replace earlier ones. -/
def collect (entries : List (Text × UserEntry)) : Finmap fun _ : Text => UserEntry :=
  entries.foldl (fun users entry => users.insert entry.1 entry.2) ∅

theorem collect_concat (entries : List (Text × UserEntry)) (entry : Text × UserEntry) :
    collect (entries ++ [entry]) = (collect entries).insert entry.1 entry.2 :=
  List.foldl_concat ..

/-- Entries of one name that agree do not replace each other. -/
theorem lookup_collect_of_agree {entries : List (Text × UserEntry)}
    (hagree : ∀ entry ∈ entries, ∀ other ∈ entries, entry.1 = other.1 → entry.2 = other.2)
    {name : Text} {user : UserEntry} :
    (collect entries).lookup name = some user ↔ (name, user) ∈ entries := by
  induction entries using List.reverseRecOn with
  | nil => simp [collect]
  | append_singleton entries last ih =>
      obtain ⟨lastName, lastUser⟩ := last
      have hlast : (lastName, lastUser) ∈ entries ++ [(lastName, lastUser)] :=
        List.mem_append_right _ (List.mem_singleton_self _)
      have hearlier := ih fun entry hentry other hother =>
        hagree entry (List.mem_append_left _ hentry) other (List.mem_append_left _ hother)
      rw [collect_concat, List.mem_append, List.mem_singleton]
      by_cases hname : name = lastName
      · subst hname
        rw [Finmap.lookup_insert, Option.some.injEq]
        constructor
        · rintro rfl
          exact .inr rfl
        · rintro (hmem | hsame)
          · exact (hagree _ (List.mem_append_left _ hmem) _ hlast rfl).symm
          · exact (congrArg Prod.snd hsame).symm
      · rw [Finmap.lookup_insert_of_ne _ hname, hearlier]
        exact ⟨.inl, fun h => h.resolve_right fun hsame => hname (congrArg Prod.fst hsame)⟩

theorem lookup_collect {entries : List (Text × UserEntry)}
    (hnames : (entries.map Prod.fst).Nodup) {name : Text} {user : UserEntry} :
    (collect entries).lookup name = some user ↔ (name, user) ∈ entries := by
  apply lookup_collect_of_agree
  intro entry hentry other hother hsame
  rw [List.inj_on_of_nodup_map hnames hentry hother hsame]

section Listing

variable [HashOrder]

/-- The entries of a table in the order in which it lists them. -/
def listing (table : HashTable) (users : Finmap fun _ : Text => UserEntry) :
    List (Text × UserEntry) :=
  (HashOrder.arrange table users.keys).filterMap fun name =>
    (users.lookup name).map fun user => (name, user)

theorem mem_listing {table : HashTable} {users : Finmap fun _ : Text => UserEntry}
    {entry : Text × UserEntry} :
    entry ∈ listing table users ↔ users.lookup entry.1 = some entry.2 := by
  simp only [listing, List.mem_filterMap, HashOrder.mem_arrange, Option.map_eq_some_iff]
  constructor
  · rintro ⟨name, _, user, huser, rfl⟩
    exact huser
  · intro huser
    exact ⟨entry.1, Finmap.mem_keys.mpr (Finmap.mem_of_lookup_eq_some huser), entry.2, huser, rfl⟩

theorem nodup_listing (table : HashTable) (users : Finmap fun _ : Text => UserEntry) :
    ((listing table users).map Prod.fst).Nodup := by
  have hkeys : (listing table users).map Prod.fst = HashOrder.arrange table users.keys := by
    have hname : ∀ name ∈ HashOrder.arrange table users.keys,
        ((users.lookup name).map fun user => (name, user)).map Prod.fst = some name := by
      intro name hmem
      rw [HashOrder.mem_arrange, Finmap.mem_keys, Finmap.mem_iff] at hmem
      obtain ⟨user, huser⟩ := hmem
      rw [huser]
      rfl
    rw [listing, List.map_filterMap, List.filterMap_congr hname, List.filterMap_some]
  rw [hkeys]
  exact HashOrder.nodup_arrange table users.keys

/-- Whatever the order, the entries make the same table again. -/
theorem collect_listing (table : HashTable) (users : Finmap fun _ : Text => UserEntry) :
    collect (listing table users) = users := by
  apply Finmap.ext_lookup
  intro name
  ext user
  rw [lookup_collect (nodup_listing table users), mem_listing]

end Listing

section Format

variable [HashOrder]

def UserEntry.fields (username : Text) (user : UserEntry) : List Field :=
  [.present "password".toList user.password,
    .skipIf (user.allowSendAs = ∅) "send_as".toList
      (HashOrder.arrange (.senders username) user.allowSendAs)]

def UserEntry.serialize (username : Text) (user : UserEntry) : Value :=
  Serde.record (user.fields username)

instance : Serialize UserList where
  serialize list :=
    .mapping ((listing .users list.users).map fun entry =>
      (entry.1, entry.2.serialize entry.1))

variable [PasswordHashString]

def UserEntry.visitMap (entries : List (Text × Value)) : Except Serde.Error UserEntry := do
  let password : Text ← Serde.required entries "password".toList
  let hash ← (PasswordHashString.new password).mapError Serde.Error.custom
  let allowSendAs : List Text ← Serde.defaulted entries "send_as".toList []
  return ⟨hash, allowSendAs.toFinset⟩

instance : Deserialize UserEntry where
  deserialize value := do
    UserEntry.visitMap (← Serde.entries "struct UserEntry".toList value)

variable [Lowercase]

instance : Deserialize UserList where
  deserialize
    | .mapping entries => do
        let users ← entries.mapM fun entry => (entry.1, ·) <$> deserialize entry.2
        let loaded := listing .loaded (collect users)
        return ⟨collect (loaded.map fun entry => (toLowercase entry.1, entry.2))⟩
    | _ => .error (.invalidType "a map".toList)

/-- The password hash is one that can be read. -/
def UserEntry.Readable (user : UserEntry) : Prop :=
  PasswordHashString.new user.password = .ok user.password

/-- Names are in lower case, and password hashes can be read. -/
structure UserList.Readable (list : UserList) : Prop where
  lowercase : ∀ name ∈ list.users, toLowercase name = name
  entries : ∀ name user, list.users.lookup name = some user → user.Readable

omit [PasswordHashString] [Lowercase] in
theorem UserEntry.nodup_fields (username : Text) (user : UserEntry) :
    ((user.fields username).map Prod.fst).Nodup := by
  change ["password".toList, "send_as".toList].Nodup
  decide

omit [PasswordHashString] [Lowercase] in
theorem UserEntry.writable_serialize (username : Text) (user : UserEntry) :
    (user.serialize username).Writable := by
  apply Serde.writable_record (user.nodup_fields username)
  have hsenders : Survives (HashOrder.arrange (.senders username) user.allowSendAs) :=
    Serde.survives_list fun sender _ => Serde.survives_text sender
  exact List.forall_mem_cons.mpr ⟨Field.writable_present (Serde.survives_text user.password),
    List.forall_mem_singleton.mpr (Field.writable_skipIf hsenders)⟩

omit [Lowercase] in
theorem UserEntry.deserialize_serialize {user : UserEntry} (huser : user.Readable)
    (username : Text) : deserialize (user.serialize username) = .ok user := by
  have hnames := user.nodup_fields username
  have hpassword : Serde.required (Serde.written (user.fields username)) "password".toList =
      .ok user.password :=
    Serde.required_written hnames 0 rfl (Serde.survives_text user.password)
  have hsenders : Serde.defaulted (Serde.written (user.fields username)) "send_as".toList [] =
      .ok (HashOrder.arrange (.senders username) user.allowSendAs) := by
    refine Serde.defaulted_written hnames 1 rfl ?_
      (Serde.survives_list fun sender _ => Serde.survives_text sender)
    intro hempty
    rw [of_decide_eq_true hempty, List.eq_nil_iff_forall_not_mem]
    intro sender
    rw [HashOrder.mem_arrange]
    exact Finset.notMem_empty sender
  have hset : (HashOrder.arrange (.senders username) user.allowSendAs).toFinset =
      user.allowSendAs := by
    ext sender
    rw [List.mem_toFinset, HashOrder.mem_arrange]
  change visitMap (Serde.written (user.fields username)) = .ok user
  rw [visitMap, hpassword, hsenders]
  change ((PasswordHashString.new user.password).mapError Serde.Error.custom >>= _) = _
  rw [huser]
  exact congrArg (fun senders => Except.ok (UserEntry.mk user.password senders)) hset

/-- Names in lower case are what they are after reading. -/
theorem UserList.survives {list : UserList} (hlist : list.Readable) : Survives list where
  writable := by
    apply Value.Writable.mapping
    · rw [List.map_map]
      exact nodup_listing .users list.users
    · intro value hvalue
      obtain ⟨entry, _, rfl⟩ := List.mem_map.mp hvalue
      exact entry.2.writable_serialize entry.1
  ne_null := nofun
  deserialize_serialize := by
    have hread : ((listing .users list.users).map fun entry =>
        (entry.1, entry.2.serialize entry.1)).mapM (fun entry =>
          (entry.1, ·) <$> (deserialize entry.2 : Except Serde.Error UserEntry)) =
        .ok (listing .users list.users) := by
      apply Serde.mapM_map
      intro entry hentry
      have huser := hlist.entries entry.1 entry.2 (mem_listing.mp hentry)
      rw [UserEntry.deserialize_serialize huser]
      rfl
    have hlower : (listing .loaded list.users).map (fun entry => (toLowercase entry.1, entry.2)) =
        listing .loaded list.users := by
      have hname : ∀ entry ∈ listing .loaded list.users,
          (toLowercase entry.1, entry.2) = entry := by
        intro entry hentry
        have hmem := Finmap.mem_of_lookup_eq_some (mem_listing.mp hentry)
        rw [hlist.lowercase entry.1 hmem]
      rw [List.map_congr_left hname, List.map_id']
    change (List.mapM _ _ >>= _) = _
    rw [hread]
    change Except.ok (UserList.mk (collect ((listing .loaded (collect _)).map _))) = _
    rw [collect_listing, hlower, collect_listing]

end Format

/-! ## Changes -/

namespace UserList

variable [Lowercase] [PasswordHashString] {list : UserList}

theorem Readable.insert (hlist : list.Readable) {name : Text} {user : UserEntry}
    (hname : toLowercase name = name) (huser : user.Readable) :
    (list.insert name user).Readable where
  lowercase other hother := by
    rcases Finmap.mem_insert.mp hother with rfl | hmem
    · exact hname
    · exact hlist.lowercase other hmem
  entries other entry hentry := by
    by_cases hother : other = name
    · subst hother
      rw [UserList.insert, Finmap.lookup_insert] at hentry
      cases hentry
      exact huser
    · rw [UserList.insert, Finmap.lookup_insert_of_ne _ hother] at hentry
      exact hlist.entries other entry hentry

theorem Readable.erase (hlist : list.Readable) (name : Text) :
    (UserList.mk (list.users.erase name)).Readable where
  lowercase other hother := hlist.lowercase other (Finmap.mem_erase.mp hother).2
  entries other entry hentry := by
    apply hlist.entries
    by_cases hother : other = name
    · rw [hother, Finmap.lookup_erase] at hentry
      cases hentry
    · rwa [Finmap.lookup_erase_ne hother] at hentry

variable (hlower : ∀ text, toLowercase (toLowercase text) = toLowercase text)

include hlower

theorem Readable.addUserSendAs (hlist : list.Readable) (username sender : Text) :
    (list.addUserSendAs username sender).2.Readable := by
  rw [UserList.addUserSendAs]
  cases huser : list.users.lookup (toLowercase username) with
  | none => exact hlist
  | some user => exact hlist.insert (hlower username) (hlist.entries _ user huser)

theorem Readable.removeUserSendAs (hlist : list.Readable) (username sender : Text) :
    (list.removeUserSendAs username sender).2.Readable := by
  rw [UserList.removeUserSendAs]
  cases huser : list.users.lookup (toLowercase username) with
  | none => exact hlist
  | some user => exact hlist.insert (hlower username) (hlist.entries _ user huser)

omit hlower in
theorem Readable.removeUser (hlist : list.Readable) (username : Text) :
    (list.removeUser username).2.Readable := by
  rw [UserList.removeUser]
  cases list.users.lookup (toLowercase username) with
  | none => exact hlist
  | some user => exact hlist.erase (toLowercase username)

variable [PasswordHasher]
variable (hhashes : ∀ password salt hash, PasswordHasher.hashPassword password salt = some hash →
  PasswordHashString.new hash = .ok hash)

include hhashes

theorem Readable.setUserPassword (hlist : list.Readable) (username password : Text)
    (salt : Bytes) : (list.setUserPassword username password salt).2.Readable := by
  rw [UserList.setUserPassword]
  cases hhash : PasswordHasher.hashPassword (Utf8.encode password) salt with
  | none => exact hlist
  | some hash =>
      have hreadable := hhashes _ _ _ hhash
      cases list.users.lookup (toLowercase username) with
      | none =>
          have hnew : (list.insert (toLowercase username) ⟨hash, ∅⟩).Readable :=
            hlist.insert (hlower username) hreadable
          exact hnew.addUserSendAs hlower (toLowercase username) (toLowercase username)
      | some user => exact hlist.insert (hlower username) hreadable

end UserList

end PostGraph.MailProxy
