import PostGraph.MailProxy.LoginState
import PostGraph.MailProxy.UserFormat

/-! # The order of loading

Users are read into a hash table and from there into another one, under their names
in lower case. Names that differ in case only meet there, and the one that the first
table lists last stays.
-/

namespace PostGraph.MailProxy

open Foundation
open Serde (Value deserialize)

namespace HashOrder

/-- The same order, except that one name is the last of its table. -/
def arrangeLast (order : HashOrder) (name : Text) (table : HashTable) (keys : Finset Text) :
    List Text :=
  if name ∈ keys then order.arrange table (keys.erase name) ++ [name] else order.arrange table keys

theorem nodup_arrangeLast (order : HashOrder) (name : Text) (table : HashTable)
    (keys : Finset Text) : (order.arrangeLast name table keys).Nodup := by
  unfold arrangeLast
  split
  next hname =>
    rw [← List.concat_eq_append]
    refine (order.nodup_arrange table (keys.erase name)).concat ?_
    rw [order.mem_arrange]
    exact Finset.notMem_erase name keys
  next => exact order.nodup_arrange table keys

theorem mem_arrangeLast (order : HashOrder) (name : Text) (table : HashTable)
    (keys : Finset Text) (key : Text) :
    key ∈ order.arrangeLast name table keys ↔ key ∈ keys := by
  unfold arrangeLast
  split
  next hname =>
    rw [List.mem_append, List.mem_singleton, order.mem_arrange, Finset.mem_erase]
    by_cases hkey : key = name
    · simp [hkey, hname]
    · simp [hkey]
  next => exact order.mem_arrange table keys key

@[reducible] def withLast (order : HashOrder) (name : Text) : HashOrder where
  arrange := order.arrangeLast name
  nodup_arrange := order.nodup_arrangeLast name
  mem_arrange := order.mem_arrangeLast name

end HashOrder

/-- The second table, for an order in which the first one is listed. -/
def refold [Lowercase] (order : HashOrder) (users : Finmap fun _ : Text => UserEntry) :
    Finmap fun _ : Text => UserEntry :=
  collect ((listing .loaded users).map fun entry => (toLowercase entry.1, entry.2))

section Tables

variable [Lowercase] {users : Finmap fun _ : Text => UserEntry}

/-- The name that is listed last gives the user his entry. -/
theorem lookup_refold_withLast (order : HashOrder) {name : Text} {user : UserEntry}
    (huser : users.lookup name = some user) :
    (refold (order.withLast name) users).lookup (toLowercase name) = some user := by
  have hname : name ∈ users.keys := Finmap.mem_keys.mpr (Finmap.mem_of_lookup_eq_some huser)
  have harrange : (order.withLast name).arrange .loaded users.keys =
      order.arrange .loaded (users.keys.erase name) ++ [name] := if_pos hname
  have hlast : ([name].filterMap fun name => (users.lookup name).map fun user => (name, user)) =
      [(name, user)] := by
    rw [List.filterMap_cons, huser]
    rfl
  unfold refold listing
  rw [harrange, List.filterMap_append, List.map_append, hlast, List.map_singleton, collect_concat,
    Finmap.lookup_insert]

/-- Users whose names are the same in lower case have the same entries. -/
def Agree (users : Finmap fun _ : Text => UserEntry) : Prop :=
  ∀ name other user otherUser, users.lookup name = some user →
    users.lookup other = some otherUser → toLowercase name = toLowercase other →
    user = otherUser

theorem lookup_refold (hagree : Agree users) (order : HashOrder) {name : Text} {user : UserEntry} :
    (refold order users).lookup name = some user ↔
      ∃ spelling, toLowercase spelling = name ∧ users.lookup spelling = some user := by
  rw [refold, lookup_collect_of_agree]
  · simp only [List.mem_map, mem_listing, Prod.mk.injEq, Prod.exists]
    constructor
    · rintro ⟨spelling, _, hlookup, rfl, rfl⟩
      exact ⟨spelling, rfl, hlookup⟩
    · rintro ⟨spelling, rfl, hlookup⟩
      exact ⟨spelling, user, hlookup, rfl, rfl⟩
  · intro entry hentry other hother hsame
    obtain ⟨before, hbefore, rfl⟩ := List.mem_map.mp hentry
    obtain ⟨before', hbefore', rfl⟩ := List.mem_map.mp hother
    exact hagree before.1 before'.1 _ _ (mem_listing.mp hbefore) (mem_listing.mp hbefore') hsame

/-- The second table is the same for all orders exactly if users with the same name
agree. -/
theorem refold_eq_iff : (∀ first second : HashOrder, refold first users = refold second users) ↔
    Agree users := by
  constructor
  · intro hequal name other user otherUser huser hother hsame
    let order : HashOrder :=
      ⟨fun _ keys => keys.toList, fun _ keys => keys.nodup_toList, fun _ _ _ => Finset.mem_toList⟩
    have hfirst := lookup_refold_withLast order huser
    rw [hequal (order.withLast name) (order.withLast other), hsame,
      lookup_refold_withLast order hother] at hfirst
    exact (Option.some.inj hfirst).symm
  · intro hagree first second
    apply Finmap.ext_lookup
    intro name
    ext user
    rw [lookup_refold hagree first, lookup_refold hagree second]

end Tables

/-! ## Loading -/

section Loading

variable [Lowercase] [PasswordHashString]

/-- Reading the mapping of users, with the first table listed in the given order. -/
def loadUsers (order : HashOrder) (entries : List (Text × Value)) : Except Serde.Error UserList :=
  deserialize (Value.mapping entries)

def readUser (entry : Text × Value) : Except Serde.Error (Text × UserEntry) :=
  (entry.1, ·) <$> deserialize entry.2

omit [Lowercase] in
theorem readUser_eq_ok {entry : Text × Value} {name : Text} {user : UserEntry} :
    readUser entry = .ok (name, user) ↔ entry.1 = name ∧ deserialize entry.2 = .ok user := by
  unfold readUser
  cases (deserialize entry.2 : Except Serde.Error UserEntry) with
  | error error => simp
  | ok read => simp

omit [Lowercase] in
theorem readUser_eq_error {entry : Text × Value} {error : Serde.Error} :
    readUser entry = .error error ↔
      (deserialize entry.2 : Except Serde.Error UserEntry) = .error error := by
  unfold readUser
  cases (deserialize entry.2 : Except Serde.Error UserEntry) with
  | error error => simp
  | ok read => simp

omit [Lowercase] in
/-- If all entries are read, each of them is. -/
theorem deserialize_of_read {entries : List (Text × Value)} {users : List (Text × UserEntry)}
    (hread : entries.map readUser = users.map .ok) {entry : Text × Value}
    (hentry : entry ∈ entries) : ∃ user : UserEntry, deserialize entry.2 = .ok user := by
  have hmem : readUser entry ∈ users.map .ok := hread ▸ List.mem_map_of_mem hentry
  obtain ⟨⟨name, user⟩, -, heq⟩ := List.mem_map.mp hmem
  exact ⟨user, (readUser_eq_ok.mp heq.symm).2⟩

theorem loadUsers_eq (order : HashOrder) (entries : List (Text × Value)) :
    loadUsers order entries =
      (fun users => UserList.mk (refold order (collect users))) <$> entries.mapM readUser := rfl

omit [Lowercase] in
/-- The first table has what the entries say. -/
theorem lookup_collect_read {entries : List (Text × Value)} {users : List (Text × UserEntry)}
    (hkeys : (entries.map Prod.fst).Nodup) (hread : entries.map readUser = users.map .ok)
    {name : Text} {user : UserEntry} : (collect users).lookup name = some user ↔
      ∃ entry ∈ entries, entry.1 = name ∧ deserialize entry.2 = .ok user := by
  have hmem : ∀ name user, (name, user) ∈ users ↔
      ∃ entry ∈ entries, entry.1 = name ∧ deserialize entry.2 = .ok user := by
    intro name user
    have hboth : Except.ok (name, user) ∈ entries.map readUser ↔
        (.ok (name, user) : Except Serde.Error _) ∈ users.map .ok := by rw [hread]
    simpa only [List.mem_map, readUser_eq_ok, Except.ok.injEq, exists_eq_right] using hboth.symm
  rw [lookup_collect_of_agree, hmem]
  rintro ⟨name, user⟩ huser ⟨other, otherUser⟩ hother hsame
  obtain ⟨entry, hentry, hname, hdeserialize⟩ := (hmem name user).mp huser
  obtain ⟨entry', hentry', hname', hdeserialize'⟩ := (hmem other otherUser).mp hother
  have hentries : entry = entry' :=
    List.inj_on_of_nodup_map hkeys hentry hentry' (hname.trans (hsame.trans hname'.symm))
  rw [hentries, hdeserialize'] at hdeserialize
  exact (Except.ok.inj hdeserialize).symm

/-- Users of the first table agree if the entries for them do. -/
theorem agree_collect_iff {entries : List (Text × Value)} {users : List (Text × UserEntry)}
    (hkeys : (entries.map Prod.fst).Nodup) (hread : entries.map readUser = users.map .ok) :
    Agree (collect users) ↔
      ∀ entry ∈ entries, ∀ other ∈ entries, toLowercase entry.1 = toLowercase other.1 →
        (deserialize entry.2 : Except Serde.Error UserEntry) = deserialize other.2 := by
  constructor
  · intro hagree entry hentry other hother hsame
    obtain ⟨user, huser⟩ := deserialize_of_read hread hentry
    obtain ⟨otherUser, hotherUser⟩ := deserialize_of_read hread hother
    rw [huser, hotherUser, hagree entry.1 other.1 user otherUser
      ((lookup_collect_read hkeys hread).mpr ⟨entry, hentry, rfl, huser⟩)
      ((lookup_collect_read hkeys hread).mpr ⟨other, hother, rfl, hotherUser⟩) hsame]
  · intro hsame name other user otherUser huser hother hlower
    obtain ⟨entry, hentry, rfl, hdeserialize⟩ := (lookup_collect_read hkeys hread).mp huser
    obtain ⟨entry', hentry', rfl, hdeserialize'⟩ := (lookup_collect_read hkeys hread).mp hother
    have heq := hsame entry hentry entry' hentry' hlower
    rw [hdeserialize, hdeserialize'] at heq
    exact Except.ok.inj heq

theorem loadUsers_eq_iff_agree {entries : List (Text × Value)} {users : List (Text × UserEntry)}
    (husers : entries.mapM readUser = .ok users) :
    (∀ first second : HashOrder, loadUsers first entries = loadUsers second entries) ↔
      Agree (collect users) := by
  simp only [loadUsers_eq, husers, Functor.map, Except.map, Except.ok.injEq, UserList.mk.injEq]
  exact refold_eq_iff

/-- Loading does not depend on the order exactly if it fails anyway, or if entries
whose names are the same in lower case are the same users. -/
theorem loadUsers_eq_iff {entries : List (Text × Value)} (hkeys : (entries.map Prod.fst).Nodup) :
    (∀ first second : HashOrder, loadUsers first entries = loadUsers second entries) ↔
      (∃ entry ∈ entries, ∃ error,
        (deserialize entry.2 : Except Serde.Error UserEntry) = .error error) ∨
      ∀ entry ∈ entries, ∀ other ∈ entries, toLowercase entry.1 = toLowercase other.1 →
        (deserialize entry.2 : Except Serde.Error UserEntry) = deserialize other.2 := by
  rcases Serde.mapM_cases readUser entries with
      ⟨users, husers, hread⟩ | ⟨error, herror, entry, hentry, hfails⟩
  · have hnone : ¬ ∃ entry ∈ entries, ∃ error,
        (deserialize entry.2 : Except Serde.Error UserEntry) = .error error := by
      rintro ⟨entry, hentry, error, herror⟩
      obtain ⟨user, huser⟩ := deserialize_of_read hread hentry
      rw [huser] at herror
      cases herror
    rw [loadUsers_eq_iff_agree husers, agree_collect_iff hkeys hread, or_iff_right hnone]
  · have hload : ∀ order, loadUsers order entries = .error error := by
      intro order
      rw [loadUsers_eq, herror]
      rfl
    refine iff_of_true (fun first second => by rw [hload, hload]) (.inl ⟨entry, hentry, error, ?_⟩)
    exact readUser_eq_error.mp hfails

end Loading

section Sample

attribute [local instance] Sample.instLowercase

/-- Every text is taken for a hash. -/
local instance : PasswordHashString where
  new := .ok

def withPassword (hash : String) : Value :=
  .mapping [("password".toList, .string hash.toList)]

/-- One user is listed twice, in different spellings and with different passwords. -/
def clashingEntries : List (Text × Value) :=
  [("Alice".toList, withPassword "old"), ("alice".toList, withPassword "new")]

def distinctEntries : List (Text × Value) :=
  [("Alice".toList, withPassword "old"), ("bob".toList, withPassword "new")]

theorem loadUsers_eq_iff_distinct : (distinctEntries.map Prod.fst).Nodup ∧
    ∀ first second : HashOrder,
      loadUsers first distinctEntries = loadUsers second distinctEntries := by
  have hkeys : (distinctEntries.map Prod.fst).Nodup := by decide
  refine ⟨hkeys, (loadUsers_eq_iff hkeys).mpr (.inr fun entry hentry other hother hsame => ?_)⟩
  have hnames : (distinctEntries.map fun entry => toLowercase entry.1).Nodup := by decide
  rw [List.inj_on_of_nodup_map hnames hentry hother hsame]

/-- What the entries say of the two spellings. -/
def clashingUsers : List (Text × UserEntry) :=
  [("Alice".toList, ⟨"old".toList, ∅⟩), ("alice".toList, ⟨"new".toList, ∅⟩)]

/-- Which password the user has depends on the spelling that is listed last. -/
theorem clashing_depends_on_order : (clashingEntries.map Prod.fst).Nodup ∧
    ¬ ∀ first second : HashOrder,
      loadUsers first clashingEntries = loadUsers second clashingEntries := by
  refine ⟨by decide, fun hequal => ?_⟩
  have hload : ∀ order, loadUsers order clashingEntries =
      .ok ⟨refold order (collect clashingUsers)⟩ := fun order => rfl
  have htables : ∀ first second : HashOrder,
      refold first (collect clashingUsers) = refold second (collect clashingUsers) := by
    intro first second
    have hloads := hequal first second
    rw [hload, hload, Except.ok.injEq, UserList.mk.injEq] at hloads
    exact hloads
  have hsame := refold_eq_iff.mp htables "Alice".toList "alice".toList
    ⟨"old".toList, ∅⟩ ⟨"new".toList, ∅⟩ rfl rfl rfl
  exact absurd (congrArg UserEntry.password hsame) (by decide)

end Sample

end PostGraph.MailProxy
