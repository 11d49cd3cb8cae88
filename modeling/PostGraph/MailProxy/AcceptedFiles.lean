import PostGraph.MailProxy.ConfigFormat

/-! # Accepted files

A file may list its users in any letter case, and its fields in any order. What is read
of it can be written, and is read back as it is: one reading brings a file into the
form that later ones keep.
-/

namespace PostGraph.MailProxy

open Foundation
open Serde (Value Deserialize Record)

/-- A table holds nothing but its entries. -/
theorem mem_of_lookup_collect {entries : List (Text × UserEntry)} {name : Text} {user : UserEntry}
    (h : (collect entries).lookup name = some user) : (name, user) ∈ entries := by
  induction entries using List.reverseRecOn with
  | nil => cases h
  | append_singleton entries last ih =>
      rw [collect_concat] at h
      by_cases hname : name = last.1
      · subst hname
        rw [Finmap.lookup_insert] at h
        cases h
        exact List.mem_append_right _ (List.mem_singleton_self _)
      · rw [Finmap.lookup_insert_of_ne _ hname] at h
        exact List.mem_append_left _ (ih h)

/-! ## Users -/

variable [HashOrder] [PasswordHashString] [Lowercase]

section Accepted

variable (hreads : ∀ text hash, PasswordHashString.new text = .ok hash →
  PasswordHashString.new hash = .ok hash)

include hreads

omit [HashOrder] [Lowercase] in
/-- A user whose hash was read can be read again. -/
theorem UserEntry.readable_of_read {value : Value} {user : UserEntry}
    (h : Serde.deserialize value = .ok user) : user.Readable := by
  obtain ⟨entries, -, hvisit⟩ := Serde.except_bind_eq_ok h
  obtain ⟨password, -, hpassword⟩ := Serde.except_bind_eq_ok hvisit
  obtain ⟨hash, hhash, hsenders⟩ := Serde.except_bind_eq_ok hpassword
  obtain ⟨senders, -, huser⟩ := Serde.except_bind_eq_ok hsenders
  cases huser
  cases hnew : PasswordHashString.new password with
  | error error =>
      rw [hnew] at hhash
      cases hhash
  | ok read =>
      rw [hnew] at hhash
      cases hhash
      exact hreads password hash hnew

theorem UserList.readable_of_read
    (hlower : ∀ text, toLowercase (toLowercase text) = toLowercase text) {value : Value}
    {list : UserList} (h : Serde.deserialize value = .ok list) : list.Readable := by
  cases value with
  | mapping entries =>
      obtain ⟨users, husers, hlist⟩ := Serde.except_bind_eq_ok h
      cases hlist
      have hmem : ∀ {name user}, (collect ((listing .loaded (collect users)).map fun entry =>
          (toLowercase entry.1, entry.2))).lookup name = some user →
          ∃ entry ∈ users, toLowercase entry.1 = name ∧ entry.2 = user := by
        intro name user huser
        obtain ⟨entry, hentry, heq⟩ := List.mem_map.mp (mem_of_lookup_collect huser)
        cases heq
        exact ⟨entry, mem_of_lookup_collect (mem_listing.mp hentry), rfl, rfl⟩
      constructor
      · intro name hname
        obtain ⟨user, huser⟩ := Finmap.mem_iff.mp hname
        obtain ⟨entry, -, rfl, -⟩ := hmem huser
        exact hlower entry.1
      · intro name user huser
        obtain ⟨entry, hentry, -, rfl⟩ := hmem huser
        rcases Serde.mapM_cases (fun entry : Text × Value =>
            (entry.1, ·) <$> (Serde.deserialize entry.2 : Except Serde.Error UserEntry)) entries
          with ⟨results, hresults, hmap⟩ | ⟨error, herror, -⟩
        · cases hresults.symm.trans husers
          have hread : Except.ok entry ∈ users.map (Except.ok (ε := Serde.Error)) :=
            List.mem_map_of_mem hentry
          rw [← hmap] at hread
          obtain ⟨item, -, hitem⟩ := List.mem_map.mp hread
          cases hvalue : (Serde.deserialize item.2 : Except Serde.Error UserEntry) with
          | error error =>
              rw [hvalue] at hitem
              cases hitem
          | ok read =>
              rw [hvalue] at hitem
              cases hitem
              exact UserEntry.readable_of_read hreads hvalue
        · cases herror.symm.trans husers
  | _ => cases h

/-! ## Configurations -/

omit [HashOrder] [PasswordHashString] [Lowercase] hreads in
/-- A ban duration that was read has whole seconds, and not too many. -/
theorem Fail2BanConfig.banDuration_of_read {value : Value} {fail2ban : Fail2BanConfig}
    (h : Serde.deserialize value = .ok fail2ban) :
    ∀ duration ∈ fail2ban.banDuration,
      WholeSeconds duration ∧ duration.asSecs < UInt64.size := by
  obtain ⟨entries, hvisit⟩ := Serde.record_eq_ok h
  obtain ⟨connections, -, hvisit⟩ := Serde.except_bind_eq_ok hvisit
  obtain ⟨failures, -, hvisit⟩ := Serde.except_bind_eq_ok hvisit
  obtain ⟨found, -, hvisit⟩ := Serde.except_bind_eq_ok hvisit
  intro duration hduration
  cases found with
  | none =>
      cases hvisit
      cases hduration
  | some found =>
      obtain ⟨banDuration, hban, hfail2ban⟩ := Serde.except_bind_eq_ok hvisit
      cases hfail2ban
      obtain ⟨seconds, hseconds, hsome⟩ := Serde.except_bind_eq_ok hban
      cases hsome
      obtain ⟨number, rfl, rfl⟩ := Option.map_eq_some_iff.mp hduration
      refine ⟨Nat.mul_mod_left number 1000000000, ?_⟩
      rw [Duration.asSecs_fromSecs]
      exact Serde.deserialize_nat_lt (Serde.deserialize_eq_some hseconds)

variable [Uppercase] [IpNetText]

/-- What a configuration that was read guarantees. -/
theorem ConfigFile.of_read (hlower : ∀ text, toLowercase (toLowercase text) = toLowercase text)
    {value : Value} {config : ConfigFile} (h : Serde.deserialize value = .ok config) :
    config.Storable ∧ config.wholeSeconds = config := by
  obtain ⟨entries, hvisit⟩ := Serde.record_eq_ok h
  obtain ⟨smtp, hsmtp, hvisit⟩ := Serde.except_bind_eq_ok hvisit
  obtain ⟨graph, -, hconfig⟩ := Serde.except_bind_eq_ok hvisit
  cases hconfig
  obtain ⟨value, hvalue⟩ := Serde.required_eq_ok hsmtp
  obtain ⟨entries, hvisit⟩ := Serde.record_eq_ok hvalue
  obtain ⟨address, -, hvisit⟩ := Serde.except_bind_eq_ok hvisit
  obtain ⟨name, -, hvisit⟩ := Serde.except_bind_eq_ok hvisit
  obtain ⟨maxMessageSize, hsize, hvisit⟩ := Serde.except_bind_eq_ok hvisit
  obtain ⟨allowInsecureAuth, -, hvisit⟩ := Serde.except_bind_eq_ok hvisit
  obtain ⟨tls, -, hvisit⟩ := Serde.except_bind_eq_ok hvisit
  obtain ⟨fail2ban, hfail2ban, hvisit⟩ := Serde.except_bind_eq_ok hvisit
  obtain ⟨users, husers, hvisit⟩ := Serde.except_bind_eq_ok hvisit
  obtain ⟨peerFilter, -, hrecord⟩ := Serde.except_bind_eq_ok hvisit
  cases hrecord
  have hban : ∀ duration ∈ fail2ban.bind Fail2BanConfig.banDuration,
      WholeSeconds duration ∧ duration.asSecs < UInt64.size := by
    intro duration hduration
    obtain ⟨limits, rfl, hlimits⟩ := Option.bind_eq_some_iff.mp hduration
    obtain ⟨limitsValue, hread⟩ := Serde.optional_eq_some hfail2ban
    exact Fail2BanConfig.banDuration_of_read hread duration hlimits
  refine ⟨⟨?_, ?_, fun duration hduration => (hban duration hduration).2⟩, ?_⟩
  · obtain ⟨usersValue, hread⟩ := Serde.required_eq_ok husers
    exact UserList.readable_of_read hreads hlower hread
  · intro size hsome
    cases hsome
    obtain ⟨sizeValue, hread⟩ := Serde.optional_eq_some hsize
    exact Serde.deserialize_nat_lt hread
  · rw [ConfigFile.wholeSeconds_eq_iff]
    exact fun duration hduration => (hban duration hduration).1

variable [Yaml] {F : Type} [FileSystem F]

theorem ConfigFile.of_fromFile
    (hlower : ∀ text, toLowercase (toLowercase text) = toLowercase text) {files : F}
    {path : Text} {config : ConfigFile} (h : fromFile files path = .ok config) :
    config.Storable ∧ config.wholeSeconds = config := by
  obtain ⟨yaml, -, hyaml⟩ := Serde.except_bind_eq_ok h
  obtain ⟨value, -, hvalue⟩ := Serde.except_bind_eq_ok hyaml
  cases hread : (Serde.deserialize value : Except Serde.Error ConfigFile) with
  | error error =>
      rw [hread] at hvalue
      cases hvalue
  | ok read =>
      rw [hread] at hvalue
      cases hvalue
      exact ConfigFile.of_read hreads hlower hread

end Accepted

end PostGraph.MailProxy
