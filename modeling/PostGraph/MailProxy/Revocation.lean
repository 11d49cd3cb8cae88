import PostGraph.MailProxy.LoginState

/-! # Revocation of senders

Entries are stored as they were typed. A sender is compared with them in lower
case, an entry that is removed is not: another spelling of it stays and grants
what it granted before.
-/

namespace PostGraph.MailProxy

open Foundation

namespace UserList

section Spelling

variable [Lowercase]

/-- Two texts that differ in the case of their letters at most. -/
def SameLowercase (text other : Text) : Prop := toLowercase text = toLowercase other

instance (text other : Text) : Decidable (SameLowercase text other) :=
  inferInstanceAs (Decidable (toLowercase text = toLowercase other))

/-- What an entry is there for: an address, the addresses of a domain, or all. -/
def Covers (entry sender : Text) : Prop :=
  SameLowercase entry sender ∨
    (∃ domain, IsDomainOf domain (toLowercase sender) ∧
      toLowercase entry = "*@".toList ++ domain) ∨
    toLowercase entry = "*@*".toList

/-- The addresses a user may send as, in the spelling they were added in. -/
def entries (list : UserList) (username : Text) : Finset Text :=
  ((list.users.lookup (toLowercase username)).map UserEntry.allowSendAs).getD ∅

/-- Whatever the user may send as is covered by an entry other than the sender. -/
def Revoked (list : UserList) (username sender : Text) : Prop :=
  ∀ other, list.verifyUserCanSendAs username other = .ok () →
    ∃ entry ∈ list.entries username, ¬ SameLowercase entry sender ∧ Covers entry other

theorem Covers.of_covers {entry sender : Text}
    (h : covers (toLowercase entry) (toLowercase sender) = true) : Covers entry sender := by
  rcases covers_iff.mp h with hall | ⟨domain, hentry, -, hdomain⟩ | hsame
  · exact .inr (.inr hall)
  · exact .inr (.inl ⟨domain, hdomain, hentry⟩)
  · exact .inl hsame

theorem verifyUserCanSendAs_ok_iff {list : UserList} {username sender : Text} :
    list.verifyUserCanSendAs username sender = .ok () ↔
      ∃ entry ∈ list.entries username,
        covers (toLowercase entry) (toLowercase sender) = true := by
  rw [verifyUserCanSendAs, entries]
  cases list.users.lookup (toLowercase username) with
  | none => simp
  | some user => simp

theorem entries_removeUserSendAs {list after : UserList} {username sender : Text}
    (h : list.removeUserSendAs username sender = (.ok (), after)) :
    after.entries username = (list.entries username).erase sender := by
  rw [removeUserSendAs] at h
  cases huser : list.users.lookup (toLowercase username) with
  | none => rw [huser] at h; cases h
  | some user =>
      rw [huser] at h
      cases h
      simp [entries, insert, huser]

/-- An entry that covers another one also covers whatever that one grants. A
pattern covers itself only in its own spelling, so the two differ in more than
their case. -/
theorem Covers.trans {entry middle sender : Text} (hentry : Covers entry middle)
    (hne : ¬ SameLowercase entry middle)
    (h : covers (toLowercase middle) (toLowercase sender) = true) : Covers entry sender := by
  rcases hentry with hsame | ⟨domain, hdomain, hpattern⟩ | hall
  · exact absurd hsame hne
  · -- the entry is the pattern of the other one's domain, hence not a pattern's variant
    have hother : ∀ tail, '@' ∉ tail → toLowercase middle ≠ "*@".toList ++ tail := by
      intro tail hfree hmiddle
      have htail : IsDomainOf tail (toLowercase middle) := ⟨['*'], hmiddle, hfree⟩
      apply hne
      rw [SameLowercase, hpattern, hmiddle, hdomain.unique htail]
    rcases covers_iff.mp h with hany | ⟨tail, hmiddle, -, htail⟩ | hexact
    · exact absurd hany (hother ['*'] (by decide))
    · obtain ⟨before, -, hfree⟩ := htail
      exact absurd hmiddle (hother tail hfree)
    · exact .inr (.inl ⟨domain, hexact ▸ hdomain, hpattern⟩)
  · exact .inr (.inr hall)

/-- Removing a sender revokes it exactly if no other spelling of it was added, or
if another entry covers it anyway. -/
theorem revocation_works {list after : UserList} {username sender : Text}
    (h : list.removeUserSendAs username sender = (.ok (), after)) :
    after.Revoked username sender ↔
      (∀ entry ∈ list.entries username, SameLowercase entry sender → entry = sender) ∨
        ∃ entry ∈ list.entries username,
          ¬ SameLowercase entry sender ∧ Covers entry sender := by
  have hentries := entries_removeUserSendAs h
  constructor
  · intro hrevoked
    apply or_iff_not_imp_left.mpr
    intro hspelling
    push Not at hspelling
    obtain ⟨variant, hmem, hsame, hne⟩ := hspelling
    -- the other spelling is still there and grants itself
    have hleft : variant ∈ after.entries username := by
      rw [hentries]
      exact Finset.mem_erase.mpr ⟨hne, hmem⟩
    have hverified : after.verifyUserCanSendAs username variant = .ok () :=
      verifyUserCanSendAs_ok_iff.mpr ⟨variant, hleft, covers_iff.mpr (.inr (.inr rfl))⟩
    obtain ⟨entry, hentry, hother, hcovers⟩ := hrevoked variant hverified
    rw [hentries] at hentry
    refine ⟨entry, Finset.mem_of_mem_erase hentry, hother, ?_⟩
    rwa [Covers, SameLowercase, ← hsame]
  · intro hcondition other hverified
    obtain ⟨granting, hgranting, hgrants⟩ := verifyUserCanSendAs_ok_iff.mp hverified
    by_cases hsame : SameLowercase granting sender
    · rw [hentries] at hgranting
      obtain ⟨hne, hmem⟩ := Finset.mem_erase.mp hgranting
      rcases hcondition with hspelling | ⟨entry, hentry, hdiffers, hcovers⟩
      · exact absurd (hspelling granting hmem hsame) hne
      · refine ⟨entry, ?_, hdiffers, hcovers.trans hdiffers ?_⟩
        · rw [hentries]
          refine Finset.mem_erase.mpr ⟨?_, hentry⟩
          rintro rfl
          exact hdiffers rfl
        · rwa [← hsame]
    · exact ⟨granting, hgranting, hsame, .of_covers hgrants⟩

end Spelling

section Sample

open Sample

/-- The only password that is hashed is the one whose hash is known. -/
local instance : PasswordHasher where
  hashPassword password _ := if password = ascii "b" then some hash else none

/-- A user whose name has capital letters. -/
def bob : Text := "Bob@Example.com".toList

def eve : Text := "Eve@Example.org".toList

def addBob : List Change := [.setUserPassword bob "b".toList [1, 2]]

/-- A sender that was added is removed in the same spelling. -/
theorem revocation_works_eve :
    ((default.after (addBob ++ [.addUserSendAs bob eve])).removeUserSendAs bob eve).2.Revoked
      bob eve := by
  have hok : (default.after (addBob ++ [.addUserSendAs bob eve])).removeUserSendAs bob eve =
      (.ok (), _) := rfl
  exact (revocation_works hok).mpr (.inl (by decide +kernel))

/-- The entry that a new user gets is in lower case, so that removing the name as
it was typed succeeds and changes nothing. -/
theorem self_entry_not_revoked : ¬ ∀ (changes : List Change) (username sender : Text)
    (list : UserList),
    (default.after changes).removeUserSendAs username sender = (.ok (), list) →
    list.Revoked username sender := by
  intro h
  have hverified : ((default.after addBob).removeUserSendAs bob bob).2.verifyUserCanSendAs bob
      bob = .ok () := by decide +kernel
  have hentries : ∀ entry ∈ ((default.after addBob).removeUserSendAs bob bob).2.entries bob,
      SameLowercase entry bob := by decide +kernel
  obtain ⟨entry, hentry, hother, -⟩ := h addBob bob bob _ rfl bob hverified
  exact hother (hentries entry hentry)

end Sample

end UserList

end PostGraph.MailProxy
