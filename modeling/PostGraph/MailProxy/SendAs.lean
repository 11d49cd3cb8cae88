import PostGraph.MailProxy.Revocation

/-! # Who may send as whom

What the loop over a user's senders decides, in the spelling of the entries and of
the sender: they are compared ignoring case, and the order of the entries is of no
account.
-/

namespace PostGraph.MailProxy

open Foundation

/-- Characters that have no case, and across which no context reaches that the case of
a letter depends on. -/
def Uncased (c : Char) : Prop := c = '*' ∨ c = '@'

/-- Lower case is taken piece by piece between such characters, which appear nowhere
else in it, and it is never empty for a text that is not. -/
class LawfulLowercase [Lowercase] : Prop where
  toLowercase_append : ∀ {c : Char}, Uncased c → ∀ before after : Text,
    toLowercase (before ++ c :: after) = toLowercase before ++ c :: toLowercase after
  mem_of_mem : ∀ {c : Char}, Uncased c → ∀ text : Text, c ∈ toLowercase text → c ∈ text
  eq_nil_iff : ∀ text : Text, toLowercase text = [] ↔ text = []

namespace UserList

section Senders

variable [Lowercase]

/-- The loop over the entries, with the sender in lower case. It stops at the first
entry that matches. -/
def findEntry (sender : Text) : List Text → Bool
  | [] => false
  | entry :: rest =>
      let entry := toLowercase entry
      if entry = "*@*".toList then true
      else if (entry.dropPrefix? "*@".toList).any fun domain : Text =>
          domain ≠ [] && (rsplitOnce '@' sender).any fun parts => parts.2 = domain then true
      else if entry = sender then true
      else findEntry sender rest

/-- The loop finds an entry that covers the sender if there is one. -/
theorem findEntry_iff (sender : Text) (order : List Text) :
    findEntry sender order = true ↔ ∃ entry ∈ order, covers (toLowercase entry) sender = true := by
  induction order with
  | nil => simp [findEntry]
  | cons entry rest ih =>
      have hcovers : findEntry sender (entry :: rest) =
          (covers (toLowercase entry) sender || findEntry sender rest) := by
        rw [findEntry, covers]
        dsimp only
        rw [Bool.if_true_left, Bool.if_true_left, Bool.if_true_left, Bool.decide_eq_true,
          ← Bool.or_assoc, ← Bool.or_assoc]
        cases (toLowercase entry).dropPrefix? "*@".toList <;> rfl
      rw [hcovers, Bool.or_eq_true, ih, List.exists_mem_cons_iff]

/-! ## Patterns in their own spelling -/

variable [LawfulLowercase]

theorem toLowercase_nil : toLowercase [] = [] := (LawfulLowercase.eq_nil_iff []).mpr rfl

theorem mem_toLowercase_iff {c : Char} (hc : Uncased c) {text : Text} :
    c ∈ toLowercase text ↔ c ∈ text := by
  constructor
  · exact LawfulLowercase.mem_of_mem hc text
  · intro hmem
    obtain ⟨before, after, rfl⟩ := List.append_of_mem hmem
    rw [LawfulLowercase.toLowercase_append hc]
    exact List.mem_append_right _ List.mem_cons_self

theorem toLowercase_star : toLowercase ['*'] = ['*'] := by
  have hsplit := LawfulLowercase.toLowercase_append (.inl rfl : Uncased '*') [] []
  rwa [toLowercase_nil] at hsplit

/-- A text whose lower case is the star is the star. -/
theorem toLowercase_eq_star {text : Text} : toLowercase text = ['*'] ↔ text = ['*'] := by
  constructor
  · intro h
    have hmem : '*' ∈ text := (mem_toLowercase_iff (.inl rfl)).mp (h ▸ List.mem_singleton_self _)
    obtain ⟨before, after, rfl⟩ := List.append_of_mem hmem
    rw [LawfulLowercase.toLowercase_append (.inl rfl)] at h
    obtain ⟨hbefore, hafter⟩ : toLowercase before = [] ∧ toLowercase after = [] := by
      cases hfirst : toLowercase before with
      | nil =>
          rw [hfirst] at h
          exact ⟨rfl, (List.cons.inj h).2⟩
      | cons first rest =>
          rw [hfirst] at h
          simp at h
    rw [LawfulLowercase.eq_nil_iff] at hbefore hafter
    rw [hbefore, hafter]
    rfl
  · rintro rfl
    exact toLowercase_star

theorem toLowercase_domain (domain : Text) :
    toLowercase ("*@".toList ++ domain) = "*@".toList ++ toLowercase domain := by
  have hsplit := LawfulLowercase.toLowercase_append (.inr rfl : Uncased '@') ['*'] domain
  rwa [toLowercase_star] at hsplit

/-- The entry is a pattern in lower case exactly if it is one as it is spelled. -/
theorem toLowercase_eq_domain {entry lowered : Text} :
    toLowercase entry = "*@".toList ++ lowered ↔
      ∃ domain, entry = "*@".toList ++ domain ∧ toLowercase domain = lowered := by
  constructor
  · intro h
    have hmem : '@' ∈ entry :=
      (mem_toLowercase_iff (.inr rfl)).mp (h ▸ List.mem_cons_of_mem _ List.mem_cons_self)
    obtain ⟨before, domain, rfl, hbefore⟩ := List.eq_append_cons_of_mem hmem
    rw [LawfulLowercase.toLowercase_append (.inr rfl)] at h
    have hfree : '@' ∉ toLowercase before := (mem_toLowercase_iff (.inr rfl)).not.mpr hbefore
    -- both sides are split at their first at sign
    obtain ⟨hstar, hdomain⟩ := append_cons_inj hfree (by decide : '@' ∉ ['*']) h
    exact ⟨domain, by rw [toLowercase_eq_star.mp hstar]; rfl, hdomain⟩
  · rintro ⟨domain, rfl, rfl⟩
    exact toLowercase_domain domain

theorem toLowercase_eq_any {entry : Text} :
    toLowercase entry = "*@*".toList ↔ entry = "*@*".toList := by
  rw [show "*@*".toList = "*@".toList ++ ['*'] from rfl, toLowercase_eq_domain]
  constructor
  · rintro ⟨domain, rfl, hdomain⟩
    rw [toLowercase_eq_star.mp hdomain]
  · rintro rfl
    exact ⟨['*'], rfl, toLowercase_star⟩

/-- The domain of an address in lower case is the domain of the address. -/
theorem isDomainOf_toLowercase {lowered sender : Text} :
    IsDomainOf lowered (toLowercase sender) ↔
      ∃ domain, IsDomainOf domain sender ∧ toLowercase domain = lowered := by
  constructor
  · intro h
    cases hsplit : rsplitOnce '@' sender with
    | none =>
        obtain ⟨front, hfront, -⟩ := h
        have hmem : '@' ∈ sender := (mem_toLowercase_iff (.inr rfl)).mp
          (hfront ▸ List.mem_append_right _ List.mem_cons_self)
        exact absurd hmem (rsplitOnce_eq_none_iff.mp hsplit)
    | some parts =>
        obtain ⟨rfl, hdomain⟩ := rsplitOnce_eq_some hsplit
        refine ⟨parts.2, ⟨parts.1, rfl, hdomain⟩, IsDomainOf.unique ?_ h⟩
        exact ⟨toLowercase parts.1, LawfulLowercase.toLowercase_append (.inr rfl) _ _,
          (mem_toLowercase_iff (.inr rfl)).not.mpr hdomain⟩
  · rintro ⟨domain, ⟨before, rfl, hdomain⟩, rfl⟩
    exact ⟨toLowercase before, LawfulLowercase.toLowercase_append (.inr rfl) _ _,
      (mem_toLowercase_iff (.inr rfl)).not.mpr hdomain⟩

/-- What the entries permit, each in its own spelling: all senders, the sender itself,
or the senders of its domain. -/
def Permits (entries : Finset Text) (sender : Text) : Prop :=
  "*@*".toList ∈ entries ∨ (∃ entry ∈ entries, SameLowercase entry sender) ∨
    ∃ domain, "*@".toList ++ domain ∈ entries ∧ domain ≠ [] ∧
      ∃ senderDomain, IsDomainOf senderDomain sender ∧ SameLowercase senderDomain domain

theorem permits_iff_covers {entries : Finset Text} {sender : Text} : Permits entries sender ↔
    ∃ entry ∈ entries, covers (toLowercase entry) (toLowercase sender) = true := by
  simp only [covers_iff, toLowercase_eq_any, toLowercase_eq_domain, isDomainOf_toLowercase]
  constructor
  · rintro (hall | ⟨entry, hentry, hsame⟩ | ⟨domain, hentry, hne, sent, hsent, hsame⟩)
    · exact ⟨_, hall, .inl rfl⟩
    · exact ⟨entry, hentry, .inr (.inr hsame)⟩
    · exact ⟨_, hentry, .inr (.inl ⟨toLowercase domain, ⟨domain, rfl, rfl⟩,
        (LawfulLowercase.eq_nil_iff domain).not.mpr hne, sent, hsent, hsame⟩)⟩
  · rintro ⟨entry, hentry, rfl | ⟨_, ⟨domain, rfl, rfl⟩, hne, sent, hsent, hsame⟩ | hsame⟩
    · exact .inl hentry
    · exact .inr (.inr ⟨domain, hentry, (LawfulLowercase.eq_nil_iff domain).not.mp hne, sent,
        hsent, hsame⟩)
    · exact .inr (.inl ⟨entry, hentry, hsame⟩)

/-- A sender is accepted exactly if the entries permit it, in whatever order the loop
meets them. -/
theorem verifyUserCanSendAs_iff_permits (list : UserList) (username sender : Text) :
    (list.verifyUserCanSendAs username sender = .ok () ↔
      Permits (list.entries username) sender) ∧
    ∀ order : List Text, (∀ entry, entry ∈ order ↔ entry ∈ list.entries username) →
      (findEntry (toLowercase sender) order = true ↔ Permits (list.entries username) sender) := by
  rw [permits_iff_covers]
  refine ⟨verifyUserCanSendAs_ok_iff, fun order horder => ?_⟩
  simp only [findEntry_iff, horder]

end Senders

section Sample

open Sample

theorem toLower_uncased {c letter : Char} (hc : Uncased c) (h : letter.toLower = c) :
    letter = c := by
  by_cases hupper : letter.val ≥ 'A'.val ∧ letter.val ≤ 'Z'.val
  · have hval : letter.toLower.val = letter.val + 32 := congrArg Char.val (dif_pos hupper)
    rw [h] at hval
    simp only [ge_iff_le, UInt32.le_iff_toNat_le, Char.reduceVal, UInt32.reduceToNat] at hupper
    have hnat := congrArg UInt32.toNat hval
    rcases hc with rfl | rfl
    · simp only [UInt32.toNat_add, Char.reduceVal, UInt32.reduceToNat] at hnat
      omega
    · simp only [UInt32.toNat_add, Char.reduceVal, UInt32.reduceToNat] at hnat
      omega
  · have hsame : letter.toLower = letter := dif_neg hupper
    exact hsame.symm.trans h

/-- ASCII lower case, character by character. -/
theorem lawful_toLower : LawfulLowercase where
  toLowercase_append := by
    rintro c hc before after
    have hself : c.toLower = c := by obtain rfl | rfl := hc <;> decide
    change (before ++ c :: after).map Char.toLower = _
    rw [List.map_append, List.map_cons, hself]
    rfl
  mem_of_mem := by
    intro c hc text hmem
    obtain ⟨letter, hletter, hlower⟩ := List.mem_map.mp hmem
    exact toLower_uncased hc hlower ▸ hletter
  eq_nil_iff text := List.map_eq_nil_iff

attribute [local instance] lawful_toLower

/-- A user who may send for a domain. -/
def domainUsers : UserList :=
  ⟨Finmap.singleton "bob".toList ⟨hash, {"*@Example.com".toList}⟩⟩

theorem verifyUserCanSendAs_iff_permits_domain :
    domainUsers.verifyUserCanSendAs "Bob".toList "a@b@EXAMPLE.com".toList = .ok () :=
  (verifyUserCanSendAs_iff_permits domainUsers "Bob".toList "a@b@EXAMPLE.com".toList).1.mpr
    (.inr (.inr ⟨"Example.com".toList, by decide +kernel, by decide, "EXAMPLE.com".toList,
      ⟨"a@b".toList, rfl, by decide⟩, by decide +kernel⟩))

end Sample

end UserList

end PostGraph.MailProxy
