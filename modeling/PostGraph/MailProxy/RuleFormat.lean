import PostGraph.Foundation.Serde
import PostGraph.MailProxy.PeerFilter

/-! # The text of filter rules

A rule is written as its action, a colon, and its subnet. The subnet may have
colons itself: the first one ends the action, which is read in any case of its
letters.
-/

namespace PostGraph.MailProxy

open Foundation
open Serde (Serialize Deserialize Survives serialize deserialize)

/-- Unicode upper case, as the standard library computes it. -/
class Uppercase where
  toUppercase : Text → Text
  toUppercase_ascii : ∀ text : Text, (∀ c ∈ text, c.toNat < 0x80) →
    toUppercase text = text.map Char.toUpper

export Uppercase (toUppercase)

/-- The text of subnets, which is up to the library of IP networks. -/
class IpNetText where
  toString : IpNet → Text
  fromStr : Text → Except Text IpNet

/-- The parts before and behind the first occurrence of a character. -/
def splitOnce (c : Char) : Text → Option (Text × Text)
  | [] => none
  | first :: rest =>
      if first = c then some ([], rest)
      else (splitOnce c rest).map fun parts => (first :: parts.1, parts.2)

theorem splitOnce_append {c : Char} {before : Text} (after : Text) (h : c ∉ before) :
    splitOnce c (before ++ c :: after) = some (before, after) := by
  induction before with
  | nil =>
      rw [List.nil_append, splitOnce]
      exact if_pos rfl
  | cons first rest ih =>
      rw [List.mem_cons, not_or] at h
      obtain ⟨hfirst, hrest⟩ := h
      rw [List.cons_append, splitOnce, if_neg (Ne.symm hfirst), ih hrest]
      rfl

/-- The parts are the texts around the first occurrence. -/
theorem splitOnce_eq_some_iff {c : Char} {text before after : Text} :
    splitOnce c text = some (before, after) ↔ text = before ++ c :: after ∧ c ∉ before := by
  constructor
  · intro hsplit
    induction text generalizing before with
    | nil => cases hsplit
    | cons first rest ih =>
        rw [splitOnce] at hsplit
        split at hsplit
        next hfirst =>
          cases hsplit
          exact ⟨by rw [hfirst, List.nil_append], List.not_mem_nil⟩
        next hfirst =>
          obtain ⟨⟨behind, _⟩, hrest, hparts⟩ := Option.map_eq_some_iff.mp hsplit
          cases hparts
          obtain ⟨rfl, hbehind⟩ := ih hrest
          exact ⟨rfl, List.not_mem_cons_of_ne_of_not_mem (Ne.symm hfirst) hbehind⟩
  · rintro ⟨rfl, hbefore⟩
    exact splitOnce_append after hbefore

def PeerAction.word : PeerAction → Text
  | allow => "ALLOW".toList
  | deny => "DENY".toList

theorem PeerAction.colon_notMem_word (action : PeerAction) : ':' ∉ action.word := by
  cases action <;> decide

section Texts

variable [IpNetText]

def FilterRule.toString (rule : FilterRule) : Text :=
  rule.action.word ++ ':' :: IpNetText.toString rule.target

variable [Uppercase]

def PeerAction.ofWord (text : Text) : Except Text PeerAction :=
  if toUppercase text = "ALLOW".toList then .ok allow
  else if toUppercase text = "DENY".toList then .ok deny
  else .error ("invalid filter action '".toList ++ text ++ "'".toList)

def FilterRule.fromString (text : Text) : Except Text FilterRule :=
  match splitOnce ':' text with
  | none => .error "invalid filter rule syntax".toList
  | some (action, target) => do
      let action ← PeerAction.ofWord action
      let target ← IpNetText.fromStr target
      return ⟨action, target⟩

omit [IpNetText] in
theorem PeerAction.ofWord_word (action : PeerAction) : ofWord action.word = .ok action := by
  have hword : toUppercase action.word = action.word := by
    rw [Uppercase.toUppercase_ascii]
    · cases action <;> rfl
    · cases action <;> exact forall_mem_of_all (by decide)
  rw [ofWord, hword]
  cases action <;> decide

/-- A subnet that is read back makes a rule that is read back. -/
theorem FilterRule.fromString_toString {rule : FilterRule}
    (htarget : IpNetText.fromStr (IpNetText.toString rule.target) = .ok rule.target) :
    fromString rule.toString = .ok rule := by
  rw [fromString, toString, splitOnce_append _ rule.action.colon_notMem_word]
  simp only [PeerAction.ofWord_word, htarget]
  rfl

instance : Serialize FilterRule := ⟨fun rule => .string rule.toString⟩

instance : Deserialize FilterRule where
  deserialize value := do
    let rule : Text ← deserialize value
    (FilterRule.fromString rule).mapError Serde.Error.custom

instance : Serialize PeerFilter := ⟨fun filter => serialize filter.rules⟩

instance : Deserialize PeerFilter := ⟨fun value => PeerFilter.mk <$> deserialize value⟩

/-- Rules come back in their order. -/
theorem PeerFilter.survives (hnets : ∀ net, IpNetText.fromStr (IpNetText.toString net) = .ok net)
    (filter : PeerFilter) : Survives filter := by
  have hrules : Survives filter.rules := by
    apply Serde.survives_list
    intro rule _
    refine ⟨.string rule.toString, nofun, ?_⟩
    have hrule := FilterRule.fromString_toString (hnets rule.target)
    change (FilterRule.fromString rule.toString).mapError Serde.Error.custom = .ok rule
    rw [hrule]
    rfl
  exact ⟨hrules.writable, hrules.ne_null,
    congrArg (PeerFilter.mk <$> ·) hrules.deserialize_serialize⟩

end Texts

end PostGraph.MailProxy
