import PostGraph.MailProxy.RuleFormat

/-! # The grammar of filter rules

The texts that are read as a rule are its action in any case of the letters, a
colon, and a text of its subnet. The first colon ends the action, so that a subnet
may begin with one.
-/

namespace PostGraph.MailProxy

open Foundation

/-- Upper case is taken of one character after the other. A character outside ASCII
turns into a text with another one outside ASCII or, as the ligatures do, into one with
an F, an I or an S. -/
class LawfulUppercase [Uppercase] : Prop where
  toUppercase_append : ∀ before after : Text,
    toUppercase (before ++ after) = toUppercase before ++ toUppercase after
  toUppercase_foreign : ∀ c : Char, 0x80 ≤ c.toNat →
    ∃ upper ∈ toUppercase [c], 0x80 ≤ upper.toNat ∨ upper ∈ ['F', 'I', 'S']

/-- The characters of the word are ASCII letters, none of which is an F, an I or an S. -/
theorem PeerAction.letters_word (action : PeerAction) :
    ∀ c ∈ action.word, c.toNat < 0x80 ∧ c ∉ ['F', 'I', 'S'] := by
  cases action <;> exact forall_mem_of_all (by decide)

/-- A character outside ASCII is its own upper case within ASCII. -/
theorem toUpper_eq_self {c : Char} (hc : 0x80 ≤ c.toNat) : c.toUpper = c := by
  apply dif_neg
  rintro ⟨-, hle⟩
  have hlower : c.toNat ≤ 'z'.toNat := UInt32.le_iff_toNat_le.mp hle
  exact absurd (hc.trans hlower) (by decide)

theorem PeerAction.ascii_of_map_toUpper {action : PeerAction} {text : Text}
    (hword : text.map Char.toUpper = action.word) : ∀ c ∈ text, c.toNat < 0x80 := by
  intro c hc
  by_contra hforeign
  have hmem : c.toUpper ∈ text.map Char.toUpper := List.mem_map_of_mem hc
  rw [hword, toUpper_eq_self (Nat.le_of_not_lt hforeign)] at hmem
  exact hforeign (action.letters_word c hmem).1

/-- A colon is no letter. -/
theorem PeerAction.colon_notMem {action : PeerAction} {text : Text}
    (hword : text.map Char.toUpper = action.word) : ':' ∉ text := by
  intro hcolon
  have hmem : ':' ∈ text.map Char.toUpper := List.mem_map.mpr ⟨':', hcolon, by decide⟩
  rw [hword] at hmem
  exact action.colon_notMem_word hmem

section Words

variable [Uppercase] [LawfulUppercase]

/-- What a character turns into is in what the text turns into. -/
theorem toUppercase_subset {c : Char} {text : Text} (hc : c ∈ text) :
    toUppercase [c] ⊆ toUppercase text := by
  obtain ⟨before, after, rfl⟩ := List.append_of_mem hc
  rw [List.append_cons, LawfulUppercase.toUppercase_append, LawfulUppercase.toUppercase_append]
  intro upper hupper
  exact List.mem_append_left _ (List.mem_append_right _ hupper)

theorem PeerAction.ascii_of_toUppercase {action : PeerAction} {text : Text}
    (hword : toUppercase text = action.word) : ∀ c ∈ text, c.toNat < 0x80 := by
  intro c hc
  by_contra hforeign
  obtain ⟨upper, hupper, hodd⟩ :=
    LawfulUppercase.toUppercase_foreign c (Nat.le_of_not_lt hforeign)
  have hmem := toUppercase_subset hc hupper
  rw [hword] at hmem
  obtain ⟨hascii, hletter⟩ := action.letters_word upper hmem
  rcases hodd with hodd | hodd
  · exact absurd hascii (Nat.not_lt.mpr hodd)
  · exact hletter hodd

/-- The words of the actions have no letters but those of ASCII in any case. -/
theorem PeerAction.toUppercase_eq_word_iff {action : PeerAction} {text : Text} :
    toUppercase text = action.word ↔ text.map Char.toUpper = action.word := by
  constructor
  · intro hword
    rw [← Uppercase.toUppercase_ascii text (ascii_of_toUppercase hword), hword]
  · intro hword
    rw [Uppercase.toUppercase_ascii text (ascii_of_map_toUpper hword), hword]

theorem PeerAction.ofWord_eq_ok_iff {action : PeerAction} {text : Text} :
    ofWord text = .ok action ↔ text.map Char.toUpper = action.word := by
  rw [← toUppercase_eq_word_iff, ofWord]
  constructor
  · intro hread
    split at hread
    next hallow =>
      cases hread
      exact hallow
    next =>
      split at hread
      next hdeny =>
        cases hread
        exact hdeny
      next => cases hread
  · intro hword
    rw [hword]
    cases action with
    | allow => exact if_pos rfl
    | deny => exact (if_neg (by decide)).trans (if_pos rfl)

end Words

section Grammar

variable [IpNetText]

/-- The word of the action in any case of its letters, a colon, and a text of the
subnet. -/
inductive FilterRule.Written (rule : FilterRule) : Text → Prop where
  | mk {action target : Text} (haction : action.map Char.toUpper = rule.action.word)
      (htarget : IpNetText.fromStr target = .ok rule.target) :
      Written rule (action ++ ':' :: target)

variable [Uppercase] [LawfulUppercase]

theorem FilterRule.fromString_eq_ok_iff {text : Text} {rule : FilterRule} :
    fromString text = .ok rule ↔ rule.Written text := by
  constructor
  · intro hread
    rw [fromString] at hread
    split at hread
    next => cases hread
    next action target hsplit =>
      obtain ⟨rfl, -⟩ := splitOnce_eq_some_iff.mp hsplit
      cases haction : PeerAction.ofWord action with
      | error message =>
          rw [haction] at hread
          cases hread
      | ok read =>
          cases htarget : IpNetText.fromStr target with
          | error message =>
              rw [haction, htarget] at hread
              cases hread
          | ok net =>
              rw [haction, htarget] at hread
              cases hread
              exact .mk (PeerAction.ofWord_eq_ok_iff.mp haction) htarget
  · rintro ⟨haction, htarget⟩
    rw [fromString, splitOnce_append _ (PeerAction.colon_notMem haction)]
    simp only [PeerAction.ofWord_eq_ok_iff.mpr haction, htarget]
    rfl

/-- A text is read as a rule exactly if it is the action's word in any case of its
letters, a colon, and a text of the subnet; and every rule, however it was read, is
read back from the text that is made of it. -/
theorem filter_rule_grammar
    (hnets : ∀ net, IpNetText.fromStr (IpNetText.toString net) = .ok net) :
    (∀ (text : Text) (rule : FilterRule),
      FilterRule.fromString text = .ok rule ↔ rule.Written text) ∧
    (∀ rule : FilterRule, FilterRule.fromString rule.toString = .ok rule) ∧
    ∀ (text : Text) (rule : FilterRule), FilterRule.fromString text = .ok rule →
      FilterRule.fromString rule.toString = .ok rule := by
  have hback : ∀ rule : FilterRule, FilterRule.fromString rule.toString = .ok rule :=
    fun rule => FilterRule.fromString_toString (hnets rule.target)
  exact ⟨fun _ _ => FilterRule.fromString_eq_ok_iff, hback, fun _ rule _ => hback rule⟩

end Grammar

namespace Sample

scoped instance : Uppercase where
  toUppercase := List.map Char.toUpper
  toUppercase_ascii _ _ := rfl

theorem toUppercase_foreign (c : Char) (hc : 0x80 ≤ c.toNat) :
    ∃ upper ∈ toUppercase [c], 0x80 ≤ upper.toNat ∨ upper ∈ ['F', 'I', 'S'] :=
  ⟨c.toUpper, List.mem_singleton_self _, .inl ((toUpper_eq_self hc).symm ▸ hc)⟩

scoped instance : LawfulUppercase := ⟨fun _ _ => List.map_append, toUppercase_foreign⟩

/-- The length of a prefix of at most so many bits. -/
def lengthOf (bits : Nat) (packed : Nat) : Fin (bits + 1) :=
  ⟨packed % (bits + 1), Nat.mod_lt packed bits.succ_pos⟩

/-- The two subnets of all addresses are written as usual, and any other one in a
notation of its own. -/
scoped instance : IpNetText where
  toString net :=
    if net = .v4 0 (lengthOf 32 0) then "0.0.0.0/0".toList
    else if net = .v6 0 (lengthOf 128 0) then "::/0".toList
    else match net with
      | .v4 address length => '4' :: List.replicate (address.toNat * 33 + length.val) 'x'
      | .v6 address length => '6' :: List.replicate (address.toNat * 129 + length.val) 'x'
  fromStr
    | '4' :: rest => .ok (.v4 (.ofNat 32 (rest.length / 33)) (lengthOf 32 rest.length))
    | '6' :: rest => .ok (.v6 (.ofNat 128 (rest.length / 129)) (lengthOf 128 rest.length))
    | text =>
        if text = "0.0.0.0/0".toList then .ok (.v4 0 (lengthOf 32 0))
        else if text = "::/0".toList then .ok (.v6 0 (lengthOf 128 0))
        else .error "invalid IP address syntax".toList

/-- Quotient and remainder of a number that packs an address and a length. -/
theorem unpack {bits : Nat} (address : BitVec bits) (length : Fin (bits + 1)) :
    BitVec.ofNat bits ((address.toNat * (bits + 1) + length.val) / (bits + 1)) = address ∧
      lengthOf bits (address.toNat * (bits + 1) + length.val) = length := by
  have hlength := length.isLt
  have hquotient : (address.toNat * (bits + 1) + length.val) / (bits + 1) = address.toNat := by
    rw [Nat.mul_comm, Nat.mul_add_div bits.succ_pos, Nat.div_eq_of_lt hlength, Nat.add_zero]
  constructor
  · rw [hquotient, BitVec.ofNat_toNat, BitVec.setWidth_eq]
  · apply Fin.ext
    change (address.toNat * (bits + 1) + length.val) % (bits + 1) = length.val
    rw [Nat.mul_comm, Nat.mul_add_mod, Nat.mod_eq_of_lt hlength]

theorem fromStr_toString (net : IpNet) :
    IpNetText.fromStr (IpNetText.toString net) = .ok net := by
  by_cases hv4 : net = .v4 0 (lengthOf 32 0)
  · subst hv4
    rfl
  by_cases hv6 : net = .v6 0 (lengthOf 128 0)
  · subst hv6
    rfl
  change IpNetText.fromStr (if net = .v4 0 (lengthOf 32 0) then _
    else if net = .v6 0 (lengthOf 128 0) then _ else _) = _
  rw [if_neg hv4, if_neg hv6]
  cases net with
  | v4 address length =>
      obtain ⟨haddress, hlength⟩ := unpack address length
      change Except.ok (IpNet.v4 (.ofNat 32 ((List.replicate _ 'x').length / 33))
        (lengthOf 32 (List.replicate _ 'x').length)) = _
      rw [List.length_replicate]
      exact congrArg Except.ok (congrArg₂ IpNet.v4 haddress hlength)
  | v6 address length =>
      obtain ⟨haddress, hlength⟩ := unpack address length
      change Except.ok (IpNet.v6 (.ofNat 128 ((List.replicate _ 'x').length / 129))
        (lengthOf 128 (List.replicate _ 'x').length)) = _
      rw [List.length_replicate]
      exact congrArg Except.ok (congrArg₂ IpNet.v6 haddress hlength)

end Sample

open Sample in
/-- The subnet of all IPv6 addresses begins with a colon. -/
theorem filter_rule_grammar_any :
    FilterRule.fromString "deny:::/0".toList = .ok ⟨.deny, .v6 0 0⟩ ∧
      FilterRule.fromString "DENY:::/0".toList = .ok ⟨.deny, .v6 0 0⟩ := by
  obtain ⟨hgrammar, -, hagain⟩ := filter_rule_grammar fromStr_toString
  have hread : FilterRule.fromString "deny:::/0".toList = .ok ⟨.deny, .v6 0 0⟩ :=
    (hgrammar _ _).mpr (@FilterRule.Written.mk _ ⟨.deny, .v6 0 0⟩ "deny".toList "::/0".toList
      rfl rfl)
  exact ⟨hread, hagain _ _ hread⟩

end PostGraph.MailProxy
