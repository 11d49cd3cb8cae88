import PostGraph.Foundation.Framing

/-! # Numbered replies

A reply is a group of lines that start with a code of three digits. Each line
but the last has a hyphen behind its code. A stream of groups splits in one way
only, so that a reader never takes one group for two.
-/

namespace Foundation.Reply

open Framing

/-- The hyphen behind the code of a line that is not the last. -/
def hyphen : UInt8 := 0x2D

def ThreeDigits (code : Bytes) : Prop := code.length = 3 ∧ ∀ b ∈ code, 0x30 ≤ b ∧ b ≤ 0x39

/-- The text of one line. -/
def Unbroken (text : Bytes) : Prop := cr ∉ text ∧ lf ∉ text

/-- A line that is not the last one of its group. -/
inductive Continued (code : Bytes) : Bytes → Prop
  | text {text : Bytes} (htext : Unbroken text) :
      Continued code (code ++ hyphen :: text ++ [cr, lf])

/-- The last line of a group. -/
inductive Last (code : Bytes) : Bytes → Prop
  | bare : Last code (code ++ [cr, lf])
  | text {text : Bytes} (htext : Unbroken text) : Last code (code ++ sp :: text ++ [cr, lf])

/-- Lines with these codes, of which only the last one is final. -/
inductive Group : List Bytes → Bytes → Prop
  | last {code line : Bytes} (hcode : ThreeDigits code) (hline : Last code line) :
      Group [code] line
  | continued {code line rest : Bytes} {codes : List Bytes} (hcode : ThreeDigits code)
      (hline : Continued code line) (hrest : Group codes rest) :
      Group (code :: codes) (line ++ rest)

/-- A group whose lines all have the same code. -/
def IsReply (octets : Bytes) : Prop :=
  ∃ codes code, Group codes octets ∧ ∀ other ∈ codes, other = code

/-- So many replies, one after the other. -/
def Replies (count : Nat) (octets : Bytes) : Prop :=
  ∃ replies : List Bytes, replies.length = count ∧ replies.flatten = octets ∧
    ∀ reply ∈ replies, IsReply reply

theorem Replies.nil : Replies 0 [] := ⟨[], rfl, rfl, List.forall_mem_nil _⟩

theorem Replies.one {octets : Bytes} (h : IsReply octets) : Replies 1 octets :=
  ⟨[octets], rfl, by simp, List.forall_mem_singleton.mpr h⟩

theorem Replies.append {first second : Nat} {octets octets' : Bytes} (h : Replies first octets)
    (h' : Replies second octets') : Replies (first + second) (octets ++ octets') := by
  obtain ⟨replies, rfl, rfl, hall⟩ := h
  obtain ⟨replies', rfl, rfl, hall'⟩ := h'
  refine ⟨replies ++ replies', List.length_append, List.flatten_append, ?_⟩
  exact List.forall_mem_append.mpr ⟨hall, hall'⟩

/-! ## One way to split a stream -/

theorem ThreeDigits.lf_notMem {code : Bytes} (h : ThreeDigits code) : lf ∉ code := by
  intro hmem
  exact absurd (h.2 lf hmem).1 (by decide)

theorem Continued.isLine {code line : Bytes} (hcode : ThreeDigits code) (h : Continued code line) :
    IsLine line := by
  obtain ⟨htext⟩ := h
  refine isLine_append ?_ (.inl rfl)
  have hhyphen : lf ≠ hyphen := by decide
  simp [hcode.lf_notMem, htext.2, hhyphen]

theorem Last.isLine {code line : Bytes} (hcode : ThreeDigits code) (h : Last code line) :
    IsLine line := by
  cases h with
  | bare => exact isLine_append hcode.lf_notMem (.inl rfl)
  | @text text htext =>
      refine isLine_append ?_ (.inl rfl)
      have hsp : lf ≠ sp := by decide
      simp [hcode.lf_notMem, htext.2, hsp]

/-- The first four octets of a line tell its code and whether it is the last. -/
theorem Continued.head {code octets : Bytes} (hcode : ThreeDigits code)
    (h : Continued code octets) :
    octets.take 3 = code ∧ octets[3]? = some hyphen := by
  obtain ⟨htext⟩ := h
  rw [List.append_assoc, ← hcode.1]
  exact ⟨List.take_left, by simp⟩

theorem Last.head {code octets : Bytes} (hcode : ThreeDigits code) (h : Last code octets) :
    octets.take 3 = code ∧ octets[3]? ≠ some hyphen := by
  cases h with
  | bare =>
      rw [← hcode.1]
      refine ⟨List.take_left, ?_⟩
      rw [List.getElem?_append_right (Nat.le_refl _), Nat.sub_self]
      decide
  | text htext =>
      rw [List.append_assoc, ← hcode.1]
      refine ⟨List.take_left, ?_⟩
      rw [List.getElem?_append_right (Nat.le_refl _), Nat.sub_self]
      exact fun hsame => absurd (Option.some.inj hsame) (by decide)

theorem IsLine.append_inj {line line' rest rest' : Bytes} (h : IsLine line) (h' : IsLine line')
    (heq : line ++ rest = line' ++ rest') : line = line' ∧ rest = rest' := by
  obtain ⟨body, hbody, rfl⟩ := h
  obtain ⟨body', hbody', rfl⟩ := h'
  rw [List.append_assoc, List.append_assoc] at heq
  obtain ⟨rfl, hrest⟩ := append_cons_inj hbody hbody' heq
  exact ⟨rfl, hrest⟩

/-- What a stream starts with is one group at most. -/
theorem Group.append_inj {codes codes' : List Bytes} {octets octets' rest rest' : Bytes}
    (h : Group codes octets) (h' : Group codes' octets') (heq : octets ++ rest = octets' ++ rest') :
    codes = codes' ∧ octets = octets' ∧ rest = rest' := by
  induction h generalizing codes' octets' with
  | last hcode hline =>
      obtain ⟨htake, hhyphen⟩ := hline.head hcode
      cases h' with
      | last hcode' hline' =>
          obtain ⟨rfl, rfl⟩ := IsLine.append_inj (hline.isLine hcode) (hline'.isLine hcode') heq
          obtain ⟨htake', -⟩ := hline'.head hcode'
          exact ⟨by rw [← htake, htake'], rfl, rfl⟩
      | continued hcode' hline' hrest' =>
          rw [List.append_assoc] at heq
          obtain ⟨rfl, rfl⟩ := IsLine.append_inj (hline.isLine hcode) (hline'.isLine hcode') heq
          exact absurd (hline'.head hcode').2 hhyphen
  | continued hcode hline hrest ih =>
      obtain ⟨htake, hhyphen⟩ := hline.head hcode
      rw [List.append_assoc] at heq
      cases h' with
      | last hcode' hline' =>
          obtain ⟨rfl, rfl⟩ := IsLine.append_inj (hline.isLine hcode) (hline'.isLine hcode') heq
          exact absurd hhyphen (hline'.head hcode').2
      | continued hcode' hline' hrest' =>
          rw [List.append_assoc] at heq
          obtain ⟨rfl, hafter⟩ := IsLine.append_inj (hline.isLine hcode) (hline'.isLine hcode') heq
          obtain ⟨rfl, rfl, rfl⟩ := ih hrest' hafter
          obtain ⟨htake', -⟩ := hline'.head hcode'
          exact ⟨by rw [← htake, htake'], rfl, rfl⟩

theorem Group.ne_nil {codes : List Bytes} {octets : Bytes} (h : Group codes octets) :
    octets ≠ [] := by
  cases h with
  | last hcode hline => exact List.ne_nil_of_length_pos (hline.isLine hcode).length_pos
  | continued hcode hline hrest =>
      exact List.append_ne_nil_of_left_ne_nil
        (List.ne_nil_of_length_pos (hline.isLine hcode).length_pos) _

/-- The replies of a stream are the groups that it splits into in any way. -/
theorem flatten_inj {groups groups' : List Bytes} (h : ∀ group ∈ groups, ∃ codes, Group codes group)
    (h' : ∀ group ∈ groups', ∃ codes, Group codes group) (heq : groups.flatten = groups'.flatten) :
    groups = groups' := by
  induction groups generalizing groups' with
  | nil =>
      cases groups' with
      | nil => rfl
      | cons group' rest' =>
          obtain ⟨codes, hgroup⟩ := h' group' List.mem_cons_self
          rw [List.flatten_nil, List.flatten_cons] at heq
          exact absurd (List.append_eq_nil_iff.mp heq.symm).1 hgroup.ne_nil
  | cons group rest ih =>
      obtain ⟨hgroup, hrest⟩ := List.forall_mem_cons.mp h
      obtain ⟨codes, hgroup⟩ := hgroup
      cases groups' with
      | nil =>
          rw [List.flatten_nil, List.flatten_cons] at heq
          exact absurd (List.append_eq_nil_iff.mp heq).1 hgroup.ne_nil
      | cons group' rest' =>
          obtain ⟨⟨codes', hgroup'⟩, hrest'⟩ := List.forall_mem_cons.mp h'
          rw [List.flatten_cons, List.flatten_cons] at heq
          obtain ⟨-, rfl, hafter⟩ := hgroup.append_inj hgroup' heq
          rw [ih hrest hrest' hafter]

/-- A stream with a group whose codes differ is no sequence of replies. -/
theorem not_replies {groups : List Bytes} (h : ∀ group ∈ groups, ∃ codes, Group codes group)
    {group : Bytes} (hmem : group ∈ groups) {codes : List Bytes} (hgroup : Group codes group)
    {code code' : Bytes} (hcode : code ∈ codes) (hcode' : code' ∈ codes) (hne : code ≠ code')
    (count : Nat) : ¬ Replies count groups.flatten := by
  rintro ⟨replies, -, hflatten, hall⟩
  have hgroups : ∀ reply ∈ replies, ∃ codes, Group codes reply := by
    intro reply hreply
    obtain ⟨other, -, hother, -⟩ := hall reply hreply
    exact ⟨other, hother⟩
  rw [flatten_inj hgroups h hflatten] at hall
  obtain ⟨codes', same, hgroup', hsame⟩ := hall group hmem
  have heq : group ++ [] = group ++ ([] : Bytes) := rfl
  obtain ⟨rfl, -, -⟩ := hgroup.append_inj hgroup' heq
  exact hne ((hsame code hcode).trans (hsame code' hcode').symm)

end Foundation.Reply
