import Mathlib.Data.List.DropRight
import Mathlib.Data.List.Triplewise

/-! # Text and bytes

Text is the list of its Unicode scalar values, and bytes are octets. Trimming
text follows the Unicode property White_Space, for every scalar value; the
operations on bytes know ASCII only.
-/

namespace Foundation

/-- A string of octets. -/
abbrev Bytes := List UInt8

/-- A string as the list of its scalar values. -/
abbrev Text := List Char

/-- The base64 library. -/
class Base64 where
  decode : Bytes → Except Text Bytes
  encode : Bytes → Bytes

/-- The octets of an ASCII literal. -/
def ascii (literal : String) : Bytes :=
  literal.toList.map fun c => c.toNat.toUInt8

/-- Items are checked one by one, not by trying all values of their type. -/
theorem forall_mem_of_all {α : Type} {P : α → Prop} [DecidablePred P] {items : List α}
    (h : items.all (P ·) = true) : ∀ item ∈ items, P item := by
  simpa using h

theorem all_of_forall_mem {α : Type} {P : α → Prop} [DecidablePred P] {items : List α}
    (h : ∀ item ∈ items, P item) : items.all (P ·) = true := by
  simpa using h

/-- What is split at its first occurrence of an element is split in one way only. -/
theorem append_cons_inj {α : Type} {a : α} {before before' after after' : List α}
    (h : a ∉ before) (h' : a ∉ before') (heq : before ++ a :: after = before' ++ a :: after') :
    before = before' ∧ after = after' := by
  induction before generalizing before' with
  | nil =>
      cases before' with
      | nil => exact ⟨rfl, (List.cons.inj heq).2⟩
      | cons first rest => exact absurd (List.mem_cons.mpr (.inl (List.cons.inj heq).1)) h'
  | cons first rest ih =>
      cases before' with
      | nil => exact absurd (List.mem_cons.mpr (.inl (List.cons.inj heq).1.symm)) h
      | cons first' rest' =>
          obtain ⟨rfl, htail⟩ := List.cons.inj heq
          rw [List.mem_cons, not_or] at h h'
          obtain ⟨rfl, hafter⟩ := ih h.2 h'.2 htail
          exact ⟨rfl, hafter⟩

theorem dropPrefix?_eq_some {t start rest : Text} :
    t.dropPrefix? start = some rest ↔ t = start ++ rest := by
  simp [List.dropPrefix?_eq_some_iff]

/-- The Unicode property White_Space. -/
def isWhitespace (c : Char) : Bool :=
  let n := c.toNat
  (0x9 ≤ n && n ≤ 0xD) || n == 0x20 || n == 0x85 || n == 0xA0 || n == 0x1680 ||
    (0x2000 ≤ n && n ≤ 0x200A) || n == 0x2028 || n == 0x2029 || n == 0x202F ||
    n == 0x205F || n == 0x3000

/-- Drop white space at both ends. -/
def trim (t : Text) : Text :=
  (t.dropWhile isWhitespace).rdropWhile isWhitespace

/-- Neither end is white space. -/
def Trimmed (t : Text) : Prop :=
  (∀ c ∈ t.head?, isWhitespace c = false) ∧ ∀ c ∈ t.getLast?, isWhitespace c = false

/-- Line feed. -/
def lf : UInt8 := 0x0A

/-- Carriage return. -/
def cr : UInt8 := 0x0D

/-- Space. -/
def sp : UInt8 := 0x20

/-- The octet with ASCII lower case letters made upper case. -/
def toAsciiUppercase (b : UInt8) : UInt8 :=
  if 0x61 ≤ b ∧ b ≤ 0x7A then b - 0x20 else b

/-- The octet with ASCII upper case letters made lower case. -/
def toAsciiLowercase (b : UInt8) : UInt8 :=
  if 0x41 ≤ b ∧ b ≤ 0x5A then b + 0x20 else b

/-- Equality up to the case of ASCII letters. -/
def eqIgnoreAsciiCase (a b : UInt8) : Bool := toAsciiLowercase a == toAsciiLowercase b

/-- ASCII white space, which leaves out the vertical tab. -/
def isAsciiWhitespace (b : UInt8) : Bool :=
  b == 0x20 || b == 0x09 || b == 0x0A || b == 0x0C || b == 0x0D

/-- Drop ASCII white space at both ends. -/
def trimAscii (bytes : Bytes) : Bytes :=
  (bytes.dropWhile isAsciiWhitespace).rdropWhile isAsciiWhitespace

/-- Remove one CRLF or LF at the end. -/
def stripLineEnding (line : Bytes) : Bytes :=
  ((line.dropSuffix? [cr, lf]).or (line.dropSuffix? [lf])).getD line

instance (t : Text) : Decidable (Trimmed t) :=
  decidable_of_iff (t.head?.all (isWhitespace · = false) = true ∧
      t.getLast?.all (isWhitespace · = false) = true)
    (by simp [Trimmed, Option.all_eq_true])

theorem dropWhile_of_head {α : Type} {p : α → Bool} {t : List α}
    (hhead : ∀ c ∈ t.head?, p c = false) : t.dropWhile p = t := by
  cases t with
  | nil => rfl
  | cons c rest => simp [hhead c (by simp)]

theorem rdropWhile_of_last {α : Type} {p : α → Bool} {t : List α}
    (hlast : ∀ c ∈ t.getLast?, p c = false) : t.rdropWhile p = t := by
  rw [List.rdropWhile_eq_self_iff]
  intro hne
  simp [hlast (t.getLast hne) (by simp [List.getLast?_eq_some_getLast hne])]

theorem trim_eq_self {t : Text} (ht : Trimmed t) : trim t = t := by
  rw [trim, dropWhile_of_head ht.1, rdropWhile_of_last ht.2]

/-- What is dropped at both ends of items that are kept at their own ends. -/
theorem drop_surround {α : Type} {p : α → Bool} {before items after : List α}
    (hbefore : ∀ c ∈ before, p c = true) (hafter : ∀ c ∈ after, p c = true)
    (hhead : ∀ c ∈ items.head?, p c = false) (hlast : ∀ c ∈ items.getLast?, p c = false) :
    ((before ++ items ++ after).dropWhile p).rdropWhile p = items := by
  rw [List.append_assoc, List.dropWhile_append_of_pos hbefore]
  cases items with
  | nil =>
      rw [List.nil_append, List.dropWhile_eq_nil_iff.mpr hafter]
      rfl
  | cons c rest =>
      rw [dropWhile_of_head (by simpa using hhead), List.rdropWhile, List.reverse_append,
        List.dropWhile_append_of_pos (by simpa using hafter), ← List.rdropWhile,
        rdropWhile_of_last hlast]

/-- White space around a text without any at its own ends is all that
trimming removes. -/
theorem trim_surround {before t after : Text} (hbefore : ∀ c ∈ before, isWhitespace c = true)
    (hafter : ∀ c ∈ after, isWhitespace c = true) (ht : Trimmed t) :
    trim (before ++ t ++ after) = t :=
  drop_surround hbefore hafter ht.1 ht.2

/-- Spaces around octets above the space are all that trimming removes. -/
theorem trimAscii_surround (before after : Nat) {octets : Bytes}
    (hoctets : ∀ b ∈ octets, 0x20 < b) :
    trimAscii (List.replicate before sp ++ octets ++ List.replicate after sp) = octets := by
  have hspace : ∀ n, ∀ b ∈ List.replicate n sp, isAsciiWhitespace b = true := by
    intro n b hb
    rw [List.eq_of_mem_replicate hb]
    rfl
  have hkept : ∀ b ∈ octets, isAsciiWhitespace b = false := by
    intro b hb
    have hlt := UInt8.lt_iff_toNat_lt.mp (hoctets b hb)
    simp only [isAsciiWhitespace, Bool.or_eq_false_iff, beq_eq_false_iff_ne]
    refine ⟨⟨⟨⟨?_, ?_⟩, ?_⟩, ?_⟩, ?_⟩ <;>
      exact fun heq => absurd (heq ▸ hlt) (by decide)
  exact drop_surround (hspace before) (hspace after)
    (fun b hb => hkept b (List.mem_of_mem_head? hb))
    (fun b hb => hkept b (List.mem_of_getLast? hb))

/-- White space at the end does not matter. -/
theorem trim_concat {t : Text} {c : Char} (hc : isWhitespace c = true) :
    trim (t ++ [c]) = trim t := by
  rw [trim, trim, List.dropWhile_append]
  split
  next hempty =>
    rw [List.isEmpty_iff] at hempty
    simp [hempty, List.dropWhile, hc]
  next => rw [List.rdropWhile_concat_pos _ _ _ hc]

theorem toAsciiUppercase_of_le {b : UInt8} (hb : b ≤ 0x20) : toAsciiUppercase b = b := by
  have hnot : ¬ (0x61 ≤ b ∧ b ≤ 0x7A) := by
    rw [UInt8.le_iff_toNat_le, UInt8.le_iff_toNat_le] at *
    simp only [UInt8.reduceToNat] at *
    omega
  rw [toAsciiUppercase, if_neg hnot]

theorem toAsciiLowercase_toAsciiUppercase (b : UInt8) :
    toAsciiLowercase (toAsciiUppercase b) = toAsciiLowercase b := by
  unfold toAsciiLowercase toAsciiUppercase
  simp only [UInt8.le_iff_toNat_le, UInt8.reduceToNat]
  split
  next hlower =>
    have hle : (0x20 : UInt8) ≤ b := by
      simp only [UInt8.le_iff_toNat_le, UInt8.reduceToNat]
      omega
    have hnat : (b - 0x20).toNat = b.toNat - 0x20 := by
      rw [UInt8.toNat_sub_of_le _ _ hle]
      rfl
    rw [hnat, if_pos (by omega), if_neg (by omega)]
    apply UInt8.toNat_inj.mp
    simp only [UInt8.toNat_add, hnat, UInt8.reduceToNat]
    omega
  next => rfl

/-- The word up to the case of its ASCII letters. -/
def SameIgnoringCase (octets : Bytes) (word : String) : Prop :=
  octets.map toAsciiUppercase = (ascii word).map toAsciiUppercase

instance (octets : Bytes) (word : String) : Decidable (SameIgnoringCase octets word) :=
  inferInstanceAs (Decidable (octets.map toAsciiUppercase = _))

theorem SameIgnoringCase.map_toAsciiLowercase {octets : Bytes} {word : String}
    (h : SameIgnoringCase octets word) :
    octets.map toAsciiLowercase = (ascii word).map toAsciiLowercase := by
  have hmap := congrArg (List.map toAsciiLowercase) h
  simpa [Function.comp_def, toAsciiLowercase_toAsciiUppercase] using hmap

/-- The word has no spaces and no control characters. -/
def Plain (word : String) : Prop := ∀ b ∈ (ascii word).map toAsciiUppercase, 0x20 < b

instance (word : String) : Decidable (Plain word) :=
  decidable_of_iff (((ascii word).map toAsciiUppercase).all (0x20 < ·) = true)
    ⟨forall_mem_of_all, all_of_forall_mem⟩

theorem SameIgnoringCase.notMem {octets : Bytes} {word : String}
    (h : SameIgnoringCase octets word) (hplain : Plain word) {b : UInt8} (hb : b ≤ 0x20) :
    b ∉ octets := by
  intro hmem
  have hmap : b ∈ octets.map toAsciiUppercase :=
    List.mem_map.mpr ⟨b, hmem, toAsciiUppercase_of_le hb⟩
  rw [h] at hmap
  exact absurd (hplain b hmap) (UInt8.not_lt.mpr hb)

theorem dropSuffix?_append {α : Type} [BEq α] [LawfulBEq α] (before ending : List α) :
    (before ++ ending).dropSuffix? ending = some before := by
  rw [List.dropSuffix?_eq_some_iff]
  exact ⟨ending, rfl, by simp⟩

theorem dropSuffix?_eq_none {α : Type} [BEq α] [LawfulBEq α] {text ending : List α}
    (h : ¬ ending <:+ text) : text.dropSuffix? ending = none := by
  rw [← Option.not_isSome_iff_eq_none, Option.isSome_iff_exists]
  rintro ⟨before, hbefore⟩
  obtain ⟨ending', rfl, hending⟩ := List.dropSuffix?_eq_some_iff.mp hbefore
  exact h ⟨before, by rw [eq_of_beq hending]⟩

@[simp] theorem stripLineEnding_crlf (body : Bytes) :
    stripLineEnding (body ++ [cr, lf]) = body := by
  rw [stripLineEnding, dropSuffix?_append, Option.some_or, Option.getD_some]

theorem stripLineEnding_lf {body : Bytes} (hbody : body.getLast? ≠ some cr) :
    stripLineEnding (body ++ [lf]) = body := by
  have hcrlf : ¬ [cr, lf] <:+ body ++ [lf] := by
    rintro ⟨before, hbefore⟩
    have hsplit : (before ++ [cr]) ++ [lf] = body ++ [lf] := by simpa using hbefore
    rw [List.append_cancel_right_eq] at hsplit
    exact hbody (by simp [← hsplit])
  rw [stripLineEnding, dropSuffix?_eq_none hcrlf, dropSuffix?_append, Option.none_or,
    Option.getD_some]

end Foundation
