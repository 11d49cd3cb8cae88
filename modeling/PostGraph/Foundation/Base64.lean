import Mathlib.Data.Nat.Basic
import PostGraph.Foundation.Text

/-! # Base64 with the standard alphabet

Three octets are four digits of six bits. A last group of one or two octets is
filled up with zero bits and padding, and no other spelling of it is accepted.
-/

namespace Foundation

/-- What a base64 library does for those who send with it: decoding undoes encoding,
and what is encoded has neither spaces nor control characters. -/
class LawfulBase64 [Base64] : Prop where
  decode_encode : ∀ bytes : Bytes, Base64.decode (Base64.encode bytes) = .ok bytes
  encode_graphic : ∀ bytes : Bytes, ∀ b ∈ Base64.encode bytes, 0x20 < b

namespace StandardBase64

/-- The sign of padding. -/
def pad : UInt8 := 0x3D

/-- The octet that stands for six bits. -/
def digit (n : Nat) : UInt8 :=
  if n < 26 then .ofNat (n + 65)
  else if n < 52 then .ofNat (n + 71)
  else if n < 62 then .ofNat (n - 4)
  else if n = 62 then 0x2B
  else 0x2F

/-- The six bits that an octet stands for. -/
def value (b : UInt8) : Option Nat :=
  if 65 ≤ b ∧ b ≤ 90 then some (b.toNat - 65)
  else if 97 ≤ b ∧ b ≤ 122 then some (b.toNat - 71)
  else if 48 ≤ b ∧ b ≤ 57 then some (b.toNat + 4)
  else if b = 0x2B then some 62
  else if b = 0x2F then some 63
  else none

def encode : Bytes → Bytes
  | [] => []
  | [a] => [digit (a.toNat / 4), digit (a.toNat % 4 * 16), pad, pad]
  | [a, b] =>
      [digit (a.toNat / 4), digit (a.toNat % 4 * 16 + b.toNat / 16), digit (b.toNat % 16 * 4), pad]
  | a :: b :: c :: rest =>
      digit (a.toNat / 4) :: digit (a.toNat % 4 * 16 + b.toNat / 16) ::
        digit (b.toNat % 16 * 4 + c.toNat / 64) :: digit (c.toNat % 64) :: encode rest

/-- One octet, whose last four bits are zero. -/
def decodeOne (w x : UInt8) : Option Bytes := do
  let w ← value w
  let x ← value x
  if x % 16 = 0 then some [.ofNat (w * 4 + x / 16)] else none

/-- Two octets, whose last two bits are zero. -/
def decodeTwo (w x y : UInt8) : Option Bytes := do
  let w ← value w
  let x ← value x
  let y ← value y
  if y % 4 = 0 then some [.ofNat (w * 4 + x / 16), .ofNat (x % 16 * 16 + y / 4)] else none

def decodeThree (w x y z : UInt8) : Option Bytes := do
  let w ← value w
  let x ← value x
  let y ← value y
  let z ← value z
  some [.ofNat (w * 4 + x / 16), .ofNat (x % 16 * 16 + y / 4), .ofNat (y % 4 * 64 + z)]

def decode : Bytes → Option Bytes
  | [] => some []
  | w :: x :: y :: z :: rest =>
      -- padding is at the end only
      if z = pad ∧ rest = [] then
        if y = pad then decodeOne w x else decodeTwo w x y
      else do
        let octets ← decodeThree w x y z
        let others ← decode rest
        some (octets ++ others)
  | _ => none

theorem value_digit {n : Nat} (hn : n < 64) : value (digit n) = some n := by
  revert n
  decide

theorem digit_graphic {n : Nat} (hn : n < 64) : 0x20 < digit n ∧ digit n ≠ pad := by
  revert n
  decide

theorem ofNat_eq {n : Nat} {b : UInt8} (h : n = b.toNat) : UInt8.ofNat n = b := by
  rw [h, UInt8.ofNat_toNat]

theorem decode_encode (bytes : Bytes) : decode (encode bytes) = some bytes := by
  fun_induction encode bytes with
  | case1 => rfl
  | case2 a =>
      have ha := a.toNat_lt
      rw [decode, if_pos ⟨rfl, rfl⟩, if_pos rfl, decodeOne, value_digit (by omega),
        value_digit (by omega)]
      change (if a.toNat % 4 * 16 % 16 = 0 then some [_] else none) = _
      rw [if_pos (by omega), ofNat_eq (b := a) (by omega)]
  | case3 a b =>
      have ha := a.toNat_lt
      have hb := b.toNat_lt
      have hpad : digit (b.toNat % 16 * 4) ≠ pad := (digit_graphic (by omega)).2
      rw [decode, if_pos ⟨rfl, rfl⟩, if_neg hpad, decodeTwo, value_digit (by omega),
        value_digit (by omega), value_digit (by omega)]
      change (if b.toNat % 16 * 4 % 4 = 0 then some [_, _] else none) = _
      rw [if_pos (by omega), ofNat_eq (b := a) (by omega), ofNat_eq (b := b) (by omega)]
  | case4 a b c rest ih =>
      have ha := a.toNat_lt
      have hb := b.toNat_lt
      have hc := c.toNat_lt
      have hpad : digit (c.toNat % 64) ≠ pad := (digit_graphic (by omega)).2
      rw [decode, if_neg fun h => hpad h.1, decodeThree, value_digit (by omega),
        value_digit (by omega), value_digit (by omega), value_digit (by omega), ih]
      change some (UInt8.ofNat _ :: UInt8.ofNat _ :: UInt8.ofNat _ :: rest) = _
      rw [ofNat_eq (b := a) (by omega), ofNat_eq (b := b) (by omega), ofNat_eq (b := c) (by omega)]

theorem encode_graphic (bytes : Bytes) : ∀ b ∈ encode bytes, 0x20 < b := by
  have hdigit : ∀ n, n < 64 → 0x20 < digit n := fun n hn => (digit_graphic hn).1
  have hpad : 0x20 < pad := by decide
  fun_induction encode bytes with
  | case1 => exact List.forall_mem_nil _
  | case2 a =>
      have ha := a.toNat_lt
      simp only [List.forall_mem_cons]
      exact ⟨hdigit _ (by omega), hdigit _ (by omega), hpad, hpad, List.forall_mem_nil _⟩
  | case3 a b =>
      have ha := a.toNat_lt
      have hb := b.toNat_lt
      simp only [List.forall_mem_cons]
      exact ⟨hdigit _ (by omega), hdigit _ (by omega), hdigit _ (by omega), hpad,
        List.forall_mem_nil _⟩
  | case4 a b c rest ih =>
      have ha := a.toNat_lt
      have hb := b.toNat_lt
      have hc := c.toNat_lt
      simp only [List.forall_mem_cons]
      exact ⟨hdigit _ (by omega), hdigit _ (by omega), hdigit _ (by omega), hdigit _ (by omega), ih⟩

end StandardBase64

/-- Base64 with the standard alphabet and padding. -/
@[reducible] def standardBase64 : Base64 where
  decode input := match StandardBase64.decode input with
    | some bytes => .ok bytes
    | none => .error "Invalid input".toList
  encode := StandardBase64.encode

theorem lawful_standardBase64 : @LawfulBase64 standardBase64 :=
  letI := standardBase64
  { decode_encode := by
      intro bytes
      change (match StandardBase64.decode (StandardBase64.encode bytes) with
        | some bytes => Except.ok bytes
        | none => _) = _
      rw [StandardBase64.decode_encode]
    encode_graphic := StandardBase64.encode_graphic }

end Foundation
