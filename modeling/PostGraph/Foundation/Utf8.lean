import PostGraph.Foundation.Text

/-! # UTF-8 with replacement

Decoding replaces each maximal ill-formed prefix by U+FFFD, so it is total.
Decoding undoes encoding on every text.
-/

namespace Foundation.Utf8

/-- The octets of a text. -/
def encode (t : Text) : Bytes := t.flatMap String.utf8EncodeChar

/-- U+FFFD, which stands for an ill-formed sequence. -/
def replacement : Char := Char.ofNat 0xFFFD

/-- A continuation octet. -/
def isContinuation (b : UInt8) : Bool := 0x80 ≤ b && b ≤ 0xBF

/-- Octets that may follow the first one of a three-octet sequence. -/
def secondOfThree (first b : UInt8) : Bool :=
  if first = 0xE0 then 0xA0 ≤ b && b ≤ 0xBF
  else if first = 0xED then 0x80 ≤ b && b ≤ 0x9F
  else isContinuation b

/-- Octets that may follow the first one of a four-octet sequence. -/
def secondOfFour (first b : UInt8) : Bool :=
  if first = 0xF0 then 0x90 ≤ b && b ≤ 0xBF
  else if first = 0xF4 then 0x80 ≤ b && b ≤ 0x8F
  else isContinuation b

/-- The payload bits of a continuation octet. -/
def payload (b : UInt8) : Nat := b.toNat % 0x40

/-- The rest of a two-octet sequence. -/
def decodeTwo (first : UInt8) : Bytes → Char × Bytes
  | [] => (replacement, [])
  | b :: rest =>
      if isContinuation b then (Char.ofNat (first.toNat % 0x20 * 0x40 + payload b), rest)
      else (replacement, b :: rest)

/-- The rest of a three-octet sequence. -/
def decodeThree (first : UInt8) : Bytes → Char × Bytes
  | [] => (replacement, [])
  | b :: rest =>
      if secondOfThree first b then
        match rest with
        | [] => (replacement, [])
        | c :: rest' =>
            if isContinuation c then
              (Char.ofNat (first.toNat % 0x10 * 0x1000 + payload b * 0x40 + payload c), rest')
            else (replacement, rest)
      else (replacement, b :: rest)

/-- The rest of a four-octet sequence. -/
def decodeFour (first : UInt8) : Bytes → Char × Bytes
  | [] => (replacement, [])
  | b :: rest =>
      if secondOfFour first b then
        match rest with
        | [] => (replacement, [])
        | c :: rest' =>
            if isContinuation c then
              match rest' with
              | [] => (replacement, [])
              | d :: rest'' =>
                  if isContinuation d then
                    (Char.ofNat (first.toNat % 0x8 * 0x40000 + payload b * 0x1000 +
                      payload c * 0x40 + payload d), rest'')
                  else (replacement, rest')
            else (replacement, rest)
      else (replacement, b :: rest)

/-- Decode one scalar value. An ill-formed sequence is replaced together with
the octets after its first one that could still have continued it. -/
def decodeFirst (first : UInt8) (rest : Bytes) : Char × Bytes :=
  if first < 0x80 then (Char.ofNat first.toNat, rest)
  else if 0xC2 ≤ first ∧ first ≤ 0xDF then decodeTwo first rest
  else if 0xE0 ≤ first ∧ first ≤ 0xEF then decodeThree first rest
  else if 0xF0 ≤ first ∧ first ≤ 0xF4 then decodeFour first rest
  else (replacement, rest)

/-- Decode as long as octets and fuel last; each scalar value takes at least
one octet. -/
def decodeWithin : Nat → Bytes → Text
  | 0, _ => []
  | _ + 1, [] => []
  | fuel + 1, first :: rest =>
      (decodeFirst first rest).1 :: decodeWithin fuel (decodeFirst first rest).2

/-- Decode, replacing what is ill-formed. -/
def decodeLossy (bytes : Bytes) : Text := decodeWithin bytes.length bytes

theorem isContinuation_ofNat {n : Nat} (hn : n < 0x40) :
    isContinuation (UInt8.ofNat (n + 0x80)) = true := by
  simp only [isContinuation, Bool.and_eq_true, decide_eq_true_eq, UInt8.le_iff_toNat_le,
    UInt8.toNat_ofNat', UInt8.reduceToNat]
  omega

theorem payload_ofNat {n : Nat} (hn : n < 0x40) : payload (UInt8.ofNat (n + 0x80)) = n := by
  simp only [payload, UInt8.toNat_ofNat']
  omega

theorem secondOfThree_ofNat {m n : Nat} (hm : m < 0x10) (hn : n < 0x40)
    (hlow : m = 0 → 0x20 ≤ n) (hhigh : m = 0xD → n < 0x20) :
    secondOfThree (UInt8.ofNat (m + 0xE0)) (UInt8.ofNat (n + 0x80)) = true := by
  simp only [secondOfThree, isContinuation, ← UInt8.toNat_inj, UInt8.toNat_ofNat',
    UInt8.reduceToNat, UInt8.le_iff_toNat_le]
  split
  · simp only [Bool.and_eq_true, decide_eq_true_eq]
    omega
  · split <;> simp only [Bool.and_eq_true, decide_eq_true_eq] <;> omega

theorem secondOfFour_ofNat {m n : Nat} (hm : m < 0x8) (hn : n < 0x40)
    (hlow : m = 0 → 0x10 ≤ n) (hhigh : m = 4 → n < 0x10) :
    secondOfFour (UInt8.ofNat (m + 0xF0)) (UInt8.ofNat (n + 0x80)) = true := by
  simp only [secondOfFour, isContinuation, ← UInt8.toNat_inj, UInt8.toNat_ofNat',
    UInt8.reduceToNat, UInt8.le_iff_toNat_le]
  split
  · simp only [Bool.and_eq_true, decide_eq_true_eq]
    omega
  · split <;> simp only [Bool.and_eq_true, decide_eq_true_eq] <;> omega

theorem decodeFirst_one {n : Nat} (hn : n < 0x80) (rest : Bytes) :
    decodeFirst (UInt8.ofNat n) rest = (Char.ofNat n, rest) := by
  have hnat : (UInt8.ofNat n).toNat = n := by simp only [UInt8.toNat_ofNat']; omega
  have hfirst : UInt8.ofNat n < 0x80 := by
    simpa only [UInt8.lt_iff_toNat_lt, hnat, UInt8.reduceToNat] using hn
  simp only [decodeFirst, hfirst, ↓reduceIte, hnat]

theorem decodeFirst_two {m n : Nat} (hm : 2 ≤ m ∧ m < 0x20) (hn : n < 0x40) (rest : Bytes) :
    decodeFirst (UInt8.ofNat (m + 0xC0)) (UInt8.ofNat (n + 0x80) :: rest) =
      (Char.ofNat (m * 0x40 + n), rest) := by
  have hnat : (UInt8.ofNat (m + 0xC0)).toNat = m + 0xC0 := by
    simp only [UInt8.toNat_ofNat']; omega
  have hmod : (m + 0xC0) % 0x20 = m := by omega
  simp only [decodeFirst, UInt8.lt_iff_toNat_lt, UInt8.le_iff_toNat_le, hnat, UInt8.reduceToNat]
  rw [if_neg (by omega), if_pos (by omega)]
  simp only [decodeTwo, isContinuation_ofNat hn, payload_ofNat hn, hnat, hmod, ↓reduceIte]

theorem decodeFirst_three {k m n : Nat} (hk : k < 0x10) (hm : m < 0x40) (hn : n < 0x40)
    (hlow : k = 0 → 0x20 ≤ m) (hhigh : k = 0xD → m < 0x20) (rest : Bytes) :
    decodeFirst (UInt8.ofNat (k + 0xE0))
        (UInt8.ofNat (m + 0x80) :: UInt8.ofNat (n + 0x80) :: rest) =
      (Char.ofNat (k * 0x1000 + m * 0x40 + n), rest) := by
  have hnat : (UInt8.ofNat (k + 0xE0)).toNat = k + 0xE0 := by
    simp only [UInt8.toNat_ofNat']; omega
  have hmod : (k + 0xE0) % 0x10 = k := by omega
  simp only [decodeFirst, UInt8.lt_iff_toNat_lt, UInt8.le_iff_toNat_le, hnat, UInt8.reduceToNat]
  rw [if_neg (by omega), if_neg (by omega), if_pos (by omega)]
  simp only [decodeThree, secondOfThree_ofNat hk hm hlow hhigh, isContinuation_ofNat hn,
    payload_ofNat hm, payload_ofNat hn, hnat, hmod, ↓reduceIte]

theorem decodeFirst_four {j k m n : Nat} (hj : j < 5) (hk : k < 0x40) (hm : m < 0x40)
    (hn : n < 0x40) (hlow : j = 0 → 0x10 ≤ k) (hhigh : j = 4 → k < 0x10) (rest : Bytes) :
    decodeFirst (UInt8.ofNat (j + 0xF0)) (UInt8.ofNat (k + 0x80) ::
        UInt8.ofNat (m + 0x80) :: UInt8.ofNat (n + 0x80) :: rest) =
      (Char.ofNat (j * 0x40000 + k * 0x1000 + m * 0x40 + n), rest) := by
  have hnat : (UInt8.ofNat (j + 0xF0)).toNat = j + 0xF0 := by
    simp only [UInt8.toNat_ofNat']; omega
  have hmod : (j + 0xF0) % 0x8 = j := by omega
  simp only [decodeFirst, UInt8.lt_iff_toNat_lt, UInt8.le_iff_toNat_le, hnat, UInt8.reduceToNat]
  rw [if_neg (by omega), if_neg (by omega), if_neg (by omega), if_pos (by omega)]
  simp only [decodeFour, secondOfFour_ofNat (by omega : j < 8) hk hlow hhigh,
    isContinuation_ofNat hm, isContinuation_ofNat hn, payload_ofNat hk, payload_ofNat hm,
    payload_ofNat hn, hnat, hmod, ↓reduceIte]

/-- The first scalar value of an encoded text is read back whole. -/
theorem decodeFirst_utf8EncodeChar (c : Char) (rest : Bytes) :
    ∃ first more, String.utf8EncodeChar c = first :: more ∧
      decodeFirst first (more ++ rest) = (c, rest) := by
  have hvalid : c.val.toNat < 0xD800 ∨ 0xDFFF < c.val.toNat ∧ c.val.toNat < 0x110000 := c.valid
  have hchar : ∀ n, n = c.val.toNat → Char.ofNat n = c := fun n hn => hn ▸ Char.ofNat_toNat c
  unfold String.utf8EncodeChar
  dsimp only
  generalize c.val.toNat = v at hvalid hchar
  have hmod : ∀ n, n % 0x40 < 0x40 := fun n => Nat.mod_lt n (by omega)
  split
  next hone =>
    refine ⟨_, _, rfl, ?_⟩
    rw [List.nil_append, decodeFirst_one (by omega), hchar _ rfl]
  next hone =>
  split
  next htwo =>
    refine ⟨_, _, rfl, ?_⟩
    rw [List.singleton_append, decodeFirst_two (by omega) (hmod v), hchar _ (by omega)]
  next htwo =>
  split
  next hthree =>
    refine ⟨_, _, rfl, ?_⟩
    simp only [List.cons_append, List.nil_append]
    rw [decodeFirst_three (by omega) (hmod _) (hmod v) (by omega) (by omega), hchar _ (by omega)]
  next hthree =>
    refine ⟨_, _, rfl, ?_⟩
    simp only [List.cons_append, List.nil_append]
    rw [decodeFirst_four (by omega) (hmod _) (hmod _) (hmod v) (by omega) (by omega),
      hchar _ (by omega)]

theorem decodeWithin_encode (t : Text) (fuel : Nat) (hfuel : t.length ≤ fuel) :
    decodeWithin fuel (encode t) = t := by
  induction t generalizing fuel with
  | nil => cases fuel <;> rfl
  | cons c rest ih =>
      obtain ⟨fuel, rfl⟩ : ∃ n, fuel = n + 1 := ⟨fuel - 1, by simp at hfuel; omega⟩
      obtain ⟨first, more, hencode, hdecode⟩ := decodeFirst_utf8EncodeChar c (encode rest)
      have hcons : encode (c :: rest) = first :: (more ++ encode rest) := by
        simp [encode, hencode]
      rw [hcons, decodeWithin, hdecode, ih fuel (by simpa using hfuel)]

theorem length_le_encode (t : Text) : t.length ≤ (encode t).length := by
  induction t with
  | nil => simp
  | cons c rest ih =>
      have hpos := c.utf8Size_pos
      have hlength : (encode (c :: rest)).length = c.utf8Size + (encode rest).length := by
        simp [encode]
      simp only [List.length_cons]
      omega

/-- Decoding undoes encoding. -/
theorem decodeLossy_encode (t : Text) : decodeLossy (encode t) = t :=
  decodeWithin_encode t _ (length_le_encode t)

theorem encode_injective {s t : Text} (h : encode s = encode t) : s = t := by
  rw [← decodeLossy_encode s, h, decodeLossy_encode]

theorem encode_append (s t : Text) : encode (s ++ t) = encode s ++ encode t := by
  simp [encode]

theorem utf8EncodeChar_ascii {c : Char} {b : UInt8} (hmem : b ∈ String.utf8EncodeChar c)
    (hb : b < 0x80) : String.utf8EncodeChar c = [b] ∧ c = Char.ofNat b.toNat := by
  have hchar : Char.ofNat c.val.toNat = c := Char.ofNat_toNat c
  have hnat : b.toNat < 0x80 := by simpa [UInt8.lt_iff_toNat_lt] using hb
  unfold String.utf8EncodeChar at hmem ⊢
  dsimp only at hmem ⊢
  generalize c.val.toNat = v at hmem hchar ⊢
  split at hmem
  next hone =>
    rw [List.mem_singleton] at hmem
    subst hmem
    rw [if_pos hone]
    refine ⟨rfl, ?_⟩
    rw [← hchar, UInt8.toNat_ofNat', Nat.mod_eq_of_lt (by omega)]
  next hone =>
    exfalso
    split at hmem
    · simp only [List.mem_cons, List.not_mem_nil, or_false] at hmem
      rcases hmem with rfl | rfl <;> simp only [UInt8.toNat_ofNat'] at hnat <;> omega
    · split at hmem
      · simp only [List.mem_cons, List.not_mem_nil, or_false] at hmem
        rcases hmem with rfl | rfl | rfl <;> simp only [UInt8.toNat_ofNat'] at hnat <;> omega
      · simp only [List.mem_cons, List.not_mem_nil, or_false] at hmem
        rcases hmem with rfl | rfl | rfl | rfl <;> simp only [UInt8.toNat_ofNat'] at hnat <;> omega

/-- An ASCII octet of an encoded text is one of its characters. -/
theorem mem_encode_ascii {t : Text} {b : UInt8} (hmem : b ∈ encode t) (hb : b < 0x80) :
    Char.ofNat b.toNat ∈ t := by
  obtain ⟨c, hc, hbc⟩ := List.mem_flatMap.mp hmem
  rwa [← (utf8EncodeChar_ascii hbc hb).2]

end Foundation.Utf8
