import PostGraph.Foundation.Text

/-! # URLs

What a parser makes of an absolute http or https URL, on its octets. Surrounding
control characters and all tabs and line breaks are dropped. The authority ends
at the first slash, backslash, question mark or number sign. The path ends at
the first of the last two; its segments stand between slashes or backslashes.
Dot segments are resolved, and what may not stand in a path is percent-encoded.
Host names are kept as they are written.
-/

namespace Foundation

structure Url where
  secure : Bool
  authority : Bytes
  path : List Bytes
  deriving DecidableEq

namespace Url

/-! ## Percent-encoding -/

/-- The percent sign. -/
def percent : UInt8 := 0x25

def hexDigit (n : UInt8) : UInt8 := if n < 10 then 0x30 + n else 0x37 + n

/-- The value of an ASCII hexadecimal digit. -/
def hexValue (b : UInt8) : Option UInt8 :=
  if 0x30 ≤ b ∧ b ≤ 0x39 then some (b - 0x30)
  else if 0x41 ≤ b ∧ b ≤ 0x46 then some (b - 0x37)
  else if 0x61 ≤ b ∧ b ≤ 0x66 then some (b - 0x57)
  else none

/-- The octet that two hexadecimal digits behind a percent sign stand for. -/
def escaped : Bytes → Option UInt8
  | high :: low :: _ => do return (← hexValue high) * 16 + (← hexValue low)
  | _ => none

def percentDecode : Bytes → Bytes
  | b :: high :: low :: rest =>
      if b = percent then
        match escaped [high, low] with
        | some value => value :: percentDecode rest
        | none => b :: percentDecode (high :: low :: rest)
      else b :: percentDecode (high :: low :: rest)
  | short => short

/-- Some percent sign starts an escape. -/
def hasEscape : Bytes → Bool
  | [] => false
  | b :: rest => (b == percent && (escaped rest).isSome) || hasEscape rest

/-- Octets that are percent-encoded in a path. -/
def inPathSet (b : UInt8) : Bool :=
  b < 0x20 || 0x7E < b || (ascii " \"#<>?^`\x7b\x7d").contains b

def percentEncodeOctet (b : UInt8) : Bytes :=
  if inPathSet b then [percent, hexDigit (b / 16), hexDigit (b % 16)] else [b]

def percentEncode (octets : Bytes) : Bytes := octets.flatMap percentEncodeOctet

/-- One octet at a time, escapes included. -/
theorem percentDecode_cons (b : UInt8) (rest : Bytes) :
    percentDecode (b :: rest) =
      if b = percent then
        match escaped rest with
        | some value => value :: percentDecode (rest.drop 2)
        | none => b :: percentDecode rest
      else b :: percentDecode rest := by
  rcases rest with _ | ⟨high, _ | ⟨low, rest⟩⟩
  · simp [percentDecode, escaped]
  · simp [percentDecode, escaped]
  · rw [percentDecode]
    rfl

theorem percentDecode_of_ne {b : UInt8} (hb : b ≠ percent) (rest : Bytes) :
    percentDecode (b :: rest) = b :: percentDecode rest := by
  rw [percentDecode_cons, if_neg hb]

theorem percentDecode_of_escaped {rest : Bytes} {value : UInt8} (h : escaped rest = some value) :
    percentDecode (percent :: rest) = value :: percentDecode (rest.drop 2) := by
  rw [percentDecode_cons, if_pos rfl, h]

theorem percentDecode_of_not_escaped {rest : Bytes} (h : escaped rest = none) :
    percentDecode (percent :: rest) = percent :: percentDecode rest := by
  rw [percentDecode_cons, if_pos rfl, h]

/-- Decoding never adds octets, and drops some where there is an escape. -/
theorem percentDecode_length (octets : Bytes) :
    (percentDecode octets).length ≤ octets.length ∧
      ((percentDecode octets).length = octets.length → hasEscape octets = false) := by
  induction hlength : octets.length using Nat.strong_induction_on generalizing octets with
  | _ length ih =>
    subst hlength
    cases octets with
    | nil => exact ⟨le_rfl, fun _ => rfl⟩
    | cons b rest =>
      obtain ⟨hle, hplain⟩ := ih rest.length (by simp) rest rfl
      rw [percentDecode_cons]
      split
      next hb =>
        cases hescaped : escaped rest with
        | some value =>
          -- Three octets become one.
          have hshorter : (rest.drop 2).length < (b :: rest).length := by
            rw [List.length_drop, List.length_cons]
            omega
          have hdrop := (ih (rest.drop 2).length hshorter (rest.drop 2) rfl).1
          have htwo : 2 ≤ rest.length := by
            rcases rest with _ | ⟨_, _ | _⟩ <;> simp [escaped] at hescaped ⊢
          simp only [List.length_drop, List.length_cons] at hdrop ⊢
          exact ⟨by omega, fun heq => by omega⟩
        | none =>
          refine ⟨Nat.succ_le_succ hle, fun heq => ?_⟩
          simp [hasEscape, hescaped, hplain (Nat.succ.inj heq)]
      next hb =>
        refine ⟨Nat.succ_le_succ hle, fun heq => ?_⟩
        simp [hasEscape, hb, hplain (Nat.succ.inj heq)]

theorem percentDecode_eq_self {octets : Bytes} (h : hasEscape octets = false) :
    percentDecode octets = octets := by
  induction octets with
  | nil => rfl
  | cons b rest ih =>
      rw [hasEscape, Bool.or_eq_false_iff] at h
      by_cases hb : b = percent
      · have hescaped : escaped rest = none := by simpa [hb] using h.1
        rw [hb, percentDecode_of_not_escaped hescaped, ih h.2]
      · rw [percentDecode_of_ne hb, ih h.2]

/-- What holds of all 256 octets. -/
theorem forall_octet {P : UInt8 → Prop} (h : ∀ n : Fin 256, P (.ofNat n)) (b : UInt8) : P b := by
  have hb := h ⟨b.toNat, b.toNat_lt⟩
  rwa [UInt8.ofNat_toNat] at hb

/-- Digits stay themselves. -/
theorem percentEncodeOctet_of_hexValue :
    ∀ b : UInt8, hexValue b ≠ none → percentEncodeOctet b = [b] := by
  apply forall_octet
  decide +kernel

theorem escaped_hexDigits :
    ∀ b : UInt8, escaped [hexDigit (b / 16), hexDigit (b % 16)] = some b := by
  apply forall_octet
  decide +kernel

theorem percentDecode_encodeOctet {b : UInt8} (hb : inPathSet b = true) (rest : Bytes) :
    percentDecode (percentEncodeOctet b ++ rest) = b :: percentDecode rest := by
  rw [percentEncodeOctet, if_pos hb, List.cons_append]
  exact percentDecode_of_escaped (escaped_hexDigits b)

theorem escaped_eq_none {b : UInt8} (hb : hexValue b = none) (rest : Bytes) :
    escaped (b :: rest) = none := by
  cases rest with
  | nil => rfl
  | cons low rest => simp [escaped, hb]

/-- The encoding of what is no digit does not start with a digit. -/
theorem percentEncodeOctet_eq_cons {b : UInt8} (hb : hexValue b = none) :
    ∃ c rest, percentEncodeOctet b = c :: rest ∧ hexValue c = none := by
  unfold percentEncodeOctet
  split
  · exact ⟨_, _, rfl, by decide⟩
  · exact ⟨b, [], rfl, hb⟩

theorem percentEncode_cons (b : UInt8) (rest : Bytes) :
    percentEncode (b :: rest) = percentEncodeOctet b ++ percentEncode rest := rfl

theorem escaped_encode (octets : Bytes) : escaped (percentEncode octets) = escaped octets := by
  cases octets with
  | nil => rfl
  | cons high rest =>
    cases hhigh : hexValue high with
    | none =>
      obtain ⟨c, tail, hencode, hc⟩ := percentEncodeOctet_eq_cons hhigh
      rw [escaped_eq_none hhigh, percentEncode_cons, hencode]
      exact escaped_eq_none hc _
    | some value =>
      rw [percentEncode_cons, percentEncodeOctet_of_hexValue high (by simp [hhigh])]
      cases rest with
      | nil => rfl
      | cons low rest =>
        cases hlow : hexValue low with
        | none =>
          obtain ⟨c, tail, hencode, hc⟩ := percentEncodeOctet_eq_cons hlow
          rw [percentEncode_cons, hencode]
          simp [escaped, hc, hlow]
        | some _ =>
          rw [percentEncode_cons, percentEncodeOctet_of_hexValue low (by simp [hlow])]
          rfl

/-- The two digits of an escape are left as they are. -/
theorem percentEncode_drop_two {octets : Bytes} {value : UInt8} (h : escaped octets = some value) :
    (percentEncode octets).drop 2 = percentEncode (octets.drop 2) := by
  rcases octets with _ | ⟨high, _ | ⟨low, rest⟩⟩
  · rfl
  · simp [escaped] at h
  · have hhigh : hexValue high ≠ none := fun hnone => by simp [escaped, hnone] at h
    have hlow : hexValue low ≠ none := fun hnone => by simp [escaped, hnone] at h
    rw [percentEncode_cons, percentEncode_cons, percentEncodeOctet_of_hexValue high hhigh,
      percentEncodeOctet_of_hexValue low hlow]
    rfl

/-- What is encoded decodes to the same as what was there before. -/
theorem percentDecode_encode (octets : Bytes) :
    percentDecode (percentEncode octets) = percentDecode octets := by
  induction hlength : octets.length using Nat.strong_induction_on generalizing octets with
  | _ length ih =>
    subst hlength
    cases octets with
    | nil => rfl
    | cons b rest =>
      have hrest := ih rest.length (by simp) rest rfl
      rw [percentEncode_cons]
      by_cases hset : inPathSet b = true
      · have hb : b ≠ percent := by
          rintro rfl
          revert hset
          decide
        rw [percentDecode_encodeOctet hset, percentDecode_of_ne hb, hrest]
      · rw [percentEncodeOctet, if_neg hset, List.singleton_append, percentDecode_cons,
          percentDecode_cons, escaped_encode, hrest]
        cases hescaped : escaped rest with
        | none => rfl
        | some value =>
          -- The escape is untouched, so the rest behind it is shorter.
          rw [percentEncode_drop_two hescaped, ih _ _ (rest.drop 2) rfl]
          rw [List.length_drop, List.length_cons]
          omega

/-! ## Parsing -/

def slash : UInt8 := 0x2F

/-- Slashes and backslashes separate segments. -/
def isSlash (b : UInt8) : Bool := b == slash || b == 0x5C

/-- A query or a fragment starts here. -/
def endsPath (b : UInt8) : Bool := b == 0x3F || b == 0x23

def isTabOrNewline (b : UInt8) : Bool := b == 0x09 || b == lf || b == cr

def isSingleDot (segment : Bytes) : Bool :=
  segment.map toAsciiLowercase ∈ [ascii ".", ascii "%2e"]

def isDoubleDot (segment : Bytes) : Bool :=
  segment.map toAsciiLowercase ∈ [ascii "..", ascii ".%2e", ascii "%2e.", ascii "%2e%2e"]

/-- A dot segment at the end leaves an empty segment. -/
def ending (last : Bool) : List Bytes := if last then [[]] else []

/-- The path with one more segment. -/
def push (path : List Bytes) (segment : Bytes) (last : Bool) : List Bytes :=
  if isDoubleDot segment then path.dropLast ++ ending last
  else if isSingleDot segment then path ++ ending last
  else path ++ [percentEncode segment]

/-- The path so far with the segments that remain. -/
def resolve : List Bytes → List Bytes → List Bytes
  | path, [] => path
  | path, segment :: rest => resolve (push path segment rest.isEmpty) rest

/-- The scheme, which tells whether the connection is secure, and what follows. -/
def scheme (input : Bytes) : Option (Bool × Bytes) :=
  if (input.take 6).map toAsciiLowercase = ascii "https:" then some (true, input.drop 6)
  else if (input.take 5).map toAsciiLowercase = ascii "http:" then some (false, input.drop 5)
  else none

/-- Drop control characters and spaces at both ends. -/
def stripControls (input : Bytes) : Bytes :=
  (input.dropWhile (· ≤ sp)).rdropWhile (· ≤ sp)

def pathSegments (text : Bytes) : List Bytes :=
  ((text.takeWhile (!endsPath ·)).drop 1).splitOnP isSlash

def parse (input : Bytes) : Option Url :=
  match scheme ((stripControls input).filter (!isTabOrNewline ·)) with
  | none => none
  | some (secure, rest) =>
      let rest := rest.dropWhile isSlash
      let authority := rest.takeWhile fun b => !(isSlash b || endsPath b)
      if authority = [] then none
      else some ⟨secure, authority, resolve [] (pathSegments (rest.drop authority.length))⟩

/-! ## Segments that are kept -/

/-- Octets that separate segments, end the path or are dropped. -/
def isReserved (b : UInt8) : Bool := isSlash b || endsPath b || isTabOrNewline b

/-- A segment that stands for itself in a path. -/
structure Verbatim (segment : Bytes) : Prop where
  free : ∀ b ∈ segment, isReserved b = false
  plain : hasEscape segment = false
  ne_dot : segment ≠ ascii "."
  ne_dots : segment ≠ ascii ".."

instance (segment : Bytes) : Decidable (Verbatim segment) :=
  decidable_of_iff (segment.all (isReserved · = false) = true ∧ hasEscape segment = false ∧
      segment ≠ ascii "." ∧ segment ≠ ascii "..")
    ⟨fun ⟨hfree, hplain, hdot, hdots⟩ => ⟨forall_mem_of_all hfree, hplain, hdot, hdots⟩,
      fun ⟨hfree, hplain, hdot, hdots⟩ => ⟨all_of_forall_mem hfree, hplain, hdot, hdots⟩⟩

/-- The segments as they are written in a path. -/
def written (segments : List Bytes) : Bytes := segments.flatMap (slash :: ·)

/-- An absolute URL without dot segments, query or fragment. -/
structure Base where
  secure : Bool
  authority : Bytes
  segments : List Bytes
  authority_ne : authority ≠ []
  authority_free : ∀ b ∈ authority, isReserved b = false
  segments_verbatim : ∀ segment ∈ segments, Verbatim segment

namespace Base

def schemeText (base : Base) : Bytes := ascii (if base.secure then "https://" else "http://")

def text (base : Base) : Bytes := base.schemeText ++ base.authority ++ written base.segments

/-- The base with more segments. -/
def extend (base : Base) (segments : List Bytes) (h : ∀ segment ∈ segments, Verbatim segment) :
    Base where
  secure := base.secure
  authority := base.authority
  segments := base.segments ++ segments
  authority_ne := base.authority_ne
  authority_free := base.authority_free
  segments_verbatim segment hsegment :=
    (List.mem_append.mp hsegment).elim (base.segments_verbatim segment) (h segment)

end Base

theorem toAsciiLowercase_eq_percent :
    ∀ b : UInt8, (toAsciiLowercase b == percent) = (b == percent) := by
  apply forall_octet
  decide +kernel

theorem hexValue_toAsciiLowercase :
    ∀ b : UInt8, hexValue (toAsciiLowercase b) = hexValue b := by
  apply forall_octet
  decide +kernel

theorem toAsciiLowercase_eq_dot : ∀ b : UInt8, toAsciiLowercase b = 0x2E → b = 0x2E := by
  apply forall_octet
  decide +kernel

/-- Escapes do not depend on the case of their digits. -/
theorem hasEscape_map_toAsciiLowercase (octets : Bytes) :
    hasEscape (octets.map toAsciiLowercase) = hasEscape octets := by
  induction octets with
  | nil => rfl
  | cons b rest ih =>
      have hescaped : escaped (rest.map toAsciiLowercase) = escaped rest := by
        rcases rest with _ | ⟨high, _ | ⟨low, rest⟩⟩
        · rfl
        · rfl
        · simp [escaped, hexValue_toAsciiLowercase]
      rw [List.map_cons, hasEscape, hasEscape, ih, hescaped, toAsciiLowercase_eq_percent]

/-- Without an escape, what looks like dots in some case is just dots. -/
theorem eq_of_map_toAsciiLowercase {segment dots : Bytes} (hdots : ∀ b ∈ dots, b = 0x2E)
    (h : segment.map toAsciiLowercase = dots) : segment = dots := by
  induction segment generalizing dots with
  | nil => exact h
  | cons b rest ih =>
      subst h
      have hb := hdots (toAsciiLowercase b) (by simp)
      have hrest := @ih (rest.map toAsciiLowercase) (fun c hc => hdots c (by simp [hc])) rfl
      rw [List.map_cons, ← hrest, hb, toAsciiLowercase_eq_dot b hb]

theorem not_dot {segment : Bytes} (hplain : hasEscape segment = false)
    (hdot : segment ≠ ascii ".") (hdots : segment ≠ ascii "..") :
    isSingleDot segment = false ∧ isDoubleDot segment = false := by
  rw [← hasEscape_map_toAsciiLowercase] at hplain
  have hone : segment.map toAsciiLowercase ≠ ascii "." :=
    fun h => hdot (eq_of_map_toAsciiLowercase (forall_mem_of_all (by decide)) h)
  have htwo : segment.map toAsciiLowercase ≠ ascii ".." :=
    fun h => hdots (eq_of_map_toAsciiLowercase (forall_mem_of_all (by decide)) h)
  have hescape : ∀ dots : Bytes, hasEscape dots = true → segment.map toAsciiLowercase ≠ dots := by
    rintro dots hescape rfl
    simp [hescape] at hplain
  constructor
  · simp [isSingleDot, hone, hescape (ascii "%2e") (by decide)]
  · simp [isDoubleDot, htwo, hescape (ascii ".%2e") (by decide),
      hescape (ascii "%2e.") (by decide), hescape (ascii "%2e%2e") (by decide)]

theorem resolve_verbatim {segments : List Bytes} (h : ∀ segment ∈ segments, Verbatim segment)
    (path : List Bytes) : resolve path segments = path ++ segments.map percentEncode := by
  induction segments generalizing path with
  | nil => simp [resolve]
  | cons segment rest ih =>
      have hsegment := h segment List.mem_cons_self
      obtain ⟨hone, htwo⟩ := not_dot hsegment.plain hsegment.ne_dot hsegment.ne_dots
      rw [resolve, push, if_neg (by simp [htwo]), if_neg (by simp [hone]),
        ih fun other hother => h other (List.mem_cons_of_mem _ hother)]
      simp

/-- The segment is no dot segment, and this is its encoding. -/
def Encodes (m segment : Bytes) : Prop :=
  isSingleDot segment = false ∧ isDoubleDot segment = false ∧ m = percentEncode segment

theorem mem_push {path : List Bytes} {segment m : Bytes} {last : Bool}
    (h : m ∈ push path segment last) : m ∈ path ∨ m = [] ∨ Encodes m segment := by
  have hending : m ∈ ending last → m = [] := by
    unfold ending
    split
    · exact List.mem_singleton.mp
    · exact fun hm => absurd hm List.not_mem_nil
  unfold push at h
  split at h
  next =>
    rcases List.mem_append.mp h with hm | hm
    · exact .inl (List.dropLast_subset _ hm)
    · exact .inr (.inl (hending hm))
  next hdouble =>
    split at h
    next =>
      rcases List.mem_append.mp h with hm | hm
      · exact .inl hm
      · exact .inr (.inl (hending hm))
    next hsingle =>
      rcases List.mem_append.mp h with hm | hm
      · exact .inl hm
      · exact .inr (.inr ⟨by simpa using hsingle, by simpa using hdouble, List.mem_singleton.mp hm⟩)

/-- What a resolved path consists of, besides empty segments. -/
theorem mem_resolve {path segments : List Bytes} {m : Bytes} (h : m ∈ resolve path segments) :
    m ∈ path ∨ m = [] ∨ ∃ segment ∈ segments, Encodes m segment := by
  induction segments generalizing path with
  | nil => exact .inl h
  | cons segment rest ih =>
      rcases ih h with hm | hm | ⟨other, hother, hencodes⟩
      · rcases mem_push hm with hm | hm | hencodes
        · exact .inl hm
        · exact .inr (.inl hm)
        · exact .inr (.inr ⟨segment, List.mem_cons_self, hencodes⟩)
      · exact .inr (.inl hm)
      · exact .inr (.inr ⟨other, List.mem_cons_of_mem _ hother, hencodes⟩)

/-! ## The path of a text -/

theorem splitOnP_written {segments : List Bytes} (hne : segments ≠ []) :
    ((written segments).drop 1).splitOnP isSlash = segments.flatMap (·.splitOnP isSlash) := by
  induction segments with
  | nil => exact absurd rfl hne
  | cons segment rest ih =>
      cases rest with
      | nil => simp [written]
      | cons next rest =>
          have hrest := ih (by simp)
          rw [List.flatMap_cons, ← hrest]
          exact List.splitOnP_append_cons segment _ (by decide)

theorem Verbatim.splitOnP {segment : Bytes} (h : Verbatim segment) :
    segment.splitOnP isSlash = [segment] := by
  apply List.splitOnP_eq_singleton
  intro b hb
  have hfree := h.free b hb
  rw [isReserved, Bool.or_eq_false_iff, Bool.or_eq_false_iff] at hfree
  exact hfree.1.1

theorem flatMap_splitOnP {segments : List Bytes} (h : ∀ segment ∈ segments, Verbatim segment) :
    segments.flatMap (·.splitOnP isSlash) = segments := by
  induction segments with
  | nil => rfl
  | cons segment rest ih =>
      rw [List.flatMap_cons, (h segment List.mem_cons_self).splitOnP,
        ih fun other hother => h other (List.mem_cons_of_mem _ hother), List.singleton_append]

theorem not_endsPath_written {segments : List Bytes}
    (h : ∀ segment ∈ segments, Verbatim segment) : ∀ b ∈ written segments, endsPath b = false := by
  intro b hb
  obtain ⟨segment, hsegment, hmem⟩ := List.mem_flatMap.mp hb
  rcases List.mem_cons.mp hmem with rfl | hmem
  · rfl
  · have hfree := (h segment hsegment).free b hmem
    rw [isReserved, Bool.or_eq_false_iff, Bool.or_eq_false_iff] at hfree
    exact hfree.1.2

theorem pathSegments_verbatim {segments : List Bytes} (hne : segments ≠ [])
    (h : ∀ segment ∈ segments, Verbatim segment) : pathSegments (written segments) = segments := by
  have hall : (written segments).takeWhile (!endsPath ·) = written segments :=
    List.takeWhile_eq_self_iff.mpr fun b hb => by simp [not_endsPath_written h b hb]
  rw [pathSegments, hall, splitOnP_written hne, flatMap_splitOnP h]

/-- Pieces between separators are parts of the whole without separators. -/
theorem mem_splitOnP {p : UInt8 → Bool} {octets piece : Bytes} (h : piece ∈ octets.splitOnP p) :
    piece.Sublist octets ∧ ∀ b ∈ piece, p b = false := by
  induction octets generalizing piece with
  | nil => simp_all
  | cons b rest ih =>
      rw [List.splitOnP_cons_eq_if_modifyHead] at h
      split at h
      next =>
        rcases List.mem_cons.mp h with rfl | h
        · exact ⟨List.nil_sublist _, by simp⟩
        · exact ⟨(ih h).1.cons b, (ih h).2⟩
      next hb =>
        cases hsplit : rest.splitOnP p with
        | nil => exact absurd hsplit (List.splitOnP_ne_nil p rest)
        | cons first others =>
            rw [hsplit] at ih h
            rcases List.mem_cons.mp h with rfl | h
            · obtain ⟨hsublist, hfree⟩ := ih List.mem_cons_self
              refine ⟨hsublist.cons_cons b, fun c hc => ?_⟩
              rcases List.mem_cons.mp hc with rfl | hc
              · simpa using hb
              · exact hfree c hc
            · obtain ⟨hsublist, hfree⟩ := ih (List.mem_cons_of_mem _ h)
              exact ⟨hsublist.cons b, hfree⟩

/-- Around one arbitrary segment, pieces of the path are other segments, or parts
of that one. -/
theorem mem_pathSegments {before after : List Bytes} {middle piece : Bytes}
    (hbefore : ∀ segment ∈ before, Verbatim segment)
    (hafter : ∀ segment ∈ after, Verbatim segment)
    (h : piece ∈ pathSegments (written (before ++ middle :: after))) :
    piece ∈ before ∨ piece ∈ after ∨
      piece.Sublist middle ∧ ∀ b ∈ piece, isSlash b = false ∧ endsPath b = false := by
  have hstart : ∀ b ∈ written before ++ [slash], (!endsPath b) = true := by
    intro b hb
    rcases List.mem_append.mp hb with hb | hb
    · simp [not_endsPath_written hbefore b hb]
    · rw [List.mem_singleton.mp hb]
      rfl
  have hverbatim : ∀ segments : List Bytes, (before ++ segments).flatMap (·.splitOnP isSlash) =
      before ++ segments.flatMap (·.splitOnP isSlash) := by
    intro segments
    rw [List.flatMap_append, flatMap_splitOnP hbefore]
  have hpart : piece ∈ (middle.takeWhile (!endsPath ·)).splitOnP isSlash →
      piece.Sublist middle ∧ ∀ b ∈ piece, isSlash b = false ∧ endsPath b = false := by
    intro hpiece
    obtain ⟨hsublist, hfree⟩ := mem_splitOnP hpiece
    refine ⟨hsublist.trans (List.takeWhile_sublist _), fun b hb => ⟨hfree b hb, ?_⟩⟩
    simpa using List.mem_takeWhile_imp (hsublist.subset hb)
  have hwritten : ∀ segment rest, written (before ++ segment :: rest) =
      (written before ++ [slash]) ++ (segment ++ written rest) := by
    simp [written]
  rw [pathSegments, hwritten, List.takeWhile_append_of_pos hstart, List.takeWhile_append] at h
  split at h
  next hlength =>
    -- The path goes on behind the segment.
    have hall : middle.takeWhile (!endsPath ·) = middle :=
      (List.takeWhile_prefix _).eq_of_length hlength
    have hrest : (written after).takeWhile (!endsPath ·) = written after :=
      List.takeWhile_eq_self_iff.mpr fun b hb => by simp [not_endsPath_written hafter b hb]
    rw [hrest, ← hwritten, splitOnP_written (by simp), hverbatim, List.flatMap_cons,
      flatMap_splitOnP hafter, List.mem_append, List.mem_append] at h
    rcases h with hpiece | hpiece | hpiece
    · exact .inl hpiece
    · exact .inr (.inr (hpart (by rwa [hall])))
    · exact .inr (.inl hpiece)
  next =>
    -- The path ends within it.
    have hcut := hwritten (middle.takeWhile (!endsPath ·)) []
    rw [show written [] = [] from rfl, List.append_nil] at hcut
    rw [← hcut, splitOnP_written (by simp), hverbatim, List.flatMap_singleton,
      List.mem_append] at h
    exact h.imp_right fun hpiece => .inr (hpart hpiece)

/-! ## URLs below a base -/

theorem Base.schemeText_free (base : Base) :
    ∀ b ∈ base.schemeText, isTabOrNewline b = false := by
  unfold Base.schemeText
  split <;> exact forall_mem_of_all (by decide)

theorem Base.scheme_append (base : Base) (rest : Bytes) :
    scheme (base.schemeText ++ rest) = some (base.secure, slash :: slash :: rest) := by
  unfold Base.schemeText scheme
  cases base.secure <;> rfl

theorem not_tab_of_free {b : UInt8} (h : isReserved b = false) :
    isTabOrNewline b = false ∧ (isSlash b || endsPath b) = false := by
  rw [isReserved, Bool.or_eq_false_iff] at h
  exact ⟨h.2, h.1⟩

theorem written_free {segments : List Bytes} (h : ∀ segment ∈ segments, Verbatim segment) :
    ∀ b ∈ written segments, isTabOrNewline b = false := by
  intro b hb
  obtain ⟨segment, hsegment, hmem⟩ := List.mem_flatMap.mp hb
  rcases List.mem_cons.mp hmem with rfl | hmem
  · rfl
  · exact (not_tab_of_free ((h segment hsegment).free b hmem)).1

theorem Base.text_free (base : Base) : ∀ b ∈ base.text, isTabOrNewline b = false := by
  intro b hb
  rw [Base.text, List.append_assoc, List.mem_append, List.mem_append] at hb
  rcases hb with hb | hb | hb
  · exact base.schemeText_free b hb
  · exact (not_tab_of_free (base.authority_free b hb)).1
  · exact written_free base.segments_verbatim b hb

theorem stripControls_eq_self {input : Bytes} (hhead : ∀ b ∈ input.head?, sp < b)
    (hlast : ∀ b ∈ input.getLast?, sp < b) : stripControls input = input := by
  rw [stripControls, dropWhile_of_head fun b hb => by simpa using hhead b hb,
    rdropWhile_of_last fun b hb => by simpa using hlast b hb]

theorem Base.head_text (base : Base) (tail : Bytes) :
    ∀ b ∈ (base.text ++ tail).head?, sp < b := by
  intro b hb
  have hhead : b = 0x68 := by
    revert hb
    unfold Base.text Base.schemeText
    cases base.secure <;> exact fun hb => (Option.some.inj hb).symm
  rw [hhead]
  decide

/-- The path of a URL below a base is that of the base, and what follows. -/
theorem Base.parse_append (base : Base) {tail : Bytes}
    (hlast : ∀ b ∈ (slash :: tail).getLast?, sp < b) :
    parse (base.text ++ slash :: tail) = some ⟨base.secure, base.authority,
      resolve [] (pathSegments (written base.segments ++
        slash :: tail.filter (!isTabOrNewline ·)))⟩ := by
  have hstrip : stripControls (base.text ++ slash :: tail) = base.text ++ slash :: tail :=
    stripControls_eq_self (base.head_text _) (by simpa using hlast)
  have hfilter : (base.text ++ slash :: tail).filter (!isTabOrNewline ·) =
      base.text ++ slash :: tail.filter (!isTabOrNewline ·) := by
    rw [List.filter_append, List.filter_cons_of_pos (by decide)]
    congr 1
    exact List.filter_eq_self.mpr fun b hb => by simp [base.text_free b hb]
  obtain ⟨rest, hrest⟩ : ∃ rest, written base.segments ++
      slash :: tail.filter (!isTabOrNewline ·) = slash :: rest := by
    cases hsegments : base.segments with
    | nil => exact ⟨_, rfl⟩
    | cons segment others => exact ⟨_, rfl⟩
  have hauthority : ∀ b ∈ base.authority, (!(isSlash b || endsPath b)) = true := by
    intro b hb
    simp [not_tab_of_free (base.authority_free b hb)]
  rw [parse, hstrip, hfilter, Base.text, List.append_assoc, List.append_assoc, hrest,
    base.scheme_append]
  -- Behind the scheme, slashes are skipped up to the authority.
  have hskip : (slash :: slash :: (base.authority ++ slash :: rest)).dropWhile isSlash =
      base.authority ++ slash :: rest := by
    rw [List.dropWhile_cons_of_pos (by decide), List.dropWhile_cons_of_pos (by decide)]
    apply dropWhile_of_head
    intro b hb
    rw [List.head?_append_of_ne_nil _ base.authority_ne] at hb
    have hfree := (not_tab_of_free (base.authority_free b (List.mem_of_mem_head? hb))).2
    exact (Bool.or_eq_false_iff.mp hfree).1
  have htake : (base.authority ++ slash :: rest).takeWhile (fun b => !(isSlash b || endsPath b)) =
      base.authority := by
    rw [List.takeWhile_append_of_pos hauthority, List.takeWhile_cons_of_neg (by decide),
      List.append_nil]
  simp only [hskip, htake, if_neg base.authority_ne, List.drop_left]

/-- A segment of a path that decodes to the one arbitrary segment it was made
from: then that one was verbatim. -/
theorem verbatim_of_mem_resolve {before after : List Bytes} {segment m : Bytes}
    (hbefore : ∀ other ∈ before, Verbatim other) (hafter : ∀ other ∈ after, Verbatim other)
    (hm : m ∈ resolve [] (pathSegments
      (written (before ++ segment.filter (!isTabOrNewline ·) :: after))))
    (hdecode : percentDecode m = segment) : Verbatim segment := by
  have hother : ∀ piece, Verbatim piece → m = percentEncode piece → Verbatim segment := by
    rintro piece hpiece rfl
    rw [percentDecode_encode, percentDecode_eq_self hpiece.plain] at hdecode
    exact hdecode ▸ hpiece
  rcases mem_resolve hm with hm | rfl | ⟨piece, hpiece, hone, htwo, rfl⟩
  · exact absurd hm List.not_mem_nil
  · rw [← hdecode]
    decide
  rcases mem_pathSegments hbefore hafter hpiece with hpiece | hpiece | ⟨hsublist, hfree⟩
  · exact hother piece (hbefore piece hpiece) rfl
  · exact hother piece (hafter piece hpiece) rfl
  -- The piece cannot be shorter than what it decodes to, so it is all of the segment.
  rw [percentDecode_encode] at hdecode
  obtain ⟨hle, hplain⟩ := percentDecode_length piece
  rw [hdecode] at hle hplain
  have hall : piece = segment :=
    (hsublist.trans List.filter_sublist).eq_of_length_le hle
  subst hall
  refine ⟨fun b hb => ?_, hplain rfl, ?_, ?_⟩
  · have hclean := List.of_mem_filter (hsublist.subset hb)
    rw [isReserved, (hfree b hb).1, (hfree b hb).2]
    simpa using hclean
  · rintro rfl
    exact absurd hone (by decide)
  · rintro rfl
    exact absurd htwo (by decide)

/-- Below a base and before other verbatim segments, a segment of a URL means
its own text exactly if it is verbatim. -/
theorem Base.segment_iff (base : Base) (segment : Bytes) {after : List Bytes}
    (hafter : ∀ other ∈ after, Verbatim other)
    (hlast : ∀ b ∈ (slash :: (segment ++ written after)).getLast?, sp < b) :
    (∃ m, parse (base.text ++ written (segment :: after)) = some ⟨base.secure, base.authority,
        base.segments.map percentEncode ++ m :: after.map percentEncode⟩ ∧
      percentDecode m = segment) ↔ Verbatim segment := by
  have hafterFilter : (written after).filter (!isTabOrNewline ·) = written after :=
    List.filter_eq_self.mpr fun b hb => by simp [written_free hafter b hb]
  have hparse := base.parse_append hlast
  rw [List.filter_append, hafterFilter] at hparse
  have hwritten : ∀ middle : Bytes, written base.segments ++ slash :: (middle ++ written after) =
      written (base.segments ++ middle :: after) := by
    simp [written]
  rw [hwritten] at hparse
  constructor
  · rintro ⟨m, hm, hdecode⟩
    have hpath := congrArg Url.path (Option.some.inj (hparse.symm.trans hm))
    refine verbatim_of_mem_resolve base.segments_verbatim hafter ?_ hdecode
    have hmem := List.mem_append_right (base.segments.map percentEncode)
      (@List.mem_cons_self _ m (after.map percentEncode))
    exact Eq.mpr (congrArg (m ∈ ·) hpath) hmem
  · intro hsegment
    have hclean : segment.filter (!isTabOrNewline ·) = segment :=
      List.filter_eq_self.mpr fun b hb => by simp [(not_tab_of_free (hsegment.free b hb)).1]
    have hall : ∀ other ∈ base.segments ++ segment :: after, Verbatim other := by
      intro other hother
      rcases List.mem_append.mp hother with hother | hother
      · exact base.segments_verbatim other hother
      · rcases List.mem_cons.mp hother with rfl | hother
        · exact hsegment
        · exact hafter other hother
    refine ⟨percentEncode segment, ?_, ?_⟩
    · rw [hclean, pathSegments_verbatim (by simp) hall, resolve_verbatim hall, List.nil_append,
        List.map_append, List.map_cons] at hparse
      exact hparse
    · rw [percentDecode_encode, percentDecode_eq_self hsegment.plain]

end Url

end Foundation
