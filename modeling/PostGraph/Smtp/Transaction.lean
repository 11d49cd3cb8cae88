import PostGraph.Smtp.EndOfData

/-! # Transactions

A client writes a message as address commands, DATA, its body with a dot before
each line that starts with one, and a final dot. The parser and the session's
unstuffing undo this, line by line.
-/

namespace PostGraph.Smtp

open Foundation Foundation.Framing

/-! ## What the parser makes of a client's lines -/

theorem lf_notMem_encode {t : Text} (ht : '\n' ∉ t) : lf ∉ Utf8.encode t :=
  fun hmem => ht (Utf8.mem_encode_ascii hmem (by decide))

theorem getLast?_encode_cr {t : Text} (h : (Utf8.encode t).getLast? = some cr) :
    ∃ shorter, t = shorter ++ ['\r'] ∧ Utf8.encode t = Utf8.encode shorter ++ [cr] := by
  rcases t.eq_nil_or_concat with rfl | ⟨shorter, c, rfl⟩
  · cases h
  · have hlast : Utf8.encode [c] = String.utf8EncodeChar c := by simp [Utf8.encode]
    rw [List.concat_eq_append, Utf8.encode_append, hlast,
      List.getLast?_append_of_ne_nil _ (by simp)] at h
    obtain ⟨hencode, hchar⟩ := Utf8.utf8EncodeChar_ascii (List.mem_of_getLast? h) (by decide)
    refine ⟨shorter, ?_, ?_⟩
    · rw [List.concat_eq_append, hchar]
      rfl
    · rw [List.concat_eq_append, Utf8.encode_append, hlast, hencode]

/-- The ending of a line, and a CR that the text itself ends with, do not matter
to a trimmed text. -/
theorem stripLineEnding_text {start ending : Bytes} (hstart : cr ∉ start) (t : Text)
    (hending : ending = [cr, lf] ∨ ending = [lf]) :
    ∃ t', stripLineEnding (start ++ Utf8.encode t ++ ending) = start ++ Utf8.encode t' ∧
      trim t' = trim t := by
  rcases hending with rfl | rfl
  · exact ⟨t, stripLineEnding_crlf _, rfl⟩
  · by_cases hcr : (start ++ Utf8.encode t).getLast? = some cr
    · have hne : Utf8.encode t ≠ [] := by
        intro hnil
        rw [hnil, List.append_nil] at hcr
        exact hstart (List.mem_of_getLast? hcr)
      rw [List.getLast?_append_of_ne_nil _ hne] at hcr
      obtain ⟨shorter, rfl, hencode⟩ := getLast?_encode_cr hcr
      refine ⟨shorter, ?_, (trim_concat rfl).symm⟩
      have hcrlf : start ++ (Utf8.encode shorter ++ [cr]) ++ [lf] =
          start ++ Utf8.encode shorter ++ [cr, lf] := by simp
      rw [hencode, hcrlf, stripLineEnding_crlf]
    · exact ⟨t, stripLineEnding_lf hcr, rfl⟩

/-- A command with an address, as a client may write it: the words in any case,
white space around the address, and the address in angle brackets or bare. Bare
it must not look bracketed. -/
structure AddressLine (verb keyword : String) where
  address : Text
  verbOctets : Bytes
  keywordOctets : Bytes
  before : Text
  after : Text
  bracketed : Bool
  ending : Bytes
  verb_eq : SameIgnoringCase verbOctets verb
  keyword_eq : SameIgnoringCase keywordOctets keyword
  before_blank : ∀ c ∈ before, isWhitespace c = true ∧ c ≠ '\n'
  after_blank : ∀ c ∈ after, isWhitespace c = true ∧ c ≠ '\n'
  address_lf : '\n' ∉ address
  address_trimmed : Trimmed address
  address_bare : bracketed = false → address.head? ≠ some '<' ∧ address.getLast? ≠ some '>'
  ending_eq : ending = [cr, lf] ∨ ending = [lf]

namespace AddressLine

variable {verb keyword : String} (line : AddressLine verb keyword)

/-- The address, with its brackets if it has them. -/
def written : Text := if line.bracketed then '<' :: (line.address ++ ['>']) else line.address

def octets : Bytes :=
  line.verbOctets ++ sp :: line.keywordOctets ++
    Utf8.encode (line.before ++ line.written ++ line.after) ++ line.ending

theorem isLine_octets (hverb : Plain verb) (hkeyword : Plain keyword) : IsLine line.octets := by
  have htext : '\n' ∉ line.before ++ line.written ++ line.after := by
    have hwritten : '\n' ∉ line.written := by
      unfold written
      split <;> simp [line.address_lf]
    simp only [List.mem_append, not_or]
    exact ⟨⟨fun h => (line.before_blank _ h).2 rfl, hwritten⟩,
      fun h => (line.after_blank _ h).2 rfl⟩
  have hwords : lf ∉ line.verbOctets ++ sp :: line.keywordOctets := by
    simp only [List.mem_append, List.mem_cons, not_or]
    exact ⟨line.verb_eq.notMem hverb (by decide), by decide,
      line.keyword_eq.notMem hkeyword (by decide)⟩
  have hopen : lf ∉ line.verbOctets ++ sp :: line.keywordOctets ++
      Utf8.encode (line.before ++ line.written ++ line.after) := by
    rw [List.mem_append, not_or]
    exact ⟨hwords, lf_notMem_encode htext⟩
  exact isLine_append hopen line.ending_eq

theorem trimmed_written : Trimmed line.written := by
  unfold written
  split
  · exact ⟨by simp [isWhitespace], by
      rw [← List.cons_append, List.getLast?_concat]
      simp [isWhitespace]⟩
  · exact line.address_trimmed

/-- Trimming and normalising undo how the address was written. -/
theorem normalizeAddress_written : Mail.normalizeAddress line.written = line.address := by
  rw [Mail.normalizeAddress, trim_eq_self line.trimmed_written]
  cases hbracketed : line.bracketed with
  | true =>
      have hstart : ('<' :: (line.address ++ ['>'])).dropPrefix? ['<'] =
          some (line.address ++ ['>']) := by simp [List.dropPrefix?]
      simp only [written, hbracketed, if_true, hstart, Option.getD_some, dropSuffix?_append]
      exact trim_eq_self line.address_trimmed
  | false =>
      obtain ⟨hhead, hlast⟩ := line.address_bare hbracketed
      have hstart : line.address.dropPrefix? ['<'] = none := by
        cases haddress : line.address with
        | nil => rfl
        | cons c rest =>
            have hc : c ≠ '<' := by simpa [haddress] using hhead
            simp [List.dropPrefix?, hc]
      have hend : line.address.dropSuffix? ['>'] = none := by
        refine dropSuffix?_eq_none ?_
        rintro ⟨before, hbefore⟩
        exact hlast (by rw [← hbefore, List.getLast?_concat])
      simp only [written, hbracketed, Bool.false_eq_true, if_false, hstart, Option.getD_none, hend]
      exact trim_eq_self line.address_trimmed

/-- The parser splits the line into the verb, the keyword and the address as
written, except for white space around it. -/
theorem split_octets (hverb : Plain verb) (hkeyword : Plain keyword) :
    ∃ t, splitNoneOrOnce (stripLineEnding line.octets) sp =
        (line.verbOctets, some (line.keywordOctets ++ Utf8.encode t)) ∧
      trim t = line.written := by
  have hcr : cr ∉ line.verbOctets ++ sp :: line.keywordOctets := by
    simp only [List.mem_append, List.mem_cons, not_or]
    exact ⟨line.verb_eq.notMem hverb (by decide), by decide,
      line.keyword_eq.notMem hkeyword (by decide)⟩
  obtain ⟨t, hstrip, htrim⟩ := stripLineEnding_text hcr
    (line.before ++ line.written ++ line.after) line.ending_eq
  refine ⟨t, ?_, ?_⟩
  · rw [octets, hstrip, List.append_assoc, List.cons_append]
    exact splitNoneOrOnce_append (line.verb_eq.notMem hverb (by decide))
  · rw [htrim]
    exact trim_surround (fun c hc => (line.before_blank c hc).1)
      (fun c hc => (line.after_blank c hc).1) line.trimmed_written

end AddressLine

theorem Command.parseWords_mail (argument : Option Bytes) :
    parseWords (ascii "MAIL") argument = withAddress argument "FROM:" "MAIL requires FROM" mail :=
  rfl

theorem Command.parseWords_recipient (argument : Option Bytes) :
    parseWords (ascii "RCPT") argument = withAddress argument "TO:" "RCPT requires TO" recipient :=
  rfl

theorem parse_mail_split {input verb keyword : Bytes} {t : Text}
    (hsplit : splitNoneOrOnce (stripLineEnding input) sp =
      (verb, some (keyword ++ Utf8.encode t)))
    (hverb : SameIgnoringCase verb "MAIL") (hkeyword : SameIgnoringCase keyword "FROM:") :
    Command.parse input = .ok (.mail (trim t)) := by
  have hupper : verb.map toAsciiUppercase = ascii "MAIL" := hverb
  rw [Command.parse, hsplit]
  dsimp only
  rw [hupper, Command.parseWords_mail]
  simp only [Command.withAddress, Command.textArgument, Utf8.decodeLossy_encode,
    stripPrefixCaseInsensitive_append _ hkeyword.map_toAsciiLowercase]

theorem parse_mail (line : AddressLine "MAIL" "FROM:") :
    Command.parse line.octets = .ok (.mail line.written) := by
  obtain ⟨t, hsplit, htrim⟩ := line.split_octets (by decide) (by decide)
  rw [parse_mail_split hsplit line.verb_eq line.keyword_eq, htrim]

theorem parse_recipient (line : AddressLine "RCPT" "TO:") :
    Command.parse line.octets = .ok (.recipient line.written) := by
  obtain ⟨t, hsplit, htrim⟩ := line.split_octets (by decide) (by decide)
  have hverb : line.verbOctets.map toAsciiUppercase = ascii "RCPT" := line.verb_eq
  rw [Command.parse, hsplit]
  dsimp only
  rw [hverb, Command.parseWords_recipient]
  simp only [Command.withAddress, Command.textArgument, Utf8.decodeLossy_encode, htrim,
    stripPrefixCaseInsensitive_append _ line.keyword_eq.map_toAsciiLowercase]

theorem parse_data {verb ending : Bytes} (hverb : SameIgnoringCase verb "DATA")
    (hending : ending = [cr, lf] ∨ ending = [lf]) : Command.parse (verb ++ ending) = .ok .data := by
  have hplain : Plain "DATA" := by decide
  have hstrip : stripLineEnding (verb ++ ending) = verb := by
    rcases hending with rfl | rfl
    · exact stripLineEnding_crlf verb
    · exact stripLineEnding_lf fun hlast =>
        hverb.notMem hplain (by decide) (List.mem_of_getLast? hlast)
  have hupper : verb.map toAsciiUppercase = ascii "DATA" := hverb
  rw [Command.parse, hstrip, splitNoneOrOnce_of_notMem (hverb.notMem hplain (by decide))]
  dsimp only
  rw [hupper]
  rfl

/-! ## Messages -/

/-- A line of the body as it is sent. -/
def stuff (line : Bytes) : Bytes := if ascii "." <+: line then ascii "." ++ line else line

/-- A message as a client sends it. -/
structure Submission where
  sender : AddressLine "MAIL" "FROM:"
  recipients : List (AddressLine "RCPT" "TO:")
  dataVerb : Bytes
  dataEnding : Bytes
  body : List Bytes
  dataVerb_eq : SameIgnoringCase dataVerb "DATA"
  dataEnding_eq : dataEnding = [cr, lf] ∨ dataEnding = [lf]
  body_lines : ∀ line ∈ body, IsLine line

namespace Submission

/-- The lines of the message, as they are sent. -/
def lines (message : Submission) : List Bytes :=
  message.sender.octets :: message.recipients.map AddressLine.octets ++
    (message.dataVerb ++ message.dataEnding) :: message.body.map stuff ++ [ascii ".\r\n"]

/-- What the message says. -/
def mail (message : Submission) : Mail where
  sender := message.sender.address
  recipients := message.recipients.map AddressLine.address
  data := message.body.flatten

/-- No line is too long, and neither is the body. -/
structure Fits (message : Submission) (maxMessageSize : Nat) : Prop where
  lines : ∀ line ∈ message.lines, line.length ≤ maxLineLength
  body : message.body.flatten.length ≤ maxMessageSize

end Submission

theorem isLine_stuff {line : Bytes} (hline : IsLine line) : IsLine (stuff line) := by
  obtain ⟨body, hbody, rfl⟩ := hline
  unfold stuff
  split
  · refine ⟨ascii "." ++ body, ?_, by rw [List.append_assoc]⟩
    rw [List.mem_append, not_or]
    exact ⟨by decide, hbody⟩
  · exact ⟨body, hbody, rfl⟩

theorem not_endsData_stuff (line : Bytes) : ¬ EndsData (stuff line) := by
  unfold stuff
  split
  next hdot =>
    obtain ⟨rest, rfl⟩ := hdot
    rintro (h | h) <;> simp [ascii] at h
  next hdot =>
    rintro (rfl | rfl) <;> exact hdot (by decide)

theorem unstuff_stuff (line : Bytes) : Session.unstuff (stuff line) = line := by
  unfold stuff Session.unstuff
  by_cases hdot : ascii "." <+: line
  · obtain ⟨rest, rfl⟩ := hdot
    rw [if_pos (List.prefix_append _ _), if_pos]
    · rfl
    · exact ⟨rest, rfl⟩
  · rw [if_neg hdot, if_neg]
    exact fun hdots => hdot ((by decide : ascii "." <+: ascii "..").trans hdots)

theorem unstuff_map_stuff (body : List Bytes) : (body.map stuff).map Session.unstuff = body := by
  rw [List.map_map]
  exact (List.map_congr_left fun line _ => unstuff_stuff line).trans (List.map_id body)

theorem dataLines_stuff {body : List Bytes} (hbody : ∀ line ∈ body, IsLine line) :
    DataLines (body.map stuff) := by
  intro line hline
  obtain ⟨original, horiginal, rfl⟩ := List.mem_map.mp hline
  exact ⟨isLine_stuff (hbody original horiginal), not_endsData_stuff original⟩

/-- A message with both forms of addresses, and with lines that start with dots. -/
def sampleSubmission : Submission where
  sender :=
    { address := "a@b".toList, verbOctets := ascii "mail", keywordOctets := ascii "From:"
      before := [' '], after := ['\t'], bracketed := false, ending := [lf]
      verb_eq := by decide, keyword_eq := by decide
      before_blank := List.forall_mem_singleton.mpr (by decide)
      after_blank := List.forall_mem_singleton.mpr (by decide)
      address_lf := by decide, address_trimmed := by decide
      address_bare := by decide, ending_eq := by decide }
  recipients :=
    [{ address := "c@d".toList, verbOctets := ascii "RCPT", keywordOctets := ascii "TO:"
       before := [], after := [], bracketed := true, ending := [cr, lf]
       verb_eq := by decide, keyword_eq := by decide
       before_blank := List.forall_mem_nil _, after_blank := List.forall_mem_nil _
       address_lf := by decide, address_trimmed := by decide
       address_bare := by decide, ending_eq := by decide }]
  dataVerb := ascii "DATA"
  dataEnding := [cr, lf]
  body := [ascii ".\r\n", ascii "..\n", ascii "\r\n"]
  dataVerb_eq := by decide
  dataEnding_eq := by decide
  body_lines := by
    intro line hline
    simp only [List.mem_cons, List.not_mem_nil, or_false] at hline
    rcases hline with rfl | rfl | rfl
    · exact ⟨ascii ".\r", by decide, rfl⟩
    · exact ⟨ascii "..", by decide, rfl⟩
    · exact ⟨ascii "\r", by decide, rfl⟩

end PostGraph.Smtp
