import PostGraph.Smtp.Transcript

/-! # Parameters of MAIL

The reply to EHLO offers the extensions SIZE and 8BITMIME, whose clients put
parameters behind the sender's address. The session takes all that follows the
keyword for the address: behind a parameter the closing bracket is not at the
end any more, and it stays with the parameters in the sender.
-/

namespace PostGraph.Smtp

open Foundation Foundation.Framing

theorem isWhitespace_of_isDigit {c : Char} (h : c.isDigit = true) : isWhitespace c = false := by
  have hrange : 48 ≤ c.toNat ∧ c.toNat ≤ 57 := by
    simpa [Char.isDigit, UInt32.le_iff_toNat_le] using h
  simp only [isWhitespace, Bool.or_eq_false_iff, Bool.and_eq_false_iff, decide_eq_false_iff_not,
    beq_eq_false_iff_ne]
  omega

/-- A parameter of an extension that the server offers. -/
inductive Parameter where
  | size (digits : Text) (hdigits : digits ≠ [] ∧ digits.all Char.isDigit = true)
  | body7Bit
  | body8BitMime

namespace Parameter

def text : Parameter → Text
  | size digits _ => "SIZE=".toList ++ digits
  | body7Bit => "BODY=7BIT".toList
  | body8BitMime => "BODY=8BITMIME".toList

/-- The extension that the parameter belongs to. -/
def extension : Parameter → Text
  | size _ _ => "SIZE".toList
  | body7Bit | body8BitMime => "8BITMIME".toList

/-- The reply to EHLO offers the parameter's extension, in every configuration. -/
theorem extension_offered {H : Type} (parameter : Parameter) (supportsTls : Bool)
    (config : SessionConfig H) :
    ∃ feature ∈ Session.features supportsTls config, parameter.extension <+: feature := by
  cases parameter with
  | size digits hdigits =>
      have hprefix : "SIZE".toList <+: "SIZE ".toList := by decide
      exact ⟨_, List.mem_append_right _ (List.mem_singleton_self _),
        hprefix.trans (List.prefix_append _ _)⟩
  | body7Bit | body8BitMime =>
      refine ⟨"8BITMIME".toList, ?_, List.prefix_rfl⟩
      rw [Session.features, List.append_assoc, List.append_assoc]
      exact List.mem_append_left _ (List.mem_singleton_self _)

/-- A parameter is a word that does not end like an address in brackets. -/
theorem text_last (parameter : Parameter) : ∃ front last,
    parameter.text = front ++ [last] ∧ last ≠ '>' ∧ isWhitespace last = false := by
  cases parameter with
  | size digits hdigits =>
      obtain ⟨hne, hall⟩ := hdigits
      obtain ⟨front, last, rfl⟩ := (List.eq_nil_or_concat' digits).resolve_left hne
      have hlast : last.isDigit = true := by
        simp only [List.all_append, List.all_cons, List.all_nil, Bool.and_eq_true] at hall
        exact hall.2.1
      refine ⟨"SIZE=".toList ++ front, last, (List.append_assoc _ _ _).symm, ?_, ?_⟩
      · rintro rfl
        exact absurd hlast (by decide)
      · exact isWhitespace_of_isDigit hlast
  | body7Bit => exact ⟨"BODY=7BI".toList, 'T', by decide, by decide, by decide⟩
  | body8BitMime => exact ⟨"BODY=8BITMIM".toList, 'E', by decide, by decide, by decide⟩

theorem lf_notMem_text (parameter : Parameter) : '\n' ∉ parameter.text := by
  cases parameter with
  | size digits hdigits =>
      intro hmem
      rcases List.mem_append.mp hmem with hmem | hmem
      · exact absurd hmem (by decide)
      · exact absurd (List.all_eq_true.mp hdigits.2 _ hmem) (by decide)
  | body7Bit => decide
  | body8BitMime => decide

end Parameter

/-- A MAIL line whose address is in brackets, with parameters behind it. -/
structure MailLine where
  address : Text
  parameters : List Parameter
  ending : Bytes
  address_plain : ∀ c ∈ address, c ≠ '<' ∧ c ≠ '>' ∧ isWhitespace c = false
  ending_eq : ending = [cr, lf] ∨ ending = [lf]

namespace MailLine

variable (line : MailLine)

/-- The parameters, each behind a space. -/
def tail : Text := line.parameters.flatMap fun parameter => ' ' :: parameter.text

def written : Text := '<' :: (line.address ++ '>' :: line.tail)

def octets : Bytes := ascii "MAIL FROM:" ++ Utf8.encode line.written ++ line.ending

theorem tail_last (h : line.parameters ≠ []) : ∃ front last,
    line.tail = front ++ [last] ∧ last ≠ '>' ∧ isWhitespace last = false := by
  obtain ⟨earlier, parameter, hparameters⟩ :=
    (List.eq_nil_or_concat' line.parameters).resolve_left h
  obtain ⟨front, last, htext, hlast⟩ := parameter.text_last
  refine ⟨(earlier.flatMap fun parameter => ' ' :: parameter.text) ++ ' ' :: front, last, ?_, hlast⟩
  rw [tail, hparameters, List.flatMap_append, List.flatMap_singleton, htext, List.append_assoc,
    List.cons_append]

/-- What starts with an address does not start with white space. -/
theorem head_address (rest : Text) {c : Char}
    (hc : c ∈ (line.address ++ '>' :: rest).head?) : isWhitespace c = false := by
  cases haddress : line.address with
  | nil =>
      rw [haddress] at hc
      cases hc
      decide
  | cons first others =>
      rw [haddress] at hc
      cases hc
      exact (line.address_plain c (haddress ▸ List.mem_cons_self)).2.2

theorem trimmed_address : Trimmed line.address :=
  ⟨fun c hc => (line.address_plain c (List.mem_of_mem_head? hc)).2.2,
    fun c hc => (line.address_plain c (List.mem_of_getLast? hc)).2.2⟩

theorem lf_notMem_address : '\n' ∉ line.address := by
  intro hmem
  exact absurd (line.address_plain _ hmem).2.2 (by decide)

theorem lf_notMem_written : '\n' ∉ line.written := by
  have htail : '\n' ∉ line.tail := by
    intro hmem
    obtain ⟨parameter, -, hmem⟩ := List.mem_flatMap.mp hmem
    rcases List.mem_cons.mp hmem with hspace | hmem
    · exact absurd hspace (by decide)
    · exact parameter.lf_notMem_text hmem
  simp [written, line.lf_notMem_address, htail]

theorem verb_mail : SameIgnoringCase (ascii "MAIL") "MAIL" := by decide

theorem keyword_from : SameIgnoringCase (ascii "FROM:") "FROM:" := by decide

theorem no_blank : ∀ c ∈ ([] : Text), isWhitespace c = true ∧ c ≠ '\n' := List.forall_mem_nil _

/-- The line without its parameters. -/
def bare : AddressLine "MAIL" "FROM:" where
  address := line.address
  verbOctets := ascii "MAIL"
  keywordOctets := ascii "FROM:"
  before := []
  after := []
  bracketed := true
  ending := line.ending
  verb_eq := verb_mail
  keyword_eq := keyword_from
  before_blank := no_blank
  after_blank := no_blank
  address_lf := line.lf_notMem_address
  address_trimmed := line.trimmed_address
  address_bare h := nomatch h
  ending_eq := line.ending_eq

theorem trimmed_written : Trimmed line.written := by
  refine ⟨by simp [written, isWhitespace], ?_⟩
  intro c hc
  by_cases h : line.parameters = []
  · rw [written, tail, h, List.flatMap_nil, ← List.cons_append, List.getLast?_concat] at hc
    cases hc
    decide
  · obtain ⟨front, last, htail, -, hspace⟩ := line.tail_last h
    rw [written, htail, ← List.cons_append, ← List.cons_append, ← List.append_assoc,
      List.getLast?_concat] at hc
    cases hc
    exact hspace

/-- Without parameters the sender is the address. -/
theorem normalizeAddress_bare (h : line.parameters = []) :
    Mail.normalizeAddress line.written = line.address := by
  have hwritten : line.written = line.bare.written := by
    rw [written, tail, h]
    rfl
  rw [hwritten]
  exact line.bare.normalizeAddress_written

/-- Behind parameters the closing bracket stays. -/
theorem normalizeAddress_parameters (h : line.parameters ≠ []) :
    Mail.normalizeAddress line.written = line.address ++ '>' :: line.tail := by
  obtain ⟨front, last, htail, hlast, hspace⟩ := line.tail_last h
  have hend : line.address ++ '>' :: line.tail = (line.address ++ '>' :: front) ++ [last] := by
    rw [htail, List.append_assoc, List.cons_append]
  have htrimmed : Trimmed (line.address ++ '>' :: line.tail) := by
    refine ⟨fun c hc => line.head_address _ hc, ?_⟩
    intro c hc
    rw [hend, List.getLast?_concat] at hc
    cases hc
    exact hspace
  have hsuffix : ¬ ['>'] <:+ line.address ++ '>' :: line.tail := by
    rintro ⟨before, hbefore⟩
    rw [hend] at hbefore
    have hsame := congrArg List.getLast? hbefore
    rw [List.getLast?_concat, List.getLast?_concat] at hsame
    exact hlast (Option.some.inj hsame).symm
  have hstart : line.written.dropPrefix? ['<'] = some (line.address ++ '>' :: line.tail) :=
    dropPrefix?_eq_some.mpr rfl
  rw [Mail.normalizeAddress, trim_eq_self line.trimmed_written, hstart]
  dsimp only [Option.getD_some]
  rw [dropSuffix?_eq_none hsuffix, Option.getD_none, trim_eq_self htrimmed]

theorem isLine_octets : IsLine line.octets := by
  have hopen : lf ∉ ascii "MAIL FROM:" ++ Utf8.encode line.written := by
    rw [List.mem_append, not_or]
    exact ⟨by decide, lf_notMem_encode line.lf_notMem_written⟩
  exact isLine_append hopen line.ending_eq

/-- The parser takes everything behind the keyword for the address. -/
theorem parse_octets : Command.parse line.octets = .ok (.mail line.written) := by
  have hstart : cr ∉ ascii "MAIL FROM:" := by decide
  obtain ⟨t, hstrip, htrim⟩ := stripLineEnding_text hstart line.written line.ending_eq
  have hsplit : splitNoneOrOnce (stripLineEnding line.octets) sp =
      (ascii "MAIL", some (ascii "FROM:" ++ Utf8.encode t)) := by
    have hverb : sp ∉ ascii "MAIL" := by decide
    rw [octets, hstrip]
    exact splitNoneOrOnce_append hverb
  rw [parse_mail_split hsplit (by decide) (by decide), htrim, trim_eq_self line.trimmed_written]

end MailLine

namespace Session

variable {H : Type} [Handler H] [Base64]

/-- An accepted MAIL line sets the sender to its address exactly if it has no
parameters. -/
theorem sender_with_parameters {session : Session Wire H} (line : MailLine) {rest : Bytes}
    (hlength : line.octets.length ≤ maxLineLength)
    (hdelivers : session.Delivers (line.octets ++ rest))
    (hphase : session.state.phase = .greeted) (hallowed : session.isAuthenticated = true) :
    ∃ after, Flow.iterate iteration 1 (.running session) = .running after ∧
      after.state.phase = .envelope ∧
      (after.state.currentMail.sender = line.address ↔ line.parameters = []) := by
  obtain ⟨after, hafter⟩ := proceeds_sender line.isLine_octets line.parse_octets hlength hdelivers
    hphase hallowed
  refine ⟨after, hafter.run, by rw [hafter.state_eq], ?_⟩
  rw [hafter.state_eq]
  change Mail.normalizeAddress line.written = line.address ↔ line.parameters = []
  constructor
  · intro hsender
    by_contra hne
    rw [line.normalizeAddress_parameters hne] at hsender
    have hlengths := congrArg List.length hsender
    rw [List.length_append, List.length_cons] at hlengths
    omega
  · exact line.normalizeAddress_bare

end Session

def sizeFive : Parameter := .size ['5'] (by decide)

theorem address_plain_sample : ∀ c ∈ "a@b".toList,
    c ≠ '<' ∧ c ≠ '>' ∧ isWhitespace c = false := by
  simp [isWhitespace]

theorem ending_crlf : [cr, lf] = [cr, lf] ∨ [cr, lf] = [lf] := .inl rfl

def mailLine (parameters : List Parameter) : MailLine where
  address := "a@b".toList
  parameters := parameters
  ending := [cr, lf]
  address_plain := address_plain_sample
  ending_eq := ending_crlf

/-- A greeted session with a line pending. -/
def sendingSample (line : MailLine) (hline : line.octets ≠ []) : Session Wire Unit :=
  ⟨some (.newPlain ⟨[line.octets], [], fun hmem => hline (List.mem_singleton.mp hmem).symm,
    Wire.noChunks⟩ none), openConfig, ⟨.greeted, false, .empty⟩, []⟩

section Sample

attribute [local instance] sampleBase64

theorem Session.sender_with_parameters_bare :
    ∃ after, Flow.iterate iteration 1 (.running (sendingSample (mailLine []) (by decide))) =
        .running after ∧
      after.state.phase = .envelope ∧ after.state.currentMail.sender = "a@b".toList := by
  obtain ⟨after, hrun, hphase, hsender⟩ := @sender_with_parameters _ _ _
    (sendingSample (mailLine []) (by decide)) (mailLine []) [] (by decide) ⟨_, rfl, by decide⟩ rfl
    rfl
  exact ⟨after, hrun, hphase, hsender.mpr rfl⟩

/-- With a parameter the sender becomes `a@b> SIZE=5`. -/
theorem Session.sender_takes_parameters : ¬ ∀ (session : Session Wire Unit) (line : MailLine)
    (rest : Bytes), line.octets.length ≤ maxLineLength →
      session.Delivers (line.octets ++ rest) → session.state.phase = .greeted →
      session.isAuthenticated = true →
      ∃ after, Flow.iterate iteration 1 (.running session) = .running after ∧
        after.state.currentMail.sender = line.address := by
  intro h
  obtain ⟨after, hrun, hsender⟩ := h (sendingSample (mailLine [sizeFive]) (by decide))
    (mailLine [sizeFive]) [] (by decide) ⟨_, rfl, by decide⟩ rfl rfl
  have htaken : (Flow.iterate iteration 1 (.running
      (sendingSample (mailLine [sizeFive]) (by decide)))).state.state.currentMail.sender =
        "a@b> SIZE=5".toList := by decide +kernel
  rw [hrun] at htaken
  exact absurd (htaken.symm.trans hsender) (by decide)

end Sample

end PostGraph.Smtp
