import PostGraph.Smtp.Transaction

/-! # The grammar of command lines

What the parser accepts, written as a grammar: keywords in any case, single spaces
between them, and behind them whatever text the command takes.
-/

namespace PostGraph.Smtp

open Foundation

/-! ## Line endings -/

/-- The line is the body, with at most one line ending behind it. -/
inductive Ended : Bytes → Bytes → Prop
  | crlf (body : Bytes) : Ended body (body ++ [cr, lf])
  | onlyLf {body : Bytes} (hcr : body.getLast? ≠ some cr) : Ended body (body ++ [lf])
  | unended {body : Bytes} (hlf : body.getLast? ≠ some lf) : Ended body body

theorem stripLineEnding_unended {body : Bytes} (hlf : body.getLast? ≠ some lf) :
    stripLineEnding body = body := by
  have hopen : ∀ ending : Bytes, ¬ ending ++ [lf] <:+ body := by
    rintro ending ⟨before, rfl⟩
    rw [← List.append_assoc, List.getLast?_concat] at hlf
    exact hlf rfl
  have hcrlf : body.dropSuffix? [cr, lf] = none := dropSuffix?_eq_none (hopen [cr])
  have hline : body.dropSuffix? [lf] = none := dropSuffix?_eq_none (hopen [])
  rw [stripLineEnding, hcrlf, hline, Option.none_or, Option.getD_none]

theorem Ended.stripLineEnding {body line : Bytes} (h : Ended body line) :
    stripLineEnding line = body := by
  cases h with
  | crlf => exact stripLineEnding_crlf body
  | onlyLf hcr => exact stripLineEnding_lf hcr
  | unended hlf => exact stripLineEnding_unended hlf

theorem ended_stripLineEnding (line : Bytes) : Ended (stripLineEnding line) line := by
  rcases line.eq_nil_or_concat' with rfl | ⟨body, last, rfl⟩
  · exact .unended nofun
  · by_cases hlast : last = lf
    · subst hlast
      by_cases hcr : body.getLast? = some cr
      · obtain ⟨front, rfl⟩ : ∃ front, body = front ++ [cr] := by
          obtain ⟨front, c, rfl⟩ := (List.eq_nil_or_concat' body).resolve_left (by
            rintro rfl
            cases hcr)
          rw [List.getLast?_concat] at hcr
          cases hcr
          exact ⟨front, rfl⟩
        rw [List.append_assoc, List.singleton_append, stripLineEnding_crlf]
        exact .crlf front
      · rw [stripLineEnding_lf hcr]
        exact .onlyLf hcr
    · have hopen : (body ++ [last]).getLast? ≠ some lf := by
        rw [List.getLast?_concat]
        exact fun h => hlast (Option.some.inj h)
      rw [stripLineEnding_unended hopen]
      exact .unended hopen

/-! ## Words -/

/-- The first delimiter splits the input, if there is one. -/
theorem splitNoneOrOnce_cases (input : Bytes) (delimiter : UInt8) :
    (delimiter ∉ input ∧ splitNoneOrOnce input delimiter = (input, none)) ∨
      ∃ before after, input = before ++ delimiter :: after ∧ delimiter ∉ before ∧
        splitNoneOrOnce input delimiter = (before, some after) := by
  by_cases hmem : delimiter ∈ input
  · obtain ⟨before, after, rfl, hbefore⟩ := List.eq_append_cons_of_mem hmem
    exact .inr ⟨before, after, rfl, hbefore, splitNoneOrOnce_append hbefore⟩
  · exact .inl ⟨hmem, splitNoneOrOnce_of_notMem hmem⟩

theorem toAsciiUppercase_toAsciiLowercase (b : UInt8) :
    toAsciiUppercase (toAsciiLowercase b) = toAsciiUppercase b := by
  unfold toAsciiLowercase toAsciiUppercase
  simp only [UInt8.le_iff_toNat_le, UInt8.reduceToNat]
  split
  next hupper =>
    have hnat : (b + 0x20).toNat = b.toNat + 0x20 := by
      simp only [UInt8.toNat_add, UInt8.reduceToNat]
      omega
    have hle : (0x20 : UInt8) ≤ b + 0x20 := by
      simp only [UInt8.le_iff_toNat_le, hnat, UInt8.reduceToNat]
      omega
    rw [hnat, if_pos (by omega), if_neg (by omega)]
    apply UInt8.toNat_inj.mp
    rw [UInt8.toNat_sub_of_le _ _ hle, hnat]
    exact Nat.add_sub_cancel b.toNat 0x20
  next => rfl

theorem map_toAsciiUppercase_of_zip {octets start : Bytes} (hlength : octets.length = start.length)
    (h : (octets.zip start).all (fun pair => eqIgnoreAsciiCase pair.1 pair.2) = true) :
    octets.map toAsciiUppercase = start.map toAsciiUppercase := by
  induction octets generalizing start with
  | nil =>
      cases start with
      | nil => rfl
      | cons => cases hlength
  | cons first rest ih =>
      cases start with
      | nil => cases hlength
      | cons other others =>
          rw [List.zip_cons_cons, List.all_cons, Bool.and_eq_true] at h
          have hfirst : toAsciiLowercase first = toAsciiLowercase other := eq_of_beq h.1
          have hupper := congrArg toAsciiUppercase hfirst
          rw [toAsciiUppercase_toAsciiLowercase, toAsciiUppercase_toAsciiLowercase] at hupper
          rw [List.map_cons, List.map_cons, hupper, ih (Nat.succ.inj hlength) h.2]

theorem stripPrefixCaseInsensitive_eq_some {input rest : Bytes} {word : String}
    (h : stripPrefixCaseInsensitive input (ascii word) = some rest) :
    ∃ keyword, SameIgnoringCase keyword word ∧ input = keyword ++ rest := by
  unfold stripPrefixCaseInsensitive at h
  split at h
  next => cases h
  next hlength =>
    split at h
    next hall =>
      cases h
      refine ⟨input.take (ascii word).length, ?_, (List.take_append_drop _ _).symm⟩
      apply map_toAsciiUppercase_of_zip _ hall
      rw [List.length_take]
      omega
    next => cases h

/-! ## Commands -/

/-- The keyword of a mechanism. -/
def AuthMethod.keyword : AuthMethod → String
  | plain => "PLAIN"
  | login => "LOGIN"

namespace Command

/-- The verb of a command without arguments. -/
def bareVerb : Command → Option String
  | startTls => some "STARTTLS"
  | data => some "DATA"
  | reset => some "RSET"
  | noOp => some "NOOP"
  | quit => some "QUIT"
  | _ => none

/-- A line without its ending, and the command that it is. -/
inductive Grammar : Bytes → Command → Prop
  | hello {verb : Bytes} (domain : Bytes) (hverb : SameIgnoringCase verb "HELO") :
      Grammar (verb ++ sp :: domain) (.hello (textArgument domain) false)
  | extendedHello {verb : Bytes} (domain : Bytes) (hverb : SameIgnoringCase verb "EHLO") :
      Grammar (verb ++ sp :: domain) (.hello (textArgument domain) true)
  | help {verb : Bytes} (hverb : SameIgnoringCase verb "HELP") : Grammar verb .help
  | helpOn {verb : Bytes} (topic : Bytes) (hverb : SameIgnoringCase verb "HELP") :
      Grammar (verb ++ sp :: topic) .help
  | bare {verb : Bytes} {command : Command} {keyword : String}
      (hkeyword : command.bareVerb = some keyword) (hverb : SameIgnoringCase verb keyword) :
      Grammar verb command
  | authenticate {verb mechanism : Bytes} (method : AuthMethod)
      (hverb : SameIgnoringCase verb "AUTH")
      (hmechanism : SameIgnoringCase mechanism method.keyword) :
      Grammar (verb ++ sp :: mechanism) (.authenticate method none)
  | authenticateWith {verb mechanism : Bytes} (method : AuthMethod) (initial : Bytes)
      (hverb : SameIgnoringCase verb "AUTH")
      (hmechanism : SameIgnoringCase mechanism method.keyword) :
      Grammar (verb ++ sp :: (mechanism ++ sp :: initial)) (.authenticate method (some initial))
  | mail {verb keyword : Bytes} (sender : Bytes) (hverb : SameIgnoringCase verb "MAIL")
      (hkeyword : SameIgnoringCase keyword "FROM:") :
      Grammar (verb ++ sp :: (keyword ++ sender)) (.mail (textArgument sender))
  | recipient {verb keyword : Bytes} (address : Bytes) (hverb : SameIgnoringCase verb "RCPT")
      (hkeyword : SameIgnoringCase keyword "TO:") :
      Grammar (verb ++ sp :: (keyword ++ address)) (.recipient (textArgument address))

/-! ### The parser accepts the grammar -/

theorem parse_ended {body line verb : Bytes} {argument : Option Bytes} (hended : Ended body line)
    (hsplit : splitNoneOrOnce body sp = (verb, argument)) :
    parse line = parseWords (verb.map toAsciiUppercase) argument := by
  rw [parse, hended.stripLineEnding, hsplit]

/-- A line of one word. -/
theorem parse_word {verb line : Bytes} {keyword : String} (hended : Ended verb line)
    (hverb : SameIgnoringCase verb keyword) (hplain : Plain keyword) :
    parse line = parseWords ((ascii keyword).map toAsciiUppercase) none := by
  rw [parse_ended hended (splitNoneOrOnce_of_notMem (hverb.notMem hplain (by decide))), hverb]

/-- A line with something behind its verb. -/
theorem parse_argument {verb argument line : Bytes} {keyword : String}
    (hended : Ended (verb ++ sp :: argument) line) (hverb : SameIgnoringCase verb keyword)
    (hplain : Plain keyword) :
    parse line = parseWords ((ascii keyword).map toAsciiUppercase) (some argument) := by
  rw [parse_ended hended (splitNoneOrOnce_append (hverb.notMem hplain (by decide))), hverb]

theorem plain_keyword (method : AuthMethod) : Plain method.keyword := by
  cases method <;> decide

theorem parseAuth_mechanism {mechanism argument : Bytes} {initial : Option Bytes}
    {method : AuthMethod} (hmechanism : SameIgnoringCase mechanism method.keyword)
    (hsplit : splitNoneOrOnce argument sp = (mechanism, initial)) :
    parseAuth (some argument) = .ok (.authenticate method initial) := by
  have hupper : mechanism.map toAsciiUppercase = (ascii method.keyword).map toAsciiUppercase :=
    hmechanism
  unfold parseAuth
  dsimp only
  rw [hsplit]
  dsimp only
  rw [hupper]
  cases method with
  | plain => exact if_pos (by decide)
  | login => exact (if_neg (by decide)).trans (if_pos (by decide))

theorem withAddress_keyword {keyword address : Bytes} {word error : String}
    (hkeyword : SameIgnoringCase keyword word) (command : Text → Command) :
    withAddress (some (keyword ++ address)) word error command =
      .ok (command (textArgument address)) := by
  rw [withAddress, stripPrefixCaseInsensitive_append address hkeyword.map_toAsciiLowercase]

theorem Grammar.parse {body line : Bytes} {command : Command} (h : Grammar body command)
    (hended : Ended body line) : parse line = .ok command := by
  cases h with
  | hello domain hverb => exact (parse_argument hended hverb (by decide)).trans rfl
  | extendedHello domain hverb => exact (parse_argument hended hverb (by decide)).trans rfl
  | help hverb => exact (parse_word hended hverb (by decide)).trans rfl
  | helpOn topic hverb => exact (parse_argument hended hverb (by decide)).trans rfl
  | bare hkeyword hverb =>
      cases command <;> cases hkeyword <;>
        exact (parse_word hended hverb (by decide)).trans rfl
  | authenticate method hverb hmechanism =>
      have hopen : sp ∉ _ := hmechanism.notMem (plain_keyword method) (by decide)
      exact (parse_argument hended hverb (by decide)).trans
        (parseAuth_mechanism hmechanism (splitNoneOrOnce_of_notMem hopen))
  | authenticateWith method initial hverb hmechanism =>
      have hopen : sp ∉ _ := hmechanism.notMem (plain_keyword method) (by decide)
      exact (parse_argument hended hverb (by decide)).trans
        (parseAuth_mechanism hmechanism (splitNoneOrOnce_append hopen))
  | mail sender hverb hkeyword =>
      exact (parse_argument hended hverb (by decide)).trans (withAddress_keyword hkeyword _)
  | recipient address hverb hkeyword =>
      exact (parse_argument hended hverb (by decide)).trans (withAddress_keyword hkeyword _)

/-! ### The parser accepts nothing else -/

theorem withoutArgument_eq_ok {argument : Option Bytes} {error : String} {command parsed : Command}
    (h : withoutArgument argument error command = .ok parsed) :
    argument = none ∧ parsed = command := by
  unfold withoutArgument at h
  split at h
  next => cases h
  next hnone =>
    cases h
    exact ⟨Option.not_isSome_iff_eq_none.mp hnone, rfl⟩

theorem withAddress_eq_ok {argument : Option Bytes} {word error : String}
    {command : Text → Command} {parsed : Command}
    (h : withAddress argument word error command = .ok parsed) :
    ∃ keyword address, SameIgnoringCase keyword word ∧ argument = some (keyword ++ address) ∧
      parsed = command (textArgument address) := by
  unfold withAddress at h
  split at h
  next => cases h
  next argument =>
    split at h
    next => cases h
    next address hstrip =>
      cases h
      obtain ⟨keyword, hkeyword, rfl⟩ := stripPrefixCaseInsensitive_eq_some hstrip
      exact ⟨keyword, address, hkeyword, rfl, rfl⟩

theorem parseHello_eq_ok {argument : Option Bytes} {extended : Bool} {parsed : Command}
    (h : parseHello argument extended = .ok parsed) :
    ∃ domain, argument = some domain ∧ parsed = .hello (textArgument domain) extended := by
  unfold parseHello at h
  split at h
  next => cases h
  next domain =>
    cases h
    exact ⟨domain, rfl, rfl⟩

theorem parseAuth_eq_ok {argument : Option Bytes} {parsed : Command}
    (h : parseAuth argument = .ok parsed) :
    ∃ words mechanism initial method, argument = some words ∧
      splitNoneOrOnce words sp = (mechanism, initial) ∧
      SameIgnoringCase mechanism method.keyword ∧ parsed = .authenticate method initial := by
  unfold parseAuth at h
  split at h
  next => cases h
  next words =>
    dsimp only at h
    split at h
    next hplain =>
      cases h
      exact ⟨words, _, _, .plain, rfl, rfl, hplain, rfl⟩
    next =>
      split at h
      next hlogin =>
        cases h
        exact ⟨words, _, _, .login, rfl, rfl, hlogin, rfl⟩
      next => cases h

/-- The line that the parser saw, from what it split off. -/
def joined (verb : Bytes) (argument : Option Bytes) : Bytes :=
  verb ++ (argument.map (sp :: ·)).getD []

theorem Grammar.of_parseWords {verb : Bytes} {argument : Option Bytes} {command : Command}
    (h : parseWords (verb.map toAsciiUppercase) argument = .ok command) :
    Grammar (joined verb argument) command := by
  have hbare : ∀ (keyword : String) {error : String} {bare : Command},
      bare.bareVerb = some keyword →
      verb.map toAsciiUppercase = (ascii keyword).map toAsciiUppercase →
      withoutArgument argument error bare = .ok command →
      Grammar (joined verb argument) command := by
    intro keyword error bare hkeyword hverb h
    obtain ⟨rfl, rfl⟩ := withoutArgument_eq_ok h
    rw [joined, Option.map_none, Option.getD_none, List.append_nil]
    exact .bare hkeyword hverb
  unfold parseWords at h
  rcases ite_eq_iff.mp h with ⟨hverb, h⟩ | ⟨-, h⟩
  · obtain ⟨domain, rfl, rfl⟩ := parseHello_eq_ok h
    exact .hello domain hverb
  rcases ite_eq_iff.mp h with ⟨hverb, h⟩ | ⟨-, h⟩
  · obtain ⟨domain, rfl, rfl⟩ := parseHello_eq_ok h
    exact .extendedHello domain hverb
  rcases ite_eq_iff.mp h with ⟨hverb, h⟩ | ⟨-, h⟩
  · cases h
    cases argument with
    | none =>
        rw [joined, Option.map_none, Option.getD_none, List.append_nil]
        exact .help hverb
    | some topic => exact .helpOn topic hverb
  rcases ite_eq_iff.mp h with ⟨hverb, h⟩ | ⟨-, h⟩
  · exact hbare "STARTTLS" rfl hverb h
  rcases ite_eq_iff.mp h with ⟨hverb, h⟩ | ⟨-, h⟩
  · obtain ⟨words, mechanism, initial, method, rfl, hsplit, hmechanism, rfl⟩ := parseAuth_eq_ok h
    rcases splitNoneOrOnce_cases words sp with ⟨-, hnone⟩ | ⟨before, after, rfl, -, hsome⟩
    · rw [hnone] at hsplit
      cases hsplit
      exact .authenticate method hverb hmechanism
    · rw [hsome] at hsplit
      cases hsplit
      exact .authenticateWith method after hverb hmechanism
  rcases ite_eq_iff.mp h with ⟨hverb, h⟩ | ⟨-, h⟩
  · obtain ⟨keyword, address, hkeyword, rfl, rfl⟩ := withAddress_eq_ok h
    exact .mail address hverb hkeyword
  rcases ite_eq_iff.mp h with ⟨hverb, h⟩ | ⟨-, h⟩
  · obtain ⟨keyword, address, hkeyword, rfl, rfl⟩ := withAddress_eq_ok h
    exact .recipient address hverb hkeyword
  rcases ite_eq_iff.mp h with ⟨hverb, h⟩ | ⟨-, h⟩
  · exact hbare "DATA" rfl hverb h
  rcases ite_eq_iff.mp h with ⟨hverb, h⟩ | ⟨-, h⟩
  · exact hbare "RSET" rfl hverb h
  rcases ite_eq_iff.mp h with ⟨hverb, h⟩ | ⟨-, h⟩
  · exact hbare "NOOP" rfl hverb h
  rcases ite_eq_iff.mp h with ⟨hverb, h⟩ | ⟨-, h⟩
  · exact hbare "QUIT" rfl hverb h
  · cases h

theorem Grammar.of_parse {line : Bytes} {command : Command} (h : Command.parse line = .ok command) :
    Grammar (stripLineEnding line) command := by
  have hended := ended_stripLineEnding line
  rcases splitNoneOrOnce_cases (stripLineEnding line) sp with
      ⟨-, hnone⟩ | ⟨before, after, hline, -, hsome⟩
  · rw [parse_ended hended hnone] at h
    have hgrammar := Grammar.of_parseWords h
    rwa [joined, Option.map_none, Option.getD_none, List.append_nil] at hgrammar
  · rw [parse_ended hended hsome] at h
    rw [hline]
    exact Grammar.of_parseWords h

/-! ### Printing -/

/-- The texts that a command carries. -/
def texts : Command → List Text
  | hello domain _ => [domain]
  | mail sender => [sender]
  | recipient address => [address]
  | _ => []

/-- The command as a client may write it, without its line ending. -/
def print : Command → Bytes
  | hello domain extended =>
      ascii (if extended then "EHLO" else "HELO") ++ sp :: Utf8.encode domain
  | help => ascii "HELP"
  | startTls => ascii "STARTTLS"
  | authenticate method none => ascii "AUTH" ++ sp :: ascii method.keyword
  | authenticate method (some initial) =>
      ascii "AUTH" ++ sp :: (ascii method.keyword ++ sp :: initial)
  | mail sender => ascii "MAIL" ++ sp :: (ascii "FROM:" ++ Utf8.encode sender)
  | recipient address => ascii "RCPT" ++ sp :: (ascii "TO:" ++ Utf8.encode address)
  | data => ascii "DATA"
  | reset => ascii "RSET"
  | noOp => ascii "NOOP"
  | quit => ascii "QUIT"

theorem textArgument_encode {text : Text} (htext : Trimmed text) :
    textArgument (Utf8.encode text) = text := by
  rw [textArgument, Utf8.decodeLossy_encode, trim_eq_self htext]

theorem grammar_print {command : Command} (htexts : ∀ text ∈ command.texts, Trimmed text) :
    Grammar command.print command := by
  have hsame : ∀ word, SameIgnoringCase (ascii word) word := fun _ => rfl
  cases command with
  | hello domain extended =>
      have hdomain := textArgument_encode (htexts domain List.mem_cons_self)
      cases extended with
      | false =>
          have hgrammar := Grammar.hello (Utf8.encode domain) (hsame "HELO")
          rwa [hdomain] at hgrammar
      | true =>
          have hgrammar := Grammar.extendedHello (Utf8.encode domain) (hsame "EHLO")
          rwa [hdomain] at hgrammar
  | help => exact .help (hsame "HELP")
  | authenticate method initial =>
      cases initial with
      | none => exact .authenticate method (hsame "AUTH") (hsame method.keyword)
      | some initial => exact .authenticateWith method initial (hsame "AUTH") (hsame method.keyword)
  | mail sender =>
      have hgrammar := Grammar.mail (Utf8.encode sender) (hsame "MAIL") (hsame "FROM:")
      rwa [textArgument_encode (htexts sender List.mem_cons_self)] at hgrammar
  | recipient address =>
      have hgrammar := Grammar.recipient (Utf8.encode address) (hsame "RCPT") (hsame "TO:")
      rwa [textArgument_encode (htexts address List.mem_cons_self)] at hgrammar
  | startTls | data | reset | noOp | quit => exact .bare rfl (hsame _)

/-- The parser accepts exactly the lines of the grammar, whatever octets they are
made of, and gives the command that the grammar gives; and a command that is printed,
as a line, is parsed as that command. -/
theorem parse_exact (line : Bytes) (command : Command) :
    (Command.parse line = .ok command ↔ ∃ body, Ended body line ∧ Grammar body command) ∧
      ((∀ text ∈ command.texts, Trimmed text) →
        Command.parse (command.print ++ [cr, lf]) = .ok command) := by
  refine ⟨⟨fun h => ⟨_, ended_stripLineEnding line, .of_parse h⟩, ?_⟩, ?_⟩
  · rintro ⟨body, hended, hgrammar⟩
    exact hgrammar.parse hended
  · intro htexts
    exact (grammar_print htexts).parse (.crlf _)

/-- A sender with a letter that takes two octets. -/
theorem parse_exact_mail :
    Command.parse ((mail "<é@b>".toList).print ++ [cr, lf]) = .ok (mail "<é@b>".toList) :=
  (parse_exact [] _).2 (by decide)

end Command

end PostGraph.Smtp
