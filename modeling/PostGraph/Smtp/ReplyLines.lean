import PostGraph.Foundation.Replies
import PostGraph.Smtp.Recorder

/-! # Lines of replies

A response makes one line if its code has three digits and its text no line
break. Whether another line follows shows in the line only if the text is not
empty. The session's own texts are all of this kind.
-/

namespace PostGraph.Smtp

open Foundation Foundation.Framing Foundation.Reply

/-! ## The lines of responses -/

theorem encode_digits {digits : Text} (h : ∀ c ∈ digits, c.isDigit = true) :
    (Utf8.encode digits).length = digits.length ∧
      ∀ b ∈ Utf8.encode digits, 0x30 ≤ b ∧ b ≤ 0x39 := by
  induction digits with
  | nil => exact ⟨rfl, List.forall_mem_nil _⟩
  | cons c rest ih =>
      obtain ⟨hc, hrest⟩ := List.forall_mem_cons.mp h
      obtain ⟨hlength, hall⟩ := ih hrest
      have hrange : 48 ≤ c.val.toNat ∧ c.val.toNat ≤ 57 := by
        simpa [Char.isDigit, UInt32.le_iff_toNat_le] using hc
      have hencode : String.utf8EncodeChar c = [c.val.toNat.toUInt8] := by
        unfold String.utf8EncodeChar
        exact if_pos (by omega)
      have hcons : Utf8.encode (c :: rest) = c.val.toNat.toUInt8 :: Utf8.encode rest := by
        rw [Utf8.encode, List.flatMap_cons, hencode]
        rfl
      rw [hcons]
      refine ⟨congrArg (· + 1) hlength, List.forall_mem_cons.mpr ⟨?_, hall⟩⟩
      simp only [UInt8.le_iff_toNat_le, Nat.toUInt8, UInt8.toNat_ofNat', UInt8.reduceToNat]
      omega

theorem threeDigits_toDigits {code : Nat} (hcode : 100 ≤ code ∧ code < 1000) :
    ThreeDigits (Utf8.encode (Nat.toDigits 10 code)) := by
  have hdigits : ∀ c ∈ Nat.toDigits 10 code, c.isDigit = true :=
    fun c hc => Nat.isDigit_of_mem_toDigits (by decide) (by decide) hc
  obtain ⟨hlength, hall⟩ := encode_digits hdigits
  have hle : (Nat.toDigits 10 code).length ≤ 3 :=
    (Nat.length_toDigits_le_iff (by decide) (by decide)).mpr hcode.2
  have hgt : ¬ (Nat.toDigits 10 code).length ≤ 2 := by
    rw [Nat.length_toDigits_le_iff (by decide) (by decide)]
    exact Nat.not_lt.mpr hcode.1
  exact ⟨by omega, hall⟩

/-- The text of one line. -/
def OneLine (text : Text) : Prop := '\r' ∉ text ∧ '\n' ∉ text

theorem oneLine_append_iff {first second : Text} :
    OneLine (first ++ second) ↔ OneLine first ∧ OneLine second := by
  simp only [OneLine, List.mem_append, not_or]
  tauto

theorem OneLine.append {first second : Text} (h : OneLine first) (h' : OneLine second) :
    OneLine (first ++ second) :=
  oneLine_append_iff.mpr ⟨h, h'⟩

theorem OneLine.unbroken {text : Text} (h : OneLine text) : Unbroken (Utf8.encode text) :=
  ⟨fun hmem => h.1 (Utf8.mem_encode_ascii hmem (by decide)),
    fun hmem => h.2 (Utf8.mem_encode_ascii hmem (by decide))⟩

/-- A line break in a text is one in its octets. -/
theorem unbroken_encode_iff {text : Text} : Unbroken (Utf8.encode text) ↔ OneLine text := by
  constructor
  · rintro ⟨hcr, hlf⟩
    exact ⟨fun hmem => hcr (List.mem_flatMap.mpr ⟨'\r', hmem, by decide⟩),
      fun hmem => hlf (List.mem_flatMap.mpr ⟨'\n', hmem, by decide⟩)⟩
  · exact OneLine.unbroken

theorem oneLine_toDigits (n : Nat) : OneLine (Nat.toDigits 10 n) := by
  have hdigit : ∀ c : Char, c.isDigit = false → c ∉ Nat.toDigits 10 n := by
    intro c hc hmem
    rw [Nat.isDigit_of_mem_toDigits (by decide) (by decide) hmem] at hc
    cases hc
  exact ⟨hdigit '\r' (by decide), hdigit '\n' (by decide)⟩

instance (text : Text) : Decidable (OneLine text) :=
  inferInstanceAs (Decidable ('\r' ∉ text ∧ '\n' ∉ text))

namespace Response

/-- The digits that a line starts with. -/
def codeOctets (code : UInt16) : Bytes := Utf8.encode (Nat.toDigits 10 code.toNat)

/-- A response that makes one line, which tells whether another one follows. -/
structure Proper (response : Response) : Prop where
  code : 100 ≤ response.code.toNat ∧ response.code.toNat < 1000
  text : OneLine response.messageText
  continued : response.hasNext = true → response.messageText ≠ []

theorem octets_of_text {response : Response} (hmessage : response.messageText ≠ []) :
    response.octets = codeOctets response.code ++
      (if response.hasNext then hyphen else sp) ::
        Utf8.encode response.messageText ++ [cr, lf] := by
  have hdelimiter : ∀ delimiter : Char, Utf8.encode ([delimiter] ++ response.messageText) =
      String.utf8EncodeChar delimiter ++ Utf8.encode response.messageText := by
    intro delimiter
    rw [Utf8.encode, List.singleton_append, List.flatMap_cons]
    rfl
  have hempty : response.messageText.isEmpty = false := by simpa using hmessage
  rw [octets, line, hempty, List.append_assoc, Utf8.encode_append]
  cases response.hasNext with
  | false => exact congrArg ((codeOctets response.code) ++ · ++ [cr, lf]) (hdelimiter ' ')
  | true => exact congrArg ((codeOctets response.code) ++ · ++ [cr, lf]) (hdelimiter '-')

theorem octets_of_empty {response : Response} (hmessage : response.messageText = []) :
    response.octets = codeOctets response.code ++ [cr, lf] := by
  rw [octets, line, hmessage]
  dsimp only [List.isEmpty_nil, if_true]
  rw [if_pos rfl, List.append_nil, List.append_nil]
  rfl

namespace Proper

variable {response : Response}

theorem threeDigits (h : response.Proper) : ThreeDigits (codeOctets response.code) :=
  threeDigits_toDigits h.code

theorem last (h : response.Proper) (hnext : response.hasNext = false) :
    Last (codeOctets response.code) response.octets := by
  by_cases hmessage : response.messageText = []
  · rw [octets_of_empty hmessage]
    exact .bare
  · rw [octets_of_text hmessage, hnext]
    exact .text h.text.unbroken

theorem more (h : response.Proper) (hnext : response.hasNext = true) :
    Continued (codeOctets response.code) response.octets := by
  rw [octets_of_text (h.continued hnext), hnext]
  exact .text h.text.unbroken

/-- A response that is not continued is a reply. -/
theorem isReply (h : response.Proper) (hnext : response.hasNext = false) :
    IsReply response.octets :=
  ⟨_, _, .last h.threeDigits (h.last hnext), List.forall_mem_singleton.mpr rfl⟩

theorem new {code : UInt16} {message : Text} (hcode : 100 ≤ code.toNat ∧ code.toNat < 1000)
    (hline : OneLine message) : (Response.new code message).Proper :=
  ⟨hcode, hline, nofun⟩

theorem newContinued {code : UInt16} {message : Text}
    (hcode : 100 ≤ code.toNat ∧ code.toNat < 1000) (hline : OneLine message)
    (hne : message ≠ []) : (Response.newContinued code message).Proper :=
  ⟨hcode, hline, fun _ => hne⟩

theorem extend {response : Response} {extension : Text} (h : response.Proper)
    (hline : OneLine extension) : (response.extend extension).Proper where
  code := h.code
  text := .append (.append h.text (by decide)) hline
  continued _ := List.append_ne_nil_of_left_ne_nil
    (List.append_ne_nil_of_right_ne_nil _ (List.cons_ne_nil _ _)) _

theorem syntaxError {error : Option Text} (herror : ∀ text ∈ error, OneLine text) :
    (Response.syntaxError error).Proper := by
  apply new (by decide)
  cases error with
  | none => decide
  | some text => exact OneLine.append (by decide) (herror text rfl)

theorem banner {serverName : Text} (hname : OneLine serverName) :
    (Response.banner serverName).Proper :=
  new (by decide) (.append (.append (by decide) hname) (by decide))

end Proper

/-! ## What a line tells -/

/-- The octets are one line, and its fourth octet tells whether another line follows. -/
structure Framed (continued : Bool) (octets : Bytes) : Prop where
  line : ∃ body, octets = body ++ [cr, lf] ∧ Unbroken body
  fourth : octets[3]? = some hyphen ↔ continued = true

theorem oneLine_line_iff (response : Response) :
    OneLine response.line ↔ OneLine response.messageText := by
  have hdelimiter : OneLine (if response.messageText.isEmpty then []
      else if response.hasNext then ['-'] else [' ']) := by
    split
    · decide
    · split <;> decide
  rw [line, oneLine_append_iff, oneLine_append_iff]
  exact and_iff_right ⟨oneLine_toDigits _, hdelimiter⟩

theorem line_octets_iff (response : Response) :
    (∃ body, response.octets = body ++ [cr, lf] ∧ Unbroken body) ↔
      OneLine response.messageText := by
  rw [← oneLine_line_iff, ← unbroken_encode_iff]
  constructor
  · rintro ⟨body, hoctets, hbody⟩
    rwa [List.append_cancel_right hoctets]
  · exact fun hline => ⟨_, rfl, hline⟩

/-- The hyphen is missing only behind the code of a continued response without a text. -/
theorem fourth_octets_iff {response : Response}
    (hcode : 100 ≤ response.code.toNat ∧ response.code.toNat < 1000) :
    (response.octets[3]? = some hyphen ↔ response.hasNext = true) ↔
      (response.hasNext = true → response.messageText ≠ []) := by
  have hlength : (codeOctets response.code).length = 3 := (threeDigits_toDigits hcode).1
  by_cases hmessage : response.messageText = []
  · have hfourth : response.octets[3]? = some cr := by
      rw [octets_of_empty hmessage, ← hlength, List.getElem?_append_right (Nat.le_refl _),
        Nat.sub_self]
      rfl
    have hother : some cr ≠ some hyphen := by decide
    rw [hfourth, hmessage]
    simp [hother]
  · have hfourth : response.octets[3]? = some (if response.hasNext then hyphen else sp) := by
      rw [octets_of_text hmessage, List.append_assoc, ← hlength,
        List.getElem?_append_right (Nat.le_refl _), Nat.sub_self]
      rfl
    have hother : sp ≠ hyphen := by decide
    rw [hfourth]
    cases response.hasNext <;> simp [hother, hmessage]

theorem framed_octets_iff {response : Response}
    (hcode : 100 ≤ response.code.toNat ∧ response.code.toNat < 1000) :
    Framed response.hasNext response.octets ↔
      OneLine response.messageText ∧ (response.hasNext = true → response.messageText ≠ []) := by
  rw [← line_octets_iff, ← fourth_octets_iff hcode]
  exact ⟨fun h => ⟨h.line, h.fourth⟩, fun h => ⟨h.1, h.2⟩⟩

end Response

namespace Session

/-- What a reply writes is one line that tells whether it is the last, exactly if the
text of the response has no line break, and is not empty if it is to be continued. -/
theorem reply_framed_iff {H : Type} {session : Session (Recorder Wire) H}
    (hconnected : session.connection.isSome = true) {response : Response}
    (hcode : 100 ≤ response.code.toNat ∧ response.code.toNat < 1000) :
    ∃ after octets, reply response session = .ok () after ∧
      after.written = session.written ++ octets ∧
      (Response.Framed response.hasNext octets ↔
        OneLine response.messageText ∧
          (response.hasNext = true → response.messageText ≠ [])) := by
  obtain ⟨connection, hconnection⟩ := Option.isSome_iff_exists.mp hconnected
  refine ⟨_, response.octets, Talks.reply_apply response hconnection, ?_,
    Response.framed_octets_iff hcode⟩
  simp [written, hconnection]

/-- A session of a server without a name. -/
def unnamed : Session (Recorder Wire) Unit :=
  ⟨some (.newPlain ⟨⟨[], [], Wire.noChunks, Wire.noChunks⟩, []⟩ none), ⟨(), [], .none, 100⟩,
    .new, []⟩

/-- A challenge without a text is the last line of its reply. -/
theorem reply_framed_iff_challenge : ∃ after,
    reply .authChallengePlain unnamed = .ok () after ∧ Response.Framed false after.written := by
  obtain ⟨after, octets, hreply, hwritten, hframed⟩ :=
    reply_framed_iff (rfl : unnamed.connection.isSome = true)
      (by decide : 100 ≤ Response.authChallengePlain.code.toNat ∧
        Response.authChallengePlain.code.toNat < 1000)
  refine ⟨after, hreply, ?_⟩
  rw [hwritten]
  exact hframed.mpr (by decide)

/-- The name of the server is missing in the first line of its reply to EHLO, which then
looks like the last one; and the text of an error has two lines. -/
theorem replies_not_framed :
    (∃ after, reply (.newContinued 250 unnamed.config.serverName) unnamed = .ok () after ∧
      after.written = ascii "250\r\n" ∧ ¬ Response.Framed true after.written) ∧
    ∃ after, reply (Response.mailHandlerError.extend "a\nb".toList) unnamed = .ok () after ∧
      after.written = ascii "451 4.3.0 Error during mail processing: a\nb\r\n" ∧
      ¬ Response.Framed false after.written := by
  have hnot : ∀ response : Response, 100 ≤ response.code.toNat ∧ response.code.toNat < 1000 →
      ¬ (OneLine response.messageText ∧
        (response.hasNext = true → response.messageText ≠ [])) →
      ¬ Response.Framed response.hasNext response.octets :=
    fun response hcode => (Response.framed_octets_iff hcode).not.mpr
  exact ⟨⟨_, Talks.reply_apply _ rfl, by decide,
      hnot (.newContinued 250 []) (by decide) (by decide)⟩,
    ⟨_, Talks.reply_apply _ rfl, by decide,
      hnot (Response.mailHandlerError.extend "a\nb".toList) (by decide) (by decide)⟩⟩

end Session

namespace Command

/-- An error of the parser has a text of one line. -/
def OneLineError (result : Except Text Command) : Prop :=
  ∀ error, result = .error error → OneLine error

namespace OneLineError

theorem ok (command : Command) : OneLineError (.ok command) := nofun

theorem error {text : Text} (h : OneLine text) : OneLineError (.error text) := by
  rintro _ ⟨⟩
  exact h

theorem ite {p : Prop} [Decidable p] {first second : Except Text Command}
    (h : OneLineError first) (h' : OneLineError second) :
    OneLineError (if p then first else second) := by
  by_cases hp : p
  · rwa [if_pos hp]
  · rwa [if_neg hp]

theorem withoutArgument (argument : Option Bytes) {text : String} (command : Command)
    (h : OneLine text.toList) : OneLineError (Command.withoutArgument argument text command) :=
  .ite (.error h) (.ok _)

theorem withAddress (argument : Option Bytes) (keyword : String) {text : String}
    (command : Text → Command) (h : OneLine text.toList) :
    OneLineError (Command.withAddress argument keyword text command) := by
  unfold Command.withAddress
  split
  · exact .error h
  · split
    · exact .error h
    · exact .ok _

theorem parseHello (argument : Option Bytes) (extended : Bool) :
    OneLineError (Command.parseHello argument extended) := by
  cases argument with
  | none => exact .error (by decide)
  | some domain => exact .ok _

theorem parseAuth (argument : Option Bytes) : OneLineError (Command.parseAuth argument) := by
  cases argument with
  | none => exact .error (by decide)
  | some argument => exact .ite (.ok _) (.ite (.ok _) (.error (by decide)))

/-- The texts of syntax errors are the parser's own. -/
theorem parse (line : Bytes) : OneLineError (Command.parse line) := by
  unfold Command.parse Command.parseWords
  refine .ite (.parseHello _ _) <| .ite (.parseHello _ _) <| .ite (.ok _) <|
    .ite (.withoutArgument _ _ ?_) <| .ite (.parseAuth _) <| .ite (.withAddress _ _ _ ?_) <|
    .ite (.withAddress _ _ _ ?_) <| .ite (.withoutArgument _ _ ?_) <|
    .ite (.withoutArgument _ _ ?_) <| .ite (.withoutArgument _ _ ?_) <|
    .ite (.withoutArgument _ _ ?_) (.error ?_) <;> decide

end OneLineError

end Command

namespace Session

variable {H : Type}

theorem features_ne_nil (supportsTls : Bool) (config : SessionConfig H) :
    features supportsTls config ≠ [] :=
  List.append_ne_nil_of_right_ne_nil _ (List.cons_ne_nil _ _)

theorem features_oneLine (supportsTls : Bool) (config : SessionConfig H) :
    ∀ feature ∈ features supportsTls config, OneLine feature ∧ feature ≠ [] := by
  have hsize : OneLine ("SIZE ".toList ++ Nat.toDigits 10 config.maxMessageSize) ∧
      "SIZE ".toList ++ Nat.toDigits 10 config.maxMessageSize ≠ [] :=
    ⟨.append (by decide) (oneLine_toDigits _), List.append_ne_nil_of_left_ne_nil (by decide) _⟩
  have hoptional : ∀ (offered : Bool) (feature : Text), OneLine feature ∧ feature ≠ [] →
      ∀ other ∈ (if offered then [feature] else []), OneLine other ∧ other ≠ [] := by
    intro offered feature hfeature
    cases offered with
    | false => exact List.forall_mem_nil _
    | true => exact List.forall_mem_singleton.mpr hfeature
  unfold features
  refine List.forall_mem_append.mpr ⟨List.forall_mem_append.mpr ⟨List.forall_mem_append.mpr
    ⟨List.forall_mem_singleton.mpr (by decide), ?_⟩, ?_⟩, List.forall_mem_singleton.mpr hsize⟩
  · exact hoptional supportsTls _ (by decide)
  · exact hoptional config.hasAuth _ (by decide)

theorem commands_oneLine (supportsTls : Bool) (config : SessionConfig H) :
    OneLine ([' '].intercalate (commands supportsTls config)) := by
  unfold commands
  cases supportsTls <;> cases config.hasAuth <;> decide

end Session

end PostGraph.Smtp
