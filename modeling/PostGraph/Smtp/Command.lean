import PostGraph.Foundation.Utf8

/-! # Commands and their parser

A command line is a verb, in any case, and behind its first space an argument.
-/

namespace PostGraph.Smtp

open Foundation

/-- Mechanisms of the AUTH command. -/
inductive AuthMethod where
  | plain
  | login
  deriving DecidableEq, Repr

/-- Parsed commands. -/
inductive Command where
  | hello (domain : Text) (extended : Bool)
  | help
  | startTls
  | authenticate (method : AuthMethod) (initial : Option Bytes)
  | mail (sender : Text)
  | recipient (address : Text)
  | data
  | reset
  | noOp
  | quit
  deriving DecidableEq, Repr

/-- The input behind a prefix, which may differ in case. -/
def stripPrefixCaseInsensitive (input start : Bytes) : Option Bytes :=
  if input.length < start.length then none
  else if (input.take start.length).zip start |>.all fun pair =>
    eqIgnoreAsciiCase pair.1 pair.2 then some (input.drop start.length)
  else none

/-- The parts before and behind the first delimiter, if there is one. -/
def splitNoneOrOnce (input : Bytes) (delimiter : UInt8) : Bytes × Option Bytes :=
  match input.findIdx? (· == delimiter) with
  | some pos => (input.take pos, some (input.drop (pos + 1)))
  | none => (input, none)

theorem splitNoneOrOnce_append {before after : Bytes} {delimiter : UInt8} (h : delimiter ∉ before) :
    splitNoneOrOnce (before ++ delimiter :: after) delimiter = (before, some after) := by
  have hpos : (before ++ delimiter :: after).findIdx? (· == delimiter) = some before.length := by
    rw [List.findIdx?_append, List.findIdx?_eq_none_iff.mpr, List.findIdx?_cons]
    · simp
    · intro b hb
      simpa using fun heq : b = delimiter => h (heq ▸ hb)
  simp [splitNoneOrOnce, hpos]

theorem splitNoneOrOnce_of_notMem {input : Bytes} {delimiter : UInt8} (h : delimiter ∉ input) :
    splitNoneOrOnce input delimiter = (input, none) := by
  have hpos : input.findIdx? (· == delimiter) = none := by
    rw [List.findIdx?_eq_none_iff]
    intro b hb
    simpa using fun heq : b = delimiter => h (heq ▸ hb)
  simp [splitNoneOrOnce, hpos]

theorem zip_all_eqIgnoreAsciiCase {start written : Bytes}
    (h : written.map toAsciiLowercase = start.map toAsciiLowercase) :
    (written.zip start).all (fun pair => eqIgnoreAsciiCase pair.1 pair.2) = true := by
  induction written generalizing start with
  | nil => rfl
  | cons first rest ih =>
      cases start with
      | nil => rfl
      | cons other others =>
          rw [List.map_cons, List.map_cons, List.cons.injEq] at h
          rw [List.zip_cons_cons, List.all_cons, ih h.2, Bool.and_true]
          simp [eqIgnoreAsciiCase, h.1]

theorem stripPrefixCaseInsensitive_append {start written : Bytes} (rest : Bytes)
    (h : written.map toAsciiLowercase = start.map toAsciiLowercase) :
    stripPrefixCaseInsensitive (written ++ rest) start = some rest := by
  have hlength : written.length = start.length := by simpa using congrArg List.length h
  simp [stripPrefixCaseInsensitive, ← hlength, zip_all_eqIgnoreAsciiCase h]

namespace Command

/-- A text argument: lossily decoded and trimmed. -/
def textArgument (argument : Bytes) : Text := trim (Utf8.decodeLossy argument)

/-- A command that takes no argument. -/
def withoutArgument (argument : Option Bytes) (error : String) (command : Command) :
    Except Text Command :=
  if argument.isSome then .error error.toList else .ok command

/-- An address behind a keyword. -/
def withAddress (argument : Option Bytes) (keyword error : String) (command : Text → Command) :
    Except Text Command :=
  match argument with
  | none => .error error.toList
  | some argument =>
      match stripPrefixCaseInsensitive argument (ascii keyword) with
      | none => .error error.toList
      | some address => .ok (command (textArgument address))

/-- The mechanism of an AUTH command and its initial response. -/
def parseAuth (argument : Option Bytes) : Except Text Command :=
  match argument with
  | none => .error "AUTH requires mechanism".toList
  | some argument =>
      let (mechanism, initial) := splitNoneOrOnce argument sp
      let mechanism := mechanism.map toAsciiUppercase
      if mechanism = ascii "PLAIN" then .ok (authenticate .plain initial)
      else if mechanism = ascii "LOGIN" then .ok (authenticate .login initial)
      else .error "unsupported AUTH mechanism".toList

/-- The domain of a HELO or EHLO command; the error is the same for both. -/
def parseHello (argument : Option Bytes) (extended : Bool) : Except Text Command :=
  match argument with
  | none => .error "HELO requires domain".toList
  | some domain => .ok (hello (textArgument domain) extended)

/-- The parser behind the split at the first space: the verb is in upper case. -/
def parseWords (verb : Bytes) (argument : Option Bytes) : Except Text Command :=
  if verb = ascii "HELO" then parseHello argument false
  else if verb = ascii "EHLO" then parseHello argument true
  else if verb = ascii "HELP" then .ok help
  else if verb = ascii "STARTTLS" then
    withoutArgument argument "STARTTLS takes no arguments" startTls
  else if verb = ascii "AUTH" then parseAuth argument
  else if verb = ascii "MAIL" then withAddress argument "FROM:" "MAIL requires FROM" mail
  else if verb = ascii "RCPT" then withAddress argument "TO:" "RCPT requires TO" recipient
  else if verb = ascii "DATA" then withoutArgument argument "DATA takes no arguments" data
  else if verb = ascii "RSET" then withoutArgument argument "RSET takes no arguments" reset
  else if verb = ascii "NOOP" then withoutArgument argument "NOOP takes no arguments" noOp
  else if verb = ascii "QUIT" then withoutArgument argument "QUIT takes no arguments" quit
  else .error "unrecognized command".toList

/-- Parse a command line, with or without its line ending. -/
def parse (input : Bytes) : Except Text Command :=
  let (verb, argument) := splitNoneOrOnce (stripLineEnding input) sp
  parseWords (verb.map toAsciiUppercase) argument

end Command

end PostGraph.Smtp
