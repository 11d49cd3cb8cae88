import PostGraph.Foundation.Program
import PostGraph.Smtp.Command
import PostGraph.Smtp.Config

/-! # The session

A session reads lines, runs one command or captures one data line for each, and
replies. Besides its own data, the state keeps a log of the replies sent and of
the handler's answers, oldest first; no function of the session reads the log.
-/

namespace PostGraph.Smtp

open Foundation

/-- Maximum length of a line, with its ending. -/
def maxLineLength : Nat := 1500

inductive Phase where
  | connected
  | greeted
  | envelope
  | data
  deriving DecidableEq, Repr

structure SessionState where
  phase : Phase
  isAuthenticated : Bool
  currentMail : Mail
  deriving DecidableEq, Repr

def SessionState.new : SessionState := ⟨.connected, false, .empty⟩

def SessionState.inPhase (state : SessionState) (phase : Phase) : Bool := state.phase = phase

/-- What a session has done. Logins and mails record whether the connection was
secured at the time. -/
inductive Event where
  | reply (response : Response)
  | hello (domain : Text) (extended : Bool) (answer : Except Text HelloResult)
  | login (username password : Text) (answer : Except Text LoginResult) (isTls : Bool)
  | mail (mail : Mail) (answer : Except Text Unit) (isTls : Bool)
  | reset (answer : Except Text Unit)
  | startTls
  deriving DecidableEq

/-- Why a session ends early. No source function raises `outOfFetches`: a loop
of the model ran out of its budget. -/
inductive Error where
  | io (error : IoError)
  | anyhow (message : Text)
  | outOfFetches
  deriving DecidableEq

structure Session (π H : Type) where
  connection : Option (Connection π)
  config : SessionConfig H
  state : SessionState
  log : List Event

/-- Outcome of an authentication exchange. -/
inductive AuthHandshakeResult where
  | ok (username password : Text)
  | syntaxError (error : Text)

/-- Outcome of a data line. -/
inductive HandleDataResult where
  | «continue»
  | dataEnd
  | dataTooLong

/-- What becomes of a session after one line. -/
inductive Control where
  | next
  | quit
  deriving DecidableEq

variable {π H : Type} [Transport π] [Handler H] [Base64]

/-- How many octets of the buffer belong to the line that is being read. -/
def lineOctets (buf : Bytes) : Nat := ((buf.findIdx? (· == lf)).map (· + 1)).getD buf.length

/-- The loop of `Session::read_line`, with the line read so far. It ends within
the given number of buffer fetches. -/
def readLineWithin : Nat → Bytes → Connection π → Except Error (Option Bytes) × Connection π
  | 0, _, connection => (.error .outOfFetches, connection)
  | fetches + 1, line, connection =>
      match connection.fillBuf with
      | (.error error, connection) => (.error (.io error), connection)
      | (.ok buf, connection) =>
          if buf.isEmpty then
            if line.isEmpty then (.ok none, connection)
            else (.error (.anyhow "unexpected EOF in SMTP line read".toList), connection)
          else
            let n := lineOctets buf
            if maxLineLength < line.length + n then
              (.error (.anyhow "SMTP line is too long".toList), connection)
            else
              let line := line ++ buf.take n
              let connection := connection.consume n
              if line.getLast? = some lf then (.ok (some line), connection)
              else readLineWithin fetches line connection

abbrev SessionM (π H : Type) := EStateM Error (Session π H)

namespace Session

def new (connection : Connection π) (config : SessionConfig H) : Session π H :=
  ⟨some connection, config, .new, []⟩

def isTls (session : Session π H) : Bool := (session.connection.map Connection.isTls).getD false

/-- The client is authenticated, if it has to be. -/
def isAuthenticated (session : Session π H) : Bool :=
  if session.config.hasAuth then session.state.isAuthenticated else true

/-- The error of a stream as an error of the session. -/
def raise {α : Type} (outcome : Except IoError α × Connection π) :
    Except Error α × Connection π :=
  (outcome.1.mapError .io, outcome.2)

/-- An operation of the connection. -/
def onConnection {α : Type} (operation : Connection π → Except Error α × Connection π) :
    SessionM π H α := fun session =>
  match session.connection with
  | none => .error (.anyhow "connection was not valid".toList) session
  | some connection =>
      match operation connection with
      | (.ok a, connection) => .ok a { session with connection := some connection }
      | (.error error, connection) => .error error { session with connection := some connection }

/-- A callback of the handler and its entry in the log. -/
def callHandler {α : Type} (callback : H → α × H) (event : α → Event) : SessionM π H α :=
  fun session =>
    let (answer, handler) := callback session.config.handler
    .ok answer
      { session with
        config := { session.config with handler }
        log := session.log ++ [event answer] }

def setPhase (phase : Phase) : SessionM π H Unit :=
  modify fun session => { session with state := { session.state with phase } }

def modifyMail (change : Mail → Mail) : SessionM π H Unit :=
  modify fun session =>
    { session with
      state := { session.state with currentMail := change session.state.currentMail } }

def supportsTls : SessionM π H Bool := do
  match (← get).connection with
  | none => throw (.anyhow "connection was not valid".toList)
  | some connection => return connection.supportsTls

def readLine : SessionM π H (Option Bytes) :=
  onConnection (readLineWithin (maxLineLength + 1) [])

def reply (response : Response) : SessionM π H Unit := do
  let line := Utf8.encode response.line ++ [cr, lf]
  onConnection fun connection => raise (connection.writeAll line)
  onConnection fun connection => raise connection.flush
  modify fun session => { session with log := session.log ++ [.reply response] }

/-- Replies to EHLO, the last one not continued. -/
def replyFeatures : List Text → SessionM π H Unit
  | [] => return
  | [feature] => reply (.new 250 feature)
  | feature :: rest => do
      reply (.newContinued 250 feature)
      replyFeatures rest

def decodeBase64 (input : Bytes) : Except Text Bytes :=
  match Base64.decode (trimAscii (stripLineEnding input)) with
  | .ok decoded => .ok decoded
  | .error _ => .error "base64 decode error".toList

/-- The answer to a challenge, or nothing at the end of the stream. -/
def challenge (response : Response) : SessionM π H (Option Bytes) := do
  reply response
  readLine

/-- The initial response of an AUTH command, or else the answer to a challenge. -/
def initialOrChallenge (initial : Option Bytes) (response : Response) :
    SessionM π H (Option Bytes) :=
  match initial with
  | some initial => return some initial
  | none => challenge response

/-- Credentials of the PLAIN mechanism: three parts, of which the first is ignored. -/
def plainCredentials (credentials : Bytes) : AuthHandshakeResult :=
  match decodeBase64 credentials with
  | .error _ => .syntaxError "invalid base64 data".toList
  | .ok credentials =>
      match credentials.splitOn 0 with
      | [_, username, password] => .ok (Utf8.decodeLossy username) (Utf8.decodeLossy password)
      | _ => .syntaxError "invalid number of parts in PLAIN credential payload".toList

def handleAuthPlain (initial : Option Bytes) : SessionM π H AuthHandshakeResult := do
  match ← initialOrChallenge initial .authChallengePlain with
  | none => return .syntaxError "unexpected EOF in AUTH PLAIN challenge".toList
  | some credentials => return plainCredentials credentials

/-- One decoded string of the LOGIN mechanism; what is not base64 ends the session. -/
def decodeLoginString (input : Bytes) : SessionM π H Text :=
  match decodeBase64 input with
  | .ok decoded => return Utf8.decodeLossy decoded
  | .error error => throw (.anyhow error)

def handleAuthLogin (initial : Option Bytes) : SessionM π H AuthHandshakeResult := do
  match ← initialOrChallenge initial .authChallengeLoginUsername with
  | none => return .syntaxError "unexpected EOF in AUTH LOGIN challenge".toList
  | some username =>
      let username ← decodeLoginString username
      match ← challenge .authChallengeLoginPassword with
      | none => return .syntaxError "unexpected EOF in AUTH LOGIN challenge".toList
      | some password =>
          let password ← decodeLoginString password
          return .ok username password

def handleAuth (method : AuthMethod) (initial : Option Bytes) :
    SessionM π H AuthHandshakeResult :=
  match method with
  | .plain => handleAuthPlain initial
  | .login => handleAuthLogin initial

/-- A dot that starts a line of data stands before another one if it is data. -/
def unstuff (line : Bytes) : Bytes := if ascii ".." <+: line then line.drop 1 else line

def handleData (line : Bytes) : SessionM π H HandleDataResult := do
  if line = ascii ".\r\n" ∨ line = ascii ".\n" then
    return .dataEnd
  else
    let line := unstuff line
    let session ← get
    if session.config.maxMessageSize < session.state.currentMail.dataLength + line.length then
      reply .dataTooLong
      return .dataTooLong
    else
      modifyMail fun mail => mail.appendData line
      return .continue

/-- The reply to a mail that was handed over. -/
def mailReply : Except Text Unit → Response
  | .error error => Response.mailHandlerError.extend error
  | .ok () => .mailAccepted

/-- Hand the captured mail to the handler. -/
def deliver : SessionM π H Unit := do
  let session ← get
  let mail := session.state.currentMail
  let answer ← callHandler (Handler.onMail mail) (.mail mail · session.isTls)
  reply (mailReply answer)
  modifyMail fun _ => .empty
  setPhase .greeted

/-- A line in the data phase. -/
def dataLine (line : Bytes) : SessionM π H Unit := do
  match ← handleData line with
  | .continue => return
  | .dataEnd => deliver
  | .dataTooLong => throw (.anyhow "message data was too long.".toList)

def features (supportsTls : Bool) (config : SessionConfig H) : List Text :=
  ["8BITMIME".toList] ++ (if supportsTls then ["STARTTLS".toList] else []) ++
    (if config.hasAuth then ["AUTH PLAIN LOGIN".toList] else []) ++
    ["SIZE ".toList ++ Nat.toDigits 10 config.maxMessageSize]

/-- The replies to an accepted HELO or EHLO. -/
def replyHello (extended : Bool) : SessionM π H Unit := do
  let config := (← get).config
  if extended then
    reply (.newContinued 250 config.serverName)
    replyFeatures (features (← supportsTls) config)
  else
    reply (.new 250 config.serverName)

def hello (domain : Text) (extended : Bool) : SessionM π H Unit := do
  if !(← get).state.inPhase .connected then
    reply .badSequence
  else
    match ← callHandler (Handler.onHello domain extended) (.hello domain extended) with
    | .ok .ok =>
        replyHello extended
        setPhase .greeted
    | .ok .reject | .error _ => throw (.anyhow "client rejected during hello".toList)

def commands (supportsTls : Bool) (config : SessionConfig H) : List Text :=
  ["HELO", "EHLO", "HELP", "MAIL", "RCPT", "DATA", "RSET", "NOOP", "QUIT"].map String.toList ++
    (if config.hasAuth then ["AUTH".toList] else []) ++
    (if supportsTls then ["STARTTLS".toList] else [])

def help : SessionM π H Unit := do
  reply (.newContinued 250 "Commands supported".toList)
  let supported := commands (← supportsTls) (← get).config
  reply (.new 214 ([' '].intercalate supported))

/-- Replace the connection by its TLS upgrade. -/
def upgrade : SessionM π H Unit := fun session =>
  match session.connection with
  | none => .error (.anyhow "connection was not valid".toList) session
  | some connection =>
      match connection.startTls with
      | .error error => .error (.io error) { session with connection := none }
      | .ok secured =>
          .ok () { session with
            connection := some secured
            state := .new
            log := session.log ++ [.startTls] }

def startTls : SessionM π H Unit := do
  if !(← supportsTls) then
    reply (.syntaxError (some "TLS not supported".toList))
  else if !(← get).state.inPhase .greeted then
    reply .badSequence
  else
    reply .startTls
    upgrade

/-- The exchange of an admitted AUTH command and its verdict. -/
def login (method : AuthMethod) (initial : Option Bytes) : SessionM π H Unit := do
  match ← handleAuth method initial with
  | .syntaxError error => reply (.syntaxError (some error))
  | .ok username password =>
      let isTls := (← get).isTls
      match ← callHandler (Handler.onLogin username password)
          (.login username password · isTls) with
      | .ok .ok =>
          reply .authOk
          modify fun session => { session with state.isAuthenticated := true }
      | .ok .reject | .error _ =>
          reply .authFail
          throw (.anyhow "client rejected during login".toList)

def authenticate (method : AuthMethod) (initial : Option Bytes) : SessionM π H Unit := do
  let session ← get
  if !session.state.inPhase .greeted then
    reply .badSequence
  else
    match session.config.authMode with
    | .none => reply (.syntaxError none)
    | .requireTls =>
        match session.connection with
        | none => throw (.io (.raised .notConnected "no connection".toList))
        | some connection =>
            if connection.isTls then login method initial else reply .badSequence
    | .always => login method initial

/-- A command of a transaction: it needs its phase and an authenticated client. -/
def inTransaction (phase : Phase) (action : SessionM π H Unit) : SessionM π H Unit := do
  let session ← get
  if !session.state.inPhase phase then
    reply .badSequence
  else if !session.isAuthenticated then
    reply .authRequired
  else
    action

def mail (sender : Text) : SessionM π H Unit :=
  inTransaction .greeted do
    modifyMail fun _ => Mail.empty.setSender sender
    setPhase .envelope
    reply .ok

def recipient (address : Text) : SessionM π H Unit :=
  inTransaction .envelope do
    modifyMail fun mail => mail.addRecipient address
    reply .ok

def data : SessionM π H Unit :=
  inTransaction .envelope do
    setPhase .data
    reply .dataStart

def reset : SessionM π H Unit := do
  modify fun session => { session with state := .new }
  reply .reset
  -- An error of the handler is only written to the program's log.
  let _ ← callHandler Handler.onReset .reset

def handleCommand : Command → SessionM π H Control
  | .hello domain extended => do hello domain extended; return .next
  | .help => do help; return .next
  | .startTls => do startTls; return .next
  | .authenticate method initial => do authenticate method initial; return .next
  | .mail sender => do mail sender; return .next
  | .recipient address => do recipient address; return .next
  | .data => do data; return .next
  | .reset => do reset; return .next
  | .noOp => do reply .ok; return .next
  | .quit => do reply .goodbye; return .quit

/-- A line outside the data phase. -/
def commandLine (line : Bytes) : SessionM π H Control :=
  match Command.parse line with
  | .ok command => handleCommand command
  | .error error => do
      reply (.syntaxError (some error))
      return .next

/-- A line in whatever phase the session is. -/
def handleLine (line : Bytes) : SessionM π H Control := do
  if (← get).state.inPhase .data then
    dataLine line
    return .next
  else
    commandLine line

/-- One iteration of the loop of `Session::handle`. -/
def turn : SessionM π H Control := do
  match ← readLine with
  | none => throw (.anyhow "unexpected EOF".toList)
  | some line => handleLine line

/-- The loop's body as a step of the loop. -/
def iteration (session : Session π H) : Flow (Session π H) (Except Error Unit) :=
  match turn session with
  | .ok .next session => .running session
  | .ok .quit session => .stopped session (.ok ())
  | .error error session => .stopped session (.error error)

/-- Send the banner. -/
def greet (session : Session π H) : Flow (Session π H) (Except Error Unit) :=
  match reply (.banner session.config.serverName) session with
  | .ok () session => .running session
  | .error error session => .stopped session (.error error)

/-- `Session::handle` after at most the given number of lines. -/
def handle (turns : Nat) (session : Session π H) : Flow (Session π H) (Except Error Unit) :=
  Flow.iterate iteration turns (greet session)

end Session

end PostGraph.Smtp
