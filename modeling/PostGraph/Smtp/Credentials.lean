import PostGraph.Foundation.Base64
import PostGraph.Smtp.Grammar
import PostGraph.Smtp.Refinement

/-! # Credentials

A client sends its credentials in the AUTH line or in answer to challenges, in base64.
Whichever way it takes, the handler gets the username and the password as they are.
-/

namespace PostGraph.Smtp

open Foundation Foundation.Framing

theorem ended_append {body ending : Bytes} (hbody : cr ∉ body)
    (hending : ending = [cr, lf] ∨ ending = [lf]) : Ended body (body ++ ending) := by
  rcases hending with rfl | rfl
  · exact .crlf body
  · exact .onlyLf fun hlast => hbody (List.mem_of_getLast? hlast)

/-! ## The exchange -/

/-- Octets in base64 with spaces around them, and what ends their line. -/
structure Wrapping where
  before : Nat
  after : Nat
  ending : Bytes
  ending_eq : ending = [cr, lf] ∨ ending = [lf]

/-- A login as a client may write it: the words in any case, and the first payload
inline or in answer to a challenge. The authorisation identity is there for PLAIN
only. -/
structure LoginExchange where
  method : AuthMethod
  inline : Bool
  identity : Bytes
  username : Text
  password : Text
  verb : Bytes
  mechanism : Bytes
  ending : Bytes
  first : Wrapping
  second : Wrapping
  verb_eq : SameIgnoringCase verb "AUTH"
  mechanism_eq : SameIgnoringCase mechanism method.keyword
  ending_eq : ending = [cr, lf] ∨ ending = [lf]
  free : method = .plain → 0 ∉ identity ∧ '\x00' ∉ username ∧ '\x00' ∉ password

namespace LoginExchange

variable (exchange : LoginExchange)

theorem notMem_words {b : UInt8} (hb : b < sp) :
    b ∉ exchange.verb ++ sp :: exchange.mechanism := by
  have hauth : Plain "AUTH" := by decide
  simp only [List.mem_append, List.mem_cons, not_or]
  exact ⟨exchange.verb_eq.notMem hauth (UInt8.le_of_lt hb), UInt8.ne_of_lt hb,
    exchange.mechanism_eq.notMem (Command.plain_keyword exchange.method) (UInt8.le_of_lt hb)⟩

end LoginExchange

section Library

variable [Base64]

namespace Wrapping

variable (wrapping : Wrapping)

/-- The payload of a line. -/
def payload (octets : Bytes) : Bytes :=
  List.replicate wrapping.before sp ++ Base64.encode octets ++ List.replicate wrapping.after sp

def line (octets : Bytes) : Bytes := wrapping.payload octets ++ wrapping.ending

variable [LawfulBase64]

theorem space_le_payload {octets : Bytes} {b : UInt8} (hb : b ∈ wrapping.payload octets) :
    sp ≤ b := by
  simp only [payload, List.mem_append, List.mem_replicate] at hb
  rcases hb with (⟨-, rfl⟩ | hb) | ⟨-, rfl⟩
  · exact UInt8.le_refl sp
  · exact UInt8.le_of_lt (LawfulBase64.encode_graphic octets b hb)
  · exact UInt8.le_refl sp

theorem cr_notMem_payload (octets : Bytes) : cr ∉ wrapping.payload octets :=
  fun hmem => absurd (wrapping.space_le_payload hmem) (by decide)

theorem lf_notMem_payload (octets : Bytes) : lf ∉ wrapping.payload octets :=
  fun hmem => absurd (wrapping.space_le_payload hmem) (by decide)

theorem isLine_line (octets : Bytes) : IsLine (wrapping.line octets) :=
  isLine_append (wrapping.lf_notMem_payload octets) wrapping.ending_eq

theorem trimAscii_payload (octets : Bytes) :
    trimAscii (wrapping.payload octets) = Base64.encode octets :=
  trimAscii_surround _ _ (LawfulBase64.encode_graphic octets)

theorem decodeBase64_payload (octets : Bytes) :
    Session.decodeBase64 (wrapping.payload octets) = .ok octets := by
  have hopen : (wrapping.payload octets).getLast? ≠ some lf :=
    fun hlast => wrapping.lf_notMem_payload octets (List.mem_of_getLast? hlast)
  rw [Session.decodeBase64, stripLineEnding_unended hopen, trimAscii_payload,
    LawfulBase64.decode_encode]

theorem decodeBase64_line (octets : Bytes) :
    Session.decodeBase64 (wrapping.line octets) = .ok octets := by
  have hended : Ended (wrapping.payload octets) (wrapping.line octets) :=
    ended_append (wrapping.cr_notMem_payload octets) wrapping.ending_eq
  rw [Session.decodeBase64, hended.stripLineEnding, trimAscii_payload, LawfulBase64.decode_encode]

end Wrapping

namespace LoginExchange

variable (exchange : LoginExchange)

/-- What the first payload says. -/
def firstSecret : Bytes :=
  match exchange.method with
  | .plain =>
      exchange.identity ++
        0 :: (Utf8.encode exchange.username ++ 0 :: Utf8.encode exchange.password)
  | .login => Utf8.encode exchange.username

/-- The initial response, if there is one. -/
def initial : Option Bytes :=
  if exchange.inline then some (exchange.first.payload exchange.firstSecret) else none

/-- The AUTH line. -/
def command : Bytes :=
  if exchange.inline then
    exchange.verb ++
      sp :: (exchange.mechanism ++ sp :: exchange.first.payload exchange.firstSecret) ++
      exchange.ending
  else exchange.verb ++ sp :: exchange.mechanism ++ exchange.ending

/-- The answers to the challenges. -/
def answers : List Bytes :=
  (if exchange.inline then [] else [exchange.first.line exchange.firstSecret]) ++
    match exchange.method with
    | .plain => []
    | .login => [exchange.second.line (Utf8.encode exchange.password)]

def lines : List Bytes := exchange.command :: exchange.answers

/-- The challenges that the session sends. -/
def challenges : List Response :=
  match exchange.method with
  | .plain => if exchange.inline then [] else [.authChallengePlain]
  | .login =>
      (if exchange.inline then [] else [.authChallengeLoginUsername]) ++
        [.authChallengeLoginPassword]

variable [LawfulBase64]

theorem notMem_inline {b : UInt8} (hb : b < sp) :
    b ∉ exchange.verb ++ sp ::
      (exchange.mechanism ++ sp :: exchange.first.payload exchange.firstSecret) := by
  have hwords := exchange.notMem_words hb
  simp only [List.mem_append, List.mem_cons, not_or] at hwords ⊢
  exact ⟨hwords.1, hwords.2.1, hwords.2.2, hwords.2.1,
    fun hmem => absurd (exchange.first.space_le_payload hmem) (UInt8.not_le.mpr hb)⟩

theorem isLine_command : IsLine exchange.command := by
  unfold command
  split
  · exact isLine_append (exchange.notMem_inline (by decide)) exchange.ending_eq
  · exact isLine_append (exchange.notMem_words (by decide)) exchange.ending_eq

theorem parse_command :
    Command.parse exchange.command = .ok (.authenticate exchange.method exchange.initial) := by
  unfold command initial
  split
  · exact (Command.Grammar.authenticateWith exchange.method _ exchange.verb_eq
      exchange.mechanism_eq).parse
        (ended_append (exchange.notMem_inline (by decide)) exchange.ending_eq)
  · exact (Command.Grammar.authenticate exchange.method exchange.verb_eq
      exchange.mechanism_eq).parse
        (ended_append (exchange.notMem_words (by decide)) exchange.ending_eq)

end LoginExchange

/-! ## The session's side -/

namespace Session

variable {H : Type}

omit [Base64] in
/-- Octets that are still to come arrive behind the challenge. -/
theorem challenge_eq_readLine {session : Session Wire H} {octets : Bytes} (response : Response)
    (hdelivers : session.Delivers octets) :
    challenge response session =
      readLine { session with log := session.log ++ [.reply response] } := by
  obtain ⟨connection, hconnection, -⟩ := hdelivers
  obtain ⟨_, config, state, log⟩ := session
  cases hconnection
  rw [challenge, bind_apply, reply_wire]

omit [Base64] in
/-- A challenge and the line that answers it. -/
theorem challenge_line {session : Session Wire H} {line rest : Bytes} (response : Response)
    (hline : IsLine line) (hlength : line.length ≤ maxLineLength)
    (hdelivers : session.Delivers (line ++ rest)) :
    ∃ connection, challenge response session = .ok (some line)
        { session with
          connection := some connection, log := session.log ++ [.reply response] } ∧
      connection.pending = rest ∧ connection.isTls = session.isTls := by
  have hreplied : Delivers { session with log := session.log ++ [.reply response] }
      (line ++ rest) := hdelivers
  obtain ⟨connection, hread, hpending, htls⟩ := readLine_line hline hlength hreplied
  refine ⟨connection, ?_, hpending, htls⟩
  rw [challenge_eq_readLine response hdelivers, hread]

/-- Decoding finds the three parts again. -/
theorem plainCredentials_of_decode {payload identity : Bytes} {username password : Text}
    (hdecode : decodeBase64 payload =
      .ok (identity ++ 0 :: (Utf8.encode username ++ 0 :: Utf8.encode password)))
    (hidentity : 0 ∉ identity) (husername : '\x00' ∉ username) (hpassword : '\x00' ∉ password) :
    plainCredentials payload = .ok username password := by
  have hfree : ∀ {t : Text}, '\x00' ∉ t → 0 ∉ Utf8.encode t :=
    fun ht hmem => ht (Utf8.mem_encode_ascii hmem (by decide))
  have hsplit : (identity ++ 0 :: (Utf8.encode username ++ 0 :: Utf8.encode password)).splitOn 0 =
      [identity, Utf8.encode username, Utf8.encode password] := by
    rw [List.splitOn_append_cons_self_of_not_mem hidentity,
      List.splitOn_append_cons_self_of_not_mem (hfree husername),
      List.splitOn_eq_singleton (hfree hpassword)]
  rw [plainCredentials, hdecode]
  dsimp only
  rw [hsplit]
  dsimp only
  rw [Utf8.decodeLossy_encode, Utf8.decodeLossy_encode]

theorem decodeLoginString_of_decode {payload : Bytes} {t : Text}
    (hdecode : decodeBase64 payload = .ok (Utf8.encode t)) :
    (decodeLoginString payload : SessionM Wire H Text) = pure t := by
  rw [decodeLoginString, hdecode]
  dsimp only
  rw [Utf8.decodeLossy_encode]

variable [LawfulBase64]

/-- The first payload, inline or asked for. -/
theorem initialOrChallenge_exchange (exchange : LoginExchange) {session : Session Wire H}
    {rest : Bytes} (response : Response)
    (hlength : exchange.inline = false →
      (exchange.first.line exchange.firstSecret).length ≤ maxLineLength)
    (hdelivers : session.Delivers
      ((if exchange.inline then [] else exchange.first.line exchange.firstSecret) ++ rest)) :
    ∃ connection payload, initialOrChallenge exchange.initial response session = .ok (some payload)
        { session with
          connection := some connection
          log := session.log ++
            (if exchange.inline then [] else [response]).map .reply } ∧
      decodeBase64 payload = .ok exchange.firstSecret ∧
      connection.pending = rest ∧ connection.isTls = session.isTls := by
  unfold LoginExchange.initial
  cases hinline : exchange.inline with
  | true =>
      rw [hinline, if_pos rfl, List.nil_append] at hdelivers
      obtain ⟨connection, hconnection, hpending⟩ := hdelivers
      obtain ⟨_, config, state, log⟩ := session
      cases hconnection
      refine ⟨connection, _, ?_, exchange.first.decodeBase64_payload _, hpending, rfl⟩
      simp [initialOrChallenge]
  | false =>
      rw [hinline, if_neg Bool.false_ne_true] at hdelivers
      obtain ⟨connection, hchallenge, hpending, htls⟩ :=
        challenge_line response (exchange.first.isLine_line _) (hlength hinline) hdelivers
      exact ⟨connection, _, hchallenge, exchange.first.decodeBase64_line _, hpending, htls⟩

/-- The exchange of PLAIN. -/
theorem handleAuthPlain_exchange (exchange : LoginExchange) (hmethod : exchange.method = .plain)
    {session : Session Wire H} {rest : Bytes}
    (hlengths : ∀ line ∈ exchange.answers, line.length ≤ maxLineLength)
    (hdelivers : session.Delivers (exchange.answers.flatten ++ rest)) :
    ∃ connection, handleAuthPlain exchange.initial session =
        .ok (.ok exchange.username exchange.password) { session with
          connection := some connection
          log := session.log ++ exchange.challenges.map .reply } ∧
      connection.pending = rest ∧ connection.isTls = session.isTls := by
  obtain ⟨hidentity, husername, hpassword⟩ := exchange.free hmethod
  have hanswers : exchange.answers.flatten ++ rest =
      (if exchange.inline then [] else exchange.first.line exchange.firstSecret) ++ rest := by
    rw [LoginExchange.answers, hmethod]
    cases exchange.inline <;> simp
  rw [hanswers] at hdelivers
  obtain ⟨connection, payload, hfirst, hdecode, hpending, htls⟩ :=
    initialOrChallenge_exchange exchange .authChallengePlain
      (fun hinline => hlengths _ (by simp [LoginExchange.answers, hinline])) hdelivers
  refine ⟨connection, ?_, hpending, htls⟩
  have hsecret : exchange.firstSecret = exchange.identity ++
      0 :: (Utf8.encode exchange.username ++ 0 :: Utf8.encode exchange.password) := by
    rw [LoginExchange.firstSecret, hmethod]
  rw [hsecret] at hdecode
  rw [handleAuthPlain, bind_apply, hfirst]
  dsimp only
  rw [pure_apply, plainCredentials_of_decode hdecode hidentity husername hpassword,
    LoginExchange.challenges, hmethod]

/-- The exchange of LOGIN. -/
theorem handleAuthLogin_exchange (exchange : LoginExchange) (hmethod : exchange.method = .login)
    {session : Session Wire H} {rest : Bytes}
    (hlengths : ∀ line ∈ exchange.answers, line.length ≤ maxLineLength)
    (hdelivers : session.Delivers (exchange.answers.flatten ++ rest)) :
    ∃ connection, handleAuthLogin exchange.initial session =
        .ok (.ok exchange.username exchange.password) { session with
          connection := some connection
          log := session.log ++ exchange.challenges.map .reply } ∧
      connection.pending = rest ∧ connection.isTls = session.isTls := by
  have hanswers : exchange.answers.flatten ++ rest =
      (if exchange.inline then [] else exchange.first.line exchange.firstSecret) ++
        (exchange.second.line (Utf8.encode exchange.password) ++ rest) := by
    rw [LoginExchange.answers, hmethod]
    cases exchange.inline <;> simp
  rw [hanswers] at hdelivers
  obtain ⟨asked, payload, hfirst, hdecode, hpending, htls⟩ :=
    initialOrChallenge_exchange exchange .authChallengeLoginUsername
      (fun hinline => hlengths _ (by simp [LoginExchange.answers, hinline])) hdelivers
  have hsecret : exchange.firstSecret = Utf8.encode exchange.username := by
    rw [LoginExchange.firstSecret, hmethod]
  rw [hsecret] at hdecode
  have hleft : Delivers { session with
      connection := some asked
      log := session.log ++
        (if exchange.inline then [] else [Response.authChallengeLoginUsername]).map .reply }
      (exchange.second.line (Utf8.encode exchange.password) ++ rest) := ⟨asked, rfl, hpending⟩
  obtain ⟨connection, hsecond, hrest, htls'⟩ :=
    challenge_line .authChallengeLoginPassword (exchange.second.isLine_line _)
      (hlengths _ (by simp [LoginExchange.answers, hmethod])) hleft
  refine ⟨connection, ?_, hrest, htls'.trans htls⟩
  rw [handleAuthLogin, bind_apply, hfirst]
  dsimp only
  rw [decodeLoginString_of_decode hdecode, bind_apply, pure_apply]
  dsimp only
  rw [bind_apply, hsecond]
  dsimp only
  rw [decodeLoginString_of_decode (exchange.second.decodeBase64_line _), bind_apply, pure_apply]
  dsimp only
  rw [pure_apply, LoginExchange.challenges, hmethod]
  simp

theorem handleAuth_exchange (exchange : LoginExchange) {session : Session Wire H} {rest : Bytes}
    (hlengths : ∀ line ∈ exchange.answers, line.length ≤ maxLineLength)
    (hdelivers : session.Delivers (exchange.answers.flatten ++ rest)) :
    ∃ connection, handleAuth exchange.method exchange.initial session =
        .ok (.ok exchange.username exchange.password) { session with
          connection := some connection
          log := session.log ++ exchange.challenges.map .reply } ∧
      connection.pending = rest ∧ connection.isTls = session.isTls := by
  cases hmethod : exchange.method with
  | plain => exact handleAuthPlain_exchange exchange hmethod hlengths hdelivers
  | login => exact handleAuthLogin_exchange exchange hmethod hlengths hdelivers

end Session

/-! ## Logins -/

namespace Session

variable {π H : Type} [Transport π] [Handler H]

/-- An AUTH command that the mode admits starts its exchange. -/
theorem authenticate_eq_login {session : Session π H} (method : AuthMethod)
    (initial : Option Bytes) (hphase : session.state.phase = .greeted)
    (hmay : session.dialogue.MayLogIn) :
    authenticate method initial session = login method initial session := by
  have hgreeted : session.state.inPhase .greeted = true := decide_eq_true hphase
  rw [authenticate, bind_apply, get_apply]
  dsimp only
  rw [hgreeted]
  rcases hmay with halways | ⟨hrequired, htls⟩
  · have hmode : session.config.authMode = .always := halways
    rw [hmode]
    rfl
  · have hmode : session.config.authMode = .requireTls := hrequired
    rw [dialogue_isTls] at htls
    rw [hmode]
    cases hconnection : session.connection with
    | none => simp [isTls, hconnection] at htls
    | some connection =>
        have hsecured : connection.isTls = true := by simpa [isTls, hconnection] using htls
        simp [hsecured]

/-- The next line starts an exchange if it is an AUTH command and the mode admits it. -/
theorem turn_authenticate {session : Session Wire H} {line rest : Bytes} {method : AuthMethod}
    {initial : Option Bytes} (hparse : Command.parse line = .ok (.authenticate method initial))
    (hphase : session.state.phase = .greeted) (hmay : session.dialogue.MayLogIn)
    (hline : IsLine line) (hlength : line.length ≤ maxLineLength)
    (hdelivers : session.Delivers (line ++ rest)) :
    ∃ connection, turn session = (login method initial >>= fun _ => pure .next)
        { session with connection := some connection } ∧
      connection.pending = rest ∧ connection.isTls = session.isTls := by
  obtain ⟨connection, hturn, hpending, htls⟩ := turn_line hline hlength hdelivers
  refine ⟨connection, ?_, hpending, htls⟩
  obtain ⟨before, config, state, log⟩ := session
  have hopen : state.phase ≠ .data := by
    rw [show state.phase = .greeted from hphase]
    decide
  have hmay' : (Session.mk (some connection) config state log).dialogue.MayLogIn := by
    rw [Dialogue.MayLogIn, dialogue_isTls] at hmay ⊢
    rwa [show isTls ⟨some connection, config, state, log⟩ = isTls ⟨before, config, state, log⟩
      from htls]
  have hlogin : authenticate method initial ⟨some connection, config, state, log⟩ =
      login method initial ⟨some connection, config, state, log⟩ :=
    authenticate_eq_login method initial hphase hmay'
  rw [hturn, handleLine_command hopen hparse, handleCommand, bind_apply, hlogin, bind_apply]

/-- An exchange that gives credentials ends in the handler's verdict. -/
theorem login_of_handleAuth {method : AuthMethod} {initial : Option Bytes}
    {session : Session Wire H} {username password : Text} {connection : Connection Wire}
    {config : SessionConfig H} {state : SessionState} {log : List Event}
    (hauth : handleAuth method initial session =
      .ok (.ok username password) ⟨some connection, config, state, log⟩) :
    let (answer, handler) := Handler.onLogin username password config.handler
    let asked := log ++ [.login username password answer connection.isTls]
    login method initial session =
      if answer = .ok .ok then
        .ok () ⟨some connection, { config with handler }, { state with isAuthenticated := true },
          asked ++ [.reply .authOk]⟩
      else
        .error (.anyhow "client rejected during login".toList)
          ⟨some connection, { config with handler }, state, asked ++ [.reply .authFail]⟩ := by
  rw [login, bind_apply, hauth]
  dsimp only
  rw [bind_apply, get_apply]
  dsimp only
  rw [bind_apply, callHandler]
  obtain ⟨answer, handler⟩ := Handler.onLogin username password config.handler
  rcases answer with error | (_ | _)
  · simp [isTls]
  · simp [isTls]
  · simp [isTls]

variable [LawfulBase64]

/-- Whichever way the credentials take, the handler is asked once, about these, and
the session goes on behind the exchange if the handler accepts them. -/
theorem credentials_reach_handler (exchange : LoginExchange) {session : Session Wire H}
    {rest : Bytes} (hphase : session.state.phase = .greeted) (hmay : session.dialogue.MayLogIn)
    (hlengths : ∀ line ∈ exchange.lines, line.length ≤ maxLineLength)
    (hdelivers : session.Delivers (exchange.lines.flatten ++ rest)) :
    let (answer, handler) :=
      Handler.onLogin exchange.username exchange.password session.config.handler
    let asked := session.log ++ exchange.challenges.map .reply ++
      [.login exchange.username exchange.password answer session.isTls]
    ∃ connection, connection.pending = rest ∧ iteration session =
      if answer = .ok .ok then
        .running ⟨some connection, { session.config with handler },
          { session.state with isAuthenticated := true }, asked ++ [.reply .authOk]⟩
      else
        .stopped ⟨some connection, { session.config with handler }, session.state,
          asked ++ [.reply .authFail]⟩
          (.error (.anyhow "client rejected during login".toList)) := by
  rw [LoginExchange.lines, List.flatten_cons, List.append_assoc] at hdelivers
  obtain ⟨hlength, hlengths⟩ := List.forall_mem_cons.mp hlengths
  obtain ⟨read, hturn, hpending, htls⟩ := turn_authenticate exchange.parse_command hphase hmay
    exchange.isLine_command hlength hdelivers
  have hleft : Delivers { session with connection := some read }
      (exchange.answers.flatten ++ rest) := ⟨read, rfl, hpending⟩
  obtain ⟨connection, hauth, hrest, hsame⟩ := handleAuth_exchange exchange hlengths hleft
  have hsecured : connection.isTls = session.isTls := hsame.trans htls
  have hlogin := login_of_handleAuth hauth
  rw [hsecured] at hlogin
  dsimp only at hlogin ⊢
  refine ⟨connection, hrest, ?_⟩
  rw [iteration, hturn, bind_apply, hlogin]
  by_cases haccepted :
      (Handler.onLogin exchange.username exchange.password session.config.handler).1 = .ok .ok
  · rw [if_pos haccepted, if_pos haccepted]
    rfl
  · rw [if_neg haccepted, if_neg haccepted]

end Session

end Library

section Sample

open Session

attribute [local instance] standardBase64 lawful_standardBase64

theorem mixedCase_verb : SameIgnoringCase (ascii "aUTH") "AUTH" := by decide

theorem mixedCase_mechanism :
    SameIgnoringCase (ascii "lOGIN") AuthMethod.login.keyword := by decide

theorem crlf_ends : ([cr, lf] : Bytes) = [cr, lf] ∨ ([cr, lf] : Bytes) = [lf] := .inl rfl

theorem lf_ends : ([lf] : Bytes) = [cr, lf] ∨ ([lf] : Bytes) = [lf] := .inr rfl

/-- LOGIN in mixed case with a user name, in answer to a challenge, and no password. -/
def sampleExchange : LoginExchange where
  method := .login
  inline := false
  identity := []
  username := ['b', 'ö', 'b']
  password := []
  verb := ascii "aUTH"
  mechanism := ascii "lOGIN"
  ending := [lf]
  first := ⟨0, 1, [cr, lf], crlf_ends⟩
  second := ⟨2, 0, [lf], lf_ends⟩
  verb_eq := mixedCase_verb
  mechanism_eq := mixedCase_mechanism
  ending_eq := lf_ends
  free := nofun

/-- A session that awaits these lines. -/
def sampleLogin : Session Wire Unit :=
  ⟨some (.newPlain ⟨[sampleExchange.lines.flatten], [], by decide, Wire.noChunks⟩ none),
    ⟨(), "s".toList, .always, 100⟩, ⟨.greeted, false, .empty⟩, []⟩

theorem Session.credentials_reach_handler_sample : ∃ connection, connection.pending = [] ∧
    iteration sampleLogin = .running ⟨some connection, sampleLogin.config,
      ⟨.greeted, true, .empty⟩,
      [.reply .authChallengeLoginUsername, .reply .authChallengeLoginPassword,
        .login ['b', 'ö', 'b'] [] (.ok .ok) false, .reply .authOk]⟩ :=
  credentials_reach_handler sampleExchange rfl (.inl rfl) (by decide) ⟨_, rfl, by decide⟩

end Sample

end PostGraph.Smtp
