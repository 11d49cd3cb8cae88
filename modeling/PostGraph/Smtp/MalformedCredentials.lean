import PostGraph.Smtp.Credentials

/-! # Malformed credentials

PLAIN answers credentials that it cannot read with a syntax error and goes on. LOGIN
ends the session instead, at whichever step the payload is malformed.
-/

namespace PostGraph.Smtp

open Foundation Foundation.Framing

namespace Session

section Library

variable [Base64]

def IsBase64 (payload : Bytes) : Prop := ∃ octets, decodeBase64 payload = .ok octets

/-- The payload says what PLAIN expects. -/
def IsPlainPayload (payload : Bytes) : Prop :=
  ∃ octets, decodeBase64 payload = .ok octets ∧ (octets.splitOn 0).length = 3

/-- The first malformed payload of an exchange is the initial response, or the last
answer. -/
inductive Malformed : AuthMethod → Option Bytes → List Bytes → Prop
  | plainInline {payload : Bytes} (hpayload : ¬ IsPlainPayload payload) :
      Malformed .plain (some payload) []
  | plainChallenge {line : Bytes} (hpayload : ¬ IsPlainPayload line) : Malformed .plain none [line]
  | usernameInline {payload : Bytes} (hpayload : ¬ IsBase64 payload) :
      Malformed .login (some payload) []
  | usernameChallenge {line : Bytes} (hpayload : ¬ IsBase64 line) : Malformed .login none [line]
  | passwordInline {username line : Bytes} (husername : IsBase64 username)
      (hpayload : ¬ IsBase64 line) : Malformed .login (some username) [line]
  | passwordChallenge {username line : Bytes} (husername : IsBase64 username)
      (hpayload : ¬ IsBase64 line) : Malformed .login none [username, line]

variable {H : Type}

omit [Base64] in
/-- A challenge that is answered by a line of any length. -/
theorem challenge_sat {session : Session Wire H} {line rest : Bytes} (response : Response)
    (hline : IsLine line) (hdelivers : session.Delivers (line ++ rest)) :
    Sat (challenge response) session
      (fun answer after => line.length ≤ maxLineLength ∧ answer = some line ∧ after.Delivers rest)
      fun _ _ => True := by
  by_cases hlength : line.length ≤ maxLineLength
  · obtain ⟨connection, hchallenge, hpending, -⟩ :=
      challenge_line response hline hlength hdelivers
    unfold Sat
    rw [hchallenge]
    exact ⟨hlength, rfl, connection, rfl, hpending⟩
  · have hreplied : Delivers { session with log := session.log ++ [.reply response] }
        (line ++ rest) := hdelivers
    obtain ⟨connection, hread⟩ :=
      readLine_error hreplied (nextLine_overlong hline (Nat.lt_of_not_le hlength) rest)
    unfold Sat
    rw [challenge_eq_readLine response hdelivers, hread]
    trivial

theorem plainCredentials_malformed {payload : Bytes} (hpayload : ¬ IsPlainPayload payload) :
    ∃ error, plainCredentials payload = .syntaxError error := by
  unfold plainCredentials
  cases hdecode : decodeBase64 payload with
  | error error => exact ⟨_, rfl⟩
  | ok octets =>
      dsimp only
      split
      next hparts => exact absurd ⟨octets, hdecode, by rw [hparts]; rfl⟩ hpayload
      next => exact ⟨_, rfl⟩

theorem decodeLoginString_sat {payload : Bytes} (session : Session Wire H) :
    Sat (decodeLoginString payload) session
      (fun _ after => IsBase64 payload ∧ after = session) fun _ _ => True := by
  unfold decodeLoginString
  cases hdecode : decodeBase64 payload with
  | error error => exact Sat.throw trivial
  | ok octets => exact Sat.pure ⟨⟨octets, hdecode⟩, rfl⟩

/-- The last step of LOGIN, the password's. -/
theorem password_fails {session : Session Wire H} {line rest : Bytes} (username : Text)
    (hpayload : ¬ IsBase64 line) (hline : IsLine line)
    (hdelivers : session.Delivers (line ++ rest)) :
    Sat (do
        match ← challenge .authChallengeLoginPassword with
        | none => return .syntaxError "unexpected EOF in AUTH LOGIN challenge".toList
        | some password =>
            let password ← decodeLoginString password
            return AuthHandshakeResult.ok username password)
      session (fun _ _ => False) fun _ _ => True := by
  apply Sat.bind (challenge_sat _ hline hdelivers)
  rintro _ middle ⟨-, rfl, -⟩
  apply Sat.bind (decodeLoginString_sat middle)
  rintro _ _ ⟨hbase64, -⟩
  exact absurd hbase64 hpayload

theorem handleAuthLogin_malformed {session : Session Wire H} {initial : Option Bytes}
    {answers : List Bytes} {rest : Bytes} (hmalformed : Malformed .login initial answers)
    (hlines : ∀ line ∈ answers, IsLine line)
    (hdelivers : session.Delivers (answers.flatten ++ rest)) :
    Sat (handleAuthLogin initial) session (fun _ _ => False) fun _ _ => True := by
  cases hmalformed with
  | usernameInline hpayload =>
      apply Sat.bind (decodeLoginString_sat session)
      rintro _ _ ⟨hbase64, -⟩
      exact absurd hbase64 hpayload
  | @usernameChallenge line hpayload =>
      rw [List.flatten_singleton] at hdelivers
      apply Sat.bind (challenge_sat _ (hlines line List.mem_cons_self) hdelivers)
      rintro _ middle ⟨-, rfl, -⟩
      apply Sat.bind (decodeLoginString_sat middle)
      rintro _ _ ⟨hbase64, -⟩
      exact absurd hbase64 hpayload
  | @passwordInline username line husername hpayload =>
      rw [List.flatten_singleton] at hdelivers
      apply Sat.bind (decodeLoginString_sat session)
      rintro name _ ⟨-, rfl⟩
      exact password_fails name hpayload (hlines line List.mem_cons_self) hdelivers
  | @passwordChallenge username line husername hpayload =>
      rw [List.flatten_cons, List.flatten_singleton, List.append_assoc] at hdelivers
      apply Sat.bind (challenge_sat _ (hlines username List.mem_cons_self) hdelivers)
      rintro _ middle ⟨-, rfl, hleft⟩
      apply Sat.bind (decodeLoginString_sat middle)
      rintro name _ ⟨-, rfl⟩
      exact password_fails name hpayload
        (hlines line (List.mem_cons_of_mem _ List.mem_cons_self)) hleft

/-- A malformed payload of PLAIN is found out, whether or not it was asked for. -/
theorem handleAuthPlain_malformed {session : Session Wire H} {initial : Option Bytes}
    {answers : List Bytes} {rest : Bytes} (hmalformed : Malformed .plain initial answers)
    (hlines : ∀ line ∈ answers, IsLine line)
    (hlengths : ∀ line ∈ answers, line.length ≤ maxLineLength)
    (hdelivers : session.Delivers (answers.flatten ++ rest)) :
    ∃ connection, ∃ challenges : List Response, ∃ error,
      (∀ challenge ∈ challenges, challenge.code = 334) ∧
      handleAuthPlain initial session = .ok (.syntaxError error) { session with
        connection := some connection, log := session.log ++ challenges.map .reply } ∧
      connection.pending = rest ∧ connection.isTls = session.isTls := by
  cases hmalformed with
  | plainInline hpayload =>
      obtain ⟨error, herror⟩ := plainCredentials_malformed hpayload
      obtain ⟨connection, hconnection, hpending⟩ := hdelivers
      obtain ⟨_, config, state, log⟩ := session
      cases hconnection
      refine ⟨connection, [], error, List.forall_mem_nil _, ?_, hpending, rfl⟩
      simp [handleAuthPlain, initialOrChallenge, herror]
  | @plainChallenge line hpayload =>
      obtain ⟨error, herror⟩ := plainCredentials_malformed hpayload
      rw [List.flatten_singleton] at hdelivers
      obtain ⟨connection, hchallenge, hpending, htls⟩ := challenge_line .authChallengePlain
        (hlines line List.mem_cons_self) (hlengths line List.mem_cons_self) hdelivers
      refine ⟨connection, [.authChallengePlain], error, by decide, ?_, hpending, htls⟩
      rw [handleAuthPlain, initialOrChallenge, bind_apply, hchallenge]
      dsimp only
      rw [herror]
      rfl

/-- PLAIN fails only if an answer is too long to be read. -/
theorem handleAuthPlain_lengths {session : Session Wire H} {initial : Option Bytes}
    {answers : List Bytes} {rest : Bytes} (hmalformed : Malformed .plain initial answers)
    (hlines : ∀ line ∈ answers, IsLine line)
    (hdelivers : session.Delivers (answers.flatten ++ rest)) :
    Sat (handleAuthPlain initial) session
      (fun _ _ => ∀ line ∈ answers, line.length ≤ maxLineLength) fun _ _ => True := by
  cases hmalformed with
  | plainInline hpayload => exact List.forall_mem_nil _
  | @plainChallenge line hpayload =>
      rw [List.flatten_singleton] at hdelivers
      apply Sat.bind (challenge_sat _ (hlines line List.mem_cons_self) hdelivers)
      rintro _ _ ⟨hlength, rfl, -⟩
      exact List.forall_mem_singleton.mpr hlength

/-- What it takes for an exchange to be refused in good order. -/
theorem handleAuth_returns {session : Session Wire H} {method : AuthMethod}
    {initial : Option Bytes} {answers : List Bytes} {rest : Bytes}
    (hmalformed : Malformed method initial answers) (hlines : ∀ line ∈ answers, IsLine line)
    (hdelivers : session.Delivers (answers.flatten ++ rest)) :
    Sat (handleAuth method initial) session
      (fun _ _ => method = .plain ∧ ∀ line ∈ answers, line.length ≤ maxLineLength)
      fun _ _ => True := by
  cases method with
  | plain =>
      apply (handleAuthPlain_lengths hmalformed hlines hdelivers).mono
      · exact fun _ _ hlengths => ⟨rfl, hlengths⟩
      · exact fun _ _ => id
  | login =>
      apply (handleAuthLogin_malformed hmalformed hlines hdelivers).mono
      · exact fun _ _ => False.elim
      · exact fun _ _ => id

variable [Handler H]

/-- The session has refused the exchange and goes on with the lines behind it: the
replies are all that is new. -/
def Recovers (session : Session Wire H) (rest : Bytes) : Prop :=
  ∃ after, ∃ challenges : List Response, ∃ refusal, iteration session = .running after ∧
    after.log = session.log ++ (challenges ++ [refusal]).map .reply ∧
    (∀ challenge ∈ challenges, challenge.code = 334) ∧ refusal.code = 500 ∧
    after.state = session.state ∧ after.config = session.config ∧
    after.isTls = session.isTls ∧ after.Delivers rest

/-- A malformed exchange is a recoverable error if the mechanism is PLAIN and no line
is too long to be read, and otherwise the session ends. -/
theorem recovers_iff_plain {session : Session Wire H} {method : AuthMethod}
    {initial : Option Bytes} {line rest : Bytes} {answers : List Bytes}
    (hphase : session.state.phase = .greeted) (hmay : session.dialogue.MayLogIn)
    (hline : IsLine line) (hparse : Command.parse line = .ok (.authenticate method initial))
    (hanswers : ∀ answer ∈ answers, IsLine answer) (hmalformed : Malformed method initial answers)
    (hdelivers : session.Delivers (line ++ (answers.flatten ++ rest))) :
    session.Recovers rest ↔
      method = .plain ∧ ∀ part ∈ line :: answers, part.length ≤ maxLineLength := by
  rw [List.forall_mem_cons]
  by_cases hlength : line.length ≤ maxLineLength
  · obtain ⟨read, hturn, hpending, htls⟩ :=
      turn_authenticate hparse hphase hmay hline hlength hdelivers
    have hleft : Delivers { session with connection := some read } (answers.flatten ++ rest) :=
      ⟨read, rfl, hpending⟩
    constructor
    · rintro ⟨after, _, _, hrunning, -⟩
      have hnext := turn_of_running hrunning
      rw [hturn] at hnext
      obtain ⟨_, _, hlogin, -⟩ := bind_eq_ok hnext
      obtain ⟨_, _, hauth, -⟩ := bind_eq_ok hlogin
      obtain ⟨hplain, hlengths⟩ := (handleAuth_returns hmalformed hanswers hleft).of_ok hauth
      exact ⟨hplain, hlength, hlengths⟩
    · rintro ⟨rfl, -, hlengths⟩
      obtain ⟨connection, challenges, error, hcodes, hauth, hrest, hsame⟩ :=
        handleAuthPlain_malformed hmalformed hanswers hlengths hleft
      refine ⟨{ session with
        connection := some connection
        log := session.log ++ challenges.map .reply ++ [.reply (.syntaxError (some error))] },
        challenges, .syntaxError (some error), ?_, ?_, hcodes, rfl, rfl, rfl, ?_, ?_⟩
      · apply iteration_next
        rw [hturn, bind_apply, login, bind_apply, handleAuth, hauth]
        dsimp only
        rw [reply_wire]
        rfl
      · rw [List.map_append, ← List.append_assoc]
        rfl
      · exact hsame.trans htls
      · exact ⟨connection, rfl, hrest⟩
  · obtain ⟨connection, hturn⟩ := turn_error hdelivers
      (nextLine_overlong hline (Nat.lt_of_not_le hlength) (answers.flatten ++ rest))
    refine ⟨?_, fun h => absurd h.2.1 hlength⟩
    rintro ⟨after, _, _, hrunning, -⟩
    have hnext := turn_of_running hrunning
    rw [hturn] at hnext
    cases hnext

end Library

section Sample

attribute [local instance] standardBase64 lawful_standardBase64

/-- A session that awaits these octets. -/
def awaiting (octets : Bytes) (hoctets : [] ∉ [octets]) : Session Wire Unit :=
  ⟨some (.newPlain ⟨[octets], [], hoctets, Wire.noChunks⟩ none),
    ⟨(), "s".toList, .always, 100⟩, ⟨.greeted, false, .empty⟩, []⟩

/-- The line that cancels an exchange. -/
theorem cancellation_malformed : ¬ IsBase64 (ascii "*\r\n") := by
  rintro ⟨octets, hdecode⟩
  have herror : decodeBase64 (ascii "*\r\n") = .error "base64 decode error".toList := by
    decide +kernel
  rw [herror] at hdecode
  cases hdecode

/-- The client cancels PLAIN, and the session is ready for the next command. -/
theorem recovers_iff_plain_cancelled :
    (awaiting (ascii "AUTH PLAIN\r\n*\r\nNOOP\r\n") (by decide)).Recovers (ascii "NOOP\r\n") := by
  have hmalformed : Malformed .plain none [ascii "*\r\n"] :=
    .plainChallenge fun ⟨octets, hdecode, _⟩ => cancellation_malformed ⟨octets, hdecode⟩
  have hline : IsLine (ascii "AUTH PLAIN\r\n") := ⟨ascii "AUTH PLAIN\r", by decide, rfl⟩
  have hanswers : ∀ answer ∈ [ascii "*\r\n"], IsLine answer :=
    List.forall_mem_singleton.mpr ⟨ascii "*\r", by decide, rfl⟩
  exact (recovers_iff_plain rfl (.inl rfl) hline (by decide +kernel) hanswers hmalformed
    ⟨_, rfl, by decide⟩).mpr ⟨rfl, by decide⟩

/-- The client cancels LOGIN, and the session ends. -/
theorem cancelled_login_ends :
    let session := awaiting (ascii "AUTH LOGIN\r\n*\r\nNOOP\r\n") (by decide)
    session.state.phase = .greeted ∧ session.dialogue.MayLogIn ∧
      Command.parse (ascii "AUTH LOGIN\r\n") = .ok (.authenticate .login none) ∧
      Malformed .login none [ascii "*\r\n"] ∧
      session.Delivers (ascii "AUTH LOGIN\r\n" ++ ([ascii "*\r\n"].flatten ++ ascii "NOOP\r\n")) ∧
      ¬ session.Recovers (ascii "NOOP\r\n") := by
  intro session
  refine ⟨rfl, .inl rfl, by decide +kernel, .usernameChallenge cancellation_malformed,
    ⟨_, rfl, by decide +kernel⟩, ?_⟩
  rintro ⟨after, _, _, hrunning, -⟩
  have hends : (iteration session).Holds (fun _ => False) fun _ => True := by decide +kernel
  rw [hrunning] at hends
  exact hends

end Sample

end Session

end PostGraph.Smtp
