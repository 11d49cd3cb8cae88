import PostGraph.Smtp.Entries
import PostGraph.Smtp.Credentials

/-! # Capabilities

The reply to EHLO lists what the session offers. STARTTLS is listed exactly where it
is accepted next. AUTH is listed wherever authentication is configured, and refused
next if it is configured for secured connections only and this one is not.
-/

namespace PostGraph.Smtp

open Foundation Foundation.Framing

/-- The replies among the entries. -/
def repliesIn (entries : List Event) : List Response :=
  entries.filterMap fun event => match event with
    | .reply response => some response
    | _ => none

theorem repliesIn_replies (replies : List Response) :
    repliesIn (replies.map .reply) = replies := by
  rw [repliesIn, List.filterMap_map]
  exact List.filterMap_some

/-- The first reply to EHLO names the server, and each other one a capability, with
its parameters behind a space. -/
def Lists (replies : List Response) (keyword : Text) : Prop :=
  ∃ response ∈ replies.tail,
    response.messageText = keyword ∨ keyword ++ [' '] <+: response.messageText

/-- A command is refused whatever it says: it is out of sequence, or a syntax error
that names no fault. -/
def Event.RefusesCommand (event : Event) : Prop :=
  event = .reply .badSequence ∨ event = .reply (.syntaxError none)

instance (event : Event) : Decidable event.RefusesCommand :=
  inferInstanceAs (Decidable (event = .reply .badSequence ∨ event = .reply (.syntaxError none)))

/-- A syntax error of the exchange names its fault. -/
theorem Response.syntaxError_some_ne (error : Text) :
    syntaxError (some error) ≠ syntaxError none := by
  intro h
  have hmessage : "5.5.2 Syntax error: ".toList ++ error = "5.5.2 Syntax error".toList := by
    injection h with _ hmessage
    exact Message.custom.inj hmessage
  have hlength := congrArg List.length hmessage
  simp at hlength

namespace Connection

theorem supportsTls_eq {π : Type} {before after : Connection π}
    (h : before.security = after.security) : before.supportsTls = after.supportsTls := by
  cases before <;> cases after <;> simp_all [security, supportsTls]

end Connection

namespace Session

/-! ## The announcement -/

variable {H : Type}

theorem replyFeatures_wire (connection : Connection Wire) (config : SessionConfig H)
    (state : SessionState) (features : List Text) (log : List Event) : ∃ replies : List Response,
    replyFeatures features ⟨some connection, config, state, log⟩ =
      .ok () ⟨some connection, config, state, log ++ replies.map .reply⟩ ∧
      replies.map Response.messageText = features := by
  induction features generalizing log with
  | nil => exact ⟨[], by simp [replyFeatures], rfl⟩
  | cons feature rest ih =>
      cases rest with
      | nil => exact ⟨[.new 250 feature], reply_wire _ _ _ _ _, rfl⟩
      | cons next rest =>
          obtain ⟨replies, hreplies, htexts⟩ := ih (log ++ [.reply (.newContinued 250 feature)])
          refine ⟨.newContinued 250 feature :: replies, ?_, ?_⟩
          · rw [replyFeatures.eq_3 _ _ (List.cons_ne_nil next rest), bind_apply, reply_wire]
            dsimp only
            rw [hreplies]
            simp
          · rw [List.map_cons, htexts]
            rfl

theorem lists_features {supportsTls : Bool} {config : SessionConfig H} {replies : List Response}
    (htexts : replies.map Response.messageText = features supportsTls config)
    (first : Response) (keyword : Text) : Lists (first :: replies) keyword ↔
      ∃ feature ∈ features supportsTls config,
        feature = keyword ∨ keyword ++ [' '] <+: feature := by
  rw [← htexts, Lists, List.tail_cons]
  simp

theorem features_startTls (supportsTls : Bool) (config : SessionConfig H) :
    (∃ feature ∈ features supportsTls config,
      feature = "STARTTLS".toList ∨ "STARTTLS".toList ++ [' '] <+: feature) ↔
      supportsTls = true := by
  cases supportsTls <;> cases hauth : config.hasAuth <;> simp [features, hauth]

theorem features_auth (supportsTls : Bool) (config : SessionConfig H) :
    (∃ feature ∈ features supportsTls config,
      feature = "AUTH".toList ∨ "AUTH".toList ++ [' '] <+: feature) ↔
      config.hasAuth = true := by
  cases supportsTls <;> cases hauth : config.hasAuth <;> simp [features, hauth]

theorem replyHello_wire (connection : Connection Wire) (config : SessionConfig H)
    (state : SessionState) (log : List Event) : ∃ first, ∃ replies : List Response,
    replyHello true ⟨some connection, config, state, log⟩ =
      .ok () ⟨some connection, config, state, log ++ (first :: replies).map .reply⟩ ∧
      replies.map Response.messageText = features connection.supportsTls config := by
  obtain ⟨replies, hreplies, htexts⟩ := replyFeatures_wire connection config state
    (features connection.supportsTls config)
    (log ++ [.reply (.newContinued 250 config.serverName)])
  refine ⟨.newContinued 250 config.serverName, replies, ?_, htexts⟩
  rw [replyHello, bind_apply, get_apply]
  dsimp only
  rw [if_pos rfl, bind_apply, reply_wire]
  dsimp only
  rw [bind_apply, supportsTls, bind_apply, get_apply]
  dsimp only
  rw [pure_apply]
  dsimp only
  rw [hreplies]
  simp

variable [Handler H]

/-- What EHLO leaves behind unless it is refused. -/
theorem hello_wire (domain : Text) (connection : Connection Wire) (config : SessionConfig H)
    (state : SessionState) (log : List Event) {after : Session Wire H}
    (hreturns : hello domain true ⟨some connection, config, state, log⟩ = .ok () after) :
    after.log = log ++ [.reply .badSequence] ∨
    after.state.phase = .greeted ∧ after.connection = some connection ∧
      ∃ answer first, ∃ replies : List Response, after.log = log ++
        .hello domain true answer :: (first :: replies).map .reply ∧
      replies.map Response.messageText = features connection.supportsTls after.config := by
  rw [hello, bind_apply, get_apply] at hreturns
  dsimp only at hreturns
  by_cases hphase : state.inPhase .connected = true
  · rw [hphase, if_neg (by decide), bind_apply, callHandler] at hreturns
    cases hanswer : Handler.onHello domain true config.handler with
    | mk answer handler =>
        dsimp only at hreturns
        rw [hanswer] at hreturns
        obtain ⟨first, replies, hreplies, htexts⟩ := replyHello_wire connection
          { config with handler } state (log ++ [.hello domain true answer])
        rcases answer with error | (_ | _)
        · cases hreturns
        · dsimp only at hreturns
          rw [bind_apply, hreplies] at hreturns
          cases hreturns
          refine .inr ⟨rfl, rfl, .ok .ok, first, replies, ?_, htexts⟩
          simp
        · cases hreturns
  · rw [Bool.not_eq_true] at hphase
    rw [hphase, Bool.not_false, if_pos rfl, reply_wire] at hreturns
    cases hreturns
    exact .inl rfl

variable [Base64]

/-- EHLO was just answered with the code of success, by these replies. -/
def AnsweredEhlo (start session : Session Wire H) (replies : List Response) : Prop :=
  start.state.phase ≠ .data ∧ ∃ line rest domain entries,
    IsLine line ∧ Command.parse line = .ok (.hello domain true) ∧ start.Delivers (line ++ rest) ∧
    iteration start = .running session ∧ session.log = start.log ++ entries ∧
    replies = repliesIn entries ∧ ∃ response ∈ replies, response.code = 250

/-- Where the announcement leaves the session, and what it lists. -/
theorem AnsweredEhlo.lists {start session : Session Wire H} {replies : List Response}
    (h : AnsweredEhlo start session replies) : session.state.phase = .greeted ∧
      ∃ connection, session.connection = some connection ∧
        ∀ keyword, Lists replies keyword ↔
          ∃ feature ∈ features connection.supportsTls session.config,
            feature = keyword ∨ keyword ++ [' '] <+: feature := by
  obtain ⟨hphase, line, rest, domain, entries, hline, hparse, hdelivers, hruns, hlog, rfl,
    response, hresponse, hcode⟩ := h
  have hlength : line.length ≤ maxLineLength := by
    by_contra hlong
    obtain ⟨connection, hturn⟩ :=
      turn_error hdelivers (nextLine_overlong hline (Nat.lt_of_not_le hlong) rest)
    rw [iteration, hturn] at hruns
    cases hruns
  obtain ⟨connection, hturn, -⟩ := turn_line hline hlength hdelivers
  obtain ⟨before, config, state, log⟩ := start
  have hopen : state.phase ≠ .data := hphase
  rw [handleLine_command hopen hparse] at hturn
  have hnext := turn_of_running hruns
  rw [hturn] at hnext
  obtain ⟨_, middle, hhello, hsame⟩ := bind_eq_ok hnext
  cases hsame
  rcases hello_wire domain connection config state log hhello with
      hrefused | ⟨hgreeted, hconnection, answer, first, replies, hadded, htexts⟩
  · rw [hrefused] at hlog
    rw [← List.append_cancel_left hlog] at hresponse
    cases List.mem_singleton.mp hresponse
    cases hcode
  · rw [hadded] at hlog
    rw [← List.append_cancel_left hlog]
    refine ⟨hgreeted, connection, hconnection, fun keyword => ?_⟩
    rw [show repliesIn (.hello domain true answer :: (first :: replies).map .reply) =
      first :: replies from repliesIn_replies (first :: replies)]
    exact lists_features htexts first keyword

/-! ## The next command -/

/-- The next iteration replies with this code first. -/
def AnswersWith (session : Session Wire H) (code : UInt16) : Prop :=
  ∃ response more, response.code = code ∧
    (iteration session).state.log = session.log ++ .reply response :: more

/-- A command is refused as such in the next iteration. -/
def RefusesNext (session : Session Wire H) : Prop :=
  ∃ refusal : Event, refusal.RefusesCommand ∧
    (iteration session).state.log = session.log ++ [refusal]

/-- What is listed is what the session accepts in the next line. -/
def Honours (session : Session Wire H) (replies : List Response) (line : Bytes) : Prop :=
  (Command.parse line = .ok .startTls →
    (Lists replies "STARTTLS".toList ↔ session.AnswersWith 220)) ∧
  ∀ method initial, Command.parse line = .ok (.authenticate method initial) →
    (Lists replies "AUTH".toList ↔ ¬ session.RefusesNext)

/-- The connection keeps its kind while a line is read. -/
theorem turn_command {session : Session Wire H} {line rest : Bytes} {command : Command}
    (hphase : session.state.phase = .greeted) (hline : IsLine line)
    (hlength : line.length ≤ maxLineLength) (hdelivers : session.Delivers (line ++ rest))
    (hparse : Command.parse line = .ok command) :
    ∃ connection, turn session =
        handleCommand command { session with connection := some connection } ∧
      session.connection.map Connection.security = some connection.security := by
  obtain ⟨connection, hread, -⟩ := readLine_line hline hlength hdelivers
  obtain ⟨replies, hsaid⟩ := (Says.readLine session).of_ok hread
  have hopen : (Session.mk (some connection) session.config session.state
      session.log).state.phase ≠ .data := by
    rw [hphase]
    decide
  refine ⟨connection, ?_, (congrArg (·.security) hsaid).symm⟩
  rw [turn, bind_apply, hread]
  exact handleLine_command hopen hparse

omit [Handler H] [Base64] in
/-- STARTTLS is answered before the handshake begins. -/
theorem startTls_answers (connection : Connection Wire) (config : SessionConfig H)
    (state : SessionState) (log : List Event) (hphase : state.phase = .greeted) :
    ∃ response, (response.code = 220 ↔ connection.supportsTls = true) ∧
      Sat startTls ⟨some connection, config, state, log⟩
        (fun _ after => ∃ more, after.log = log ++ .reply response :: more)
        fun _ after => ∃ more, after.log = log ++ .reply response :: more := by
  have hgreeted : state.inPhase .greeted = true := decide_eq_true hphase
  have hsupports : supportsTls ⟨some connection, config, state, log⟩ =
      .ok connection.supportsTls ⟨some connection, config, state, log⟩ := rfl
  cases hsupported : connection.supportsTls with
  | false =>
      refine ⟨.syntaxError (some "TLS not supported".toList), by decide, ?_⟩
      rw [hsupported] at hsupports
      unfold Sat
      rw [startTls, bind_apply, hsupports]
      dsimp only
      rw [if_pos (by rfl), reply_wire]
      exact ⟨[], rfl⟩
  | true =>
      refine ⟨.startTls, by decide, ?_⟩
      rw [hsupported] at hsupports
      have hstart : startTls ⟨some connection, config, state, log⟩ =
          upgrade ⟨some connection, config, state, log ++ [.reply .startTls]⟩ := by
        rw [startTls, bind_apply, hsupports]
        dsimp only
        rw [if_neg (by decide), bind_apply, get_apply]
        dsimp only
        rw [hgreeted, if_neg (by decide), bind_apply, reply_wire]
      have hupgrade : Adds (fun _ => True) (upgrade : SessionM Wire H Unit) := Adds.upgrade trivial
      have hgrows : ∀ after, Grows (fun _ => True)
          ⟨some connection, config, state, log ++ [.reply .startTls]⟩ after →
          ∃ more, after.log = log ++ .reply .startTls :: more := by
        rintro after ⟨more, hmore, -⟩
        exact ⟨more, by rw [hmore, List.append_assoc, List.singleton_append]⟩
      unfold Sat
      rw [hstart]
      exact (hupgrade _).mono (fun _ => hgrows) fun _ => hgrows

/-- A login refuses only what the client sends for it. -/
theorem login_adds (method : AuthMethod) (initial : Option Bytes) :
    Adds (¬ ·.RefusesCommand) (login method initial : SessionM Wire H Unit) := by
  have hchallenge : ∀ response : Response, response.code = 334 →
      ¬ (Event.reply response).RefusesCommand := by
    rintro response hcode (⟨⟨⟩⟩ | ⟨⟨⟩⟩)
    · cases hcode
    · cases hcode
  refine Adds.bind (Adds.handleAuth hchallenge method initial) fun result => ?_
  cases result with
  | syntaxError error =>
      refine Adds.reply ?_
      rintro (⟨⟨⟩⟩ | hnone)
      exact Response.syntaxError_some_ne error (Event.reply.inj hnone)
  | ok username password =>
      refine Adds.bind Adds.get fun session =>
        Adds.bind (Adds.callHandler fun _ => by rintro (⟨⟨⟩⟩ | ⟨⟨⟩⟩)) fun answer => ?_
      split
      · exact Adds.bind (Adds.reply (by decide)) fun _ => Adds.modify fun _ => rfl
      · exact Adds.bind (Adds.reply (by decide)) fun _ => Adds.throw _
      · exact Adds.bind (Adds.reply (by decide)) fun _ => Adds.throw _

theorem authenticate_refuses (method : AuthMethod) (initial : Option Bytes)
    (connection : Connection Wire) (config : SessionConfig H) (state : SessionState)
    (log : List Event) (hphase : state.phase = .greeted)
    (hmode : config.authMode = .none ∨ config.authMode = .requireTls ∧ connection.isTls = false) :
    ∃ refusal : Event, refusal.RefusesCommand ∧
      authenticate method initial ⟨some connection, config, state, log⟩ =
        .ok () ⟨some connection, config, state, log ++ [refusal]⟩ := by
  have hgreeted : state.inPhase .greeted = true := decide_eq_true hphase
  rcases hmode with hnone | ⟨hrequired, hplain⟩
  · refine ⟨.reply (.syntaxError none), .inr rfl, ?_⟩
    rw [authenticate, bind_apply, get_apply]
    dsimp only
    rw [hgreeted, hnone]
    exact reply_wire _ _ _ _ _
  · refine ⟨.reply .badSequence, .inl rfl, ?_⟩
    rw [authenticate, bind_apply, get_apply]
    dsimp only
    rw [hgreeted, hrequired]
    dsimp only
    rw [hplain]
    exact reply_wire _ _ _ _ _

/-- AUTH is refused as such unless it is possible to log in. -/
theorem refusesNext_iff {session : Session Wire H} {line rest : Bytes} {method : AuthMethod}
    {initial : Option Bytes} (hphase : session.state.phase = .greeted) (hline : IsLine line)
    (hlength : line.length ≤ maxLineLength) (hdelivers : session.Delivers (line ++ rest))
    (hparse : Command.parse line = .ok (.authenticate method initial)) :
    session.RefusesNext ↔ ¬ session.dialogue.MayLogIn := by
  obtain ⟨connection, hturn, hsecurity⟩ :=
    turn_command hphase hline hlength hdelivers hparse
  have hdialogue : (Session.mk (some connection) session.config session.state
      session.log).dialogue = session.dialogue := by
    rw [dialogue, dialogue, hsecurity]
    rfl
  constructor
  · rintro ⟨refusal, hrefusal, hlog⟩ hmay
    rw [← hdialogue] at hmay
    have hlogin : authenticate method initial
        ⟨some connection, session.config, session.state, session.log⟩ =
        login method initial ⟨some connection, session.config, session.state, session.log⟩ :=
      authenticate_eq_login method initial hphase hmay
    have hadds := Adds.bind (login_adds method initial) (fun _ => Adds.pure Control.next)
      ⟨some connection, session.config, session.state, session.log⟩
    have hsat : Sat turn session (fun _ after => Grows (¬ ·.RefusesCommand) session after)
        fun _ after => Grows (¬ ·.RefusesCommand) session after := by
      unfold Sat at hadds ⊢
      rw [bind_apply] at hadds
      rw [hturn, handleCommand, bind_apply, hlogin]
      exact hadds
    obtain ⟨entries, hentries, hnone⟩ := iteration_state hsat
    rw [hlog] at hentries
    rw [← List.append_cancel_left hentries, List.forall_mem_singleton] at hnone
    exact hnone hrefusal
  · intro hmay
    have hmode : session.config.authMode = .none ∨
        session.config.authMode = .requireTls ∧ connection.isTls = false := by
      rw [← hdialogue, Dialogue.MayLogIn, dialogue_isTls, not_or] at hmay
      obtain ⟨halways, hrequired⟩ := hmay
      cases hmode : session.config.authMode with
      | none => exact .inl rfl
      | always => exact absurd hmode halways
      | requireTls =>
          exact .inr ⟨rfl, Bool.eq_false_iff.mpr fun htls => hrequired ⟨hmode, htls⟩⟩
    obtain ⟨refusal, hrefusal, hrefuses⟩ := authenticate_refuses method initial connection
      session.config session.state session.log hphase hmode
    refine ⟨refusal, hrefusal, ?_⟩
    rw [iteration, hturn, handleCommand, bind_apply, hrefuses]
    rfl

/-- STARTTLS is accepted if it is supported. -/
theorem answersWith_iff {session : Session Wire H} {line rest : Bytes} {before : Connection Wire}
    (hphase : session.state.phase = .greeted) (hbefore : session.connection = some before)
    (hline : IsLine line) (hlength : line.length ≤ maxLineLength)
    (hdelivers : session.Delivers (line ++ rest)) (hparse : Command.parse line = .ok .startTls) :
    session.AnswersWith 220 ↔ before.supportsTls = true := by
  obtain ⟨connection, hturn, hsecurity⟩ := turn_command hphase hline hlength hdelivers hparse
  have hsupported : connection.supportsTls = before.supportsTls := by
    rw [hbefore] at hsecurity
    exact Connection.supportsTls_eq (Option.some.inj hsecurity).symm
  obtain ⟨response, hcode, hanswers⟩ :=
    startTls_answers connection session.config session.state session.log hphase
  have hsat : Sat turn session
      (fun _ after => ∃ more, after.log = session.log ++ .reply response :: more)
      fun _ after => ∃ more, after.log = session.log ++ .reply response :: more := by
    unfold Sat
    rw [hturn]
    exact Sat.bind hanswers fun _ _ => id
  obtain ⟨more, hmore⟩ := iteration_state hsat
  rw [← hsupported, ← hcode]
  constructor
  · rintro ⟨other, more', hother, hlog⟩
    rw [hlog] at hmore
    cases List.append_cancel_left hmore
    exact hother
  · exact fun h => ⟨response, more, h, hmore⟩

/-- After EHLO, what is listed is honoured, except that AUTH is listed and yet refused
if it has to wait for TLS. -/
theorem honours_iff {start session : Session Wire H} {replies : List Response}
    {line rest : Bytes} (hehlo : AnsweredEhlo start session replies) (hline : IsLine line)
    (hlength : line.length ≤ maxLineLength) (hdelivers : session.Delivers (line ++ rest)) :
    session.Honours replies line ↔
      ∀ method initial, Command.parse line = .ok (.authenticate method initial) →
        session.config.authMode = .requireTls → session.isTls = true := by
  obtain ⟨hphase, before, hbefore, hlists⟩ := hehlo.lists
  have hauth : Lists replies "AUTH".toList ↔ session.config.authMode ≠ .none := by
    rw [hlists, features_auth, SessionConfig.hasAuth, decide_eq_true_iff]
  constructor
  · rintro ⟨-, hhonoured⟩ method initial hparse hrequired
    have hlisted := (hhonoured method initial hparse).mp (hauth.mpr (by rw [hrequired]; decide))
    rw [refusesNext_iff hphase hline hlength hdelivers hparse, not_not] at hlisted
    rcases hlisted with halways | ⟨-, htls⟩
    · exact absurd (halways.symm.trans hrequired) (by decide)
    · rwa [dialogue_isTls] at htls
  · intro hsecured
    refine ⟨fun hparse => ?_, fun method initial hparse => ?_⟩
    · rw [hlists, features_startTls, answersWith_iff hphase hbefore hline hlength hdelivers hparse]
    · rw [hauth, refusesNext_iff hphase hline hlength hdelivers hparse, not_not,
        Dialogue.MayLogIn, dialogue_isTls]
      have hwhen := hsecured method initial hparse
      change session.config.authMode ≠ .none ↔ session.config.authMode = .always ∨
        session.config.authMode = .requireTls ∧ session.isTls = true
      cases hmode : session.config.authMode with
      | none => simp
      | always => simp
      | requireTls => simp [hwhen hmode]

end Session

section Sample

open Session

attribute [local instance] standardBase64

/-- A client that greets, over a connection that could be secured, and then logs in. -/
def eagerClient : Connection Wire :=
  .newPlain ⟨[ascii "EHLO c\r\nAUTH PLAIN\r\n"], [], by decide, Wire.noChunks⟩ (some ⟨[], []⟩)

def announcing (mode : AuthMode) : Session Wire Unit :=
  ⟨some eagerClient, ⟨(), "s".toList, mode, 100⟩, .new, []⟩

def announced (mode : AuthMode) : Session Wire Unit := (iteration (announcing mode)).state

theorem Session.announced_answers {mode : AuthMode}
    (hruns : (iteration (announcing mode)).Holds (fun _ => True) fun _ => False)
    (hreplies : ∃ response ∈ repliesIn (announced mode).log, response.code = 250) :
    AnsweredEhlo (announcing mode) (announced mode) (repliesIn (announced mode).log) :=
  ⟨nofun, ascii "EHLO c\r\n", ascii "AUTH PLAIN\r\n", ['c'], (announced mode).log,
    ⟨ascii "EHLO c\r", by decide, rfl⟩, by decide +kernel, ⟨_, rfl, rfl⟩, Flow.eq_running hruns,
    rfl, rfl, hreplies⟩

/-- Without the need for TLS the announcement of AUTH is honoured. -/
theorem Session.honours_iff_always :
    (announced .always).Honours (repliesIn (announced .always).log) (ascii "AUTH PLAIN\r\n") := by
  have hline : IsLine (ascii "AUTH PLAIN\r\n") := ⟨ascii "AUTH PLAIN\r", by decide, rfl⟩
  have hdelivers : (announced .always).Delivers (ascii "AUTH PLAIN\r\n" ++ []) :=
    .of_pending (by decide +kernel)
  apply (honours_iff (announced_answers (by decide +kernel) (by decide +kernel)) hline
    (by decide) hdelivers).mpr
  exact fun _ _ _ hrequired => absurd hrequired (by decide)

/-- AUTH is announced before the connection is secured, and then refused. -/
theorem Session.auth_announced_and_refused :
    AnsweredEhlo (announcing .requireTls) (announced .requireTls)
      (repliesIn (announced .requireTls).log) ∧
    (announced .requireTls).Delivers (ascii "AUTH PLAIN\r\n") ∧
    ¬ (announced .requireTls).Honours (repliesIn (announced .requireTls).log)
      (ascii "AUTH PLAIN\r\n") := by
  refine ⟨announced_answers (by decide +kernel) (by decide +kernel),
    .of_pending (by decide +kernel), ?_⟩
  rintro ⟨-, hauth⟩
  have hlisted : Lists (repliesIn (announced .requireTls).log) "AUTH".toList :=
    ⟨.newContinued 250 "AUTH PLAIN LOGIN".toList, by decide +kernel, .inr (by decide)⟩
  exact (hauth .plain none (by decide +kernel)).mp hlisted
    ⟨.reply .badSequence, .inl rfl, by decide +kernel⟩

end Sample

end PostGraph.Smtp
