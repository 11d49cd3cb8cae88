import PostGraph.Smtp.ReplyLines

/-! # Answers of programs

Every command is answered by one reply, and behind it every line that the
command reads itself; the exchange may break off before its last reply. HELP
is answered by a group of lines with different codes.
-/

namespace PostGraph.Smtp

open Foundation Foundation.Reply

namespace Session

variable {H : Type}

/-- One reply for each read, and for as many lines that were read before. -/
def Due (before : Nat) (reads : List (Option Bytes)) (octets : Bytes) : Prop :=
  Replies (reads.length + before) octets

/-- The reply to the last line may be missing. -/
def BrokenOff (reads : List (Option Bytes)) (octets : Bytes) : Prop :=
  Due 0 reads octets ∨ Due 1 reads octets

theorem Due.append {before : Nat} {reads reads' : List (Option Bytes)} {octets octets' : Bytes}
    (h : Due 0 reads octets) (h' : Due before reads' octets') :
    Due before (reads ++ reads') (octets ++ octets') := by
  have hcount : reads.length + 0 + (reads'.length + before) =
      (reads ++ reads').length + before := by
    rw [List.length_append]
    omega
  rw [Due, ← hcount]
  exact Replies.append h h'

/-- A program behind one that answered all that it read. -/
theorem Talks.after_due {α β : Type} {session : Session (Recorder Wire) H}
    {program : SessionM (Recorder Wire) H α} {next : α → SessionM (Recorder Wire) H β}
    {P : α → Prop} {ok : β → List (Option Bytes) → Bytes → Prop}
    (h : Talks program session (fun a reads octets => Due 0 reads octets ∧ P a) BrokenOff)
    (hnext : ∀ a after, after.connection.isSome = true → P a →
      Talks (next a) after ok BrokenOff)
    (hok : ∀ b reads octets reads' octets', Due 0 reads octets → ok b reads' octets' →
      ok b (reads ++ reads') (octets ++ octets')) :
    Talks (program >>= next) session ok BrokenOff := by
  apply h.bind
  rintro a reads octets after hexchanged ⟨hdue, ha⟩
  apply (hnext a after hexchanged.connected ha).mono
  · exact fun b reads' octets' h' => hok b reads octets reads' octets' hdue h'
  · rintro reads' octets' (hmissing | hall)
    · exact .inl (hdue.append hmissing)
    · exact .inr (hdue.append hall)

/-- The program answers the line before it, and each line that it reads itself. -/
def Answers {α : Type} (program : SessionM (Recorder Wire) H α)
    (session : Session (Recorder Wire) H) : Prop :=
  Talks program session (fun _ => Due 1) BrokenOff

namespace Answers

variable {session : Session (Recorder Wire) H}

theorem reply {response : Response} (hproper : response.Proper) (hnext : response.hasNext = false)
    (hconnected : session.connection.isSome = true) : Answers (Session.reply response) session :=
  Talks.reply response hconnected (Replies.one (hproper.isReply hnext))

theorem replyFeatures {features : List Text} (hne : features ≠ [])
    (hlines : ∀ feature ∈ features, OneLine feature ∧ feature ≠ [])
    (hconnected : session.connection.isSome = true) :
    Talks (Session.replyFeatures features) session
      (fun _ reads octets => reads = [] ∧
        ∃ codes, Group codes octets ∧ ∀ code ∈ codes, code = Response.codeOctets 250)
      fun _ _ => False := by
  induction features generalizing session with
  | nil => exact absurd rfl hne
  | cons feature rest ih =>
      obtain ⟨⟨hline, hfeature⟩, hrest⟩ := List.forall_mem_cons.mp hlines
      -- only the last feature ends the group
      cases rest with
      | nil =>
          have hproper : (Response.new 250 feature).Proper := .new (by decide) hline
          exact Talks.reply _ hconnected ⟨rfl, _,
            .last hproper.threeDigits (hproper.last rfl), List.forall_mem_singleton.mpr rfl⟩
      | cons next rest =>
          have hproper : (Response.newContinued 250 feature).Proper :=
            .newContinued (by decide) hline hfeature
          have hreply : Talks (Session.reply (.newContinued 250 feature)) session
              (fun _ reads octets => reads = [] ∧ Continued (Response.codeOctets 250) octets)
              fun _ _ => False :=
            Talks.reply _ hconnected ⟨rfl, hproper.more rfl⟩
          apply hreply.bind
          rintro _ _ line after hexchanged ⟨rfl, hcontinued⟩
          apply (ih (by simp) hrest hexchanged.connected).mono
          · rintro _ _ octets ⟨rfl, codes, hgroup, hcodes⟩
            exact ⟨rfl, _, .continued hproper.threeDigits hcontinued hgroup,
              List.forall_mem_cons.mpr ⟨rfl, hcodes⟩⟩
          · exact fun _ _ h => h

theorem throw {α : Type} {error : Error} (hconnected : session.connection.isSome = true) :
    Answers (MonadExcept.throw error : SessionM (Recorder Wire) H α) session :=
  Talks.throw hconnected (.inl .nil)

theorem replyHello (extended : Bool) (hconnected : session.connection.isSome = true)
    (hname : session.config.serverName ≠ []) (hline : OneLine session.config.serverName) :
    Answers (Session.replyHello extended) session := by
  apply Talks.get_bind
  cases extended with
  | false => exact reply (.new (by decide) hline) rfl hconnected
  | true =>
      have hproper : (Response.newContinued 250 session.config.serverName).Proper :=
        .newContinued (by decide) hline hname
      have hfirst : Talks (Session.reply (.newContinued 250 session.config.serverName)) session
          (fun _ reads octets => reads = [] ∧ Continued (Response.codeOctets 250) octets)
          BrokenOff :=
        Talks.reply _ hconnected ⟨rfl, hproper.more rfl⟩
      apply hfirst.bind
      rintro _ _ line after hexchanged ⟨rfl, hcontinued⟩
      apply Talks.supportsTls_bind hexchanged.connected
      intro supported
      apply (replyFeatures (features_ne_nil _ _) (features_oneLine _ _) hexchanged.connected).mono
      · rintro _ _ octets ⟨rfl, codes, hgroup, hcodes⟩
        exact .one ⟨_, _, .continued hproper.threeDigits hcontinued hgroup,
          List.forall_mem_cons.mpr ⟨rfl, hcodes⟩⟩
      · exact fun _ _ h => h.elim

theorem hello [Handler H] (domain : Text) (extended : Bool)
    (hconnected : session.connection.isSome = true)
    (hname : session.config.serverName ≠ []) (hline : OneLine session.config.serverName) :
    Answers (Session.hello domain extended) session := by
  apply Talks.get_bind
  split
  next => exact reply ⟨by decide, by decide, nofun⟩ rfl hconnected
  next =>
    apply Talks.callHandler_bind hconnected
    split
    next =>
      have hphase : ∀ after, (setPhase .greeted : SessionM (Recorder Wire) H Unit) after =
          .ok () { after with state := { after.state with phase := .greeted } } := fun _ => rfl
      refine Talks.then_quiet (replyHello extended ?_ ?_ ?_) hphase (fun _ => rfl) fun _ => rfl
      · exact hconnected
      · exact hname
      · exact hline
    next => exact throw hconnected
    next => exact throw hconnected

/-! ### Logins -/

/-- A challenge asks for one more line, or for the end of the stream. -/
theorem challenge_talks {response : Response} (hproper : response.Proper)
    (hnext : response.hasNext = false) (hconnected : session.connection.isSome = true) :
    Talks (Session.challenge response) session
      (fun _ reads octets => Due 0 reads octets ∧ True) BrokenOff := by
  have hreply : Talks (Session.reply response) session
      (fun _ reads octets => reads = [] ∧ Replies 1 octets) BrokenOff :=
    Talks.reply response hconnected ⟨rfl, .one (hproper.isReply hnext)⟩
  apply hreply.bind
  rintro _ _ octets after hexchanged ⟨rfl, hone⟩
  rw [← List.append_nil octets] at hone
  exact Talks.readLine hexchanged.connected (fun _ => ⟨hone, trivial⟩) (.inr hone)

theorem initialOrChallenge_talks (initial : Option Bytes) {response : Response}
    (hproper : response.Proper) (hnext : response.hasNext = false)
    (hconnected : session.connection.isSome = true) :
    Talks (Session.initialOrChallenge initial response) session
      (fun _ reads octets => Due 0 reads octets ∧ True) BrokenOff := by
  cases initial with
  | some initial => exact Talks.pure hconnected ⟨.nil, trivial⟩
  | none => exact challenge_talks hproper hnext hconnected

/-- The text of a syntax error in credentials. -/
def OneLineError (result : AuthHandshakeResult) : Prop :=
  ∀ error, result = .syntaxError error → OneLine error

theorem OneLineError.syntaxError {error : Text} (h : OneLine error) :
    OneLineError (.syntaxError error) := by
  rintro _ ⟨⟩
  exact h

/-- What an exchange returned, with all its lines answered. -/
theorem return_talks {result : AuthHandshakeResult} (hresult : OneLineError result)
    (hconnected : session.connection.isSome = true) :
    Talks (Pure.pure result : SessionM (Recorder Wire) H AuthHandshakeResult) session
      (fun result reads octets => Due 0 reads octets ∧ OneLineError result) BrokenOff :=
  Talks.pure hconnected ⟨.nil, hresult⟩

variable [Base64]

theorem plainCredentials_oneLine (credentials : Bytes) :
    OneLineError (plainCredentials credentials) := by
  unfold plainCredentials
  split
  · exact .syntaxError (by decide)
  · split
    · exact nofun
    · exact .syntaxError (by decide)

theorem decodeLoginString_talks (input : Bytes) (hconnected : session.connection.isSome = true) :
    Talks (Session.decodeLoginString input) session
      (fun _ reads octets => Due 0 reads octets ∧ True) BrokenOff := by
  unfold Session.decodeLoginString
  split
  · exact Talks.pure hconnected ⟨.nil, trivial⟩
  · exact Talks.throw hconnected (.inl .nil)

theorem handleAuth_talks (method : AuthMethod) (initial : Option Bytes)
    (hconnected : session.connection.isSome = true) :
    Talks (Session.handleAuth method initial) session
      (fun result reads octets => Due 0 reads octets ∧ OneLineError result) BrokenOff := by
  -- each challenge is due to the line that was read before it
  have hkeeps : ∀ (result : AuthHandshakeResult) reads octets reads' octets', Due 0 reads octets →
      Due 0 reads' octets' ∧ OneLineError result →
      Due 0 (reads ++ reads') (octets ++ octets') ∧ OneLineError result :=
    fun _ _ _ _ _ hdue h => ⟨hdue.append h.1, h.2⟩
  cases method with
  | plain =>
      apply Talks.after_due (initialOrChallenge_talks initial ?_ rfl hconnected) ?_ hkeeps
      · exact ⟨by decide, by decide, nofun⟩
      rintro (_ | credentials) after hafter -
      · exact return_talks (.syntaxError (by decide)) hafter
      · exact return_talks (plainCredentials_oneLine credentials) hafter
  | login =>
      apply Talks.after_due (initialOrChallenge_talks initial ?_ rfl hconnected) ?_ hkeeps
      · exact ⟨by decide, by decide, nofun⟩
      rintro (_ | username) after hafter -
      · exact return_talks (.syntaxError (by decide)) hafter
      apply Talks.after_due (decodeLoginString_talks username hafter) ?_ hkeeps
      intro username after hafter _
      apply Talks.after_due (challenge_talks ?_ rfl hafter) ?_ hkeeps
      · exact ⟨by decide, by decide, nofun⟩
      rintro (_ | password) after hafter -
      · exact return_talks (.syntaxError (by decide)) hafter
      apply Talks.after_due (decodeLoginString_talks password hafter) ?_ hkeeps
      intro password after hafter _
      exact return_talks nofun hafter

omit [Base64] in
/-- A last reply before the session closes. -/
theorem reply_throw {α : Type} {response : Response} {error : Error} (hproper : response.Proper)
    (hnext : response.hasNext = false) (hconnected : session.connection.isSome = true) :
    Answers (Session.reply response >>= fun _ =>
      (MonadExcept.throw error : SessionM (Recorder Wire) H α)) session := by
  apply (reply hproper hnext hconnected).bind
  intro _ reads octets after hexchanged hdue
  apply Talks.throw hexchanged.connected
  right
  simpa using hdue

theorem login [Handler H] (method : AuthMethod) (initial : Option Bytes)
    (hconnected : session.connection.isSome = true) :
    Answers (Session.login method initial) session := by
  apply Talks.after_due (handleAuth_talks method initial hconnected) ?_
    fun _ _ _ _ _ => Due.append
  intro result after hafter hline
  cases result with
  | syntaxError error =>
      have hproper : (Response.syntaxError (some error)).Proper := by
        apply Response.Proper.syntaxError
        rintro _ ⟨⟩
        exact hline error rfl
      exact reply hproper rfl hafter
  | ok username password =>
      apply Talks.get_bind
      apply Talks.callHandler_bind hafter
      split
      next =>
        have hauthenticated : ∀ after : Session (Recorder Wire) H,
            (modify fun session => { session with state.isAuthenticated := true } :
              SessionM (Recorder Wire) H PUnit) after =
              .ok () { after with state.isAuthenticated := true } := fun _ => rfl
        refine Talks.then_quiet (reply ⟨by decide, by decide, nofun⟩ rfl ?_) hauthenticated
          (fun _ => rfl) fun _ => rfl
        exact hafter
      next => exact reply_throw ⟨by decide, by decide, nofun⟩ rfl hafter
      next => exact reply_throw ⟨by decide, by decide, nofun⟩ rfl hafter

theorem authenticate [Handler H] (method : AuthMethod) (initial : Option Bytes)
    (hconnected : session.connection.isSome = true) :
    Answers (Session.authenticate method initial) session := by
  apply Talks.get_bind
  split
  next => exact reply ⟨by decide, by decide, nofun⟩ rfl hconnected
  next =>
    split
    next => exact reply (.syntaxError nofun) rfl hconnected
    next =>
      split
      next => exact throw hconnected
      next =>
        split
        next => exact login method initial hconnected
        next => exact reply ⟨by decide, by decide, nofun⟩ rfl hconnected
    next => exact login method initial hconnected

/-! ### Transactions -/

omit [Base64]

theorem inTransaction {phase : Phase} {action : SessionM (Recorder Wire) H Unit}
    (hconnected : session.connection.isSome = true) (haction : Answers action session) :
    Answers (Session.inTransaction phase action) session := by
  apply Talks.get_bind
  split
  next => exact reply ⟨by decide, by decide, nofun⟩ rfl hconnected
  next =>
    split
    next => exact reply ⟨by decide, by decide, nofun⟩ rfl hconnected
    next => exact haction

theorem mail (sender : Text) (hconnected : session.connection.isSome = true) :
    Answers (Session.mail sender) session := by
  apply inTransaction hconnected
  apply Talks.modify_bind hconnected rfl rfl
  refine Talks.modify_bind ?_ rfl rfl (reply ⟨by decide, by decide, nofun⟩ rfl ?_)
  · exact hconnected
  · exact hconnected

theorem recipient (address : Text) (hconnected : session.connection.isSome = true) :
    Answers (Session.recipient address) session := by
  apply inTransaction hconnected
  apply Talks.modify_bind hconnected rfl rfl
  exact reply ⟨by decide, by decide, nofun⟩ rfl hconnected

theorem data (hconnected : session.connection.isSome = true) :
    Answers (Session.data : SessionM (Recorder Wire) H Unit) session := by
  apply inTransaction hconnected
  apply Talks.modify_bind hconnected rfl rfl
  exact reply ⟨by decide, by decide, nofun⟩ rfl hconnected

theorem reset [Handler H] (hconnected : session.connection.isSome = true) :
    Answers (Session.reset : SessionM (Recorder Wire) H Unit) session := by
  apply Talks.modify_bind hconnected rfl rfl
  have hhandler : ∀ after : Session (Recorder Wire) H,
      (callHandler Handler.onReset .reset >>= fun _ => Pure.pure () :
        SessionM (Recorder Wire) H Unit) after =
        .ok () { after with
          config := { after.config with handler := (Handler.onReset after.config.handler).2 }
          log := after.log ++ [.reset (Handler.onReset after.config.handler).1] } := fun _ => rfl
  refine Talks.then_quiet (reply ⟨by decide, by decide, nofun⟩ rfl ?_) hhandler (fun _ => rfl)
    fun _ => rfl
  exact hconnected

/-- The handler's errors are texts of one line. -/
def OneLineErrors (H : Type) [Handler H] : Prop :=
  ∀ (mail : Mail) (handler : H) (error : Text),
    (Handler.onMail mail handler).1 = .error error → OneLine error

theorem mailReply_proper {answer : Except Text Unit}
    (hanswer : ∀ error, answer = .error error → OneLine error) :
    (mailReply answer).Proper ∧ (mailReply answer).hasNext = false := by
  cases answer with
  | ok =>
      have hproper : Response.mailAccepted.Proper := ⟨by decide, by decide, nofun⟩
      exact ⟨hproper, rfl⟩
  | error error =>
      have hproper : Response.mailHandlerError.Proper := ⟨by decide, by decide, nofun⟩
      exact ⟨hproper.extend (hanswer error rfl), rfl⟩

theorem deliver_talks [Handler H] (herrors : OneLineErrors H)
    (hconnected : session.connection.isSome = true) :
    Talks (Session.deliver : SessionM (Recorder Wire) H Unit) session
      (fun _ reads octets => reads = [] ∧ Replies 1 octets) fun _ _ => False := by
  apply Talks.get_bind
  apply Talks.callHandler_bind hconnected
  obtain ⟨hproper, hnext⟩ :=
    mailReply_proper (herrors session.state.currentMail session.config.handler)
  have hcleared : ∀ after : Session (Recorder Wire) H,
      (modifyMail (fun _ => .empty) >>= fun _ => setPhase .greeted :
        SessionM (Recorder Wire) H Unit) after =
        .ok () { after with
          state := { after.state with phase := .greeted, currentMail := .empty } } := fun _ => rfl
  refine Talks.then_quiet (Talks.reply _ ?_ ?_) hcleared (fun _ => rfl) fun _ => rfl
  · exact hconnected
  · exact ⟨rfl, .one (hproper.isReply hnext)⟩

end Answers

/-- The lines that HELP is answered with, of which only the last is final. -/
theorem help_talks {session : Session (Recorder Wire) H}
    (hconnected : session.connection.isSome = true) :
    Talks Session.help session
      (fun _ reads octets => reads = [] ∧
        Group [ascii "250", ascii "214"] octets)
      fun _ _ => False := by
  have hfirst : (Response.newContinued 250 "Commands supported".toList).Proper :=
    .newContinued (by decide) (by decide) (by decide)
  have hreply : Talks (reply (.newContinued 250 "Commands supported".toList)) session
      (fun _ reads octets => reads = [] ∧ Continued (Response.codeOctets 250) octets)
      fun _ _ => False :=
    Talks.reply _ hconnected ⟨rfl, hfirst.more rfl⟩
  apply hreply.bind
  rintro _ _ line after hexchanged ⟨rfl, hcontinued⟩
  apply Talks.supportsTls_bind hexchanged.connected
  intro supported
  apply Talks.get_bind
  have hlast : (Response.new 214
      ([' '].intercalate (commands supported after.config))).Proper :=
    .new (by decide) (commands_oneLine supported after.config)
  have hcodes : [Response.codeOctets 250, Response.codeOctets 214] =
      [ascii "250", ascii "214"] := by decide
  exact Talks.reply _ hexchanged.connected ⟨rfl, hcodes ▸
    .continued hfirst.threeDigits hcontinued (.last hlast.threeDigits (hlast.last rfl))⟩

/-- Like `Talks`, for a program that may end with the upgrade to TLS: what was
pending of the plain stream is then gone. -/
def Concludes {α : Type} (program : SessionM (Recorder Wire) H α)
    (session : Session (Recorder Wire) H) (ok err : List (Option Bytes) → Bytes → Prop) : Prop :=
  Sat program session
    (fun _ after => ∃ reads octets rest, Exchanged session reads octets rest after ∧
      (after.isTls = session.isTls → after.pending = rest) ∧ ok reads octets)
    (fun _ after => ∃ reads octets rest,
      Exchanged session reads octets rest after ∧ err reads octets)

theorem Talks.concludes {α : Type} {program : SessionM (Recorder Wire) H α}
    {session : Session (Recorder Wire) H} {ok err : List (Option Bytes) → Bytes → Prop}
    (h : Talks program session (fun _ => ok) err) : Concludes program session ok err := by
  apply Sat.mono h
  · rintro _ after ⟨reads, octets, hexchanged, hok⟩
    exact ⟨reads, octets, _, hexchanged, fun _ => rfl, hok⟩
  · exact fun _ _ h => h

/-- A connection that supports TLS is upgraded behind the reply. -/
theorem reply_upgrade {session : Session (Recorder Wire) H}
    {connection : Connection (Recorder Wire)}
    (hconnection : session.connection = some connection)
    (hsupported : connection.supportsTls = true) :
    ∃ secured, (reply .startTls >>= fun _ => upgrade) session = .ok () secured ∧
      Exchanged session [] Response.startTls.octets session.pending secured ∧
      secured.isTls ≠ session.isTls := by
  have hreply := Talks.reply_apply .startTls hconnection
  obtain ⟨_, config, state, log⟩ := session
  cases hconnection
  rw [bind_apply, hreply]
  cases connection with
  | tls stream => cases hsupported
  | plain stream acceptor =>
      cases acceptor with
      | none => cases hsupported
      | some acceptor =>
          exact ⟨_, rfl, ⟨rfl, rfl, rfl, by simp, by simp, rfl⟩, fun h => Bool.noConfusion h⟩

theorem startTls_concludes {session : Session (Recorder Wire) H}
    (hconnected : session.connection.isSome = true) :
    Concludes startTls session (Due 1) BrokenOff := by
  obtain ⟨connection, hconnection⟩ := Option.isSome_iff_exists.mp hconnected
  have hsupports := Talks.supportsTls_apply hconnection
  have hrefused : ∀ response : Response, response.Proper → response.hasNext = false →
      startTls session = reply response session →
      Concludes startTls session (Due 1) BrokenOff := by
    intro response hproper hnext heq
    have hreply : Answers (reply response) session := .reply hproper hnext hconnected
    exact Sat.of_eq heq hreply.concludes
  cases hsupported : connection.supportsTls with
  | false =>
      apply hrefused (.syntaxError (some "TLS not supported".toList)) (.syntaxError ?_) rfl
      · rw [startTls, bind_apply, hsupports, hsupported]
        rfl
      · rintro _ ⟨⟩
        decide
  | true =>
      have hstart : startTls session = (if !session.state.inPhase .greeted then reply .badSequence
          else reply .startTls >>= fun _ => upgrade) session := by
        rw [startTls, bind_apply, hsupports, hsupported]
        simp only [Bool.not_true, Bool.false_eq_true, if_false, bind_apply, get_apply]
      by_cases hphase : session.state.inPhase .greeted = true
      · have hproper : Response.startTls.Proper := ⟨by decide, by decide, nofun⟩
        -- the upgrade drops what is pending, and shows in the connection
        obtain ⟨secured, hupgrade, hexchanged, htls⟩ := reply_upgrade hconnection hsupported
        rw [hphase, Bool.not_true, if_neg Bool.false_ne_true, hupgrade] at hstart
        unfold Concludes Sat
        rw [hstart]
        exact ⟨[], _, _, hexchanged, fun hsame => absurd hsame htls, .one (hproper.isReply rfl)⟩
      · apply hrefused .badSequence ⟨by decide, by decide, nofun⟩ rfl
        rw [hstart, if_pos (by simpa using hphase)]

theorem Concludes.mono {α : Type} {program : SessionM (Recorder Wire) H α}
    {session : Session (Recorder Wire) H} {ok ok' err err' : List (Option Bytes) → Bytes → Prop}
    (h : Concludes program session ok err)
    (hok : ∀ reads octets, ok reads octets → ok' reads octets)
    (herr : ∀ reads octets, err reads octets → err' reads octets) :
    Concludes program session ok' err' := by
  apply Sat.mono h
  · rintro _ after ⟨reads, octets, rest, hexchanged, hrest, h⟩
    exact ⟨reads, octets, rest, hexchanged, hrest, hok reads octets h⟩
  · rintro _ after ⟨reads, octets, rest, hexchanged, h⟩
    exact ⟨reads, octets, rest, hexchanged, herr reads octets h⟩

theorem Concludes.then_return {α β : Type} {program : SessionM (Recorder Wire) H α}
    {session : Session (Recorder Wire) H} {ok err : List (Option Bytes) → Bytes → Prop}
    (h : Concludes program session ok err) (b : β) :
    Concludes (program >>= fun _ => pure b) session ok err :=
  Sat.bind h fun _ _ h => h

variable [Handler H] [Base64]

theorem handleCommand_concludes {session : Session (Recorder Wire) H} {command : Command}
    (hconnected : session.connection.isSome = true) (hname : session.config.serverName ≠ [])
    (hline : OneLine session.config.serverName) (hcommand : command ≠ .help) :
    Concludes (handleCommand command) session (Due 1) BrokenOff := by
  cases command with
  | hello domain extended =>
      exact (Answers.hello domain extended hconnected hname hline).concludes.then_return _
  | help => exact absurd rfl hcommand
  | startTls => exact (startTls_concludes hconnected).then_return _
  | authenticate method initial =>
      exact (Answers.authenticate method initial hconnected).concludes.then_return _
  | mail sender => exact (Answers.mail sender hconnected).concludes.then_return _
  | recipient address => exact (Answers.recipient address hconnected).concludes.then_return _
  | data => exact (Answers.data hconnected).concludes.then_return _
  | reset => exact (Answers.reset hconnected).concludes.then_return _
  | noOp =>
      have hproper : Response.ok.Proper := ⟨by decide, by decide, nofun⟩
      exact (Answers.reply hproper rfl hconnected).concludes.then_return _
  | quit =>
      have hproper : Response.goodbye.Proper := ⟨by decide, by decide, nofun⟩
      exact (Answers.reply hproper rfl hconnected).concludes.then_return _

end Session

end PostGraph.Smtp
