import PostGraph.MailProxy.Delivery
import PostGraph.MsGraph.Uptime
import PostGraph.Smtp.Substitution
import PostGraph.Smtp.Transcript

/-! # From the wire to the API

As long as the servers are up, what a client submits over its connection is posted to the
API, octet by octet, and the client is told so.
-/

namespace PostGraph.Smtp

variable {π Clock N : Type}

theorem Happening.turnsOf_recorded (i : Nat) (happenings : List (Happening π Clock N)) :
    turnsOf i (happenings.map recorded) = turnsOf i happenings := by
  induction happenings with
  | nil => rfl
  | cons happening rest ih =>
      cases happening <;> simp [recorded, turnsOf, ih]

theorem Happening.leaves_recorded (i : Nat) (happenings : List (Happening π Clock N)) :
    leaves i (happenings.map recorded) = leaves i happenings := by
  induction happenings with
  | nil => rfl
  | cons happening rest ih =>
      cases happening <;> simp [recorded, leaves, ih]

end PostGraph.Smtp

namespace PostGraph.MailProxy

open Foundation Smtp MsGraph

section Forwarding

variable {N : Type} [HttpClient N] [Base64] [Lowercase]

/-- The post of a message: to the address of its sender, with its body. -/
def forwarded (config : MsGraph.Config N) (submission : Submission) : Post where
  url := Client.sendMailUrl config submission.sender.address
  body := .raw (Base64.encode submission.body.flatten)
  accepted := true

/-- The handler's client is in order, and its servers are up. -/
structure Online (config : MsGraph.Config N) (up : Recorded N → Prop) (file : ConfigFile)
    (handler : ProxyHandler (Recorded N)) : Prop where
  config_eq : handler.config = file
  ready : Client.Ready config up 0 handler.graphClient

variable {config : MsGraph.Config N} {up : Recorded N → Prop} {file : ConfigFile}
variable {handler : ProxyHandler (Recorded N)}

theorem Online.onMail (hworks : Works config up) (h : Online config up file handler) (mail : Mail) :
    Online config up file (ProxyHandler.onMail mail handler).2 := by
  cases hcheck : handler.checkSender mail.sender with
  | error error =>
      rw [ProxyHandler.onMail, hcheck]
      exact h
  | ok checked =>
      rw [onMail_submit hcheck]
      exact ⟨h.config_eq, (Client.submit_ready hworks h.ready _).2⟩

theorem Online.call [Argon2] (hworks : Works config up) (callback : Callback)
    (handler : ProxyHandler (Recorded N)) (h : Online config up file handler) :
    Online config up file (callback.call handler).2 := by
  cases callback with
  | hello domain extended => exact h
  | login username password =>
      have hkept : Online config up file (ProxyHandler.onLogin username password handler).2 := by
        rcases handler.onLogin_cases username password with ⟨-, hlogin⟩ | ⟨-, hlogin⟩
        · rw [hlogin]
          exact ⟨h.config_eq, h.ready⟩
        · rw [hlogin]
          exact ⟨h.config_eq, h.ready⟩
      exact hkept
  | mail mail => exact h.onMail hworks mail
  | reset => exact ⟨h.config_eq, h.ready⟩

/-- A mail of an allowed sender is posted and accepted. -/
theorem Online.onMail_posted (hworks : Works config up) (h : Online config up file handler)
    {submission : Submission} (hcheck : handler.checkSender submission.sender.address = .ok ()) :
    (ProxyHandler.onMail submission.mail handler).1 = .ok () ∧
      posts (ProxyHandler.onMail submission.mail handler).2.graphClient.traffic =
        posts handler.graphClient.traffic ++ [forwarded config submission] := by
  have hallowed : handler.checkSender submission.mail.sender = .ok () := hcheck
  have hsubmit := onMail_submit hallowed
  have hready := (Client.submit_ready hworks h.ready
    (submission.mail.sender, submission.mail.data)).1
  obtain ⟨-, hposts⟩ := Client.submit_tracked h.ready.tracked
    (submission.mail.sender, submission.mail.data)
  rw [hsubmit]
  rcases hposts with hposts | ⟨hfailed, -⟩
  · refine ⟨hready, hposts.trans ?_⟩
    rw [hready]
    rfl
  · rw [hready] at hfailed
    cases hfailed

omit [HttpClient N] [Base64] in
theorem checkSender_congr {handler other : ProxyHandler N} (hconfig : handler.config = other.config)
    (husername : handler.username = other.username) (sender : Text) :
    handler.checkSender sender = other.checkSender sender := by
  unfold ProxyHandler.checkSender
  rw [hconfig, husername]

/-- A handler that has forwarded these messages since another one. -/
structure Forwarding (config : MsGraph.Config N) (up : Recorded N → Prop)
    (start : ProxyHandler (Recorded N)) (done : List Submission)
    (handler : ProxyHandler (Recorded N)) : Prop where
  online : Online config up start.config handler
  username_eq : handler.username = start.username
  posts_eq : posts handler.graphClient.traffic =
    posts start.graphClient.traffic ++ done.map (forwarded config)

theorem Forwarding.next (hworks : Works config up) {start : ProxyHandler (Recorded N)}
    {done : List Submission} (h : Forwarding config up start done handler)
    {submission : Submission} (hcheck : start.checkSender submission.sender.address = .ok ()) :
    (ProxyHandler.onMail submission.mail handler).1 = .ok () ∧
      Forwarding config up start (done ++ [submission])
        (ProxyHandler.onMail submission.mail handler).2 := by
  have hallowed : handler.checkSender submission.sender.address = .ok () :=
    (checkSender_congr h.online.config_eq h.username_eq _).trans hcheck
  obtain ⟨hanswer, hposts⟩ := h.online.onMail_posted hworks hallowed
  have hkeeps := ProxyHandler.onMail_keeps (Prod.mk.eta
    (p := ProxyHandler.onMail submission.mail handler)).symm
  refine ⟨hanswer, h.online.onMail hworks _, hkeeps.1.trans h.username_eq, ?_⟩
  rw [hposts, h.posts_eq, List.map_append, List.append_assoc]
  rfl

variable [Argon2]

theorem Online.turns {π : Type} [Transport π] (hworks : Works config up)
    {task : Task π (ProxyHandler (Recorded N))} (h : Online config up file task.config.handler)
    (count : Nat) : Online config up file (task.turns count).config.handler := by
  induction count generalizing task with
  | zero => rwa [Task.turns_zero]
  | succ count ih =>
      rw [Task.turns_succ]
      exact ih (Task.turn_keeps (Online.call hworks) h)

/-- In a run over servers that are up, every handler is online. -/
theorem run_online {π : Type} [TlsFiles] [Transport π] {network : N}
    (hworks : Works (file.graph.intoClientConfig network) up)
    {happenings : List (Happening π Readings N)}
    (hup : ∀ peer stream clock start, .accept peer stream clock start ∈ happenings →
      up (.new start))
    {world : World π (ProxyHandler (Recorded N)) Fail2Ban}
    (hrun : run file (.new network) (happenings.map .recorded) = .ok world) :
    world.Forall fun task =>
      Online (file.graph.intoClientConfig network) up file task.config.handler := by
  obtain ⟨smtpConfig, fail2ban, hprepare, rfl⟩ := run_ok hrun
  intro served hserved
  obtain ⟨before, peer, stream, clock, recorded, after, hhappenings, rfl⟩ :=
    Server.exists_accept_of_mem hserved
  have hmem : Happening.accept peer stream clock recorded ∈ happenings.map Happening.recorded := by
    rw [hhappenings]
    exact List.mem_append_right _ List.mem_cons_self
  obtain ⟨happening, haccepted, hrecorded⟩ := List.mem_map.mp hmem
  cases happening with
  | turn i => cases hrecorded
  | leave i clock => cases hrecorded
  | accept peer' stream' clock' start =>
      cases hrecorded
      rw [Served.follow, if_neg Bool.false_ne_true]
      apply Online.turns hworks
      apply Server.accept_keeps (Online.call hworks)
      have hstarts := starts_delivering hprepare start
      obtain ⟨hhandler, -⟩ := prepare_ok hprepare
      rw [hhandler] at hstarts ⊢
      exact ⟨rfl, hstarts.tracked, hup _ _ _ _ haccepted, rfl⟩

/-- For every configuration, every run over servers that are up, and every session in it
that may send: whatever else happens meanwhile, and however often the token is renewed, the
messages that its client has written are handed over for posting one by one, each once,
with the body as it was, and each is acknowledged. -/
theorem submissions_forwarded [TlsFiles] (file : ConfigFile) (network : N)
    (happenings later : List (Happening Wire Readings N))
    (world : World Wire (ProxyHandler (Recorded N)) Fail2Ban) (i : Nat) (peer : IpAddr)
    (session : Session Wire (ProxyHandler (Recorded N))) (submissions : List Submission)
    (rest : Bytes) (hworks : Works (file.graph.intoClientConfig network) up)
    (hup : ∀ peer stream clock start, .accept peer stream clock start ∈ happenings →
      up (.new start))
    (hrun : run file (.new network) (happenings.map .recorded) = .ok world)
    (hserved : world.tasks[i]? = some ⟨peer, .serving (.running session), false⟩)
    (hphase : session.state.phase = .greeted) (hallowed : session.isAuthenticated = true)
    (hsenders : ∀ submission ∈ submissions,
      session.config.handler.checkSender submission.sender.address = .ok ())
    (hfits : ∀ submission ∈ submissions, submission.Fits session.config.maxMessageSize)
    (hdelivers : session.Delivers ((submissions.flatMap Submission.lines).flatten ++ rest))
    (hturns : Happening.turnsOf i later = (submissions.flatMap Submission.lines).length)
    (hstays : Happening.leaves i later = false) :
    ∃ world' after,
      run file (.new network) ((happenings ++ later).map .recorded) = .ok world' ∧
        world'.tasks[i]? = some ⟨peer, .serving (.running after), false⟩ ∧
        after.log = session.log ++
          submissions.flatMap (Submission.transcript · (.ok ()) session.isTls) ∧
        posts after.config.handler.graphClient.traffic =
          posts session.config.handler.graphClient.traffic ++
            submissions.map (forwarded (file.graph.intoClientConfig network)) ∧
        after.Delivers rest := by
  have honline := run_online hworks hup hrun _ (List.mem_of_getElem? hserved)
  have hstart : Forwarding (file.graph.intoClientConfig network) up session.config.handler []
      session.config.handler := by
    refine ⟨⟨rfl, honline.ready⟩, rfl, ?_⟩
    rw [List.map_nil, List.append_nil]
  obtain ⟨after, state, hproceeds, hdone⟩ := Session.proceeds_submissions
    (fun done submission hmem handler hhandler =>
      hhandler.next hworks (hsenders submission hmem)) hstart hphase hallowed hfits hdelivers
  obtain ⟨smtpConfig, fail2ban, hprepare, rfl⟩ := run_ok hrun
  refine ⟨_, after, run_of_prepare hprepare _, ?_, hproceeds.log_eq, hdone.posts_eq,
    hproceeds.delivers⟩
  have happend : Server.listen smtpConfig fail2ban ((happenings ++ later).map .recorded) =
      (later.map .recorded).foldl (World.step smtpConfig)
        (Server.listen smtpConfig fail2ban (happenings.map .recorded)) := by
    rw [List.map_append, Server.listen, List.foldl_append]
    rfl
  rw [happend, World.foldl_step_getElem? smtpConfig _ (later.map .recorded) hserved,
    Served.follow, if_neg Bool.false_ne_true, Happening.turnsOf_recorded,
    Happening.leaves_recorded, hturns, hstays]
  exact congrArg (fun flow => some (Served.mk peer (Task.serving flow) false)) hproceeds.run

end Forwarding

namespace Sample

/-- Servers that grant tokens for an hour and accept mails. The clock goes on by a
nanosecond with each reading, and a request takes until the next multiple of 2000
seconds. -/
structure Timed where
  time : Nat

scoped instance : HttpClient Timed where
  send request servers :=
    (.ok ⟨if request.bearer.isSome then 202 else 200, []⟩,
      ⟨(servers.time / 2000000000000 + 1) * 2000000000000⟩)
  now servers := (servers.time, ⟨servers.time + 1⟩)
  statusError _ := []
  json _ := .ok ⟨"secret".toList, "Bearer".toList, 3600, none⟩

/-- The readings since the last request are all that the clock is past a multiple, and
tokens were issued on multiples. -/
structure OnTime (config : MsGraph.Config Timed) (recorded : Recorded Timed) : Prop where
  time_mod : recorded.network.time % 2000000000000 = readsSince recorded.traffic
  reads_le : readsSince recorded.traffic ≤ 2
  issued : ∀ token, (Wallet.after config recorded.traffic).token = some token →
    ∃ issued, token.issuedAt = some issued ∧ issued % 2000000000000 = 0
  read : readsSince recorded.traffic ≠ 0 →
    (Wallet.after config recorded.traffic).offered = none ∧
      (Wallet.after config recorded.traffic).time = some (recorded.network.time - 1)

theorem OnTime.sent {config : MsGraph.Config Timed} {recorded : Recorded Timed}
    (h : OnTime config recorded) (request : Request) :
    OnTime config (HttpClient.send request recorded).2 := by
  rw [Recorded.send_snd]
  constructor
  · rw [readsSince_sent]
    exact Nat.mul_mod_left _ _
  · rw [readsSince_sent]
    exact Nat.zero_le _
  · intro token htoken
    rw [Wallet.after_concat] at htoken
    exact h.issued token htoken
  · rw [readsSince_sent]
    exact fun hread => absurd rfl hread

theorem OnTime.now {config : MsGraph.Config Timed} {recorded : Recorded Timed}
    (h : OnTime config recorded) (hreads : readsSince recorded.traffic < 2) :
    OnTime config (HttpClient.now recorded).2 := by
  have hmod := h.time_mod
  have hreads' := readsSince_read recorded.traffic recorded.network.time
  refine ⟨?_, hreads'.trans_le hreads, ?_, ?_⟩
  · change (recorded.network.time + 1) % _ = _
    rw [show readsSince (HttpClient.now recorded).2.traffic = _ from hreads']
    omega
  · intro token htoken
    change (Wallet.after config (recorded.traffic ++ [.read recorded.network.time])).token = _
      at htoken
    rw [Wallet.after_concat, Wallet.observe] at htoken
    cases hoffered : ((Wallet.after config recorded.traffic).offered.filter
        (·.tokenType = "Bearer".toList)) with
    | none =>
        rw [hoffered] at htoken
        exact h.issued token htoken
    | some offered =>
        -- A token is on offer only directly behind a request.
        rw [hoffered] at htoken
        cases htoken
        refine ⟨recorded.network.time, rfl, ?_⟩
        by_contra hlate
        rw [(h.read (hmod ▸ hlate)).1] at hoffered
        cases hoffered
  · intro _
    change (Wallet.after config (recorded.traffic ++ [.read recorded.network.time])).offered = _ ∧
      (Wallet.after config (recorded.traffic ++ [.read recorded.network.time])).time =
        some (recorded.network.time + 1 - 1)
    rw [Wallet.after_concat, Nat.add_sub_cancel]
    exact ⟨rfl, rfl⟩

/-- The last nanosecond does not complete a second. -/
theorem asSecs_elapsed_pred {issued time : Nat} (hissued : issued % 2000000000000 = 0)
    (htime : time % 2000000000000 = 1) :
    (Instant.elapsed issued (time - 1)).asSecs = (Instant.elapsed issued time).asSecs := by
  unfold Instant.elapsed Duration.asSecs
  omega

theorem timed_works (config : MsGraph.Config Timed) : Works config (OnTime config) where
  grants recorded h _ := by
    refine ⟨_, _, rfl, ?_, rfl, rfl, h.sent _⟩
    exact (by decide : ¬ Reply.IsError ⟨200, []⟩)
  accepts recorded token sender mailMimeData h _ :=
    ⟨(by decide : accepts (.ok ⟨202, []⟩) = true), h.sent _⟩
  reads recorded h hreads := h.now hreads
  keeps recorded h hreads hvalid := by
    have hmod := h.time_mod
    obtain ⟨hoffered, htime⟩ := h.read (by omega)
    obtain ⟨token, htoken⟩ := Option.isSome_iff_exists.mp (Wallet.token_isSome_of_valid hvalid)
    obtain ⟨issued, hissued, hmultiple⟩ := h.issued token htoken
    change (Wallet.after config
      (recorded.traffic ++ [.read recorded.network.time])).valid.isSome
    rw [Wallet.valid, htoken, htime] at hvalid
    rw [Wallet.after_concat, Wallet.observe, hoffered, Wallet.valid]
    simp only [Option.filter_none, Option.elim_none, htoken]
    simp only [hissued, Option.getD_some,
      asSecs_elapsed_pred hmultiple (hmod.trans hreads)] at hvalid ⊢
    exact hvalid

/-- A client has written three messages, but only its greeting was read yet. -/
def writing : List (Happening Wire Readings Timed) :=
  [.accept (.v4 1) (client (ascii "EHLO c\r\n" ++
    ((List.replicate 3 sampleSubmission).flatMap Submission.lines).flatten) (by decide))
    ⟨0, 0⟩ ⟨0⟩, .turn 0]

/-- The turns that read the messages. -/
def reading : List (Happening Wire Readings Timed) := List.replicate 21 (.turn 0)

/-- The session of a task that runs. -/
def openSession : Served Wire (ProxyHandler (Recorded Timed)) →
    Option (Session Wire (ProxyHandler (Recorded Timed)))
  | ⟨_, .serving (.running session), false⟩ => some session
  | _ => none

theorem openSession_eq_some {served : Served Wire (ProxyHandler (Recorded Timed))}
    {session : Session Wire (ProxyHandler (Recorded Timed))}
    (h : openSession served = some session) :
    served = ⟨served.peer, .serving (.running session), false⟩ := by
  unfold openSession at h
  split at h
  · cases h
    rfl
  · cases h

/-- What of a session matters for a message that it is sent. -/
structure Outlook where
  phase : Phase
  allowed : Bool
  maxMessageSize : Nat
  pending : Option Bytes
  username : Option Text
  deriving DecidableEq

def outlook (session : Session Wire (ProxyHandler (Recorded Timed))) : Outlook where
  phase := session.state.phase
  allowed := session.isAuthenticated
  maxMessageSize := session.config.maxMessageSize
  pending := session.connection.map Connection.pending
  username := session.config.handler.username

/-- When tokens were requested or mails posted, whether it was a mail. -/
def requests (world : World Wire (ProxyHandler (Recorded Timed)) Fail2Ban) : List (List Bool) :=
  world.tasks.map fun served =>
    served.task.config.handler.graphClient.traffic.filterMap fun exchange => match exchange with
      | .sent request _ => some request.bearer.isSome
      | .read _ => none

end Sample

open Sample in
theorem submissions_forwarded_sample : ∃ world' peer after before,
    run ConfigFile.empty (.new (Timed.mk 0)) ((writing ++ reading).map .recorded) = .ok world' ∧
      world'.tasks[0]? = some ⟨peer, .serving (.running after), false⟩ ∧
      posts after.config.handler.graphClient.traffic = before ++
        List.replicate 3
          (forwarded (ConfigFile.empty.graph.intoClientConfig (Timed.mk 0)) sampleSubmission) ∧
      requests world' = [[false, true, true, false, true]] := by
  have hrequests : (run ConfigFile.empty (.new (Timed.mk 0))
      ((writing ++ reading).map .recorded)).toOption.map requests =
        some [[false, true, true, false, true]] := by decide +kernel
  cases hrun : run ConfigFile.empty (.new (Timed.mk 0)) (writing.map .recorded) with
  | error error => cases hrun
  | ok world =>
      have houtlook : (world.tasks[0]?.bind openSession).map outlook = some ⟨.greeted, true,
          MsGraph.recommendedMaxMessageSize,
          some (((List.replicate 3 sampleSubmission).flatMap Submission.lines).flatten), none⟩ := by
        cases hrun
        decide +kernel
      obtain ⟨session, hopen, hsession⟩ := Option.map_eq_some_iff.mp houtlook
      obtain ⟨served, hserved, hsome⟩ := Option.bind_eq_some_iff.mp hopen
      have husername : session.config.handler.username = none := congrArg Outlook.username hsession
      have hsender :
          session.config.handler.checkSender sampleSubmission.sender.address = .ok () := by
        rw [ProxyHandler.checkSender, husername]
      have hsize : session.config.maxMessageSize = MsGraph.recommendedMaxMessageSize :=
        congrArg Outlook.maxMessageSize hsession
      have hfits : sampleSubmission.Fits session.config.maxMessageSize := by
        rw [hsize]
        exact ⟨by decide, by decide⟩
      have hup : ∀ peer stream clock start, .accept peer stream clock start ∈ writing →
          OnTime (ConfigFile.empty.graph.intoClientConfig (Timed.mk 0)) (.new start) := by
        intro peer stream clock start haccept
        rcases List.mem_pair.mp haccept with heq | heq
        · cases heq
          exact ⟨rfl, Nat.zero_le _, fun _ htoken => (by cases htoken), fun h => absurd rfl h⟩
        · cases heq
      have hworks := timed_works (ConfigFile.empty.graph.intoClientConfig (Timed.mk 0))
      obtain ⟨world', after, hrun', hafter, -, hposts, -⟩ := submissions_forwarded ConfigFile.empty
        (Timed.mk 0) writing reading world 0 served.peer session
        (List.replicate 3 sampleSubmission) [] hworks hup hrun
        (hserved.trans (congrArg some (openSession_eq_some hsome)))
        (congrArg Outlook.phase hsession) (congrArg Outlook.allowed hsession)
        (fun _ hmem => List.eq_of_mem_replicate hmem ▸ hsender)
        (fun _ hmem => List.eq_of_mem_replicate hmem ▸ hfits)
        (.of_pending (congrArg Outlook.pending hsession)) (by decide) (by decide)
      refine ⟨world', served.peer, after, _, hrun', hafter, hposts, ?_⟩
      rw [hrun'] at hrequests
      exact Option.some.inj hrequests

end PostGraph.MailProxy
