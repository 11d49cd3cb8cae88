import PostGraph.MailProxy.LoginState
import PostGraph.MsGraph.Traffic
import PostGraph.Smtp.Interleaving

/-! # From the session to the API

What a session's log says about its mails is what the traffic of its client shows:
the API accepted a mail exactly when the session was told so, in the same order and
never twice.
-/

namespace PostGraph.Smtp

variable {π Clock N : Type}

/-- The same happenings, each session over a network that starts a record. -/
def Happening.recorded : Happening π Clock N → Happening π Clock (MsGraph.Recorded N)
  | accept peer stream clock network => accept peer stream clock (.new network)
  | turn i => turn i
  | leave i clock => leave i clock

end PostGraph.Smtp

namespace PostGraph.MailProxy

open Foundation Foundation.History Smtp MsGraph

/-- The mails that a session handed over, each with the answer. -/
def submissions (log : List Event) : List ((Text × Bytes) × Except Text Unit) :=
  log.filterMap fun
    | .mail mail answer _ => some ((mail.sender, mail.data), answer)
    | _ => none

theorem submissions_append (log other : List Event) :
    submissions (log ++ other) = submissions log ++ submissions other :=
  List.filterMap_append

theorem submissions_replies (replies : List Response) :
    submissions (replies.map .reply) = [] := by
  rw [submissions, List.filterMap_eq_nil_iff]
  intro event hevent
  obtain ⟨response, _, rfl⟩ := List.mem_map.mp hevent
  rfl

section Delivery

variable {N : Type} [HttpClient N] [Base64]

/-- The traffic shows what the log says: requests are in order, the accepted posts
are the mails with a positive answer, and no mail is posted twice. -/
structure Delivered (config : MsGraph.Config N) (traffic : List Exchange) (log : List Event) :
    Prop where
  ordered : Justified (InOrder config) traffic
  accepted_eq : (posts traffic).filter Post.accepted =
    (Client.postsOf config (submissions log)).filter Post.accepted
  sublist : (posts traffic).Sublist (Client.postsOf config (submissions log))

/-- A session that so far has delivered what it says. -/
structure Delivering (config : MsGraph.Config N) (handler : ProxyHandler (Recorded N))
    (log : List Event) : Prop where
  tracked : Client.Tracked config handler.graphClient
  delivered : Delivered config handler.graphClient.traffic log

variable {config : MsGraph.Config N} {handler : ProxyHandler (Recorded N)} {log : List Event}

/-- A client that has sent nothing, and a log without mails. -/
theorem Delivering.of_new {client : Client (Recorded N)} (hclient : handler.graphClient = client)
    (htracked : Client.Tracked config client) (hposts : posts client.traffic = [])
    (hlog : submissions log = []) : Delivering config handler log := by
  subst hclient
  refine ⟨htracked, htracked.ordered, ?_, ?_⟩
  · rw [hposts, hlog]
    rfl
  · rw [hposts]
    exact List.nil_sublist _

/-- Events other than mails, while the client is left alone. -/
theorem Delivering.append (h : Delivering config handler log) {after : ProxyHandler (Recorded N)}
    (hclient : after.graphClient = handler.graphClient) {events : List Event}
    (hevents : submissions events = []) : Delivering config after (log ++ events) := by
  have hlog : submissions (log ++ events) = submissions log := by
    rw [submissions_append, hevents, List.append_nil]
  refine ⟨hclient ▸ h.tracked, ?_⟩
  rw [hclient]
  refine ⟨h.delivered.ordered, ?_, ?_⟩
  · rw [hlog]
    exact h.delivered.accepted_eq
  · rw [hlog]
    exact h.delivered.sublist

omit [HttpClient N] [Base64] in
theorem submissions_mail (log : List Event) (mail : Mail) (answer : Except Text Unit)
    (isTls : Bool) : submissions (log ++ [.mail mail answer isTls]) =
      submissions log ++ [((mail.sender, mail.data), answer)] :=
  submissions_append log _

/-- One more mail: it is posted once, or it fails without a post. -/
theorem Delivered.concat {traffic traffic' : List Exchange} (h : Delivered config traffic log)
    (hordered : Justified (InOrder config) traffic') (mail : Mail) (answer : Except Text Unit)
    (isTls : Bool)
    (hposts : posts traffic' =
        posts traffic ++ [Client.postOf config (mail.sender, mail.data) answer.isOk] ∨
      answer.isOk = false ∧ posts traffic' = posts traffic) :
    Delivered config traffic' (log ++ [.mail mail answer isTls]) := by
  have hpostsOf : Client.postsOf config (submissions (log ++ [.mail mail answer isTls])) =
      Client.postsOf config (submissions log) ++
        [Client.postOf config (mail.sender, mail.data) answer.isOk] := by
    rw [submissions_mail]
    exact List.map_append
  refine ⟨hordered, ?_, ?_⟩
  · rw [hpostsOf, List.filter_append]
    rcases hposts with hposts | ⟨hfailed, hposts⟩
    · rw [hposts, List.filter_append, h.accepted_eq]
    · rw [hposts, hfailed, h.accepted_eq]
      exact (List.append_nil _).symm
  · rw [hpostsOf]
    rcases hposts with hposts | ⟨-, hposts⟩
    · rw [hposts]
      exact h.sublist.append (.refl _)
    · rw [hposts]
      exact h.sublist.trans (List.sublist_append_left ..)

section Acts

variable [Lowercase]

/-- A mail of an allowed sender is submitted to the client. -/
theorem onMail_submit {mail : Mail} (hcheck : handler.checkSender mail.sender = .ok ()) :
    ProxyHandler.onMail mail handler =
      ((Client.submit (mail.sender, mail.data) handler.graphClient).1,
        { handler with
          productive := true
          history := handler.history ++ [ProxyEvent.sendMail mail.sender mail.data]
          graphClient := (Client.submit (mail.sender, mail.data) handler.graphClient).2 }) := by
  unfold ProxyHandler.onMail Client.submit
  rw [hcheck]
  dsimp only
  cases Client.sendMail mail.sender mail.data handler.graphClient <;> rfl

/-- A mail and its answer go to the log and to the traffic. -/
theorem Delivering.deliver (h : Delivering config handler log) {mail : Mail}
    {answer : Except Text Unit} {after : ProxyHandler (Recorded N)}
    (hanswer : ProxyHandler.onMail mail handler = (answer, after)) (isTls : Bool) :
    Delivering config after (log ++ [.mail mail answer isTls]) := by
  cases hcheck : handler.checkSender mail.sender with
  | error error =>
      rw [ProxyHandler.onMail, hcheck] at hanswer
      cases hanswer
      exact ⟨h.tracked, h.delivered.concat h.delivered.ordered mail _ isTls (.inr ⟨rfl, rfl⟩)⟩
  | ok checked =>
      cases (onMail_submit hcheck).symm.trans hanswer
      obtain ⟨htracked, hposts⟩ := Client.submit_tracked h.tracked (mail.sender, mail.data)
      exact ⟨htracked, h.delivered.concat htracked.ordered mail _ isTls hposts⟩

variable [Argon2] {d d' : Dialogue (ProxyHandler (Recorded N))}

theorem Delivering.act (h : Delivering config d.config.handler d.log) (hact : Dialogue.Act d d') :
    Delivering config d'.config.handler d'.log := by
  cases hact with
  | greet hphase hanswer =>
      cases hanswer
      refine h.append rfl ?_
      rfl
  | secure hphase hsecurity =>
      refine h.append rfl ?_
      rfl
  | logIn hphase hmode hanswer =>
      rename_i username password handler
      refine h.append ?_ rfl
      rcases d.config.handler.onLogin_cases username password with ⟨-, hlogin⟩ | ⟨-, hlogin⟩
      · cases hlogin.symm.trans hanswer
        rfl
      · cases hlogin.symm.trans hanswer
  | mail sender hphase hallowed => exact h
  | recipient address hphase hallowed => exact h
  | data hphase hallowed => exact h
  | capture line hphase hsize => exact h
  | deliver hphase hanswer => exact h.deliver hanswer d.isTls
  | reset hanswer =>
      cases hanswer
      refine h.append ?_ ?_
      · rfl
      · rfl

theorem Delivering.parting (h : Delivering config d.config.handler d.log)
    (hparting : Dialogue.Parting d d') : Delivering config d'.config.handler d'.log := by
  cases hparting with
  | hello hphase hanswer hrejected =>
      cases hanswer
      exact absurd rfl hrejected
  | login hphase hmode hanswer hrejected =>
      cases ProxyHandler.onLogin_rejected hanswer hrejected
      refine h.append ?_ ?_
      · rfl
      · rfl

theorem delivering_invariant (config : MsGraph.Config N) :
    Dialogue.Invariant
      (fun d : Dialogue (ProxyHandler (Recorded N)) => Delivering config d.config.handler d.log)
      (fun sessionConfig log => Delivering config sessionConfig.handler log) where
  say replies hd := hd.append rfl (submissions_replies replies)
  act hd hact := hd.act hact
  parting hd hparting := hd.parting hparting
  ended_of_live hd := hd
  ended_say replies hended := hended.append rfl (submissions_replies replies)

omit [Base64] [HttpClient N] [Lowercase] [Argon2] in
/-- Sessions over recording networks start with an empty record. -/
theorem exists_network {π : Type} {happenings : List (Happening π Readings N)}
    {before after : List (Happening π Readings (Recorded N))} {peer : IpAddr} {stream : π}
    {clock : Readings} {network : Recorded N}
    (h : happenings.map Happening.recorded = before ++ .accept peer stream clock network :: after) :
    ∃ start : N, network = .new start := by
  obtain ⟨first, rest, rfl, -, hrest⟩ := List.map_eq_append_iff.mp h
  obtain ⟨happening, rest', rfl, hhappening, -⟩ := List.map_eq_cons_iff.mp hrest
  cases happening with
  | accept peer' stream' clock' start =>
      cases hhappening
      exact ⟨start, rfl⟩
  | turn i => cases hhappening
  | leave i clock' => cases hhappening

omit [Lowercase] [Argon2] in
theorem starts_delivering [TlsFiles] {file : ConfigFile} {network : N}
    {smtpConfig : Smtp.Config (ProxyHandler (Recorded N))} {fail2ban : Fail2Ban}
    (hprepare : prepare file (.new network) = .ok (smtpConfig, fail2ban)) (start : N) :
    Delivering (file.graph.intoClientConfig network)
      { smtpConfig.sessionConfig.handler.clone (.new start) with productive := false } [] := by
  rw [(prepare_ok hprepare).1]
  refine .of_new rfl ⟨⟨.new start, rfl⟩, rfl, ?_, rfl, .nil⟩ rfl rfl
  intro token htoken
  cases htoken

/-- Every session of a task has delivered what it says. -/
def TaskDelivers {π : Type} (config : MsGraph.Config N)
    (task : Task π (ProxyHandler (Recorded N))) : Prop :=
  task.Holds (fun d => Delivering config d.config.handler d.log)
    (fun sessionConfig log => Delivering config sessionConfig.handler log)
    (fun sessionConfig => Delivering config sessionConfig.handler [])

omit [Lowercase] [Argon2] in
theorem TaskDelivers.shown {π : Type} {task : Task π (ProxyHandler (Recorded N))}
    (h : TaskDelivers config task) :
    Delivered config task.config.handler.graphClient.traffic task.log :=
  Task.Holds.shown h (fun _ hd => hd.delivered) (fun _ _ hended => hended.delivered)
    fun _ hidle => hidle.delivered

/-- Whatever the other sessions do, each session of a run delivers what it says. -/
theorem run_delivers {π : Type} [TlsFiles] [Transport π] {file : ConfigFile} {network : N}
    {happenings : List (Happening π Readings N)}
    {world : World π (ProxyHandler (Recorded N)) Fail2Ban}
    (hrun : run file (.new network) (happenings.map .recorded) = .ok world) :
    ∀ served ∈ world.tasks, TaskDelivers (file.graph.intoClientConfig network) served.task := by
  obtain ⟨smtpConfig, fail2ban, hprepare, rfl⟩ := run_ok hrun
  intro served hserved
  obtain ⟨before, peer, stream, clock, recorded, after, hhappenings, rfl⟩ :=
    Server.exists_accept_of_mem hserved
  obtain ⟨start, rfl⟩ := exists_network hhappenings
  have hstarts := starts_delivering hprepare start
  have hfirst : TaskDelivers (file.graph.intoClientConfig network)
      (Server.accept smtpConfig peer stream clock (.new start)
        (Server.listen smtpConfig fail2ban before).shared).1 :=
    Server.accept_holds (delivering_invariant _) rfl hstarts hstarts
  rw [Served.follow, if_neg Bool.false_ne_true]
  exact Task.turns_holds (delivering_invariant _) hfirst
    (Happening.turnsOf (Happening.accepted before) after)

/-- In every run of the proxy, for every session: the requests that its client hands to the
HTTP client are in order, with tokens that this very session was granted; the posts that
were accepted are the mails of the log for which the handler's answer was positive, in
order; and no mail is handed over for posting twice. The reply that such an answer becomes
may still fail to reach the peer. -/
theorem mails_delivered {π : Type} [TlsFiles] [Transport π] (file : ConfigFile) (network : N)
    (happenings : List (Happening π Readings N))
    (world : World π (ProxyHandler (Recorded N)) Fail2Ban)
    (hrun : run file (.new network) (happenings.map .recorded) = .ok world) :
    ∀ served ∈ world.tasks, Delivered (file.graph.intoClientConfig network)
      served.task.config.handler.graphClient.traffic served.task.log :=
  fun served hserved => (run_delivers hrun served hserved).shown

end Acts

end Delivery

namespace Sample

/-- Servers that grant a token and accept a mail; the clock stands still. -/
inductive Cloud where
  | cloud

scoped instance : HttpClient Cloud where
  send request servers :=
    (.ok ⟨if request.bearer.isSome then 202 else 200, []⟩, servers)
  now servers := (0, servers)
  statusError _ := []
  json _ := .ok ⟨"secret".toList, "Bearer".toList, 3600, none⟩

/-- Send a mail after a login, and another one that the user may not send. -/
def sending : List (Happening Wire Readings Cloud) :=
  .accept (.v4 1) (client (ascii "EHLO c\r\nAUTH PLAIN AGEAYg==\r\n" ++
    ascii "MAIL FROM:<x@example.com>\r\nRCPT TO:<y@z>\r\nDATA\r\nhi\r\n.\r\n" ++
    ascii "MAIL FROM:<x@other.org>\r\nRCPT TO:<y@z>\r\nDATA\r\nhi\r\n.\r\n") (by decide))
    ⟨0, 0⟩ .cloud :: List.replicate 12 (.turn 0)

/-- How many mails were posted, and how many were handed over. -/
def counts (world : World Wire (ProxyHandler (Recorded Cloud)) Fail2Ban) : List (Nat × Nat) :=
  world.tasks.map fun served =>
    ((posts served.task.config.handler.graphClient.traffic).length,
      (submissions served.task.log).length)

end Sample

open Sample in
theorem mails_delivered_sample :
    ∃ world, run (file true) (.new Cloud.cloud) (sending.map .recorded) = .ok world ∧
      (∀ served ∈ world.tasks, Delivered ((file true).graph.intoClientConfig Cloud.cloud)
        served.task.config.handler.graphClient.traffic served.task.log) ∧
      counts world = [(1, 2)] := by
  have hcounts : (run (file true) (.new Cloud.cloud) (sending.map .recorded)).toOption.map counts =
      some [(1, 2)] := by decide +kernel
  cases hrun : run (file true) (.new Cloud.cloud) (sending.map .recorded) with
  | error error =>
      rw [hrun] at hcounts
      cases hcounts
  | ok world =>
      rw [hrun] at hcounts
      exact ⟨world, rfl, mails_delivered (file true) Cloud.cloud sending world hrun,
        Option.some.inj hcounts⟩

end PostGraph.MailProxy
