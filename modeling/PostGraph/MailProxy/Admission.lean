import PostGraph.MailProxy.BruteForce
import PostGraph.Smtp.Interleaving

/-! # Admission

Who gets a session. The filter and the store have to agree to it; for a peer that keeps
coming, what the store says is what its connections and its failed sessions say.
-/

namespace PostGraph.MailProxy

open Foundation Smtp

variable {π N : Type}

/-- Connections of the peer that are open, whether accepted or not. -/
def openConnections (peer : IpAddr) (world : World π (ProxyHandler N) Fail2Ban) : Nat :=
  world.tasks.countP (isOpen peer)

/-- Sessions of the peer that were accepted and are still open. -/
def servedSessions (peer : IpAddr) (world : World π (ProxyHandler N) Fail2Ban) : Nat :=
  world.tasks.countP (isServing peer)

/-- A peer is accepted if both the store and the filter say so. -/
theorem onConnect_ok_iff {peer : IpAddr} {clock : Readings} {fail2ban : Fail2Ban}
    {handler : ProxyHandler N} : (handler.onConnect peer clock fail2ban).1 = .ok .ok ↔
      fail2ban.connectVerdict peer clock = .ok ∧
        handler.config.smtp.peerFilter.evaluate peer = .allow := by
  have hanswer : (handler.onConnect peer clock fail2ban).1 =
      .ok (if fail2ban.connectVerdict peer clock ≠ .ok then .reject
        else if handler.config.smtp.peerFilter.evaluate peer ≠ .allow then .reject
        else .ok) := rfl
  rw [hanswer, Except.ok.injEq]
  by_cases hverdict : fail2ban.connectVerdict peer clock = .ok
  · by_cases hallow : handler.config.smtp.peerFilter.evaluate peer = .allow
    · simp [hverdict, hallow]
    · simp [hverdict, hallow]
  · simp [hverdict]

/-- A record is good if neither counter exceeds its limit. -/
theorem verdictOn_ok_iff {fail2ban : Fail2Ban} {info : PeerInfo} :
    fail2ban.verdictOn (some info) = .ok ↔
      info.fails.toNat ≤ fail2ban.maxFails.toNat ∧
        info.connections.toNat ≤ fail2ban.maxConnections.toNat := by
  rw [← UInt32.le_iff_toNat_le, ← UInt32.le_iff_toNat_le, ← UInt32.not_lt, ← UInt32.not_lt,
    Fail2Ban.verdictOn]
  by_cases hfails : fail2ban.maxFails < info.fails
  · simp [hfails]
  · by_cases hconnections : fail2ban.maxConnections < info.connections
    · simp [hfails, hconnections]
    · simp [hfails, hconnections]

section Accepting

variable [Transport π] {config : Smtp.Config (ProxyHandler N)} {file : ConfigFile}
variable {peer : IpAddr} {stream : π} {clock : Readings} {network : N} {shared : Fail2Ban}

theorem accepted_iff (hconfig : config.sessionConfig.handler.config = file) :
    (Server.accept config peer stream clock network shared).1.accepted = true ↔
      shared.connectVerdict peer clock = .ok ∧ file.smtp.peerFilter.evaluate peer = .allow := by
  subst hconfig
  have hok : (PeerHandler.onConnect peer clock shared
        (PeerHandler.clone network config.sessionConfig.handler)).1 = .ok .ok ↔
      shared.connectVerdict peer clock = .ok ∧
        config.sessionConfig.handler.config.smtp.peerFilter.evaluate peer = .allow :=
    onConnect_ok_iff
  rw [← hok]
  refine ⟨Server.accept_accepted, fun hanswer => ?_⟩
  rcases honConnect : PeerHandler.onConnect peer clock shared
      (PeerHandler.clone network config.sessionConfig.handler) with ⟨answer, shared', handler⟩
  rw [honConnect] at hanswer
  cases hanswer
  rw [Server.accept, honConnect]
  rfl

variable {maxAge : Duration} {maxConnections maxFails : UInt32}
variable {happenings : List (Happening π Readings N)}
variable {world : World π (ProxyHandler N) Fail2Ban}

omit [Transport π] in
/-- For a peer that keeps coming, the verdict tells about its sessions. -/
theorem Watched.verdict_ok_iff
    (h : Watched maxConnections maxFails maxAge peer happenings world)
    (hregular : Regular maxAge peer (happenings ++ [.accept peer stream clock network])) :
    world.shared.connectVerdict peer clock = .ok ↔
      failedSessions peer world ≤ maxFails.toNat ∧
        openConnections peer world < maxConnections.toNat := by
  obtain ⟨hconnections, hfails⟩ := h.touched hregular
  obtain ⟨first, second⟩ := clock
  cases hregular.reading
  have hlimits := h.limits_eq
  simp only [Fail2Ban.limits, Prod.mk.injEq] at hlimits
  rw [PeerCall.connectVerdict_eq, verdictOn_ok_iff, hconnections, hfails, hlimits.1, hlimits.2.1]
  exact Iff.rfl

variable [Lowercase] [Argon2] [MsGraph.HttpClient N] [Base64]

/-- Only a visit of the peer makes it have more sessions. -/
theorem servedSessions_step_le {happening : Happening π Readings N}
    (hvisit : connectTime peer happening = none) :
    servedSessions peer (world.step config happening) ≤ servedSessions peer world := by
  cases happening with
  | accept other stream clock network =>
      have hother : other ≠ peer := fun heq => by simp [connectTime, heq] at hvisit
      exact (congrArg Tally.serving (tally_concat_of_ne world.tasks hother)).le
  | turn i =>
      rw [World.step, World.update]
      rcases hserved : world.tasks[i]? with _ | served
      · exact Nat.le_refl _
      · exact (congrArg Tally.serving (tally_set_eq hserved turn_sees)).le
  | leave i clock =>
      rw [World.step, World.update]
      rcases hserved : world.tasks[i]? with _ | served
      · exact Nat.le_refl _
      · have hset :=
          countP_set_add (isServing peer) (Server.leave served clock world.shared).1 hserved
        have hle : (isServing peer (Server.leave served clock world.shared).1).toNat ≤
            (isServing peer served).toNat := by
          unfold Server.leave
          rcases hclosed : served.closed with _ | _
          · simp [isServing, isOpen]
          · exact Nat.le_refl _
        rw [servedSessions, servedSessions]
        dsimp only
        omega

/-- A visit of the peer adds a session, if it is accepted. -/
theorem servedSessions_visit : servedSessions peer
    (world.step config (.accept peer stream clock network)) = servedSessions peer world +
      (Server.accept config peer stream clock network world.shared).1.accepted.toNat :=
  congrArg Tally.serving (tally_concat peer world.tasks _)

end Accepting

section Runs

variable [TlsFiles] [Lowercase] [Argon2] [MsGraph.HttpClient N] [Base64] [Transport π]
variable {file : ConfigFile} {network : N} {smtpConfig : Smtp.Config (ProxyHandler N)}
variable {fail2ban : Fail2Ban} {peer : IpAddr} {happenings : List (Happening π Readings N)}

omit [Lowercase] [Argon2] [MsGraph.HttpClient N] [Base64] in
theorem handler_config_eq (hprepare : prepare file network = .ok (smtpConfig, fail2ban)) :
    smtpConfig.sessionConfig.handler.config = file := by
  rw [(prepare_ok hprepare).1]
  rfl

/-- What is decided when a peer that keeps coming connects. -/
theorem accepted_listen_iff (hprepare : prepare file network = .ok (smtpConfig, fail2ban))
    {stream : π} {clock : Readings} {network' : N}
    (hregular : Regular file.smtp.getEffectiveFail2banConfig.2.2 peer
      (happenings ++ [.accept peer stream clock network'])) :
    (Server.accept smtpConfig peer stream clock network'
        (Server.listen smtpConfig fail2ban happenings).shared).1.accepted = true ↔
      file.smtp.peerFilter.evaluate peer = .allow ∧
        failedSessions peer (Server.listen smtpConfig fail2ban happenings) ≤
          file.smtp.getEffectiveFail2banConfig.2.1.toNat ∧
        openConnections peer (Server.listen smtpConfig fail2ban happenings) <
          file.smtp.getEffectiveFail2banConfig.1.toNat := by
  have hwatched := Watched.of_listen hprepare hregular.left
  rw [accepted_iff (handler_config_eq hprepare), hwatched.verdict_ok_iff hregular]
  exact and_comm

theorem servedSessions_listen_le (hprepare : prepare file network = .ok (smtpConfig, fail2ban))
    (hregular : Regular file.smtp.getEffectiveFail2banConfig.2.2 peer happenings) :
    servedSessions peer (Server.listen smtpConfig fail2ban happenings) ≤
      file.smtp.getEffectiveFail2banConfig.1.toNat := by
  induction happenings using List.reverseRecOn with
  | nil => exact Nat.zero_le _
  | append_singleton happenings happening ih =>
      have hbefore := ih hregular.left
      rw [Server.listen_concat]
      cases hvisit : connectTime peer happening with
      | none => exact (servedSessions_step_le hvisit).trans hbefore
      | some now =>
          cases happening with
          | accept other stream clock network' =>
              obtain ⟨rfl, -⟩ := Option.ite_none_right_eq_some.mp hvisit
              rw [servedSessions_visit]
              cases haccepted : (Server.accept smtpConfig other stream clock network'
                  (Server.listen smtpConfig fail2ban happenings).shared).1.accepted with
              | false => exact hbefore
              | true =>
                  -- the sessions of the peer are among its open connections
                  obtain ⟨-, -, hroom⟩ := (accepted_listen_iff hprepare hregular).mp haccepted
                  have hopen := (tally_serving_le other
                    (Server.listen smtpConfig fail2ban happenings).tasks).1
                  exact Nat.succ_le_of_lt (Nat.lt_of_le_of_lt hopen hroom)
          | turn i => cases hvisit
          | leave i clock => cases hvisit

/-- For every configuration, every peer that keeps coming, and every run of fewer than 2^32
callbacks in which each of them reads the clock once: a connection of the peer is accepted
exactly if the filter allows it, not more of its sessions have failed than the limit, and
its open connections leave room. So it never has more sessions at a time than the limit on
connections. -/
theorem admission_exact (file : ConfigFile) (network : N)
    (happenings : List (Happening π Readings N)) (world : World π (ProxyHandler N) Fail2Ban)
    (hrun : run file network happenings = .ok world) (peer : IpAddr)
    (hregular : Regular file.smtp.getEffectiveFail2banConfig.2.2 peer happenings) :
    (∀ before stream clock network' after,
      happenings = before ++ .accept peer stream clock network' :: after →
      ∀ earlier later, run file network before = .ok earlier →
        run file network (before ++ [.accept peer stream clock network']) = .ok later →
        ∀ served ∈ later.tasks.getLast?, served.task.accepted = true ↔
          file.smtp.peerFilter.evaluate peer = .allow ∧
            failedSessions peer earlier ≤ file.smtp.getEffectiveFail2banConfig.2.1.toNat ∧
            openConnections peer earlier < file.smtp.getEffectiveFail2banConfig.1.toNat) ∧
      servedSessions peer world ≤ file.smtp.getEffectiveFail2banConfig.1.toNat := by
  obtain ⟨smtpConfig, fail2ban, hprepare, rfl⟩ := run_ok hrun
  refine ⟨?_, servedSessions_listen_le hprepare hregular⟩
  intro before stream clock network' after hsplit earlier later hbefore hlater served hserved
  subst hsplit
  rw [run_of_prepare hprepare, Except.ok.injEq] at hbefore hlater
  subst hbefore hlater
  rw [Server.listen_concat] at hserved
  simp only [World.step, List.getLast?_concat, Option.mem_def, Option.some_inj] at hserved
  subst hserved
  rw [List.append_cons] at hregular
  exact accepted_listen_iff hprepare hregular.left

omit [TlsFiles] in
/-- Turns neither accept what was refused nor change whose the task is. -/
theorem follow_accepted (i : Nat) (rest : List (Happening π Readings N))
    (served : Served π (ProxyHandler N)) :
    (served.follow i rest).task.accepted = served.task.accepted ∧
      (served.follow i rest).peer = served.peer := by
  unfold Served.follow
  split
  next => exact ⟨rfl, rfl⟩
  next => cases served.task <;> exact ⟨rfl, rfl⟩

/-- For every configuration and every run: whoever has a session is allowed by the filter,
and whoever has none is neither heard nor answered. -/
theorem sessions_of_allowed (file : ConfigFile) (network : N)
    (happenings : List (Happening π Readings N)) (world : World π (ProxyHandler N) Fail2Ban)
    (hrun : run file network happenings = .ok world) :
    ∀ served ∈ world.tasks,
      (served.task.accepted = true → file.smtp.peerFilter.evaluate served.peer = .allow) ∧
      (served.task.accepted = false →
        served.task.log = [] ∧ served.task.config.handler.history = []) := by
  obtain ⟨smtpConfig, fail2ban, hprepare, rfl⟩ := run_ok hrun
  intro served hserved
  constructor
  · intro haccepted
    obtain ⟨before, peer, stream, clock, network', after, -, rfl⟩ :=
      Server.exists_accept_of_mem hserved
    rw [(follow_accepted _ _ _).1, accepted_iff (handler_config_eq hprepare)] at haccepted
    rw [(follow_accepted _ _ _).2]
    exact haccepted.2
  · intro hrefused
    refine ⟨?_, (run_settled hrun served hserved).refused hrefused⟩
    cases htask : served.task with
    | refused config => rfl
    | serving flow =>
        rw [htask] at hrefused
        cases hrefused

end Runs

open Sample in
theorem admission_exact_sample : ∃ world,
    run strictFile () (guessing ++ [knock (.v4 2) 2] ++ [knock (.v4 1) 3]) = .ok world ∧
      (∀ served ∈ world.tasks.getLast?, served.task.accepted = false) ∧
      servedSessions (.v4 1) world ≤ 1 := by
  obtain ⟨hdecides, hserved⟩ := admission_exact strictFile () _ _ rfl (.v4 1) regular_guessing
  refine ⟨_, rfl, ?_, hserved⟩
  intro served hlast
  by_contra haccepted
  rw [Bool.not_eq_false] at haccepted
  -- the one session before was unproductive
  obtain ⟨-, hfew, -⟩ :=
    (hdecides (guessing ++ [knock (.v4 2) 2]) _ _ _ [] rfl _ _ rfl rfl served hlast).mp haccepted
  exact absurd hfew (by decide +kernel)

end PostGraph.MailProxy
