import Mathlib.Data.List.Chain
import PostGraph.MailProxy.Expiry
import PostGraph.MailProxy.LoginState
import PostGraph.MailProxy.Productivity

/-! # The bound on brute force

While a peer keeps coming, its record counts its open connections and its failed
sessions. A session is accepted only within both limits, so accepted sessions
that fail are bounded by the sum of the limits.
-/

namespace PostGraph.MailProxy

open Foundation Smtp

variable {π N : Type}

/-! ## The sessions of a peer in numbers -/

/-- The connection is open. -/
def isOpen (peer : IpAddr) (served : Served π (ProxyHandler N)) : Bool :=
  served.peer = peer && !served.closed

/-- The connection is open, and the session was accepted. -/
def isServing (peer : IpAddr) (served : Served π (ProxyHandler N)) : Bool :=
  isOpen peer served && served.task.accepted

/-- The session has ended, and it was refused or unproductive. -/
def isFailed (peer : IpAddr) (served : Served π (ProxyHandler N)) : Bool :=
  served.peer = peer && served.closed &&
    (!served.task.accepted || unproductive served.task.config.handler.history)

/-- The session has ended, and it was accepted but unproductive. -/
def isFailedServing (peer : IpAddr) (served : Served π (ProxyHandler N)) : Bool :=
  isFailed peer served && served.task.accepted

/-- Sessions of the peer, refused or unproductive, that have disconnected. -/
def failedSessions (peer : IpAddr) (world : World π (ProxyHandler N) Fail2Ban) : Nat :=
  world.tasks.countP (isFailed peer)

/-- Accepted sessions of the peer that are unproductive, whether open or not. -/
def unproductiveSessions (peer : IpAddr) (world : World π (ProxyHandler N) Fail2Ban) : Nat :=
  world.tasks.countP fun served => served.peer = peer && served.task.accepted &&
    unproductive served.task.config.handler.history

/-- Wrong passwords that the peer has tried. -/
def wrongPasswords (peer : IpAddr) (world : World π (ProxyHandler N) Fail2Ban) : Nat :=
  rejections ((world.tasks.filter (·.peer = peer)).flatMap
    fun served => served.task.config.handler.history)

/-- What the sessions of one peer come to. -/
structure Tally where
  opened : Nat
  serving : Nat
  failed : Nat
  failedServing : Nat

/-- The tally of a list of tasks. -/
def tally (peer : IpAddr) (tasks : List (Served π (ProxyHandler N))) : Tally where
  opened := tasks.countP (isOpen peer)
  serving := tasks.countP (isServing peer)
  failed := tasks.countP (isFailed peer)
  failedServing := tasks.countP (isFailedServing peer)

theorem tally_serving_le (peer : IpAddr) (tasks : List (Served π (ProxyHandler N))) :
    (tally peer tasks).serving ≤ (tally peer tasks).opened ∧
      (tally peer tasks).failedServing ≤ (tally peer tasks).failed := by
  constructor
  · apply List.countP_mono_left
    intro served _ hserving
    exact (Bool.and_eq_true_iff.mp hserving).1
  · apply List.countP_mono_left
    intro served _ hfailed
    exact (Bool.and_eq_true_iff.mp hfailed).1

/-- A new task of the peer. -/
theorem tally_concat (peer : IpAddr) (tasks : List (Served π (ProxyHandler N)))
    (task : Task π (ProxyHandler N)) :
    tally peer (tasks ++ [⟨peer, task, false⟩]) =
      { tally peer tasks with
        opened := (tally peer tasks).opened + 1
        serving := (tally peer tasks).serving + task.accepted.toNat } := by
  cases haccepted : task.accepted <;>
    simp [tally, isOpen, isServing, isFailed, isFailedServing, haccepted]

/-- A new task of another peer. -/
theorem tally_concat_of_ne {peer : IpAddr} (tasks : List (Served π (ProxyHandler N)))
    {served : Served π (ProxyHandler N)} (hpeer : served.peer ≠ peer) :
    tally peer (tasks ++ [served]) = tally peer tasks := by
  simp [tally, isOpen, isServing, isFailed, isFailedServing, hpeer]

/-- One task of a list is replaced. -/
theorem countP_set_add {α : Type} (p : α → Bool) {tasks : List α} {i : Nat} {old : α} (new : α)
    (hold : tasks[i]? = some old) :
    (tasks.set i new).countP p + (p old).toNat = tasks.countP p + (p new).toNat := by
  obtain ⟨hlength, rfl⟩ := List.getElem?_eq_some_iff.mp hold
  have hle : (if p tasks[i] then 1 else 0) ≤ tasks.countP p :=
    List.boole_getElem_le_countP hlength
  have hadd : ∀ (b c : Bool) (n : Nat), (if b then 1 else 0) ≤ n →
      n - (if b then 1 else 0) + (if c then 1 else 0) + b.toNat = n + c.toNat := by
    intro b c n hn
    cases b <;> cases c <;> simp at hn ⊢
    all_goals omega
  rw [List.countP_set hlength]
  exact hadd _ _ _ hle

/-- A task changes in a way that the tally does not see. -/
theorem tally_set_eq {peer : IpAddr} {tasks : List (Served π (ProxyHandler N))} {i : Nat}
    {old new : Served π (ProxyHandler N)} (hold : tasks[i]? = some old)
    (hnew : isOpen peer new = isOpen peer old ∧ isServing peer new = isServing peer old ∧
      isFailed peer new = isFailed peer old ∧ isFailedServing peer new = isFailedServing peer old) :
    tally peer (tasks.set i new) = tally peer tasks := by
  obtain ⟨hopen, hserving, hfailed, hfailedServing⟩ := hnew
  have hcount : ∀ p : Served π (ProxyHandler N) → Bool, p new = p old →
      (tasks.set i new).countP p = tasks.countP p := by
    intro p hp
    have hadd := countP_set_add p new hold
    rw [hp] at hadd
    exact Nat.add_right_cancel hadd
  rw [tally, hcount _ hopen, hcount _ hserving, hcount _ hfailed, hcount _ hfailedServing]
  rfl

/-- An open task ends. -/
theorem tally_close {peer : IpAddr} {tasks : List (Served π (ProxyHandler N))} {i : Nat}
    {served : Served π (ProxyHandler N)} (hserved : tasks[i]? = some served)
    (hpeer : served.peer = peer) (hopen : served.closed = false) :
    let before := tally peer tasks
    let after := tally peer (tasks.set i { served with closed := true })
    let failed := !served.task.accepted || unproductive served.task.config.handler.history
    after.opened + 1 = before.opened ∧
      after.serving + served.task.accepted.toNat = before.serving ∧
      after.failed = before.failed + failed.toNat ∧
      after.failedServing = before.failedServing + (failed && served.task.accepted).toNat := by
  subst hpeer
  have hcount : ∀ p : Served π (ProxyHandler N) → Bool,
      (tasks.set i { served with closed := true }).countP p + (p served).toNat =
        tasks.countP p + (p { served with closed := true }).toNat :=
    fun p => countP_set_add p _ hserved
  have hopened := hcount (isOpen served.peer)
  have hserving := hcount (isServing served.peer)
  have hfailed := hcount (isFailed served.peer)
  have hfailedServing := hcount (isFailedServing served.peer)
  simp only [isOpen, isServing, isFailed, isFailedServing, hopen, decide_true,
    Bool.not_false, Bool.not_true, Bool.and_true, Bool.true_and, Bool.and_false, Bool.false_and,
    Bool.toNat_true, Bool.toNat_false, Nat.add_zero] at hopened hserving hfailed hfailedServing
  exact ⟨hopened, hserving, hfailed, hfailedServing⟩

/-! ## Peers that keep coming -/

/-- When the happening reads the clock first. -/
def time (happening : Happening π Readings N) : Option Instant :=
  happening.clock.map Readings.first

/-- When the peer connects. -/
def connectTime (peer : IpAddr) : Happening π Readings N → Option Instant
  | .accept other _ clock _ => if other = peer then some clock.first else none
  | .turn _ => none
  | .leave _ _ => none

/-- Connecting reads the clock. -/
theorem mem_times {peer : IpAddr} {happenings : List (Happening π Readings N)} {now : Instant}
    (h : now ∈ happenings.filterMap (connectTime peer)) : now ∈ happenings.filterMap time := by
  obtain ⟨happening, hmem, hvisit⟩ := List.mem_filterMap.mp h
  refine List.mem_filterMap.mpr ⟨happening, hmem, ?_⟩
  cases happening with
  | accept other stream clock network =>
      exact (Option.ite_none_right_eq_some.mp hvisit).2
  | turn i => cases hvisit
  | leave i clock => cases hvisit

/-- Each callback reads the clock once, the clock is monotone, the peer connects again
and again within the given time, and the callbacks are fewer than a counter can count. -/
structure Regular (maxAge : Duration) (peer : IpAddr)
    (happenings : List (Happening π Readings N)) : Prop where
  oneReading : ∀ happening ∈ happenings, ∀ clock ∈ happening.clock, clock.first = clock.second
  monotone : (happenings.filterMap time).Pairwise (· ≤ ·)
  active : (happenings.filterMap (connectTime peer)).IsChain
    fun earlier later => later ≤ earlier + maxAge
  bounded : (happenings.filterMap time).length < 2 ^ 32

variable {maxAge : Duration} {peer : IpAddr} {happenings : List (Happening π Readings N)}
variable {happening : Happening π Readings N}

theorem Regular.left {more : List (Happening π Readings N)}
    (h : Regular maxAge peer (happenings ++ more)) : Regular maxAge peer happenings where
  oneReading other hother := h.oneReading other (List.mem_append_left _ hother)
  monotone := by
    have hmonotone := h.monotone
    rw [List.filterMap_append] at hmonotone
    exact (List.pairwise_append.mp hmonotone).1
  active := by
    have hactive := h.active
    rw [List.filterMap_append] at hactive
    exact hactive.left_of_append
  bounded := by
    have hbounded := h.bounded
    rw [List.filterMap_append, List.length_append] at hbounded
    exact Nat.lt_of_le_of_lt (Nat.le_add_right _ _) hbounded

theorem Regular.reading {other : IpAddr} {stream : π} {clock : Readings} {network : N}
    (h : Regular maxAge peer (happenings ++ [.accept other stream clock network])) :
    clock.first = clock.second :=
  h.oneReading (.accept other stream clock network) (by simp) clock rfl

/-- Earlier callbacks do not come later. -/
theorem Regular.le_of_mem (h : Regular maxAge peer (happenings ++ [happening])) {now : Instant}
    (hnow : time happening = some now) : ∀ earlier ∈ happenings.filterMap time, earlier ≤ now := by
  have hmonotone := h.monotone
  rw [List.filterMap_append] at hmonotone
  intro earlier hearlier
  exact (List.pairwise_append.mp hmonotone).2.2 earlier hearlier now (by simp [hnow])

/-- A peer that connects has connected within the given time, if ever. -/
theorem Regular.soon (h : Regular maxAge peer (happenings ++ [happening])) {now last : Instant}
    (hnow : connectTime peer happening = some now)
    (hlast : (happenings.filterMap (connectTime peer)).getLast? = some last) :
    now ≤ last + maxAge := by
  have hactive := h.active
  rw [List.filterMap_append] at hactive
  exact (List.isChain_append.mp hactive).2.2 last hlast now (by simp [hnow])

/-! ## The store and the tally -/

/-- What the store knows of a peer: nothing yet, all its open connections and
failed sessions, or nothing to rely on after it stayed away for too long. -/
inductive Status (maxAge : Duration) (peer : IpAddr) (happenings : List (Happening π Readings N))
    (tally : Tally) (record : Option PeerInfo) : Prop
  | unseen (hlast : (happenings.filterMap (connectTime peer)).getLast? = none)
      (hrecord : record = none) (hopened : tally.opened = 0) (hfailed : tally.failed = 0)
  | tracked (info : PeerInfo) (last : Instant)
      (hlast : (happenings.filterMap (connectTime peer)).getLast? = some last)
      (hrecord : record = some info) (hconnections : info.connections.toNat = tally.opened)
      (hfails : info.fails.toNat = tally.failed) (htime : last ≤ info.time)
  | lapsed (last now : Instant)
      (hlast : (happenings.filterMap (connectTime peer)).getLast? = some last)
      (hnow : now ∈ happenings.filterMap time) (hage : last + maxAge < now)

/-- The record of a peer counts its sessions, and few of those that were accepted
have failed or may fail. -/
structure Watched (maxConnections maxFails : UInt32) (maxAge : Duration) (peer : IpAddr)
    (happenings : List (Happening π Readings N)) (world : World π (ProxyHandler N) Fail2Ban) :
    Prop where
  status : Status maxAge peer happenings (tally peer world.tasks) (world.shared.peers peer)
  bound : (tally peer world.tasks).serving + (tally peer world.tasks).failedServing ≤
    maxFails.toNat + maxConnections.toNat
  length_le : world.tasks.length ≤ (happenings.filterMap time).length
  limits_eq : world.shared.limits = (maxConnections, maxFails, maxAge)

theorem Watched.of_new (maxConnections maxFails : UInt32) (maxAge : Duration) (peer : IpAddr) :
    Watched maxConnections maxFails maxAge peer ([] : List (Happening π Readings N))
      ⟨.new maxConnections maxFails maxAge, []⟩ where
  status := .unseen rfl rfl rfl rfl
  bound := Nat.zero_le _
  length_le := Nat.le_refl _
  limits_eq := rfl

/-- Happenings that are no visit of the peer and leave its record as it is. -/
theorem Status.append {tally : Tally} {record : Option PeerInfo}
    (h : Status maxAge peer happenings tally record) (hvisit : connectTime peer happening = none) :
    Status maxAge peer (happenings ++ [happening]) tally record := by
  have hconnects : (happenings ++ [happening]).filterMap (connectTime peer) =
      happenings.filterMap (connectTime peer) := by
    simp [hvisit]
  cases h with
  | unseen hlast hrecord hopened hfailed =>
      exact .unseen (by rw [hconnects, hlast]) hrecord hopened hfailed
  | tracked info last hlast hrecord hconnections hfails htime =>
      exact .tracked info last (by rw [hconnects, hlast]) hrecord hconnections hfails htime
  | lapsed last now hlast hnow hage =>
      refine .lapsed last now (by rw [hconnects, hlast]) ?_ hage
      rw [List.filterMap_append]
      exact List.mem_append_left _ hnow

/-- A peer that connects again finds its sessions counted. -/
theorem Status.touched {tally : Tally} {record : Option PeerInfo} {now : Instant}
    (h : Status maxAge peer happenings tally record)
    (hregular : Regular maxAge peer (happenings ++ [happening]))
    (hvisit : connectTime peer happening = some now) (hnow : time happening = some now)
    (hroom : tally.opened + 1 < 2 ^ 32) :
    (PeerInfo.touched record now).connections.toNat = tally.opened + 1 ∧
      (PeerInfo.touched record now).fails.toNat = tally.failed := by
  cases h with
  | unseen hlast hrecord hopened hfailed =>
      rw [hrecord, hopened, hfailed]
      exact ⟨rfl, rfl⟩
  | tracked info last hlast hrecord hconnections hfails htime =>
      rw [hrecord, ← hfails, ← hconnections]
      refine ⟨?_, rfl⟩
      rw [PeerInfo.touched, UInt32.toNat_add, UInt32.toNat_one]
      exact Nat.mod_eq_of_lt (hconnections ▸ hroom)
  | lapsed last later hlast hlater hage =>
      -- It has stayed away for longer than it may.
      have hsoon := hregular.soon hvisit hlast
      have hle := hregular.le_of_mem hnow later hlater
      exact absurd (Nat.lt_of_lt_of_le hage (Nat.le_trans hle hsoon)) (Nat.lt_irrefl _)

/-- A sweep may forget the peer, if it has stayed away for too long. -/
theorem Status.sweep {tally : Tally} {record : Option PeerInfo} {now : Instant}
    (h : Status maxAge peer happenings tally record) (hnow : now ∈ happenings.filterMap time) :
    Status maxAge peer happenings tally (record.filter (·.isRecent maxAge now)) := by
  cases h with
  | unseen hlast hrecord hopened hfailed =>
      exact .unseen hlast (by rw [hrecord, Option.filter_none]) hopened hfailed
  | tracked info last hlast hrecord hconnections hfails htime =>
      rw [hrecord, Option.filter_some]
      split
      next => exact .tracked info last hlast rfl hconnections hfails htime
      next hold =>
        refine .lapsed last now hlast hnow ?_
        rw [PeerInfo.isRecent, decide_eq_true_eq, Instant.elapsed_le_iff, Nat.not_le] at hold
        exact Nat.lt_of_le_of_lt (Nat.add_le_add_right htime maxAge) hold
  | lapsed last later hlast hlater hage => exact .lapsed last later hlast hlater hage

/-- A session of the peer ends. -/
theorem Status.released {before after : Tally} {record : Option PeerInfo} {i : Nat}
    {clock : Readings} (h : Status maxAge peer happenings before record)
    (hregular : Regular maxAge peer (happenings ++ [.leave i clock])) {productive : Bool}
    (hopened : after.opened + 1 = before.opened)
    (hfailed : after.failed = before.failed + (!productive).toNat)
    (hroom : after.failed < 2 ^ 32) :
    Status maxAge peer (happenings ++ [.leave i clock]) after
      (record.map (.released productive clock.first)) := by
  have hleft : Status maxAge peer (happenings ++ [.leave i clock]) before record := h.append rfl
  cases hleft with
  | unseen hlast hrecord hnone =>
      rw [hnone] at hopened
      cases hopened
  | tracked info last hlast hrecord hconnections hfails htime =>
      refine .tracked (info.released productive clock.first) last hlast ?_ ?_ ?_ ?_
      · rw [hrecord, Option.map_some]
      · have hpos : info.connections.toNat ≠ 0 := by
          rw [hconnections, ← hopened]
          exact Nat.succ_ne_zero _
        rw [PeerCall.released_connections hpos, hconnections, ← hopened, Nat.add_sub_cancel]
      · cases productive with
        | true => exact hfails.trans hfailed.symm
        | false =>
            rw [hfailed] at hroom ⊢
            rw [PeerInfo.released, if_neg Bool.false_ne_true, UInt32.toNat_add, hfails]
            exact Nat.mod_eq_of_lt hroom
      · cases productive with
        | true => exact htime
        | false =>
            have hmem := mem_times (List.mem_of_getLast? hlast)
            rw [List.filterMap_append] at hmem
            rcases List.mem_append.mp hmem with hmem | hmem
            · exact hregular.le_of_mem rfl last hmem
            · exact (List.mem_singleton.mp hmem).le
  | lapsed last now hlast hnow hage => exact .lapsed last now hlast hnow hage

variable {maxConnections maxFails : UInt32} {world : World π (ProxyHandler N) Fail2Ban}

/-- There are fewer open connections than callbacks. -/
theorem Watched.touched (h : Watched maxConnections maxFails maxAge peer happenings world)
    {stream : π} {clock : Readings} {network : N}
    (hregular : Regular maxAge peer (happenings ++ [.accept peer stream clock network])) :
    (PeerInfo.touched (world.shared.peers peer) clock.first).connections.toNat =
        (tally peer world.tasks).opened + 1 ∧
      (PeerInfo.touched (world.shared.peers peer) clock.first).fails.toNat =
        (tally peer world.tasks).failed := by
  apply h.status.touched hregular (if_pos rfl) rfl
  have hbounded := hregular.bounded
  rw [List.filterMap_append, List.length_append] at hbounded
  have hopened : (tally peer world.tasks).opened ≤ world.tasks.length := List.countP_le_length
  exact Nat.lt_of_le_of_lt (Nat.succ_le_succ (hopened.trans h.length_le)) hbounded

/-- A task changes in a way that neither the store nor the tally sees. -/
theorem Watched.quiet (h : Watched maxConnections maxFails maxAge peer happenings world)
    (hvisit : connectTime peer happening = none) {world' : World π (ProxyHandler N) Fail2Ban}
    (hrecord : world'.shared.peers peer = world.shared.peers peer)
    (hlimits : world'.shared.limits = world.shared.limits)
    (htally : tally peer world'.tasks = tally peer world.tasks)
    (hlength : world'.tasks.length = world.tasks.length) :
    Watched maxConnections maxFails maxAge peer (happenings ++ [happening]) world' where
  status := by
    rw [htally, hrecord]
    exact h.status.append hvisit
  bound := by
    rw [htally]
    exact h.bound
  length_le := by
    rw [hlength, List.filterMap_append, List.length_append]
    exact Nat.le_add_right_of_le h.length_le
  limits_eq := hlimits.trans h.limits_eq

section Steps

variable [Transport π] {config : Smtp.Config (ProxyHandler N)}

/-- A session is accepted only within both limits. -/
theorem accept_within {stream : π} {clock : Readings}
    {network : N} {shared : Fail2Ban} (hlimits : shared.limits = (maxConnections, maxFails, maxAge))
    (hread : clock.first = clock.second)
    (h : (Server.accept config peer stream clock network shared).1.accepted = true) :
    (PeerInfo.touched (shared.peers peer) clock.first).fails.toNat ≤ maxFails.toNat ∧
      (PeerInfo.touched (shared.peers peer) clock.first).connections.toNat ≤
        maxConnections.toNat := by
  obtain ⟨now, _⟩ := clock
  cases hread
  have hverdict := onConnect_ok (Server.accept_accepted h)
  simp only [Fail2Ban.limits, Prod.mk.injEq] at hlimits
  rw [PeerCall.connectVerdict_eq] at hverdict
  dsimp only
  generalize PeerInfo.touched (shared.peers peer) now = info at hverdict ⊢
  obtain ⟨connections, fails, since⟩ := info
  rw [PeerCall.verdictOn_some, hlimits.1, hlimits.2.1] at hverdict
  split at hverdict
  next => cases hverdict
  next hfails =>
    split at hverdict
    next => cases hverdict
    next hconnections =>
      exact ⟨UInt32.le_iff_toNat_le.mp (UInt32.not_lt.mp hfails),
        UInt32.le_iff_toNat_le.mp (UInt32.not_lt.mp hconnections)⟩

/-- When a session of the peer is accepted, few others are open or have failed. -/
theorem Watched.within (h : Watched maxConnections maxFails maxAge peer happenings world)
    {stream : π} {clock : Readings} {network : N}
    (hregular : Regular maxAge peer (happenings ++ [.accept peer stream clock network]))
    (haccepted :
      (Server.accept config peer stream clock network world.shared).1.accepted = true) :
    (tally peer world.tasks).failed ≤ maxFails.toNat ∧
      (tally peer world.tasks).opened + 1 ≤ maxConnections.toNat := by
  obtain ⟨hconnections, hfails⟩ := h.touched hregular
  rw [← hconnections, ← hfails]
  exact accept_within h.limits_eq hregular.reading haccepted

variable [Lowercase] [Argon2] [MsGraph.HttpClient N] [Base64]

/-- The callback on connecting runs when a peer connects. -/
theorem step_accept_shared (other : IpAddr) (stream : π) (clock : Readings) (network : N) :
    (world.step config (.accept other stream clock network)).shared =
      (PeerCall.connect other clock
        (PeerHandler.clone network config.sessionConfig.handler)).run world.shared :=
  Server.accept_shared config other stream clock network world.shared

/-- When a peer connects, what has to be shown is about the record and the tally. -/
theorem Watched.accept (h : Watched maxConnections maxFails maxAge peer happenings world)
    {other : IpAddr} {stream : π} {clock : Readings} {network : N} {record : Option PeerInfo}
    {after : Tally}
    (hrecord : (world.step config (.accept other stream clock network)).shared.peers peer = record)
    (htally : tally peer (world.step config (.accept other stream clock network)).tasks = after)
    (hstatus : Status maxAge peer (happenings ++ [.accept other stream clock network]) after record)
    (hbound : after.serving + after.failedServing ≤ maxFails.toNat + maxConnections.toNat) :
    Watched maxConnections maxFails maxAge peer (happenings ++ [.accept other stream clock network])
      (world.step config (.accept other stream clock network)) where
  status := by
    rw [hrecord, htally]
    exact hstatus
  bound := by
    rw [htally]
    exact hbound
  length_le := by
    rw [List.filterMap_append, List.length_append]
    simp only [World.step, List.length_append, List.length_singleton]
    exact Nat.succ_le_succ h.length_le
  limits_eq := by
    rw [step_accept_shared, PeerCall.run_limits]
    exact h.limits_eq

/-- The peer itself connects. -/
theorem Watched.visit (h : Watched maxConnections maxFails maxAge peer happenings world)
    {stream : π} {clock : Readings} {network : N}
    (hregular : Regular maxAge peer (happenings ++ [.accept peer stream clock network])) :
    Watched maxConnections maxFails maxAge peer (happenings ++ [.accept peer stream clock network])
      (world.step config (.accept peer stream clock network)) := by
  obtain ⟨hconnections, hfails⟩ := h.touched hregular
  have hrecord : (world.step config (.accept peer stream clock network)).shared.peers peer =
      some (.touched (world.shared.peers peer) clock.first) := by
    rw [step_accept_shared, PeerCall.run_connect_peers, if_pos rfl, Option.filter_some, if_pos]
    simp [PeerInfo.isRecent, PeerInfo.touched_time, hregular.reading]
  apply h.accept hrecord (tally_concat peer world.tasks
    (Server.accept config peer stream clock network world.shared).1)
  · refine .tracked _ clock.first ?_ rfl hconnections hfails ?_
    · simp [connectTime]
    · rw [PeerInfo.touched_time]
  · have hbound := h.bound
    obtain ⟨hserving, hfailed⟩ := tally_serving_le peer world.tasks
    cases haccepted :
        (Server.accept config peer stream clock network world.shared).1.accepted with
    | false => exact hbound
    | true =>
      -- One more session is served, but then both limits have room for it.
      obtain ⟨hfew, hroom⟩ := h.within hregular haccepted
      simp only [Bool.toNat_true]
      omega

/-- Another peer connects. It may make the store forget the peer. -/
theorem Watched.otherVisit (h : Watched maxConnections maxFails maxAge peer happenings world)
    {other : IpAddr} (hother : other ≠ peer) {stream : π} {clock : Readings} {network : N}
    (hregular : Regular maxAge peer (happenings ++ [.accept other stream clock network])) :
    Watched maxConnections maxFails maxAge peer (happenings ++ [.accept other stream clock network])
      (world.step config (.accept other stream clock network)) := by
  have hage : world.shared.maxAge = maxAge := congrArg (·.2.2) h.limits_eq
  have hvisit : connectTime peer (.accept other stream clock network : Happening π Readings N) =
      none := if_neg hother
  have hrecord : (world.step config (.accept other stream clock network)).shared.peers peer =
      (world.shared.peers peer).filter (·.isRecent maxAge clock.second) := by
    rw [step_accept_shared, PeerCall.run_connect_peers, if_neg (Ne.symm hother), hage]
  refine h.accept hrecord (tally_concat_of_ne world.tasks hother) ?_ h.bound
  apply (h.status.append hvisit).sweep
  rw [← hregular.reading]
  simp [time, Happening.clock]

theorem turn_sees {served : Served π (ProxyHandler N)} :
    isOpen peer served.turn = isOpen peer served ∧
      isServing peer served.turn = isServing peer served ∧
      isFailed peer served.turn = isFailed peer served ∧
      isFailedServing peer served.turn = isFailedServing peer served := by
  have haccepted : served.task.turn.accepted = served.task.accepted := by
    cases served.task <;> rfl
  unfold Served.turn
  split
  next => exact ⟨rfl, rfl, rfl, rfl⟩
  next hclosed =>
    simp [isOpen, isServing, isFailed, isFailedServing, haccepted, hclosed]

theorem Watched.turn (h : Watched maxConnections maxFails maxAge peer happenings world) (i : Nat) :
    Watched maxConnections maxFails maxAge peer (happenings ++ [.turn i])
      (world.step config (.turn i)) := by
  rw [World.step, World.update]
  rcases hserved : world.tasks[i]? with _ | served
  · exact h.quiet rfl rfl rfl rfl rfl
  · exact h.quiet rfl rfl rfl (tally_set_eq hserved turn_sees) List.length_set

/-- The callback on disconnecting runs when an open session ends. -/
theorem step_leave {i : Nat} {clock : Readings} {served : Served π (ProxyHandler N)}
    (hserved : world.tasks[i]? = some served) (hopen : served.closed = false) :
    world.step config (.leave i clock) =
      ⟨(PeerCall.disconnect served.peer clock served.task.config.handler).run world.shared,
        world.tasks.set i { served with closed := true }⟩ := by
  rw [World.step, World.update, hserved]
  simp only [Server.leave, hopen]
  rfl

/-- A session of the peer ends. -/
theorem Watched.ownLeave (h : Watched maxConnections maxFails maxAge peer happenings world)
    (hsettled : world.Forall TaskSettled) {i : Nat} {clock : Readings}
    (hregular : Regular maxAge peer (happenings ++ [.leave i clock]))
    {served : Served π (ProxyHandler N)} (hserved : world.tasks[i]? = some served)
    (hopen : served.closed = false) (hpeer : served.peer = peer) :
    Watched maxConnections maxFails maxAge peer (happenings ++ [.leave i clock])
      (world.step config (.leave i clock)) := by
  subst hpeer
  have htask := hsettled served (List.mem_of_getElem? hserved)
  obtain ⟨hopened, hserving, hfailed, hfailedServing⟩ := tally_close hserved rfl hopen
  rw [htask.not_productive] at hfailed hfailedServing
  have hlength : (world.tasks.set i { served with closed := true }).length ≤
      (happenings.filterMap time).length := by
    rw [List.length_set]
    exact h.length_le
  rw [step_leave hserved hopen]
  constructor
  · rw [PeerCall.run_disconnect_peers, if_pos rfl]
    apply h.status.released hregular hopened hfailed
    -- Fails are counted for tasks, of which there are few.
    have hle : (tally served.peer (world.tasks.set i { served with closed := true })).failed ≤
        (world.tasks.set i { served with closed := true }).length := List.countP_le_length
    exact Nat.lt_of_le_of_lt (hle.trans hlength) hregular.left.bounded
  · have hbound := h.bound
    -- The session moves from those that are served to those that failed, if it did.
    have hle : (!served.task.config.handler.productive && served.task.accepted).toNat ≤
        served.task.accepted.toNat := Bool.toNat_le_toNat Bool.and_elim_right
    dsimp only at hserving hfailedServing ⊢
    omega
  · rw [List.filterMap_append, List.length_append]
    exact Nat.le_add_right_of_le hlength
  · exact (PeerCall.run_limits _ _).trans h.limits_eq

/-- A session ends. -/
theorem Watched.leave (h : Watched maxConnections maxFails maxAge peer happenings world)
    (hsettled : world.Forall TaskSettled) {i : Nat} {clock : Readings}
    (hregular : Regular maxAge peer (happenings ++ [.leave i clock])) :
    Watched maxConnections maxFails maxAge peer (happenings ++ [.leave i clock])
      (world.step config (.leave i clock)) := by
  rcases hserved : world.tasks[i]? with _ | served
  · rw [World.step, World.update, hserved]
    exact h.quiet rfl rfl rfl rfl rfl
  rcases hclosed : served.closed with _ | _
  · by_cases hpeer : served.peer = peer
    · exact h.ownLeave hsettled hregular hserved hclosed hpeer
    · rw [step_leave hserved hclosed]
      refine h.quiet rfl ?_ ?_ (tally_set_eq hserved ?_) List.length_set
      · rw [PeerCall.run_disconnect_peers, if_neg (Ne.symm hpeer)]
      · exact PeerCall.run_limits _ _
      · simp [isOpen, isServing, isFailed, isFailedServing, hpeer]
  · rw [World.step, World.update, hserved]
    simp only [Server.leave, hclosed]
    exact h.quiet rfl rfl rfl (tally_set_eq hserved ⟨rfl, rfl, rfl, rfl⟩) List.length_set

/-- Sessions that have failed stay failed. -/
theorem failedSessions_le_step (peer : IpAddr) (world : World π (ProxyHandler N) Fail2Ban)
    (happening : Happening π Readings N) :
    failedSessions peer world ≤ failedSessions peer (world.step config happening) := by
  cases happening with
  | accept other stream clock network =>
      rw [World.step, failedSessions, failedSessions, List.countP_append]
      exact Nat.le_add_right _ _
  | turn i =>
      rw [World.step, World.update]
      rcases hserved : world.tasks[i]? with _ | served
      · exact Nat.le_refl _
      · exact (congrArg Tally.failed (tally_set_eq hserved turn_sees)).ge
  | leave i clock =>
      rw [World.step, World.update]
      rcases hserved : world.tasks[i]? with _ | served
      · exact Nat.le_refl _
      · have hset :=
          countP_set_add (isFailed peer) (Server.leave served clock world.shared).1 hserved
        have hle : (isFailed peer served).toNat ≤
            (isFailed peer (Server.leave served clock world.shared).1).toNat := by
          unfold Server.leave
          rcases hclosed : served.closed with _ | _
          · simp [isFailed, hclosed]
          · exact Nat.le_refl _
        rw [failedSessions, failedSessions]
        dsimp only
        omega

end Steps

/-! ## Runs -/

/-- Each session of the peer that is accepted but unproductive is served or has failed. -/
theorem unproductiveSessions_le (peer : IpAddr) (world : World π (ProxyHandler N) Fail2Ban) :
    unproductiveSessions peer world ≤
      (tally peer world.tasks).serving + (tally peer world.tasks).failedServing := by
  rw [unproductiveSessions, List.countP_eq_countP_filter_add _ _ Served.closed, List.countP_filter,
    List.countP_filter, Nat.add_comm]
  refine Nat.add_le_add (List.countP_mono_left fun served _ => ?_)
    (List.countP_mono_left fun served _ => ?_)
  · simp only [isServing, isOpen, Bool.and_eq_true]
    rintro ⟨⟨⟨hpeer, haccepted⟩, _⟩, hclosed⟩
    exact ⟨⟨hpeer, hclosed⟩, haccepted⟩
  · simp only [isFailedServing, isFailed, Bool.and_eq_true, Bool.or_eq_true]
    rintro ⟨⟨⟨hpeer, haccepted⟩, hunproductive⟩, hclosed⟩
    exact ⟨⟨⟨hpeer, hclosed⟩, .inr hunproductive⟩, haccepted⟩

/-- A wrong password is tried in an unproductive session only, and only one. -/
theorem wrongPasswords_le {world : World π (ProxyHandler N) Fail2Ban}
    (hsettled : world.Forall TaskSettled) (peer : IpAddr) :
    wrongPasswords peer world ≤ unproductiveSessions peer world := by
  obtain ⟨shared, tasks⟩ := world
  rw [wrongPasswords, unproductiveSessions]
  dsimp only
  induction tasks with
  | nil => exact Nat.le_refl _
  | cons served tasks ih =>
      have htask := hsettled served List.mem_cons_self
      have htasks := ih fun other hother => hsettled other (List.mem_cons_of_mem _ hother)
      rw [List.countP_cons]
      by_cases hpeer : served.peer = peer
      · rw [List.filter_cons_of_pos (by simp [hpeer]), List.flatMap_cons,
          rejections_append, Nat.add_comm]
        apply Nat.add_le_add htasks
        have hrejections := htask.settled.rejections_le
        cases haccepted : served.task.accepted with
        | true => simpa [hpeer, haccepted] using hrejections
        | false =>
            rw [htask.refused haccepted]
            exact Nat.zero_le _
      · rw [List.filter_cons_of_neg (by simp [hpeer])]
        exact Nat.le_add_right_of_le htasks

section Runs

variable [TlsFiles] [Lowercase] [Argon2] [MsGraph.HttpClient N] [Base64] [Transport π]
variable {file : ConfigFile} {network : N} {smtpConfig : Smtp.Config (ProxyHandler N)}
variable {fail2ban : Fail2Ban}

/-- The record of a peer that keeps coming is right all the time. -/
theorem Watched.of_listen (hprepare : prepare file network = .ok (smtpConfig, fail2ban))
    {happenings : List (Happening π Readings N)}
    (hregular : Regular file.smtp.getEffectiveFail2banConfig.2.2 peer happenings) :
    Watched file.smtp.getEffectiveFail2banConfig.1 file.smtp.getEffectiveFail2banConfig.2.1
      file.smtp.getEffectiveFail2banConfig.2.2 peer happenings
      (Server.listen smtpConfig fail2ban happenings) := by
  induction happenings using List.reverseRecOn with
  | nil =>
      rw [(prepare_ok hprepare).2.2.2]
      exact .of_new _ _ _ peer
  | append_singleton happenings happening ih =>
      have hwatched := ih hregular.left
      rw [Server.listen_concat]
      cases happening with
      | accept other stream clock network' =>
          by_cases hother : other = peer
          · subst hother
            exact hwatched.visit hregular
          · exact hwatched.otherVisit hother hregular
      | turn i => exact hwatched.turn i
      | leave i clock => exact hwatched.leave (run_settled (run_of_prepare hprepare _)) hregular

omit [TlsFiles] in
theorem failedSessions_le_listen (peer : IpAddr) (before between : List (Happening π Readings N)) :
    failedSessions peer (Server.listen smtpConfig fail2ban before) ≤
      failedSessions peer (Server.listen smtpConfig fail2ban (before ++ between)) := by
  induction between using List.reverseRecOn with
  | nil => rw [List.append_nil]
  | append_singleton between happening ih =>
      rw [← List.append_assoc, Server.listen_concat]
      exact ih.trans (failedSessions_le_step peer _ happening)

/-- For every configuration that is accepted, every run of the proxy and every peer
that keeps coming: after more than the allowed number of its sessions have failed
and disconnected, each of its connections is refused. Its accepted sessions that
are unproductive, and with them the wrong passwords it tries, are no more than the
limits on fails and connections together. -/
theorem brute_force_bound (file : ConfigFile) (network : N)
    (happenings : List (Happening π Readings N)) (world : World π (ProxyHandler N) Fail2Ban)
    (hrun : run file network happenings = .ok world) (peer : IpAddr)
    (hregular : Regular file.smtp.getEffectiveFail2banConfig.2.2 peer happenings) :
    let maxConnections := file.smtp.getEffectiveFail2banConfig.1.toNat
    let maxFails := file.smtp.getEffectiveFail2banConfig.2.1.toNat
    (∀ before between stream clock network' after,
      happenings = before ++ between ++ .accept peer stream clock network' :: after →
      ∀ earlier later, run file network before = .ok earlier →
        maxFails < failedSessions peer earlier →
        run file network (before ++ between ++ [.accept peer stream clock network']) = .ok later →
        ∀ served ∈ later.tasks.getLast?, served.task.accepted = false) ∧
    unproductiveSessions peer world ≤ maxFails + maxConnections ∧
    wrongPasswords peer world ≤ maxFails + maxConnections := by
  obtain ⟨smtpConfig, fail2ban, hprepare, rfl⟩ := run_ok hrun
  have hunproductive := (unproductiveSessions_le peer _).trans
    (Watched.of_listen hprepare hregular).bound
  refine ⟨?_, hunproductive, (wrongPasswords_le (run_settled hrun) peer).trans hunproductive⟩
  intro before between stream clock network' after hsplit earlier later hbefore hmany hlater
  subst hsplit
  rw [run_of_prepare hprepare, Except.ok.injEq] at hbefore hlater
  subst hbefore hlater
  intro served hserved
  rw [Server.listen_concat] at hserved
  simp only [World.step, List.getLast?_concat, Option.mem_def, Option.some_inj] at hserved
  subst hserved
  -- The run up to this connection is regular, so the record of the peer is right.
  rw [List.append_cons] at hregular
  by_contra haccepted
  rw [Bool.not_eq_false] at haccepted
  obtain ⟨hfew, _⟩ := (Watched.of_listen hprepare hregular.left.left).within hregular.left haccepted
  have hlater : failedSessions peer (Server.listen smtpConfig fail2ban before) ≤
      failedSessions peer (Server.listen smtpConfig fail2ban (before ++ between)) :=
    failedSessions_le_listen peer before between
  exact absurd (hmany.trans_le hlater) (Nat.not_lt.mpr hfew)

end Runs

namespace Sample

/-- One connection a peer, no fails, and a user whose password is unknown. -/
def strictFile : ConfigFile where
  smtp := { (file true).smtp with
    users := ⟨Finmap.singleton "a".toList ⟨[], ∅⟩⟩
    fail2ban := some ⟨some 1, some 0, none⟩ }
  graph := ConfigFile.empty.graph

/-- Try a password and leave. -/
def guessing : List (Happening Wire Readings Unit) := loggingIn ++ [.leave 0 ⟨1, 1⟩]

/-- A connection that says nothing. -/
def knock (peer : IpAddr) (now : Instant) : Happening Wire Readings Unit :=
  .accept peer (client (ascii "QUIT\r\n") (by decide)) ⟨now, now⟩ ()

theorem regular_guessing : Regular strictFile.smtp.getEffectiveFail2banConfig.2.2 (.v4 1)
    (guessing ++ [knock (.v4 2) 2] ++ [knock (.v4 1) 3]) where
  oneReading := by simp [guessing, loggingIn, visit, knock, Happening.clock]
  monotone := by decide +kernel
  active := by decide +kernel
  bounded := by decide +kernel

end Sample

open Sample in
theorem brute_force_bound_sample : ∃ world,
    run strictFile () (guessing ++ [knock (.v4 2) 2] ++ [knock (.v4 1) 3]) = .ok world ∧
    (∀ served ∈ world.tasks.getLast?, served.task.accepted = false) ∧
    wrongPasswords (.v4 1) world ≤ 1 ∧ wrongPasswords (.v4 1) world = 1 := by
  have hbound := brute_force_bound strictFile () _ _ rfl (.v4 1) regular_guessing
  refine ⟨_, rfl, ?_, hbound.2.2, by decide +kernel⟩
  refine hbound.1 guessing _ _ _ _ [] rfl _ _ rfl ?_ rfl
  decide +kernel

end PostGraph.MailProxy
