import PostGraph.Foundation.History
import PostGraph.MailProxy.Proxy

/-! # Calls around sessions

The callbacks on connecting and disconnecting run one after the other on the
shared store, each on the handler of some session. For one peer, a call changes
its record in one of three ways: its own calls touch or release it, and every
call on connecting forgets it if it is too old.
-/

namespace PostGraph.MailProxy

open Foundation Foundation.History Smtp

/-- A callback around a session, on the handler of that session. -/
inductive PeerCall (N : Type) where
  | connect (peer : IpAddr) (clock : Readings) (handler : ProxyHandler N)
  | disconnect (peer : IpAddr) (clock : Readings) (handler : ProxyHandler N)

/-- The handler of a proxy that has not been configured. -/
def ProxyHandler.unconfigured : ProxyHandler Unit :=
  ⟨.empty, .new (ConfigFile.empty.graph.intoClientConfig ()), none, false, []⟩

namespace PeerInfo

/-- The record of a peer that connects. -/
def touched (record : Option PeerInfo) (now : Instant) : PeerInfo :=
  match record with
  | some info => { info with connections := info.connections + 1, time := now }
  | none => ⟨1, 0, now⟩

theorem touched_time (record : Option PeerInfo) (now : Instant) :
    (touched record now).time = now := by
  cases record <;> rfl

/-- The record of a peer that disconnects from a session. -/
def released (productive : Bool) (now : Instant) (info : PeerInfo) : PeerInfo :=
  if productive then { info with connections := info.connections - 1 }
  else ⟨info.connections - 1, info.fails + 1, now⟩

end PeerInfo

namespace Fail2Ban

/-- What the configuration sets; no operation changes it. -/
def limits (fail2ban : Fail2Ban) : UInt32 × UInt32 × Duration :=
  (fail2ban.maxConnections, fail2ban.maxFails, fail2ban.maxAge)

theorem pushConnection_peers (fail2ban : Fail2Ban) (peer other : IpAddr) (now : Instant) :
    (fail2ban.pushConnection peer now).peers other =
      if other = peer then some (.touched (fail2ban.peers peer) now) else fail2ban.peers other := by
  unfold pushConnection
  cases fail2ban.peers peer <;> simp [insert, Function.update_apply, PeerInfo.touched]

/-- A record that is there is replaced, and one that is not is not made. -/
theorem replace_peers (fail2ban : Fail2Ban) (peer other : IpAddr) (change : PeerInfo → PeerInfo) :
    (match fail2ban.peers peer with
      | some info => fail2ban.insert peer (change info)
      | none => fail2ban).peers other =
      if other = peer then (fail2ban.peers peer).map change else fail2ban.peers other := by
  cases hpeer : fail2ban.peers peer with
  | some info => simp [insert, Function.update_apply]
  | none =>
      by_cases hother : other = peer
      · rw [if_pos hother, hother, hpeer, Option.map_none]
      · rw [if_neg hother]

theorem popConnection_peers (fail2ban : Fail2Ban) (peer other : IpAddr) :
    (fail2ban.popConnection peer).peers other =
      if other = peer then (fail2ban.peers peer).map fun info =>
        { info with connections := info.connections - 1 }
      else fail2ban.peers other :=
  fail2ban.replace_peers peer other _

theorem pushFail_peers (fail2ban : Fail2Ban) (peer other : IpAddr) (now : Instant) :
    (fail2ban.pushFail peer now).peers other =
      if other = peer then (fail2ban.peers peer).map fun info =>
        { info with fails := info.fails + 1, time := now }
      else fail2ban.peers other :=
  fail2ban.replace_peers peer other _

theorem retainRecent_peers (fail2ban : Fail2Ban) (peer : IpAddr) (now : Instant) :
    (fail2ban.retainRecent now).peers peer =
      (fail2ban.peers peer).filter (·.isRecent fail2ban.maxAge now) := rfl

@[simp] theorem pushConnection_limits (fail2ban : Fail2Ban) (peer : IpAddr) (now : Instant) :
    (fail2ban.pushConnection peer now).limits = fail2ban.limits := by
  unfold pushConnection
  split <;> rfl

@[simp] theorem popConnection_limits (fail2ban : Fail2Ban) (peer : IpAddr) :
    (fail2ban.popConnection peer).limits = fail2ban.limits := by
  unfold popConnection
  split <;> rfl

@[simp] theorem pushFail_limits (fail2ban : Fail2Ban) (peer : IpAddr) (now : Instant) :
    (fail2ban.pushFail peer now).limits = fail2ban.limits := by
  unfold pushFail
  split <;> rfl

/-- The verdict on a peer that connects at the given readings of the clock. -/
def connectVerdict (fail2ban : Fail2Ban) (peer : IpAddr) (clock : Readings) : Verdict :=
  ((fail2ban.pushConnection peer clock.first).getVerdict peer clock.second).1

end Fail2Ban

namespace Fail2Ban

/-- The peer is judged by its record, unless that is too old by then. -/
theorem connectVerdict_eq_verdictOn (fail2ban : Fail2Ban) (peer : IpAddr) (clock : Readings) :
    fail2ban.connectVerdict peer clock = fail2ban.verdictOn
      ((some (PeerInfo.touched (fail2ban.peers peer) clock.first)).filter
        (·.isRecent fail2ban.maxAge clock.second)) := by
  have hlimits := fail2ban.pushConnection_limits peer clock.first
  simp only [limits, Prod.mk.injEq] at hlimits
  have hrecord : ((fail2ban.pushConnection peer clock.first).retainRecent clock.second).peers peer =
      (some (PeerInfo.touched (fail2ban.peers peer) clock.first)).filter
        (·.isRecent fail2ban.maxAge clock.second) := by
    rw [retainRecent_peers, pushConnection_peers, if_pos rfl, hlimits.2.2]
  simp only [connectVerdict, getVerdict, hrecord]
  simp only [verdictOn, retainRecent, hlimits]

end Fail2Ban

/-- A peer is accepted only with a good verdict. -/
theorem onConnect_ok {N : Type} {peer : IpAddr} {clock : Readings} {fail2ban : Fail2Ban}
    {handler : ProxyHandler N} (h : (handler.onConnect peer clock fail2ban).1 = .ok .ok) :
    fail2ban.connectVerdict peer clock = .ok := by
  by_contra hverdict
  have hanswer : (handler.onConnect peer clock fail2ban).1 = .ok .reject :=
    congrArg Except.ok (if_pos hverdict)
  rw [hanswer] at h
  cases h

namespace PeerCall

variable {N : Type}

def peer : PeerCall N → IpAddr
  | connect peer _ _ => peer
  | disconnect peer _ _ => peer

/-- The last reading of the clock in the call. -/
def time : PeerCall N → Instant
  | connect _ clock _ => max clock.first clock.second
  | disconnect _ clock _ => clock.first

/-- The store after the call. -/
def run (fail2ban : Fail2Ban) : PeerCall N → Fail2Ban
  | connect peer clock handler => (PeerHandler.onConnect peer clock fail2ban handler).2.1
  | disconnect peer clock handler => (PeerHandler.onDisconnect peer clock fail2ban handler).2.1

/-- The store after all the calls. -/
def store (start : Fail2Ban) (calls : List (PeerCall N)) : Fail2Ban := calls.foldl run start

theorem run_connect (fail2ban : Fail2Ban) (peer : IpAddr) (clock : Readings)
    (handler : ProxyHandler N) : (connect peer clock handler).run fail2ban =
      (fail2ban.pushConnection peer clock.first).retainRecent clock.second := rfl

theorem run_disconnect (fail2ban : Fail2Ban) (peer : IpAddr) (clock : Readings)
    (handler : ProxyHandler N) : (disconnect peer clock handler).run fail2ban =
      (if handler.productive then fail2ban
        else fail2ban.pushFail peer clock.first).popConnection peer := rfl

theorem run_limits (fail2ban : Fail2Ban) (call : PeerCall N) :
    (call.run fail2ban).limits = fail2ban.limits := by
  cases call with
  | connect peer clock handler =>
      rw [run_connect]
      exact Fail2Ban.pushConnection_limits fail2ban peer clock.first
  | disconnect peer clock handler =>
      rw [run_disconnect, Fail2Ban.popConnection_limits]
      split
      · rfl
      · exact Fail2Ban.pushFail_limits fail2ban peer clock.first

theorem run_connect_peers (fail2ban : Fail2Ban) (peer other : IpAddr) (clock : Readings)
    (handler : ProxyHandler N) : ((connect peer clock handler).run fail2ban).peers other =
      (if other = peer then some (.touched (fail2ban.peers peer) clock.first)
        else fail2ban.peers other).filter (·.isRecent fail2ban.maxAge clock.second) := by
  have hage : (fail2ban.pushConnection peer clock.first).maxAge = fail2ban.maxAge :=
    congrArg (·.2.2) (fail2ban.pushConnection_limits peer clock.first)
  rw [run_connect, Fail2Ban.retainRecent_peers, Fail2Ban.pushConnection_peers, hage]

theorem run_disconnect_peers (fail2ban : Fail2Ban) (peer other : IpAddr) (clock : Readings)
    (handler : ProxyHandler N) : ((disconnect peer clock handler).run fail2ban).peers other =
      if other = peer then (fail2ban.peers peer).map (.released handler.productive clock.first)
      else fail2ban.peers other := by
  rw [run_disconnect, Fail2Ban.popConnection_peers]
  cases hproductive : handler.productive with
  | true =>
      rw [if_pos rfl]
      rfl
  | false =>
      rw [if_neg Bool.false_ne_true, Fail2Ban.pushFail_peers, Fail2Ban.pushFail_peers, if_pos rfl,
        Option.map_map]
      split <;> rfl

theorem store_concat (start : Fail2Ban) (calls : List (PeerCall N)) (call : PeerCall N) :
    store start (calls ++ [call]) = call.run (store start calls) := by
  simp [store]

theorem store_limits (start : Fail2Ban) (calls : List (PeerCall N)) :
    (store start calls).limits = start.limits := by
  induction calls using List.reverseRecOn with
  | nil => rfl
  | append_singleton calls call ih => rw [store_concat, run_limits, ih]

theorem store_maxAge (start : Fail2Ban) (calls : List (PeerCall N)) :
    (store start calls).maxAge = start.maxAge :=
  congrArg (·.2.2) (store_limits start calls)

end PeerCall

end PostGraph.MailProxy
