import PostGraph.Foundation.Clock
import PostGraph.Smtp.Handler

/-! # Fails and connections of peers

The store counts the open connections and the fails of each peer. Counters are
32 bits wide and wrap around. A verdict first forgets every peer without recent
activity.
-/

namespace PostGraph.MailProxy

open Foundation Smtp

inductive Verdict where
  | ok
  | tooManyConnections
  | tooManyFails
  | noRecord
  deriving DecidableEq

structure PeerInfo where
  connections : UInt32
  fails : UInt32
  time : Instant
  deriving DecidableEq

/-- The record was active within the given time. -/
def PeerInfo.isRecent (maxAge : Duration) (now : Instant) (info : PeerInfo) : Bool :=
  Instant.elapsed info.time now ≤ maxAge

structure Fail2Ban where
  maxConnections : UInt32
  maxFails : UInt32
  maxAge : Duration
  peers : IpAddr → Option PeerInfo

namespace Fail2Ban

def new (maxConnections maxFails : UInt32) (maxAge : Duration) : Fail2Ban :=
  ⟨maxConnections, maxFails, maxAge, fun _ => none⟩

/-- The store with another record of one peer. -/
def insert (fail2ban : Fail2Ban) (peer : IpAddr) (info : PeerInfo) : Fail2Ban :=
  { fail2ban with peers := Function.update fail2ban.peers peer (some info) }

def pushConnection (fail2ban : Fail2Ban) (peer : IpAddr) (now : Instant) : Fail2Ban :=
  match fail2ban.peers peer with
  | some info => fail2ban.insert peer { info with connections := info.connections + 1, time := now }
  | none => fail2ban.insert peer ⟨1, 0, now⟩

def popConnection (fail2ban : Fail2Ban) (peer : IpAddr) : Fail2Ban :=
  match fail2ban.peers peer with
  | some info => fail2ban.insert peer { info with connections := info.connections - 1 }
  | none => fail2ban

def pushFail (fail2ban : Fail2Ban) (peer : IpAddr) (now : Instant) : Fail2Ban :=
  match fail2ban.peers peer with
  | some info => fail2ban.insert peer { info with fails := info.fails + 1, time := now }
  | none => fail2ban

/-- Keep the records that are not too old. -/
def retainRecent (fail2ban : Fail2Ban) (now : Instant) : Fail2Ban :=
  { fail2ban with
    peers := fun peer => (fail2ban.peers peer).filter (·.isRecent fail2ban.maxAge now) }

/-- The verdict on a record. -/
def verdictOn (fail2ban : Fail2Ban) : Option PeerInfo → Verdict
  | none => .noRecord
  | some info =>
      if fail2ban.maxFails < info.fails then .tooManyFails
      else if fail2ban.maxConnections < info.connections then .tooManyConnections
      else .ok

def getVerdict (fail2ban : Fail2Ban) (peer : IpAddr) (now : Instant) : Verdict × Fail2Ban :=
  let fail2ban := fail2ban.retainRecent now
  (fail2ban.verdictOn (fail2ban.peers peer), fail2ban)

end Fail2Ban

end PostGraph.MailProxy
