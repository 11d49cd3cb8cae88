import PostGraph.MailProxy.Counting

/-! # What a record covers

The record of a peer begins when the peer connects without one. It ends on the
first call on connecting, of whatever peer, that comes too long after the last
event which refreshed it. What the record counts is therefore read off the calls
and their times, without the store.
-/

namespace PostGraph.MailProxy

open Foundation Foundation.History Smtp

/-- What a peer itself does in a call. -/
inductive PeerEvent where
  | connect (clock : Readings)
  | disconnect (now : Instant) (productive : Bool)
  deriving DecidableEq

namespace PeerEvent

def isConnect : PeerEvent → Bool
  | connect _ => true
  | disconnect _ _ => false

/-- When the peer disconnected from an unproductive session, if it did. -/
def failed : PeerEvent → Option Instant
  | connect _ => none
  | disconnect now productive => if productive then none else some now

/-- When the event refreshes the record of the peer, if it does. -/
def refreshed : PeerEvent → Option Instant
  | connect clock => some clock.first
  | disconnect now productive => if productive then none else some now

end PeerEvent

/-- What a peer did since its record began: it connected, and more. -/
structure Stretch where
  began : Instant
  events : List PeerEvent

namespace Stretch

/-- The time of the last event that refreshed the record. -/
def lastActive (stretch : Stretch) : Instant :=
  lastWord PeerEvent.refreshed stretch.began stretch.events

/-- How often the peer connected. -/
def opened (stretch : Stretch) : Nat := stretch.events.countP PeerEvent.isConnect + 1

/-- How often the peer disconnected. -/
def closed (stretch : Stretch) : Nat := stretch.events.countP fun event => !event.isConnect

/-- When the peer disconnected from unproductive sessions. -/
def fails (stretch : Stretch) : List Instant := stretch.events.filterMap PeerEvent.failed

/-- The peer does one more thing. -/
def add (stretch : Stretch) (event : PeerEvent) : Stretch :=
  { stretch with events := stretch.events ++ [event] }

/-- The peer connects, with a record or without one. -/
def connected (stretch : Option Stretch) (clock : Readings) : Stretch :=
  match stretch with
  | some stretch => stretch.add (.connect clock)
  | none => ⟨clock.first, []⟩

/-- The record of the stretch, with its counters of 32 bits. -/
def info (stretch : Stretch) : PeerInfo where
  connections := .ofNat stretch.opened - .ofNat stretch.closed
  fails := .ofNat stretch.fails.length
  time := stretch.lastActive

theorem add_lastActive (stretch : Stretch) (event : PeerEvent) :
    (stretch.add event).lastActive = event.refreshed.getD stretch.lastActive :=
  lastWord_concat stretch.events event

theorem add_fails (stretch : Stretch) (event : PeerEvent) :
    (stretch.add event).fails = stretch.fails ++ event.failed.toList := by
  rw [fails, add, List.filterMap_append]
  cases hfailed : event.failed <;> simp [fails, hfailed]

theorem info_connected (stretch : Option Stretch) (clock : Readings) :
    (connected stretch clock).info = .touched (stretch.map info) clock.first := by
  cases stretch with
  | none =>
      have hzero : UInt32.ofNat 1 - UInt32.ofNat 0 = 1 := by decide
      exact congrArg (PeerInfo.mk · 0 clock.first) hzero
  | some stretch =>
      have hopened : (stretch.add (.connect clock)).opened = stretch.opened + 1 := by
        simp [opened, add, PeerEvent.isConnect]
      have hclosed : (stretch.add (.connect clock)).closed = stretch.closed := by
        simp [closed, add, PeerEvent.isConnect]
      rw [connected, info, hopened, hclosed, add_fails, add_lastActive, UInt32.ofNat_add]
      simp only [PeerInfo.touched, info, Option.map_some, PeerEvent.failed, Option.toList_none,
        List.append_nil, PeerEvent.refreshed, Option.getD_some, PeerInfo.mk.injEq, and_true]
      grind

theorem info_add_disconnect (stretch : Stretch) (now : Instant) (productive : Bool) :
    (stretch.add (.disconnect now productive)).info = stretch.info.released productive now := by
  have hopened : (stretch.add (.disconnect now productive)).opened = stretch.opened := by
    simp [opened, add, PeerEvent.isConnect]
  have hclosed : (stretch.add (.disconnect now productive)).closed = stretch.closed + 1 := by
    simp [closed, add, PeerEvent.isConnect]
  have hconnections : UInt32.ofNat stretch.opened - .ofNat (stretch.closed + 1) =
      .ofNat stretch.opened - .ofNat stretch.closed - 1 := by
    rw [UInt32.ofNat_add]
    grind
  rw [info, hopened, hclosed, hconnections, add_fails, add_lastActive]
  cases productive with
  | true => simp [PeerInfo.released, info, PeerEvent.failed, PeerEvent.refreshed]
  | false => simp [PeerInfo.released, info, PeerEvent.failed, PeerEvent.refreshed, UInt32.ofNat_add]

end Stretch

namespace PeerCall

variable {N : Type}

/-- What the peer does in the call, if it is a call of the peer. -/
def eventOf (peer : IpAddr) : PeerCall N → Option PeerEvent
  | connect other clock _ => if other = peer then some (.connect clock) else none
  | disconnect other clock handler =>
      if other = peer then some (.disconnect clock.first handler.productive) else none

/-- One more call, given what the peer did since its record began. -/
def extend (maxAge : Duration) (peer : IpAddr) (stretch : Option Stretch) :
    PeerCall N → Option Stretch
  | connect other clock _ =>
      (if other = peer then some (.connected stretch clock) else stretch).filter
        fun stretch => Instant.elapsed stretch.lastActive clock.second ≤ maxAge
  | disconnect other clock handler =>
      if other = peer then
        stretch.map (·.add (.disconnect clock.first handler.productive))
      else stretch

/-- What the peer did since its record began, if it has one. -/
def stretchOf (maxAge : Duration) (peer : IpAddr) (calls : List (PeerCall N)) : Option Stretch :=
  calls.foldl (extend maxAge peer) none

/-- The readings of the clock in a call. -/
def readings : PeerCall N → List Instant
  | connect _ clock _ => [clock.first, clock.second]
  | disconnect _ clock _ => [clock.first]

/-- The clock never goes back. -/
def Chronological (calls : List (PeerCall N)) : Prop :=
  (calls.flatMap readings).Pairwise (· ≤ ·)

instance (calls : List (PeerCall N)) : Decidable (Chronological calls) :=
  inferInstanceAs (Decidable (List.Pairwise _ _))

theorem stretchOf_concat (maxAge : Duration) (peer : IpAddr) (calls : List (PeerCall N))
    (call : PeerCall N) : stretchOf maxAge peer (calls ++ [call]) =
      call.extend maxAge peer (stretchOf maxAge peer calls) :=
  List.foldl_concat ..

/-- A record that stands after one more call begins with the call, or stood
before it. -/
theorem mem_stretchOf_concat {maxAge : Duration} {peer : IpAddr} {calls : List (PeerCall N)}
    {call : PeerCall N} {stretch : Stretch}
    (h : stretch ∈ stretchOf maxAge peer (calls ++ [call])) :
    (∃ clock handler, call = connect peer clock handler ∧ stretch = ⟨clock.first, []⟩) ∨
      ∃ kept ∈ stretchOf maxAge peer calls, stretch = (eventOf peer call).elim kept kept.add := by
  rw [stretchOf_concat] at h
  cases call with
  | connect other clock handler =>
      have hstretch := (Option.filter_eq_some_iff.mp h).1
      rw [eventOf]
      by_cases hother : other = peer
      · rw [if_pos hother] at hstretch ⊢
        subst hother
        cases hkept : stretchOf maxAge other calls with
        | none =>
            rw [hkept] at hstretch
            exact .inl ⟨clock, handler, rfl, (Option.some.inj hstretch).symm⟩
        | some kept =>
            rw [hkept] at hstretch
            exact .inr ⟨kept, rfl, (Option.some.inj hstretch).symm⟩
      · rw [if_neg hother] at hstretch ⊢
        exact .inr ⟨stretch, hstretch, rfl⟩
  | disconnect other clock handler =>
      rw [Option.mem_def, extend] at h
      rw [eventOf]
      by_cases hother : other = peer
      · rw [if_pos hother] at h ⊢
        obtain ⟨kept, hkept, rfl⟩ := Option.map_eq_some_iff.mp h
        exact .inr ⟨kept, hkept, rfl⟩
      · rw [if_neg hother] at h ⊢
        exact .inr ⟨stretch, h, rfl⟩

/-- A record begins at a reading of the clock. -/
theorem began_mem_readings {maxAge : Duration} {peer : IpAddr} {calls : List (PeerCall N)}
    {stretch : Stretch} (h : stretch ∈ stretchOf maxAge peer calls) :
    stretch.began ∈ calls.flatMap readings := by
  induction calls using List.reverseRecOn generalizing stretch with
  | nil => cases h
  | append_singleton calls call ih =>
      rw [List.flatMap_append, List.flatMap_singleton, List.mem_append]
      rcases mem_stretchOf_concat h with ⟨clock, handler, rfl, rfl⟩ | ⟨kept, hkept, rfl⟩
      · exact .inr List.mem_cons_self
      · have hbegan : ((eventOf peer call).elim kept kept.add).began = kept.began := by
          cases eventOf peer call <;> rfl
        rw [hbegan]
        exact .inl (ih hkept)

/-- An unproductive session ends at a reading of the clock. -/
theorem failed_mem_readings {peer : IpAddr} {call : PeerCall N} {event : PeerEvent}
    {time : Instant} (hevent : eventOf peer call = some event) (htime : event.failed = some time) :
    time ∈ call.readings := by
  cases call with
  | connect other clock handler =>
      obtain ⟨-, hevent⟩ := Option.ite_none_right_eq_some.mp hevent
      cases hevent
      cases htime
  | disconnect other clock handler =>
      obtain ⟨-, hevent⟩ := Option.ite_none_right_eq_some.mp hevent
      cases hevent
      obtain ⟨-, htime⟩ := Option.ite_none_left_eq_some.mp htime
      exact List.mem_singleton.mpr (Option.some.inj htime).symm

/-- A call changes the record as it changes the stretch of the record. -/
theorem run_peers_eq {fail2ban : Fail2Ban} {peer : IpAddr} {stretch : Option Stretch}
    (h : fail2ban.peers peer = stretch.map Stretch.info) (call : PeerCall N) :
    (call.run fail2ban).peers peer =
      (call.extend fail2ban.maxAge peer stretch).map Stretch.info := by
  cases call with
  | connect other clock handler =>
      have hrecord : (if peer = other then some (.touched (fail2ban.peers other) clock.first)
          else fail2ban.peers peer) =
          (if other = peer then some (.connected stretch clock) else stretch).map Stretch.info := by
        by_cases hother : other = peer
        · rw [if_pos hother, if_pos hother.symm, hother, h, Option.map_some, Stretch.info_connected]
        · rw [if_neg hother, if_neg (Ne.symm hother), h]
      rw [run_connect_peers, extend, hrecord, Option.filter_map]
      rfl
  | disconnect other clock handler =>
      rw [run_disconnect_peers, extend]
      by_cases hother : other = peer
      · rw [if_pos hother, if_pos hother.symm, hother, h, Option.map_map, Option.map_map]
        congr 1
        funext stretch
        exact (stretch.info_add_disconnect clock.first handler.productive).symm
      · rw [if_neg hother, if_neg (Ne.symm hother), h]

/-- The store holds the record of what the peer did since the record began. -/
theorem store_peers_eq {start : Fail2Ban} {peer : IpAddr} (hstart : start.peers peer = none)
    (calls : List (PeerCall N)) :
    (store start calls).peers peer = (stretchOf start.maxAge peer calls).map Stretch.info := by
  induction calls using List.reverseRecOn with
  | nil => exact hstart
  | append_singleton calls call ih =>
      rw [store_concat, run_peers_eq ih, store_maxAge, stretchOf_concat]

end PeerCall

end PostGraph.MailProxy
