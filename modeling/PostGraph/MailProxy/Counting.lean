import PostGraph.MailProxy.PeerCalls

/-! # Counting open connections

A record of the store counts the open connections of its peer exactly as long as
no record of a peer with open connections is forgotten. Records are forgotten
by their age alone, so the peers with open connections have to be active.
-/

namespace PostGraph.MailProxy

open Foundation Foundation.History Smtp

namespace PeerCall

variable {N : Type}

/-- One more call, given the number of open connections of a peer. -/
def countOpen (peer : IpAddr) (count : Nat) : PeerCall N → Nat
  | connect other _ _ => if other = peer then count + 1 else count
  | disconnect other _ _ => if other = peer then count - 1 else count

/-- How many connections of the peer were opened and not yet disconnected. -/
def openConnections (peer : IpAddr) (calls : List (PeerCall N)) : Nat :=
  calls.foldl (countOpen peer) 0

/-- One more call, given when a peer was active most recently. -/
def activity (peer : IpAddr) (recent : Option Instant) : PeerCall N → Option Instant
  | connect other clock _ => if other = peer then some clock.first else recent
  | disconnect other clock handler =>
      if other = peer ∧ handler.productive = false then some clock.first else recent

/-- When the peer last connected, or disconnected from an unproductive session. -/
def lastActive (peer : IpAddr) (calls : List (PeerCall N)) : Option Instant :=
  calls.foldl (activity peer) none

/-- A call on disconnecting matches an earlier one on connecting. -/
def Matches (before : List (PeerCall N)) : PeerCall N → Prop
  | connect _ _ _ => True
  | disconnect peer _ _ => 0 < openConnections peer before

instance (before : List (PeerCall N)) (call : PeerCall N) : Decidable (Matches before call) :=
  match call with
  | connect _ _ _ => .isTrue trivial
  | disconnect peer _ _ => inferInstanceAs (Decidable (0 < openConnections peer before))

/-- On connecting, the counter has room, and each peer with open connections has
been active within the given time. -/
def Timely (maxAge : Duration) (before : List (PeerCall N)) (call : PeerCall N) : Prop :=
  match call with
  | connect peer clock _ =>
      openConnections peer before + 1 < 2 ^ 32 ∧
        ∀ other, 0 < openConnections other (before ++ [call]) →
          ∀ time ∈ lastActive other (before ++ [call]), Instant.elapsed time clock.second ≤ maxAge
  | disconnect _ _ _ => True

/-- The store counts the connections of each peer that has any. -/
def CountsOpen (fail2ban : Fail2Ban) (calls : List (PeerCall N)) : Prop :=
  ∀ peer, 0 < openConnections peer calls → ∃ info, fail2ban.peers peer = some info ∧
    info.connections.toNat = openConnections peer calls

/-- The call does not decrement a counter that is zero. -/
def NoUnderflow (fail2ban : Fail2Ban) : PeerCall N → Prop
  | connect _ _ _ => True
  | disconnect peer _ _ => ∀ info, fail2ban.peers peer = some info → info.connections ≠ 0

/-- Every record counts the open connections of its peer, and a peer with open
connections has a record with the time of its last activity. -/
structure Tracks (calls : List (PeerCall N)) (fail2ban : Fail2Ban) : Prop where
  exact : ∀ peer info, fail2ban.peers peer = some info →
    info.connections.toNat = openConnections peer calls
  present : ∀ peer, 0 < openConnections peer calls →
    ∃ info, fail2ban.peers peer = some info ∧ lastActive peer calls = some info.time

theorem openConnections_concat (peer : IpAddr) (calls : List (PeerCall N)) (call : PeerCall N) :
    openConnections peer (calls ++ [call]) = countOpen peer (openConnections peer calls) call := by
  simp [openConnections]

theorem lastActive_concat (peer : IpAddr) (calls : List (PeerCall N)) (call : PeerCall N) :
    lastActive peer (calls ++ [call]) = activity peer (lastActive peer calls) call := by
  simp [lastActive]

theorem Tracks.of_new (maxConnections maxFails : UInt32) (maxAge : Duration) :
    Tracks ([] : List (PeerCall N)) (.new maxConnections maxFails maxAge) where
  exact _ _ hinfo := by cases hinfo
  present _ hopen := absurd hopen (Nat.lt_irrefl 0)

variable {calls : List (PeerCall N)} {fail2ban : Fail2Ban}

theorem Tracks.countsOpen (h : Tracks calls fail2ban) : CountsOpen fail2ban calls := by
  intro peer hopen
  obtain ⟨info, hinfo, _⟩ := h.present peer hopen
  exact ⟨info, hinfo, h.exact peer info hinfo⟩

theorem Tracks.openConnections_eq_zero (h : Tracks calls fail2ban) {peer : IpAddr}
    (hpeer : fail2ban.peers peer = none) : openConnections peer calls = 0 := by
  by_contra hopen
  obtain ⟨info, hinfo, _⟩ := h.present peer (Nat.pos_of_ne_zero hopen)
  rw [hpeer] at hinfo
  cases hinfo

/-- The record of a peer that connects counts its connections, if there is room. -/
theorem Tracks.touched (h : Tracks calls fail2ban) {peer : IpAddr} {now : Instant}
    (hroom : openConnections peer calls + 1 < 2 ^ 32) :
    (PeerInfo.touched (fail2ban.peers peer) now).connections.toNat =
      openConnections peer calls + 1 := by
  cases hpeer : fail2ban.peers peer with
  | none => rw [h.openConnections_eq_zero hpeer, PeerInfo.touched, UInt32.toNat_one]
  | some info =>
      have hexact := h.exact peer info hpeer
      rw [PeerInfo.touched, UInt32.toNat_add, hexact]
      exact Nat.mod_eq_of_lt hroom

theorem released_connections {productive : Bool} {now : Instant} {info : PeerInfo}
    (hpos : info.connections.toNat ≠ 0) :
    (info.released productive now).connections.toNat = info.connections.toNat - 1 := by
  have hle : (1 : UInt32) ≤ info.connections := by
    rw [UInt32.le_iff_toNat_le, UInt32.toNat_one]
    exact Nat.pos_of_ne_zero hpos
  have hconnections : (info.released productive now).connections = info.connections - 1 := by
    unfold PeerInfo.released
    split <;> rfl
  rw [hconnections, UInt32.toNat_sub_of_le _ _ hle, UInt32.toNat_one]

/-- Connecting keeps the counters, if it forgets no peer with open connections. -/
theorem Tracks.connect (h : Tracks calls fail2ban) {peer : IpAddr} {clock : Readings}
    {handler : ProxyHandler N}
    (htimely : Timely fail2ban.maxAge calls (.connect peer clock handler)) :
    Tracks (calls ++ [.connect peer clock handler])
      ((PeerCall.connect peer clock handler).run fail2ban) := by
  obtain ⟨hroom, hactive⟩ := htimely
  constructor
  · intro other info hinfo
    rw [run_connect_peers] at hinfo
    have hinfo := (Option.filter_eq_some_iff.mp hinfo).1
    rw [openConnections_concat, countOpen]
    by_cases hother : other = peer
    · subst hother
      rw [if_pos rfl] at hinfo ⊢
      rw [← Option.some.inj hinfo, h.touched hroom]
    · rw [if_neg hother] at hinfo
      rw [if_neg (Ne.symm hother), h.exact other info hinfo]
  · intro other hopen
    have hrecent := hactive other hopen
    rw [run_connect_peers]
    rw [openConnections_concat, countOpen] at hopen
    rw [lastActive_concat, activity] at hrecent ⊢
    by_cases hother : other = peer
    · subst hother
      rw [if_pos rfl] at hrecent ⊢
      refine ⟨_, Option.filter_eq_some_iff.mpr ⟨rfl, ?_⟩, ?_⟩
      · simpa [PeerInfo.isRecent, PeerInfo.touched_time] using hrecent
      · rw [if_pos rfl, PeerInfo.touched_time]
    · rw [if_neg (Ne.symm hother)] at hopen hrecent ⊢
      obtain ⟨info, hinfo, htime⟩ := h.present other hopen
      refine ⟨info, Option.filter_eq_some_iff.mpr ⟨by rw [if_neg hother, hinfo], ?_⟩, htime⟩
      simpa [PeerInfo.isRecent] using hrecent info.time htime

/-- Disconnecting keeps the counters, if it matches a call on connecting. -/
theorem Tracks.disconnect (h : Tracks calls fail2ban) {peer : IpAddr} {clock : Readings}
    {handler : ProxyHandler N} (hopen : 0 < openConnections peer calls) :
    Tracks (calls ++ [.disconnect peer clock handler])
      ((PeerCall.disconnect peer clock handler).run fail2ban) := by
  constructor
  · intro other info hinfo
    rw [run_disconnect_peers] at hinfo
    rw [openConnections_concat, countOpen]
    by_cases hother : other = peer
    · subst hother
      rw [if_pos rfl] at hinfo ⊢
      obtain ⟨before, hbefore, rfl⟩ := Option.map_eq_some_iff.mp hinfo
      have hexact := h.exact other before hbefore
      rw [released_connections (by rw [hexact]; exact Nat.ne_of_gt hopen), hexact]
    · rw [if_neg hother] at hinfo
      rw [if_neg (Ne.symm hother), h.exact other info hinfo]
  · intro other hother
    rw [run_disconnect_peers, lastActive_concat, activity]
    rw [openConnections_concat, countOpen] at hother
    by_cases heq : other = peer
    · subst heq
      obtain ⟨info, hinfo, htime⟩ := h.present other hopen
      refine ⟨_, by rw [if_pos rfl, hinfo]; rfl, ?_⟩
      cases hproductive : handler.productive with
      | true => simpa [PeerInfo.released] using htime
      | false => simp [PeerInfo.released]
    · rw [if_neg (Ne.symm heq)] at hother
      rw [if_neg heq, if_neg (fun hand => heq hand.1.symm)]
      exact h.present other hother

/-- If the store still counts all open connections after a call on connecting,
the call was timely. -/
theorem Tracks.timely (h : Tracks calls fail2ban) {peer : IpAddr} {clock : Readings}
    {handler : ProxyHandler N}
    (hcounts : CountsOpen ((PeerCall.connect peer clock handler).run fail2ban)
      (calls ++ [.connect peer clock handler])) :
    Timely fail2ban.maxAge calls (.connect peer clock handler) := by
  constructor
  · have hopen : openConnections peer (calls ++ [.connect peer clock handler]) =
        openConnections peer calls + 1 := by
      rw [openConnections_concat, countOpen, if_pos rfl]
    obtain ⟨info, _, hexact⟩ := hcounts peer (by rw [hopen]; exact Nat.succ_pos _)
    rw [← hopen, ← hexact]
    exact info.connections.toNat_lt
  · intro other hopen time htime
    obtain ⟨info, hinfo, _⟩ := hcounts other hopen
    rw [run_connect_peers] at hinfo
    obtain ⟨hinfo, hrecent⟩ := Option.filter_eq_some_iff.mp hinfo
    -- The record that was kept has the time of the last activity.
    have heq : time = info.time := by
      rw [openConnections_concat, countOpen] at hopen
      rw [lastActive_concat, activity] at htime
      by_cases hother : other = peer
      · rw [if_pos hother] at hinfo
        rw [if_pos hother.symm] at htime
        rw [← Option.some.inj hinfo, PeerInfo.touched_time]
        exact (Option.some.inj htime).symm
      · rw [if_neg hother] at hinfo
        rw [if_neg (Ne.symm hother)] at hopen htime
        obtain ⟨kept, hkept, hlast⟩ := h.present other hopen
        cases hinfo.symm.trans hkept
        exact Option.some.inj (htime.symm.trans hlast)
    rw [heq]
    simpa [PeerInfo.isRecent] using hrecent

/-- In a run of timely calls the store tracks all connections. -/
theorem tracks_of_timely (maxConnections maxFails : UInt32) {maxAge : Duration}
    (hmatched : Justified Matches calls) (htimely : Justified (Timely maxAge) calls) :
    Tracks calls (store (.new maxConnections maxFails maxAge) calls) := by
  induction calls using List.reverseRecOn with
  | nil => exact .of_new maxConnections maxFails maxAge
  | append_singleton calls call ih =>
      rw [justified_concat_iff] at hmatched htimely
      have htracks := ih hmatched.1 htimely.1
      have hage : (store (.new maxConnections maxFails maxAge) calls).maxAge = maxAge :=
        store_maxAge _ calls
      rw [store_concat]
      cases call with
      | connect peer clock handler => exact htracks.connect (by rw [hage]; exact htimely.2)
      | disconnect peer clock handler => exact htracks.disconnect hmatched.2

/-- For every configuration and every run of matched calls: after each call the
store counts the connections of every peer that has any, and no call decrements
a zero counter, if and only if each call on connecting is timely. -/
theorem counters_exact_iff (maxConnections maxFails : UInt32) (maxAge : Duration)
    (calls : List (PeerCall N)) (hmatched : Justified Matches calls) :
    Justified (fun before call =>
      CountsOpen (store (.new maxConnections maxFails maxAge) (before ++ [call]))
        (before ++ [call]) ∧
      NoUnderflow (store (.new maxConnections maxFails maxAge) before) call) calls ↔
    Justified (Timely maxAge) calls := by
  induction calls using List.reverseRecOn with
  | nil => exact iff_of_true .nil .nil
  | append_singleton calls call ih =>
      rw [justified_concat_iff] at hmatched
      rw [justified_concat_iff, justified_concat_iff, ih hmatched.1]
      apply and_congr_right
      intro htimely
      have htracks := tracks_of_timely maxConnections maxFails hmatched.1 htimely
      have hage : (store (.new maxConnections maxFails maxAge) calls).maxAge = maxAge :=
        store_maxAge _ calls
      rw [store_concat]
      constructor
      · rintro ⟨hcounts, _⟩
        cases call with
        | connect peer clock handler => exact hage ▸ htracks.timely hcounts
        | disconnect peer clock handler => trivial
      · intro hcall
        cases call with
        | connect peer clock handler =>
            exact ⟨(htracks.connect (hage.symm ▸ hcall)).countsOpen, trivial⟩
        | disconnect peer clock handler =>
            refine ⟨(htracks.disconnect hmatched.2).countsOpen, fun info hinfo hzero => ?_⟩
            have hexact := htracks.exact peer info hinfo
            rw [hzero] at hexact
            exact absurd hexact.symm (Nat.ne_of_gt hmatched.2)

/-- Two peers that stay within the time. -/
def overlapping : List (PeerCall Unit) :=
  [.connect (.v4 1) ⟨0, 0⟩ .unconfigured, .connect (.v4 2) ⟨8, 8⟩ .unconfigured,
    .disconnect (.v4 1) ⟨20, 20⟩ .unconfigured]

theorem counters_exact_overlapping :
    Justified (fun before call =>
      CountsOpen (store (.new 5 5 10) (before ++ [call])) (before ++ [call]) ∧
      NoUnderflow (store (.new 5 5 10) before) call) overlapping := by
  apply (counters_exact_iff 5 5 10 overlapping (by decide)).mpr
  have hfirst : ∀ other, ∀ time ∈ lastActive other (overlapping.take 1), time = 0 := by
    intro other time htime
    rcases Option.ite_none_right_eq_some.mp htime with ⟨_, htime⟩
    exact (Option.some.inj htime).symm
  refine ((Justified.nil.concat ⟨by decide, ?_⟩).concat ⟨by decide, ?_⟩).concat trivial
  · intro other _ time htime
    rw [hfirst other time htime]
    decide
  · intro other _ time htime
    rw [lastActive_concat, activity] at htime
    split at htime
    · cases htime
      decide
    · rw [hfirst other time htime]
      decide

/-- A peer connects again after another peer's call has forgotten its record, and
then closes both connections. -/
def forgottenWhileOpen : List (PeerCall Unit) :=
  [.connect (.v4 1) ⟨0, 0⟩ .unconfigured, .connect (.v4 2) ⟨11, 11⟩ .unconfigured,
    .connect (.v4 1) ⟨12, 12⟩ .unconfigured, .disconnect (.v4 1) ⟨13, 13⟩ .unconfigured,
    .disconnect (.v4 1) ⟨14, 14⟩ .unconfigured]

theorem counter_wraps_around :
    Justified Matches forgottenWhileOpen ∧
    ((store (.new 5 5 10) forgottenWhileOpen).peers (.v4 1)).map PeerInfo.connections =
      some 4294967295 ∧
    ¬ Justified (fun before call =>
      CountsOpen (store (.new 5 5 10) (before ++ [call])) (before ++ [call]) ∧
      NoUnderflow (store (.new 5 5 10) before) call) forgottenWhileOpen := by
  refine ⟨by decide, by decide, fun h => ?_⟩
  -- The second call already forgets the first peer, whose connection is open.
  obtain ⟨hcounts, _⟩ := h (forgottenWhileOpen.take 1) _ (forgottenWhileOpen.drop 2) rfl
  obtain ⟨info, hinfo, _⟩ := hcounts (.v4 1) (by decide)
  cases hinfo

end PeerCall

end PostGraph.MailProxy
