import PostGraph.MailProxy.Records

/-! # How bans expire

A call on connecting first refreshes the record of its own peer and then forgets
old records, so it never forgets that one. A ban only expires when some other
peer connects after its time has passed. Without such a visit it counts what the
peer did since its record began.
-/

namespace PostGraph.MailProxy

open Foundation Foundation.History Smtp

/-- The peer disconnected from at most that many unproductive sessions, and its
connections, opened less closed, leave as much room as none. Both are numbers of
32 bits. -/
def Stretch.Within (maxConnections maxFails : UInt32) (stretch : Stretch) : Prop :=
  .ofNat stretch.fails.length ≤ maxFails ∧
    (maxConnections < .ofNat stretch.opened - .ofNat stretch.closed + 1 ↔ maxConnections < 1)

namespace PeerCall

variable {N : Type}

/-- The peer has no open connection, and its calls are long past. -/
def Dormant (maxAge : Duration) (peer : IpAddr) (now : Instant) (calls : List (PeerCall N)) :
    Prop :=
  openConnections peer calls = 0 ∧ ∀ call ∈ calls, call.peer = peer → call.time + maxAge < now

/-- Another peer connects when the calls of the peer are long past, and the peer
does not call again. -/
def Swept (maxAge : Duration) (peer : IpAddr) (calls : List (PeerCall N)) : Prop :=
  ∃ before other clock handler after,
    calls = before ++ connect other clock handler :: after ∧ other ≠ peer ∧
    (∀ call ∈ before, call.peer = peer → call.time + maxAge < clock.second) ∧
    ∀ call ∈ after, call.peer ≠ peer

/-- A call of another peer creates no record. -/
theorem run_peers_eq_none {fail2ban : Fail2Ban} {call : PeerCall N} {peer : IpAddr}
    (hcall : call.peer ≠ peer) (h : fail2ban.peers peer = none) :
    (call.run fail2ban).peers peer = none := by
  cases call with
  | connect other clock handler =>
      have hother : peer ≠ other := fun heq => hcall heq.symm
      rw [run_connect_peers, if_neg hother, h, Option.filter_none]
  | disconnect other clock handler =>
      have hother : peer ≠ other := fun heq => hcall heq.symm
      rw [run_disconnect_peers, if_neg hother, h]

/-- Calls of other peers create no record. -/
theorem store_peers_eq_none {fail2ban : Fail2Ban} {calls : List (PeerCall N)} {peer : IpAddr}
    (hcalls : ∀ call ∈ calls, call.peer ≠ peer) (h : fail2ban.peers peer = none) :
    (store fail2ban calls).peers peer = none := by
  induction calls generalizing fail2ban with
  | nil => exact h
  | cons call rest ih =>
      have hcall := hcalls call List.mem_cons_self
      exact ih (fun other hother => hcalls other (List.mem_cons_of_mem _ hother))
        (run_peers_eq_none hcall h)

/-- The time of a record is that of a call of its peer. -/
theorem record_time {start : Fail2Ban} (hstart : ∀ peer, start.peers peer = none)
    {calls : List (PeerCall N)} {peer : IpAddr} {info : PeerInfo}
    (h : (store start calls).peers peer = some info) :
    ∃ call ∈ calls, call.peer = peer ∧ info.time ≤ call.time := by
  induction calls using List.reverseRecOn generalizing info with
  | nil => cases (hstart peer).symm.trans h
  | append_singleton calls call ih =>
      have hearlier : ∀ {kept : PeerInfo} {time : Instant},
          (store start calls).peers peer = some kept → time = kept.time →
          ∃ call' ∈ calls ++ [call], call'.peer = peer ∧ time ≤ call'.time := by
        intro kept time hkept htime
        obtain ⟨call', hmem, hpeer, hle⟩ := ih hkept
        exact ⟨call', List.mem_append_left _ hmem, hpeer, htime ▸ hle⟩
      rw [store_concat] at h
      cases call with
      | connect other clock handler =>
          rw [run_connect_peers] at h
          have hkept := (Option.filter_eq_some_iff.mp h).1
          split at hkept
          next heq =>
            refine ⟨_, List.mem_append_right _ (List.mem_singleton.mpr rfl), heq.symm, ?_⟩
            rw [← Option.some.inj hkept, PeerInfo.touched_time]
            exact Nat.le_max_left _ _
          next => exact hearlier hkept rfl
      | disconnect other clock handler =>
          rw [run_disconnect_peers] at h
          split at h
          next heq =>
            obtain ⟨before, hbefore, rfl⟩ := Option.map_eq_some_iff.mp h
            unfold PeerInfo.released
            split
            next => exact @hearlier before _ (heq ▸ hbefore) rfl
            next =>
              exact ⟨_, List.mem_append_right _ (List.mem_singleton.mpr rfl), heq.symm, le_rfl⟩
          next => exact hearlier h rfl

/-- Once another peer connects after the time of a ban has passed, the banned
peer has no record until it connects again. -/
theorem Swept.peers_eq_none {start : Fail2Ban} (hstart : ∀ peer, start.peers peer = none)
    {calls : List (PeerCall N)} {peer : IpAddr} (h : Swept start.maxAge peer calls) :
    (store start calls).peers peer = none := by
  obtain ⟨before, other, clock, handler, after, rfl, hother, hbefore, hafter⟩ := h
  have hforgotten : ((connect other clock handler).run (store start before)).peers peer = none := by
    rw [run_connect_peers, if_neg (Ne.symm hother), Option.filter_eq_none_iff]
    intro info hinfo
    obtain ⟨call, hmem, hpeer, hle⟩ := record_time hstart hinfo
    have hpast := hbefore call hmem hpeer
    rw [PeerInfo.isRecent, store_maxAge, decide_eq_true_eq, Instant.elapsed_le_iff]
    exact Nat.not_le_of_lt (Nat.lt_of_le_of_lt (Nat.add_le_add_right hle _) hpast)
  have hstore : store start (before ++ connect other clock handler :: after) =
      store ((connect other clock handler).run (store start before)) after := by
    simp [store]
  rw [hstore]
  exact store_peers_eq_none hafter hforgotten

theorem connectVerdict_eq (fail2ban : Fail2Ban) (peer : IpAddr) (now : Instant) :
    fail2ban.connectVerdict peer ⟨now, now⟩ =
      fail2ban.verdictOn (some (.touched (fail2ban.peers peer) now)) := by
  have hrecent : (PeerInfo.touched (fail2ban.peers peer) now).isRecent fail2ban.maxAge now := by
    simp [PeerInfo.isRecent, PeerInfo.touched_time]
  rw [fail2ban.connectVerdict_eq_verdictOn, Option.filter_some, if_pos hrecent]

theorem verdictOn_some (fail2ban : Fail2Ban) (connections fails : UInt32) (now : Instant) :
    fail2ban.verdictOn (some ⟨connections, fails, now⟩) =
      if fail2ban.maxFails < fails then .tooManyFails
      else if fail2ban.maxConnections < connections then .tooManyConnections
      else .ok := rfl

/-- The verdict on a peer with a record is that on a peer without one exactly if
what the record covers is within the limits. -/
theorem verdictOn_touched_iff (fail2ban : Fail2Ban) (stretch : Stretch) (now : Instant) :
    fail2ban.verdictOn (some (.touched (some stretch.info) now)) =
        fail2ban.verdictOn (some (.touched none now)) ↔
      stretch.Within fail2ban.maxConnections fail2ban.maxFails := by
  have hzero : ¬ fail2ban.maxFails < 0 := UInt32.not_lt_zero
  have hrecord : PeerInfo.touched (some stretch.info) now =
      ⟨stretch.info.connections + 1, stretch.info.fails, now⟩ := rfl
  have hwithin : stretch.Within fail2ban.maxConnections fail2ban.maxFails ↔
      stretch.info.fails ≤ fail2ban.maxFails ∧
        (fail2ban.maxConnections < stretch.info.connections + 1 ↔ fail2ban.maxConnections < 1) :=
    Iff.rfl
  rw [hrecord, verdictOn_some, show PeerInfo.touched none now = ⟨1, 0, now⟩ from rfl,
    verdictOn_some, if_neg hzero, hwithin]
  by_cases hfails : fail2ban.maxFails < stretch.info.fails
  · have hle : ¬ stretch.info.fails ≤ fail2ban.maxFails := UInt32.not_le.mpr hfails
    rw [if_pos hfails]
    split <;> simp [hle]
  · have hle : stretch.info.fails ≤ fail2ban.maxFails := UInt32.not_lt.mp hfails
    rw [if_neg hfails]
    by_cases hmany : fail2ban.maxConnections < stretch.info.connections + 1
    · rw [if_pos hmany]
      split <;> simp_all
    · rw [if_neg hmany]
      split <;> simp_all

/-- For every configuration and every run of calls, and for the verdict that a
peer obtains at some time: a dormant peer obtains the verdict of one that was
never seen, if and only if another peer has connected after the time of its ban,
or what it did since its record began is within the limits. -/
theorem ban_expires_iff (maxConnections maxFails : UInt32) (maxAge : Duration)
    (calls : List (PeerCall N)) (peer stranger : IpAddr) (now : Instant)
    (hstranger : ∀ call ∈ calls, call.peer ≠ stranger) :
    (Dormant maxAge peer now calls →
      (store (.new maxConnections maxFails maxAge) calls).connectVerdict peer ⟨now, now⟩ =
      (store (.new maxConnections maxFails maxAge) calls).connectVerdict stranger ⟨now, now⟩) ↔
    (Dormant maxAge peer now calls → Swept maxAge peer calls ∨
      ∀ stretch ∈ stretchOf maxAge peer calls, stretch.Within maxConnections maxFails) := by
  have hstart : ∀ other, (Fail2Ban.new maxConnections maxFails maxAge).peers other = none :=
    fun other => rfl
  have hnone := store_peers_eq_none hstranger (hstart stranger)
  have hpeer : (store (.new maxConnections maxFails maxAge) calls).peers peer =
      (stretchOf maxAge peer calls).map Stretch.info := store_peers_eq (hstart peer) calls
  have hlimits := store_limits (.new maxConnections maxFails maxAge) calls
  simp only [Fail2Ban.limits, Prod.mk.injEq] at hlimits
  apply imp_congr_right
  intro _
  rw [connectVerdict_eq, connectVerdict_eq, hnone, hpeer]
  cases hstretch : stretchOf maxAge peer calls with
  | none => exact iff_of_true rfl (.inr fun stretch hmem => by cases hmem)
  | some stretch =>
      rw [Option.map_some, verdictOn_touched_iff, hlimits.1, hlimits.2.1]
      constructor
      · intro hwithin
        refine .inr fun other hother => ?_
        cases hother
        exact hwithin
      · rintro (hswept | hwithin)
        · have hforgotten := hswept.peers_eq_none hstart
          rw [hpeer, hstretch] at hforgotten
          cases hforgotten
        · exact hwithin stretch rfl

/-- A peer that fails twice and stays away. -/
def repeatOffender : List (PeerCall Unit) :=
  [.connect (.v4 1) ⟨0, 0⟩ .unconfigured, .disconnect (.v4 1) ⟨1, 1⟩ .unconfigured,
    .connect (.v4 1) ⟨2, 2⟩ .unconfigured, .disconnect (.v4 1) ⟨3, 3⟩ .unconfigured]

/-- Another peer that connects in the meantime. -/
def laterVisit : PeerCall Unit := .connect (.v4 2) ⟨20, 20⟩ .unconfigured

theorem ban_expires_after_visit :
    (store (.new 5 1 10) (repeatOffender ++ [laterVisit])).connectVerdict (.v4 1) ⟨30, 30⟩ =
      (store (.new 5 1 10) (repeatOffender ++ [laterVisit])).connectVerdict (.v4 3) ⟨30, 30⟩ := by
  have hswept : Swept 10 (.v4 1) (repeatOffender ++ [laterVisit]) :=
    ⟨repeatOffender, .v4 2, ⟨20, 20⟩, .unconfigured, [], rfl, by decide, by decide, by decide⟩
  refine (ban_expires_iff 5 1 10 (repeatOffender ++ [laterVisit]) (.v4 1) (.v4 3) 30
    (by decide)).mpr (fun _ => .inl hswept) ?_
  exact ⟨by decide, by decide⟩

/-- Without the other peer, the ban outlives its time. -/
theorem ban_outlives_its_time :
    ¬ (Dormant 10 (.v4 1) 30 repeatOffender →
      (store (.new 5 1 10) repeatOffender).connectVerdict (.v4 1) ⟨30, 30⟩ =
        (store (.new 5 1 10) repeatOffender).connectVerdict (.v4 3) ⟨30, 30⟩) := by
  intro h
  have hdormant : Dormant 10 (.v4 1) 30 repeatOffender := ⟨by decide, by decide⟩
  exact absurd (h hdormant) (by decide)

end PeerCall

end PostGraph.MailProxy
