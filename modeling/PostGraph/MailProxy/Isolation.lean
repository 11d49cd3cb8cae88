import PostGraph.MailProxy.Expiry

/-! # Isolation of peers

The peers share one store, and each call on connecting sweeps all records. A peer
that is alone and whose record is forgotten in time obtains the same verdicts,
as long as none of its own calls refreshes a record that is too old.
-/

namespace PostGraph.MailProxy

open Foundation Foundation.History Smtp

/-- Two records of a peer are the same, unless they are too old by now. -/
def PeerInfo.Agree (maxAge : Duration) (now : Instant) (record alone : Option PeerInfo) : Prop :=
  record.filter (·.isRecent maxAge now) = alone.filter (·.isRecent maxAge now)

namespace PeerInfo

variable {maxAge : Duration} {now later : Instant} {record alone : Option PeerInfo}

theorem isRecent_of_le {info : PeerInfo} (h : now ≤ later) (hrecent : info.isRecent maxAge later) :
    info.isRecent maxAge now := by
  rw [isRecent, decide_eq_true_eq, Instant.elapsed_le_iff] at *
  exact h.trans hrecent

/-- A record that is swept and then again is only swept once. -/
theorem filter_isRecent_filter (h : now ≤ later) (record : Option PeerInfo) :
    (record.filter (·.isRecent maxAge now)).filter (·.isRecent maxAge later) =
      record.filter (·.isRecent maxAge later) := by
  rw [Option.filter_filter]
  congr 1
  funext info
  rw [Bool.and_eq_right_iff_imp]
  exact isRecent_of_le h

theorem Agree.mono (h : Agree maxAge now record alone) (hle : now ≤ later) :
    Agree maxAge later record alone := by
  unfold Agree
  rw [← filter_isRecent_filter hle record, h, filter_isRecent_filter hle]

/-- A recent record is the one of the peer alone. -/
theorem Agree.eq_filter (h : Agree maxAge now record alone)
    (hrecent : ∀ info ∈ record, info.isRecent maxAge now) :
    record = alone.filter (·.isRecent maxAge now) := by
  rw [← h]
  cases record with
  | none => rfl
  | some info => rw [Option.filter_some, if_pos (hrecent info rfl)]

/-- A productive session does not refresh the record. -/
theorem filter_released (record : Option PeerInfo) (time : Instant) :
    (record.map (released true time)).filter (·.isRecent maxAge now) =
      (record.filter (·.isRecent maxAge now)).map (released true time) :=
  Option.filter_map ..

end PeerInfo

namespace PeerEvent

/-- The time at which the event starts. -/
def time : PeerEvent → Instant
  | connect clock => clock.first
  | disconnect now _ => now

/-- The record of a peer that is alone. It is forgotten once it is too old. -/
def next (maxAge : Duration) (record : Option PeerInfo) (event : PeerEvent) : Option PeerInfo :=
  let record := record.filter (·.isRecent maxAge event.time)
  match event with
  | connect clock =>
      (some (PeerInfo.touched record clock.first)).filter (·.isRecent maxAge clock.second)
  | disconnect now productive => record.map (.released productive now)

/-- The verdict on a peer that is alone, if it connects. -/
def verdict (fail2ban : Fail2Ban) (record : Option PeerInfo) (event : PeerEvent) : Option Verdict :=
  match event with
  | connect _ => some (fail2ban.verdictOn (event.next fail2ban.maxAge record))
  | disconnect _ _ => none

/-- The verdicts on a peer that is alone. -/
def verdicts (fail2ban : Fail2Ban) : Option PeerInfo → List PeerEvent → List Verdict
  | _, [] => []
  | record, event :: rest =>
      (event.verdict fail2ban record).toList ++
        verdicts fail2ban (event.next fail2ban.maxAge record) rest

end PeerEvent

namespace PeerCall

variable {N : Type}

/-- The verdict that the peer obtains in the call. -/
def verdictOf (peer : IpAddr) (fail2ban : Fail2Ban) : PeerCall N → Option Verdict
  | connect other clock _ =>
      if other = peer then some (fail2ban.connectVerdict peer clock) else none
  | disconnect _ _ _ => none

/-- The verdicts that the peer obtains, one after the other. -/
def verdicts (peer : IpAddr) : Fail2Ban → List (PeerCall N) → List Verdict
  | _, [] => []
  | fail2ban, call :: rest =>
      (verdictOf peer fail2ban call).toList ++ verdicts peer (call.run fail2ban) rest

/-- If the call is one of the peer that refreshes its record, the record is not
too old. -/
def FindsRecent (peer : IpAddr) (fail2ban : Fail2Ban) : PeerCall N → Prop
  | connect other clock _ =>
      other = peer → ∀ info ∈ fail2ban.peers peer, info.isRecent fail2ban.maxAge clock.first
  | disconnect other clock handler =>
      other = peer → handler.productive = false →
        ∀ info ∈ fail2ban.peers peer, info.isRecent fail2ban.maxAge clock.first

instance (peer : IpAddr) (fail2ban : Fail2Ban) (call : PeerCall N) :
    Decidable (FindsRecent peer fail2ban call) :=
  match call with
  | connect other clock _ => inferInstanceAs (Decidable (other = peer →
      ∀ info ∈ fail2ban.peers peer, info.isRecent fail2ban.maxAge clock.first = true))
  | disconnect other clock handler => inferInstanceAs (Decidable (other = peer →
      handler.productive = false →
        ∀ info ∈ fail2ban.peers peer, info.isRecent fail2ban.maxAge clock.first = true))

theorem time_mem_readings (call : PeerCall N) : call.time ∈ call.readings := by
  cases call with
  | connect other clock handler =>
      rcases max_choice clock.first clock.second with hmax | hmax <;> simp [time, readings, hmax]
  | disconnect other clock handler => exact List.mem_singleton.mpr rfl

theorem verdictOn_congr {first second : Fail2Ban} (h : first.limits = second.limits)
    (record : Option PeerInfo) : first.verdictOn record = second.verdictOn record := by
  simp only [Fail2Ban.limits, Prod.mk.injEq] at h
  cases record with
  | none => rfl
  | some info => rw [Fail2Ban.verdictOn, Fail2Ban.verdictOn, h.1, h.2.1]

theorem verdicts_congr {first second : Fail2Ban} (h : first.limits = second.limits)
    (record : Option PeerInfo) (events : List PeerEvent) :
    PeerEvent.verdicts first record events = PeerEvent.verdicts second record events := by
  have hage : first.maxAge = second.maxAge := congrArg (·.2.2) h
  induction events generalizing record with
  | nil => rfl
  | cons event rest ih =>
      have hverdict : event.verdict first record = event.verdict second record := by
        cases event with
        | connect clock => rw [PeerEvent.verdict, PeerEvent.verdict, hage, verdictOn_congr h]
        | disconnect now productive => rfl
      rw [PeerEvent.verdicts, PeerEvent.verdicts, hverdict, hage, ih]

/-- The store after a call on connecting holds the record that the verdict is about. -/
theorem connectVerdict_eq_run (fail2ban : Fail2Ban) (peer : IpAddr) (clock : Readings)
    (handler : ProxyHandler N) : fail2ban.connectVerdict peer clock =
      fail2ban.verdictOn (((connect peer clock handler).run fail2ban).peers peer) :=
  verdictOn_congr (run_limits fail2ban (connect peer clock handler)) _

variable {peer : IpAddr} {fail2ban : Fail2Ban} {call : PeerCall N} {now : Instant}
  {alone : Option PeerInfo}

/-- After a call, the record of the peer still agrees with that of the peer alone. -/
theorem agree_run (h : PeerInfo.Agree fail2ban.maxAge now (fail2ban.peers peer) alone)
    (hnow : ∀ reading ∈ call.readings, now ≤ reading) (hrecent : FindsRecent peer fail2ban call) :
    PeerInfo.Agree fail2ban.maxAge call.time ((call.run fail2ban).peers peer)
      (((eventOf peer call).map (PeerEvent.next fail2ban.maxAge alone)).getD alone) := by
  have hlater := h.mono (hnow call.time call.time_mem_readings)
  cases call with
  | connect other clock handler =>
      have hfirst := h.mono (hnow clock.first (by simp [readings]))
      rw [run_connect_peers, eventOf]
      by_cases hother : other = peer
      · rw [if_pos hother, if_pos hother.symm, hother, hfirst.eq_filter (hrecent hother)]
        rfl
      · rw [if_neg hother, if_neg (Ne.symm hother)]
        exact (PeerInfo.filter_isRecent_filter (Nat.le_max_right _ _) _).trans hlater
  | disconnect other clock handler =>
      rw [run_disconnect_peers, eventOf]
      by_cases hother : other = peer
      · rw [if_pos hother, if_pos hother.symm, hother]
        unfold PeerInfo.Agree
        cases hproductive : handler.productive with
        | true =>
            rw [Option.map_some, Option.getD_some, PeerEvent.next, PeerInfo.filter_released,
              PeerInfo.filter_released]
            exact congrArg _ (hlater.trans (PeerInfo.filter_isRecent_filter le_rfl alone).symm)
        | false =>
            rw [hlater.eq_filter (hrecent hother hproductive)]
            rfl
      · rw [if_neg hother, if_neg (Ne.symm hother)]
        exact hlater

/-- In a call the peer obtains the verdict that it would obtain alone. -/
theorem verdictOf_eq (h : PeerInfo.Agree fail2ban.maxAge now (fail2ban.peers peer) alone)
    (hnow : ∀ reading ∈ call.readings, now ≤ reading) (hrecent : FindsRecent peer fail2ban call) :
    verdictOf peer fail2ban call = (eventOf peer call).bind (PeerEvent.verdict fail2ban alone) := by
  cases call with
  | connect other clock handler =>
      have hfirst := h.mono (hnow clock.first (by simp [readings]))
      rw [verdictOf, eventOf]
      split
      next hother =>
        rw [connectVerdict_eq_run fail2ban peer clock handler, run_connect_peers, if_pos rfl,
          hfirst.eq_filter (hrecent hother)]
        rfl
      next => rfl
  | disconnect other clock handler =>
      rw [verdictOf, eventOf]
      split <;> rfl

/-- In a run in which the peer refreshes no record that is too old, it obtains the
verdicts that it would obtain alone. -/
theorem verdicts_eq_alone {calls : List (PeerCall N)}
    (hclock : (now :: calls.flatMap readings).Pairwise (· ≤ ·))
    (hrecent : Justified (fun before call => FindsRecent peer (store fail2ban before) call) calls)
    (h : PeerInfo.Agree fail2ban.maxAge now (fail2ban.peers peer) alone) :
    verdicts peer fail2ban calls =
      PeerEvent.verdicts fail2ban alone (calls.filterMap (eventOf peer)) := by
  induction calls generalizing fail2ban now alone with
  | nil => rfl
  | cons call rest ih =>
      obtain ⟨hcall, hrest⟩ := justified_cons_iff.mp hrecent
      have hcall : FindsRecent peer fail2ban call := hcall
      rw [List.flatMap_cons, List.pairwise_cons, List.forall_mem_append, List.pairwise_append]
        at hclock
      obtain ⟨⟨hnow, -⟩, -, hpairwise, hle⟩ := hclock
      have hage : fail2ban.maxAge = (call.run fail2ban).maxAge :=
        congrArg (·.2.2) (run_limits fail2ban call).symm
      have hrun := agree_run h hnow hcall
      rw [hage] at hrun
      rw [verdicts, verdictOf_eq h hnow hcall, List.filterMap_cons,
        ih (List.pairwise_cons.mpr ⟨hle call.time call.time_mem_readings, hpairwise⟩) hrest
          hrun, verdicts_congr (run_limits fail2ban call), ← hage]
      cases eventOf peer call with
      | none => rfl
      | some event => rfl

/-- For every configuration and any two runs with the same calls of a peer, at
the same times and from sessions as productive, under a clock that never goes
back: if no call of the peer refreshes a record of its own that is too old, the
peer obtains the same verdicts in both, whatever other peers do. -/
theorem verdicts_isolated (maxConnections maxFails : UInt32) (maxAge : Duration) (peer : IpAddr)
    {calls calls' : List (PeerCall N)} (hclock : Chronological calls)
    (hclock' : Chronological calls')
    (hsame : calls.filterMap (eventOf peer) = calls'.filterMap (eventOf peer))
    (hrecent : Justified (fun before call =>
      FindsRecent peer (store (.new maxConnections maxFails maxAge) before) call) calls)
    (hrecent' : Justified (fun before call =>
      FindsRecent peer (store (.new maxConnections maxFails maxAge) before) call) calls') :
    verdicts peer (.new maxConnections maxFails maxAge) calls =
      verdicts peer (.new maxConnections maxFails maxAge) calls' := by
  have hstart : ∀ {calls : List (PeerCall N)}, Chronological calls →
      (0 :: calls.flatMap readings).Pairwise (· ≤ ·) :=
    fun h => List.pairwise_cons.mpr ⟨fun reading _ => Nat.zero_le reading, h⟩
  have hnone : PeerInfo.Agree maxAge 0
      ((Fail2Ban.new maxConnections maxFails maxAge).peers peer) none := rfl
  rw [verdicts_eq_alone (hstart hclock) hrecent hnone,
    verdicts_eq_alone (hstart hclock') hrecent' hnone, hsame]

/-- A peer fails once and comes back after another peer's visit, when its record
is forgotten. -/
def forgiven (visit : Instant) : List (PeerCall Unit) :=
  [.connect (.v4 1) ⟨0, 0⟩ .unconfigured, .disconnect (.v4 1) ⟨1, 1⟩ .unconfigured,
    .connect (.v4 2) ⟨visit, visit⟩ .unconfigured, .connect (.v4 1) ⟨30, 30⟩ .unconfigured]

theorem verdicts_isolated_forgiven :
    verdicts (.v4 1) (.new 5 0 10) (forgiven 20) = verdicts (.v4 1) (.new 5 0 10) (forgiven 21) :=
  verdicts_isolated 5 0 10 (.v4 1) (by decide) (by decide) rfl (by decide) (by decide)

example : verdicts (.v4 1) (.new 5 0 10) (forgiven 20) = [.ok, .ok] := by decide

/-- The peer comes back. -/
def lateReturn : PeerCall Unit := .connect (.v4 1) ⟨30, 30⟩ .unconfigured

/-- Another peer's call between a ban and the return of the banned peer lifts the
ban. -/
theorem verdicts_not_isolated :
    (repeatOffender ++ [lateReturn]).filterMap (eventOf (.v4 1)) =
      (repeatOffender ++ [laterVisit, lateReturn]).filterMap (eventOf (.v4 1)) ∧
    verdicts (.v4 1) (.new 5 1 10) (repeatOffender ++ [lateReturn]) ≠
      verdicts (.v4 1) (.new 5 1 10) (repeatOffender ++ [laterVisit, lateReturn]) := by
  decide

end PeerCall

end PostGraph.MailProxy
