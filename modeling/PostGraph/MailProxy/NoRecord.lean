import PostGraph.MailProxy.ConfigFormat
import PostGraph.MailProxy.PeerCalls

/-! # Verdicts without a record

A peer that connects is recorded, and then judged with another reading of the clock.
It is refused for want of a record if more time than a ban lasts has passed in between.
A ban of less than a second is stored as one of no time at all.
-/

namespace PostGraph.MailProxy

open Foundation Smtp

/-- The time that passes within a call. -/
def Readings.gap (clock : Readings) : Duration := Instant.elapsed clock.first clock.second

/-- The clock does not go back, and advances by less than a second. -/
def Readings.Prompt (clock : Readings) : Prop :=
  clock.first ≤ clock.second ∧ clock.gap < Duration.fromSecs 1

instance (clock : Readings) : Decidable clock.Prompt :=
  inferInstanceAs (Decidable (clock.first ≤ clock.second ∧ clock.gap < Duration.fromSecs 1))

namespace Fail2Ban

theorem verdictOn_some_ne (fail2ban : Fail2Ban) (info : PeerInfo) :
    fail2ban.verdictOn (some info) ≠ .noRecord := by
  dsimp only [verdictOn]
  split
  · decide
  · split <;> decide

/-- The record that was just made is missing exactly if it is too old already. -/
theorem connectVerdict_ne_noRecord_iff (fail2ban : Fail2Ban) (peer : IpAddr) (clock : Readings) :
    fail2ban.connectVerdict peer clock ≠ .noRecord ↔ clock.gap ≤ fail2ban.maxAge := by
  have hrecent : (PeerInfo.touched (fail2ban.peers peer) clock.first).isRecent fail2ban.maxAge
      clock.second = true ↔ clock.gap ≤ fail2ban.maxAge := by
    rw [PeerInfo.isRecent, PeerInfo.touched_time, decide_eq_true_iff]
    rfl
  rw [connectVerdict_eq_verdictOn, Option.filter_some, ← hrecent]
  split
  next h => exact iff_of_true (fail2ban.verdictOn_some_ne _) h
  next h => exact iff_of_false (fun hne => hne rfl) h

end Fail2Ban

/-- With bans of this duration, no peer that connects is without a record. -/
def AlwaysRecorded (maxAge : Duration) : Prop :=
  ∀ (fail2ban : Fail2Ban) (peer : IpAddr) (clock : Readings), fail2ban.maxAge = maxAge →
    clock.Prompt → fail2ban.connectVerdict peer clock ≠ .noRecord

theorem alwaysRecorded_iff {maxAge : Duration} :
    AlwaysRecorded maxAge ↔ Duration.fromSecs 1 ≤ maxAge + 1 := by
  constructor
  · intro halways
    -- the clock advances by one more than a ban lasts
    by_contra hshort
    have hprompt : (⟨0, maxAge + 1⟩ : Readings).Prompt :=
      ⟨Nat.zero_le _, Nat.lt_of_not_le hshort⟩
    have hverdict := halways (.new 0 0 maxAge) (.v4 0) ⟨0, maxAge + 1⟩ rfl hprompt
    rw [Fail2Ban.connectVerdict_ne_noRecord_iff] at hverdict
    exact Nat.not_succ_le_self maxAge hverdict
  · rintro hlong fail2ban peer clock rfl ⟨-, hgap⟩
    rw [Fail2Ban.connectVerdict_ne_noRecord_iff]
    exact Nat.le_of_lt_succ (Nat.lt_of_lt_of_le hgap hlong)

theorem effective_banDuration (file : ConfigFile) :
    file.smtp.getEffectiveFail2banConfig.2.2 = file.banDuration.getD defaultFail2banDuration := by
  unfold SMTPServerConfig.getEffectiveFail2banConfig ConfigFile.banDuration
  cases file.smtp.fail2ban <;> rfl

/-- A duration of a second or more is still one once it is stored, and any other one
is stored as none. -/
theorem fromSecs_le_stored_iff {duration : Duration} :
    Duration.fromSecs 1 ≤ Duration.fromSecs duration.asSecs + 1 ↔
      Duration.fromSecs 1 ≤ duration := by
  have hnat : ∀ nanoseconds : Nat, 1 * 1000000000 ≤ nanoseconds / 1000000000 * 1000000000 + 1 ↔
      1 * 1000000000 ≤ nanoseconds := by
    intro nanoseconds
    omega
  exact hnat duration

/-- A peer that connects has no record exactly if more time than a ban lasts passes
within the call. With a configuration as it is stored, this does not happen exactly if
its bans last a second or more. -/
theorem connect_recorded_iff (fail2ban : Fail2Ban) (peer : IpAddr) (clock : Readings)
    (file : ConfigFile) :
    (fail2ban.connectVerdict peer clock ≠ .noRecord ↔ clock.gap ≤ fail2ban.maxAge) ∧
      (AlwaysRecorded file.wholeSeconds.smtp.getEffectiveFail2banConfig.2.2 ↔
        ∀ duration ∈ file.banDuration, Duration.fromSecs 1 ≤ duration) := by
  refine ⟨fail2ban.connectVerdict_ne_noRecord_iff peer clock, ?_⟩
  rw [alwaysRecorded_iff, effective_banDuration, file.wholeSeconds_banDuration]
  cases file.banDuration with
  | none => exact iff_of_true (by decide) nofun
  | some duration =>
      rw [Option.map_some, Option.getD_some, fromSecs_le_stored_iff]
      simp

/-- The user has set a ban of half a second. -/
def briefBan : ConfigFile :=
  { ConfigFile.empty with smtp.fail2ban := some ⟨none, none, some 500000000⟩ }

/-- The server refuses its first client, whose record is a nanosecond old. -/
theorem brief_ban_refuses :
    let (maxConnections, maxFails, maxAge) :=
      briefBan.wholeSeconds.smtp.getEffectiveFail2banConfig
    let fail2ban := Fail2Ban.new maxConnections maxFails maxAge
    let clock : Readings := ⟨0, 1⟩
    clock.Prompt ∧ fail2ban.connectVerdict (.v4 1) clock = .noRecord ∧
      (ProxyHandler.unconfigured.onConnect (.v4 1) clock fail2ban).1 = .ok .reject := by
  decide

end PostGraph.MailProxy
