import PostGraph.MailProxy.Isolation

/-! # Old fails

A record has one counter of fails and one time, and each connection refreshes
the time. As long as a peer stays active, its record is kept and with it every
fail that the record ever counted, however old.
-/

namespace PostGraph.MailProxy

open Foundation Foundation.History Smtp

namespace PeerCall

variable {N : Type}

/-- When the call records a fail of the peer, if it does. -/
def failOf (peer : IpAddr) (fail2ban : Fail2Ban) : PeerCall N → Option Instant
  | connect _ _ _ => none
  | disconnect other clock handler =>
      if other = peer ∧ handler.productive = false ∧ (fail2ban.peers peer).isSome then
        some clock.first
      else none

/-- The times of the fails that the calls record of the peer. -/
def recorded (peer : IpAddr) : Fail2Ban → List (PeerCall N) → List Instant
  | _, [] => []
  | fail2ban, call :: rest =>
      (failOf peer fail2ban call).toList ++ recorded peer (call.run fail2ban) rest

/-- The peer's calls follow each other within the given time. -/
def StaysActive (maxAge : Duration) (peer : IpAddr) (calls : List (PeerCall N)) : Prop :=
  ((calls.filter (·.peer = peer)).map time).IsChain fun earlier later =>
    earlier ≤ later ∧ later ≤ earlier + maxAge

/-- Those of the times that are not too long ago. -/
def recent (maxAge : Duration) (now : Instant) (times : List Instant) : List Instant :=
  times.filter fun time => Instant.elapsed time now ≤ maxAge

/-- If the peer connects and has too many fails, it has as many recent ones. -/
def ForgetsOld (peer : IpAddr) (start : Fail2Ban) (before : List (PeerCall N)) :
    PeerCall N → Prop
  | connect other clock _ => other = peer →
      (store start before).connectVerdict peer clock = .tooManyFails →
      start.maxFails.toNat <
        (recent start.maxAge clock.second (recorded peer start before)).length
  | disconnect _ _ _ => True

/-- If the peer connects, it disconnected from at most that many unproductive
sessions since its record began, or from more of them not too long ago. Their
number has 32 bits. -/
def FailsRecently (maxFails : UInt32) (maxAge : Duration) (peer : IpAddr)
    (before : List (PeerCall N)) (call : PeerCall N) : Prop :=
  match call with
  | connect other clock _ => other = peer →
      ∀ stretch ∈ stretchOf maxAge peer (before ++ [call]),
        .ofNat stretch.fails.length ≤ maxFails ∨
          maxFails.toNat < (recent maxAge clock.second stretch.fails).length
  | disconnect _ _ _ => True

instance (maxAge : Duration) (peer : IpAddr) (calls : List (PeerCall N)) :
    Decidable (StaysActive maxAge peer calls) :=
  inferInstanceAs (Decidable (List.IsChain _ _))

instance (peer : IpAddr) (start : Fail2Ban) (before : List (PeerCall N)) (call : PeerCall N) :
    Decidable (ForgetsOld peer start before call) :=
  match call with
  | connect other clock _ => inferInstanceAs (Decidable (other = peer →
      (store start before).connectVerdict peer clock = .tooManyFails → _ < _))
  | disconnect _ _ _ => .isTrue trivial

instance (maxFails : UInt32) (maxAge : Duration) (peer : IpAddr) (before : List (PeerCall N))
    (call : PeerCall N) : Decidable (FailsRecently maxFails maxAge peer before call) :=
  match call with
  | connect other clock handler => inferInstanceAs (Decidable (other = peer →
      ∀ stretch ∈ stretchOf maxAge peer (before ++ [connect other clock handler]), _ ∨ _))
  | disconnect _ _ _ => .isTrue trivial

theorem recorded_concat (peer : IpAddr) (fail2ban : Fail2Ban) (calls : List (PeerCall N))
    (call : PeerCall N) : recorded peer fail2ban (calls ++ [call]) =
      recorded peer fail2ban calls ++ (failOf peer (store fail2ban calls) call).toList := by
  induction calls generalizing fail2ban with
  | nil => exact List.append_nil _
  | cons first rest ih =>
      rw [List.cons_append, recorded, recorded, ih, List.append_assoc]
      rfl

/-- A fail is recorded at a reading of the clock. -/
theorem mem_readings_of_failOf {peer : IpAddr} {fail2ban : Fail2Ban} {call : PeerCall N}
    {time : Instant} (h : failOf peer fail2ban call = some time) : time ∈ call.readings := by
  cases call with
  | connect other clock handler => cases h
  | disconnect other clock handler =>
      obtain ⟨-, htime⟩ := Option.ite_none_right_eq_some.mp h
      exact List.mem_singleton.mpr (Option.some.inj htime).symm

theorem mem_readings_of_recorded {peer : IpAddr} {fail2ban : Fail2Ban} {calls : List (PeerCall N)}
    {time : Instant} (h : time ∈ recorded peer fail2ban calls) :
    time ∈ calls.flatMap readings := by
  induction calls generalizing fail2ban with
  | nil => exact h
  | cons call rest ih =>
      rw [List.flatMap_cons, List.mem_append]
      rcases List.mem_append.mp h with hcall | hrest
      · exact .inl (mem_readings_of_failOf (Option.mem_toList.mp hcall))
      · exact .inr (ih hrest)

/-- The times end with the fails since the record began, and the others come
before it. -/
structure EndsWith (times : List Instant) (stretch : Stretch) : Prop where
  earlier : ∃ before, times = before ++ stretch.fails ∧ ∀ time ∈ before, time ≤ stretch.began
  later : ∀ time ∈ stretch.fails, stretch.began ≤ time

theorem EndsWith.add {times : List Instant} {stretch : Stretch} (h : EndsWith times stretch)
    {event : PeerEvent} (hlater : ∀ time ∈ event.failed, stretch.began ≤ time) :
    EndsWith (times ++ event.failed.toList) (stretch.add event) := by
  obtain ⟨before, rfl, hbefore⟩ := h.earlier
  constructor
  · exact ⟨before, by rw [Stretch.add_fails, List.append_assoc], hbefore⟩
  · rw [Stretch.add_fails, List.forall_mem_append]
    exact ⟨h.later, fun time htime => hlater time (Option.mem_toList.mp htime)⟩

/-- If many fails stand in the record, the earlier ones make no difference to
whether many of them are recent. -/
theorem EndsWith.lt_recent_iff {times : List Instant} {stretch : Stretch}
    (h : EndsWith times stretch) {maxAge : Duration} {now : Instant} {n : Nat}
    (hmany : n < stretch.fails.length) :
    n < (recent maxAge now times).length ↔ n < (recent maxAge now stretch.fails).length := by
  obtain ⟨before, rfl, hbefore⟩ := h.earlier
  have happend : recent maxAge now (before ++ stretch.fails) =
      recent maxAge now before ++ recent maxAge now stretch.fails := List.filter_append ..
  rw [happend, List.length_append]
  by_cases hall : ∀ time ∈ stretch.fails, Instant.elapsed time now ≤ maxAge
  · have hself : recent maxAge now stretch.fails = stretch.fails :=
      List.filter_eq_self.mpr fun time htime => decide_eq_true (hall time htime)
    rw [hself]
    exact iff_of_true (Nat.lt_add_left _ hmany) hmany
  · -- What came before the record is older than the fail that is too old.
    push Not at hall
    obtain ⟨old, hold, htime⟩ := hall
    have hnone : recent maxAge now before = [] := by
      refine List.filter_eq_nil_iff.mpr fun time hmem => ?_
      have hle := (hbefore time hmem).trans (h.later old hold)
      rw [decide_eq_true_eq, Nat.not_le]
      exact Nat.lt_of_lt_of_le htime (Nat.sub_le_sub_left hle now)
    rw [hnone, List.length_nil, Nat.zero_add]

/-- While the peer has a record, the fails that its calls record are its
disconnects from unproductive sessions. -/
theorem failOf_eq {start : Fail2Ban} {peer : IpAddr} (hstart : start.peers peer = none)
    {calls : List (PeerCall N)} {stretch : Stretch}
    (h : stretch ∈ stretchOf start.maxAge peer calls) (call : PeerCall N) :
    failOf peer (store start calls) call = (eventOf peer call).bind PeerEvent.failed := by
  cases call with
  | connect other clock handler =>
      rw [eventOf]
      split <;> rfl
  | disconnect other clock handler =>
      have hrecord : ((store start calls).peers peer).isSome := by
        rw [store_peers_eq hstart calls, Option.isSome_map, Option.mem_def.mp h]
        rfl
      by_cases hother : other = peer <;> cases hproductive : handler.productive <;>
        simp [failOf, eventOf, PeerEvent.failed, hother, hproductive, hrecord]

/-- Under a clock that never goes back, the recorded fails end with those since
the record began. -/
theorem endsWith_recorded {start : Fail2Ban} {peer : IpAddr} (hstart : start.peers peer = none)
    {calls : List (PeerCall N)} (hclock : Chronological calls) {stretch : Stretch}
    (h : stretch ∈ stretchOf start.maxAge peer calls) :
    EndsWith (recorded peer start calls) stretch := by
  induction calls using List.reverseRecOn generalizing stretch with
  | nil => cases h
  | append_singleton calls call ih =>
      rw [Chronological, List.flatMap_append, List.flatMap_singleton,
        List.pairwise_append] at hclock
      obtain ⟨hbefore, -, hle⟩ := hclock
      rw [recorded_concat]
      rcases mem_stretchOf_concat h with ⟨clock, handler, rfl, rfl⟩ | ⟨kept, hkept, rfl⟩
      · rw [failOf, Option.toList_none, List.append_nil]
        refine ⟨⟨_, (List.append_nil _).symm, fun time htime => ?_⟩, nofun⟩
        exact hle time (mem_readings_of_recorded htime) clock.first List.mem_cons_self
      · rw [failOf_eq hstart hkept]
        cases hevent : eventOf peer call with
        | none => exact (List.append_nil _).symm ▸ ih hbefore hkept
        | some event =>
            refine (ih hbefore hkept).add fun time htime => ?_
            exact hle _ (began_mem_readings hkept) _ (failed_mem_readings hevent htime)

theorem verdictOn_eq_tooManyFails_iff (fail2ban : Fail2Ban) (info : PeerInfo) :
    fail2ban.verdictOn (some info) = .tooManyFails ↔ fail2ban.maxFails < info.fails := by
  rw [Fail2Ban.verdictOn]
  split
  next hmany => exact iff_of_true rfl hmany
  next hfew =>
    refine iff_of_false (fun h => ?_) hfew
    split at h <;> cases h

/-- On a call of the peer, what the fails of the record say about all of them. -/
theorem forgetsOld_iff {start : Fail2Ban} {peer : IpAddr} (hstart : start.peers peer = none)
    {before : List (PeerCall N)} {call : PeerCall N} (hclock : Chronological (before ++ [call])) :
    ForgetsOld peer start before call ↔
      FailsRecently start.maxFails start.maxAge peer before call := by
  cases call with
  | disconnect other clock handler => rfl
  | connect other clock handler =>
      apply imp_congr_right
      rintro rfl
      have hlimits := store_limits start before
      simp only [Fail2Ban.limits, Prod.mk.injEq] at hlimits
      rw [connectVerdict_eq_run _ _ _ handler, ← store_concat, store_peers_eq hstart]
      have hends : ∀ {stretch : Stretch}, stretch ∈ stretchOf start.maxAge other
          (before ++ [connect other clock handler]) →
          EndsWith (recorded other start before) stretch := by
        intro stretch hstretch
        have hrecorded := endsWith_recorded hstart hclock hstretch
        rwa [recorded_concat, failOf, Option.toList_none, List.append_nil] at hrecorded
      cases hafter : stretchOf start.maxAge other (before ++ [connect other clock handler]) with
      | none => exact iff_of_true (fun h => by cases h) fun _ h => by cases h
      | some stretch =>
          rw [Option.map_some, verdictOn_eq_tooManyFails_iff, hlimits.2.1]
          have hstretch : (∀ stretch' ∈ some stretch,
              .ofNat stretch'.fails.length ≤ start.maxFails ∨ start.maxFails.toNat <
                (recent start.maxAge clock.second stretch'.fails).length) ↔
              (start.maxFails < stretch.info.fails → start.maxFails.toNat <
                (recent start.maxAge clock.second stretch.fails).length) := by
            simp [Stretch.info, or_iff_not_imp_left, UInt32.not_le]
          rw [hstretch]
          refine imp_congr_right fun hmany => (hends hafter).lt_recent_iff ?_
          exact Nat.lt_of_lt_of_le (UInt32.lt_iff_toNat_lt.mp hmany) (Nat.mod_le _ _)

/-- For every configuration and every run of calls under a clock that never goes
back, and for every peer that stays active: on connecting it has too many fails
only if it has as many recent ones, if and only if on connecting, since its
record began, it failed at most that many times or as many times recently. -/
theorem old_fails_forgotten_iff (maxConnections maxFails : UInt32) (maxAge : Duration)
    (peer : IpAddr) (calls : List (PeerCall N)) (hclock : Chronological calls) :
    (StaysActive maxAge peer calls →
      Justified (ForgetsOld peer (.new maxConnections maxFails maxAge)) calls) ↔
    (StaysActive maxAge peer calls →
      Justified (FailsRecently maxFails maxAge peer) calls) := by
  have hiff : ∀ before call after, calls = before ++ call :: after →
      (ForgetsOld peer (.new maxConnections maxFails maxAge) before call ↔
        FailsRecently maxFails maxAge peer before call) := by
    rintro before call after rfl
    rw [← List.singleton_append, ← List.append_assoc, Chronological, List.flatMap_append] at hclock
    exact forgetsOld_iff rfl (List.pairwise_append.mp hclock).1
  apply imp_congr_right
  intro _
  constructor
  · exact fun h before call after hsplit => (hiff before call after hsplit).mp
      (h before call after hsplit)
  · exact fun h before call after hsplit => (hiff before call after hsplit).mpr
      (h before call after hsplit)

/-- A peer that fails twice in a short time. -/
def twiceInShort : List (PeerCall Unit) :=
  [.connect (.v4 1) ⟨0, 0⟩ .unconfigured, .disconnect (.v4 1) ⟨1, 1⟩ .unconfigured,
    .connect (.v4 1) ⟨2, 2⟩ .unconfigured, .disconnect (.v4 1) ⟨3, 3⟩ .unconfigured,
    .connect (.v4 1) ⟨4, 4⟩ .unconfigured]

theorem old_fails_forgotten_twice_in_short :
    (store (.new 5 1 10) (twiceInShort.take 4)).connectVerdict (.v4 1) ⟨4, 4⟩ = .tooManyFails ∧
      Justified (ForgetsOld (.v4 1) (.new 5 1 10)) twiceInShort :=
  ⟨by decide, (old_fails_forgotten_iff 5 1 10 (.v4 1) twiceInShort (by decide)).mpr
    (fun _ => by decide) (by decide)⟩

/-- A peer that fails now and then. -/
def nowAndThen : List (PeerCall Unit) :=
  [.connect (.v4 1) ⟨0, 0⟩ .unconfigured, .disconnect (.v4 1) ⟨1, 1⟩ .unconfigured,
    .connect (.v4 1) ⟨9, 9⟩ .unconfigured, .disconnect (.v4 1) ⟨10, 10⟩ .unconfigured,
    .connect (.v4 1) ⟨18, 18⟩ .unconfigured]

/-- Its first fail is too old when it has too many. -/
theorem old_fail_still_counted :
    ¬ (StaysActive 10 (.v4 1) nowAndThen →
      Justified (ForgetsOld (.v4 1) (.new 5 1 10)) nowAndThen) := by
  decide

end PeerCall

end PostGraph.MailProxy
