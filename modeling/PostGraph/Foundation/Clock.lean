import Mathlib.Tactic.Basic

/-! # A monotone clock

Points in time and durations count nanoseconds.
-/

namespace Foundation

abbrev Instant := Nat

abbrev Duration := Nat

namespace Duration

def asSecs (duration : Duration) : Nat := duration / 1000000000

def fromSecs (seconds : Nat) : Duration := seconds * 1000000000

def fromMins (minutes : Nat) : Duration := minutes * 60 * 1000000000

theorem asSecs_fromSecs (seconds : Nat) : (fromSecs seconds).asSecs = seconds :=
  Nat.mul_div_cancel seconds (by decide)

end Duration

/-- The time that has passed since an instant, and none if it lies ahead. -/
def Instant.elapsed (since now : Instant) : Duration := now - since

@[simp] theorem Instant.elapsed_self (now : Instant) : Instant.elapsed now now = 0 :=
  Nat.sub_self now

theorem Instant.elapsed_le_iff {since now : Instant} {duration : Duration} :
    Instant.elapsed since now ≤ duration ↔ now ≤ since + duration :=
  Nat.sub_le_iff_le_add'

end Foundation
