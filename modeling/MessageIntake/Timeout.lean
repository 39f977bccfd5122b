/-!
# Durations, instants and timeouts

A duration is a number of nanoseconds; an instant is one counted from a
fixed origin, and instants end at `Instant.bound`. A timeout either
never elapses or elapses a duration after it starts.

`Timeout.deadline_eq_none_iff` says which timeouts have no deadline: the
infinite one and those that would end past the last instant.
-/

namespace MessageIntake

/-- A span of time, in nanoseconds. -/
structure Duration where
  nanos : Nat
  deriving DecidableEq, Repr, Inhabited

namespace Duration

/-- Nanoseconds in a second. -/
def second : Nat := 1000000000

def ofSecs (secs nanos : Nat) : Duration := ⟨secs * second + nanos⟩

def ofMillis (millis : Nat) : Duration := ⟨millis * 1000000⟩

def zero : Duration := ⟨0⟩

/-- The longest duration: 64 bits of seconds, and all but a nanosecond
of another. -/
def longest : Duration := ofSecs (UInt64.size - 1) 999999999

/-- Whole seconds. -/
def secs (d : Duration) : Nat := d.nanos / second

/-- Nanoseconds past the whole seconds. -/
def subsecNanos (d : Duration) : Nat := d.nanos % second

end Duration

/-- A point in time, in nanoseconds from the origin of the clock. -/
abbrev Instant := Nat

/-- Instants have 63 bits of seconds. -/
def Instant.bound : Nat := UInt64.size / 2 * Duration.second

/-- How long a call may wait. -/
inductive Timeout where
  | infinite
  | after (duration : Duration)
  deriving DecidableEq, Repr

namespace Timeout

def zero : Timeout := .after .zero

instance : Inhabited Timeout := ⟨.infinite⟩

/-- A number of milliseconds; a negative one does not wait. -/
def ofMillis (millis : Int64) : Timeout :=
  .after (.ofMillis millis.toInt.toNat)

/-- The longest duration stands for waiting without end. -/
def ofDuration (d : Duration) : Timeout :=
  if d = .longest then .infinite else .after d

/-- When a timeout started at `start` elapses, if it ever does. -/
def deadline (t : Timeout) (start : Instant) : Option Instant :=
  match t with
  | .infinite => none
  | .after d => if start + d.nanos < Instant.bound then some (start + d.nanos) else none

/-- Whether waiting for `t` takes longer than `d`. -/
def exceeds (t : Timeout) (d : Duration) : Bool :=
  match t with
  | .infinite => true
  | .after wait => d.nanos < wait.nanos

@[simp] theorem deadline_infinite (start : Instant) : deadline .infinite start = none := rfl

theorem deadline_after (d : Duration) (start : Instant) (h : start + d.nanos < Instant.bound) :
    deadline (.after d) start = some (start + d.nanos) := by
  simp [deadline, h]

/-- A timeout has no deadline when it is infinite or would end past the
last instant. -/
theorem deadline_eq_none_iff (t : Timeout) (start : Instant) :
    t.deadline start = none ↔
      t = .infinite ∨ ∃ d, t = .after d ∧ Instant.bound ≤ start + d.nanos := by
  cases t with
  | infinite => simp
  | after d => simp [deadline]

theorem ofMillis_of_nonpos (millis : Int64) (h : millis.toInt ≤ 0) : ofMillis millis = zero := by
  simp [ofMillis, zero, Duration.ofMillis, Duration.zero, Int.toNat_of_nonpos h]

end Timeout

end MessageIntake
