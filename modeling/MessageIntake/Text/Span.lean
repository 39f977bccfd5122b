import MessageIntake.Number.Digits
import MessageIntake.Text.Inspection
import MessageIntake.Timeout

/-!
# The text of a span of time

A duration is written in the largest of four units that it reaches:
seconds, milliseconds, microseconds or nanoseconds, with the exact
decimal fraction and no zero at its end.
-/

namespace MessageIntake

/-- The fraction `part / 10 ^ places` after its point, without zeros at
the end; nothing when `part` is zero. -/
def Text.fraction (part places : Nat) : String :=
  let digits := (Nat.toDigits 10 part).leftpad places '0'
  match (digits.reverse.dropWhile (· = '0')).reverse with
  | [] => ""
  | shown => "." ++ String.ofList shown

/-- The duration in its unit. -/
def Duration.text (d : Duration) : String :=
  let part := fun whole places suffix =>
    toString (whole / Number.tenTo places) ++
      Text.fraction (whole % Number.tenTo places) places ++ suffix
  if 0 < d.secs then part d.nanos 9 "s"
  else if 1000000 ≤ d.nanos then part d.nanos 6 "ms"
  else if 1000 ≤ d.nanos then part d.nanos 3 "µs"
  else part d.nanos 0 "ns"

/-- The timeout for a developer. -/
def Timeout.inspect : Timeout → String
  | .infinite => "Infinite"
  | .after d => Text.variant "After" d.text

end MessageIntake
