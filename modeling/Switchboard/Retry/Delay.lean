import Switchboard.Duration
import Switchboard.Number.Shortest

/-!
# Delays between attempts

A delay is always the same, or grows by a factor after every attempt up to a limit.  Growth is
computed in floating point on whole milliseconds; a product that is no number or reaches the limit
becomes the limit.

## Main definitions

- `Retry.Delay` — a rule for the pause before the next attempt
- `Retry.Delay.afterAttempt` — the pause after so many attempts
-/

namespace Switchboard.Retry

/-- A rule for the pause before the next attempt. -/
inductive Delay where
  | fixed (pause : Duration)
  | exponential (initial : Duration) (multiplier : Binary) (limit : Duration)
  deriving DecidableEq

namespace Delay

/-- No pause. -/
def none : Delay := .fixed .zero

/-- 50 milliseconds, doubling up to 5 seconds. -/
def standard : Delay :=
  .exponential (.ofMillis 50) (.ofNat .double 2) (.ofMillis 5000)

/-- The largest exponent that a factor is raised to. -/
def maxExponent : Nat := 0x7FFFFFFF

/-- The pause after the attempt with this number, the first one being number 1. -/
def afterAttempt (delay : Delay) (attempt : UInt32) : Duration :=
  match delay with
  | .fixed pause => pause
  | .exponential initial multiplier limit =>
    let exponent := min (attempt.toNat - 1) maxExponent
    let factor := multiplier.power .double exponent
    let millis := (Binary.ofNat .double initial.millis).mul .double factor
    if millis.isFinite && millis.lt (.ofNat .double limit.millis) then .ofMillis millis.truncate
    else limit

/-- The text of a delay. -/
def inspect : Delay → String
  | .fixed pause => "Fixed(" ++ pause.inspect ++ ")"
  | .exponential initial multiplier limit =>
    "Exponential \x7b initial: " ++ initial.inspect ++ ", multiplier: " ++
      multiplier.inspect .double ++ ", max: " ++ limit.inspect ++ " \x7d"

end Delay

end Switchboard.Retry
