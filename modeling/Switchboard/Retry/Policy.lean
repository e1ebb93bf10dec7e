import Switchboard.Fault
import Switchboard.Retry.Delay

/-!
# Retry policies

A policy is a list of rules.  A rule allows another attempt after a fault that it matches, as long
as fewer attempts were made than it grants; the first rule that allows one fixes the pause.

## Main definitions

- `Retry.Condition` — which faults a rule matches
- `Retry.Rule`, `Retry.Policy` — rules and lists of them
- `Retry.Policy.pauseAfter?` — the pause before another attempt, or `none` to give up
-/

namespace Switchboard.Retry

/-- A test on faults. -/
abbrev Condition := Fault → Bool

namespace Condition

/-- The network or a connection went away. -/
def network : Condition := Fault.isNetwork

/-- The called function does not exist. -/
def noSuchProcedure : Condition := Fault.isNoSuchProcedure

/-- Either of two conditions. -/
def or (a b : Condition) : Condition := fun f => a f || b f

end Condition

/-- Allows another attempt after faults that match, up to a number of attempts in all. -/
structure Rule where
  condition : Condition
  maxAttempts : UInt32
  delay : Delay

namespace Rule

/-- The pause before another attempt after the fault ended the attempt with this number. -/
def pauseAfter? (r : Rule) (fault : Fault) (attempt : UInt32) : Option Duration :=
  if attempt < r.maxAttempts && r.condition fault then some (r.delay.afterAttempt attempt) else none

/-- The text of a rule. -/
def inspect (r : Rule) : String :=
  "RetryRule \x7b predicate: ErrorPredicate, max_attempts: " ++ toString r.maxAttempts.toNat ++
    ", delay: " ++ r.delay.inspect ++ " \x7d"

end Rule

/-- A list of rules. -/
structure Policy where
  rules : List Rule

namespace Policy

/-- Never another attempt. -/
def never : Policy := ⟨[]⟩

/-- The pause before another attempt after the fault ended the attempt with this number, by the
first rule that allows one. -/
def pauseAfter? (p : Policy) (fault : Fault) (attempt : UInt32) : Option Duration :=
  p.rules.findSome? fun r => r.pauseAfter? fault attempt

/-- No more attempts than this are ever made. -/
def maxAttempts (p : Policy) : Nat :=
  p.rules.foldl (fun n r => max n r.maxAttempts.toNat) 1

/-- The text of a policy. -/
def inspect (p : Policy) : String :=
  "RetryPolicy \x7b rules: [" ++ ", ".intercalate (p.rules.map Rule.inspect) ++ "] \x7d"

end Policy

end Switchboard.Retry
