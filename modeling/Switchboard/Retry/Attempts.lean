import Switchboard.Inflight
import Switchboard.Request
import Switchboard.Retry.Policy

/-!
# Attempts

Dispatching a request again and again as a policy allows.  The dispatcher is any state that answers
a request; the pauses are taken on a clock of milliseconds.

## Main definitions

- `Retry.Dispatch` — a dispatcher as a function on its state
- `Retry.attempts` — the outcome of a request under a policy
-/

namespace Switchboard.Retry

/-- A dispatcher: it takes a request at a millisecond and gives the outcome, the millisecond of the
outcome, and its state afterwards. -/
abbrev Dispatch (σ : Type) := Request → Nat → σ → Outcome × Nat × σ

/-- Dispatches the request as attempt number `attempt`, and as often again as the policy allows, but
at most `fuel` times more. -/
def attemptsFrom {σ : Type} (policy : Policy) (dispatch : Dispatch σ) (request : Request) :
    Nat → UInt32 → Nat → σ → Outcome × Nat × σ
  | 0, _, now, s => dispatch request now s
  | fuel + 1, attempt, now, s =>
    match dispatch request now s with
    | (.ok body, now, s) => (.ok body, now, s)
    | (.error fault, now, s) =>
      match policy.pauseAfter? fault attempt with
      | none => (.error fault, now, s)
      | some pause =>
        attemptsFrom policy dispatch request fuel (attempt + 1) (now + pause.millisUp) s

/-- The outcome of a request under a policy, when it is there, and the dispatcher's state
afterwards. -/
def attempts {σ : Type} (policy : Policy) (dispatch : Dispatch σ) (request : Request) (now : Nat)
    (s : σ) : Outcome × Nat × σ :=
  attemptsFrom policy dispatch request (policy.maxAttempts - 1) 1 now s

end Switchboard.Retry
