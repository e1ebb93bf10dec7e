import Switchboard.Retry.Attempts

/-!
# Scripted dispatchers

A dispatcher whose answers are given in advance, each with the time it takes, and which keeps a
record of the requests that it was asked for.

## Main definitions

- `Retry.Reply` — an answer given in advance
- `Retry.Scripted` — the answers still to come and the record
- `Retry.Scripted.dispatch` — the dispatcher
-/

namespace Switchboard.Retry

/-- An answer given in advance, and the milliseconds that it takes. -/
structure Reply where
  outcome : Outcome
  after : Nat

/-- The answers still to come, of which the last repeats, and the requests so far with the
millisecond of each, latest first. -/
structure Scripted where
  replies : List Reply
  requests : List (Nat × Request)

namespace Scripted

/-- A script from its beginning. -/
def start (replies : List Reply) : Scripted := ⟨replies, []⟩

/-- The requests so far, in order. -/
def dispatched (s : Scripted) : List (Nat × Request) := s.requests.reverse

/-- Answers the request with the next answer of the script. -/
def dispatch : Dispatch Scripted := fun request now s =>
  let requests := (now, request) :: s.requests
  match s.replies with
  | [] => (.error (.transport "no answer left"), now, ⟨[], requests⟩)
  | [last] => (last.outcome, now + last.after, ⟨[last], requests⟩)
  | next :: rest => (next.outcome, now + next.after, ⟨rest, requests⟩)

end Scripted

end Switchboard.Retry
