import Switchboard.Inflight

/-!
# Scripts over requests in flight

A script is a list of operations on one set of requests in flight.  Every step is answered by a
report of what it returned, which waiters it completed, and what is pending afterwards.

## Main definitions

- `Inflight.Step`, `Inflight.Report` — an operation, and what is seen of it
- `Inflight.run` — the reports of a script
-/

namespace Switchboard.Inflight

open Wire

/-- An operation.  Generators of sync ids and waiters are known by number. -/
inductive Step where
  | next (generator : Nat)
  | register (generator : Nat) (code : RequestType) (deadline : Nat)
  | resolve (sync : UInt64) (outcome : Outcome)
  | cancel (sync : UInt64)
  | contains (sync : UInt64)
  | failAll (fault : Fault)
  | forget (waiter : Nat)

/-- What an operation returns. -/
inductive Result where
  | none
  | flag (b : Bool)
  | count (n : Nat)
  | sync (id : UInt64)

/-- What is seen of an operation: its result, the waiters it completed, each with its outcome or
`none` when there will be none, and the requests pending afterwards. -/
structure Report where
  result : Result
  delivered : List (Nat × Option Outcome)
  size : Nat
  syncs : List UInt64
  deadline : Option Nat

/-- The requests in flight, and the generators in use. -/
structure State where
  table : Inflight
  generators : Array SyncIds

/-- The generator with a number; a number that names none stands for a fresh one. -/
def State.generator (s : State) (index : Nat) : SyncIds :=
  s.generators.getD index .start

/-- What an operation returns and leaves. -/
def State.step (s : State) : Step → Result × State
  | .next generator =>
    let (id, g) := (s.generator generator).next
    (.sync id, { s with generators := s.generators.setIfInBounds generator g })
  | .register generator code deadline =>
    let (id, _, table, g) := s.table.register (s.generator generator) code deadline
    (.sync id, ⟨table, s.generators.setIfInBounds generator g⟩)
  | .resolve sync outcome =>
    let (found, table) := s.table.resolve sync outcome
    (.flag found, { s with table })
  | .cancel sync =>
    let (found, table) := s.table.cancel sync
    (.flag found, { s with table })
  | .contains sync => (.flag (s.table.contains sync), s)
  | .failAll fault =>
    let (count, table) := s.table.failAll fault
    (.count count, { s with table })
  | .forget waiter => (.none, { s with table := s.table.forget waiter })

/-- The waiters whose wait ended between two states of the slots, from the index on. -/
def completed (index : Nat) : List Slot → List Slot → List (Nat × Option Outcome)
  | .waiting :: before, .delivered outcome :: after =>
    (index, some outcome) :: completed (index + 1) before after
  | .waiting :: before, .severed :: after => (index, .none) :: completed (index + 1) before after
  | _ :: before, _ :: after => completed (index + 1) before after
  | _, _ => []

/-- What is seen of an operation that returned a result and took one state into another. -/
def report (result : Result) (before after : Inflight) : Report where
  result := result
  delivered := completed 0 before.slots.toList after.slots.toList
  size := after.size
  syncs := after.syncs.mergeSort
  deadline := after.latestDeadline

/-- The reports of a script from a state on. -/
def runFrom : State → List Step → List Report
  | _, [] => []
  | s, step :: rest =>
    let (result, after) := s.step step
    report result s.table after.table :: runFrom after rest

/-- The reports of a script that begins with nothing in flight. -/
def run (generators : List SyncIds) (steps : List Step) : List Report :=
  runFrom ⟨.empty, (if generators.isEmpty then [.start] else generators).toArray⟩ steps

end Switchboard.Inflight
