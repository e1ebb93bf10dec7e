/-!
# Selection strategies

A strategy picks the index of the next candidate out of so many.  It sees their number only.

## Main definitions

- `Strategy` — the strategies by name
- `Selector` — a strategy with the cursors it keeps
- `Selector.pick` — the next index, and the selector afterwards

## Main statements

- `Selector.exists_pick` — whenever there are candidates one of them is picked
-/

namespace Switchboard

/-- The ways to pick among candidates. -/
inductive Strategy where
  /-- one cursor for all callers -/
  | roundRobin
  /-- one cursor for each shard of callers -/
  | parallelRoundRobin
  /-- any candidate -/
  | random
  deriving Repr, DecidableEq

namespace Strategy

/-- The name of a strategy. -/
def name : Strategy → String
  | .roundRobin => "round-robin"
  | .parallelRoundRobin => "parallel-round-robin"
  | .random => "random"

/-- The strategy with a given name. -/
def ofName? (name : String) : Option Strategy :=
  [roundRobin, parallelRoundRobin, random].find? fun s => s.name = name

/-- The wording of a name that no strategy has. -/
def unknownName (name : String) : String :=
  "unknown selection strategy '" ++ name ++ "'"

/-- The text of a strategy in a configuration. -/
def inspect : Strategy → String
  | .roundRobin => "RoundRobin"
  | .parallelRoundRobin => "ParallelRoundRobin"
  | .random => "Random"

end Strategy

/-- A strategy with the cursors it keeps. -/
inductive Selector where
  | roundRobin (cursor : UInt64)
  | parallelRoundRobin (cursors : List UInt64)
  | random
  deriving Repr, DecidableEq

namespace Selector

/-- One cursor for each of `count` shards, at least one, each starting at its own offset. -/
def sharded (count : Nat) : Selector :=
  .parallelRoundRobin ((List.range (max count 1)).map Nat.toUInt64)

/-- A fresh selector for a strategy. -/
def ofStrategy : Strategy → Selector
  | .roundRobin => .roundRobin 0
  | .parallelRoundRobin => .sharded 1
  | .random => .random

/-- The index that a cursor points at. -/
def index (cursor : UInt64) (count : Nat) : Nat :=
  cursor.toNat % count

theorem index_lt (cursor : UInt64) {count : Nat} (h : 0 < count) : index cursor count < count :=
  Nat.mod_lt _ h

/-- The index of the next candidate out of `count`, and the selector afterwards.  `shard` is the
caller's shard and `draw` the number that a random choice goes by.  Without candidates nothing is
picked and no cursor moves. -/
def pick (s : Selector) (shard draw count : Nat) : Option Nat × Selector :=
  if count = 0 then (none, s)
  else
    match s with
    | .roundRobin cursor => (some (index cursor count), .roundRobin (cursor + 1))
    | .parallelRoundRobin cursors =>
      let here := shard % cursors.length
      let cursor := cursors.getD here 0
      (some (index cursor count), .parallelRoundRobin (cursors.set here (cursor + 1)))
    | .random => (some (draw % count), s)

/-- Whenever there are candidates one of them is picked. -/
theorem exists_pick {count : Nat} (h : 0 < count) (s : Selector) (shard draw : Nat) :
    ∃ i < count, (s.pick shard draw count).1 = some i := by
  unfold pick
  rw [if_neg (Nat.ne_of_gt h)]
  cases s with
  | roundRobin cursor => exact ⟨_, index_lt cursor h, rfl⟩
  | parallelRoundRobin cursors => exact ⟨_, index_lt _ h, rfl⟩
  | random => exact ⟨_, Nat.mod_lt draw h, rfl⟩

/-- The indices picked for a sequence of counts. -/
def pickAll (shard draw : Nat) : Selector → List Nat → List (Option Nat)
  | _, [] => []
  | s, count :: rest =>
    let (picked, next) := s.pick shard draw count
    picked :: pickAll shard draw next rest

end Selector

end Switchboard
