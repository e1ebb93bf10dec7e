/-!
# Sync ids

The numbers by which requests and replies of one connection are matched.  They count upwards from 1
and begin again at 1 after the largest word; 0 is never handed out.

## Main definitions

- `SyncIds` — a generator, by the id it handed out last
- `SyncIds.next` — the next id, and the generator afterwards

## Main statements

- `SyncIds.after_ne_zero` — no id is 0
-/

namespace Switchboard

/-- A generator of sync ids. -/
structure SyncIds where
  last : UInt64
  deriving Repr, DecidableEq, Inhabited

namespace SyncIds

/-- A generator that has handed out nothing. -/
def start : SyncIds := ⟨0⟩

/-- The id that follows `last`. -/
def after (last : UInt64) : UInt64 :=
  if last = 0xFFFFFFFFFFFFFFFF then 1 else last + 1

/-- No id is 0: the only word whose successor is 0 is the largest one. -/
theorem after_ne_zero (last : UInt64) : after last ≠ 0 := by
  unfold after
  split
  · decide
  · next h =>
    intro zero
    apply h
    have sum := congrArg UInt64.toNat zero
    rw [UInt64.toNat_add] at sum
    have small := last.toNat_lt
    apply UInt64.toNat_inj.mp
    have one : (1 : UInt64).toNat = 1 := rfl
    have none : (0 : UInt64).toNat = 0 := rfl
    have all : (0xFFFFFFFFFFFFFFFF : UInt64).toNat = 0xFFFFFFFFFFFFFFFF := rfl
    omega

/-- The next id, and the generator afterwards. -/
def next (g : SyncIds) : UInt64 × SyncIds :=
  (after g.last, ⟨after g.last⟩)

/-- The next `count` ids. -/
def take : Nat → SyncIds → List UInt64
  | 0, _ => []
  | count + 1, g => g.next.1 :: take count g.next.2

@[simp] theorem length_take (count : Nat) (g : SyncIds) : (take count g).length = count := by
  induction count generalizing g with
  | zero => rfl
  | succ count ih => rw [take, List.length_cons, ih]

end SyncIds

end Switchboard
