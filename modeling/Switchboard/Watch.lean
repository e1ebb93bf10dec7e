/-!
# Watched values

A value that changes now and then, with a count of its changes, so that an observer can tell whether
it has seen the latest.

## Main definitions

- `Watch` — the value and its version
- `Watch.set` — a change
- `Watch.isUnseen` — has the value changed since the observer looked?
-/

namespace Switchboard

/-- A value with the count of its changes. -/
structure Watch (α : Type) where
  value : α
  version : Nat

namespace Watch

variable {α : Type}

/-- A value that has not changed yet. -/
def start (value : α) : Watch α := ⟨value, 0⟩

/-- The value changes; observers are told even when the new value equals the old one. -/
def set (w : Watch α) (value : α) : Watch α := ⟨value, w.version + 1⟩

/-- Has the value changed since an observer saw the version `seen`? -/
def isUnseen (w : Watch α) (seen : Nat) : Bool := seen ≠ w.version

/-- Whoever has seen the latest version has seen everything. -/
theorem isUnseen_version (w : Watch α) : w.isUnseen w.version = false := by
  simp [isUnseen]

/-- Every change is news to those who saw the version before. -/
theorem isUnseen_set (w : Watch α) (value : α) : (w.set value).isUnseen w.version = true := by
  simp [isUnseen, set]

end Watch

end Switchboard
