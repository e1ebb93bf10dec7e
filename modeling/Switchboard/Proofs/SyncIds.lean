import Mathlib.Data.List.Nodup
import Switchboard.SyncIds

/-!
# The cycle of sync ids

A generator runs through all words but 0 before it repeats itself, wherever it starts.

## Main definitions

- `SyncIds.cycle` — how many different ids there are
- `SyncIds.advance` — a generator after it has handed out some ids
- `SyncIds.nth` — the id that it hands out after so many others

## Main statements

- `SyncIds.toNat_nth` — the ids in closed form
- `SyncIds.nth_inj` — ids that are drawn within one cycle differ
- `SyncIds.exists_nth_eq` — every word but 0 is drawn within one cycle
- `SyncIds.nodup_take` — the ids of one cycle are distinct
-/

namespace Switchboard.SyncIds

/-- How many different ids there are: all words but 0. -/
def cycle : ℕ := 0xFFFFFFFFFFFFFFFF

/-- The generator after it has handed out `count` ids. -/
def advance : ℕ → SyncIds → SyncIds
  | 0, g => g
  | count + 1, g => advance count g.next.2

/-- The id that the generator hands out after `count` others. -/
def nth (g : SyncIds) (count : ℕ) : UInt64 :=
  (advance count g).next.1

theorem advance_succ (count : ℕ) (g : SyncIds) :
    advance (count + 1) g = (advance count g).next.2 := by
  induction count generalizing g with
  | zero => rfl
  | succ count ih => exact ih g.next.2

theorem nth_succ (g : SyncIds) (count : ℕ) : g.nth (count + 1) = g.next.2.nth count := rfl

theorem toNat_after (last : UInt64) : (after last).toNat = last.toNat % cycle + 1 := by
  have hlt := last.toNat_lt
  have hall : (0xFFFFFFFFFFFFFFFF : UInt64).toNat = 0xFFFFFFFFFFFFFFFF := rfl
  have hone : (1 : UInt64).toNat = 1 := rfl
  unfold after cycle
  split
  · next h =>
    rw [h, hone, hall]
  · next h =>
    have hne : last.toNat ≠ 0xFFFFFFFFFFFFFFFF := fun heq => h (UInt64.toNat_inj.mp heq)
    rw [UInt64.toNat_add, hone]
    omega

/-- The ids of a generator in closed form. -/
theorem toNat_nth (g : SyncIds) (count : ℕ) :
    (g.nth count).toNat = (g.last.toNat + count) % cycle + 1 := by
  induction count generalizing g with
  | zero => exact toNat_after g.last
  | succ count ih =>
    rw [nth_succ, ih]
    change ((after g.last).toNat + count) % cycle + 1 = _
    rw [toNat_after]
    unfold cycle
    omega

theorem nth_ne_zero (g : SyncIds) (count : ℕ) : g.nth count ≠ 0 :=
  after_ne_zero _

/-- Ids that are drawn within one cycle differ. -/
theorem nth_inj {g : SyncIds} {i j : ℕ} (hi : i < cycle) (hj : j < cycle)
    (h : g.nth i = g.nth j) : i = j := by
  have hnat := congrArg UInt64.toNat h
  rw [toNat_nth, toNat_nth] at hnat
  unfold cycle at hi hj hnat
  omega

/-- Every word but 0 is drawn within one cycle. -/
theorem exists_nth_eq (g : SyncIds) {id : UInt64} (h : id ≠ 0) : ∃ i < cycle, g.nth i = id := by
  have hlt := id.toNat_lt
  have hpos : id.toNat ≠ 0 := fun heq => h (UInt64.toNat_inj.mp heq)
  refine ⟨(id.toNat - 1 + (cycle - g.last.toNat % cycle)) % cycle, ?_, ?_⟩
  · exact Nat.mod_lt _ (by decide)
  · apply UInt64.toNat_inj.mp
    rw [toNat_nth]
    unfold cycle
    omega

theorem take_eq_map (count : ℕ) (g : SyncIds) : take count g = (List.range count).map g.nth := by
  induction count generalizing g with
  | zero => rfl
  | succ count ih =>
    rw [take, ih, List.range_succ_eq_map, List.map_cons, List.map_map]
    rfl

theorem mem_take {g : SyncIds} {count : ℕ} {id : UInt64} :
    id ∈ take count g ↔ ∃ i < count, g.nth i = id := by
  simp only [take_eq_map, List.mem_map, List.mem_range]

/-- The ids of one cycle are distinct, wherever it begins. -/
theorem nodup_take (g : SyncIds) {count : ℕ} (h : count ≤ cycle) : (take count g).Nodup := by
  rw [take_eq_map]
  refine List.Nodup.map_on (fun i hi j hj heq => ?_) List.nodup_range
  rw [List.mem_range] at hi hj
  exact nth_inj (by omega) (by omega) heq

end Switchboard.SyncIds
