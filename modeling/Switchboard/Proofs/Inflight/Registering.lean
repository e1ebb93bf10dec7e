import Switchboard.Proofs.Inflight.Table

/-!
# Registering requests

A new request takes the first id of the generator's cycle under which nothing is pending.  Ids are
drawn one after the other until such a one is found, and nothing bounds their number.  While some id
is vacant the drawing ends nevertheless: all ids before the last are pending, and ids repeat only
after a whole cycle.

## Main definitions

- `Inflight.Draws` — ids are drawn until one is vacant

## Main statements

- `Inflight.draws_iff` — which ids are drawn
- `Inflight.register_eq_of_firstVacant` — what registering leaves
- `Inflight.register_takes_first_vacant` — registering ends, with the first vacant id of the cycle
-/

namespace Switchboard.Inflight

/-! ### Drawing ids -/

/-- Ids are drawn from the generator, one in each round, until nothing is pending under the one
drawn.  They are listed, and the generator after the last of them. -/
inductive Draws (t : Inflight) : SyncIds → List UInt64 → SyncIds → Prop
  | found {g : SyncIds} (vacant : t.contains g.next.1 = false) : Draws t g [g.next.1] g.next.2
  | again {g g' : SyncIds} {drawn : List UInt64} (pending : t.contains g.next.1 = true)
    (rest : Draws t g.next.2 drawn g') : Draws t g (g.next.1 :: drawn) g'

variable {t : Inflight} {g g' : SyncIds} {drawn : List UInt64} {n : ℕ}

theorem FirstVacant.unique {m : ℕ} (hm : t.FirstVacant g m) (hn : t.FirstVacant g n) : m = n := by
  -- an id cannot be vacant for the one and pending for the other
  rcases Nat.lt_trichotomy m n with hlt | heq | hlt
  · exact absurd (hn.pending m hlt) (Bool.eq_false_iff.mp hm.vacant)
  · exact heq
  · exact absurd (hm.pending n hlt) (Bool.eq_false_iff.mp hn.vacant)

/-- Drawing ends with the first vacant id if there is one, and else it does not end. -/
theorem draws_iff : t.Draws g drawn g' ↔
    ∃ n, t.FirstVacant g n ∧ drawn = SyncIds.take (n + 1) g ∧ g' = ⟨g.nth n⟩ := by
  constructor
  · intro h
    induction h with
    | found vacant => exact ⟨0, firstVacant_zero_iff.mpr vacant, rfl, rfl⟩
    | again pending _ ih =>
      obtain ⟨n, hfirst, rfl, rfl⟩ := ih
      exact ⟨n + 1, firstVacant_succ_iff.mpr ⟨pending, hfirst⟩, rfl, rfl⟩
  · rintro ⟨n, hfirst, rfl, rfl⟩
    induction n generalizing g with
    | zero => exact .found hfirst.vacant
    | succ n ih =>
      obtain ⟨hpending, hrest⟩ := firstVacant_succ_iff.mp hfirst
      exact .again hpending (ih hrest)

theorem exists_draws_iff :
    (∃ drawn g', t.Draws g drawn g') ↔ ∃ id, id ≠ 0 ∧ t.contains id = false := by
  constructor
  · rintro ⟨drawn, g', h⟩
    obtain ⟨n, hfirst, -, -⟩ := draws_iff.mp h
    exact ⟨g.nth n, g.nth_ne_zero n, hfirst.vacant⟩
  · intro h
    obtain ⟨n, -, hfirst⟩ := exists_firstVacant h g
    exact ⟨_, _, draws_iff.mpr ⟨n, hfirst, rfl, rfl⟩⟩

/-! ### The request registered -/

/-- What registering a request returns and leaves. -/
theorem register_eq_of_firstVacant (h : t.FirstVacant g n) (hsize : n ≤ t.size)
    (code : Wire.RequestType) (deadline : ℕ) :
    t.register g code deadline = (g.nth n, t.slots.size,
      ⟨t.entries ++ [⟨g.nth n, code, deadline, t.slots.size⟩], t.slots.push .waiting⟩,
      ⟨g.nth n⟩) := by
  simp only [register, firstFree_of_firstVacant h hsize]

/-- An entry that is added under a vacant id is found there, and all others where they were. -/
theorem find?_append_of_not_contains {e : Pending} (h : t.contains e.sync = false)
    (slots : Array Slot) (id : UInt64) :
    find? ⟨t.entries ++ [e], slots⟩ id = if id = e.sync then some e else t.find? id := by
  have hfind : find? ⟨t.entries ++ [e], slots⟩ id =
      (t.find? id).or (if e.sync = id then some e else none) := by
    simp [find?, List.find?_append, List.find?_singleton]
  rw [hfind]
  split
  · next heq =>
    subst heq
    rw [find?_eq_none_iff.mpr (contains_eq_false_iff.mp h), if_pos rfl, Option.none_or]
  · next hne => rw [if_neg (Ne.symm hne), Option.or_none]

/-- From every state a generator hands out the numbers from 1 to `cycle` in turn, so 0 is never
among its ids and those of one cycle are distinct.

While some id is vacant, registering a request draws at most one id more than there are entries and
ends; the ids drawn are those of the cycle up to the first vacant one.  This one is returned, the
generator goes on from it, and the table has one entry more, under this id.  All other entries stay
as they are.  While no id is vacant the drawing does not end. -/
theorem register_takes_first_vacant :
    (∀ (g : SyncIds) (k : ℕ), (g.nth k).toNat = (g.last.toNat + k) % SyncIds.cycle + 1 ∧
      SyncIds.take k g = (List.range k).map g.nth ∧ 0 ∉ SyncIds.take k g ∧
      (SyncIds.take SyncIds.cycle (SyncIds.advance k g)).Nodup) ∧
    ∀ (t : Inflight) (g : SyncIds) (code : Wire.RequestType) (deadline : ℕ),
      ((∃ drawn g', t.Draws g drawn g') ↔ ∃ id, id ≠ 0 ∧ t.contains id = false) ∧
      ((∃ id, id ≠ 0 ∧ t.contains id = false) →
        ∃ n, n + 1 ≤ t.size + 1 ∧
          (∀ i < n, t.contains (g.nth i) = true) ∧ t.contains (g.nth n) = false ∧
          (∀ drawn g', t.Draws g drawn g' ↔ drawn = SyncIds.take (n + 1) g ∧ g' = ⟨g.nth n⟩) ∧
          t.register g code deadline = (g.nth n, t.slots.size,
            ⟨t.entries ++ [⟨g.nth n, code, deadline, t.slots.size⟩], t.slots.push .waiting⟩,
            ⟨g.nth n⟩) ∧
          ∀ id, (t.register g code deadline).2.2.1.find? id =
            if id = g.nth n then some ⟨g.nth n, code, deadline, t.slots.size⟩ else t.find? id) := by
  refine ⟨fun g k => ⟨g.toNat_nth k, SyncIds.take_eq_map k g, ?_, ?_⟩,
    fun t g code deadline => ⟨exists_draws_iff, fun h => ?_⟩⟩
  · intro hmem
    obtain ⟨i, -, hzero⟩ := SyncIds.mem_take.mp hmem
    exact g.nth_ne_zero i hzero
  · exact SyncIds.nodup_take _ (Nat.le_refl _)
  · obtain ⟨n, hsize, hfirst⟩ := exists_firstVacant h g
    have hregister := register_eq_of_firstVacant hfirst hsize code deadline
    refine ⟨n, Nat.succ_le_succ hsize, hfirst.pending, hfirst.vacant, fun drawn g' => ?_,
      hregister, fun id => ?_⟩
    · rw [draws_iff]
      constructor
      · rintro ⟨m, hm, heq⟩
        rwa [hm.unique hfirst] at heq
      · intro heq
        exact ⟨n, hfirst, heq⟩
    · rw [hregister]
      exact find?_append_of_not_contains hfirst.vacant _ id

/-- The pending ids lie around the end of the cycle. -/
def aroundTheEnd : Inflight :=
  ⟨[⟨1, .call, 5, 0⟩, ⟨0xFFFFFFFFFFFFFFFF, .ping, 7, 1⟩, ⟨2, .call, 3, 2⟩],
    #[.waiting, .waiting, .forgotten]⟩

/-- The counter wraps among ids that are pending. -/
theorem register_takes_first_vacant_wrapping :
    aroundTheEnd.contains 3 = false ∧
      aroundTheEnd.Draws ⟨0xFFFFFFFFFFFFFFFE⟩ [0xFFFFFFFFFFFFFFFF, 1, 2, 3] ⟨3⟩ ∧
      aroundTheEnd.register ⟨0xFFFFFFFFFFFFFFFE⟩ .call 9 =
        (3, 3, ⟨aroundTheEnd.entries ++ [⟨3, .call, 9, 3⟩], aroundTheEnd.slots.push .waiting⟩,
          ⟨3⟩) := by
  have hvacant : aroundTheEnd.contains 3 = false := by decide
  obtain ⟨n, -, hpending, hfree, hdraws, hregister, -⟩ :=
    (register_takes_first_vacant.2 aroundTheEnd ⟨0xFFFFFFFFFFFFFFFE⟩ .call 9).2
      ⟨3, by decide, hvacant⟩
  have hlast : n = 3 := FirstVacant.unique ⟨hpending, hfree⟩ ⟨by decide, by decide⟩
  subst hlast
  exact ⟨hvacant, (hdraws _ _).mpr ⟨by decide, rfl⟩, hregister⟩

end Switchboard.Inflight
