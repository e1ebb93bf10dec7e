import Mathlib.Data.Nat.Find
import Switchboard.Inflight
import Switchboard.Proofs.SyncIds

/-!
# The table of requests in flight

What the single operations do to the entries and to the slots.  Resolving, cancelling and failing
all requests are one thing said of different ids: the entries under them are withdrawn, and the
slots of the withdrawn entries are settled.

## Main definitions

- `Inflight.Pends` — the request with a slot is pending
- `Inflight.Keyed` — entries are told apart by their ids and by their slots
- `Inflight.FirstVacant` — so many ids are pending before the first vacant one
- `Inflight.Withdrawn` — some ids have been withdrawn from a table

## Main statements

- `Inflight.exists_firstVacant` — among one id more than there are entries one is vacant
- `Inflight.firstFree_of_firstVacant` — registering finds the first vacant id
- `Inflight.withdrawn_remove`, `Inflight.withdrawn_failEach` — the operations withdraw
- `Inflight.failAll_fst` — failing all requests counts them
-/

namespace Switchboard.Inflight

/-- The request whose waiter looks at the slot is pending. -/
def Pends (t : Inflight) (slot : ℕ) : Prop :=
  ∃ e ∈ t.entries, e.slot = slot

/-- Entries are told apart by their ids, none of which is 0, and by their slots, all of which
exist. -/
structure Keyed (t : Inflight) : Prop where
  syncs : t.syncs.Nodup
  nonzero : 0 ∉ t.syncs
  slots : (t.entries.map (·.slot)).Nodup
  slot_lt : ∀ e ∈ t.entries, e.slot < t.slots.size

/-! ### Entries -/

theorem mem_syncs {t : Inflight} {sync : UInt64} :
    sync ∈ t.syncs ↔ ∃ e ∈ t.entries, e.sync = sync := by
  simp only [syncs, List.mem_map]

theorem contains_iff {t : Inflight} {sync : UInt64} :
    t.contains sync = true ↔ sync ∈ t.syncs := by
  simp only [contains, List.any_eq_true, decide_eq_true_eq, mem_syncs]

theorem contains_eq_false_iff {t : Inflight} {sync : UInt64} :
    t.contains sync = false ↔ sync ∉ t.syncs := by
  rw [← contains_iff, Bool.not_eq_true]

theorem mem_of_find? {t : Inflight} {sync : UInt64} {e : Pending} (h : t.find? sync = some e) :
    e ∈ t.entries ∧ e.sync = sync :=
  ⟨List.mem_of_find?_eq_some h, by simpa using List.find?_some h⟩

theorem find?_eq_none_iff {t : Inflight} {sync : UInt64} :
    t.find? sync = none ↔ sync ∉ t.syncs := by
  simp [find?, mem_syncs]

theorem Keyed.eq_of_sync {t : Inflight} (h : t.Keyed) {e e' : Pending} (he : e ∈ t.entries)
    (he' : e' ∈ t.entries) (heq : e.sync = e'.sync) : e = e' :=
  List.inj_on_of_nodup_map h.syncs he he' heq

theorem Keyed.eq_of_slot {t : Inflight} (h : t.Keyed) {e e' : Pending} (he : e ∈ t.entries)
    (he' : e' ∈ t.entries) (heq : e.slot = e'.slot) : e = e' :=
  List.inj_on_of_nodup_map h.slots he he' heq

/-- Entries are told apart as well when some of them have gone. -/
theorem Keyed.of_sublist {t t' : Inflight} (h : t.Keyed) (he : t'.entries.Sublist t.entries)
    (hs : t.slots.size ≤ t'.slots.size) : t'.Keyed where
  syncs := h.syncs.sublist (he.map _)
  nonzero := fun hz => h.nonzero ((he.map _).subset hz)
  slots := h.slots.sublist (he.map _)
  slot_lt := fun e hmem => Nat.lt_of_lt_of_le (h.slot_lt e (he.subset hmem)) hs

theorem keyed_empty : empty.Keyed := by
  constructor <;> simp [empty, syncs]

/-! ### Registering -/

/-- The generator hands out `n` ids that are pending before one that is not. -/
structure FirstVacant (t : Inflight) (g : SyncIds) (n : ℕ) : Prop where
  pending : ∀ i < n, t.contains (g.nth i) = true
  vacant : t.contains (g.nth n) = false

theorem firstVacant_zero_iff {t : Inflight} {g : SyncIds} :
    t.FirstVacant g 0 ↔ t.contains g.next.1 = false :=
  ⟨fun h => h.vacant, fun h => ⟨nofun, h⟩⟩

theorem firstVacant_succ_iff {t : Inflight} {g : SyncIds} {n : ℕ} :
    t.FirstVacant g (n + 1) ↔ t.contains g.next.1 = true ∧ t.FirstVacant g.next.2 n := by
  constructor
  · intro h
    exact ⟨h.pending 0 (Nat.succ_pos n), fun i hi => h.pending (i + 1) (by omega), h.vacant⟩
  · rintro ⟨hfirst, h⟩
    refine ⟨fun i hi => ?_, h.vacant⟩
    cases i with
    | zero => exact hfirst
    | succ i => exact h.pending i (by omega)

/-- Ids of one cycle that are all pending are not more than there are entries. -/
theorem card_le_size {t : Inflight} {g : SyncIds} {n : ℕ} (hn : n ≤ SyncIds.cycle)
    (h : ∀ i < n, t.contains (g.nth i) = true) : n ≤ t.size := by
  have hsub : SyncIds.take n g ⊆ t.syncs := by
    intro id hid
    obtain ⟨i, hi, rfl⟩ := SyncIds.mem_take.mp hid
    exact contains_iff.mp (h i hi)
  have hlen := (g.nodup_take hn).length_le_of_subset hsub
  simpa [syncs, size] using hlen

/-- While some id is vacant the generator comes to one, and it hands out no more pending ids before
than there are entries. -/
theorem exists_firstVacant {t : Inflight} (h : ∃ id, id ≠ 0 ∧ t.contains id = false)
    (g : SyncIds) : ∃ n ≤ t.size, t.FirstVacant g n := by
  obtain ⟨id, hid, hvacant⟩ := h
  obtain ⟨i, hi, rfl⟩ := g.exists_nth_eq hid
  have hex : ∃ n, t.contains (g.nth n) = false := ⟨i, hvacant⟩
  have hfirst : t.FirstVacant g (Nat.find hex) :=
    ⟨fun j hj => Bool.not_eq_false _ ▸ Nat.find_min hex hj, Nat.find_spec hex⟩
  -- the ids before it are of one cycle, since the vacant one comes within a cycle
  have hcycle : Nat.find hex ≤ SyncIds.cycle :=
    Nat.le_trans (Nat.find_min' hex hvacant) (Nat.le_of_lt hi)
  exact ⟨Nat.find hex, card_le_size hcycle hfirst.pending, hfirst⟩

theorem firstFree_of_not_contains {t : Inflight} {g : SyncIds} (h : t.contains g.next.1 = false)
    (fuel : ℕ) : t.firstFree fuel g = g.next := by
  cases fuel with
  | zero => rfl
  | succ fuel => simp only [firstFree, h, Bool.false_eq_true, if_false]

/-- A bound that is not reached does not show. -/
theorem firstFree_of_firstVacant {t : Inflight} {g : SyncIds} {n fuel : ℕ}
    (h : t.FirstVacant g n) (hfuel : n ≤ fuel) :
    t.firstFree fuel g = (g.nth n, ⟨g.nth n⟩) := by
  induction n generalizing g fuel with
  | zero => exact firstFree_of_not_contains h.vacant fuel
  | succ n ih =>
    obtain ⟨hpending, hrest⟩ := firstVacant_succ_iff.mp h
    obtain ⟨fuel, rfl⟩ := Nat.exists_eq_add_one_of_ne_zero (by omega : fuel ≠ 0)
    rw [firstFree, if_pos hpending, ih hrest (by omega)]
    rfl

/-- As long as some id is free, the id of a new request is not pending. -/
theorem firstFree_not_contains {t : Inflight} {g : SyncIds}
    (h : ∃ id, id ≠ 0 ∧ t.contains id = false) :
    t.contains (t.firstFree t.size g).1 = false := by
  obtain ⟨n, hn, hfirst⟩ := exists_firstVacant h g
  rw [firstFree_of_firstVacant hfirst hn]
  exact hfirst.vacant

theorem firstFree_ne_zero (t : Inflight) (fuel : ℕ) (g : SyncIds) :
    (t.firstFree fuel g).1 ≠ 0 := by
  induction fuel generalizing g with
  | zero => exact SyncIds.after_ne_zero _
  | succ fuel ih =>
    rw [firstFree]
    split
    · exact ih _
    · exact SyncIds.after_ne_zero _

theorem syncs_append (entries : List Pending) (e : Pending) (slots : Array Slot) :
    syncs ⟨entries ++ [e], slots⟩ = entries.map (·.sync) ++ [e.sync] := by
  simp only [syncs, List.map_append, List.map_cons, List.map_nil]

/-- A table with one entry more, under a new id and a new slot. -/
theorem Keyed.append {t : Inflight} (h : t.Keyed) {e : Pending} (hz : e.sync ≠ 0)
    (hnew : e.sync ∉ t.syncs) (hslot : e.slot = t.slots.size) :
    Inflight.Keyed ⟨t.entries ++ [e], t.slots.push .waiting⟩ where
  syncs := by
    rw [syncs_append]
    exact h.syncs.append (List.nodup_singleton _) (List.disjoint_singleton.mpr hnew)
  nonzero := by
    rw [syncs_append, List.mem_append, List.mem_singleton]
    rintro (hmem | heq)
    · exact h.nonzero hmem
    · exact hz heq.symm
  slots := by
    rw [List.map_append]
    refine h.slots.append (List.nodup_singleton _) (List.disjoint_singleton.mpr ?_)
    intro hmem
    obtain ⟨e', he', heq⟩ := List.mem_map.mp hmem
    have hsame : e'.slot = e.slot := heq
    have hlt := h.slot_lt e' he'
    omega
  slot_lt := by
    intro e' he'
    rw [Array.size_push]
    rcases List.mem_append.mp he' with he' | he'
    · exact Nat.lt_succ_of_lt (h.slot_lt e' he')
    · rw [List.mem_singleton.mp he', hslot]
      exact Nat.lt_succ_self _

/-! ### Slots -/

theorem slot_eq (t : Inflight) (k : ℕ) : t.slot k = t.slots[k]?.getD .severed := by
  rw [slot, Array.getD_eq_getD_getElem?]

theorem slot_of_size_le {t : Inflight} {k : ℕ} (h : t.slots.size ≤ k) : t.slot k = .severed := by
  rw [slot_eq, Array.getElem?_eq_none h]
  rfl

theorem slot_eq_waiting_iff {t : Inflight} {k : ℕ} :
    t.slot k = .waiting ↔ t.slots[k]? = some .waiting := by
  rw [slot_eq]
  cases t.slots[k]? with
  | none => simp
  | some s => simp

/-- What a slot holds after it has been settled. -/
def settledSlot (s new : Slot) : Slot :=
  match s with
  | .waiting => new
  | s => s

@[simp] theorem size_settle (slots : Array Slot) (index : ℕ) (new : Slot) :
    (settle slots index new).size = slots.size := by
  unfold settle
  split <;> simp

/-- Settling changes one slot, and only if it waits. -/
theorem slot_settle (entries entries' : List Pending) (slots : Array Slot) (index : ℕ)
    (new : Slot) (k : ℕ) :
    slot ⟨entries', settle slots index new⟩ k =
      if k = index then settledSlot (slot ⟨entries, slots⟩ k) new else slot ⟨entries, slots⟩ k := by
  simp only [slot_eq]
  by_cases hk : k = index
  · subst hk
    rw [if_pos rfl]
    unfold settle
    split
    · next h =>
      obtain ⟨hlt, -⟩ := Array.getElem?_eq_some_iff.mp h
      rw [Array.getElem?_setIfInBounds_self_of_lt hlt, h]
      rfl
    · next h =>
      cases hs : slots[k]? with
      | none => rfl
      | some s =>
        cases s with
        | waiting => exact absurd hs h
        | _ => rfl
  · rw [if_neg hk]
    unfold settle
    split
    · rw [Array.getElem?_setIfInBounds_ne (Ne.symm hk)]
    · rfl

theorem slot_push (entries entries' : List Pending) (slots : Array Slot) (k : ℕ) :
    slot ⟨entries', slots.push .waiting⟩ k =
      if k = slots.size then .waiting else slot ⟨entries, slots⟩ k := by
  simp only [slot_eq, Array.getElem?_push]
  split <;> rfl

/-- A waiter that goes away leaves the other slots alone. -/
theorem slot_forget (t : Inflight) (index k : ℕ) :
    (t.forget index).slot k =
      if k = index ∧ index < t.slots.size then .forgotten else t.slot k := by
  simp only [slot_eq, forget, Array.getElem?_setIfInBounds]
  by_cases hk : k = index
  · subst hk
    by_cases hlt : k < t.slots.size
    · simp [hlt]
    · simp [hlt]
  · simp [hk, Ne.symm hk]

/-! ### Withdrawing -/

/-- `t'` is `t` without the entries under the ids.  Their slots hold `new` if they waited; all other
slots hold what they held. -/
structure Withdrawn (t : Inflight) (ids : List UInt64) (new : Slot) (t' : Inflight) : Prop where
  entries : t'.entries = t.entries.filter (·.sync ∉ ids)
  size : t'.slots.size = t.slots.size
  settled : ∀ e ∈ t.entries, e.sync ∈ ids → t'.slot e.slot = settledSlot (t.slot e.slot) new
  kept : ∀ k, (∀ e ∈ t.entries, e.sync ∈ ids → e.slot ≠ k) → t'.slot k = t.slot k

theorem Withdrawn.keyed {t t' : Inflight} {ids : List UInt64} {new : Slot}
    (h : t.Withdrawn ids new t') (hk : t.Keyed) : t'.Keyed := by
  refine hk.of_sublist ?_ (Nat.le_of_eq h.size.symm)
  rw [h.entries]
  exact List.filter_sublist

theorem remove_of_find?_none {t : Inflight} {sync : UInt64} (h : t.find? sync = none)
    (new : Slot) : t.remove sync new = (false, t) := by
  simp only [remove, h]

theorem withdrawn_nil (t : Inflight) (new : Slot) : t.Withdrawn [] new t := by
  refine ⟨?_, rfl, ?_, fun _ _ => rfl⟩
  · simp
  · intro e _ hmem
    cases hmem

/-- Removing an id withdraws it. -/
theorem withdrawn_remove {t : Inflight} (hk : t.Keyed) (sync : UInt64) (new : Slot) :
    t.Withdrawn [sync] new (t.remove sync new).2 := by
  cases hf : t.find? sync with
  | none =>
    have hno : ∀ e ∈ t.entries, e.sync ≠ sync := by
      intro e he heq
      exact find?_eq_none_iff.mp hf (mem_syncs.mpr ⟨e, he, heq⟩)
    rw [remove_of_find?_none hf]
    refine ⟨?_, rfl, ?_, fun _ _ => rfl⟩
    · rw [List.filter_eq_self.mpr]
      intro e he
      simpa using hno e he
    · intro e he hmem
      exact absurd (List.mem_singleton.mp hmem) (hno e he)
  | some e₀ =>
    obtain ⟨he₀, hsync⟩ := mem_of_find? hf
    simp only [remove, hf]
    refine ⟨?_, size_settle _ _ _, ?_, ?_⟩
    · simp
    · intro e he hmem
      have heq : e = e₀ := hk.eq_of_sync he he₀ ((List.mem_singleton.mp hmem).trans hsync.symm)
      rw [slot_settle t.entries, heq, if_pos rfl]
    · intro k hne
      have hk₀ : k ≠ e₀.slot := (hne e₀ he₀ (List.mem_singleton.mpr hsync)).symm
      rw [slot_settle t.entries, if_neg hk₀]

/-- Withdrawing some ids and then others withdraws them all. -/
theorem Withdrawn.trans {t t₁ t₂ : Inflight} {ids ids' : List UInt64} {new : Slot}
    (h : t.Withdrawn ids new t₁) (h' : t₁.Withdrawn ids' new t₂) (hk : t.Keyed) :
    t.Withdrawn (ids ++ ids') new t₂ := by
  have hmem : ∀ e, e ∈ t₁.entries ↔ e ∈ t.entries ∧ e.sync ∉ ids := by
    intro e
    rw [h.entries, List.mem_filter, decide_eq_true_eq]
  refine ⟨?_, h'.size.trans h.size, ?_, ?_⟩
  · rw [h'.entries, h.entries, List.filter_filter]
    congr 1
    funext e
    simp [not_or, Bool.and_comm]
  · intro e he hids
    by_cases hfirst : e.sync ∈ ids
    · -- no entry is left whose slot is that of `e`
      rw [h'.kept e.slot, h.settled e he hfirst]
      intro e' he' _ heq
      have hsame := hk.eq_of_slot ((hmem e').mp he').1 he heq
      rw [hsame] at he'
      exact ((hmem e).mp he').2 hfirst
    · have hsecond : e.sync ∈ ids' := (List.mem_append.mp hids).resolve_left hfirst
      rw [h'.settled e ((hmem e).mpr ⟨he, hfirst⟩) hsecond, h.kept e.slot]
      intro e' he' hids' heq
      rw [hk.eq_of_slot he' he heq] at hids'
      exact hfirst hids'
  · intro k hne
    rw [h'.kept k, h.kept k]
    · intro e he hids
      exact hne e he (List.mem_append_left _ hids)
    · intro e he hids
      exact hne e ((hmem e).mp he).1 (List.mem_append_right _ hids)

/-- Resolving ids one after the other withdraws them. -/
theorem withdrawn_failEach {t : Inflight} (hk : t.Keyed) (fault : Fault) (ids : List UInt64) :
    t.Withdrawn ids (.delivered (.error fault)) (failEach fault ids t).2 := by
  induction ids generalizing t with
  | nil => exact withdrawn_nil t _
  | cons sync ids ih =>
    have hfirst := withdrawn_remove hk sync (.delivered (.error fault))
    exact hfirst.trans (ih (hfirst.keyed hk)) hk

/-- Failing all requests leaves no entry. -/
theorem entries_failAll {t : Inflight} (hk : t.Keyed) (fault : Fault) :
    (t.failAll fault).2.entries = [] := by
  rw [failAll, (withdrawn_failEach hk fault t.syncs).entries, List.filter_eq_nil_iff]
  intro e he
  simpa using mem_syncs.mpr ⟨e, he, rfl⟩

/-! ### Counting -/

/-- Removing tells whether the id was pending. -/
theorem remove_fst (t : Inflight) (sync : UInt64) (new : Slot) :
    (t.remove sync new).1 = t.contains sync := by
  cases hf : t.find? sync with
  | none =>
    rw [remove_of_find?_none hf]
    exact (contains_eq_false_iff.mpr (find?_eq_none_iff.mp hf)).symm
  | some e =>
    simp only [remove, hf]
    obtain ⟨he, hsync⟩ := mem_of_find? hf
    exact (contains_iff.mpr (mem_syncs.mpr ⟨e, he, hsync⟩)).symm

/-- Removing a pending id makes the table smaller by one entry. -/
theorem size_remove {t : Inflight} (hk : t.Keyed) (sync : UInt64) (new : Slot) :
    (t.remove sync new).2.size + (t.remove sync new).1.toNat = t.size := by
  -- ids are distinct, so taking them all away is taking one away
  have hsyncs : (t.remove sync new).2.syncs = t.syncs.erase sync := by
    rw [hk.syncs.erase_eq_filter, syncs, (withdrawn_remove hk sync new).entries, syncs,
      List.filter_map]
    congr 2
    funext e
    simp [bne, beq_eq_decide]
  have hlen : (t.remove sync new).2.size = (t.syncs.erase sync).length := by
    rw [← hsyncs, syncs, List.length_map, size]
  have hsize : t.syncs.length = t.size := by rw [syncs, List.length_map, size]
  rw [remove_fst, hlen, List.length_erase, hsize]
  by_cases hmem : sync ∈ t.syncs
  · have hpos : 0 < t.syncs.length := List.length_pos_of_mem hmem
    rw [if_pos hmem, contains_iff.mpr hmem, Bool.toNat_true]
    omega
  · rw [if_neg hmem, contains_eq_false_iff.mpr hmem, Bool.toNat_false]
    omega

theorem failEach_cons (t : Inflight) (fault : Fault) (sync : UInt64) (ids : List UInt64) :
    failEach fault (sync :: ids) t =
      ((failEach fault ids (t.resolve sync (.error fault)).2).1 +
          (t.resolve sync (.error fault)).1.toNat,
        (failEach fault ids (t.resolve sync (.error fault)).2).2) := by
  rw [failEach]
  rcases t.resolve sync (.error fault) with ⟨_ | _, t'⟩ <;> rfl

/-- Resolving ids one after the other counts the entries that go. -/
theorem size_failEach {t : Inflight} (hk : t.Keyed) (fault : Fault) (ids : List UInt64) :
    (failEach fault ids t).2.size + (failEach fault ids t).1 = t.size := by
  induction ids generalizing t with
  | nil => rfl
  | cons sync ids ih =>
    have hfirst := size_remove hk sync (.delivered (.error fault))
    have hrest := ih ((withdrawn_remove hk sync (.delivered (.error fault))).keyed hk)
    simp only [failEach_cons, resolve]
    omega

/-- Failing all requests counts them. -/
theorem failAll_fst {t : Inflight} (hk : t.Keyed) (fault : Fault) :
    (t.failAll fault).1 = t.size := by
  have hsize := size_failEach hk fault t.syncs
  have hnone : (failEach fault t.syncs t).2.size = 0 := by
    have hentries := entries_failAll hk fault
    rw [failAll] at hentries
    rw [size, hentries, List.length_nil]
  rw [failAll]
  omega

end Switchboard.Inflight
