import Switchboard.Proofs.Interleaving.Effects

/-!
# Entries, calls and held outcomes

While a connection has not drawn all ids there are, the request with slot `n` has the `n`-th id.  So
a call, its entry and the outcome that somebody holds for it are matched by slots, of which no two
are the same.

## Main definitions

- `Inflight.Shrinks` — entries have gone, but no slots have come
- `Interleaving.Sound` — entries and calls belong together
- `Interleaving.HandsApart` — nobody holds an outcome for a pending request, nor two parties one for
  the same

## Main statements

- `Interleaving.Sound.step`, `Interleaving.HandsApart.step` — what every step preserves
- `Interleaving.Run.sound` — they hold in every state of a run
-/

namespace Switchboard

namespace Inflight

/-- Entries have gone, but no slots have come. -/
structure Shrinks (t t' : Inflight) : Prop where
  entries : t'.entries.Sublist t.entries
  size : t'.slots.size = t.slots.size

theorem shrinks_refl (t : Inflight) : t.Shrinks t :=
  ⟨List.Sublist.refl _, rfl⟩

theorem Shrinks.trans {t t' t'' : Inflight} (h : t.Shrinks t') (h' : t'.Shrinks t'') :
    t.Shrinks t'' :=
  ⟨h'.entries.trans h.entries, h'.size.trans h.size⟩

theorem shrinks_without (t : Inflight) (sync : UInt64) : t.Shrinks (t.without sync) :=
  ⟨List.filter_sublist, rfl⟩

theorem shrinks_settled (t : Inflight) (slot : ℕ) (new : Slot) : t.Shrinks (t.settled slot new) :=
  ⟨List.Sublist.refl _, size_settle ..⟩

theorem shrinks_forget (t : Inflight) (slot : ℕ) : t.Shrinks (t.forget slot) :=
  ⟨List.Sublist.refl _, Array.size_setIfInBounds⟩

theorem shrinks_remove (t : Inflight) (sync : UInt64) (new : Slot) :
    t.Shrinks (t.remove sync new).2 := by
  cases hf : t.find? sync with
  | none =>
    rw [remove_of_find?_none hf]
    exact t.shrinks_refl
  | some e =>
    rw [remove_of_find? hf]
    exact (t.shrinks_without sync).trans (shrinks_settled ..)

theorem Shrinks.pends {t t' : Inflight} (h : t.Shrinks t') {slot : ℕ} (hp : t'.Pends slot) :
    t.Pends slot := by
  obtain ⟨e, he, hslot⟩ := hp
  exact ⟨e, h.entries.subset he, hslot⟩

end Inflight

namespace Interleaving

/-! ### Calls -/

/-- The slot and the id of the call of a sender that has registered one. -/
def Sender.key? (x : Sender) : Option (ℕ × UInt64) :=
  x.call?.map fun call => (call.slot, call.sync)

theorem Sender.key?_of_call? {x : Sender} {call : Call} (h : x.call? = some call) :
    x.key? = some (call.slot, call.sync) := by
  rw [key?, h]
  rfl

theorem Sender.WaitsFor.call? {x : Sender} {call : Call} (h : x.WaitsFor call) :
    x.call? = some call := by
  rcases h with ⟨rfl, -⟩ | rfl <;> rfl

theorem Sender.Goes.key? {c : Connection} {x y : Sender} (h : x.Goes c y) : y.key? = x.key? := by
  cases h with
  | asks before after => rw [Sender.key?, Sender.key?, before, after]
  | receives waits => rw [Sender.key?_of_call? waits.call?]; rfl
  | abandons waits => rw [Sender.key?_of_call? waits.call?]; rfl
  | _ => rfl

/-- Entries and calls belong together: the request with slot `n` has the `n`-th id of the
generator `g`. -/
structure Sound (g : SyncIds) (s : State) : Prop where
  keyed : s.table.Keyed
  drawn : s.link.syncs = SyncIds.advance s.table.slots.size g
  numbered : ∀ e ∈ s.table.entries, e.sync = g.nth e.slot
  keys : ∀ k key, (s.senders k).key? = some key → key.1 < s.table.slots.size ∧ key.2 = g.nth key.1
  apart : ∀ k k' key, (s.senders k).key? = some key → (s.senders k').key? = some key → k = k'
  owned : ∀ e ∈ s.table.entries, ∃ k, (s.senders k).key? = some (e.slot, e.sync)

variable {g : SyncIds} {s s' : State}

theorem sound_start (address : Address) (greeting : Wire.Greeting) (g : SyncIds) :
    Sound g (start address greeting g) where
  keyed := Inflight.keyed_empty
  drawn := rfl
  numbered := by
    intro e he
    cases he
  keys := by
    intro k key hkey
    cases hkey
  apart := by
    intro k k' key hkey
    cases hkey
  owned := by
    intro e he
    cases he

/-- A step that registers nothing keeps entries and calls together. -/
theorem Sound.of_shrinks (h : Sound g s) (ht : s.table.Shrinks s'.table)
    (hsyncs : s'.link.syncs = s.link.syncs)
    (hkeys : ∀ k, (s'.senders k).key? = (s.senders k).key?) : Sound g s' where
  keyed := h.keyed.of_sublist ht.entries (Nat.le_of_eq ht.size.symm)
  drawn := by
    rw [hsyncs, ht.size, h.drawn]
  numbered := fun e he => h.numbered e (ht.entries.subset he)
  keys := by
    intro k key hkey
    rw [hkeys] at hkey
    rw [ht.size]
    exact h.keys k key hkey
  apart := by
    intro k k' key hkey hkey'
    rw [hkeys] at hkey hkey'
    exact h.apart k k' key hkey hkey'
  owned := by
    intro e he
    obtain ⟨k, hk⟩ := h.owned e (ht.entries.subset he)
    exact ⟨k, (hkeys k).trans hk⟩

/-- The entry that is registered next. -/
def nextEntry (g : SyncIds) (t : Inflight) (code : Wire.RequestType) (deadline : ℕ) : Pending :=
  ⟨g.nth t.slots.size, code, deadline, t.slots.size⟩

theorem slots_size_of_register {code : Wire.RequestType} {deadline : ℕ}
    (hlink : s'.link = (s.link.register code deadline).2.2) :
    s'.table.slots.size = s.table.slots.size + 1 := by
  rw [State.table, hlink]
  exact Array.size_push ..

/-- The next id is free as long as not all ids have been drawn. -/
theorem Sound.next_not_mem (h : Sound g s) (hsize : s.table.slots.size < SyncIds.cycle) :
    g.nth s.table.slots.size ∉ s.table.syncs := by
  intro hmem
  obtain ⟨e, he, heq⟩ := Inflight.mem_syncs.mp hmem
  have hlt := h.keyed.slot_lt e he
  rw [h.numbered e he] at heq
  have hslot := SyncIds.nth_inj (Nat.lt_trans hlt hsize) hsize heq
  omega

/-- As long as not all ids have been drawn, registering draws one. -/
theorem Sound.register_eq (h : Sound g s) (hsize : s.table.slots.size < SyncIds.cycle)
    (code : Wire.RequestType) (deadline : ℕ) :
    s.link.register code deadline =
      (g.nth s.table.slots.size, s.table.slots.size,
        { s.link with
          inflight := ⟨s.table.entries ++ [nextEntry g s.table code deadline],
            s.table.slots.push .waiting⟩
          syncs := SyncIds.advance (s.table.slots.size + 1) g }) := by
  have hnext : s.link.syncs.next =
      (g.nth s.table.slots.size, SyncIds.advance (s.table.slots.size + 1) g) := by
    rw [h.drawn, SyncIds.advance_succ]
    rfl
  -- the first id tried is free, so the search ends at once
  have hfree : s.table.contains s.link.syncs.next.1 = false := by
    rw [hnext]
    exact Inflight.contains_eq_false_iff.mpr (h.next_not_mem hsize)
  have hfirst := Inflight.firstFree_of_not_contains hfree s.table.size
  simp only [Connection.register, Inflight.register, hfirst, hnext, nextEntry]

/-- What registering a call leaves, as long as not all ids have been drawn. -/
structure Registers (g : SyncIds) (s : State) (k : ℕ) (s' : State) : Prop where
  idle : (s.senders k).call? = none
  table : ∃ code deadline, s'.table =
    ⟨s.table.entries ++ [nextEntry g s.table code deadline], s.table.slots.push .waiting⟩
  syncs : s'.link.syncs = SyncIds.advance (s.table.slots.size + 1) g
  sender : ∃ request timeout, s'.senders k =
    .active ⟨g.nth s.table.slots.size, s.table.slots.size, request, timeout, .registered⟩
  others : ∀ k' ≠ k, s'.senders k' = s.senders k'
  holding : s'.holding = s.holding

theorem Registers.size_eq {k : ℕ} (hr : Registers g s k s') :
    s'.table.slots.size = s.table.slots.size + 1 := by
  obtain ⟨code, deadline, htable⟩ := hr.table
  rw [htable, Array.size_push]

theorem Registers.key?_eq {k : ℕ} (hr : Registers g s k s') (k' : ℕ) :
    (s'.senders k').key? =
      if k' = k then some (s.table.slots.size, g.nth s.table.slots.size)
      else (s.senders k').key? := by
  split
  · next heq =>
    obtain ⟨request, timeout, hsender⟩ := hr.sender
    rw [heq, hsender]
    rfl
  · next hne => rw [hr.others k' hne]

/-- Registering a call keeps entries and calls together. -/
theorem Sound.registered (h : Sound g s) (hsize : s.table.slots.size < SyncIds.cycle) {k : ℕ}
    (hr : Registers g s k s') : Sound g s' := by
  obtain ⟨code, deadline, htable⟩ := hr.table
  have hentries : ∀ e ∈ s'.table.entries, e ∈ s.table.entries ∨
      e = nextEntry g s.table code deadline := by
    intro e he
    rw [htable] at he
    exact (List.mem_append.mp he).imp_right List.mem_singleton.mp
  constructor
  · rw [htable]
    exact h.keyed.append (g.nth_ne_zero _) (h.next_not_mem hsize) rfl
  · rw [hr.syncs, hr.size_eq]
  · intro e he
    rcases hentries e he with hold | rfl
    · exact h.numbered e hold
    · rfl
  · intro k' key hkey
    rw [hr.key?_eq] at hkey
    rw [hr.size_eq]
    split at hkey
    · cases hkey
      exact ⟨Nat.lt_succ_self _, rfl⟩
    · obtain ⟨hlt, hsync⟩ := h.keys k' key hkey
      exact ⟨Nat.lt_succ_of_lt hlt, hsync⟩
  · -- a slot that has just come is not the slot of an old call
    have hfresh : ∀ k' key, (s.senders k').key? = some key →
        some (s.table.slots.size, g.nth s.table.slots.size) ≠ some key := by
      intro k' key hkey heq
      cases heq
      exact Nat.lt_irrefl _ (h.keys k' _ hkey).1
    intro k₁ k₂ key hkey₁ hkey₂
    rw [hr.key?_eq] at hkey₁ hkey₂
    split at hkey₁ <;> split at hkey₂
    · next h₁ h₂ => rw [h₁, h₂]
    · exact absurd hkey₁ (hfresh k₂ key hkey₂)
    · exact absurd hkey₂ (hfresh k₁ key hkey₁)
    · exact h.apart k₁ k₂ key hkey₁ hkey₂
  · intro e he
    rcases hentries e he with hold | rfl
    · obtain ⟨k', hk'⟩ := h.owned e hold
      refine ⟨k', ?_⟩
      rw [hr.key?_eq, if_neg, hk']
      rintro rfl
      rw [Sender.key?, hr.idle] at hk'
      cases hk'
    · exact ⟨k, by rw [hr.key?_eq, if_pos rfl]; rfl⟩

theorem key?_update {k : ℕ} {x : Sender} (hx : x.key? = (s.senders k).key?) (k' : ℕ) :
    (Function.update s.senders k x k').key? = (s.senders k').key? := by
  by_cases heq : k' = k
  · rw [heq, Function.update_self, hx]
  · rw [Function.update_of_ne heq]

/-- What a step does to the table and the calls: it registers a call, or it only takes entries
away. -/
theorem Sound.registers_or_shrinks (h : Sound g s) {a : Action} (he : Effect s a s')
    (hsize : s'.table.slots.size ≤ SyncIds.cycle) :
    (∃ k, s.table.slots.size < SyncIds.cycle ∧ Registers g s k s') ∨
      s.table.Shrinks s'.table ∧ s'.link.syncs = s.link.syncs ∧
        ∀ k, (s'.senders k).key? = (s.senders k).key? := by
  cases he with
  | quiet k x goes table syncs senders =>
    refine .inr ⟨table ▸ s.table.shrinks_refl, syncs, ?_⟩
    rw [senders]
    exact key?_update goes.key?
  | registered k request timeout deadline sender link senders holding =>
    have hroom : s.table.slots.size < SyncIds.cycle := by
      rw [slots_size_of_register link] at hsize
      omega
    rw [h.register_eq hroom] at link senders
    refine .inl ⟨k, hroom, ?_, ⟨request.code, deadline, ?_⟩, ?_, ⟨request, timeout, ?_⟩, ?_,
      holding⟩
    · rw [sender]
      rfl
    · rw [State.table, link]
    · rw [link]
    · rw [senders, Function.update_self]
    · intro k' hne
      rw [senders, Function.update_of_ne hne]
  | taken _ e _ _ _ table syncs senders =>
    exact .inr ⟨table ▸ s.table.shrinks_without _, syncs, fun k => by rw [senders]⟩
  | delivered _ slot _ _ table syncs senders =>
    exact .inr ⟨table ▸ s.table.shrinks_settled .., syncs, fun k => by rw [senders]⟩
  | expired k call e _ sender _ _ table syncs senders =>
    refine .inr ⟨table ▸ s.table.shrinks_remove .., syncs, ?_⟩
    rw [senders]
    apply key?_update
    rw [sender]
    rfl
  | released k call result _ sender table syncs senders =>
    refine .inr ⟨table ▸ (s.table.shrinks_remove ..).trans (Inflight.shrinks_forget ..), syncs, ?_⟩
    rw [senders]
    apply key?_update
    rw [sender]
    rfl

/-- Every step keeps entries and calls together. -/
theorem Sound.step (h : Sound g s) {a : Action} (he : Effect s a s')
    (hsize : s'.table.slots.size ≤ SyncIds.cycle) : Sound g s' := by
  rcases h.registers_or_shrinks he hsize with ⟨k, hroom, hr⟩ | ⟨hshrinks, hsyncs, hkeys⟩
  · exact h.registered hroom hr
  · exact h.of_shrinks hshrinks hsyncs hkeys

theorem Effect.size_le {a : Action} (he : Effect s a s') :
    s.table.slots.size ≤ s'.table.slots.size := by
  have hshrinks : ∀ {t}, s.table.Shrinks t → s'.table = t →
      s.table.slots.size ≤ s'.table.slots.size := by
    intro t ht htable
    exact Nat.le_of_eq (htable ▸ ht.size.symm)
  cases he with
  | quiet _ _ _ table => exact hshrinks s.table.shrinks_refl table
  | registered k request timeout deadline sender link =>
    rw [slots_size_of_register link]
    exact Nat.le_succ _
  | taken _ _ _ _ _ table => exact hshrinks (s.table.shrinks_without _) table
  | delivered _ _ _ _ table => exact hshrinks (s.table.shrinks_settled ..) table
  | expired _ _ _ _ _ _ _ table => exact hshrinks (s.table.shrinks_remove ..) table
  | released _ _ _ _ _ table =>
    exact hshrinks ((s.table.shrinks_remove ..).trans (Inflight.shrinks_forget ..)) table

/-! ### Entries and ids -/

section

variable (h : Sound g s) (hsize : s.table.slots.size ≤ SyncIds.cycle) {k : ℕ} {call : Call}
  (hcall : (s.senders k).call? = some call)

include h hcall

theorem Sound.slot_lt : call.slot < s.table.slots.size :=
  (h.keys k _ (Sender.key?_of_call? hcall)).1

theorem Sound.sync_eq : call.sync = g.nth call.slot :=
  (h.keys k _ (Sender.key?_of_call? hcall)).2

include hsize

/-- An entry has the id of a call exactly when it has its slot. -/
theorem Sound.sync_eq_iff {e : Pending} (he : e ∈ s.table.entries) :
    e.sync = call.sync ↔ e.slot = call.slot := by
  rw [h.numbered e he, h.sync_eq hcall]
  constructor
  · intro heq
    have hlt := h.keyed.slot_lt e he
    have hlt' := h.slot_lt hcall
    exact SyncIds.nth_inj (by omega) (by omega) heq
  · exact congrArg g.nth

theorem Sound.slot_of_find? {e : Pending} (hf : s.table.find? call.sync = some e) :
    e.slot = call.slot := by
  obtain ⟨he, heq⟩ := Inflight.mem_of_find? hf
  exact (h.sync_eq_iff hsize hcall he).mp heq

/-- Nothing is found under the id of a call exactly when it is not pending. -/
theorem Sound.find?_eq_none_iff :
    s.table.find? call.sync = none ↔ ¬s.table.Pends call.slot := by
  rw [Inflight.find?_eq_none_iff, Inflight.mem_syncs, Inflight.Pends, not_iff_not]
  constructor
  · rintro ⟨e, he, heq⟩
    exact ⟨e, he, (h.sync_eq_iff hsize hcall he).mp heq⟩
  · rintro ⟨e, he, heq⟩
    exact ⟨e, he, (h.sync_eq_iff hsize hcall he).mpr heq⟩

end

/-! ### Held outcomes -/

/-- Nobody holds an outcome for a pending request, nor two parties one for the same. -/
structure HandsApart (s : State) : Prop where
  held : ∀ h slot outcome, s.holding h = some (slot, outcome) →
    slot < s.table.slots.size ∧ ¬s.table.Pends slot
  apart : ∀ h h' slot outcome outcome', s.holding h = some (slot, outcome) →
    s.holding h' = some (slot, outcome') → h = h'

theorem handsApart_start (address : Address) (greeting : Wire.Greeting) (g : SyncIds) :
    HandsApart (start address greeting g) where
  held := by
    intro h slot outcome hh
    cases h <;> cases hh
  apart := by
    intro h h' slot outcome outcome' hh
    cases h <;> cases hh

theorem holding_update {h h' : Holder} {x : Option (ℕ × Outcome)} {slot : ℕ} {outcome : Outcome}
    (hh : Function.update s.holding h x h' = some (slot, outcome)) :
    h' = h ∧ x = some (slot, outcome) ∨ h' ≠ h ∧ s.holding h' = some (slot, outcome) := by
  by_cases heq : h' = h
  · rw [heq, Function.update_self] at hh
    exact .inl ⟨heq, hh⟩
  · rw [Function.update_of_ne heq] at hh
    exact .inr ⟨heq, hh⟩

/-- Hands stay apart when nobody takes an outcome. -/
theorem HandsApart.of_le (hh : HandsApart s)
    (hle : ∀ h slot outcome, s'.holding h = some (slot, outcome) →
      s.holding h = some (slot, outcome))
    (hsize : s.table.slots.size ≤ s'.table.slots.size)
    (hpends : ∀ slot < s.table.slots.size, s'.table.Pends slot → s.table.Pends slot) :
    HandsApart s' where
  held := by
    intro h slot outcome heq
    obtain ⟨hlt, hnot⟩ := hh.held h slot outcome (hle _ _ _ heq)
    exact ⟨Nat.lt_of_lt_of_le hlt hsize, fun hp => hnot (hpends slot hlt hp)⟩
  apart := by
    intro h h' slot outcome outcome' heq heq'
    exact hh.apart h h' slot _ _ (hle _ _ _ heq) (hle _ _ _ heq')

/-- Only what has just been registered becomes pending. -/
theorem Sound.pends_of_pends (h : Sound g s) {a : Action} (he : Effect s a s')
    (hsize : s'.table.slots.size ≤ SyncIds.cycle) (slot : ℕ) (hlt : slot < s.table.slots.size)
    (hp : s'.table.Pends slot) : s.table.Pends slot := by
  rcases h.registers_or_shrinks he hsize with ⟨k, -, hr⟩ | ⟨hshrinks, -, -⟩
  · obtain ⟨code, deadline, htable⟩ := hr.table
    obtain ⟨e, hmem, hslot⟩ := hp
    rw [htable] at hmem
    rcases List.mem_append.mp hmem with hold | hnew
    · exact ⟨e, hold, hslot⟩
    · rw [List.mem_singleton.mp hnew] at hslot
      exact absurd hslot.symm (Nat.ne_of_lt hlt)
  · exact hshrinks.pends hp

/-- Every step keeps hands apart. -/
theorem HandsApart.step (hh : HandsApart s) (h : Sound g s) {a : Action} (he : Effect s a s')
    (hsize : s'.table.slots.size ≤ SyncIds.cycle) : HandsApart s' := by
  have hle := he.size_le
  have hpends := h.pends_of_pends he hsize
  cases he with
  | taken h₀ e outcome₀ _ find table _ _ _ holding =>
    have hmem := (Inflight.mem_of_find? find).1
    have hpending : s.table.Pends e.slot := ⟨e, hmem, rfl⟩
    constructor
    · intro h' slot outcome heq
      rw [holding] at heq
      rcases holding_update heq with ⟨-, heq⟩ | ⟨-, heq⟩
      · -- the entry that has been taken was the only one with its slot
        cases heq
        refine ⟨Nat.lt_of_lt_of_le (h.keyed.slot_lt e hmem) hle, ?_⟩
        rintro ⟨e', he', hslot⟩
        rw [table, Inflight.without, List.mem_filter] at he'
        have hsame := h.keyed.eq_of_slot he'.1 hmem hslot
        rw [hsame] at he'
        simp at he'
      · obtain ⟨hlt, hnot⟩ := hh.held h' slot outcome heq
        exact ⟨Nat.lt_of_lt_of_le hlt hle, fun hp => hnot (hpends slot hlt hp)⟩
    · -- nobody held an outcome for the request that was still pending
      intro h₁ h₂ slot outcome₁ outcome₂ heq₁ heq₂
      rw [holding] at heq₁ heq₂
      rcases holding_update heq₁ with ⟨h₁eq, heq₁⟩ | ⟨-, heq₁⟩ <;>
        rcases holding_update heq₂ with ⟨h₂eq, heq₂⟩ | ⟨-, heq₂⟩
      · rw [h₁eq, h₂eq]
      · cases heq₁
        exact absurd hpending (hh.held h₂ _ _ heq₂).2
      · cases heq₂
        exact absurd hpending (hh.held h₁ _ _ heq₁).2
      · exact hh.apart h₁ h₂ slot _ _ heq₁ heq₂
  | delivered h₀ slot₀ outcome₀ held _ _ _ holding =>
    refine hh.of_le ?_ hle hpends
    intro h' slot outcome heq
    rw [holding] at heq
    rcases holding_update heq with ⟨-, heq⟩ | ⟨-, heq⟩
    · cases heq
    · exact heq
  | quiet _ _ _ _ _ _ holding | registered _ _ _ _ _ _ _ holding
  | expired _ _ _ _ _ _ _ _ _ _ holding | released _ _ _ _ _ _ _ _ holding =>
    exact hh.of_le (fun _ _ _ heq => holding ▸ heq) hle hpends

/-! ### Runs -/

variable {address : Address} {greeting : Wire.Greeting} {run : List Transition}

/-- In every state of a run that has not drawn all ids, entries and calls belong together, and hands
are apart. -/
theorem Run.sound (hr : Run (start address greeting g) run s)
    (hsize : s.table.slots.size ≤ SyncIds.cycle) : Sound g s ∧ HandsApart s := by
  induction hr with
  | nil => exact ⟨sound_start address greeting g, handsApart_start address greeting g⟩
  | snoc _ last ih =>
    have he := last.effect
    obtain ⟨hsound, hapart⟩ := ih (Nat.le_trans he.size_le hsize)
    exact ⟨hsound.step he hsize, hapart.step hsound he hsize⟩

end Interleaving

end Switchboard
