import Switchboard.Inflight.Script
import Switchboard.Proofs.Inflight.Table

/-!
# Runs over requests in flight

Whatever is done to a table and in whichever order, every request is settled by the operation that
removes its entry and by no other.

## Main definitions

- `Inflight.Event` — an operation with what it returned and the tables around it
- `Inflight.State.events` — the events of a script
- `Inflight.Event.Removes`, `Inflight.Event.delivered` — what an event does to a waiter
- `Inflight.Event.Law` — what holds of an event, given those before it

## Main statements

- `Inflight.Event.changed_step` — what an operation can do to a table
- `Inflight.History.append` — what every operation preserves
- `Inflight.events_lawful` — every event of every run is lawful
-/

namespace Switchboard.Inflight

/-- An operation, what it returned, and the tables before and after it. -/
structure Event where
  before : Inflight
  step : Step
  result : Result
  after : Inflight

/-- The event of an operation in a state. -/
def State.event (s : State) (step : Step) : Event :=
  ⟨s.table, step, (s.step step).1, (s.step step).2.table⟩

/-- The events of a script from a state on. -/
def State.events : State → List Step → List Event
  | _, [] => []
  | s, step :: rest => s.event step :: (s.step step).2.events rest

namespace Event

/-- What is seen of the event. -/
def report (e : Event) : Report :=
  Inflight.report e.result e.before e.after

/-- The operation comes to an end.  Registering draws ids until one is free, so it does only while
there is one. -/
def Ends (e : Event) : Prop :=
  match e.step with
  | .register .. => ∃ id, id ≠ 0 ∧ e.before.contains id = false
  | _ => True

/-- The ids that the operation is to remove. -/
def targets (e : Event) : List UInt64 :=
  match e.step with
  | .resolve sync _ | .cancel sync => [sync]
  | .failAll _ => e.before.syncs
  | _ => []

/-- What the operation has for the waiters of the entries that it removes; `none` when it drops
their senders without an outcome. -/
def award (e : Event) : Option Outcome :=
  match e.step with
  | .resolve _ outcome => some outcome
  | .failAll fault => some (.error fault)
  | _ => none

/-- The entry that the operation registers.  Its waiter is the next one. -/
def added (e : Event) : List Pending :=
  match e.step, e.result with
  | .register _ code deadline, .sync id => [⟨id, code, deadline, e.before.slots.size⟩]
  | _, _ => []

/-- How many entries the operation says it has removed. -/
def removed (e : Event) : ℕ :=
  match e.step, e.result with
  | .resolve _ _, .flag found => found.toNat
  | .cancel _, .flag found => found.toNat
  | .failAll _, .count count => count
  | _, _ => 0

/-- The operation removes the entry of a waiter. -/
def Removes (e : Event) (waiter : ℕ) : Prop :=
  e.before.Pends waiter ∧ ¬e.after.Pends waiter

/-- A waiter that exists goes away. -/
def Drops (e : Event) (waiter : ℕ) : Prop :=
  match e.step with
  | .forget gone => gone = waiter ∧ waiter < e.before.slots.size
  | _ => False

/-- The waiters that the operation completes, each with its outcome or with `none` when there will
be none. -/
def delivered (e : Event) : List (ℕ × Option Outcome) :=
  e.report.delivered

end Event

/-- What is seen of a script is what is seen of its events. -/
theorem runFrom_eq_map_events (s : State) (steps : List Step) :
    runFrom s steps = (s.events steps).map Event.report := by
  induction steps generalizing s with
  | nil => rfl
  | cons step rest ih =>
    simp only [runFrom, State.events, List.map_cons, ih]
    rfl

/-- How many requests have been registered. -/
def registrations (run : List Event) : ℕ :=
  (run.flatMap Event.added).length

/-- How many entries have been removed, by what the operations said. -/
def removals (run : List Event) : ℕ :=
  run.foldl (fun count e => count + e.removed) 0

theorem registrations_append (run : List Event) (e : Event) :
    registrations (run ++ [e]) = registrations run + e.added.length := by
  simp [registrations]

theorem removals_append (run : List Event) (e : Event) :
    removals (run ++ [e]) = removals run + e.removed := by
  simp [removals]

/-- What holds of an event, given the events before it. -/
structure Event.Law (past : List Event) (e : Event) : Prop where
  /-- the pending ids are distinct -/
  syncs_nodup : e.after.syncs.Nodup
  /-- and none of them is 0 -/
  zero_notMem : 0 ∉ e.after.syncs
  /-- the entries aimed at go, the one registered comes, and all others stay as they are -/
  entries : e.after.entries = e.before.entries.filter (·.sync ∉ e.targets) ++ e.added
  /-- nothing happens to a waiter whose entry stays and who does not go away -/
  slots : ∀ w < e.before.slots.size, ¬e.Removes w → ¬e.Drops w → e.after.slot w = e.before.slot w
  /-- every request gets a waiter of its own -/
  waiter : ∀ entry ∈ e.added, entry.slot = registrations past
  /-- every pending entry is one that was registered -/
  registered : ∀ entry ∈ e.before.entries, ∃ p ∈ past, entry ∈ p.added
  /-- an entry goes exactly when the operation is aimed at its id -/
  removes_iff : ∀ w, e.Removes w ↔
    ∃ entry ∈ e.before.entries, entry.slot = w ∧ entry.sync ∈ e.targets
  /-- no entry is removed twice -/
  removed_once : ∀ w, e.Removes w → ∀ p ∈ past, ¬p.Removes w
  /-- the waiters of the entries that go, and only they, get what the operation has for them, unless
  they have gone away before -/
  delivered_iff : ∀ w outcome, (w, outcome) ∈ e.delivered ↔
    e.Removes w ∧ outcome = e.award ∧ ∀ p ∈ past, ¬p.Drops w
  /-- and they get it once -/
  delivered_nodup : (e.delivered.map Prod.fst).Nodup
  /-- resolving and cancelling tell whether the id was pending and do nothing if it was not; failing
  all requests counts them and leaves none -/
  result : match e.step with
    | .resolve sync _ | .cancel sync =>
      e.result = .flag (e.before.contains sync) ∧
        (e.before.contains sync = false → e.after = e.before)
    | .failAll _ => e.result = .count e.before.size ∧ e.after.entries = []
    | .register .. => ∃ id, e.result = .sync id
    | _ => True
  /-- what is pending is what was registered and not removed -/
  size : e.after.size + removals (past ++ [e]) = registrations (past ++ [e])
  /-- there is no latest deadline exactly when nothing is pending -/
  deadline_none : e.after.latestDeadline = none ↔ e.after.entries = []
  /-- and otherwise it is the largest one -/
  deadline_max : ∀ d, e.after.latestDeadline = some d →
    (∃ entry ∈ e.after.entries, entry.deadline = d) ∧ ∀ entry ∈ e.after.entries, entry.deadline ≤ d

/-! ### Reports -/

/-- How a wait for a slot ends: with an outcome, without one, or not yet. -/
def ending? : Slot → Option (Option Outcome)
  | .delivered outcome => some (some outcome)
  | .severed => some none
  | _ => none

/-- The line of a report for a slot that held `before` and now holds `after`. -/
def line? (index : ℕ) (before after : Slot) : Option (ℕ × Option Outcome) :=
  match before with
  | .waiting => (ending? after).map fun outcome => (index, outcome)
  | _ => none

theorem completed_cons (index : ℕ) (b a : Slot) (before after : List Slot) :
    completed index (b :: before) (a :: after) =
      (line? index b a).toList ++ completed (index + 1) before after := by
  cases b with
  | waiting => cases a <;> rfl
  | _ => rfl

theorem line?_eq_some_iff {index w : ℕ} {b a : Slot} {outcome : Option Outcome} :
    line? index b a = some (w, outcome) ↔
      w = index ∧ b = .waiting ∧ ending? a = some outcome := by
  cases b with
  | waiting =>
    simp only [line?, Option.map_eq_some_iff]
    constructor
    · rintro ⟨o, ho, heq⟩
      cases heq
      exact ⟨rfl, trivial, ho⟩
    · rintro ⟨rfl, -, ho⟩
      exact ⟨outcome, ho, rfl⟩
  | _ => simp [line?]

/-- A report lists the waits that ended. -/
theorem mem_completed {index w : ℕ} {before after : List Slot} {outcome : Option Outcome} :
    (w, outcome) ∈ completed index before after ↔
      ∃ k, w = index + k ∧ before[k]? = some .waiting ∧
        ∃ s, after[k]? = some s ∧ ending? s = some outcome := by
  -- the index of the first slot moves along with the two lists
  induction before generalizing index after with
  | nil => simp [completed]
  | cons b before ih =>
    cases after with
    | nil => simp [completed]
    | cons a after =>
      rw [completed_cons, List.mem_append, Option.mem_toList, line?_eq_some_iff, ih]
      constructor
      · rintro (⟨hw, hb, hs⟩ | ⟨k, hw, hb, s, ha, hs⟩)
        · exact ⟨0, hw, congrArg some hb, a, rfl, hs⟩
        · exact ⟨k + 1, by omega, hb, s, ha, hs⟩
      · rintro ⟨k, hw, hb, s, ha, hs⟩
        cases k with
        | zero =>
          simp only [List.getElem?_cons_zero, Option.some.injEq] at hb ha
          subst ha
          exact .inl ⟨hw, hb, hs⟩
        | succ k =>
          rw [List.getElem?_cons_succ] at hb ha
          exact .inr ⟨k, by omega, hb, s, ha, hs⟩

theorem completed_nodup (index : ℕ) (before after : List Slot) :
    ((completed index before after).map Prod.fst).Nodup := by
  induction before generalizing index after with
  | nil => simp [completed]
  | cons b before ih =>
    cases after with
    | nil => simp [completed]
    | cons a after =>
      rw [completed_cons, List.map_append]
      refine List.Nodup.append ?_ (ih (index + 1) after) ?_
      · cases line? index b a <;> simp
      · rw [List.disjoint_left]
        intro w hline hrest
        obtain ⟨⟨w, outcome⟩, hmem, rfl⟩ := List.mem_map.mp hline
        obtain ⟨⟨w', outcome'⟩, hmem', heq⟩ := List.mem_map.mp hrest
        have hw := (line?_eq_some_iff.mp (Option.mem_toList.mp hmem)).1
        obtain ⟨k, hk, -⟩ := mem_completed.mp hmem'
        simp only at heq
        omega

namespace Event

/-- An event completes a waiter that waited before and does not wait any more. -/
theorem mem_delivered {e : Event} {w : ℕ} {outcome : Option Outcome} :
    (w, outcome) ∈ e.delivered ↔
      e.before.slot w = .waiting ∧ w < e.after.slots.size ∧
        ending? (e.after.slot w) = some outcome := by
  rw [delivered, report, Inflight.report, mem_completed, slot_eq_waiting_iff]
  constructor
  · rintro ⟨k, hk, hb, s, ha, hs⟩
    rw [Nat.zero_add] at hk
    subst hk
    rw [Array.getElem?_toList] at hb ha
    refine ⟨hb, (Array.getElem?_eq_some_iff.mp ha).1, ?_⟩
    rw [slot_eq, ha]
    exact hs
  · rintro ⟨hb, hlt, hs⟩
    have ha : e.after.slots[w]? = some (e.after.slot w) := by
      rw [slot_eq, Array.getElem?_eq_getElem hlt]
      rfl
    refine ⟨w, (Nat.zero_add w).symm, ?_, e.after.slot w, ?_, hs⟩
    · rw [Array.getElem?_toList, hb]
    · rw [Array.getElem?_toList, ha]

/-! ### What an operation can do -/

/-- The four things that an operation can do to a table, each with all that it does. -/
inductive Changed (e : Event) : Prop
  /-- nothing -/
  | same (after : e.after = e.before) (targets : e.targets = []) (added : e.added = [])
    (removed : e.removed = 0) (drops : ∀ w, ¬e.Drops w)
  /-- it adds an entry under a free id and a new waiter -/
  | registered (entry : Pending) (nonzero : entry.sync ≠ 0) (free : entry.sync ∉ e.before.syncs)
    (slot : entry.slot = e.before.slots.size)
    (after : e.after = ⟨e.before.entries ++ [entry], e.before.slots.push .waiting⟩)
    (targets : e.targets = []) (added : e.added = [entry]) (removed : e.removed = 0)
    (drops : ∀ w, ¬e.Drops w)
  /-- it withdraws ids -/
  | withdrawn (new : Slot) (after : e.before.Withdrawn e.targets new e.after)
    (ending : ending? new = some e.award) (added : e.added = [])
    (removed : e.after.size + e.removed = e.before.size) (drops : ∀ w, ¬e.Drops w)
  /-- a waiter goes away -/
  | dropped (gone : ℕ) (after : e.after = e.before.forget gone) (targets : e.targets = [])
    (added : e.added = []) (removed : e.removed = 0)
    (drops : ∀ w, e.Drops w ↔ gone = w ∧ w < e.before.slots.size)

/-- Every operation that comes to an end does one of the four. -/
theorem changed_step {s : State} {step : Step} (hk : s.table.Keyed) (hends : (s.event step).Ends) :
    (s.event step).Changed := by
  cases step with
  | next generator => exact .same rfl rfl rfl rfl (fun _ => id)
  | contains sync => exact .same rfl rfl rfl rfl (fun _ => id)
  | register generator code deadline =>
    have hfree := firstFree_not_contains (g := s.generator generator) hends
    exact .registered _ (firstFree_ne_zero _ _ _) (contains_eq_false_iff.mp hfree) rfl rfl rfl rfl
      rfl (fun _ => id)
  | resolve sync outcome =>
    exact .withdrawn (.delivered outcome) (withdrawn_remove hk sync _) rfl rfl
      (size_remove hk sync _) (fun _ => id)
  | cancel sync =>
    exact .withdrawn .severed (withdrawn_remove hk sync _) rfl rfl (size_remove hk sync _)
      (fun _ => id)
  | failAll fault =>
    refine .withdrawn (.delivered (.error fault)) (withdrawn_failEach hk fault _) rfl rfl ?_
      (fun _ => id)
    exact size_failEach hk fault s.table.syncs
  | forget waiter => exact .dropped waiter rfl rfl rfl rfl (fun _ => Iff.rfl)

variable {e : Event}

theorem Changed.entries_eq (h : e.Changed) :
    e.after.entries = e.before.entries.filter (·.sync ∉ e.targets) ++ e.added := by
  cases h with
  | same after targets added => simp [after, targets, added]
  | registered entry _ _ _ after targets added => simp [after, targets, added]
  | withdrawn new after _ added => simp [after.entries, added]
  | dropped gone after targets added => simp [after, targets, added, forget]

theorem Changed.slot_of_added (h : e.Changed) {entry : Pending} (hmem : entry ∈ e.added) :
    entry.slot = e.before.slots.size := by
  cases h with
  | same _ _ added => simp [added] at hmem
  | registered new _ _ slot _ _ added =>
    rw [added, List.mem_singleton] at hmem
    rw [hmem, slot]
  | withdrawn _ _ _ added => simp [added] at hmem
  | dropped _ _ _ added => simp [added] at hmem

theorem Changed.slots_size (h : e.Changed) :
    e.after.slots.size = e.before.slots.size + e.added.length := by
  cases h with
  | same after _ added => simp [after, added]
  | registered entry _ _ _ after _ added => simp [after, added]
  | withdrawn new after _ added => simp [after.size, added]
  | dropped gone after _ added => simp [after, added, forget]

theorem Changed.size_eq (h : e.Changed) :
    e.after.size + e.removed = e.before.size + e.added.length := by
  cases h with
  | same after _ added removed => simp [after, added, removed]
  | registered entry _ _ _ after _ added removed => simp [after, added, removed, size]
  | withdrawn new _ _ added removed => simp [added, removed]
  | dropped gone after _ added removed => simp [after, added, removed, size, forget]

theorem Changed.keyed (h : e.Changed) (hk : e.before.Keyed) : e.after.Keyed := by
  cases h with
  | same after => rwa [after]
  | registered entry nonzero free slot after =>
    rw [after]
    exact hk.append nonzero free slot
  | withdrawn new after => exact after.keyed hk
  | dropped gone after =>
    rw [after]
    exact hk.of_sublist (List.Sublist.refl _) (by simp [forget])

theorem Changed.slot_of_drops (h : e.Changed) {w : ℕ} (hd : e.Drops w) :
    e.after.slot w = .forgotten := by
  cases h with
  | same _ _ _ _ drops => exact absurd hd (drops w)
  | registered _ _ _ _ _ _ _ _ drops => exact absurd hd (drops w)
  | withdrawn _ _ _ _ _ drops => exact absurd hd (drops w)
  | dropped gone after _ _ _ drops =>
    obtain ⟨rfl, hlt⟩ := (drops w).mp hd
    rw [after, slot_forget, if_pos ⟨rfl, hlt⟩]

theorem Changed.slot_of_new (h : e.Changed) {entry : Pending} (hmem : entry ∈ e.added) :
    e.after.slot entry.slot = .waiting := by
  rw [h.slot_of_added hmem]
  cases h with
  | same _ _ added => simp [added] at hmem
  | registered _ _ _ _ after => rw [after, slot_push e.before.entries, if_pos rfl]
  | withdrawn _ _ _ added => simp [added] at hmem
  | dropped _ _ _ added => simp [added] at hmem

/-- What is pending afterwards was pending and not aimed at, or has just been registered. -/
theorem Changed.pends_after_iff (h : e.Changed) {w : ℕ} :
    e.after.Pends w ↔
      (∃ entry ∈ e.before.entries, entry.sync ∉ e.targets ∧ entry.slot = w) ∨
      ∃ entry ∈ e.added, entry.slot = w := by
  simp only [Pends, h.entries_eq, List.mem_append, List.mem_filter, decide_eq_true_eq]
  constructor
  · rintro ⟨entry, ⟨hmem, hnot⟩ | hmem, hslot⟩
    · exact .inl ⟨entry, hmem, hnot, hslot⟩
    · exact .inr ⟨entry, hmem, hslot⟩
  · rintro (⟨entry, hmem, hnot, hslot⟩ | ⟨entry, hmem, hslot⟩)
    · exact ⟨entry, .inl ⟨hmem, hnot⟩, hslot⟩
    · exact ⟨entry, .inr hmem, hslot⟩

/-- An entry goes exactly when the operation is aimed at its id. -/
theorem Changed.removes_iff (h : e.Changed) (hk : e.before.Keyed) {w : ℕ} :
    e.Removes w ↔ ∃ entry ∈ e.before.entries, entry.slot = w ∧ entry.sync ∈ e.targets := by
  rw [Removes, h.pends_after_iff, not_or]
  constructor
  · rintro ⟨⟨entry, hmem, hslot⟩, hkept, -⟩
    refine ⟨entry, hmem, hslot, ?_⟩
    by_contra hnot
    exact hkept ⟨entry, hmem, hnot, hslot⟩
  · rintro ⟨entry, hmem, hslot, htarget⟩
    refine ⟨⟨entry, hmem, hslot⟩, ?_, ?_⟩
    · rintro ⟨other, hother, hnot, hsame⟩
      rw [hk.eq_of_slot hother hmem (hsame.trans hslot.symm)] at hnot
      exact hnot htarget
    · rintro ⟨new, hnew, hsame⟩
      have hlt := hk.slot_lt entry hmem
      have hfresh := h.slot_of_added hnew
      omega

/-- Nothing happens to a waiter whose entry stays and who does not go away. -/
theorem Changed.slot_eq (h : e.Changed) (hk : e.before.Keyed) {w : ℕ}
    (hlt : w < e.before.slots.size) (hr : ¬e.Removes w) (hd : ¬e.Drops w) :
    e.after.slot w = e.before.slot w := by
  rw [h.removes_iff hk] at hr
  cases h with
  | same after => rw [after]
  | registered entry _ _ _ after =>
    rw [after, slot_push e.before.entries, if_neg (Nat.ne_of_lt hlt)]
  | withdrawn new after =>
    apply after.kept w
    intro entry hmem htarget hslot
    exact hr ⟨entry, hmem, hslot, htarget⟩
  | dropped gone after _ _ _ drops =>
    rw [after, slot_forget, if_neg]
    rintro ⟨rfl, hgone⟩
    exact hd ((drops w).mpr ⟨rfl, hgone⟩)

/-- The waiter of an entry that goes gets what the operation has for it if it waits. -/
theorem Changed.ending_of_removes (h : e.Changed) (hk : e.before.Keyed) {w : ℕ}
    (hr : e.Removes w) (hw : e.before.slot w = .waiting) :
    ending? (e.after.slot w) = some e.award := by
  obtain ⟨entry, hmem, rfl, htarget⟩ := (h.removes_iff hk).mp hr
  cases h with
  | same _ targets => simp [targets] at htarget
  | registered _ _ _ _ _ targets => simp [targets] at htarget
  | withdrawn new after ending =>
    rw [after.settled entry hmem htarget, hw]
    exact ending
  | dropped _ _ targets => simp [targets] at htarget

theorem lt_of_drops {w : ℕ} (h : e.Drops w) : w < e.before.slots.size := by
  unfold Drops at h
  split at h
  · exact h.2
  · exact h.elim

end Event

/-! ### Histories -/

/-- What the events so far say of a table. -/
structure History (past : List Event) (t : Inflight) : Prop where
  keyed : t.Keyed
  slots_size : t.slots.size = registrations past
  size : t.size + removals past = registrations past
  registered : ∀ entry ∈ t.entries, ∃ p ∈ past, entry ∈ p.added
  unremoved : ∀ w, t.Pends w → ∀ p ∈ past, ¬p.Removes w
  waiting_iff : ∀ w, t.Pends w → (t.slot w = .waiting ↔ ∀ p ∈ past, ¬p.Drops w)
  known : ∀ p ∈ past, ∀ w, p.Removes w ∨ p.Drops w → w < t.slots.size

theorem history_empty : History [] empty where
  keyed := keyed_empty
  slots_size := rfl
  size := rfl
  registered := by
    intro entry hmem
    cases hmem
  unremoved := by
    intro w _ p hp
    cases hp
  waiting_iff := by
    rintro w ⟨entry, hmem, -⟩
    cases hmem
  known := by
    intro p hp
    cases hp

variable {past : List Event} {e : Event}

/-- A request that is pending after an event was pending before it or has a new waiter. -/
theorem History.old_or_new (h : History past e.before) (hc : e.Changed) {w : ℕ}
    (hw : e.after.Pends w) :
    (e.before.Pends w ∧ ¬e.Removes w ∧ w < e.before.slots.size) ∨
      ∃ entry ∈ e.added, entry.slot = w ∧ e.before.slots.size = w := by
  have hr : ¬e.Removes w := fun hr => hr.2 hw
  rcases hc.pends_after_iff.mp hw with ⟨entry, hmem, -, hslot⟩ | ⟨entry, hmem, hslot⟩
  · refine .inl ⟨⟨entry, hmem, hslot⟩, hr, ?_⟩
    rw [← hslot]
    exact h.keyed.slot_lt entry hmem
  · exact .inr ⟨entry, hmem, hslot, (hc.slot_of_added hmem).symm.trans hslot⟩

/-- Every event that comes to an end continues the history. -/
theorem History.append (h : History past e.before) (hc : e.Changed) :
    History (past ++ [e]) e.after where
  keyed := hc.keyed h.keyed
  slots_size := by
    rw [hc.slots_size, h.slots_size, registrations_append]
  size := by
    have hsize := h.size
    have hchange := hc.size_eq
    rw [removals_append, registrations_append]
    omega
  registered := by
    intro entry hmem
    rw [hc.entries_eq, List.mem_append, List.mem_filter] at hmem
    rcases hmem with ⟨hold, -⟩ | hnew
    · obtain ⟨p, hp, hadded⟩ := h.registered entry hold
      exact ⟨p, List.mem_append_left _ hp, hadded⟩
    · exact ⟨e, List.mem_append_right _ (List.mem_singleton.mpr rfl), hnew⟩
  unremoved := by
    intro w hw p hp hremoves
    rcases List.mem_append.mp hp with hp | hp
    · rcases h.old_or_new hc hw with ⟨hpends, -, -⟩ | ⟨-, -, -, hsize⟩
      · exact h.unremoved w hpends p hp hremoves
      · -- an earlier event knew fewer waiters than there are before this one
        have hlt := h.known p hp w (.inl hremoves)
        omega
    · rw [List.mem_singleton.mp hp] at hremoves
      exact hremoves.2 hw
  waiting_iff := by
    intro w hw
    simp only [List.mem_append, List.mem_singleton, or_imp, forall_and, forall_eq]
    rcases h.old_or_new hc hw with ⟨hpends, hremoves, hlt⟩ | ⟨entry, hmem, hslot, hsize⟩
    · by_cases hdrops : e.Drops w
      · simp [hc.slot_of_drops hdrops, hdrops]
      · rw [hc.slot_eq h.keyed hlt hremoves hdrops, h.waiting_iff w hpends]
        exact ⟨fun hno => ⟨hno, hdrops⟩, And.left⟩
    · -- nobody can have dropped a waiter that has just come into being
      have hwaits : e.after.slot w = .waiting := hslot ▸ hc.slot_of_new hmem
      refine ⟨fun _ => ⟨?_, ?_⟩, fun _ => hwaits⟩
      · intro p hp hdrops
        have hlt := h.known p hp w (.inr hdrops)
        omega
      · intro hdrops
        have hlt := e.lt_of_drops hdrops
        omega
  known := by
    intro p hp w hw
    rw [hc.slots_size]
    apply Nat.lt_add_right
    rcases List.mem_append.mp hp with hp | hp
    · exact h.known p hp w hw
    · rw [List.mem_singleton.mp hp] at hw
      rcases hw with ⟨⟨entry, hmem, hslot⟩, -⟩ | hdrops
      · rw [← hslot]
        exact h.keyed.slot_lt entry hmem
      · exact e.lt_of_drops hdrops

/-- The waiters that an event completes are those whose entries it removes and who have not gone
away. -/
theorem History.mem_delivered_iff (h : History past e.before) (hc : e.Changed) {w : ℕ}
    {outcome : Option Outcome} :
    (w, outcome) ∈ e.delivered ↔
      e.Removes w ∧ outcome = e.award ∧ ∀ p ∈ past, ¬p.Drops w := by
  rw [Event.mem_delivered]
  constructor
  · rintro ⟨hwaits, -, hending⟩
    have hlt : w < e.before.slots.size := by
      by_contra hge
      rw [slot_of_size_le (Nat.le_of_not_lt hge)] at hwaits
      cases hwaits
    have hremoves : e.Removes w := by
      by_contra hremoves
      -- otherwise the slot is forgotten or still waits, and neither is a result
      by_cases hdrops : e.Drops w
      · rw [hc.slot_of_drops hdrops] at hending
        cases hending
      · rw [hc.slot_eq h.keyed hlt hremoves hdrops, hwaits] at hending
        cases hending
    rw [hc.ending_of_removes h.keyed hremoves hwaits] at hending
    refine ⟨hremoves, (Option.some.inj hending).symm, ?_⟩
    exact (h.waiting_iff w hremoves.1).mp hwaits
  · rintro ⟨hremoves, rfl, hdrops⟩
    have hwaits := (h.waiting_iff w hremoves.1).mpr hdrops
    refine ⟨hwaits, ?_, hc.ending_of_removes h.keyed hremoves hwaits⟩
    obtain ⟨entry, hmem, hslot⟩ := hremoves.1
    have hlt := h.keyed.slot_lt entry hmem
    rw [hc.slots_size]
    omega

/-! ### Laws -/

theorem latestDeadline_eq_none_iff {t : Inflight} : t.latestDeadline = none ↔ t.entries = [] := by
  rw [latestDeadline, List.max?_eq_none_iff, List.map_eq_nil_iff]

theorem latestDeadline_eq_some {t : Inflight} {d : ℕ} (h : t.latestDeadline = some d) :
    (∃ entry ∈ t.entries, entry.deadline = d) ∧ ∀ entry ∈ t.entries, entry.deadline ≤ d := by
  obtain ⟨hmem, hmax⟩ := List.max?_eq_some_iff.mp h
  exact ⟨List.mem_map.mp hmem, fun entry he => hmax _ (List.mem_map.mpr ⟨entry, he, rfl⟩)⟩

/-- An event that continues a history and comes to an end is lawful. -/
theorem History.law {s : State} {step : Step} (h : History past s.table)
    (hends : (s.event step).Ends) : (s.event step).Law past := by
  have hc := Event.changed_step h.keyed hends
  have hnext : History (past ++ [s.event step]) (s.event step).after := h.append hc
  refine ⟨hnext.keyed.syncs, hnext.keyed.nonzero, hc.entries_eq, ?_, ?_, h.registered, ?_, ?_, ?_,
    completed_nodup _ _ _, ?_, hnext.size, latestDeadline_eq_none_iff,
    fun d => latestDeadline_eq_some⟩
  · intro w hlt hremoves hdrops
    exact hc.slot_eq h.keyed hlt hremoves hdrops
  · intro entry hmem
    exact (hc.slot_of_added hmem).trans h.slots_size
  · intro w
    exact hc.removes_iff h.keyed
  · intro w hremoves
    exact h.unremoved w hremoves.1
  · intro w outcome
    exact h.mem_delivered_iff hc
  · have hsame : ∀ sync new, s.table.contains sync = false →
        (s.table.remove sync new).2 = s.table := by
      intro sync new hno
      rw [remove_of_find?_none (find?_eq_none_iff.mpr (contains_eq_false_iff.mp hno))]
    cases step with
    | resolve sync outcome => exact ⟨congrArg Result.flag (remove_fst _ _ _), hsame sync _⟩
    | cancel sync => exact ⟨congrArg Result.flag (remove_fst _ _ _), hsame sync _⟩
    | failAll fault =>
      exact ⟨congrArg Result.count (failAll_fst h.keyed fault), entries_failAll h.keyed fault⟩
    | register generator code deadline => exact ⟨_, rfl⟩
    | _ => trivial

/-- Every event of a run that continues a history is lawful. -/
theorem History.laws {s : State} {steps : List Step} (h : History past s.table)
    {before : List Event} {future : List Event}
    (heq : s.events steps = before ++ e :: future) (hends : ∀ p ∈ before ++ [e], p.Ends) :
    e.Law (past ++ before) := by
  induction steps generalizing s past before with
  | nil => simp [State.events] at heq
  | cons step rest ih =>
    rw [State.events] at heq
    cases before with
    | nil =>
      obtain ⟨rfl, -⟩ := List.cons.inj heq
      rw [List.append_nil]
      exact h.law (hends _ (List.mem_cons_self ..))
    | cons first before =>
      obtain ⟨rfl, hrest⟩ := List.cons.inj heq
      have hfirst : (s.event step).Ends := hends _ (List.mem_cons_self ..)
      have hnext := h.append (Event.changed_step h.keyed hfirst)
      have hlaw := ih hnext hrest fun p hp => hends p (List.mem_cons_of_mem _ hp)
      rwa [List.append_assoc] at hlaw

/-- While fewer requests are pending than there are ids, some id is free. -/
theorem exists_free {t : Inflight} (h : t.size < SyncIds.cycle) :
    ∃ id, id ≠ 0 ∧ t.contains id = false := by
  by_contra hno
  have hall : ∀ i < t.size + 1, t.contains (SyncIds.start.nth i) = true := by
    intro i _
    by_contra hfree
    exact hno ⟨_, SyncIds.nth_ne_zero _ i, Bool.not_eq_true _ ▸ hfree⟩
  have hcard := card_le_size h hall
  omega

/-- The operations of a run come to an end while the run is shorter than the cycle of ids. -/
theorem events_end {s : State} {steps : List Step} (hk : s.table.Keyed)
    (hsize : s.table.size + steps.length < SyncIds.cycle) : ∀ e ∈ s.events steps, e.Ends := by
  induction steps generalizing s with
  | nil => simp [State.events]
  | cons step rest ih =>
    rw [List.length_cons] at hsize
    have hfirst : (s.event step).Ends := by
      cases step with
      | register generator code deadline =>
        have hroom : s.table.size < SyncIds.cycle := by omega
        exact exists_free hroom
      | _ => trivial
    have hc := Event.changed_step hk hfirst
    have hgrow : (s.step step).2.table.size ≤ s.table.size + 1 := by
      have hadded : (s.event step).added.length ≤ 1 := by
        cases step <;> simp [Event.added, State.event, State.step]
      have hchange : (s.step step).2.table.size + (s.event step).removed =
          s.table.size + (s.event step).added.length := hc.size_eq
      omega
    intro e he
    rcases List.mem_cons.mp he with rfl | he
    · exact hfirst
    · exact ih (hc.keyed hk) (by omega) e he

/-- Every event of a run that begins with nothing in flight is lawful, whatever generators its
requests take their ids from.  A request that finds no free id never gets to have one, so every
event of the run up to here has come to an end. -/
theorem events_lawful (generators : Array SyncIds) (steps : List Step)
    (past : List Event) (e : Event) (future : List Event)
    (heq : State.events ⟨.empty, generators⟩ steps = past ++ e :: future)
    (hends : ∀ p ∈ past ++ [e], p.Ends) : e.Law past := by
  have hlaw := History.laws (s := ⟨.empty, generators⟩) history_empty heq hends
  rwa [List.nil_append] at hlaw

/-- Two generators hand out the same ids, and the waiter of the first request goes away before all
requests fail. -/
theorem events_lawful_shared_ids :
    ∃ past e, State.events ⟨.empty, #[.start, .start]⟩
        [.register 0 .ping 5, .register 1 .ping 9, .forget 0, .failAll (.transport "gone")] =
          past ++ [e] ∧
      e.before.syncs = [1, 2] ∧ e.Law past ∧
      e.delivered = [(1, some (.error (.transport "gone")))] := by
  let s : State := ⟨.empty, #[.start, .start]⟩
  let steps : List Step :=
    [.register 0 .ping 5, .register 1 .ping 9, .forget 0, .failAll (.transport "gone")]
  have hends : ∀ e ∈ s.events steps, e.Ends := events_end keyed_empty (by decide)
  have hsplit : s.events steps = (s.events steps).dropLast ++
      [(s.events steps).getLast (List.cons_ne_nil _ _)] :=
    (List.dropLast_append_getLast _).symm
  refine ⟨_, _, hsplit, by decide, events_lawful _ _ _ _ [] hsplit ?_, rfl⟩
  rwa [← hsplit]

end Switchboard.Inflight
