import Switchboard.Proofs.Interleaving.Invariant

/-!
# The fate of a call

The entry of a call is removed by at most one step, and what that step has for the call is what the
call ends with.  The fate of a call says which step that was and where its outcome is now.

## Main definitions

- `Interleaving.Transition.Removes`, `Interleaving.RemovedBy` — a step that removes an entry
- `Interleaving.Answers` — what a reply means
- `Interleaving.Transition.Settles` — what such a step has for a call
- `Interleaving.Fate` — the fate of a call after a run

## Main statements

- `Interleaving.Fates.step` — every step continues the fates of all calls
- `Interleaving.Run.fates` — every call has a fate in every state of a run
-/

namespace Switchboard.Interleaving

/-! ### Removing -/

/-- The step removes the entry with the slot. -/
def Transition.Removes (t : Transition) (slot : ℕ) : Prop :=
  t.before.table.Pends slot ∧ ¬t.after.table.Pends slot

/-- The step removes the entry with the slot, and no other step of the run does. -/
def RemovedBy (run : List Transition) (slot : ℕ) (t : Transition) : Prop :=
  ∃ past future, run = past ++ t :: future ∧ t.Removes slot ∧
    ∀ p ∈ past ++ future, ¬p.Removes slot

/-- What a reply means: the body it carries, or a fault of the server with the code it carries and
the text in its body. -/
inductive Answers (m : Wire.Message) : Outcome → Prop
  | body (code : ∀ c, m.header.code ≠ .error c) : Answers m (.ok m.body)
  | fault {c} (code : m.header.code = .error c) :
    Answers m (.error (.server c ((Wire.Body.errorText? m.body).getD "unknown error")))

/-- What a step that removes the entry of a call has for it: an outcome, or `none` when its caller
has gone away. -/
inductive Transition.Settles (t : Transition) (k : ℕ) (call : Call) : Option Outcome → Prop
  | reply {m outcome} (action : t.action = .reader (.take m)) (sync : m.header.sync = call.sync)
    (answers : Answers m outcome) : Settles t k call (some outcome)
  | timer (action : t.action = .sender k .expire) :
    Settles t k call (some (.error (.requestTimeout call.sync call.timeout.millis)))
  | sweep {j ending rest fault} (action : t.action = .ender j .withdraw)
    (ender : t.before.enders j = .sweeping ending (call.sync :: rest))
    (tells : ending.Tells t.before.link.address fault) : Settles t k call (some (.error fault))
  | guard (action : t.action = .sender k .release) : Settles t k call none

theorem answers_replyOutcome (m : Wire.Message) : Answers m (Connection.replyOutcome m) := by
  unfold Connection.replyOutcome
  split
  · next c hc => exact .fault hc
  · next hno => exact .body hno

theorem RemovedBy.append {run : List Transition} {slot : ℕ} {t t' : Transition}
    (h : RemovedBy run slot t) (ht : ¬t'.Removes slot) : RemovedBy (run ++ [t']) slot t := by
  obtain ⟨past, future, rfl, hremoves, hothers⟩ := h
  refine ⟨past, future ++ [t'], by simp, hremoves, ?_⟩
  intro p hp
  rw [← List.append_assoc] at hp
  rcases List.mem_append.mp hp with hp | hp
  · exact hothers p hp
  · rwa [List.mem_singleton.mp hp]

theorem removedBy_last {run : List Transition} {slot : ℕ} {t : Transition}
    (h : ∀ p ∈ run, ¬p.Removes slot) (ht : t.Removes slot) : RemovedBy (run ++ [t]) slot t := by
  refine ⟨run, [], rfl, ht, ?_⟩
  rwa [List.append_nil]

theorem RemovedBy.eq {run : List Transition} {slot : ℕ} {t t' : Transition}
    (h : RemovedBy run slot t) (ht : t' ∈ run) (hr : t'.Removes slot) : t' = t := by
  obtain ⟨past, future, rfl, -, hothers⟩ := h
  rcases List.mem_append.mp ht with hp | hp
  · exact absurd hr (hothers t' (List.mem_append_left _ hp))
  · rcases List.mem_cons.mp hp with heq | hp
    · exact heq
    · exact absurd hr (hothers t' (List.mem_append_right _ hp))

/-! ### Fates -/

/-- The outcome is in the slot, or somebody holds it for the slot. -/
def State.Owes (s : State) (slot : ℕ) (outcome : Outcome) : Prop :=
  s.table.slot slot = .delivered outcome ∨
    s.table.slot slot = .waiting ∧ ∃ h, s.holding h = some (slot, outcome)

/-- The sender may be where it is while the entry of its call is pending. -/
def Sender.MayPend : Sender → Prop
  | .active _ => True
  | .leaving call result => call.progress = .accepted → result = none
  | _ => False

/-- The sender may be where it is when `t` has removed the entry of its call and has had `award` for
it. -/
def Sender.MayEnd (s : State) (k slot : ℕ) (t : Transition) (award : Option Outcome) :
    Sender → Prop
  | .active _ | .overdue _ =>
    t.action ≠ .sender k .expire ∧ ∃ outcome, award = some outcome ∧ s.Owes slot outcome
  | .leaving call result | .gone call result =>
    call.progress = .accepted → result = none ∨ result = award
  | _ => True

/-- What has become of the call of the sender with number `k`, which is at `x` now. -/
inductive Fate (s : State) (run : List Transition) (k : ℕ) (x : Sender) (call : Call) : Prop
  | pending (pends : s.table.Pends call.slot) (slot : s.table.slot call.slot = .waiting)
    (unremoved : ∀ t ∈ run, ¬t.Removes call.slot) (sender : x.MayPend)
  | removed (t : Transition) (award : Option Outcome) (once : RemovedBy run call.slot t)
    (settles : t.Settles k call award) (gone : ¬s.table.Pends call.slot)
    (sender : x.MayEnd s k call.slot t award)

/-- All calls have their fates. -/
structure Fates (s : State) (run : List Transition) : Prop where
  fate : ∀ k call, (s.senders k).call? = some call → Fate s run k (s.senders k) call
  known : ∀ t ∈ run, ∀ slot, t.Removes slot → slot < s.table.slots.size

variable {g : SyncIds} {s s' : State} {a : Action} {run : List Transition} {k : ℕ}
  {x y : Sender} {call call' : Call}

theorem Sender.MayEnd.frame {t : Transition} {award : Option Outcome}
    (hx : x.MayEnd s k call.slot t award)
    (howes : ∀ outcome, s.Owes call.slot outcome → s'.Owes call.slot outcome) :
    x.MayEnd s' k call.slot t award := by
  cases x with
  | active | overdue =>
    obtain ⟨haction, outcome, haward, hslot⟩ := hx
    exact ⟨haction, outcome, haward, howes outcome hslot⟩
  | _ => exact hx

/-- A step that has nothing to do with a call leaves its fate alone. -/
theorem Fate.frame (hf : Fate s run k x call)
    (hpends : s'.table.Pends call.slot ↔ s.table.Pends call.slot)
    (hslot : s'.table.slot call.slot = s.table.slot call.slot)
    (hholding : ∀ h outcome, s.holding h = some (call.slot, outcome) →
      s'.holding h = some (call.slot, outcome)) :
    Fate s' (run ++ [⟨s, a, s'⟩]) k x call := by
  have hno : ¬Transition.Removes ⟨s, a, s'⟩ call.slot := fun hr => hr.2 (hpends.mpr hr.1)
  cases hf with
  | pending pends slot unremoved sender =>
    refine .pending (hpends.mpr pends) (hslot.trans slot) ?_ sender
    intro t ht
    rcases List.mem_append.mp ht with ht | ht
    · exact unremoved t ht
    · rwa [List.mem_singleton.mp ht]
  | removed t award once settles gone sender =>
    refine .removed t award (once.append hno) settles (fun hp => gone (hpends.mp hp)) ?_
    apply sender.frame
    rintro outcome (hdelivered | ⟨hwaiting, h, hheld⟩)
    · exact .inl (hslot.trans hdelivered)
    · exact .inr ⟨hslot.trans hwaiting, h, hholding h outcome hheld⟩

theorem settled?_of_waiting {c : Connection} {slot : ℕ} (h : c.inflight.slot slot = .waiting) :
    Simulation.Sending.settled? c slot = none := by
  rw [Simulation.Sending.settled?, h]

theorem settled?_of_delivered {c : Connection} {slot : ℕ} {outcome : Outcome}
    (h : c.inflight.slot slot = .delivered outcome) :
    Simulation.Sending.settled? c slot = some outcome := by
  rw [Simulation.Sending.settled?, h]

theorem Transition.Settles.congr {t : Transition} {award : Option Outcome}
    (h : t.Settles k call award) (hsync : call'.sync = call.sync)
    (htimeout : call'.timeout = call.timeout) : t.Settles k call' award := by
  cases h with
  | reply action sync answers => exact .reply action (sync.trans hsync.symm) answers
  | timer action =>
    rw [← hsync, ← htimeout]
    exact .timer action
  | sweep action ender tells => exact .sweep action (hsync ▸ ender) tells
  | guard action => exact .guard action

theorem Sender.WaitsFor.mayEnd (hw : x.WaitsFor call) {t : Transition} {award : Option Outcome}
    {slot : ℕ} (hx : x.MayEnd s k slot t award) :
    ∃ outcome, award = some outcome ∧ s.Owes slot outcome := by
  rcases hw with ⟨rfl, -⟩ | rfl <;> exact hx.2

/-- A sender that moves on while the table stays as it is takes the fate of its call along. -/
theorem Fate.goes (hf : Fate s run k x call) (hx : x.call? = some call) (hy : y.call? = some call')
    (hgoes : x.Goes s.link y)
    (hfind : s.table.find? call.sync = none → ¬s.table.Pends call.slot) :
    Fate s run k y call' := by
  cases hgoes with
  | stays =>
    rw [hx] at hy
    rwa [← Option.some.inj hy]
  | asks before =>
    rw [before] at hx
    cases hx
  | proceeds =>
    cases hx
    cases hy
    cases hf with
    | pending pends slot unremoved => exact .pending pends slot unremoved trivial
    | removed t award once settles gone sender =>
      exact .removed t award once (settles.congr rfl rfl) gone sender
  | fails early =>
    cases hx
    cases hy
    cases hf with
    | pending pends slot unremoved =>
      exact .pending pends slot unremoved fun haccepted => absurd haccepted early
    | removed t award once settles gone =>
      exact .removed t award once settles gone fun haccepted => absurd haccepted early
  | lapses _ find =>
    cases hx
    cases hy
    cases hf with
    | pending pends =>
      -- the timer would have found the entry
      exact absurd pends (hfind find)
    | removed t award once settles gone sender => exact .removed t award once settles gone sender
  | receives waits settled =>
    obtain rfl := Option.some.inj (waits.call?.symm.trans hx)
    cases hy
    cases hf with
    | pending _ slot =>
      rw [settled?_of_waiting slot] at settled
      cases settled
    | removed t award once settles gone sender =>
      refine .removed t award once settles gone fun _ => .inr ?_
      obtain ⟨outcome, rfl, hdelivered | ⟨hwaiting, -⟩⟩ := waits.mayEnd sender
      · rw [settled?_of_delivered hdelivered] at settled
        exact settled.symm
      · rw [settled?_of_waiting hwaiting] at settled
        cases settled
  | abandons waits =>
    obtain rfl := Option.some.inj (waits.call?.symm.trans hx)
    cases hy
    cases hf with
    | pending pends slot unremoved => exact .pending pends slot unremoved fun _ => rfl
    | removed t award once settles gone =>
      exact .removed t award once settles gone fun _ => .inl rfl

/-! ### What a step does to the entries -/

theorem pends_without {t : Inflight} (hk : t.Keyed) {e : Pending} (he : e ∈ t.entries) {slot : ℕ} :
    (t.without e.sync).Pends slot ↔ t.Pends slot ∧ slot ≠ e.slot := by
  simp only [Inflight.Pends, Inflight.without, List.mem_filter, decide_eq_true_eq]
  constructor
  · rintro ⟨e', ⟨hmem, hne⟩, rfl⟩
    refine ⟨⟨e', hmem, rfl⟩, fun hslot => hne ?_⟩
    rw [hk.eq_of_slot hmem he hslot]
  · rintro ⟨⟨e', hmem, rfl⟩, hne⟩
    refine ⟨e', ⟨hmem, fun hsync => hne ?_⟩, rfl⟩
    rw [hk.eq_of_sync hmem he hsync]

theorem slot_settled (t : Inflight) (index : ℕ) (new : Slot) (slot : ℕ) :
    (t.settled index new).slot slot =
      if slot = index then Inflight.settledSlot (t.slot slot) new else t.slot slot :=
  Inflight.slot_settle t.entries t.entries t.slots index new slot

section

variable (h : Sound g s) (hsize : s.table.slots.size ≤ SyncIds.cycle)
  (hcall : (s.senders k).call? = some call) (new : Slot) {slot : ℕ}

include h hsize hcall

/-- Removing the id of a call removes its entry and no other. -/
theorem Sound.pends_remove :
    (s.table.remove call.sync new).2.Pends slot ↔ s.table.Pends slot ∧ slot ≠ call.slot := by
  cases hf : s.table.find? call.sync with
  | none =>
    rw [Inflight.remove_of_find?_none hf]
    refine ⟨fun hp => ⟨hp, ?_⟩, And.left⟩
    rintro rfl
    exact (h.find?_eq_none_iff hsize hcall).mp hf hp
  | some e =>
    have hslot := h.slot_of_find? hsize hcall hf
    obtain ⟨he, hsync⟩ := Inflight.mem_of_find? hf
    rw [Inflight.remove_of_find? hf, ← hslot, ← hsync]
    exact pends_without h.keyed he

/-- Removing the id of a call leaves all slots but its own alone. -/
theorem Sound.slot_remove (hne : slot ≠ call.slot) :
    (s.table.remove call.sync new).2.slot slot = s.table.slot slot := by
  cases hf : s.table.find? call.sync with
  | none => rw [Inflight.remove_of_find?_none hf]
  | some e =>
    rw [Inflight.remove_of_find? hf, slot_settled, h.slot_of_find? hsize hcall hf, if_neg hne]
    rfl

end

theorem Sound.slot_ne (h : Sound g s) {k₀ : ℕ} {call₀ : Call}
    (hcall : (s.senders k).call? = some call) (hcall₀ : (s.senders k₀).call? = some call₀)
    (hne : k ≠ k₀) : call.slot ≠ call₀.slot := by
  intro hslot
  apply hne
  apply h.apart k k₀ (call.slot, call.sync) (Sender.key?_of_call? hcall)
  rw [Sender.key?_of_call? hcall₀, hslot, h.sync_eq hcall, h.sync_eq hcall₀, hslot]

/-! ### What a step does to the fates -/

/-- A call that has just been registered is pending. -/
theorem Fate.registered (h : Sound g s) (hf : Fates s run) (hr : Registers g s k s')
    (hcall : (s'.senders k).call? = some call) :
    Fate s' (run ++ [⟨s, a, s'⟩]) k (s'.senders k) call := by
  obtain ⟨code, deadline, htable⟩ := hr.table
  obtain ⟨request, timeout, hsender⟩ := hr.sender
  rw [hsender] at hcall ⊢
  cases hcall
  refine .pending ?_ ?_ ?_ trivial
  · rw [htable]
    exact ⟨_, List.mem_append_right _ (List.mem_singleton.mpr rfl), rfl⟩
  · rw [htable, Inflight.slot_push s.table.entries, if_pos rfl]
  · intro t ht hremoves
    rcases List.mem_append.mp ht with ht | ht
    · exact Nat.lt_irrefl _ (hf.known t ht _ hremoves)
    · rw [List.mem_singleton.mp ht] at hremoves
      obtain ⟨e, he, hslot⟩ := hremoves.1
      have hlt := h.keyed.slot_lt e he
      rw [hslot] at hlt
      exact Nat.lt_irrefl _ hlt

/-- Registering another call has nothing to do with a call. -/
theorem Fate.of_registers {k₀ : ℕ} (hf : Fate s run k x call) (hr : Registers g s k₀ s')
    (hlt : call.slot < s.table.slots.size) : Fate s' (run ++ [⟨s, a, s'⟩]) k x call := by
  obtain ⟨code, deadline, htable⟩ := hr.table
  refine hf.frame ?_ ?_ fun h outcome hh => hr.holding ▸ hh
  · rw [htable, Inflight.Pends, Inflight.Pends]
    simp only [List.mem_append, List.mem_singleton]
    constructor
    · rintro ⟨e, he | rfl, hslot⟩
      · exact ⟨e, he, hslot⟩
      · exact absurd hslot (Nat.ne_of_gt hlt)
    · rintro ⟨e, he, hslot⟩
      exact ⟨e, .inl he, hslot⟩
  · rw [htable, Inflight.slot_push s.table.entries, if_neg (Nat.ne_of_lt hlt)]

/-- The party that takes the entry of a call settles the fate of the call. -/
theorem Fate.taken {h₀ : Holder} {e : Pending} {outcome : Outcome} (hk : s.table.Keyed)
    (hf : Fate s run k x call) (he : e ∈ s.table.entries) (hsync : e.sync = call.sync)
    (hslot : e.slot = call.slot) (hreason : Reason s e.sync a h₀ outcome)
    (htable : s'.table = s.table.without e.sync)
    (hheld : s'.holding h₀ = some (e.slot, outcome)) :
    Fate s' (run ++ [⟨s, a, s'⟩]) k x call := by
  have hpends : s.table.Pends call.slot := ⟨e, he, hslot⟩
  have hgone : ¬s'.table.Pends call.slot := by
    rw [htable, pends_without hk he, hslot]
    exact fun hp => hp.2 rfl
  cases hf with
  | removed _ _ _ _ gone => exact absurd hpends gone
  | pending _ slot unremoved sender =>
    refine .removed ⟨s, a, s'⟩ (some outcome) (removedBy_last unremoved ⟨hpends, hgone⟩) ?_ hgone ?_
    · rw [hsync] at hreason
      cases hreason with
      | reply sync => exact .reply rfl sync (answers_replyOutcome _)
      | sweep ender => exact .sweep rfl ender (Ending.tells_fault ..)
    · have howes : s'.Owes call.slot outcome := by
        rw [hslot] at hheld
        refine .inr ⟨?_, h₀, hheld⟩
        rw [htable]
        exact slot
      have haction : a ≠ .sender k .expire := by
        cases hreason <;> nofun
      cases x with
      | active => exact ⟨haction, outcome, rfl, howes⟩
      | leaving => exact fun haccepted => .inl (sender haccepted)
      | _ => exact sender.elim

/-- Settling the slot of a call keeps its outcome. -/
theorem Fate.delivered {h₀ : Holder} {outcome : Outcome} (hh : HandsApart s)
    (hf : Fate s run k x call) (hheld : s.holding h₀ = some (call.slot, outcome))
    (htable : s'.table = s.table.settled call.slot (.delivered outcome)) :
    Fate s' (run ++ [⟨s, a, s'⟩]) k x call := by
  have hgone : ¬s'.table.Pends call.slot := by
    rw [htable]
    exact (hh.held h₀ _ _ hheld).2
  cases hf with
  | pending pends => exact absurd pends (hh.held h₀ _ _ hheld).2
  | removed t award once settles gone sender =>
    refine .removed t award (once.append fun hr => gone hr.1) settles hgone (sender.frame ?_)
    intro outcome' howes
    refine .inl ?_
    rw [htable, slot_settled, if_pos rfl]
    rcases howes with hdelivered | ⟨hwaiting, h, hheld'⟩
    · rw [hdelivered]
      rfl
    · -- the outcome that is held for the slot is the one that is delivered
      rw [hh.apart h h₀ _ _ _ hheld' hheld, hheld] at hheld'
      cases hheld'
      rw [hwaiting]
      rfl

/-- A sender whose deadline has come settles the fate of its call if its entry is still there. -/
theorem Fate.expired (hf : Fate s run k (.active call) call) (hpends : s.table.Pends call.slot)
    (haction : a = .sender k .expire) (hgone : ¬s'.table.Pends call.slot) :
    Fate s' (run ++ [⟨s, a, s'⟩]) k
      (.leaving call (some (.error (.requestTimeout call.sync call.timeout.millis)))) call := by
  cases hf with
  | removed _ _ _ _ gone => exact absurd hpends gone
  | pending _ _ unremoved =>
    exact .removed _ _ (removedBy_last unremoved ⟨hpends, hgone⟩) (.timer haction) hgone
      fun _ => .inr rfl

/-- A sender that gives up its slot settles the fate of its call if its entry is still there. -/
theorem Fate.released {result : Option Outcome} (hf : Fate s run k (.leaving call result) call)
    (haction : a = .sender k .release) (hgone : ¬s'.table.Pends call.slot) :
    Fate s' (run ++ [⟨s, a, s'⟩]) k (.gone call result) call := by
  cases hf with
  | pending pends _ unremoved sender =>
    exact .removed _ none (removedBy_last unremoved ⟨pends, hgone⟩) (.guard haction) hgone
      fun haccepted => .inl (sender haccepted)
  | removed t award once settles gone sender =>
    exact .removed t award (once.append fun hr => gone hr.1) settles hgone sender

/-- A sender that removes its own entry has nothing to do with the calls of others, whether or not
it gives up its slot as well. -/
theorem Fate.of_other {k₀ : ℕ} {call₀ : Call} (h : Sound g s)
    (hsize : s.table.slots.size ≤ SyncIds.cycle) (hf : Fate s run k x call)
    (hcall₀ : (s.senders k₀).call? = some call₀) (hne : call.slot ≠ call₀.slot)
    (hpends : ∀ slot, s'.table.Pends slot ↔ (s.table.remove call₀.sync .severed).2.Pends slot)
    (hslots : ∀ slot ≠ call₀.slot,
      s'.table.slot slot = (s.table.remove call₀.sync .severed).2.slot slot)
    (hholding : s'.holding = s.holding) : Fate s' (run ++ [⟨s, a, s'⟩]) k x call := by
  refine hf.frame ?_ ?_ fun h outcome hheld => hholding ▸ hheld
  · rw [hpends, h.pends_remove hsize hcall₀]
    exact ⟨And.left, fun hp => ⟨hp, hne⟩⟩
  · rw [hslots _ hne, h.slot_remove hsize hcall₀ _ hne]

theorem Sender.Goes.exists_call {c : Connection} (hgoes : x.Goes c y)
    (hy : y.call? = some call') : ∃ call, x.call? = some call := by
  have hkey : x.key? = some (call'.slot, call'.sync) :=
    hgoes.key?.symm.trans (Sender.key?_of_call? hy)
  obtain ⟨call, hcall, -⟩ := Option.map_eq_some_iff.mp hkey
  exact ⟨call, hcall⟩

/-- Every step that registers nothing continues the fates of all calls. -/
theorem Fates.fate_step (h : Sound g s) (hh : HandsApart s) (hf : Fates s run)
    (he : Effect s a s') (hsize : s.table.slots.size ≤ SyncIds.cycle)
    (hsame : s'.table.slots.size = s.table.slots.size)
    (hcall' : (s'.senders k).call? = some call') :
    Fate s' (run ++ [⟨s, a, s'⟩]) k (s'.senders k) call' := by
  cases he with
  | quiet k₀ x₀ goes table _ senders holding =>
    have hframe : ∀ x call, Fate s run k x call → Fate s' (run ++ [⟨s, a, s'⟩]) k x call := by
      intro x call hfate
      exact hfate.frame (by rw [table]) (by rw [table]) fun h outcome hheld => holding ▸ hheld
    rw [senders] at hcall' ⊢
    by_cases hk : k = k₀
    · subst hk
      rw [Function.update_self] at hcall' ⊢
      obtain ⟨call, hcall⟩ := goes.exists_call hcall'
      apply hframe
      exact (hf.fate k call hcall).goes hcall hcall' goes (h.find?_eq_none_iff hsize hcall).mp
    · rw [Function.update_of_ne hk] at hcall' ⊢
      exact hframe _ _ (hf.fate k call' hcall')
  | registered _ _ _ _ _ link =>
    rw [slots_size_of_register link] at hsame
    omega
  | taken h₀ e outcome reason find table _ senders free holding =>
    rw [senders] at hcall' ⊢
    have hfate := hf.fate k call' hcall'
    have hmem := (Inflight.mem_of_find? find).1
    by_cases hslot : e.slot = call'.slot
    · have hsync := (h.sync_eq_iff hsize hcall' hmem).mpr hslot
      refine hfate.taken h.keyed hmem hsync hslot reason table ?_
      rw [holding, Function.update_self]
    · refine hfate.frame ?_ (by rw [table]; rfl) ?_
      · rw [table, pends_without h.keyed hmem]
        exact ⟨And.left, fun hp => ⟨hp, Ne.symm hslot⟩⟩
      · -- whoever holds an outcome for the call is not the party that takes the entry
        intro h₁ outcome₁ hheld
        rw [holding, Function.update_of_ne, hheld]
        rintro rfl
        rw [free] at hheld
        cases hheld
  | delivered h₀ slot outcome held table _ senders holding =>
    rw [senders] at hcall' ⊢
    have hfate := hf.fate k call' hcall'
    by_cases hslot : slot = call'.slot
    · subst hslot
      exact hfate.delivered hh held table
    · refine hfate.frame (by rw [table]; rfl) ?_ ?_
      · rw [table, slot_settled, if_neg (Ne.symm hslot)]
      · intro h₁ outcome₁ hheld
        rw [holding, Function.update_of_ne, hheld]
        rintro rfl
        rw [held] at hheld
        cases hheld
        exact hslot rfl
  | expired k₀ call₀ e action sender _ find table _ senders holding =>
    have hcall₀ : (s.senders k₀).call? = some call₀ := by rw [sender]; rfl
    rw [senders] at hcall' ⊢
    by_cases hk : k = k₀
    · subst hk
      rw [Function.update_self] at hcall' ⊢
      cases hcall'
      have hfate := hf.fate k _ hcall₀
      rw [sender] at hfate
      refine hfate.expired ?_ action ?_
      · -- the timer has found an entry under the id of the call
        by_contra hnot
        rw [(h.find?_eq_none_iff hsize hcall₀).mpr hnot] at find
        cases find
      · rw [table, h.pends_remove hsize hcall₀]
        exact fun hp => hp.2 rfl
    · rw [Function.update_of_ne hk] at hcall' ⊢
      have hne := h.slot_ne hcall' hcall₀ hk
      exact (hf.fate k call' hcall').of_other h hsize hcall₀ hne (by simp [table])
        (by simp [table]) holding
  | released k₀ call₀ result action sender table _ senders holding =>
    have hcall₀ : (s.senders k₀).call? = some call₀ := by rw [sender]; rfl
    rw [senders] at hcall' ⊢
    by_cases hk : k = k₀
    · subst hk
      rw [Function.update_self] at hcall' ⊢
      cases hcall'
      have hfate := hf.fate k _ hcall₀
      rw [sender] at hfate
      refine hfate.released action ?_
      rw [table]
      exact fun hp => ((h.pends_remove hsize hcall₀ _).mp hp).2 rfl
    · rw [Function.update_of_ne hk] at hcall' ⊢
      have hne := h.slot_ne hcall' hcall₀ hk
      refine (hf.fate k call' hcall').of_other h hsize hcall₀ hne ?_ ?_ holding
      · intro slot
        rw [table]
        exact Iff.rfl
      · intro slot hslot
        rw [table, Inflight.slot_forget, if_neg fun hgone => hslot hgone.1]

/-- Every step continues the fates of all calls. -/
theorem Fates.step (h : Sound g s) (hh : HandsApart s) (hf : Fates s run) (he : Effect s a s')
    (hsize : s'.table.slots.size ≤ SyncIds.cycle) : Fates s' (run ++ [⟨s, a, s'⟩]) := by
  have hle := he.size_le
  constructor
  · intro k call hcall
    rcases h.registers_or_shrinks he hsize with ⟨k₀, -, hr⟩ | ⟨hshrinks, -, -⟩
    · by_cases hk : k = k₀
      · subst hk
        exact Fate.registered h hf hr hcall
      · rw [hr.others k hk] at hcall ⊢
        exact (hf.fate k call hcall).of_registers hr (h.slot_lt hcall)
    · exact hf.fate_step h hh he (Nat.le_trans hle hsize) hshrinks.size hcall
  · intro t ht slot hremoves
    rcases List.mem_append.mp ht with ht | ht
    · exact Nat.lt_of_lt_of_le (hf.known t ht slot hremoves) hle
    · rw [List.mem_singleton.mp ht] at hremoves
      obtain ⟨e, hmem, rfl⟩ := hremoves.1
      exact Nat.lt_of_lt_of_le (h.keyed.slot_lt e hmem) hle

/-- Every call has a fate in every state of a run that has not drawn all ids. -/
theorem Run.fates {address : Address} {greeting : Wire.Greeting}
    (hr : Run (start address greeting g) run s) (hsize : s.table.slots.size ≤ SyncIds.cycle) :
    Fates s run := by
  induction hr with
  | nil =>
    constructor
    · intro k call hcall
      cases hcall
    · intro t ht
      cases ht
  | snoc init last ih =>
    have he := last.effect
    have hbefore := Nat.le_trans he.size_le hsize
    obtain ⟨hsound, hapart⟩ := init.sound hbefore
    exact (ih hbefore).step hsound hapart he hsize

end Switchboard.Interleaving
