import Switchboard.Proofs.Interleaving.Fate

/-!
# One outcome for every call

A reply, the deadline, a failure, closing and a caller that goes away may all come for the same call
in any order.  Exactly one of them removes its entry, and the call ends with what that one had for
it.

## Main definitions

- `Interleaving.Sender.Returns` — a call ends with an outcome
- `Interleaving.Call.Law` — what holds of a call whose frame the outbox has accepted

## Main statements

- `Interleaving.accepted_call_lawful` — it holds of every such call in every state of every run
-/

namespace Switchboard.Interleaving

open Wire

/-- The call ends with the outcome. -/
def Sender.Returns (x : Sender) (call : Call) (outcome : Outcome) : Prop :=
  x = .leaving call (some outcome) ∨ x = .gone call (some outcome)

/-- What holds of a call whose frame the outbox of the connection to the address has accepted, after
a run. -/
structure Call.Law (address : Address) (call : Call) (k : ℕ) (run : List Transition) (s : State) :
    Prop where
  /-- at most one step removes the entry, and it has a result for the call -/
  removed_once : ∀ t ∈ run, t.Removes call.slot →
    RemovedBy run call.slot t ∧ ∃ award, t.Settles k call award
  /-- a call that ends with an outcome got it from the one step that removed the entry -/
  returned : ∀ outcome, (s.senders k).Returns call outcome →
    ∃ t, RemovedBy run call.slot t ∧ t.Settles k call (some outcome)
  /-- an outcome that came from a reply is what the reply means -/
  replied : ∀ outcome, (s.senders k).Returns call outcome → ∀ t m, RemovedBy run call.slot t →
    t.action = .reader (.take m) → Answers m outcome
  /-- an outcome that came from whoever ended the connection is what that party has for every pending
  request -/
  swept : ∀ outcome, (s.senders k).Returns call outcome → ∀ t j, RemovedBy run call.slot t →
    t.action = .ender j .withdraw →
      ∃ ending rest fault, t.before.enders j = .sweeping ending (call.sync :: rest) ∧
        ending.Tells address fault ∧ outcome = .error fault
  /-- a call ends with a timeout exactly when its own timer removed the entry, and the timeout is
  its own -/
  timeout_iff : ∀ outcome, (s.senders k).Returns call outcome → ∀ t, RemovedBy run call.slot t →
    ((∃ sync millis, outcome = .error (.requestTimeout sync millis)) ↔
      t.action = .sender k .expire) ∧
    (t.action = .sender k .expire →
      outcome = .error (.requestTimeout call.sync call.timeout.millis))
  /-- one step has removed the entry of a call whose caller has gone away, too -/
  dropped : s.senders k = .gone call none →
    ∃ t award, RemovedBy run call.slot t ∧ t.Settles k call award
  /-- a call whose timer came too late has an outcome waiting, or somebody holds it whose next step
  delivers it -/
  overdue : s.senders k = .overdue call →
    ∃ t outcome, RemovedBy run call.slot t ∧ t.Settles k call (some outcome) ∧
      t.action ≠ .sender k .expire ∧
      (s.table.slot call.slot = .delivered outcome ∨ ∃ h, s.holding h = some (call.slot, outcome)) ∧
      ∃ rest s', Run s rest s' ∧ rest.length ≤ 2 ∧ s'.senders k = .leaving call (some outcome)
  /-- afterwards the id is not pending, and a reply with it changes nothing at all -/
  gone : ∀ result, s.senders k = .gone call result →
    call.sync ∉ s.table.syncs ∧
      ∀ m s', m.header.sync = call.sync → Step s (.reader (.take m)) s' → s' = s

/-! ### Outcomes and where they come from -/

variable {g : SyncIds} {s : State} {run : List Transition} {k : ℕ} {x : Sender} {call : Call}
  {outcome : Outcome}

/-- Only the timer of a call has a timeout for it, with the call's own id and time. -/
theorem Transition.Settles.timeout_iff {t : Transition} (h : t.Settles k call (some outcome)) :
    ((∃ sync millis, outcome = .error (.requestTimeout sync millis)) ↔
      t.action = .sender k .expire) ∧
    (t.action = .sender k .expire →
      outcome = .error (.requestTimeout call.sync call.timeout.millis)) := by
  cases h with
  | timer action => exact ⟨⟨fun _ => action, fun _ => ⟨_, _, rfl⟩⟩, fun _ => rfl⟩
  | reply action _ answers =>
    rw [action]
    refine ⟨⟨?_, nofun⟩, nofun⟩
    rintro ⟨sync, millis, rfl⟩
    cases answers
  | sweep action _ tells =>
    rw [action]
    refine ⟨⟨?_, nofun⟩, nofun⟩
    rintro ⟨sync, millis, heq⟩
    exact absurd (Except.error.inj heq) (tells.ne_requestTimeout sync millis)

theorem Transition.Settles.answers {t : Transition} (h : t.Settles k call (some outcome))
    {m : Message} (ht : t.action = .reader (.take m)) : Answers m outcome := by
  cases h with
  | reply action _ answers =>
    rw [ht] at action
    cases action
    exact answers
  | timer action | sweep action =>
    rw [ht] at action
    cases action

theorem Transition.Settles.tells {t : Transition} (h : t.Settles k call (some outcome)) {j : ℕ}
    (ht : t.action = .ender j .withdraw) :
    ∃ ending rest fault, t.before.enders j = .sweeping ending (call.sync :: rest) ∧
      ending.Tells t.before.link.address fault ∧ outcome = .error fault := by
  cases h with
  | sweep action ender tells =>
    rw [ht] at action
    cases action
    exact ⟨_, _, _, ender, tells, rfl⟩
  | timer action | reply action =>
    rw [ht] at action
    cases action

theorem RemovedBy.mem {slot : ℕ} {t : Transition} (h : RemovedBy run slot t) :
    t ∈ run ∧ t.Removes slot := by
  obtain ⟨past, future, rfl, hremoves, -⟩ := h
  exact ⟨List.mem_append_right _ (List.mem_cons_self ..), hremoves⟩

theorem RemovedBy.unique {slot : ℕ} {t t' : Transition} (h : RemovedBy run slot t)
    (h' : RemovedBy run slot t') : t' = t :=
  h.eq h'.mem.1 h'.mem.2

/-! ### Reading a fate -/

/-- An accepted call that ends with an outcome has got it from whoever removed its entry. -/
theorem Fate.of_returns (hf : Fate s run k x call) (haccepted : call.progress = .accepted)
    (hx : x.Returns call outcome) :
    ∃ t, RemovedBy run call.slot t ∧ t.Settles k call (some outcome) := by
  cases hf with
  | pending _ _ _ sender =>
    rcases hx with rfl | rfl
    · cases sender haccepted
    · exact sender.elim
  | removed t award once settles _ sender =>
    have hend : some outcome = none ∨ some outcome = award := by
      rcases hx with rfl | rfl <;> exact sender haccepted
    refine ⟨t, once, ?_⟩
    rwa [hend.resolve_left nofun]

theorem Fate.of_gone {result : Option Outcome} (hf : Fate s run k (.gone call result) call) :
    ¬s.table.Pends call.slot ∧ ∃ t award, RemovedBy run call.slot t ∧ t.Settles k call award := by
  cases hf with
  | pending _ _ _ sender => exact sender.elim
  | removed t award once settles gone => exact ⟨gone, t, award, once, settles⟩

theorem Fate.of_removes (hf : Fate s run k x call) {t : Transition} (ht : t ∈ run)
    (hr : t.Removes call.slot) :
    RemovedBy run call.slot t ∧ ∃ award, t.Settles k call award := by
  cases hf with
  | pending _ _ unremoved => exact absurd hr (unremoved t ht)
  | removed t' award once settles =>
    rw [once.eq ht hr]
    exact ⟨once, award, settles⟩

/-- An outcome that is owed to an overdue call reaches it within two steps. -/
theorem exists_run_of_owes (hx : s.senders k = .overdue call) (howes : s.Owes call.slot outcome) :
    ∃ rest s', Run s rest s' ∧ rest.length ≤ 2 ∧ s'.senders k = .leaving call (some outcome) := by
  rcases howes with hdelivered | ⟨hwaiting, h, hheld⟩
  · refine ⟨_, _, Run.single (.of_sender hx (.receivedLate (settled?_of_delivered hdelivered))),
      Nat.le_succ 1, State.setSender_self ..⟩
  · -- whoever holds the outcome settles the slot, and then the call receives it
    obtain ⟨a, mid, hput, htable, hsenders⟩ := exists_step_of_holding hheld
    have hdelivered : mid.table.slot call.slot = .delivered outcome := by
      rw [htable, slot_settled, if_pos rfl, hwaiting]
      rfl
    have hreceive := Step.of_sender ((congrFun hsenders k).trans hx)
      (.receivedLate (settled?_of_delivered hdelivered))
    exact ⟨_, _, (Run.single hput).snoc hreceive, Nat.le_refl 2, State.setSender_self ..⟩

theorem eq_of_take {m : Message} {s' : State} (hm : m.header.sync ∉ s.table.syncs)
    (hstep : Step s (.reader (.take m)) s') : s' = s := by
  obtain ⟨link, senders, enders, hand⟩ := s
  cases hstep with
  | reader step =>
    cases step with
    | ignored => rfl
    | taken find =>
      rw [Inflight.find?_eq_none_iff.mpr hm] at find
      cases find

/-- Whatever happens to an accepted call and in whichever order, it has exactly one outcome.  Every
call that has been registered has a slot, so no more ids have been drawn than there are slots. -/
theorem accepted_call_lawful {address : Address} {greeting : Greeting}
    (hr : Run (start address greeting g) run s) (hids : s.table.slots.size ≤ SyncIds.cycle)
    (hcall : (s.senders k).call? = some call) (haccepted : call.progress = .accepted) :
    call.Law address k run s := by
  obtain ⟨hsound, -⟩ := hr.sound hids
  have hfate := (hr.fates hids).fate k call hcall
  constructor
  · intro t ht hremoves
    exact hfate.of_removes ht hremoves
  · intro outcome hreturns
    exact hfate.of_returns haccepted hreturns
  · intro outcome hreturns t m ht haction
    obtain ⟨t', ht', hsettles⟩ := hfate.of_returns haccepted hreturns
    rw [ht'.unique ht] at haction
    exact hsettles.answers haction
  · intro outcome hreturns t j ht haction
    obtain ⟨t', ht', hsettles⟩ := hfate.of_returns haccepted hreturns
    rw [ht'.unique ht] at haction
    have htells := hsettles.tells haction
    rwa [hr.address.2 t' ht'.mem.1, ← ht'.unique ht] at htells
  · intro outcome hreturns t ht
    obtain ⟨t', ht', hsettles⟩ := hfate.of_returns haccepted hreturns
    rw [ht'.unique ht]
    exact hsettles.timeout_iff
  · intro hgone
    rw [hgone] at hfate
    exact hfate.of_gone.2
  · intro hoverdue
    rw [hoverdue] at hfate
    cases hfate with
    | pending _ _ _ sender => exact sender.elim
    | removed t award once settles _ sender =>
      obtain ⟨haction, outcome, rfl, howes⟩ := sender
      refine ⟨t, outcome, once, settles, haction, ?_, exists_run_of_owes hoverdue howes⟩
      exact howes.imp_right And.right
  · intro result hgone
    rw [hgone] at hfate
    have hnot : call.sync ∉ s.table.syncs := by
      rw [← Inflight.find?_eq_none_iff, hsound.find?_eq_none_iff hids hcall]
      exact hfate.of_gone.1
    refine ⟨hnot, fun m s' hm hstep => eq_of_take ?_ hstep⟩
    rwa [hm]

/-- The reply has been taken when the deadline comes, but is delivered only after that. -/
theorem accepted_call_lawful_late_timer :
    ∃ run s call, Run (start default default .start) run s ∧
      s.senders 0 = .gone call (some (.ok [])) ∧ call.Law default 0 run s := by
  have h₁ := Run.nil.snoc (Step.of_sender (s := start default default .start) (k := 0) rfl
    (.checked rfl : Sender.Step _ _ _ (.check .ping (.ofMillis 5)) _ _))
  have h₂ := h₁.snoc (Step.of_sender (k := 0) rfl
    (.registered : Sender.Step _ _ _ (.register 5) _ _))
  have h₃ := h₂.snoc (Step.of_sender (k := 0) rfl (.cleared rfl rfl))
  have h₄ := h₃.snoc (Step.of_sender (k := 0) rfl (.queued rfl rfl))
  have h₅ := h₄.snoc (Step.of_sender (k := 0) rfl (.accepted rfl rfl))
  have h₆ := h₅.snoc (Step.of_reader rfl
    (.taken rfl : ReaderStep _ _ (.take ⟨⟨1, .ok, none⟩, []⟩) _ _))
  have h₇ := h₆.snoc (Step.of_sender (k := 0) rfl (.overdue trivial rfl))
  have h₈ := h₇.snoc (Step.of_reader rfl .put)
  have h₉ := h₈.snoc (Step.of_sender (k := 0) rfl (.receivedLate rfl))
  have h := h₉.snoc (Step.of_sender (k := 0) rfl .released)
  exact ⟨_, _, _, h, rfl, accepted_call_lawful h (by decide) rfl rfl⟩

end Switchboard.Interleaving
