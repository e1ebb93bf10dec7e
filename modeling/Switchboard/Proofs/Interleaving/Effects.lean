import Switchboard.Proofs.Interleaving.Steps

/-!
# What a step does to a call

Most steps leave the table alone.  The others register an entry, take one, settle the slot of one
that has been taken, or remove the entry of the very sender that takes the step.

## Main definitions

- `Interleaving.Replicates`, `Interleaving.Ending.Tells` — the faults that pending requests are told
- `Interleaving.State.holding` — the outcome that a party has taken an entry for
- `Interleaving.Sender.Goes` — how a sender moves on while the table stays as it is
- `Interleaving.Effect` — all that a step does to the table, the senders and what is held

## Main statements

- `Interleaving.Step.effect` — every step has one of these effects
- `Interleaving.Step.stage` — who changes the stage of the connection
- `Interleaving.Run.address` — nobody changes its address
-/

namespace Switchboard.Interleaving

open Wire

/-! ### What pending requests are told -/

/-- The fault that stands for a cause when it is handed to a pending request.  Octets that are no
frame, a broken transport and a stream that gave up waiting keep their kind and their text; any
other cause becomes a broken transport that has its wording. -/
inductive Replicates : Fault → Fault → Prop
  | framing {detail} : Replicates (.framing detail) (.framing detail)
  | transport {detail} : Replicates (.transport detail) (.transport detail)
  | timeout {detail} : Replicates (.timeout detail) (.timeout detail)
  | other {cause} (framing : ∀ detail, cause ≠ .framing detail)
    (transport : ∀ detail, cause ≠ .transport detail) (timeout : ∀ detail, cause ≠ .timeout detail) :
    Replicates cause (.transport cause.message)

/-- The fault that whoever ends the connection has for each pending request: that the connection to
the address has been closed, or what stands for the cause of its failure. -/
inductive Ending.Tells (address : Address) : Ending → Fault → Prop
  | closure : Tells address .closure (.connectionClosed address.display)
  | failure {cause fault} (replicates : Replicates cause fault) : Tells address (.failure cause) fault

theorem replicates_replicate (cause : Fault) : Replicates cause (Connection.replicate cause) := by
  cases cause with
  | framing => exact .framing
  | transport => exact .transport
  | timeout => exact .timeout
  | _ => exact .other nofun nofun nofun

/-- Requests that are pending when the connection ends are told what they should be told. -/
theorem Ending.tells_fault (ending : Ending) (c : Connection) :
    ending.Tells c.address (ending.fault c) := by
  cases ending with
  | failure cause => exact .failure (replicates_replicate cause)
  | closure => exact .closure

theorem Replicates.ne_requestTimeout {cause fault : Fault} (h : Replicates cause fault)
    (sync : UInt64) (millis : ℕ) : fault ≠ .requestTimeout sync millis := by
  cases h <;> nofun

theorem Ending.Tells.ne_requestTimeout {address : Address} {ending : Ending} {fault : Fault}
    (h : ending.Tells address fault) (sync : UInt64) (millis : ℕ) :
    fault ≠ .requestTimeout sync millis := by
  cases h with
  | closure => nofun
  | failure replicates => exact replicates.ne_requestTimeout sync millis

/-! ### Holding an outcome -/

/-- A party that settles slots. -/
inductive Holder where
  | reader
  | ender (j : ℕ)
  deriving DecidableEq

/-- The slot and the outcome that somebody holds who ends the connection. -/
def Ender.holding : Ender → Option (ℕ × Outcome)
  | .delivering _ slot outcome _ => some (slot, outcome)
  | _ => none

/-- The slot and the outcome that a party holds: it has taken the entry and is about to settle the
slot. -/
def State.holding (s : State) : Holder → Option (ℕ × Outcome)
  | .reader => s.hand
  | .ender j => (s.enders j).holding

theorem State.holding_setEnder {s : State} {j : ℕ} {link : Connection} {x : Ender} :
    (s.setEnder j link x).holding = Function.update s.holding (.ender j) x.holding := by
  funext h
  cases h with
  | reader => rfl
  | ender j' =>
    by_cases hj : j' = j
    · subst hj
      simp [holding]
    · have hne : Holder.ender j' ≠ .ender j := fun heq => hj (Holder.ender.inj heq)
      rw [Function.update_of_ne hne, holding, holding, setEnder_of_ne hj]

theorem State.holding_setReader {s : State} {link : Connection} {hand : Option (ℕ × Outcome)} :
    State.holding { s with link, hand } = Function.update s.holding .reader hand := by
  funext h
  cases h with
  | reader => rfl
  | ender j => exact (Function.update_of_ne (fun heq => by cases heq) ..).symm

/-- Whoever holds an outcome can settle its slot. -/
theorem exists_step_of_holding {s : State} {h : Holder} {slot : ℕ} {outcome : Outcome}
    (hh : s.holding h = some (slot, outcome)) :
    ∃ a s', Step s a s' ∧ s'.table = s.table.settled slot (.delivered outcome) ∧
      s'.senders = s.senders := by
  cases h with
  | reader => exact ⟨_, _, .of_reader hh .put, rfl, rfl⟩
  | ender j =>
    cases hj : s.enders j with
    | delivering ending slot' outcome' rest =>
      rw [State.holding, hj] at hh
      cases hh
      exact ⟨_, _, .of_ender hj .delivered, rfl, rfl⟩
    | _ =>
      rw [State.holding, hj] at hh
      cases hh

/-! ### Effects -/

/-- The sender has passed its second check and waits for the outcome of its call. -/
def Sender.WaitsFor (x : Sender) (call : Call) : Prop :=
  x = .active call ∧ call.progress ≠ .registered ∨ x = .overdue call

/-- How a sender moves on while the table stays as it is. -/
inductive Sender.Goes (c : Connection) : Sender → Sender → Prop
  | stays {x} : Goes c x x
  | asks {x y} (before : x.call? = none) (after : y.call? = none) : Goes c x y
  | proceeds {call progress} (past : progress ≠ .registered)
    (ready : call.progress = .registered → c.readyFault? = none) :
    Goes c (.active call) (.active { call with progress })
  | fails {call fault} (early : call.progress ≠ .accepted)
    (ready : call.progress = .registered → c.readyFault? = some fault) :
    Goes c (.active call) (.leaving call (some (.error fault)))
  | lapses {call} (past : call.progress ≠ .registered)
    (find : c.inflight.find? call.sync = none) : Goes c (.active call) (.overdue call)
  | receives {x call outcome} (waits : x.WaitsFor call)
    (settled : Simulation.Sending.settled? c call.slot = some outcome) :
    Goes c x (.leaving call (some outcome))
  | abandons {x call} (waits : x.WaitsFor call) : Goes c x (.leaving call none)

/-- Why an outcome is held for the entry under an id. -/
inductive Reason (s : State) (id : UInt64) : Action → Holder → Outcome → Prop
  | reply {m} (sync : m.header.sync = id) :
    Reason s id (.reader (.take m)) .reader (Connection.replyOutcome m)
  | sweep {j ending rest} (ender : s.enders j = .sweeping ending (id :: rest)) :
    Reason s id (.ender j .withdraw) (.ender j) (.error (ending.fault s.link))

/-- All that a step does to the table, the senders and what is held. -/
inductive Effect (s : State) (a : Action) (s' : State) : Prop
  /-- at most a sender moves on -/
  | quiet (k : ℕ) (x : Sender) (goes : (s.senders k).Goes s.link x) (table : s'.table = s.table)
    (syncs : s'.link.syncs = s.link.syncs) (senders : s'.senders = Function.update s.senders k x)
    (holding : s'.holding = s.holding)
  /-- a sender registers its call -/
  | registered (k : ℕ) (request : Request) (timeout : Duration) (deadline : ℕ)
    (sender : s.senders k = .checked request timeout)
    (link : s'.link = (s.link.register request.code deadline).2.2)
    (senders : s'.senders = Function.update s.senders k
      (.active ⟨(s.link.register request.code deadline).1,
        (s.link.register request.code deadline).2.1, request, timeout, .registered⟩))
    (holding : s'.holding = s.holding)
  /-- an entry is taken, and what its slot will hold is certain -/
  | taken (h : Holder) (e : Pending) (outcome : Outcome) (reason : Reason s e.sync a h outcome)
    (find : s.table.find? e.sync = some e) (table : s'.table = s.table.without e.sync)
    (syncs : s'.link.syncs = s.link.syncs) (senders : s'.senders = s.senders)
    (free : s.holding h = none)
    (holding : s'.holding = Function.update s.holding h (some (e.slot, outcome)))
  /-- a slot is settled -/
  | delivered (h : Holder) (slot : ℕ) (outcome : Outcome)
    (held : s.holding h = some (slot, outcome))
    (table : s'.table = s.table.settled slot (.delivered outcome))
    (syncs : s'.link.syncs = s.link.syncs) (senders : s'.senders = s.senders)
    (holding : s'.holding = Function.update s.holding h none)
  /-- a sender removes its own entry because its deadline has come -/
  | expired (k : ℕ) (call : Call) (e : Pending) (action : a = .sender k .expire)
    (sender : s.senders k = .active call) (past : call.progress ≠ .registered)
    (find : s.table.find? call.sync = some e)
    (table : s'.table = (s.table.remove call.sync .severed).2)
    (syncs : s'.link.syncs = s.link.syncs)
    (senders : s'.senders = Function.update s.senders k
      (.leaving call (some (.error (.requestTimeout call.sync call.timeout.millis)))))
    (holding : s'.holding = s.holding)
  /-- a sender removes its own entry if it is still there, and gives its slot up -/
  | released (k : ℕ) (call : Call) (result : Option Outcome) (action : a = .sender k .release)
    (sender : s.senders k = .leaving call result)
    (table : s'.table = (s.table.remove call.sync .severed).2.forget call.slot)
    (syncs : s'.link.syncs = s.link.syncs)
    (senders : s'.senders = Function.update s.senders k (.gone call result))
    (holding : s'.holding = s.holding)

theorem Call.Awaits.ne_registered {call : Call} (h : call.Awaits) :
    call.progress ≠ .registered := by
  intro heq
  rw [Awaits, heq] at h
  exact h

/-- Cancelling an id that is not pending changes nothing. -/
theorem cancel_of_removed_eq_false {c : Connection} {id : UInt64}
    (h : (c.cancel id).1 = false) : c.inflight.find? id = none ∧ (c.cancel id).2 = c := by
  have hfst : (c.cancel id).1 = c.inflight.contains id := Inflight.remove_fst ..
  have hnone : c.inflight.find? id = none :=
    Inflight.find?_eq_none_iff.mpr (Inflight.contains_eq_false_iff.mp (hfst ▸ h))
  refine ⟨hnone, ?_⟩
  rw [Connection.cancel, Inflight.cancel, Inflight.remove_of_find?_none hnone]

theorem exists_find?_of_cancel {c : Connection} {id : UInt64} (h : (c.cancel id).1 = true) :
    ∃ e, c.inflight.find? id = some e := by
  cases hf : c.inflight.find? id with
  | none =>
    rw [Connection.cancel, Inflight.cancel, Inflight.remove_of_find?_none hf] at h
    cases h
  | some e => exact ⟨e, rfl⟩

/-- A sender that moves on while the table stays as it is has a quiet effect. -/
theorem Effect.of_goes {s : State} {a : Action} {k : ℕ} {link : Connection} {x : Sender}
    (goes : (s.senders k).Goes s.link x) (table : link.inflight = s.table)
    (syncs : link.syncs = s.link.syncs) : Effect s a (s.setSender k link x) :=
  .quiet k x goes table syncs rfl (funext fun h => by cases h <;> rfl)

theorem Sender.Step.effect {s : State} {k : ℕ} {a : SenderAction} {link : Connection}
    {x : Sender} (h : Sender.Step s.link k (s.senders k) a link x) :
    Effect s (.sender k a) (s.setSender k link x) := by
  have hholding : (s.setSender k link x).holding = s.holding :=
    funext fun h => by cases h <;> rfl
  generalize hs : s.senders k = y at h
  cases h with
  | checked _ => exact .of_goes (hs ▸ .asks rfl rfl) rfl rfl
  | refused _ => exact .of_goes (hs ▸ .asks rfl rfl) rfl rfl
  | @registered request timeout deadline =>
    exact .registered k request timeout deadline hs rfl rfl hholding
  | cleared progress ready =>
    exact .of_goes (hs ▸ .proceeds (by nofun) fun _ => ready) rfl rfl
  | turnedAway progress ready =>
    refine .of_goes (hs ▸ .fails ?_ fun _ => ready) rfl rfl
    rw [progress]
    nofun
  | queued progress =>
    refine .of_goes (hs ▸ .proceeds (by nofun) ?_) rfl rfl
    rw [progress]
    nofun
  | oversized progress =>
    refine .of_goes (hs ▸ .fails ?_ ?_) rfl rfl <;> rw [progress] <;> nofun
  | accepted progress =>
    refine .of_goes (hs ▸ .proceeds (by nofun) ?_) rfl rfl
    rw [progress]
    nofun
  | shutOut progress =>
    refine .of_goes (hs ▸ .fails ?_ ?_) rfl rfl <;> rw [progress] <;> nofun
  | received progress settled =>
    refine .of_goes (hs ▸ .receives (.inl ⟨rfl, ?_⟩) settled) rfl rfl
    rw [progress]
    nofun
  | @expired call awaits removed =>
    obtain ⟨e, hfind⟩ := exists_find?_of_cancel removed
    exact .expired k call e rfl hs awaits.ne_registered hfind rfl rfl rfl hholding
  | overdue awaits removed =>
    obtain ⟨hfind, hcancel⟩ := cancel_of_removed_eq_false removed
    rw [hcancel]
    exact .of_goes (hs ▸ .lapses awaits.ne_registered hfind) rfl rfl
  | receivedLate settled => exact .of_goes (hs ▸ .receives (.inr rfl) settled) rfl rfl
  | abandoned awaits =>
    exact .of_goes (hs ▸ .abandons (.inl ⟨rfl, awaits.ne_registered⟩)) rfl rfl
  | abandonedLate => exact .of_goes (hs ▸ .abandons (.inr rfl)) rfl rfl
  | @released call result =>
    exact .released k call result rfl hs rfl rfl rfl hholding

/-- A step of the connection that no sender takes and that leaves table and held outcomes alone. -/
theorem Effect.of_eq {s s' : State} {a : Action} (table : s'.table = s.table)
    (syncs : s'.link.syncs = s.link.syncs) (senders : s'.senders = s.senders)
    (holding : s'.holding = s.holding) : Effect s a s' := by
  refine .quiet 0 (s.senders 0) .stays table syncs ?_ holding
  rw [senders, Function.update_eq_self]

theorem find?_sync {t : Inflight} {id : UInt64} {e : Pending} (h : t.find? id = some e) :
    e.sync = id :=
  (Inflight.mem_of_find? h).2

theorem Ender.Step.effect {s : State} {j : ℕ} {a : EnderAction} {link : Connection} {x : Ender}
    (h : Ender.Step s.link (s.enders j) a link x) :
    Effect s (.ender j a) (s.setEnder j link x) := by
  have hnone : (s.enders j).holding = none → x.holding = none →
      (s.setEnder j link x).holding = s.holding := by
    intro hbefore hafter
    rw [State.holding_setEnder, hafter, ← hbefore]
    exact Function.update_eq_self (.ender j) s.holding
  generalize hs : s.enders j = y at h
  rw [hs] at hnone
  cases h with
  | won leave =>
    obtain ⟨-, rfl⟩ := Connection.leave?_eq_some_iff.mp leave
    exact .of_eq rfl rfl rfl (hnone rfl rfl)
  | lost => exact .of_eq rfl rfl rfl (hnone rfl rfl)
  | listed => exact .of_eq rfl rfl rfl (hnone rfl rfl)
  | skipped find => exact .of_eq rfl rfl rfl (hnone rfl rfl)
  | @taken ending id rest e find =>
    obtain rfl := find?_sync find
    refine .taken (.ender j) e _ (.sweep hs) find rfl rfl rfl ?_ State.holding_setEnder
    rw [State.holding, hs]
    rfl
  | @delivered ending slot outcome rest =>
    refine .delivered (.ender j) slot outcome ?_ rfl rfl rfl State.holding_setEnder
    rw [State.holding, hs]
    rfl
  | finished => exact .of_eq rfl rfl rfl (hnone rfl rfl)

/-- Every step has one of the effects. -/
theorem Step.effect {s s' : State} {a : Action} (h : Step s a s') : Effect s a s' := by
  cases h with
  | sender step => exact step.effect
  | @reader a link hand step =>
    generalize hs : s.hand = before at step
    cases step with
    | ignored find =>
      refine .of_eq rfl rfl rfl ?_
      rw [State.holding_setReader, ← hs]
      exact Function.update_eq_self .reader s.holding
    | @taken m e find =>
      -- effects name entries by their own ids, and here it is the id of the reply
      have hsync := find?_sync find
      refine .taken .reader e _ (.reply hsync.symm) (hsync ▸ find) ?_ rfl rfl hs
        State.holding_setReader
      rw [hsync]
      rfl
    | put => exact .delivered .reader _ _ hs rfl rfl rfl State.holding_setReader
  | writer step =>
    cases step with
    | popped => exact .of_eq rfl rfl rfl (funext fun h => by cases h <;> rfl)
    | hungUp => exact .of_eq rfl rfl rfl (funext fun h => by cases h <;> rfl)
  | ender step => exact step.effect

/-! ### The stage -/

theorem Sender.Step.link {c link : Connection} {k : ℕ} {x y : Sender} {a : SenderAction}
    (h : Sender.Step c k x a link y) : link.stage = c.stage ∧ link.address = c.address := by
  cases h <;> exact ⟨rfl, rfl⟩

/-- Only a party that ends the connection changes its stage. -/
theorem Step.stage {s s' : State} {a : Action} (h : Step s a s') :
    (s'.link.stage = s.link.stage ∧ s'.enders = s.enders) ∨
      ∃ j x b, Ender.Step s.link (s.enders j) b s'.link x ∧ a = .ender j b ∧
        s' = s.setEnder j s'.link x := by
  cases h with
  | sender step => exact .inl ⟨step.link.1, rfl⟩
  | reader step =>
    generalize s.hand = before at step
    cases step <;> exact .inl ⟨rfl, rfl⟩
  | writer step => cases step <;> exact .inl ⟨rfl, rfl⟩
  | ender step => exact .inr ⟨_, _, _, step, rfl, rfl⟩

/-! ### The address -/

theorem Ender.Step.address {c link : Connection} {x y : Ender} {b : EnderAction}
    (h : Ender.Step c x b link y) : link.address = c.address := by
  cases h with
  | won leave =>
    obtain ⟨-, rfl⟩ := Connection.leave?_eq_some_iff.mp leave
    rfl
  | _ => rfl

theorem Step.address {s s' : State} {a : Action} (h : Step s a s') :
    s'.link.address = s.link.address := by
  cases h with
  | sender step => exact step.link.2
  | reader step =>
    generalize s.hand = before at step
    cases step <;> rfl
  | writer step => cases step <;> rfl
  | ender step => exact step.address

theorem Run.address {start s : State} {run : List Transition} (h : Run start run s) :
    s.link.address = start.link.address ∧
      ∀ t ∈ run, t.before.link.address = start.link.address := by
  induction h with
  | nil => exact ⟨rfl, fun t ht => absurd ht List.not_mem_nil⟩
  | snoc init last ih =>
    refine ⟨last.address.trans ih.1, fun t ht => ?_⟩
    rcases List.mem_append.mp ht with ht | ht
    · exact ih.2 t ht
    · rw [List.mem_singleton.mp ht]
      exact ih.1

end Switchboard.Interleaving
