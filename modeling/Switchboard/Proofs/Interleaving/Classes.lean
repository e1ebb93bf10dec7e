import Switchboard.Proofs.Interleaving.Channels
import Switchboard.Proofs.Interleaving.Outcome

/-!
# The three ways in which a call ends

A call ends with the body of a reply, with an error that the server sent, or with a fault of the
network.  Outcomes are written into slots, and a slot belongs to one call for good; so it is enough
that what anybody writes into a slot, or is about to, is such an outcome for the call's id.

## Main definitions

- `Interleaving.Lawful` — an outcome of one of the three kinds
- `Interleaving.Honest` — every outcome on offer is lawful for the call that it is for
- `Interleaving.Resulting` — every result so far is lawful

## Main statements

- `Interleaving.Honest.step`, `Interleaving.Resulting.step` — what every step preserves
- `Interleaving.Channel.Run.resulting` — in every state of every run, results are lawful for what
  the server has sent
-/

namespace Switchboard

open Wire

/-! ### Faults and bodies -/

namespace Connection

theorem isNetwork_replicate (cause : Fault) : (replicate cause).isNetwork = true := by
  cases cause <;> rfl

theorem isNetwork_of_readyFault? {c : Connection} {fault : Fault} (h : c.readyFault? = some fault) :
    fault.isNetwork = true := by
  rw [readyFault?] at h
  split at h <;> cases h
  rfl

end Connection

theorem Interleaving.Ending.isNetwork_fault (ending : Ending) (c : Connection) :
    (ending.fault c).isNetwork = true := by
  cases ending with
  | failure cause => exact Connection.isNetwork_replicate cause
  | closure => rfl

namespace Wire

namespace Frame

/-- The body in the contents of a frame is empty or one value. -/
theorem exists_body_of_decodeContents {contents : Octets} {m : Message}
    (h : decodeContents contents = .ok m) : ∃ v, Body.decode m.body = .ok v := by
  unfold decodeContents at h
  split at h
  · cases h
  split at h
  · cases h
  split at h
  · next hempty =>
    cases h
    exact ⟨.nil, by rw [Body.decode, if_pos hempty]⟩
  next hempty =>
  split at h
  · cases h
  next v rest hvalue =>
  split at h
  · next hrest =>
    cases h
    refine ⟨v, ?_⟩
    rw [Body.decode, if_neg hempty, hvalue]
    exact if_pos hrest
  · cases h

theorem exists_body_of_decode {b : Octets} {m : Message} {n : ℕ}
    (h : decode b = .ok (some (m, n))) : ∃ v, Body.decode m.body = .ok v := by
  have hd := decided_of_ne_none (b := b) (by rw [h]; simp)
  rw [h] at hd
  generalize hr : (Except.ok (some (m, n)) : Except FrameFault (Option (Message × ℕ))) = r at hd
  cases hd with
  | badLength | tooLarge => cases hr
  | @contents size width rest contents behind =>
    cases hc : decodeContents contents with
    | error e =>
      rw [hc] at hr
      cases hr
    | ok m' =>
      rw [hc] at hr
      cases hr
      exact exists_body_of_decodeContents hc

/-- Every message drained has been decoded. -/
theorem exists_decode_of_mem {b : Octets} {d : Drained} (h : Drains b d) {m : Message}
    (hm : m ∈ d.messages.map Prod.fst) : ∃ b' n, decode b' = .ok (some (m, n)) := by
  induction h with
  | faulty | waiting => cases hm
  | @message b m' n d hb _ ih =>
    rcases List.mem_cons.mp hm with rfl | hm
    · exact ⟨b, n, hb⟩
    · exact ih hm

end Frame

theorem Body.exists_responseData {body : Octets} {v : MessagePack.Value}
    (h : decode body = .ok v) : ∃ data, responseData body = .ok data := by
  rw [responseData, h]
  exact ⟨_, rfl⟩

end Wire

namespace Interleaving

/-! ### Lawful outcomes -/

/-- An outcome of one of the three kinds, for a call with the id and after these messages. -/
inductive Lawful (heard : List Message) (sync : UInt64) : Outcome → Prop
  | body {m : Message} (mem : m ∈ heard) (id : m.header.sync = sync) :
    Lawful heard sync (.ok m.body)
  | answered {m : Message} {code detail} (mem : m ∈ heard) (id : m.header.sync = sync)
    (isError : m.header.code = .error code) : Lawful heard sync (.error (.server code detail))
  | network {fault} (network : fault.isNetwork = true) : Lawful heard sync (.error fault)

variable {heard heard' : List Message} {sync : UInt64} {outcome : Outcome} {s s' : State}

theorem Lawful.mono (h : Lawful heard sync outcome) (hle : heard ⊆ heard') :
    Lawful heard' sync outcome := by
  cases h with
  | body mem id => exact .body (hle mem) id
  | answered mem id isError => exact .answered (hle mem) id isError
  | network network => exact .network network

theorem lawful_replyOutcome {m : Message} (mem : m ∈ heard) :
    Lawful heard m.header.sync (Connection.replyOutcome m) := by
  unfold Connection.replyOutcome
  split
  · next code hcode => exact .answered mem rfl hcode
  · exact .body mem rfl

/-- The outcome is in the slot, or somebody is about to put it there. -/
def State.Offers (s : State) (slot : ℕ) (outcome : Outcome) : Prop :=
  s.table.slot slot = .delivered outcome ∨ ∃ h, s.holding h = some (slot, outcome)

/-- A slot that has been settled without an outcome offers none that it did not offer before. -/
theorem slot_of_remove {t : Inflight} {id : UInt64} {slot : ℕ}
    (h : (t.remove id .severed).2.slot slot = .delivered outcome) :
    t.slot slot = .delivered outcome := by
  cases hf : t.find? id with
  | none => rwa [Inflight.remove_of_find?_none hf] at h
  | some e =>
    rw [Inflight.remove_of_find? hf, slot_settled] at h
    split at h
    · cases hs : t.slot slot with
      | waiting =>
        rw [show (t.without id).slot slot = .waiting from hs] at h
        cases h
      | _ =>
        rw [show (t.without id).slot slot = _ from hs] at h
        exact h
    · exact h

/-- A slot that has been settled offers what it was settled with, or what it offered before. -/
theorem slot_of_settled {t : Inflight} {slot slot₀ : ℕ} {outcome₀ : Outcome}
    (h : (t.settled slot₀ (.delivered outcome₀)).slot slot = .delivered outcome) :
    t.slot slot = .delivered outcome ∨ slot = slot₀ ∧ outcome = outcome₀ := by
  rw [slot_settled] at h
  split at h
  · next heq =>
    cases hs : t.slot slot with
    | waiting =>
      rw [hs] at h
      cases h
      exact .inr ⟨heq, rfl⟩
    | _ =>
      rw [hs] at h
      exact .inl h
  · exact .inl h

variable {a : Action}

/-- What is held after a step was held before, or an entry has been taken for it. -/
theorem Effect.held (he : Effect s a s') {h : Holder} {slot : ℕ}
    (hheld : s'.holding h = some (slot, outcome)) : s.holding h = some (slot, outcome) ∨
      ∃ e ∈ s.table.entries, e.slot = slot ∧ Reason s e.sync a h outcome := by
  cases he with
  | quiet _ _ _ _ _ _ holding | registered _ _ _ _ _ _ _ holding
  | expired _ _ _ _ _ _ _ _ _ _ holding | released _ _ _ _ _ _ _ _ holding =>
    exact .inl (holding ▸ hheld)
  | taken h₀ e outcome₀ reason find _ _ _ _ holding =>
    rw [holding] at hheld
    rcases holding_update hheld with ⟨rfl, heq⟩ | ⟨-, hbefore⟩
    · cases heq
      exact .inr ⟨e, (Inflight.mem_of_find? find).1, rfl, reason⟩
    · exact .inl hbefore
  | delivered h₀ _ _ _ _ _ _ holding =>
    rw [holding] at hheld
    rcases holding_update hheld with ⟨-, heq⟩ | ⟨-, hbefore⟩
    · cases heq
    · exact .inl hbefore

/-- What is on offer after a step was on offer before, or an entry has been taken for it. -/
theorem Effect.offers (he : Effect s a s') {slot : ℕ} (hoffer : s'.Offers slot outcome) :
    s.Offers slot outcome ∨
      ∃ h, ∃ e ∈ s.table.entries, e.slot = slot ∧ Reason s e.sync a h outcome := by
  rcases hoffer with hslot | ⟨h, hheld⟩
  · left
    cases he with
    | quiet _ _ _ table | taken _ _ _ _ _ table =>
      rw [table] at hslot
      exact .inl hslot
    | registered k request _ deadline _ link =>
      have htable : s'.table.slots = s.table.slots.push .waiting := by
        rw [State.table, link]
        rfl
      rw [show s'.table = ⟨s'.table.entries, s.table.slots.push .waiting⟩ by rw [← htable],
        Inflight.slot_push s.table.entries] at hslot
      split at hslot
      · cases hslot
      · exact .inl hslot
    | delivered h₀ _ _ held table =>
      rw [table] at hslot
      rcases slot_of_settled hslot with hbefore | ⟨rfl, rfl⟩
      · exact .inl hbefore
      · exact .inr ⟨h₀, held⟩
    | expired _ _ _ _ _ _ _ table =>
      rw [table] at hslot
      exact .inl (slot_of_remove hslot)
    | released _ _ _ _ _ table =>
      rw [table, Inflight.slot_forget] at hslot
      split at hslot
      · cases hslot
      · exact .inl (slot_of_remove hslot)
  · exact (he.held hheld).imp (fun hbefore => .inr ⟨h, hbefore⟩) fun htaken => ⟨h, htaken⟩

/-- Slots belong to calls, and what is on offer in a slot is lawful for the call. -/
structure Honest (heard : List Message) (s : State) : Prop where
  entry_lt : ∀ e ∈ s.table.entries, e.slot < s.table.slots.size
  key_lt : ∀ k key, (s.senders k).key? = some key → key.1 < s.table.slots.size
  held_lt : ∀ h slot outcome, s.holding h = some (slot, outcome) → slot < s.table.slots.size
  entries : ∀ e ∈ s.table.entries, ∀ k key, (s.senders k).key? = some key → key.1 = e.slot →
    key.2 = e.sync
  offers : ∀ k key, (s.senders k).key? = some key → ∀ outcome, s.Offers key.1 outcome →
    Lawful heard key.2 outcome

theorem honest_start (address : Address) (greeting : Greeting) (g : SyncIds) :
    Honest heard (start address greeting g) := by
  refine ⟨nofun, nofun, ?_, nofun, nofun⟩
  intro h slot outcome hheld
  cases h <;> cases hheld

theorem Reason.lawful {a : Action} {h : Holder} {id : UInt64} (hr : Reason s id a h outcome)
    (hheard : ∀ m, a = .reader (.take m) → m ∈ heard) : Lawful heard id outcome := by
  cases hr with
  | @reply m id =>
    rw [← id]
    exact lawful_replyOutcome (hheard m rfl)
  | sweep => exact .network (Ending.isNetwork_fault ..)

/-- Steps that add no entries keep everything honest. -/
theorem Honest.of_le (h : Honest heard s) (he : Effect s a s')
    (hheard : ∀ m, a = .reader (.take m) → m ∈ heard) (ht : s.table.Shrinks s'.table)
    (hkeys : ∀ k, (s'.senders k).key? = (s.senders k).key?) : Honest heard s' where
  entry_lt e he := ht.size ▸ h.entry_lt e (ht.entries.subset he)
  key_lt k key hkey := ht.size ▸ h.key_lt k key (hkeys k ▸ hkey)
  held_lt h' slot outcome heq := by
    rw [ht.size]
    rcases he.held heq with hheld | ⟨e, hmem, rfl, -⟩
    · exact h.held_lt h' slot outcome hheld
    · exact h.entry_lt e hmem
  entries e he k key hkey := h.entries e (ht.entries.subset he) k key (hkeys k ▸ hkey)
  offers k key hkey outcome hoffer := by
    rw [hkeys] at hkey
    rcases he.offers hoffer with hbefore | ⟨h', e, hmem, hslot, reason⟩
    · exact h.offers k key hkey outcome hbefore
    · -- the entry that has been taken was that of the call
      rw [h.entries e hmem k key hkey hslot.symm]
      exact reason.lawful hheard

/-- A slot that has just come is nobody else's, and nothing is on offer in it. -/
theorem Honest.registered (h : Honest heard s) {k : ℕ} {request : Request} {timeout : Duration}
    {deadline : ℕ} (link : s'.link = (s.link.register request.code deadline).2.2)
    (senders : s'.senders = Function.update s.senders k
      (.active ⟨(s.link.register request.code deadline).1,
        (s.link.register request.code deadline).2.1, request, timeout, .registered⟩))
    (holding : s'.holding = s.holding) : Honest heard s' := by
  generalize hid : (s.link.register request.code deadline).1 = id at senders
  have hslot : (s.link.register request.code deadline).2.1 = s.table.slots.size := rfl
  have htable : s'.table = ⟨s.table.entries ++ [⟨id, request.code, deadline, s.table.slots.size⟩],
      s.table.slots.push .waiting⟩ := by
    rw [State.table, link, ← hid]
    rfl
  have hsize : s'.table.slots.size = s.table.slots.size + 1 := slots_size_of_register link
  have hkeys : ∀ k' key, (s'.senders k').key? = some key →
      key = (s.table.slots.size, id) ∨ (s.senders k').key? = some key := by
    intro k' key hkey
    rw [senders, hslot] at hkey
    by_cases hk : k' = k
    · rw [hk, Function.update_self] at hkey
      cases hkey
      exact .inl rfl
    · rw [Function.update_of_ne hk] at hkey
      exact .inr hkey
  have hentries : ∀ e ∈ s'.table.entries, e ∈ s.table.entries ∨
      e = ⟨id, request.code, deadline, s.table.slots.size⟩ := by
    intro e he
    rw [htable] at he
    exact (List.mem_append.mp he).imp_right List.mem_singleton.mp
  constructor
  · intro e he
    rw [hsize]
    rcases hentries e he with hold | rfl
    · exact Nat.lt_succ_of_lt (h.entry_lt e hold)
    · exact Nat.lt_succ_self _
  · intro k' key hkey
    rw [hsize]
    rcases hkeys k' key hkey with rfl | hold
    · exact Nat.lt_succ_self _
    · exact Nat.lt_succ_of_lt (h.key_lt k' key hold)
  · intro h' slot outcome hheld
    rw [holding] at hheld
    rw [hsize]
    exact Nat.lt_succ_of_lt (h.held_lt h' slot outcome hheld)
  · intro e he k' key hkey heq
    rcases hentries e he with hold | rfl <;> rcases hkeys k' key hkey with rfl | hkey
    · exact absurd heq (Nat.ne_of_gt (h.entry_lt e hold))
    · exact h.entries e hold k' key hkey heq
    · rfl
    · exact absurd heq (Nat.ne_of_lt (h.key_lt k' key hkey))
  · intro k' key hkey outcome hoffer
    rw [State.Offers, holding, htable, Inflight.slot_push s.table.entries] at hoffer
    rcases hkeys k' key hkey with rfl | hkey
    · rw [if_pos rfl] at hoffer
      rcases hoffer with hslot | ⟨h', hheld⟩
      · cases hslot
      · exact absurd (h.held_lt h' _ outcome hheld) (Nat.lt_irrefl _)
    · rw [if_neg (Nat.ne_of_lt (h.key_lt k' key hkey))] at hoffer
      exact h.offers k' key hkey outcome hoffer

/-- Every step keeps everything honest, if the reader takes messages only that it has heard. -/
theorem Honest.step (h : Honest heard s) (he : Effect s a s')
    (hheard : ∀ m, a = .reader (.take m) → m ∈ heard) : Honest heard s' := by
  have hle := h.of_le he hheard
  cases he with
  | quiet k x goes table _ senders _ =>
    refine hle (table ▸ s.table.shrinks_refl) ?_
    rw [senders]
    exact key?_update goes.key?
  | registered k request timeout deadline _ link senders holding =>
    exact h.registered link senders holding
  | taken _ _ _ _ _ table _ senders =>
    exact hle (table ▸ s.table.shrinks_without _) fun k => by rw [senders]
  | delivered _ _ _ _ table _ senders =>
    exact hle (table ▸ s.table.shrinks_settled ..) fun k => by rw [senders]
  | expired k call _ _ sender _ _ table _ senders =>
    refine hle (table ▸ s.table.shrinks_remove ..) ?_
    rw [senders]
    refine key?_update ?_
    rw [sender]
    rfl
  | released k call result _ sender table _ senders =>
    refine hle (table ▸ (s.table.shrinks_remove ..).trans (Inflight.shrinks_forget ..)) ?_
    rw [senders]
    refine key?_update ?_
    rw [sender]
    rfl

/-! ### Results -/

/-- What a call finds in its slot is lawful for it. -/
theorem Honest.lawful_of_settled? (h : Honest heard s) {k : ℕ} {call : Call}
    (hcall : (s.senders k).call? = some call)
    (hsettled : Simulation.Sending.settled? s.link call.slot = some outcome) :
    Lawful heard call.sync outcome := by
  rw [Simulation.Sending.settled?] at hsettled
  split at hsettled
  · cases hsettled
  · next hslot =>
    cases hsettled
    exact h.offers k _ (Sender.key?_of_call? hcall) outcome (.inl hslot)
  all_goals
    cases hsettled
    exact .network rfl

/-- Results so far are lawful, and calls that were refused at once were refused for a fault of the
network. -/
structure Resulting (heard : List Message) (s : State) : Prop where
  results : ∀ k call outcome, (s.senders k).Returns call outcome → Lawful heard call.sync outcome
  refusals : ∀ k fault, s.senders k = .refused fault → fault.isNetwork = true

theorem resulting_start (address : Address) (greeting : Greeting) (g : SyncIds) :
    Resulting heard (start address greeting g) := by
  refine ⟨?_, nofun⟩
  rintro k call outcome (hx | hx) <;> cases hx

/-- A sender that comes to a result comes to a lawful one. -/
theorem Sender.Step.resulting {k : ℕ} {a : SenderAction} {link : Connection} {x : Sender}
    (hstep : Sender.Step s.link k (s.senders k) a link x) (h : Honest heard s)
    (hr : Resulting heard s) :
    (∀ call outcome, x.Returns call outcome → Lawful heard call.sync outcome) ∧
      ∀ fault, x = .refused fault → fault.isNetwork = true := by
  generalize hs : s.senders k = y at hstep
  constructor
  · rintro call outcome hx
    cases hstep with
    | turnedAway _ ready =>
      rcases hx with hx | hx <;> cases hx
      exact .network (Connection.isNetwork_of_readyFault? ready)
    | oversized | shutOut | expired =>
      rcases hx with hx | hx <;> cases hx
      exact .network rfl
    | received _ settled | receivedLate settled =>
      rcases hx with hx | hx <;> cases hx
      exact h.lawful_of_settled? (k := k) (by rw [hs]; rfl) settled
    | released =>
      rcases hx with hx | hx <;> cases hx
      exact hr.results k call outcome (.inl hs)
    | _ => rcases hx with hx | hx <;> cases hx
  · intro fault hx
    cases hstep with
    | refused ready =>
      cases hx
      exact Connection.isNetwork_of_readyFault? ready
    | _ => cases hx

theorem Resulting.step (hr : Resulting heard s) (h : Honest heard s) {a : Action}
    (hstep : Step s a s') : Resulting heard s' := by
  cases hstep with
  | @sender k a link x step =>
    obtain ⟨hresults, hrefusals⟩ := step.resulting h hr
    have hothers : ∀ k' ≠ k, (s.setSender k link x).senders k' = s.senders k' :=
      fun k' hk => Function.update_of_ne hk ..
    constructor
    · intro k' call outcome hx
      by_cases hk : k' = k
      · rw [hk, State.setSender_self] at hx
        exact hresults call outcome hx
      · rw [hothers k' hk] at hx
        exact hr.results k' call outcome hx
    · intro k' fault hx
      by_cases hk : k' = k
      · rw [hk, State.setSender_self] at hx
        exact hrefusals fault hx
      · rw [hothers k' hk] at hx
        exact hr.refusals k' fault hx
  | reader | writer | ender => exact ⟨hr.results, hr.refusals⟩

theorem Honest.mono (h : Honest heard s) (hle : heard ⊆ heard') : Honest heard' s :=
  ⟨h.entry_lt, h.key_lt, h.held_lt, h.entries,
    fun k key hkey outcome hoffer => (h.offers k key hkey outcome hoffer).mono hle⟩

theorem Resulting.mono (hr : Resulting heard s) (hle : heard ⊆ heard') : Resulting heard' s :=
  ⟨fun k call outcome hx => (hr.results k call outcome hx).mono hle, hr.refusals⟩

namespace Channel

variable {address : Address} {greeting : Greeting} {g : SyncIds} {left : Octets} {l l' : Channel}

/-- The reader has taken messages off what has been received, and everything is honest with them. -/
structure Listens (l : Channel) (heard : List Message) : Prop where
  takes : Frame.Takes l.received heard l.unread
  honest : Honest heard l.state
  resulting : Resulting heard l.state

theorem Listens.moved (h : l.Listens heard) {a : Action} {s' : State}
    (hstep : Interleaving.Step l.state a s') (hheard : ∀ m, a = .reader (.take m) → m ∈ heard) :
    (l.moved s').Listens heard :=
  ⟨h.takes, h.honest.step hstep.effect hheard, h.resulting.step h.honest hstep⟩

theorem Listens.step (h : l.Listens heard) (hstep : Step l l') : ∃ heard', l'.Listens heard' := by
  cases hstep with
  | sender _ step | ender step | delivers step | hangsUp step =>
    exact ⟨heard, h.moved step nofun⟩
  | @enters k call frame s' _ _ step =>
    have henter : (l.enter ⟨k, call, frame⟩).Listens heard := ⟨h.takes, h.honest, h.resulting⟩
    exact ⟨heard, henter.moved step nofun⟩
  | @pops frame _ s' _ _ _ step =>
    have hload : (l.load frame).Listens heard := ⟨h.takes, h.honest, h.resulting⟩
    exact ⟨heard, hload.moved step nofun⟩
  | arrives chunk => exact ⟨heard, h.takes.append chunk, h.honest, h.resulting⟩
  | writes => exact ⟨heard, h.takes, h.honest, h.resulting⟩
  | @understands m n s' frame step =>
    have hle : heard ⊆ heard ++ [m] := List.subset_append_left ..
    have hskip : (l.skip n).Listens (heard ++ [m]) :=
      ⟨h.takes.snoc frame, h.honest.mono hle, h.resulting.mono hle⟩
    refine ⟨heard ++ [m], hskip.moved step ?_⟩
    intro m' hm'
    cases hm'
    exact List.mem_append_right _ (List.mem_singleton.mpr rfl)

theorem Run.listens (hr : Run (start address greeting g left) l) : ∃ heard, l.Listens heard := by
  induction hr with
  | nil => exact ⟨[], .nil, honest_start .., resulting_start ..⟩
  | snoc _ last ih =>
    obtain ⟨heard, h⟩ := ih
    exact h.step last

/-- The messages that what has been received so far is drained to. -/
def messages (l : Channel) : List Message :=
  (Frame.drain l.received).messages.map Prod.fst

theorem Run.resulting (hr : Run (start address greeting g left) l) :
    Resulting l.messages l.state := by
  obtain ⟨heard, h⟩ := hr.listens
  exact h.resulting.mono h.takes.isPrefix.subset

end Channel

end Interleaving

end Switchboard
