import Switchboard.Proofs.Interleaving.Fate

/-!
# The sweep of a connection that ends

One party at most takes the connection out of service.  It lists the pending requests after that and
resolves them.  A sender that registers later finds at its second check that the connection is not
in service, so the sweep misses nobody who goes on to wait.

## Main definitions

- `Interleaving.Decided` — at most one party has taken the connection out of service
- `Interleaving.Listed` — whoever sweeps has all ids to sweep that matter
- `Interleaving.State.Expels` — a sender that fails at its second check and removes its entry
- `Interleaving.State.Answered` — a sender that need not wait any more

## Main statements

- `Interleaving.Decided.step`, `Interleaving.Listed.step` — what every step preserves
- `Interleaving.sweep_leaves_no_waiter` — nobody waits once the sweep is over
-/

namespace Switchboard.Interleaving

/-! ### Stages and winners -/

theorem readyFault?_eq_none_iff {c : Connection} :
    c.readyFault? = none ↔ c.stage = .ready := by
  simp [Connection.readyFault?, Connection.isReady]

theorem ne_ready_of_isEnding {stage : Stage} (h : stage.isEnding = true) : stage ≠ .ready := by
  rintro rfl
  cases h

theorem Ender.won_of_rest? {x : Ender} {rest : List UInt64} (h : x.rest? = some rest) : x.Won := by
  cases x with
  | idle | lost | won => cases h
  | _ => trivial

theorem Ender.rest?_of_swept {x : Ender} (h : x.Swept) : x.rest? = some [] := by
  unfold Swept at h
  split at h
  · rfl
  · rfl
  · exact h.elim

/-- Somebody who ends the connection either takes it out of service now or is as much a winner as
before. -/
theorem Ender.Step.wins_or_goes {c link : Connection} {x y : Ender} {a : EnderAction}
    (h : Ender.Step c x a link y) :
    c.stage.isEnding = false ∧ link.stage.isEnding = true ∨
      (y.Won ↔ x.Won) ∧ (link.stage = c.stage ∨ link.stage = .closed) := by
  cases h with
  | @won ending c' leave =>
    obtain ⟨hserves, rfl⟩ := Connection.leave?_eq_some_iff.mp leave
    refine .inl ⟨hserves, ?_⟩
    cases ending <;> rfl
  | finished => exact .inr ⟨Iff.rfl, .inr rfl⟩
  | _ => exact .inr ⟨Iff.rfl, .inl rfl⟩

variable {g : SyncIds} {s s' : State} {a : Action} {run : List Transition} {k : ℕ} {x y : Sender}
  {call call' : Call}

/-- A connection that has begun to end does not come back. -/
theorem Step.isEnding (h : Step s a s') (hs : s.link.stage.isEnding = true) :
    s'.link.stage.isEnding = true := by
  rcases h.stage with ⟨hstage, -⟩ | ⟨j, x, b, hstep, -, -⟩
  · rwa [hstage]
  · rcases hstep.wins_or_goes with ⟨-, hafter⟩ | ⟨-, hsame | hclosed⟩
    · exact hafter
    · rwa [hsame]
    · rw [hclosed]
      rfl

/-- Winners belong to the end of service, and there is at most one. -/
structure Decided (s : State) : Prop where
  ended : ∀ j, (s.enders j).Won → s.link.stage.isEnding = true
  winner : ∀ i j, (s.enders i).Won → (s.enders j).Won → i = j

theorem Decided.step (h : Decided s) (hstep : Step s a s') : Decided s' := by
  have hmono := hstep.isEnding
  rcases hstep.stage with ⟨hstage, henders⟩ | ⟨j₀, x, b, hender, -, hs'⟩
  · constructor
    · intro j hj
      rw [henders] at hj
      exact hmono (h.ended j hj)
    · intro i j hi hj
      rw [henders] at hi hj
      exact h.winner i j hi hj
  · have hself : s'.enders j₀ = x := by rw [hs', State.setEnder_self]
    have hothers : ∀ j ≠ j₀, s'.enders j = s.enders j := by
      intro j hj
      rw [hs', State.setEnder_of_ne hj]
    rcases hender.wins_or_goes with ⟨hbefore, hafter⟩ | ⟨hiff, -⟩
    · -- nobody has won before
      have hnew : ∀ j, (s'.enders j).Won → j = j₀ := by
        intro j hj
        by_contra hne
        rw [hothers j hne] at hj
        rw [h.ended j hj] at hbefore
        cases hbefore
      refine ⟨fun _ _ => hafter, fun i j hi hj => ?_⟩
      rw [hnew i hi, hnew j hj]
    · have hold : ∀ j, (s'.enders j).Won → (s.enders j).Won := by
        intro j hj
        by_cases hne : j = j₀
        · rw [hne] at hj ⊢
          exact hiff.mp (hself ▸ hj)
        · rwa [hothers j hne] at hj
      exact ⟨fun j hj => hmono (h.ended j (hold j hj)),
        fun i j hi hj => h.winner i j (hold i hi) (hold j hj)⟩

/-! ### Sweeping -/

/-- Whoever has listed the pending requests still has all of them to sweep whose senders have passed
their second check. -/
def Listed (s : State) : Prop :=
  ∀ j rest, (s.enders j).rest? = some rest → ∀ k call, (s.senders k).call? = some call →
    call.progress ≠ .registered → s.table.Pends call.slot → call.sync ∈ rest

/-- A sender at `y` that has passed its second check had passed it when it was at `x`. -/
def Sender.PassedBefore (x y : Sender) : Prop :=
  ∀ call', y.call? = some call' → call'.progress ≠ .registered →
    ∃ call, x.call? = some call ∧ call.slot = call'.slot ∧ call.sync = call'.sync ∧
      call.progress ≠ .registered

theorem Sender.passedBefore_refl (x : Sender) : x.PassedBefore x :=
  fun call' hcall' hpast => ⟨call', hcall', rfl, rfl, hpast⟩

/-- No sender passes its second check on a connection that has begun to end. -/
theorem Sender.Goes.passedBefore (hgoes : x.Goes s.link y) (hs : s.link.stage.isEnding = true) :
    x.PassedBefore y := by
  intro call' hy hpast
  cases hgoes with
  | stays => exact ⟨call', hy, rfl, rfl, hpast⟩
  | asks _ after =>
    rw [after] at hy
    cases hy
  | @proceeds call _ _ ready =>
    cases hy
    -- a sender that goes on from its registration has just found the connection in service
    refine ⟨call, rfl, rfl, rfl, fun hregistered => ?_⟩
    exact ne_ready_of_isEnding hs (readyFault?_eq_none_iff.mp (ready hregistered))
  | fails | lapses =>
    cases hy
    exact ⟨_, rfl, rfl, rfl, hpast⟩
  | receives waits | abandons waits =>
    cases hy
    exact ⟨_, waits.call?, rfl, rfl, hpast⟩

theorem Effect.passedBefore (he : Effect s a s') (hs : s.link.stage.isEnding = true) :
    ∀ k, (s.senders k).PassedBefore (s'.senders k) := by
  have hupdate : ∀ {k₀ x}, s'.senders = Function.update s.senders k₀ x →
      (s.senders k₀).PassedBefore x → ∀ k, (s.senders k).PassedBefore (s'.senders k) := by
    intro k₀ x hsenders hx
    rw [hsenders, Function.forall_update_iff s.senders fun k y => (s.senders k).PassedBefore y]
    exact ⟨hx, fun k _ => (s.senders k).passedBefore_refl⟩
  cases he with
  | quiet k₀ x goes _ _ senders => exact hupdate senders (goes.passedBefore hs)
  | registered k₀ _ _ _ _ _ senders =>
    refine hupdate senders ?_
    rintro call' hcall' hpast
    cases hcall'
    exact absurd rfl hpast
  | taken _ _ _ _ _ _ _ senders | delivered _ _ _ _ _ _ senders =>
    rw [senders]
    exact fun k => (s.senders k).passedBefore_refl
  | expired _ _ _ _ sender _ _ _ _ senders | released _ _ _ _ sender _ _ senders =>
    refine hupdate senders ?_
    rw [sender]
    exact Sender.passedBefore_refl _

/-- Whoever sweeps has an id still to sweep if it had it before and the id is still pending. -/
theorem Ender.Step.mem_rest {c link : Connection} {x y : Ender} {b : EnderAction}
    {rest : List UInt64} (h : Ender.Step c x b link y) (hrest : y.rest? = some rest) {id : UInt64}
    (hid : id ∈ link.inflight.syncs) (hbefore : ∀ before, x.rest? = some before → id ∈ before) :
    id ∈ rest := by
  cases h with
  | won | lost => cases hrest
  | listed =>
    cases hrest
    exact hid
  | skipped find =>
    cases hrest
    -- the id in front is not pending
    rcases List.mem_cons.mp (hbefore _ rfl) with rfl | hmem
    · exact absurd hid (Inflight.find?_eq_none_iff.mp find)
    · exact hmem
  | taken find =>
    cases hrest
    -- the entry under the id in front has just been taken
    rcases List.mem_cons.mp (hbefore _ rfl) with rfl | hmem
    · obtain ⟨e, he, hsync⟩ := Inflight.mem_syncs.mp hid
      exact absurd hsync (of_decide_eq_true (List.mem_filter.mp he).2)
    · exact hmem
  | delivered =>
    cases hrest
    exact hbefore _ rfl
  | finished =>
    cases hrest
    exact hbefore _ rfl

theorem Sound.sync_mem (h : Sound g s) (hcall : (s.senders k).call? = some call)
    (hp : s.table.Pends call.slot) : call.sync ∈ s.table.syncs := by
  obtain ⟨e, he, hslot⟩ := hp
  refine Inflight.mem_syncs.mpr ⟨e, he, ?_⟩
  rw [h.numbered e he, h.sync_eq hcall, hslot]

theorem Listed.step (hl : Listed s) (hd : Decided s) (h : Sound g s) (h' : Sound g s')
    (hstep : Step s a s') (hsize : s'.table.slots.size ≤ SyncIds.cycle) : Listed s' := by
  intro j rest hrest k call' hcall' hpast hp'
  have he := hstep.effect
  have hid := h'.sync_mem hcall' hp'
  -- what is still to be swept before the step is still to be swept after it
  have hold : ∀ before, (s.enders j).rest? = some before → call'.sync ∈ before := by
    intro before hbefore
    have hending := hd.ended j (Ender.won_of_rest? hbefore)
    obtain ⟨call, hcall, hslot, hsync, hpast'⟩ := he.passedBefore hending k call' hcall' hpast
    rw [← hsync]
    refine hl j before hbefore k call hcall hpast' ?_
    rw [← hslot] at hp'
    exact h.pends_of_pends he hsize _ (h.slot_lt hcall) hp'
  rcases hstep.stage with ⟨-, henders⟩ | ⟨j₀, x, b, hender, -, hs'⟩
  · rw [henders] at hrest
    exact hold rest hrest
  · by_cases hj : j = j₀
    · have hself : s'.enders j = x := by rw [hs', hj, State.setEnder_self]
      rw [hself] at hrest
      exact hender.mem_rest hrest hid (hj ▸ hold)
    · rw [hs', State.setEnder_of_ne hj] at hrest
      exact hold rest hrest

/-! ### Senders that were turned away -/

/-- The sender has ended before its second check only because the check failed. -/
def Sender.Honest : Sender → Prop
  | .overdue call => call.progress ≠ .registered
  | .leaving call result | .gone call result =>
    call.progress = .registered →
      ∃ (c : Connection) (fault : Fault), c.readyFault? = some fault ∧ result = some (.error fault)
  | _ => True

theorem Sender.Goes.honest {c : Connection} (hgoes : x.Goes c y) (hx : x.Honest) : y.Honest := by
  have hwaits : ∀ call, x.WaitsFor call → call.progress ≠ .registered := by
    rintro call (⟨-, hpast⟩ | rfl)
    · exact hpast
    · exact hx
  cases hgoes with
  | stays => exact hx
  | asks _ after =>
    cases y with
    | idle | checked | refused => trivial
    | active | overdue | leaving | gone => cases after
  | proceeds => trivial
  | fails _ ready => exact fun hregistered => ⟨_, _, ready hregistered, rfl⟩
  | lapses past => exact past
  | receives waits | abandons waits =>
    exact fun hregistered => absurd hregistered (hwaits _ waits)

theorem Effect.honest (he : Effect s a s') (hs : ∀ k, (s.senders k).Honest) :
    ∀ k, (s'.senders k).Honest := by
  have hupdate : ∀ {k₀ x}, s'.senders = Function.update s.senders k₀ x → x.Honest →
      ∀ k, (s'.senders k).Honest := by
    intro k₀ x hsenders hx
    rw [hsenders, Function.forall_update_iff s.senders fun _ y => y.Honest]
    exact ⟨hx, fun k _ => hs k⟩
  cases he with
  | quiet k₀ x goes _ _ senders => exact hupdate senders (goes.honest (hs k₀))
  | registered _ _ _ _ _ _ senders => exact hupdate senders trivial
  | taken _ _ _ _ _ _ _ senders | delivered _ _ _ _ _ _ senders =>
    rw [senders]
    exact hs
  | expired _ _ _ _ _ past _ _ _ senders =>
    exact hupdate senders fun hregistered => absurd hregistered past
  | released k₀ call result _ sender _ _ senders =>
    have hleaving := hs k₀
    rw [sender] at hleaving
    exact hupdate senders hleaving

/-! ### Runs -/

variable {address : Address} {greeting : Wire.Greeting}

theorem Run.decided (hr : Run (start address greeting g) run s) : Decided s := by
  induction hr with
  | nil => exact ⟨fun _ hj => hj.elim, fun _ _ hi => hi.elim⟩
  | snoc _ last ih => exact ih.step last

theorem Run.honest (hr : Run (start address greeting g) run s) : ∀ k, (s.senders k).Honest := by
  induction hr with
  | nil => exact fun _ => trivial
  | snoc _ last ih => exact last.effect.honest ih

theorem Run.listed (hr : Run (start address greeting g) run s)
    (hsize : s.table.slots.size ≤ SyncIds.cycle) : Listed s := by
  induction hr with
  | nil =>
    intro j rest hrest
    cases hrest
  | snoc init last ih =>
    have hbefore := Nat.le_trans last.effect.size_le hsize
    exact (ih hbefore).step init.decided (init.sound hbefore).1 ((init.snoc last).sound hsize).1
      last hsize

theorem Step.swept (h : Step s a s') {j : ℕ} (hj : (s.enders j).Swept) : (s'.enders j).Swept := by
  cases h with
  | @ender j₀ a link x step =>
    by_cases hne : j = j₀
    · subst hne
      rw [State.setEnder_self]
      generalize s.enders j = y at step hj
      cases step with
      | skipped | taken | won | lost | listed | delivered => exact hj.elim
      | finished => trivial
    · rwa [State.setEnder_of_ne hne]
  | _ => exact hj

theorem Run.swept (hr : Run s run s') {j : ℕ} (hs : s.link.stage.isEnding = true)
    (hj : (s.enders j).Swept) : (s'.enders j).Swept ∧ s'.link.stage.isEnding = true := by
  induction hr with
  | nil => exact ⟨hj, hs⟩
  | snoc _ last ih => exact ⟨last.swept ih.1, last.isEnding ih.2⟩

/-! ### Nobody waits -/

/-- The sender was turned away at its second check, and its guard removes the entry next. -/
def State.Discards (s : State) (k : ℕ) (call : Call) : Prop :=
  (∃ fault, s.senders k = .leaving call (some (.error fault))) ∧
    (∃ s', Step s (.sender k .release) s') ∧
    ∀ a s', Step s (.sender k a) s' → ¬s'.table.Pends call.slot

/-- The sender has registered its call but not passed its second check.  It has failed at it, or it
fails at it next. -/
def State.Expels (s : State) (k : ℕ) (call : Call) : Prop :=
  call.progress = .registered ∧
    (s.Discards k call ∨
      s.senders k = .active call ∧ s.link.readyFault?.isSome = true ∧
        (∃ s', Step s (.sender k .recheck) s') ∧
        ∀ a s', Step s (.sender k a) s' → s'.Discards k call)

/-- The sender has returned or gone away, or a result has been delivered to it. -/
def State.Answered (s : State) (k : ℕ) (call : Call) : Prop :=
  (∃ result, s.senders k = .leaving call result ∨ s.senders k = .gone call result) ∨
    ∃ outcome, s.table.slot call.slot = .delivered outcome

/-- The guard of a sender that was turned away removes its entry. -/
theorem discards_of_leaving {fault : Fault} (h : Sound g s)
    (hsize : s.table.slots.size ≤ SyncIds.cycle)
    (hsender : s.senders k = .leaving call (some (.error fault))) : s.Discards k call := by
  have hcall : (s.senders k).call? = some call := by
    rw [hsender]
    rfl
  refine ⟨⟨fault, hsender⟩, ⟨_, .of_sender hsender .released⟩, ?_⟩
  intro a s' hstep
  cases hstep with
  | sender step =>
    rw [hsender] at step
    cases step with
    | released => exact fun hp => ((h.pends_remove hsize hcall _).mp hp).2 rfl

/-- On a connection that has left service the second check fails. -/
theorem expels_of_active (h : Sound g s) (hsize : s.table.slots.size ≤ SyncIds.cycle)
    (hs : s.link.stage.isEnding = true) (hsender : s.senders k = .active call)
    (hregistered : call.progress = .registered) : s.Expels k call := by
  obtain ⟨fault, hfault⟩ : ∃ fault, s.link.readyFault? = some fault := by
    rw [← Option.ne_none_iff_exists']
    exact fun hnone => ne_ready_of_isEnding hs (readyFault?_eq_none_iff.mp hnone)
  refine ⟨hregistered, .inr ⟨hsender, by rw [hfault]; rfl,
    ⟨_, .of_sender hsender (.turnedAway hregistered hfault)⟩, ?_⟩⟩
  intro a s' hstep
  have hnext := h.step hstep.effect
  cases hstep with
  | sender step =>
    rw [hsender] at step
    cases step with
    | cleared _ ready =>
      rw [hfault] at ready
      cases ready
    | turnedAway => exact discards_of_leaving (hnext hsize) hsize (State.setSender_self ..)
    | queued progress | oversized progress | accepted progress | shutOut progress
    | received progress =>
      rw [hregistered] at progress
      cases progress
    | expired awaits | overdue awaits | abandoned awaits =>
      exact absurd hregistered awaits.ne_registered

theorem holding_of_swept {j : ℕ} (hj : (s.enders j).Swept) : s.holding (.ender j) = none := by
  rw [State.holding]
  cases h : s.enders j with
  | delivering =>
    rw [h] at hj
    exact hj.elim
  | _ => rfl

theorem won_of_holding {j slot : ℕ} {outcome : Outcome}
    (h : s.holding (.ender j) = some (slot, outcome)) : (s.enders j).Won := by
  rw [State.holding] at h
  cases hj : s.enders j with
  | idle | lost =>
    rw [hj] at h
    cases h
  | _ => trivial

/-- What is owed to a sender once the sweep is over has been delivered, or the reader holds it. -/
theorem answered_of_owes {j : ℕ} {outcome : Outcome} (hd : Decided s) (hj : (s.enders j).Swept)
    (howes : s.Owes call.slot outcome) :
    s.Answered k call ∨ ∃ outcome, s.hand = some (call.slot, outcome) ∧
      ∀ s', Step s (.reader .put) s' → s'.Answered k call := by
  rcases howes with hdelivered | ⟨hwaiting, holder, hheld⟩
  · exact .inl (.inr ⟨outcome, hdelivered⟩)
  cases holder with
  | ender j' =>
    have hwon := Ender.won_of_rest? (Ender.rest?_of_swept hj)
    have hsame := hd.winner j' j (won_of_holding hheld) hwon
    rw [hsame, holding_of_swept hj] at hheld
    cases hheld
  | reader =>
    refine .inr ⟨outcome, hheld, fun s' hstep => .inr ⟨outcome, ?_⟩⟩
    have hhand : s.hand = some (call.slot, outcome) := hheld
    cases hstep with
    | reader step =>
      rw [hhand] at step
      cases step with
      | put =>
        change (s.table.settled call.slot (.delivered outcome)).slot call.slot = _
        rw [slot_settled, if_pos rfl, hwaiting]
        rfl

/-- At most one party takes a connection out of service.  Once its sweep is over, it stays over and
the connection out of service; every entry left belongs to a sender that fails at its second check
and removes it; and every sender that has passed the check has returned or has a result.  Only while
the reader is in the middle of a reply may it still hold the result, which it delivers next. -/
theorem sweep_leaves_no_waiter (hr : Run (start address greeting g) run s)
    (hids : s.table.slots.size ≤ SyncIds.cycle) :
    (∀ i j, (s.enders i).Won → (s.enders j).Won → i = j) ∧
      ∀ j, (s.enders j).Swept →
        (∀ rest s', Run s rest s' → (s'.enders j).Swept ∧ s'.link.stage ≠ .ready) ∧
        (∀ e ∈ s.table.entries, ∃ k call, call.slot = e.slot ∧ call.sync = e.sync ∧
          s.Expels k call) ∧
        ∀ k call, (s.senders k).call? = some call → call.progress ≠ .registered →
          s.Answered k call ∨ ∃ outcome, s.hand = some (call.slot, outcome) ∧
            ∀ s', Step s (.reader .put) s' → s'.Answered k call := by
  obtain ⟨hsound, hapart⟩ := hr.sound hids
  have hdecided := hr.decided
  refine ⟨hdecided.winner, fun j hj => ?_⟩
  have hrest := Ender.rest?_of_swept hj
  have hwon := Ender.won_of_rest? hrest
  have hending := hdecided.ended j hwon
  -- nothing is left to sweep, so whoever has passed the second check is not pending
  have hnone : ∀ k call, (s.senders k).call? = some call → call.progress ≠ .registered →
      ¬s.table.Pends call.slot := by
    intro k call hcall hpast hp
    exact List.not_mem_nil (hr.listed hids j [] hrest k call hcall hpast hp)
  refine ⟨?_, ?_, ?_⟩
  · intro rest s' hrun
    obtain ⟨hswept, hstill⟩ := hrun.swept hending hj
    exact ⟨hswept, ne_ready_of_isEnding hstill⟩
  · intro e he
    obtain ⟨k, hkey⟩ := hsound.owned e he
    obtain ⟨call, hcall, heq⟩ := Option.map_eq_some_iff.mp hkey
    obtain ⟨hslot, hsync⟩ := Prod.mk.inj heq
    have hpends : s.table.Pends call.slot := ⟨e, he, hslot.symm⟩
    have hregistered : call.progress = .registered := by
      by_contra hpast
      exact hnone k call hcall hpast hpends
    refine ⟨k, call, hslot, hsync, ?_⟩
    cases (hr.fates hids).fate k call hcall with
    | removed _ _ _ _ gone => exact absurd hpends gone
    | pending _ _ _ sender =>
      cases hsender : s.senders k with
      | active call' =>
        rw [hsender] at hcall
        cases hcall
        exact expels_of_active hsound hids hending hsender hregistered
      | leaving call' result =>
        have hhonest := hr.honest k
        rw [hsender] at hcall hhonest
        cases hcall
        obtain ⟨_, fault, -, rfl⟩ := hhonest hregistered
        exact ⟨hregistered, .inl (discards_of_leaving hsound hids hsender)⟩
      | _ =>
        rw [hsender] at sender
        exact sender.elim
  · intro k call hcall hpast
    cases (hr.fates hids).fate k call hcall with
    | pending pends => exact absurd pends (hnone k call hcall hpast)
    | removed t award _ _ _ sender =>
      cases hsender : s.senders k with
      | active | overdue =>
        rw [hsender] at sender
        obtain ⟨-, outcome, -, howes⟩ := sender
        exact answered_of_owes hdecided hj howes
      | leaving call' result | gone call' result =>
        rw [hsender] at hcall
        cases hcall
        exact .inl (.inl ⟨result, by simp [hsender]⟩)
      | idle | checked | refused =>
        rw [hsender] at hcall
        cases hcall

/-- Sender 1 registers after the pending requests have been listed, so the sweep reaches only
sender 0. -/
theorem sweep_leaves_no_waiter_late_sender :
    ∃ run s, Run (start default default .start) run s ∧ (s.enders 0).Swept ∧
      s.table.syncs = [2] ∧ (∃ k call, call.sync = 2 ∧ s.Expels k call) ∧
      ∃ call, call.sync = 1 ∧ call.progress = .accepted ∧ s.Answered 0 call := by
  have h₁ := Run.nil.snoc (Step.of_sender (s := start default default .start) (k := 0) rfl
    (.checked rfl : Sender.Step _ _ _ (.check .ping (.ofMillis 5)) _ _))
  have h₂ := h₁.snoc (Step.of_sender (k := 1) rfl
    (.checked rfl : Sender.Step _ _ _ (.check .ping (.ofMillis 5)) _ _))
  have h₃ := h₂.snoc (Step.of_sender (k := 0) rfl
    (.registered : Sender.Step _ _ _ (.register 5) _ _))
  have h₄ := h₃.snoc (Step.of_sender (k := 0) rfl (.cleared rfl rfl))
  have h₅ := h₄.snoc (Step.of_sender (k := 0) rfl (.queued rfl rfl))
  have h₆ := h₅.snoc (Step.of_sender (k := 0) rfl (.accepted rfl rfl))
  have h₇ := h₆.snoc (Step.of_ender (j := 0) rfl
    (.won rfl : Ender.Step _ _ (.begin (.failure (.transport "gone"))) _ _))
  have h₈ := h₇.snoc (Step.of_ender (j := 1) rfl (.lost rfl : Ender.Step _ _ (.begin .closure) _ _))
  have h₉ := h₈.snoc (Step.of_ender (j := 0) rfl .listed)
  have h₁₀ := h₉.snoc (Step.of_sender (k := 1) rfl
    (.registered : Sender.Step _ _ _ (.register 5) _ _))
  have h₁₁ := h₁₀.snoc (Step.of_ender (j := 0) rfl (.taken rfl))
  have h := h₁₁.snoc (Step.of_ender (j := 0) rfl .delivered)
  obtain ⟨-, hentries, hsenders⟩ := (sweep_leaves_no_waiter h (by decide)).2 0 trivial
  obtain ⟨k, call, -, hsync, hexpels⟩ := hentries _ (List.mem_cons_self ..)
  have hanswered := hsenders 0 _ rfl nofun
  refine ⟨_, _, h, trivial, rfl, ⟨k, call, hsync, hexpels⟩, _, ?_, ?_, hanswered.resolve_right ?_⟩
  · rfl
  · rfl
  · rintro ⟨outcome, hhand, -⟩
    cases hhand

end Switchboard.Interleaving
