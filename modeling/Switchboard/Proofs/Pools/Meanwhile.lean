import Switchboard.Proofs.Interleaving.Dispatches
import Switchboard.Proofs.Pools.Closure
import Switchboard.Proofs.Pools.Draining
import Switchboard.Proofs.Pools.Stock
import Switchboard.Simulation.Engine

/-!
# What others do while a pool is drained

Whoever drains a pool relies on the others for this: a request that was pending at the call and has
ended is not pending again, and neither is one whose connection has left the pool.  That is so
because the entries of new requests have slots of their own, and because connections are taken in
only when they have just been opened.

## Main definitions

- `Inflight.Ages` — all entries that have come have new slots
- `Stocking.Unseen` — the connections on their way into the pool have not been there before

## Main statements

- `Interleaving.Effect.ages`, `Stocking.Unseen.step` — what every step preserves
- `Simulation.Meanwhile.of_runs` — what those do who use connections and the pool
- `Simulation.Engine.now_jump_le` — timers go off in time
-/

namespace Switchboard

/-! ### Tables -/

/-- The table some time later: all entries that have come have slots that have come. -/
structure Inflight.Ages (t t' : Inflight) : Prop where
  size : t.slots.size ≤ t'.slots.size
  entries : ∀ e ∈ t'.entries, e ∈ t.entries ∨ t.slots.size ≤ e.slot ∧ e.slot < t'.slots.size

namespace Inflight

variable {t t' t'' : Inflight}

theorem Shrinks.ages (h : t.Shrinks t') : t.Ages t' :=
  ⟨Nat.le_of_eq h.size.symm, fun _ he => .inl (h.entries.subset he)⟩

theorem Ages.trans (h : t.Ages t') (h' : t'.Ages t'') : t.Ages t'' := by
  refine ⟨h.size.trans h'.size, fun e he => ?_⟩
  rcases h'.entries e he with hold | ⟨hle, hlt⟩
  · exact (h.entries e hold).imp_right fun ⟨hle, hlt⟩ => ⟨hle, hlt.trans_le h'.size⟩
  · exact .inr ⟨h.size.trans hle, hlt⟩

theorem ages_register (t : Inflight) (g : SyncIds) (code : Wire.RequestType) (deadline : ℕ) :
    t.Ages (t.register g code deadline).2.2.1 := by
  have hsize : (t.slots.push .waiting).size = t.slots.size + 1 := Array.size_push ..
  refine ⟨?_, fun e he => ?_⟩
  · exact hsize ▸ Nat.le_succ _
  · rcases List.mem_append.mp he with hold | hnew
    · exact .inl hold
    · rw [List.mem_singleton.mp hnew]
      exact .inr ⟨le_rfl, hsize ▸ Nat.lt_succ_self _⟩

end Inflight

namespace Interleaving

theorem Effect.ages {s s' : State} {a : Action} (h : Effect s a s') : s.table.Ages s'.table := by
  cases h with
  | quiet _ _ _ table => exact table ▸ (s.table.shrinks_refl).ages
  | registered k request timeout deadline sender link =>
    have htable : s'.table = (s.link.register request.code deadline).2.2.inflight :=
      congrArg Connection.inflight link
    exact htable ▸ s.table.ages_register ..
  | taken h e outcome reason find table => exact table ▸ (s.table.shrinks_without _).ages
  | delivered h slot outcome held table => exact table ▸ (Inflight.shrinks_settled ..).ages
  | expired k call e action sender past find table => exact table ▸ (s.table.shrinks_remove ..).ages
  | released k call result action sender table =>
    exact table ▸ ((s.table.shrinks_remove ..).trans (Inflight.shrinks_forget ..)).ages

theorem Channel.Run.ages {l l' : Channel} (h : l.Run l') : l.state.table.Ages l'.state.table := by
  induction h with
  | nil => exact (Inflight.shrinks_refl _).ages
  | snoc _ last ih =>
    rcases last.state with heq | ⟨a, hstep⟩
    · rwa [heq]
    · exact ih.trans hstep.effect.ages

theorem Onward.ages {own : Option (ℕ × Role)} {w w' : Simulation.World} {ls ls' : ℕ → Channel}
    (h : Onward own w ls w' ls') (hfits : Fitting w ls) {c : ℕ} (hc : c < w.links.size) :
    (w.table c).Ages (w'.table c) := by
  have hages := (h.runs c hc).ages
  have hbefore : (ls c).state.table = w.table c := congrArg Connection.inflight (hfits c hc).link
  have hafter : (ls' c).state.table = w'.table c :=
    congrArg Connection.inflight (h.fitting c (Nat.lt_of_lt_of_le hc h.size)).link
  rwa [hbefore, hafter] at hages

/-- The slots of all entries exist. -/
theorem Channel.Fits.slot_lt {c : ℕ} {w : Simulation.World} {l : Channel} (h : Fits c w l)
    {e : Pending} (he : e ∈ (w.table c).entries) : e.slot < (w.table c).slots.size := by
  obtain ⟨address, greeting, syncs, left, hrun⟩ := h.begun
  have hages := hrun.ages
  have htable : l.state.table = w.table c := congrArg Connection.inflight h.link
  rw [htable] at hages
  rcases hages.entries e he with hnone | ⟨-, hlt⟩
  · cases hnone
  · exact hlt

end Interleaving

/-! ### Pools -/

namespace Stocking

variable {first u s s' : State} {n : ℕ}

/-- The connections on their way into the pool were not in it when its state was `u`. -/
def Unseen (u s : State) : Prop :=
  ∀ k live attempts, s.parties k = .replenishing (.opening live attempts) →
    ∀ n ∈ numbers attempts, n ∉ u.site.pool.members

theorem Invariant.unseen (hs : Invariant first s) : Unseen s s := by
  intro k live attempts hk n hn
  have hknown := hs.parties k
  rw [hk] at hknown
  obtain ⟨-, counted, -, -, -, -, hopening⟩ := hknown
  exact hopening.notMem hn

/-- A connection that has just been opened has a number of its own. -/
theorem Unseen.step (h : Unseen u s) (hu : u.site.Sound)
    (hle : u.site.stages.length ≤ s.site.stages.length) (last : Step s s') : Unseen u s' := by
  cases last with
  | @party k c' y step =>
    intro j live attempts hj
    by_cases hne : j = k
    · subst hne
      rw [State.move_self] at hj
      subst hj
      have hbefore := h j
      generalize s.parties j = x at step hbefore
      cases step with
      | replenishing step =>
        cases step with
        | begun granted stopping =>
          rw [numbers, List.filterMap_replicate_of_none rfl]
          rintro n ⟨⟩
        | failed front back =>
          have hsame := hbefore _ _ rfl
          rw [numbers_insert] at hsame ⊢
          exact hsame
        | opened front back =>
          have hothers := hbefore _ _ rfl
          rw [numbers_insert] at hothers ⊢
          intro n hn hmem
          rcases List.mem_cons.mp (List.perm_middle.mem_iff.mp hn) with rfl | hn
          · -- its number is the next one, and members had numbers given out before
            exact Nat.not_lt_of_le hle (hu.known _ hmem)
          · exact hothers n hn hmem
    · rw [State.move_of_ne hne] at hj
      exact h j live attempts hj
  | life | elsewhere | acquire | abandoned => exact h

theorem Run.unseen (h : Run u s) (hu : Invariant first u) : Unseen u s := by
  induction h with
  | nil => exact hu.unseen
  | snoc before last ih => exact ih.step hu.site before.lasts.length last

/-- A connection that has left the pool does not come back. -/
theorem Run.mem_members {address : Address} {config : ClientConfig} {stages : List Stage}
    (init : Run (start address config stages) u) (h : Run u s) (h' : Run s s')
    (hn : n ∈ u.site.pool.members) (hn' : n ∈ s'.site.pool.members) : n ∈ s.site.pool.members := by
  induction h' with
  | nil => exact hn'
  | @snoc v v' before last ih =>
    refine ih ?_
    have hrun := init.trans (h.trans before)
    -- the pool keeps its connections, gives all of them up or takes in those that have been opened
    rcases hrun.sound.members_cases last with hsame | ⟨-, hnone⟩ | ⟨k, u', attempts, -, hwork⟩
    · exact hsame ▸ hn'
    · rw [hnone] at hn'
      cases hn'
    · rw [hwork.members] at hn'
      rcases List.mem_append.mp hn' with hlive | hnew
      · exact v.site.live_sublist.subset hlive
      · exact absurd hn ((h.trans before).unseen init.sound _ _ _ hwork.finished.1 n hnew)

end Stocking

/-! ### Worlds -/

namespace Simulation

open Interleaving (Fitting Onward Role)

variable {p : ℕ} {call w w' : World} {own own' : Option (ℕ × Role)}
  {ls₀ ls ls' : ℕ → Interleaving.Channel}

/-- Whatever those do who use connections, and whatever those do who open connections for a pool or
close it. -/
theorem Meanwhile.of_runs {address : Address} {config : ClientConfig} {stages : List Stage}
    {s₀ s s' : Stocking.State} (clock : w.now ≤ w'.now) (hfits : Fitting call ls₀)
    (hbefore : Onward own call ls₀ w ls) (hafter : Onward own' w ls w' ls')
    (hbegun : Stocking.Run (Stocking.start address config stages) s₀) (hcall : Tracks p call s₀)
    (hrun : Stocking.Run s₀ s) (hs : Tracks p w s) (hrun' : Stocking.Run s s')
    (hs' : Tracks p w' s') : Meanwhile p call w w' := by
  have hmembers : ∀ {w s}, Tracks p w s → s.site.pool.members = w.members p :=
    fun hs => congrArg (·.pool.members) hs.site
  refine ⟨clock, fun c e ⟨hc, he⟩ ⟨hc', he'⟩ => ⟨?_, ?_⟩⟩
  · rw [← hmembers hs]
    exact hbegun.mem_members hrun hrun' (hmembers hcall ▸ hc) (hmembers hs' ▸ hc')
  · have hknown : c < call.links.size := by
      rw [← length_stages_stock (p := p), ← hcall.site]
      exact hbegun.sound.site.known c (hmembers hcall ▸ hc)
    have hages := hbefore.ages hfits hknown
    rcases (hafter.ages hbefore.fitting (hknown.trans_le hbefore.size)).entries e he' with
      hold | ⟨hnew, -⟩
    · exact hold
    · -- the slot of a request pending at the call has existed since
      have hslot := (hfits c hknown).slot_lt he
      exact absurd (hslot.trans_le hages.size) (Nat.not_lt_of_le hnew)

/-! ### Timers -/

namespace Engine

theorem world_foldl_wake (events : List Event) (e : Engine) :
    (events.foldl wake e).world = e.world := by
  induction events generalizing e with
  | nil => rfl
  | cons event rest ih => exact ih (e.wake event)

/-- Time moves no further than to the timers that are waited for. -/
theorem now_jump_le {e e' : Engine} (h : e.jump = some e') {t : Timer} (ht : t ∈ e.allTimers) :
    e'.world.now ≤ t.due := by
  obtain ⟨due, hmin, rfl⟩ := Option.map_eq_some_iff.mp h
  rw [world_foldl_wake]
  exact (List.min?_eq_some_iff.mp hmin).2 _ (List.mem_map_of_mem ht)

end Engine

end Simulation

end Switchboard
