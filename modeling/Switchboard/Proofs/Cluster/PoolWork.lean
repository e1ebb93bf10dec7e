import Switchboard.Proofs.Worlds
import Switchboard.Simulation.ClusterWork

/-!
# What work on pools leaves alone

Opening and closing the connections of pools changes the network, the connections and the pools.
The manager, what the provider publishes and their locks are as they were afterwards, and no pool
changes its server, is opened again or is handed to the background.

## Main definitions

- `Upkeep.Continues` — a pool lives on
- `Simulation.Undisturbed` — a change of the world that only those notice who work on pools
- `Simulation.IsLocal` — a step of an activity that makes no other change

## Main statements

- `Simulation.Attempt.isLocal_poll` — opening a connection is local
- `Simulation.PoolOpening.isLocal_poll` — opening the connections of a pool is local
- `Simulation.PoolClosing.isLocal_start`, `Simulation.PoolClosing.isLocal_poll` — closing a pool is
  local
-/

namespace Switchboard

namespace Upkeep

/-- A pool lives on: it stays where it is, and once closed it stays closed. -/
structure Continues (p p' : Pool) : Prop where
  address : p'.address = p.address
  closed : p.closed = true → p'.closed = true

theorem Continues.refl (p : Pool) : Continues p p :=
  ⟨rfl, id⟩

theorem Continues.trans {p p' p'' : Pool} (h : Continues p p') (h' : Continues p' p'') :
    Continues p p'' :=
  ⟨h'.address.trans h.address, fun hp => h'.closed (h.closed hp)⟩

end Upkeep

namespace Simulation

open Upkeep (Continues)

/-- A change of the world that only those notice who work on pools. -/
structure Undisturbed (w w' : World) : Prop where
  cluster : w'.cluster = w.cluster
  provider : w'.provider = w.provider
  handed : w'.handed = w.handed
  size : w'.depots.size = w.depots.size
  pool : ∀ p, Continues (w.depots.getD p default).core (w'.depots.getD p default).core

namespace Undisturbed

theorem of_eq {w w' : World} (cluster : w'.cluster = w.cluster)
    (provider : w'.provider = w.provider) (handed : w'.handed = w.handed)
    (depots : w'.depots = w.depots) : Undisturbed w w' := by
  refine ⟨cluster, provider, handed, ?_, fun p => ?_⟩
  · rw [depots]
  · rw [depots]
    exact .refl _

instance : IsPreorder World Undisturbed where
  refl _ := .of_eq rfl rfl rfl rfl
  trans _ _ _ h h' := by
    refine ⟨h'.cluster.trans h.cluster, h'.provider.trans h.provider, h'.handed.trans h.handed,
      h'.size.trans h.size, fun p => (h.pool p).trans (h'.pool p)⟩

/-- Work on pools includes what does not even concern them. -/
theorem of_untouched {w w' : World} (h : Untouched w w') : Undisturbed w w' :=
  .of_eq h.cluster h.provider h.handed h.depots

/-- One pool goes on, or its lock changes hands. -/
theorem set {w : World} {p : ℕ} {d : Depot}
    (h : Continues (w.depots.getD p default).core d.core) :
    Undisturbed w { w with depots := w.depots.setIfInBounds p d } := by
  refine ⟨rfl, rfl, rfl, Array.size_setIfInBounds .., fun q => ?_⟩
  simp only [Array.getD_eq_getD_getElem?, Array.getElem?_setIfInBounds] at h ⊢
  by_cases hpq : p = q
  · subst hpq
    by_cases hp : p < w.depots.size
    · simpa [hp] using h
    · simpa [hp] using Continues.refl _
  · rw [if_neg hpq]
    exact .refl _

end Undisturbed

/-- A step that nobody notices but those who work on pools. -/
abbrev IsLocal {α : Type} (step : Sim α) : Prop :=
  Within Undisturbed step

theorem Within.isLocal {α : Type} {step : Sim α} (h : Within Untouched step) : IsLocal step :=
  h.mono .of_untouched

/-! ### Connections -/

theorem isLocal_setConnection (c : ℕ) (core : Connection) : IsLocal (setConnection c core) :=
  .bind (.link c) fun _ => .modify fun _ => .of_eq rfl rfl rfl rfl

theorem isLocal_sweep (c : ℕ) (after : Connection) : IsLocal (sweep c after) :=
  .bind (.link c) fun _ => .bind (isLocal_setConnection ..) fun _ =>
    .bind (untouched_emit _).isLocal fun _ => .forM fun _ => (untouched_emit _).isLocal

namespace Closing

theorem isLocal_poll (c : ℕ) : IsLocal (poll c) := by
  refine .bind (.link c) fun l => ?_
  split
  · exact .pure _
  · refine .bind (isLocal_setConnection ..) fun _ => ?_
    split <;> exact .pure _

theorem isLocal_start (c : ℕ) : IsLocal (start c) := by
  refine .bind (.link c) fun l => ?_
  split
  · exact .pure _
  · exact .bind (isLocal_sweep ..) fun _ => isLocal_poll c

end Closing

namespace Attempt

theorem isLocal_start (address : Address) (config : ClientConfig) :
    IsLocal (start address config) :=
  .bind (.timerAfter _) fun _ => .pure _

/-- Opening a connection is local. -/
theorem isLocal_poll (a : Attempt) : IsLocal a.poll := by
  refine ⟨fun w => ?_⟩
  have hopens := (opens_poll a).opens w
  generalize a.poll.run w = polled at hopens
  obtain ⟨progress, w'⟩ := polled
  cases hopens with
  | waits rest | failed rest => exact .of_untouched rest
  | @opened l _ ready rest =>
    have hpush : Undisturbed w { w with links := w.links.push l } := .of_eq rfl rfl rfl rfl
    exact trans_of Undisturbed hpush (.of_untouched rest)

end Attempt

/-! ### Pools -/

/-- A pool goes on from where it is found. -/
theorem undisturbed_setPool {β : Type} {w : World} {p : ℕ} {core : Pool} {next : PUnit → Sim β}
    (h : Continues (w.depots.getD p default).core core) (h' : ∀ a, IsLocal (next a)) :
    Undisturbed w ((setPool p core >>= next).run w).2 :=
  trans_of Undisturbed (.set h) ((h' _).holds _)

/-- The lock of a pool changes hands. -/
theorem isLocal_setLock (p : ℕ) (l : Lock) : IsLocal (setLock (.pool p) l) := by
  refine .modify fun w => ⟨rfl, rfl, rfl, Array.size_modify .., fun q => ?_⟩
  simp only [Array.getD_eq_getD_getElem?, Array.getElem?_modify]
  by_cases hpq : p = q
  · rw [if_pos hpq]
    cases w.depots[q]? <;> exact .refl _
  · rw [if_neg hpq]
    exact .refl _

theorem isLocal_requestLock (p : ℕ) : IsLocal (requestLock (.pool p)) :=
  .bind untouched_newTicket.isLocal fun _ => .bind .get fun _ =>
    .bind (isLocal_setLock ..) fun _ => .pure _

theorem isLocal_withdrawLock (p ticket : ℕ) : IsLocal (withdrawLock (.pool p) ticket) := by
  refine .bind .get fun w => ?_
  dsimp only
  refine .bind (isLocal_setLock ..) fun _ => ?_
  split
  · exact (untouched_emit _).isLocal
  · exact .pure _

namespace Replenishing

variable (p ticket : ℕ)

theorem isLocal_await (attempts : List (Child Attempt (Except Fault ℕ))) :
    IsLocal (await p ticket attempts) := by
  refine .andThen (.join Attempt.isLocal_poll _) fun results => ?_
  -- what is stored is the pool that has just been read, so the steps have to be taken together
  refine ⟨fun w => ?_⟩
  dsimp only
  rw [run_depot_bind, run_get_bind]
  exact undisturbed_setPool ⟨rfl, id⟩ fun _ => .bind (isLocal_withdrawLock ..) fun _ => .pure _

theorem isLocal_launch : IsLocal (launch p ticket) := by
  refine .bind (.depot p) fun d => ?_
  dsimp only
  split
  · exact .bind (isLocal_withdrawLock ..) fun _ => .pure _
  · refine .bind .get fun w => ?_
    refine .bind (.mapM fun _ => ?_) fun attempts => isLocal_await ..
    exact .bind (Attempt.isLocal_start ..) fun _ => .pure _

theorem isLocal_poll (r : Replenishing) : IsLocal (r.poll p) := by
  cases r with
  | queued ticket =>
    refine .bind (.holdsLock ..) fun held => ?_
    split
    · exact isLocal_launch ..
    · exact .pure _
  | opening ticket attempts => exact isLocal_await ..

theorem isLocal_start : IsLocal (start p) :=
  .bind (isLocal_requestLock p) fun _ => isLocal_poll ..

end Replenishing

namespace PoolOpening

theorem isLocal_finish (p : ℕ) {work : Replenishing.Step} (h : IsLocal work) :
    IsLocal (finish p work) :=
  .andThen h fun _ => .bind (untouched_spawn (s := .maintenance p) nofun).isLocal fun _ => .pure _

/-- Opening the connections of a pool is local. -/
theorem isLocal_poll (o : PoolOpening) : IsLocal o.poll :=
  isLocal_finish o.pool (Replenishing.isLocal_poll ..)

end PoolOpening

namespace PoolClosing

variable (p : ℕ)

theorem isLocal_await (ticket : ℕ) (connections : List ℕ)
    (work : List (Child ℕ (Except Fault Unit))) : IsLocal (await p ticket connections work) :=
  .andThen (.join Closing.isLocal_poll _) fun _ => .bind (isLocal_withdrawLock ..) fun _ => .pure _

theorem isLocal_closeEach (connections : List ℕ) : IsLocal (closeEach connections) := by
  induction connections with
  | nil => exact .pure _
  | cons c rest ih =>
    refine .bind (Closing.isLocal_start c) fun progress => ?_
    cases progress <;> exact .bind (.pure _) fun _ => .bind ih fun _ => .pure _

theorem isLocal_poll (work : PoolClosing) : IsLocal (work.poll p) := by
  cases work with
  | queued ticket =>
    refine .bind (.holdsLock ..) fun held => ?_
    split
    · refine ⟨fun w => ?_⟩
      rw [run_depot_bind]
      exact undisturbed_setPool ⟨rfl, id⟩ fun _ =>
        .bind (isLocal_closeEach _) fun _ => isLocal_await ..
    · exact .pure _
  | closing => exact isLocal_await ..

/-- Closing a pool is local. -/
theorem isLocal_start : IsLocal (start p) := by
  refine ⟨fun w => ?_⟩
  rw [start, run_depot_bind]
  split
  · exact refl_of Undisturbed w
  · next core hbegin =>
    obtain ⟨-, rfl⟩ := Pool.beginClose?_eq_some_iff.mp hbegin
    exact undisturbed_setPool ⟨rfl, fun _ => rfl⟩ fun _ =>
      .bind (untouched_emit _).isLocal fun _ =>
        .bind (isLocal_requestLock p) fun _ => isLocal_poll p _

end PoolClosing

end Simulation

end Switchboard
