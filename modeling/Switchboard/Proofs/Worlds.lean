import Mathlib.Data.Nat.Notation
import Mathlib.Order.Defs.Unbundled
import Switchboard.Simulation.Attempt
import Switchboard.Simulation.Sending

/-!
# What steps of activities leave alone

Most of what an activity does concerns the network, the clock and the scheduler.  Whoever reasons
about connections, pools or the manager wants to pass over it; and of the many steps that open a
connection only the last one counts.

## Main definitions

- `Simulation.Within` — a step changes the world at most as a relation says
- `Simulation.Progress.child` — an activity that another one waits for, once it has gone on
- `Simulation.Untouched` — connections, pools, manager and provider are as they were
- `Simulation.Opens` — what an attempt to open a connection may come to

## Main statements

- `Simulation.Within.bind` — steps one after the other
- `Simulation.Attempt.opens_poll` — an attempt opens a connection or nothing has changed
-/

namespace Switchboard.Simulation

/-- A step of an activity changes the world at most as the relation says. -/
structure Within (R : World → World → Prop) {α : Type} (step : Sim α) : Prop where
  holds : ∀ w, R w (step.run w).2

namespace Within

variable {R : World → World → Prop} {α β σ τ : Type}

theorem modify {f : World → World} (h : ∀ w, R w (f w)) : Within R (modify f) :=
  ⟨h⟩

theorem mono {R' : World → World → Prop} {step : Sim α} (h : Within R step)
    (hR : ∀ {w w'}, R w w' → R' w w') : Within R' step :=
  ⟨fun w => hR (h.holds w)⟩

variable [IsPreorder World R]

theorem pure (a : α) : Within R (pure a) :=
  ⟨refl_of R⟩

theorem get : Within R get :=
  ⟨refl_of R⟩

theorem bind {step : Sim α} {next : α → Sim β} (h : Within R step)
    (h' : ∀ a, Within R (next a)) : Within R (step >>= next) :=
  ⟨fun w => trans_of R (h.holds w) ((h' _).holds _)⟩

theorem forM {l : List α} {step : α → Sim PUnit} (h : ∀ a, Within R (step a)) :
    Within R (l.forM step) := by
  induction l with
  | nil => exact .pure _
  | cons a rest ih => exact .bind (h a) fun _ => ih

theorem mapM {l : List α} {step : α → Sim β} (h : ∀ a, Within R (step a)) :
    Within R (l.mapM step) := by
  induction l with
  | nil => exact .pure _
  | cons a rest ih =>
    rw [List.mapM_cons]
    exact .bind (h a) fun _ => .bind ih fun _ => .pure _

theorem andThen {step : Sim (Progress σ α)} {waiting : σ → τ} {next : α → Sim (Progress τ β)}
    (h : Within R step) (h' : ∀ a, Within R (next a)) :
    Within R (Progress.andThen step waiting next) := by
  refine .bind h fun progress => ?_
  cases progress with
  | done a => exact h' a
  | wait s events => exact .pure _

theorem pollAll {poll : σ → Sim (Progress σ α)} (h : ∀ s, Within R (poll s))
    (children : List (Child σ α)) : Within R (Child.pollAll poll children) := by
  induction children with
  | nil => exact .pure _
  | cons child rest ih =>
    cases child with
    | ended a => exact .bind ih fun _ => .pure _
    | running s =>
      refine .bind (h s) fun progress => ?_
      cases progress with
      | done a => exact .bind ih fun _ => .pure _
      | wait s events => exact .bind ih fun _ => .pure _

theorem join {poll : σ → Sim (Progress σ α)} (h : ∀ s, Within R (poll s))
    (children : List (Child σ α)) : Within R (Child.join poll children) := by
  refine .bind (pollAll h children) fun ⟨children, events⟩ => ?_
  dsimp only
  split <;> exact .pure _

/-! ### Looking at the world -/

theorem now : Within R now :=
  .bind .get fun _ => .pure _

theorem timerAfter (millis : ℕ) : Within R (timerAfter millis) :=
  .bind .now fun _ => .pure _

theorem link (c : ℕ) : Within R (link c) :=
  .bind .get fun _ => .pure _

theorem depot (p : ℕ) : Within R (depot p) :=
  .bind .get fun _ => .pure _

theorem holdsLock (name : LockName) (ticket : ℕ) : Within R (holdsLock name ticket) :=
  .bind .get fun _ => .pure _

end Within

/-! ### Children -/

/-- What becomes of a child that has had the chance to go on. -/
def Progress.child {σ α : Type} : Progress σ α → Child σ α
  | .done a => .ended a
  | .wait s _ => .running s

/-- If there are results, all children have ended. -/
theorem Child.eq_of_results? {σ α : Type} {children : List (Child σ α)} {results : List α}
    (h : Child.results? children = some results) : children = results.map .ended := by
  induction children generalizing results with
  | nil =>
    cases h
    rfl
  | cons child rest ih =>
    cases child with
    | running s => cases h
    | ended a =>
      obtain ⟨results, hrest, rfl⟩ := Option.map_eq_some_iff.mp h
      rw [ih hrest]
      rfl

/-- If there are results, no child is running. -/
theorem Child.running_of_results? {σ α : Type} {children : List (Child σ α)} {results : List α}
    (h : Child.results? children = some results) : children.filterMap Child.running? = [] := by
  rw [Child.eq_of_results? h, List.filterMap_map]
  exact List.filterMap_eq_nil_iff.mpr fun _ _ => rfl

/-! ### The network, the clock and the scheduler -/

/-- The pools handed to the background since the scheduler has last looked, in order. -/
def World.handed (w : World) : List ℕ :=
  w.signals.reverse.filterMap fun s =>
    match s with
    | .spawn (.draining p _) => some p
    | _ => none

/-- Connections, pools, manager and provider are as they were, and no ticket comes back. -/
structure Untouched (w w' : World) : Prop where
  links : w'.links = w.links
  depots : w'.depots = w.depots
  cluster : w'.cluster = w.cluster
  provider : w'.provider = w.provider
  handed : w'.handed = w.handed
  stamp : w.stamp ≤ w'.stamp

instance : IsPreorder World Untouched where
  refl _ := ⟨rfl, rfl, rfl, rfl, rfl, Nat.le_refl _⟩
  trans _ _ _ h h' := by
    refine ⟨h'.links.trans h.links, h'.depots.trans h.depots, h'.cluster.trans h.cluster,
      h'.provider.trans h.provider, h'.handed.trans h.handed, Nat.le_trans h.stamp h'.stamp⟩

theorem untouched_emit (e : Event) : Within Untouched (emit e) := by
  refine .modify fun w => ⟨rfl, rfl, rfl, rfl, ?_, Nat.le_refl _⟩
  simp [World.handed]

theorem untouched_spawn {s : Spawn} (h : ∀ p limit, s ≠ .draining p limit) :
    Within Untouched (spawn s) := by
  refine .modify fun w => ⟨rfl, rfl, rfl, rfl, ?_, Nat.le_refl _⟩
  cases s with
  | draining p limit => exact absurd rfl (h p limit)
  | _ => simp [World.handed]

/-- A reader and a writer begin. -/
theorem untouched_spawn_pumps (c : ℕ) (buffer : Octets) :
    Within Untouched (spawn (.reader c buffer) >>= fun _ => spawn (.writer c)) :=
  .bind (untouched_spawn nofun) fun _ => untouched_spawn nofun

theorem untouched_newTicket : Within Untouched newTicket :=
  ⟨fun _ => ⟨rfl, rfl, rfl, rfl, rfl, Nat.le_succ _⟩⟩

theorem untouched_check (t : Timer) : Within Untouched t.check := by
  refine .bind .now fun now => ?_
  split
  · exact .pure _
  · split
    · exact .pure _
    · exact .bind untouched_newTicket fun _ => .pure _

/-- Only the network changes. -/
theorem Untouched.network (w : World) (n : Network) : Untouched w { w with network := n } :=
  ⟨rfl, rfl, rfl, rfl, rfl, Nat.le_refl _⟩

theorem untouched_setPipe (serial : ℕ) (p : Pipe) : Within Untouched (setPipe serial p) :=
  .modify fun _ => .network ..

theorem untouched_withPipe {α : Type} (serial : ℕ) (act : Pipe → α × Pipe) :
    Within Untouched (withPipe serial act) :=
  .bind .get fun _ => .bind (untouched_setPipe ..) fun _ => .pure _

theorem untouched_letGo (serial : ℕ) : Within Untouched (letGo serial) :=
  untouched_withPipe ..

theorem untouched_deliver (serial : ℕ) (bytes : Octets) :
    Within Untouched (deliver serial bytes) := by
  refine .bind .get fun w => ?_
  dsimp only
  split
  · split
    · exact .pure _
    · exact .bind (.modify fun _ => .network ..) fun _ =>
        .bind (untouched_withPipe ..) fun _ => untouched_emit _
  · exact .pure _

theorem untouched_writePipe (serial : ℕ) (bytes : Octets) :
    Within Untouched (writePipe serial bytes) := by
  refine .bind (untouched_withPipe ..) fun result => ?_
  dsimp only
  split
  · exact .bind (untouched_deliver ..) fun _ => .pure _
  · exact .pure _

/-! ### Connections -/

theorem untouched_emitRoom (c : ℕ) : Within Untouched (emitRoom c) :=
  .bind (.link c) fun _ => .forM fun _ => untouched_emit _

/-- Those who end a connection tell everybody afterwards. -/
theorem untouched_sweep (c : ℕ) (after : Connection) (w : World) :
    Untouched ((setConnection c after).run w).2 ((sweep c after).run w).2 := by
  have htold : Within Untouched (emit (.stopped c) >>= fun _ =>
      (w.links.getD c default).core.inflight.entries.forM fun e => emit (.settled c e.slot)) :=
    .bind (untouched_emit _) fun _ => .forM fun _ => untouched_emit _
  rw [sweep, run_link_bind, run_bind]
  exact htold.holds _

/-! ### Attempts to open a connection -/

/-- What a step of an attempt to open a connection comes to: once it has opened one, that is in
service. -/
inductive Opens {σ : Type} (w : World) : Progress σ (Except Fault ℕ) → World → Prop
  | waits {s events w'} (rest : Untouched w w') : Opens w (.wait s events) w'
  | failed {fault w'} (rest : Untouched w w') : Opens w (.done (.error fault)) w'
  | opened {l : Link} {w'} (ready : l.core.stage = .ready)
    (rest : Untouched { w with links := w.links.push l } w') :
    Opens w (.done (.ok w.links.size)) w'

/-- A step of an attempt to open a connection. -/
structure IsOpening {σ : Type} (step : Sim (Progress σ (Except Fault ℕ))) : Prop where
  opens : ∀ w, Opens w (step.run w).1 (step.run w).2

/-- What comes before the connection is opened does not count. -/
theorem Opens.head {σ : Type} {w w' w'' : World} {progress : Progress σ (Except Fault ℕ)}
    (h : Untouched w w') (h' : Opens w' progress w'') : Opens w progress w'' := by
  cases h' with
  | waits rest => exact .waits (trans_of Untouched h rest)
  | failed rest => exact .failed (trans_of Untouched h rest)
  | @opened l _ ready rest =>
    have hpush : Untouched { w with links := w.links.push l }
        { w' with links := w'.links.push l } := by
      refine ⟨?_, h.depots, h.cluster, h.provider, h.handed, h.stamp⟩
      show w'.links.push l = w.links.push l
      rw [h.links]
    rw [h.links]
    exact .opened ready (trans_of Untouched hpush rest)

namespace IsOpening

variable {α σ : Type}

theorem wait (s : σ) (events : List Event) :
    IsOpening (pure (.wait s events)) :=
  ⟨fun w => .waits (refl_of Untouched w)⟩

theorem error (fault : Fault) : IsOpening (σ := σ) (pure (.done (.error fault))) :=
  ⟨fun w => .failed (refl_of Untouched w)⟩

theorem bind {step : Sim α} {next : α → Sim (Progress σ (Except Fault ℕ))}
    (h : Within Untouched step) (h' : ∀ a, IsOpening (next a)) : IsOpening (step >>= next) :=
  ⟨fun w => .head (h.holds w) ((h' _).opens _)⟩

end IsOpening

namespace Attempt

variable (address : Address) (config : ClientConfig) (serial : ℕ)

theorem opens_abandon (fault : Fault) : IsOpening (abandon serial fault) :=
  .bind (untouched_letGo _) fun _ => .error fault

theorem opens_enter (greeting : Wire.Greeting) (syncs : SyncIds) (buffer : Octets) :
    IsOpening (enter address serial greeting syncs buffer) := by
  refine ⟨fun w => ?_⟩
  have hspawned := untouched_spawn_pumps w.links.size buffer
  have hheld := (untouched_withPipe serial fun p => ((), { p with holders := 2 })).holds w
  rw [enter, run_get_bind]
  dsimp only
  rw [run_bind, run_bind]
  exact .head hheld (.opened rfl (hspawned.holds _))

theorem opens_reply (greeting : Wire.Greeting) (buffer : Octets) (limit : Timer) :
    IsOpening (reply address config serial greeting buffer limit) := by
  refine .bind (untouched_withPipe ..) fun arrived => ?_
  dsimp only
  split
  · exact opens_abandon ..
  · split
    · exact opens_abandon ..
    · exact opens_enter ..
  · refine .bind .get fun w => ?_
    split
    · exact opens_abandon ..
    · exact opens_abandon ..
    · refine .bind (untouched_check limit) fun limit => ?_
      split
      · exact opens_abandon ..
      · exact .wait ..

theorem opens_request (greeting : Wire.Greeting) (rest : Octets) :
    IsOpening (request address config serial greeting rest) := by
  refine .bind (untouched_writePipe ..) fun result => ?_
  split
  · exact .bind (.timerAfter _) fun _ => opens_reply ..
  · exact .wait ..
  · exact opens_abandon ..
  · exact opens_abandon ..

theorem opens_greeted (greeting : Wire.Greeting) :
    IsOpening (greeted address config serial greeting) := by
  unfold greeted
  split
  · exact opens_enter ..
  · split
    · exact opens_abandon ..
    · exact opens_request ..

theorem opens_greet (read : Octets) (limit : Timer) :
    IsOpening (greet address config serial read limit) := by
  refine .bind (untouched_withPipe ..) fun read => ?_
  split
  · split
    · exact opens_abandon ..
    · exact opens_greeted ..
  · refine .bind .get fun w => ?_
    split
    · exact opens_abandon ..
    · exact opens_abandon ..
    · refine .bind (untouched_check limit) fun limit => ?_
      split
      · exact opens_abandon ..
      · exact .wait ..

theorem opens_await (ending : DialEnd) (delay : Timer) :
    IsOpening (await address config serial ending delay) := by
  refine .bind (untouched_check delay) fun delay => ?_
  split
  · exact .wait ..
  · split
    · exact .wait ..
    · exact .error _
    · exact .bind (untouched_setPipe ..) fun _ => .bind (.timerAfter _) fun _ => opens_greet ..

theorem opens_advance (phase : Phase) : IsOpening (advance address config phase) := by
  cases phase with
  | starting =>
    refine .bind ⟨fun w => .network w _⟩ fun dialed => ?_
    exact .bind (.timerAfter _) fun _ => opens_await ..
  | dialing => exact opens_await ..
  | hanging => exact .wait ..
  | greeting => exact opens_greet ..
  | requesting => exact opens_request ..
  | replying => exact opens_reply ..

theorem untouched_cancel (phase : Phase) : Within Untouched phase.cancel := by
  unfold Phase.cancel
  split
  · exact untouched_letGo _
  · exact .pure _

/-- An attempt opens a connection or nothing has changed. -/
theorem opens_poll (a : Attempt) : IsOpening a.poll := by
  refine ⟨fun w => ?_⟩
  have hadvanced := (opens_advance a.address a.config a.phase).opens w
  rw [poll, run_bind]
  generalize (advance a.address a.config a.phase).run w = advanced at hadvanced
  obtain ⟨progress, w'⟩ := advanced
  cases hadvanced with
  | failed rest => exact .failed rest
  | opened ready rest => exact .opened ready rest
  | @waits phase events _ rest =>
    refine .head rest (IsOpening.opens (.bind (untouched_check a.limit) fun limit => ?_) w')
    split
    · exact .wait ..
    · exact .bind (untouched_cancel phase) fun _ => .error _

end Attempt

end Switchboard.Simulation
