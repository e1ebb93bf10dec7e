import Switchboard.Simulation.PoolWork

/-!
# Work on the cluster

Applying topologies, following a provider, closing everything, and asking for the list of servers.
Topologies are applied one at a time, and so are polls.

## Main definitions

- `Reconciling` — a topology is applied
- `ClusterClosing` — all pools are closed
- `Reconciler` — topologies are applied as they are published
- `Polling`, `Poller` — the list of servers is asked for, once or again and again
-/

namespace Switchboard.Simulation

/-- The manager, if there is a cluster. -/
def World.manager? (w : World) : Option Manager := w.cluster.map fun c => c.core

/-- The manager. -/
def manager : Sim Manager := return (← get).manager?.getD default

/-- Changes the manager. -/
def setManager (core : Manager) : Sim Unit :=
  modify fun w => { w with cluster := w.cluster.map fun c => { c with core } }

/-- The topology published last. -/
def World.topology (w : World) : Watch Topology :=
  (w.provider.map (·.topology)).getD (.start .empty)

/-- Publishes a topology. -/
def publish (t : Watch Topology) : Sim Unit := do
  modify fun w => { w with provider := w.provider.map fun p => { p with topology := t } }
  emit .published

/-! ### Applying a topology -/

/-- How far applying a topology has come. -/
inductive Reconciling where
  /-- it waits for the lock -/
  | queued (t : Topology) (forced : Bool) (ticket : Nat)
  /-- the pools added are being opened -/
  | opening (t : Topology) (ticket : Nat) (added removed : List Address)
      (work : List (Child PoolOpening (Except Fault Nat)))

namespace Reconciling

/-- What applying a topology comes to. -/
abbrev Step := Sim (Progress Reconciling Reconciliation)

/-- Waits for the pools added, then puts them in place of those removed, which are drained. -/
def await (t : Topology) (ticket : Nat) (added removed : List Address)
    (work : List (Child PoolOpening (Except Fault Nat))) : Step :=
  Progress.andThen (Child.join PoolOpening.poll work) (.opening t ticket added removed)
    fun results => do
      let m ← manager
      let opened := (added.zip results).filterMap fun (a, r) => r.toOption.map (a, ·)
      setManager (m.install t.epoch removed opened)
      (m.leaving removed).forM fun p => spawn (.draining p m.config.requestTimeout)
      withdrawLock .manager ticket
      return .done ⟨t.epoch, added, removed, false⟩

/-- Begins to open a pool for each of the addresses. -/
def openEach (config : ClientConfig) :
    List Address → Sim (List (Child PoolOpening (Except Fault Nat)))
  | [] => return []
  | a :: rest => do
    let child : Child PoolOpening (Except Fault Nat) ← do
      match ← PoolOpening.start a config with
      | .done result => pure (.ended result)
      | .wait o _ => pure (.running o)
    return child :: (← openEach config rest)

/-- Decides what to do with a topology, and begins with it. -/
def launch (t : Topology) (forced : Bool) (ticket : Nat) : Step := do
  let m ← manager
  match m.decide t forced with
  | .ignore =>
    withdrawLock .manager ticket
    return .done ⟨t.epoch, [], [], false⟩
  | .stale =>
    withdrawLock .manager ticket
    return .done ⟨t.epoch, [], [], true⟩
  | .apply added removed => await t ticket added removed (← openEach m.config added)

/-- Applying the topology goes on. -/
def poll : Reconciling → Step
  | .queued t forced ticket => do
    if ← holdsLock .manager ticket then launch t forced ticket
    else return .wait (.queued t forced ticket) [.granted .manager ticket]
  | .opening t ticket added removed work => await t ticket added removed work

/-- Begins to apply a topology. -/
def start (t : Topology) (forced : Bool) : Step := do
  poll (.queued t forced (← requestLock .manager))

/-- Applying the topology is given up. -/
def cancel : Reconciling → Sim Unit
  | .queued _ _ ticket => withdrawLock .manager ticket
  | .opening _ ticket _ _ work => do
    (work.filterMap Child.running?).forM PoolOpening.cancel
    withdrawLock .manager ticket

/-- The pools that are being opened, or have been and are not in place yet. -/
def pools : Reconciling → List Nat
  | .queued .. => []
  | .opening _ _ _ _ work => work.filterMap fun child =>
    match child with
    | .running o => some o.pool
    | .ended result => result.toOption

/-- The connections that have been opened and that no pool has taken in yet. -/
def connections : Reconciling → List Nat
  | .queued .. => []
  | .opening _ _ _ _ work => (work.filterMap Child.running?).flatMap fun o => o.work.connections

end Reconciling

/-! ### Closing the cluster -/

/-- How far closing the cluster has come. -/
inductive ClusterClosing where
  /-- it waits for the lock -/
  | queued (ticket : Nat)
  /-- the pools are being closed -/
  | closing (ticket : Nat) (pools : List Nat)
      (work : List (Child (Nat × PoolClosing) (Except Fault Unit)))

namespace ClusterClosing

/-- What closing the cluster comes to. -/
abbrev Step := Sim (Progress ClusterClosing (Except Fault Unit))

/-- The closing of one of the pools goes on. -/
def pollPool (work : Nat × PoolClosing) : Sim (Progress (Nat × PoolClosing) (Except Fault Unit)) :=
  Progress.andThen (work.2.poll work.1) (work.1, ·) fun result => return .done result

/-- Begins to close each of the pools. -/
def closeEach : List Nat → Sim (List (Child (Nat × PoolClosing) (Except Fault Unit)))
  | [] => return []
  | p :: rest => do
    let child : Child (Nat × PoolClosing) (Except Fault Unit) ← do
      match ← PoolClosing.start p with
      | .done result => pure (.ended result)
      | .wait work _ => pure (.running (p, work))
    return child :: (← closeEach rest)

/-- Waits until all pools have been closed. -/
def await (ticket : Nat) (pools : List Nat)
    (work : List (Child (Nat × PoolClosing) (Except Fault Unit))) : Step :=
  Progress.andThen (Child.join pollPool work) (.closing ticket pools) fun results => do
    withdrawLock .manager ticket
    let faults := results.filterMap fun r =>
      match r with
      | .error fault => some fault
      | .ok () => none
    return .done (Manager.closeResult faults)

/-- The closing goes on. -/
def poll : ClusterClosing → Step
  | .queued ticket => do
    if ← holdsLock .manager ticket then
      let (pools, m) := (← manager).takeAll
      setManager m
      await ticket pools (← closeEach pools)
    else return .wait (.queued ticket) [.granted .manager ticket]
  | .closing ticket pools work => await ticket pools work

/-- Tells the manager to follow the provider no longer. -/
def stopFollowing : Sim Unit := do
  modify fun w => { w with cluster := w.cluster.map fun c => { c with stopping := true } }
  emit .managerStopped

/-- Closes the cluster unless somebody has begun to. -/
def start : Step := do
  match (← manager).beginClose? with
  | none => return .done (.ok ())
  | some m =>
    setManager m
    stopFollowing
    poll (.queued (← requestLock .manager))

/-- The closing is given up. -/
def cancel : ClusterClosing → Sim Unit
  | .queued ticket => withdrawLock .manager ticket
  | .closing ticket _ work => do
    (work.filterMap Child.running?).forM fun (p, c) => c.cancel p
    withdrawLock .manager ticket

/-- The pools that have been taken out of the manager. -/
def pools : ClusterClosing → List Nat
  | .queued _ => []
  | .closing _ pools _ => pools

/-- The connections that have been taken out of their pools. -/
def connections : ClusterClosing → List Nat
  | .queued _ => []
  | .closing _ _ work => (work.filterMap Child.running?).flatMap fun (_, c) => c.connections

end ClusterClosing

/-! ### Following the provider -/

/-- What the follower of a provider does: it waits for a topology newer than the version seen, or it
applies one. -/
structure Reconciler where
  seen : Nat
  work : Option Reconciling

namespace Reconciler

/-- What following comes to. -/
abbrev Step := Sim (Progress Reconciler Unit)

/-- Waits for new topologies, of which at most `fuel` are there, and applies each. -/
def wait : Nat → Nat → Step
  | 0, seen => return .wait ⟨seen, none⟩ [.managerStopped, .published]
  | fuel + 1, seen => do
    let w ← get
    if (w.cluster.map (·.stopping)).getD true then return .done ()
    else if w.topology.isUnseen seen then
      let seen := w.topology.version
      Progress.andThen (Reconciling.start w.topology.value false) (fun r => ⟨seen, some r⟩)
        fun _ => wait fuel seen
    else return .wait ⟨seen, none⟩ [.managerStopped, .published]

/-- Following goes on.  Nothing is published in between, so one topology at most is new, and another
one if the one before has taken its time. -/
def poll (r : Reconciler) : Step :=
  match r.work with
  | none => wait 2 r.seen
  | some work =>
    Progress.andThen work.poll (fun work => { r with work := some work }) fun _ => wait 2 r.seen

/-- Following is given up. -/
def cancel (r : Reconciler) : Sim Unit :=
  match r.work with
  | some work => work.cancel
  | none => return

end Reconciler

/-! ### Asking for the list of servers -/

/-- The server is asked: its answer is chosen at once, and takes its time. -/
def ask (c : DiscoveryConfig) : Sim (Outcome × Timer) := do
  let w ← get
  set { w with
    entry := { w.entry with calls := w.entry.calls + 1, last := some (.call c.function []) } }
  return (w.entry.reply.outcome, ← timerAfter w.entry.reply.after)

/-- How far a poll has come. -/
inductive Polling where
  /-- it waits for the lock -/
  | queued (ticket : Nat)
  /-- the answer is on its way -/
  | calling (ticket : Nat) (answer : Outcome) (delay : Timer)

namespace Polling

/-- What a poll comes to: whether a topology was published. -/
abbrev Step := Sim (Progress Polling (Except Fault Bool))

variable (c : DiscoveryConfig)

/-- Waits for the answer. -/
def await (ticket : Nat) (answer : Outcome) (delay : Timer) : Step := do
  match ← delay.check with
  | some delay => return .wait (.calling ticket answer delay) [.timer delay]
  | none =>
    let before := (← get).topology
    let (result, after) := Discovery.poll c before answer
    if after.isUnseen before.version then publish after
    withdrawLock .provider ticket
    return .done result

/-- The poll goes on. -/
def poll : Polling → Step
  | .queued ticket => do
    if ← holdsLock .provider ticket then
      let (answer, delay) ← ask c
      await c ticket answer delay
    else return .wait (.queued ticket) [.granted .provider ticket]
  | .calling ticket answer delay => await c ticket answer delay

/-- A poll begins. -/
def start : Step := do
  poll c (.queued (← requestLock .provider))

/-- The poll is given up. -/
def cancel : Polling → Sim Unit
  | .queued ticket | .calling ticket .. => withdrawLock .provider ticket

end Polling

/-- What the poller of a provider does. -/
inductive Poller where
  | starting
  /-- it waits for the next tick -/
  | waiting (t : Timer)
  /-- it polls; the next tick is due at `due` -/
  | polling (due : Nat) (work : Polling)

namespace Poller

/-- What polling again and again comes to. -/
abbrev Step := Sim (Progress Poller Unit)

variable (c : DiscoveryConfig)

/-- Waits for ticks, of which at most `fuel` are due, and polls at each. -/
def wait : Nat → Timer → Step
  | 0, t => return .wait (.waiting t) [.pollingStopped, .timer t]
  | fuel + 1, t => do
    if ((← get).provider.map (·.stopping)).getD true then return .done ()
    else
      match ← t.check with
      | some t => return .wait (.waiting t) [.pollingStopped, .timer t]
      | none => do
        let due := nextTick t.due (← now) c.delay.millisUp
        Progress.andThen (Polling.start c) (.polling due) fun _ => wait fuel ⟨due, none⟩

/-- Polling goes on. -/
def poll : Poller → Step
  | .starting => do wait c mostTicks (← timerAfter c.delay.millisUp)
  | .waiting t => wait c mostTicks t
  | .polling due work =>
    Progress.andThen (work.poll c) (.polling due) fun _ => wait c mostTicks ⟨due, none⟩

/-- Polling is given up. -/
def cancel : Poller → Sim Unit
  | .polling _ work => work.cancel
  | _ => return

end Poller

/-- Tells the provider to poll no longer. -/
def stopPolling : Sim Unit := do
  modify fun w => { w with provider := w.provider.map fun p => { p with stopping := true } }
  emit .pollingStopped

end Switchboard.Simulation
