import Switchboard.Simulation.Operation

/-!
# The engine

Runs the activities of a scenario on one thread.  Activities that can go on stand in a queue.  One
operation may run in the foreground: it goes on before the queue when time has moved, and otherwise
when the queue is empty.  When nothing can go on, time moves to the earliest timer.

What nobody holds on to any more is let go of: a connection stops, a pool is maintained no longer, a
cluster is followed no longer.

## Main definitions

- `Task`, `Cell` — an activity and what it waits for
- `Engine` — the world and its activities
- `Engine.perform` — runs an operation in the foreground
- `Engine.submit`, `Engine.abort` — starts an operation in the background, or gives it up
- `Engine.settle` — runs all activities until they wait
-/

namespace Switchboard.Simulation

/-- What somebody holds on to. -/
inductive Handle where
  | connection (c : Nat)
  | pool (p : Nat)
  | cluster
  | provider
  deriving Repr, DecidableEq

/-- An operation in the background, from before it begins. -/
inductive JobState where
  | fresh (op : Operation)
  | begun (w : Work)

/-- An activity. -/
inductive Task where
  | reader (connection : Nat) (buffer : Octets)
  | writer (connection : Nat) (rest : Octets)
  | maintenance (pool : Nat) (m : Maintenance)
  | draining (pool : Nat) (limit : Duration) (d : Option Draining)
  | reconciler (r : Reconciler)
  | poller (config : DiscoveryConfig) (p : Poller)
  | job (number : Nat) (holds : Handle) (state : JobState)

/-- An activity with the number it is known by, what it waits for, and whether it stands in the
queue. -/
structure Cell where
  id : Nat
  task : Task
  waits : List Event := []
  queued : Bool := true

/-- How a job ended. -/
inductive JobEnd where
  | answered (a : Answer)
  | aborted

/-- The operation in the foreground, what it waits for, and whether it can go on. -/
structure Foreground where
  work : Work
  waits : List Event
  ready : Bool

/-- The world and its activities. -/
structure Engine where
  world : World := {}
  /-- the activities, oldest first -/
  cells : List Cell := []
  /-- the activities that can go on, in order -/
  queue : List Nat := []
  nextId : Nat := 0
  foreground : Option Foreground := none
  /-- what the user of the scenario holds on to -/
  holds : List Handle := []
  /-- the jobs that have ended and not been reported, latest first -/
  finished : List (Nat × JobEnd) := []

/-! ### Activities -/

namespace Task

/-- The activity that a spawn stands for. -/
def ofSpawn : Spawn → Task
  | .reader c buffer => .reader c buffer
  | .writer c => .writer c []
  | .maintenance p => .maintenance p .starting
  | .draining p limit => .draining p limit none
  | .reconciler seen => .reconciler ⟨seen, none⟩
  | .poller config => .poller config .starting

/-- An activity goes on; a job ends with an answer. -/
def poll : Task → Sim (Progress Task (Option (Nat × Answer)))
  | .reader c buffer =>
    Progress.andThen (Reader.poll c buffer) (.reader c) fun _ => return .done none
  | .writer c rest =>
    Progress.andThen (Writer.poll c rest) (.writer c) fun _ => return .done none
  | .maintenance p m =>
    Progress.andThen (m.poll p) (.maintenance p) fun _ => return .done none
  | .draining p limit d =>
    let step := match d with
      | none => Draining.start p limit
      | some d => d.poll p
    Progress.andThen step (fun d => .draining p limit (some d)) fun _ => return .done none
  | .reconciler r => Progress.andThen r.poll .reconciler fun _ => return .done none
  | .poller c p => Progress.andThen (p.poll c) (.poller c) fun _ => return .done none
  | .job n holds state =>
    let step := match state with
      | .fresh op => op.start
      | .begun w => w.poll
    Progress.andThen step (fun w => .job n holds (.begun w)) fun a => return .done (some (n, a))

/-- An activity is given up. -/
def cancel : Task → Sim Unit
  | .maintenance p m => m.cancel p
  | .draining p _ (some d) => d.cancel p
  | .reconciler r => r.cancel
  | .poller _ p => p.cancel
  | .job _ _ (.begun w) => w.cancel
  | _ => return

/-- What an activity holds on to by name. -/
def handles : Task → List Handle
  | .draining p _ _ => [.pool p]
  | .job _ holds _ => [holds]
  | _ => []

/-- The pools that an activity holds on to besides. -/
def pools : Task → List Nat
  | .job _ _ (.begun w) => w.pools
  | .reconciler ⟨_, some r⟩ => r.pools
  | _ => []

/-- The connections that an activity holds on to besides. -/
def connections : Task → List Nat
  | .job _ _ (.begun w) => w.connections
  | .reconciler ⟨_, some r⟩ => r.connections
  | .draining _ _ (some d) => d.connections
  | .maintenance _ (.working _ r) => r.connections
  | _ => []

end Task

namespace Engine

/-! ### Signals -/

/-- Puts the activities that wait for the event into the queue. -/
def wake (e : Engine) (event : Event) : Engine :=
  let woken := (e.cells.filter fun c => !c.queued && c.waits.contains event).map (·.id)
  { e with
    cells :=
      if woken.isEmpty then e.cells
      else e.cells.map fun c => if c.waits.contains event then { c with queued := true } else c
    queue := e.queue ++ woken
    foreground := e.foreground.map fun f =>
      if f.waits.contains event then { f with ready := true } else f }

/-- Puts a new activity at the end of the queue. -/
def add (e : Engine) (t : Task) : Engine :=
  { e with
    cells := e.cells ++ [{ id := e.nextId, task := t }]
    queue := e.queue ++ [e.nextId]
    nextId := e.nextId + 1 }

/-- Does what the signals ask for, in order. -/
def obey (e : Engine) : List Signal → Engine
  | [] => e
  | .event event :: rest => (e.wake event).obey rest
  | .spawn s :: rest => (e.add (.ofSpawn s)).obey rest

/-- Takes over the world after a step, and does what the signals of the step ask for. -/
def absorb (e : Engine) (w : World) : Engine :=
  { e with world := { w with signals := [] } }.obey w.signals.reverse

/-- Takes a step on the world. -/
def act {α : Type} (e : Engine) (step : Sim α) : α × Engine :=
  let (result, w) := step.run e.world
  (result, e.absorb w)

/-- Changes the activity with a number. -/
def amend (e : Engine) (id : Nat) (change : Cell → Cell) : Engine :=
  { e with cells := e.cells.map fun c => if c.id = id then change c else c }

/-- Removes the activity with a number. -/
def remove (e : Engine) (id : Nat) : Engine :=
  { e with cells := e.cells.filter fun c => c.id ≠ id }

/-! ### Letting go -/

/-- Everything that somebody holds on to by name. -/
def handles (e : Engine) : List Handle :=
  e.holds ++ e.cells.flatMap fun c => c.task.handles

/-- Does somebody hold on to the cluster? -/
def holdsCluster (e : Engine) : Bool :=
  e.handles.contains .cluster

/-- The pools that somebody holds on to. -/
def heldPools (e : Engine) : List Nat :=
  (e.handles.filterMap fun h =>
    match h with
    | .pool p => some p
    | _ => none) ++
  (if e.holdsCluster then ((e.world.manager?.map fun m => m.pools.map (·.2)).getD []) else []) ++
  (e.foreground.map fun f => f.work.pools).getD [] ++
  e.cells.flatMap fun c => c.task.pools

/-- The connections that somebody holds on to. -/
def heldConnections (e : Engine) (pools : List Nat) : List Nat :=
  (e.handles.filterMap fun h =>
    match h with
    | .connection c => some c
    | _ => none) ++
  (pools.flatMap fun p => (e.world.depots.getD p default).core.members) ++
  (e.foreground.map fun f => f.work.connections).getD [] ++
  e.cells.flatMap fun c => c.task.connections

/-- Gives up the activities that satisfy a test. -/
def discard (e : Engine) (test : Task → Bool) : Engine :=
  let given := e.cells.filter fun c => test c.task
  let ids := given.map (·.id)
  let e :=
    { e with
      cells := e.cells.filter fun c => !test c.task
      queue := e.queue.filter fun id => !ids.contains id }
  (e.act (given.forM fun c => c.task.cancel)).2

/-- A pool is maintained no longer. -/
def abandonPool (e : Engine) (p : Nat) : Engine :=
  let (_, e) := e.act do
    let d ← depot p
    setDepot p { d with abandoned := true, core := { d.core with stopping := true } }
    emit (.poolStopped p)
  e.discard fun t =>
    match t with
    | .maintenance q _ => p = q
    | _ => false

/-- A connection stops. -/
def stopConnection (e : Engine) (c : Nat) : Engine :=
  (e.act do
    setConnection c (← link c).core.stop
    emit (.stopped c)).2

/-- Lets go of what nobody holds on to. -/
def release (e : Engine) : Engine :=
  let e :=
    if e.holdsCluster || (e.world.cluster.map (·.stopping)).getD true then e
    else
      (e.act ClusterClosing.stopFollowing).2.discard fun t =>
        match t with
        | .reconciler _ => true
        | _ => false
  let e :=
    if e.handles.contains .provider || e.holdsCluster then e
    else
      e.discard fun t =>
        match t with
        | .poller .. => true
        | _ => false
  let pools := e.heldPools
  let lostPools := (List.range e.world.depots.size).filter fun p =>
    !(e.world.depots.getD p default).abandoned && !pools.contains p
  let e := lostPools.foldl abandonPool e
  let connections := e.heldConnections pools
  let lost := (List.range e.world.links.size).filter fun c =>
    !(e.world.links.getD c default).core.stopping && !connections.contains c
  lost.foldl stopConnection e

/-! ### Running -/

/-- An activity goes on. -/
def pollCell (e : Engine) (cell : Cell) : Engine :=
  let (progress, w) := cell.task.poll.run e.world
  match progress with
  | .wait task waits =>
    (e.amend cell.id fun c => { c with task, waits, queued := false }).absorb w
  | .done none => ((e.remove cell.id).absorb w).release
  | .done (some (n, a)) =>
    let e := e.remove cell.id
    ({ e with finished := (n, .answered a) :: e.finished }.absorb w).release

/-- The activity at the front of the queue goes on. -/
def pollFirst (e : Engine) : Engine :=
  match e.queue with
  | [] => e
  | id :: queue =>
    match e.cells.find? fun c => c.id = id with
    | none => { e with queue }
    | some cell => { e with queue }.pollCell cell

/-- Runs the activities that can go on, at most `fuel` times, until none can. -/
def settleFrom : Nat → Engine → Engine
  | 0, e => e
  | fuel + 1, e => if e.queue.isEmpty then e else settleFrom fuel e.pollFirst

/-- More steps than activities take between two moments of rest. -/
def patience : Nat := 1_000_000_000_000_000

/-- Runs all activities until they wait. -/
def settle (e : Engine) : Engine := settleFrom patience e

/-- The timers among events. -/
def timers (events : List Event) : List Timer :=
  events.filterMap fun e =>
    match e with
    | .timer t => some t
    | _ => none

/-- The timers that activities wait for. -/
def allTimers (e : Engine) : List Timer :=
  (e.foreground.map fun f => timers f.waits).getD [] ++ e.cells.flatMap fun c => timers c.waits

/-- Moves time to the earliest timer, and wakes those who wait for it in the order in which they
have set their timers.  `none` if nobody waits for a timer. -/
def jump (e : Engine) : Option Engine :=
  (e.allTimers.map (·.due)).min?.map fun due =>
    let ringing := (e.allTimers.filter fun t => t.due = due).mergeSort fun s t =>
      s.order.getD 0 ≤ t.order.getD 0
    (ringing.map Event.timer).foldl wake { e with world := { e.world with now := due } }

/-- Runs activities and moves time until the operation in the foreground can go on, in at most
`fuel` moves.  `false` if it never can. -/
def await : Nat → Engine → Bool × Engine
  | 0, e => (false, e)
  | fuel + 1, e =>
    let e := e.settle
    if (e.foreground.map (·.ready)).getD true then (true, e)
    else
      match e.jump with
      | none => (false, e)
      | some e => if (e.foreground.map (·.ready)).getD true then (true, e) else await fuel e

/-- Runs an operation in the foreground from a step on, in at most `fuel` steps more. -/
def performFrom : Nat → Work.Step → Engine → Answer × Engine
  | 0, _, e => (.nothing, e)
  | fuel + 1, step, e =>
    let (progress, w) := step.run e.world
    match progress with
    | .done answer => (answer, ({ e with foreground := none }.absorb w).release)
    | .wait work waits =>
      match ({ e with foreground := some ⟨work, waits, false⟩ }.absorb w).await patience with
      | (false, e) => (.nothing, { e with foreground := none })
      | (true, e) => performFrom fuel work.poll e

/-- Runs an operation in the foreground. -/
def perform (e : Engine) (op : Operation) : Answer × Engine :=
  performFrom patience op.start e

/-- Starts an operation in the background under a number; it holds on to what it works on. -/
def submit (e : Engine) (number : Nat) (holds : Handle) (op : Operation) : Engine :=
  e.add (.job number holds (.fresh op))

/-- Gives up the job with a number, if it has not ended. -/
def abort (e : Engine) (number : Nat) : Engine :=
  let isJob : Task → Bool := fun t =>
    match t with
    | .job n .. => n = number
    | _ => false
  if e.cells.any fun c => isJob c.task then
    (({ e with finished := (number, .aborted) :: e.finished }).discard isJob).release
  else e

/-- Starts to hold on to something. -/
def hold (e : Engine) (h : Handle) : Engine := { e with holds := e.holds ++ [h] }

/-- Lets go of something. -/
def drop (e : Engine) (h : Handle) : Engine :=
  { e with holds := e.holds.erase h }.release

end Engine

end Switchboard.Simulation
