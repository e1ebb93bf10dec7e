import Switchboard.Simulation.Engine

/-!
# Scenarios

A scenario opens a connection, a pool, a cluster or a client over a scripted network and then takes
steps with it.  After every step all activities run until they wait, and a report is made.

## Main definitions

- `Setup` — what is opened, and over which network
- `Step` — a step
- `Report` — what is seen after a step
- `Scenario.run` — the reports of a scenario
-/

namespace Switchboard.Simulation

open Wire

/-- What a scenario opens. -/
inductive Target where
  | connection (address : Address)
  | pool (address : Address)
  /-- a cluster, whose requests are sent again as a policy allows -/
  | cluster
  /-- a cluster together with its provider, whose requests are sent again as a policy allows -/
  | client (policy : Retry.Policy)

/-- Where a cluster's addresses come from. -/
inductive Source where
  /-- a topology that changes only when a step publishes one -/
  | given (t : Topology)
  /-- a server that is asked -/
  | discovered (config : DiscoveryConfig) (reply : Retry.Reply)

/-- What a scenario opens, and over which network. -/
structure Setup where
  target : Target
  config : ClientConfig
  source : Source
  dials : List (Address × List Dial)

/-- Something done with the target, or with the pool of an address. -/
inductive TargetOperation where
  | close (pool : Option Address)
  | closeGracefully (limit : Duration) (pool : Option Address)
  | replenish (pool : Option Address)
  | reconcile (t : Topology)
  | refresh
  | poll

/-- A change at the server's end of a stream. -/
inductive StreamChange where
  /-- octets arrive -/
  | feed (bytes : Octets)
  /-- a message arrives -/
  | message (m : Message)
  | ended
  | readFault (fault : StreamFault)
  | writeFault (fault : StreamFault)
  | writeBreaks
  | window (room : Option Nat)

/-- A step of a scenario. -/
inductive Step where
  /-- sends a request in the background, through the pool of an address if one is given -/
  | request (request : Request) (reading : Reading) (via : Option Address)
  | operation (op : TargetOperation) (background : Bool)
  | abort (job : Nat)
  | stream (serial : Nat) (change : StreamChange)
  | wait (millis : Nat)
  /-- picks a connection -/
  | acquire (pool : Option Address)
  /-- holds on to a pool -/
  | hold (pool : Address)
  | publish (t : Topology)
  /-- changes the answer of the server that is asked for the list of servers -/
  | entry (reply : Retry.Reply)
  | forgetProvider
  | inspect
  | inspectConfig
  | drop

/-- What is seen of a pool. -/
structure PoolState where
  size : Nat
  ready : Nat
  inFlight : Nat
  deadline : Option Nat
  closed : Bool

/-- What is seen of a target. -/
inductive TargetState where
  | connection (stage : Stage) (pending : Nat) (deadline : Option Nat)
  | pool (s : PoolState)
  | cluster (epoch : UInt64) (closed : Bool) (pools : List (Address × PoolState))
      (provider : Option Topology)

/-- What is seen after a step. -/
structure Report where
  time : Nat
  answer : Answer
  /-- the jobs that have ended since the last report -/
  finished : List (Nat × JobEnd)
  state : Option TargetState
  /-- the pools held on to, if any ever were -/
  held : Option (List PoolState)
  /-- the attempts to connect since the last report -/
  connects : List (Nat × Address)
  /-- what was written since the last report -/
  received : List (Nat × Octets)
  /-- how streams were ended since the last report -/
  down : List (Nat × Ending)

/-- A scenario under way. -/
structure Scenario where
  setup : Setup
  engine : Engine
  /-- is the target still held on to? -/
  alive : Bool := true
  /-- how many jobs have been started -/
  jobs : Nat := 0
  held : Option (List Nat) := none

namespace Scenario

/-- The handle of a target: it is the only one of its kind, or the first. -/
def handle : Target → Handle
  | .connection _ => .connection 0
  | .pool _ => .pool 0
  | .cluster | .client _ => .cluster

/-- Where the requests of a target are sent, and how often. -/
def routing : Target → Route × Retry.Policy
  | .connection _ => (.connection 0, .never)
  | .pool _ => (.pool 0, .never)
  | .cluster => (.cluster, .never)
  | .client policy => (.cluster, policy)

/-! ### What is seen -/

/-- What is seen of a pool. -/
def poolState (w : World) (p : Nat) : PoolState :=
  let pool := (w.depots.getD p default).core
  { size := pool.members.length
    ready := (pool.ready w.stage).length
    inFlight := w.inFlight p
    deadline := w.latestDeadline p
    closed := pool.closed }

/-- What is seen of a cluster. -/
def clusterState (w : World) (provider : Option Topology) : TargetState :=
  let m := w.manager?.getD default
  .cluster m.epoch m.closed (m.pools.map fun (a, p) => (a, poolState w p)) provider

/-- What is seen of a target. -/
def targetState (w : World) : Target → TargetState
  | .connection _ =>
    let c := (w.links.getD 0 default).core
    .connection c.stage c.pendingCount c.inflight.latestDeadline
  | .pool _ => .pool (poolState w 0)
  | .cluster => clusterState w none
  | .client _ => clusterState w (some w.topology.value)

/-- The text of a target. -/
def inspect (w : World) : Target → String
  | .connection _ => (w.links.getD 0 default).core.inspect
  | .pool _ => (w.depots.getD 0 default).core.inspect w.stage
  | .cluster => (w.manager?.getD default).inspect
  | .client policy => (w.manager?.getD default).inspectClient policy.inspect

/-- What the streams have to report, by number. -/
def pipeReports (n : Network) : List (Nat × Octets × List Ending) × Network :=
  let reports := n.pipes.toList.zipIdx.filterMap fun (pipe, serial) =>
    pipe.map fun p => (serial, p.report.1, p.report.2.1)
  (reports, { n with pipes := n.pipes.map fun pipe => pipe.map fun p => p.report.2.2 })

/-- Reports what is seen; `withJobs` says whether the jobs that have ended are reported now. -/
def report (s : Scenario) (answer : Answer) (withJobs : Bool) : Report × Scenario :=
  let w := s.engine.world
  let (pipes, network) := pipeReports w.network
  let finished := s.engine.finished.mergeSort fun a b => a.1 ≤ b.1
  ({ time := w.now
     answer
     finished := if withJobs then finished else []
     state := if s.alive then some (targetState w s.setup.target) else none
     held := s.held.map fun pools => pools.map (poolState w)
     connects := network.attempts.reverse
     received := pipes.filterMap fun (serial, bytes, _) =>
       if bytes.isEmpty then none else some (serial, bytes)
     down := pipes.flatMap fun (serial, _, endings) => endings.map fun e => (serial, e) },
   { s with
     engine :=
       { s.engine with
         world := { w with network := { network with attempts := [] } }
         finished := if withJobs then [] else s.engine.finished } })

/-! ### Steps -/

/-- What becomes of a step at once: an answer, and whether the step could be taken. -/
abbrev Taken := Answer × Bool × Scenario

/-- The step was taken and answers. -/
def taken (s : Scenario) (answer : Answer) : Taken := (answer, true, s)

/-- There is no pool of the address. -/
def noPool (s : Scenario) : Taken := (.text "no pool", false, s)

/-- There is no stream with the number. -/
def noPipe (s : Scenario) : Taken := (.text "no pipe", true, s)

/-- The pool that a step is about: that of an address, or the target. -/
def pool? (s : Scenario) : Option Address → Option Nat
  | some a => s.engine.world.manager?.bind fun m => m.pool? a
  | none =>
    match s.setup.target with
    | .pool _ => some 0
    | _ => none

/-- Is the target a cluster? -/
def isCluster (s : Scenario) : Bool :=
  match s.setup.target with
  | .cluster | .client _ => true
  | _ => false

/-- What an operation on the target or on one of its pools asks for, and what it holds on to; `none`
when there is nothing that it could be about. -/
def operation (s : Scenario) : TargetOperation → Option (Operation × Handle)
  | .close none =>
    some (match s.setup.target with
      | .connection _ => .closeConnection 0
      | .pool _ => .closePool 0
      | .cluster => .closeCluster false
      | .client _ => .closeCluster true, handle s.setup.target)
  | .close a => (s.pool? a).map fun p => (.closePool p, .pool p)
  | .closeGracefully limit a => (s.pool? a).map fun p => (.drainPool p limit, .pool p)
  | .replenish a => (s.pool? a).map fun p => (.replenish p, .pool p)
  | .reconcile t => if s.isCluster then some (.reconcile t, .cluster) else none
  | .refresh => if s.isCluster then some (.refresh, .cluster) else none
  | .poll => if s.isCluster then some (.poll, .provider) else none

/-- Starts a job. -/
def submit (s : Scenario) (holds : Handle) (op : Operation) : Taken :=
  { s with engine := s.engine.submit s.jobs holds op, jobs := s.jobs + 1 }.taken .nothing

/-- Runs an operation in the foreground. -/
def perform (s : Scenario) (op : Operation) : Taken :=
  let (answer, engine) := s.engine.perform op
  { s with engine }.taken answer

/-- Does something with the world. -/
def act {α : Type} (s : Scenario) (step : Sim α) : α × Scenario :=
  let (result, engine) := s.engine.act step
  (result, { s with engine })

/-- The server's end of a stream changes. -/
def changeStream (p : Pipe) : StreamChange → Pipe
  | .feed bytes => p.feed bytes
  | .message m => p.feed ((Frame.encode m.header m.body).toOption.getD [])
  | .ended => { p with ended := true }
  | .readFault fault => { p with readFault := some fault }
  | .writeFault fault => { p with writeFault := some fault }
  | .writeBreaks => { p with writeBreaks := true }
  | .window room => { p with window := room }

/-- The server's end of a stream changes, and those who wait for it are told. -/
def streamStep (serial : Nat) (change : StreamChange) : Sim Unit := do
  withPipe serial fun p => ((), changeStream p change)
  emit (.readable serial)
  emit (.writable serial)

/-- Picks a connection of a pool and answers with the version of its server. -/
def acquireStep (p : Nat) : Sim Answer := do
  match ← acquire p with
  | .error fault => return .result (.error fault)
  | .ok c => return .result (.ok (.text (← link c).core.greeting.version))

/-- Takes a step. -/
def take (s : Scenario) : Step → Taken
  | .request request reading via =>
    let send := fun (route : Route) policy holds =>
      s.submit holds (.request route request policy s.setup.config.requestTimeout reading)
    match via with
    | none =>
      let (route, policy) := routing s.setup.target
      send route policy (handle s.setup.target)
    | some a =>
      match s.pool? (some a) with
      | none => s.noPool
      | some p => send (.pool p) .never (.pool p)
  | .operation op background =>
    match s.operation op with
    | none => s.noPool
    | some (op, holds) => if background then s.submit holds op else s.perform op
  | .abort job => { s with engine := s.engine.abort job }.taken .nothing
  | .stream serial change =>
    match s.engine.world.pipe? serial with
    | none => s.noPipe
    | some _ => (s.act (streamStep serial change)).2.taken .nothing
  | .wait millis => s.perform (.sleep millis)
  | .acquire a =>
    match s.pool? a with
    | none => s.noPool
    | some p =>
      let (answer, s) := s.act (acquireStep p)
      s.taken answer
  | .hold a =>
    match s.pool? (some a) with
    | none => s.noPool
    | some p =>
      { s with
        engine := s.engine.hold (.pool p)
        held := some (s.held.getD [] ++ [p]) }.taken (.flag true)
  | .publish t =>
    (s.act (do publish ((← get).topology.set t))).2.taken .nothing
  | .entry reply =>
    (s.act (modify fun w => { w with entry := { w.entry with reply } })).2.taken .nothing
  | .forgetProvider => { s with engine := s.engine.drop .provider }.taken .nothing
  | .inspect =>
    s.taken (if s.alive then .text (inspect s.engine.world s.setup.target) else .nothing)
  | .inspectConfig => s.taken (.text s.setup.config.inspect)
  | .drop =>
    { s with engine := s.engine.drop (handle s.setup.target), alive := false }.taken .nothing

/-- Takes a step, runs all activities until they wait, and reports. -/
def step (s : Scenario) (st : Step) : Report × Scenario :=
  let (answer, withJobs, s) := s.take st
  { s with engine := s.engine.settle }.report answer withJobs

/-- The reports of steps. -/
def steps : Scenario → List Step → List Report
  | _, [] => []
  | s, st :: rest =>
    let (report, s) := s.step st
    report :: steps s rest

/-! ### Opening -/

/-- Did an operation fail? -/
def isFailure : Answer → Bool
  | .result (.error _) => true
  | _ => false

/-- Opens the provider of a cluster. -/
def openProvider (e : Engine) : Source → Answer × Engine
  | .given t =>
    let provider := { topology := .start t, discovery := none }
    (.result (.ok .nothing), { e with world := { e.world with provider := some provider } })
  | .discovered config reply =>
    { e with world := { e.world with entry := { e.world.entry with reply } } }.perform
      (.startDiscovery config)

/-- Opens a target. -/
def openTarget (e : Engine) (setup : Setup) : Answer × Engine :=
  match setup.target with
  | .connection address => e.perform (.openConnection address setup.config)
  | .pool address => e.perform (.openPool address setup.config)
  | .cluster | .client _ =>
    match openProvider (e.hold .provider) setup.source with
    | (answer, e) => if isFailure answer then (answer, e) else e.perform (.openCluster setup.config)

/-- The reports of a scenario: one for the opening, and one for each step if that succeeded. -/
def run (setup : Setup) (script : List Step) : List Report :=
  let e : Engine := { world := { network := { dials := setup.dials } } }
  let e := e.hold (handle setup.target)
  let (answer, e) := openTarget e setup
  let failed := isFailure answer
  let s : Scenario := { setup, engine := e.settle, alive := !failed }
  let (report, s) := s.report answer true
  report :: if failed then [] else s.steps script

end Scenario

end Switchboard.Simulation
