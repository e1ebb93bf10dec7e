import Switchboard.Simulation.ClusterWork

/-!
# Operations

What the user of a scenario asks for, how far it has come, and what it answers.

## Main definitions

- `Operation` — what is asked for
- `Work` — how far it has come
- `Answer` — what it answers
- `Operation.start`, `Work.poll`, `Work.cancel` — its steps
-/

namespace Switchboard.Simulation

open Wire MessagePack

/-- What an operation that succeeds gives. -/
inductive Payload where
  | nothing
  | octets (bytes : Octets)
  | value (v : Value)
  | flag (b : Bool)
  | text (s : String)
  | opened (address : Address) (greeting : Greeting)
  | address (a : Address)

/-- What an operation answers. -/
inductive Answer where
  | nothing
  | text (s : String)
  | flag (b : Bool)
  | count (n : Nat)
  | reconciliation (r : Reconciliation)
  | topology (t : Topology)
  | addresses (list : List Address)
  | result (r : Except Fault Payload)

/-- How the response to a request is shown. -/
inductive Reading where
  /-- only that there was one -/
  | presence
  /-- the value that it carries -/
  | data
  /-- its octets -/
  | octets

/-- Shows the outcome of a request. -/
def Reading.read (r : Reading) (outcome : Outcome) : Except Fault Payload :=
  match r with
  | .presence => outcome.map fun _ => .nothing
  | .data => (outcome.bind Body.responseData).map .value
  | .octets => outcome.map .octets

/-- What the user of a scenario asks for. -/
inductive Operation where
  | sleep (millis : Nat)
  | request (route : Route) (request : Request) (policy : Retry.Policy) (standard : Duration)
      (reading : Reading)
  | closeConnection (c : Nat)
  | closePool (p : Nat)
  | drainPool (p : Nat) (limit : Duration)
  | replenish (p : Nat)
  | reconcile (t : Topology)
  /-- applies the provider's topology again -/
  | refresh
  /-- closes the cluster, after telling the provider to poll no longer if `provider` -/
  | closeCluster (provider : Bool)
  | poll
  | openConnection (address : Address) (config : ClientConfig)
  | openPool (address : Address) (config : ClientConfig)
  /-- opens a pool for each address of the provider and follows it from then on -/
  | openCluster (config : ClientConfig)
  /-- asks for the list of servers, and goes on asking from then on -/
  | startDiscovery (config : DiscoveryConfig)

/-- How far an operation has come. -/
inductive Work where
  | sleeping (t : Timer)
  | requesting (reading : Reading) (d : Dispatching)
  | closingConnection (c : Nat)
  | closingPool (p : Nat) (w : PoolClosing)
  | drainingPool (p : Nat) (w : Draining)
  | replenishing (p : Nat) (w : Replenishing)
  | reconciling (w : Reconciling)
  | closingCluster (w : ClusterClosing)
  | polling (config : DiscoveryConfig) (w : Polling)
  | openingConnection (address : Address) (a : Attempt)
  | openingPool (address : Address) (o : PoolOpening)
  | openingCluster (seen : Nat) (w : Reconciling)
  | discovering (config : DiscoveryConfig) (answer : Outcome) (delay : Timer)

namespace Work

/-- What an operation comes to. -/
abbrev Step := Sim (Progress Work Answer)

/-- Answers with a result. -/
def answer {τ α : Type} (payload : α → Payload) (r : Except Fault α) : Sim (Progress τ Answer) :=
  return .done (.result (r.map payload))

/-- Waits for a timer. -/
def sleep (t : Timer) : Step := do
  match ← t.check with
  | some t => return .wait (.sleeping t) [.timer t]
  | none => return .done .nothing

/-- Waits for the outcome of a request. -/
def awaitRequest (reading : Reading) (step : Dispatching.Step) : Step :=
  Progress.andThen step (.requesting reading) fun outcome =>
    return .done (.result (reading.read outcome))

/-- Waits until a topology has been applied. -/
def awaitReconciling (step : Reconciling.Step) : Step :=
  Progress.andThen step .reconciling fun r => return .done (.reconciliation r)

/-- Waits for a connection. -/
def awaitConnection (address : Address) (step : Sim (Progress Attempt (Except Fault Nat))) : Step :=
  Progress.andThen step (.openingConnection address) fun result => do
    match result with
    | .error fault => return .done (.result (.error fault))
    | .ok c => return .done (.result (.ok (.opened address (← link c).core.greeting)))

/-- Waits until the first topology has been applied; then it is followed. -/
def awaitCluster (seen : Nat) (step : Reconciling.Step) : Step :=
  Progress.andThen step (.openingCluster seen) fun _ => do
    spawn (.reconciler seen)
    return .done (.result (.ok .nothing))

/-- Waits for the first answer; then polling begins. -/
def awaitDiscovery (config : DiscoveryConfig) (answer : Outcome) (delay : Timer) : Step := do
  match ← delay.check with
  | some delay => return .wait (.discovering config answer delay) [.timer delay]
  | none =>
    match Discovery.start config answer with
    | .error fault => return .done (.result (.error fault))
    | .ok topology =>
      modify fun w => { w with provider := some { topology, discovery := some config } }
      spawn (.poller config)
      return .done (.result (.ok .nothing))

/-- An operation goes on. -/
def poll : Work → Step
  | .sleeping t => sleep t
  | .requesting reading d => awaitRequest reading d.poll
  | .closingConnection c =>
    Progress.andThen (Closing.poll c) .closingConnection (answer fun _ => .nothing)
  | .closingPool p w =>
    Progress.andThen (w.poll p) (.closingPool p) (answer fun _ => .nothing)
  | .drainingPool p w =>
    Progress.andThen (w.poll p) (.drainingPool p) (answer fun _ => .nothing)
  | .replenishing p w =>
    Progress.andThen (w.poll p) (.replenishing p) fun n => return .done (.count n)
  | .reconciling w => awaitReconciling w.poll
  | .closingCluster w => Progress.andThen w.poll .closingCluster (answer fun _ => .nothing)
  | .polling c w => Progress.andThen (w.poll c) (.polling c) (answer .flag)
  | .openingConnection address a => awaitConnection address a.poll
  | .openingPool address o =>
    Progress.andThen o.poll (.openingPool address) (answer fun _ => .address address)
  | .openingCluster seen w => awaitCluster seen w.poll
  | .discovering config answer delay => awaitDiscovery config answer delay

/-- An operation is given up. -/
def cancel : Work → Sim Unit
  | .requesting _ d => d.cancel
  | .closingPool p w => w.cancel p
  | .drainingPool p w => w.cancel p
  | .replenishing p w => w.cancel p
  | .reconciling w | .openingCluster _ w => w.cancel
  | .closingCluster w => w.cancel
  | .polling _ w => w.cancel
  | .openingConnection _ a => a.cancel
  | .openingPool _ o => o.cancel
  | .sleeping _ | .closingConnection _ | .discovering .. => return

/-- The pools that an operation holds on to. -/
def pools : Work → List Nat
  | .requesting _ d =>
    match d.phase with
    | .sending pool _ => pool.toList
    | .pausing _ => []
  | .closingPool p _ | .drainingPool p _ | .replenishing p _ => [p]
  | .reconciling w | .openingCluster _ w => w.pools
  | .closingCluster w => w.pools
  | .openingPool _ o => [o.pool]
  | _ => []

/-- The connections that an operation holds on to. -/
def connections : Work → List Nat
  | .requesting _ d =>
    match d.phase with
    | .sending _ s => [s.connection]
    | .pausing _ => []
  | .closingConnection c => [c]
  | .closingPool _ w => w.connections
  | .drainingPool _ w => w.connections
  | .replenishing _ w => w.connections
  | .reconciling w | .openingCluster _ w => w.connections
  | .closingCluster w => w.connections
  | .openingPool _ o => o.work.connections
  | _ => []

end Work

namespace Operation

/-- Opens the cluster: only the number of connections is looked at. -/
def openManager (config : ClientConfig) : Work.Step := do
  match config.connectionsFault? with
  | some fault => return .done (.result (.error fault))
  | none =>
    let t := (← get).topology
    modify fun w => { w with cluster := some { core := .empty config } }
    Work.awaitCluster t.version (Reconciling.start t.value false)

/-- Begins to ask for the list of servers. -/
def openDiscovery (config : DiscoveryConfig) : Work.Step := do
  match Discovery.configFault? config with
  | some fault => return .done (.result (.error fault))
  | none =>
    let (answer, delay) ← ask config
    Work.awaitDiscovery config answer delay

/-- The configuration of the provider's discovery. -/
def discoveryConfig : Sim DiscoveryConfig :=
  return ((← get).provider.bind (·.discovery)).getD {}

/-- An operation begins. -/
def start : Operation → Work.Step
  | .sleep millis => do Work.sleep (← timerAfter millis)
  | .request route r policy standard reading =>
    Work.awaitRequest reading (Dispatching.start route r policy standard)
  | .closeConnection c =>
    Progress.andThen (Closing.start c) .closingConnection (Work.answer fun _ => .nothing)
  | .closePool p =>
    Progress.andThen (PoolClosing.start p) (.closingPool p) (Work.answer fun _ => .nothing)
  | .drainPool p limit =>
    Progress.andThen (Draining.start p limit) (.drainingPool p) (Work.answer fun _ => .nothing)
  | .replenish p =>
    Progress.andThen (Replenishing.start p) (.replenishing p) fun n => return .done (.count n)
  | .reconcile t => Work.awaitReconciling (Reconciling.start t false)
  | .refresh => do Work.awaitReconciling (Reconciling.start (← get).topology.value true)
  | .closeCluster provider => do
    if provider then stopPolling
    Progress.andThen ClusterClosing.start .closingCluster (Work.answer fun _ => .nothing)
  | .poll => do
    let c ← discoveryConfig
    Progress.andThen (Polling.start c) (.polling c) (Work.answer .flag)
  | .openConnection address config => do
    Work.awaitConnection address (← Attempt.start address config).poll
  | .openPool address config =>
    Progress.andThen (PoolOpening.start address config) (.openingPool address)
      (Work.answer fun _ => .address address)
  | .openCluster config => openManager config
  | .startDiscovery config => openDiscovery config

end Operation

end Switchboard.Simulation
