import Switchboard.Simulation.Scenario

/-!
# Discovery scenarios

A scenario that starts a provider which asks a server for the list of servers, subscribes to it, and
then takes steps with it.

## Main definitions

- `DiscoveryStep` — a step
- `DiscoveryReport` — what is seen after a step
- `DiscoveryScenario.run` — the reports of a scenario, or the fault of its start
-/

namespace Switchboard.Simulation

/-- A step with a provider. -/
inductive DiscoveryStep where
  /-- changes the answer of the server -/
  | entry (reply : Retry.Reply)
  | poll (background : Bool)
  | wait (millis : Nat)
  /-- the subscriber looks at the topology -/
  | seen
  | current
  | close
  | inspect

/-- What is seen after a step. -/
structure DiscoveryReport where
  time : Nat
  answer : Answer
  finished : List (Nat × JobEnd)
  topology : Topology
  /-- has the topology changed since the subscriber looked? -/
  changed : Bool
  calls : Nat
  /-- the last request for the list of servers -/
  last : Option Request

/-- A scenario with a provider under way. -/
structure DiscoveryScenario where
  config : DiscoveryConfig
  engine : Engine
  /-- the version that the subscriber has seen -/
  seen : Nat
  jobs : Nat := 0

namespace DiscoveryScenario

/-- Reports what is seen. -/
def report (s : DiscoveryScenario) (answer : Answer) : DiscoveryReport × DiscoveryScenario :=
  let w := s.engine.world
  ({ time := w.now
     answer
     finished := s.engine.finished.mergeSort fun a b => a.1 ≤ b.1
     topology := w.topology.value
     changed := w.topology.isUnseen s.seen
     calls := w.entry.calls
     last := w.entry.last },
   { s with engine := { s.engine with finished := [] } })

/-- Takes a step. -/
def take (s : DiscoveryScenario) : DiscoveryStep → Answer × DiscoveryScenario
  | .entry reply =>
    (.nothing, { s with
      engine := (s.engine.act (modify fun w => { w with entry := { w.entry with reply } })).2 })
  | .poll true =>
    (.nothing, { s with engine := s.engine.submit s.jobs .provider .poll, jobs := s.jobs + 1 })
  | .poll false =>
    let (answer, engine) := s.engine.perform .poll
    (answer, { s with engine })
  | .wait millis =>
    let (answer, engine) := s.engine.perform (.sleep millis)
    (answer, { s with engine })
  | .seen =>
    let t := s.engine.world.topology
    (.topology t.value, { s with seen := t.version })
  | .current => (.addresses s.engine.world.topology.value.addresses, s)
  | .close => (.nothing, { s with engine := (s.engine.act stopPolling).2 })
  | .inspect => (.text (Discovery.inspect s.config s.engine.world.topology), s)

/-- The reports of steps. -/
def steps : DiscoveryScenario → List DiscoveryStep → List DiscoveryReport
  | _, [] => []
  | s, st :: rest =>
    let (answer, s) := s.take st
    let (report, s) := { s with engine := s.engine.settle }.report answer
    report :: steps s rest

/-- The reports of a scenario, the first one after the start; or the fault of the start and the
number of requests made. -/
def run (config : DiscoveryConfig) (reply : Retry.Reply) (script : List DiscoveryStep) :
    Except (Fault × Nat) (List DiscoveryReport) :=
  let (answer, e) := Scenario.openProvider (({} : Engine).hold .provider) (.discovered config reply)
  match answer with
  | .result (.error fault) => .error (fault, e.world.entry.calls)
  | _ =>
    let e := e.settle
    let s : DiscoveryScenario := { config, engine := e, seen := e.world.topology.version }
    let (report, s) := s.report .nothing
    .ok (report :: s.steps script)

end DiscoveryScenario

end Switchboard.Simulation
