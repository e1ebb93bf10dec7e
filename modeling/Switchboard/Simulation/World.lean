import Switchboard.Discovery
import Switchboard.Lock
import Switchboard.Manager
import Switchboard.Retry.Script
import Switchboard.Simulation.Pipe
import Switchboard.Simulation.Server

/-!
# The simulated world

Everything that activities share: a clock of milliseconds, the network with its streams, and the
connections, pools, manager and address provider of a scenario.  Activities change it one at a time;
a change that others may be waiting for leaves a signal.

## Main definitions

- `Timer`, `Event` — what an activity can wait for
- `Signal` — what a change leaves for the scheduler
- `Dial` — what comes of an attempt to connect
- `World` — the shared state
- `Sim` — a step of an activity
-/

namespace Switchboard.Simulation

/-- A point in time, in milliseconds.  Timers for the same millisecond go off in the order in which
they were set; `order` is `none` while the timer has not been set. -/
structure Timer where
  due : Nat
  order : Option Nat := none
  deriving Repr, DecidableEq

/-- The locks of a scenario. -/
inductive LockName where
  /-- opening and closing the connections of a pool -/
  | pool (pool : Nat)
  /-- applying topologies -/
  | manager
  /-- asking for the list of servers -/
  | provider
  deriving Repr, DecidableEq

/-- What an activity can wait for.  Connections, pools and streams are known by number. -/
inductive Event where
  | timer (t : Timer)
  /-- the slot of a request is settled -/
  | settled (connection slot : Nat)
  /-- a sender may put its frame into the outbox, or never will -/
  | room (connection ticket : Nat)
  /-- a connection's reader and writer have been told to stop -/
  | stopped (connection : Nat)
  /-- a frame waits for the writer -/
  | frame (connection : Nat)
  /-- the writer has ended -/
  | written (connection : Nat)
  | readable (pipe : Nat)
  | writable (pipe : Nat)
  | granted (lock : LockName) (ticket : Nat)
  /-- a pool's maintenance has been told to stop -/
  | poolStopped (pool : Nat)
  /-- the manager has been told to follow the provider no longer -/
  | managerStopped
  /-- the provider has been told to poll no longer -/
  | pollingStopped
  /-- the provider has published a topology -/
  | published
  deriving Repr, DecidableEq

/-- An activity that another one starts. -/
inductive Spawn where
  /-- reads from a connection's stream, beginning with octets already read -/
  | reader (connection : Nat) (buffer : Octets)
  | writer (connection : Nat)
  /-- replaces lost connections of a pool -/
  | maintenance (pool : Nat)
  /-- closes a pool once its requests are done, after so long at the earliest -/
  | draining (pool : Nat) (limit : Duration)
  /-- applies the topologies published after the version seen -/
  | reconciler (seen : Nat)
  /-- asks for the list of servers again and again -/
  | poller (config : DiscoveryConfig)

/-- What a change leaves for the scheduler. -/
inductive Signal where
  | event (e : Event)
  | spawn (s : Spawn)

/-- What comes of an attempt to connect. -/
inductive DialEnd where
  /-- a stream -/
  | stream (pipe : Pipe) (greets : Bool)
  | refused (fault : Fault)
  /-- nothing, ever -/
  | hanging

/-- An attempt to connect: what comes of it, and after how many milliseconds. -/
structure Dial where
  ending : DialEnd := .stream {} true
  after : Nat := 0

/-- The network: what comes of attempts to connect, and the streams that came of them. -/
structure Network where
  /-- the attempts that are still to come, by address -/
  dials : List (Address × List Dial) := []
  /-- the scripted servers; if there are any, all other addresses refuse -/
  servers : Option (List (Address × Server)) := none
  /-- the number of attempts so far -/
  serial : Nat := 0
  /-- the attempts not yet reported, latest first -/
  attempts : List (Nat × Address) := []
  /-- the streams, by the number of the attempt -/
  pipes : Array (Option Pipe) := #[none]
  /-- which streams lead to which scripted server, and what that has not understood yet -/
  peers : List (Nat × Address × Octets) := []

/-- How a writer ended. -/
inductive WriterEnd where
  | done
  | brokenDown (detail : String)

/-- A connection, its stream, and how its writer has ended, if it has. -/
structure Link where
  core : Connection
  pipe : Nat
  writer : Option WriterEnd := none
  deriving Inhabited

/-- A pool, and the lock under which connections are opened and closed. -/
structure Depot where
  core : Pool
  lock : Lock := .free
  /-- has everybody let go of the pool? -/
  abandoned : Bool := false
  deriving Inhabited

/-- The manager, and the lock under which topologies are applied. -/
structure Cluster where
  core : Manager
  lock : Lock := .free
  stopping : Bool := false

/-- Where addresses come from. -/
structure Provider where
  topology : Watch Topology
  /-- how they are fetched, if they are -/
  discovery : Option DiscoveryConfig
  lock : Lock := .free
  stopping : Bool := false

/-- The server that is asked for the list of servers: its answer at present, and the requests so
far. -/
structure Entry where
  reply : Retry.Reply
  calls : Nat := 0
  last : Option Request := none

/-- Everything that activities share. -/
structure World where
  now : Nat := 0
  /-- the number of tickets and timers handed out -/
  stamp : Nat := 0
  network : Network := {}
  links : Array Link := #[]
  depots : Array Depot := #[]
  cluster : Option Cluster := none
  provider : Option Provider := none
  entry : Entry := ⟨⟨.ok [], 0⟩, 0, none⟩
  /-- the signals that the scheduler has not seen yet, latest first -/
  signals : List Signal := []

/-- A step of an activity. -/
abbrev Sim := StateM World

theorem run_bind {α β : Type} (step : Sim α) (next : α → Sim β) (w : World) :
    (step >>= next).run w = (next (step.run w).1).run (step.run w).2 :=
  rfl

theorem run_get_bind {β : Type} (w : World) (next : World → Sim β) :
    (get >>= next).run w = (next w).run w :=
  rfl

/-- What an activity comes to when it is given the chance to go on. -/
inductive Progress (σ α : Type) where
  | done (a : α)
  /-- it waits for any of the events -/
  | wait (s : σ) (events : List Event)

/-- Goes on with another activity as soon as one has ended. -/
def Progress.andThen {σ τ α β : Type} (step : Sim (Progress σ α)) (waiting : σ → τ)
    (next : α → Sim (Progress τ β)) : Sim (Progress τ β) := do
  match ← step with
  | .wait s events => return .wait (waiting s) events
  | .done a => next a

/-! ### Signals, tickets and timers -/

/-- Leaves a signal. -/
def signal (s : Signal) : Sim Unit :=
  modify fun w => { w with signals := s :: w.signals }

/-- Says that an event has happened. -/
def emit (e : Event) : Sim Unit := signal (.event e)

/-- Starts another activity. -/
def spawn (s : Spawn) : Sim Unit := signal (.spawn s)

/-- A number that has not been handed out before. -/
def newTicket : Sim Nat :=
  modifyGet fun w => (w.stamp, { w with stamp := w.stamp + 1 })

/-- The present time. -/
def now : Sim Nat := return (← get).now

theorem run_now_bind {β : Type} (w : World) (next : Nat → Sim β) :
    (now >>= next).run w = (next w.now).run w :=
  rfl

/-- A timer that goes off after so many milliseconds. -/
def timerAfter (millis : Nat) : Sim Timer := return ⟨(← now) + millis, none⟩

/-- Sets a timer that goes off after so many milliseconds. -/
def setTimer (millis : Nat) : Sim Timer := return ⟨(← now) + millis, some (← newTicket)⟩

/-- Sets a timer if it has not been set; `none` if its time has come. -/
def Timer.check (t : Timer) : Sim (Option Timer) := do
  if t.due ≤ (← now) then return none
  else
    match t.order with
    | some _ => return some t
    | none => return some ⟨t.due, some (← newTicket)⟩

/-! ### The parts of the world -/

/-- The connection with a number. -/
def link (c : Nat) : Sim Link := return (← get).links.getD c default

theorem run_link_bind {β : Type} (w : World) (c : Nat) (next : Link → Sim β) :
    (link c >>= next).run w = (next (w.links.getD c default)).run w :=
  rfl

/-- Changes a connection. -/
def setLink (c : Nat) (l : Link) : Sim Unit :=
  modify fun w => { w with links := w.links.setIfInBounds c l }

/-- Changes the state that a connection's users share. -/
def setConnection (c : Nat) (core : Connection) : Sim Unit := do
  setLink c { ← link c with core }

/-- The pool with a number. -/
def depot (p : Nat) : Sim Depot := return (← get).depots.getD p default

theorem run_depot_bind {β : Type} (w : World) (p : Nat) (next : Depot → Sim β) :
    (depot p >>= next).run w = (next (w.depots.getD p default)).run w :=
  rfl

/-- Changes a pool. -/
def setDepot (p : Nat) (d : Depot) : Sim Unit :=
  modify fun w => { w with depots := w.depots.setIfInBounds p d }

/-- Changes what a pool holds. -/
def setPool (p : Nat) (core : Pool) : Sim Unit := do
  setDepot p { ← depot p with core }

/-- How far the life of each connection has come. -/
def World.stage (w : World) (c : Nat) : Stage := (w.links.getD c default).core.stage

/-- The stream with a number. -/
def World.pipe? (w : World) (serial : Nat) : Option Pipe := w.network.pipes.getD serial none

/-- Changes a stream. -/
def setPipe (serial : Nat) (p : Pipe) : Sim Unit :=
  modify fun w => { w with network.pipes := w.network.pipes.setIfInBounds serial (some p) }

/-- Does something with a stream. -/
def withPipe {α : Type} (serial : Nat) (act : Pipe → α × Pipe) : Sim α := do
  let (result, p) := act (((← get).pipe? serial).getD {})
  setPipe serial p
  return result

/-- One of the parties that hold a stream lets go of it. -/
def letGo (serial : Nat) : Sim Unit := withPipe serial fun p => ((), p.letGo)

/-- Replaces the entry of a key, if there is one. -/
def replaceEntry {κ α : Type} [DecidableEq κ] (key : κ) (new : α) (entries : List (κ × α)) :
    List (κ × α) :=
  entries.map fun e => if e.1 = key then (key, new) else e

/-- Octets reach the scripted server at the other end of a stream, if there is one, and it answers.
-/
def deliver (serial : Nat) (bytes : Octets) : Sim Unit := do
  let n := (← get).network
  match n.peers.lookup serial, n.servers with
  | some (address, kept), some servers =>
    match servers.lookup address with
    | none => return
    | some server =>
      let (kept, sent, ended, server) := server.receive (kept ++ bytes)
      modify fun w =>
        { w with
          network.peers := replaceEntry serial (address, kept) n.peers
          network.servers := some (replaceEntry address server servers) }
      withPipe serial fun p => ((), { p.feed sent with ended := p.ended || ended })
      emit (.readable serial)
  | _, _ => return

/-- Writes octets to a stream. -/
def writePipe (serial : Nat) (bytes : Octets) : Sim Pipe.WriteResult := do
  let result ← withPipe serial (Pipe.write · bytes)
  match result with
  | .taken rest => deliver serial (bytes.take (bytes.length - rest.length))
  | _ => pure ()
  return result

/-! ### Locks -/

/-- The lock with a name. -/
def World.lock (w : World) : LockName → Lock
  | .pool p => (w.depots.getD p default).lock
  | .manager => (w.cluster.map (·.lock)).getD .free
  | .provider => (w.provider.map (·.lock)).getD .free

/-- Changes a lock. -/
def setLock (name : LockName) (l : Lock) : Sim Unit :=
  modify fun w =>
    match name with
    | .pool p => { w with depots := w.depots.modify p fun d => { d with lock := l } }
    | .manager => { w with cluster := w.cluster.map fun c => { c with lock := l } }
    | .provider => { w with provider := w.provider.map fun p => { p with lock := l } }

/-- Asks for a lock; gives the ticket by which the request is known. -/
def requestLock (name : LockName) : Sim Nat := do
  let ticket ← newTicket
  setLock name (((← get).lock name).request ticket)
  return ticket

/-- Does the party with the ticket hold the lock? -/
def holdsLock (name : LockName) (ticket : Nat) : Sim Bool :=
  return ((← get).lock name).isHeldBy ticket

theorem run_holdsLock_bind {β : Type} (w : World) (name : LockName) (ticket : Nat)
    (next : Bool → Sim β) :
    (holdsLock name ticket >>= next).run w = (next ((w.lock name).isHeldBy ticket)).run w :=
  rfl

/-- Gives up a lock or a place in its line. -/
def withdrawLock (name : LockName) (ticket : Nat) : Sim Unit := do
  let l := ((← get).lock name).withdraw ticket
  setLock name l
  match l.holder with
  | some next => emit (.granted name next)
  | none => return

/-! ### Children -/

/-- One of several activities that another one waits for. -/
inductive Child (σ α : Type) where
  | running (s : σ)
  | ended (a : α)

namespace Child

variable {σ α : Type}

/-- Gives each child in order the chance to go on; collects what the others wait for. -/
def pollAll (poll : σ → Sim (Progress σ α)) : List (Child σ α) → Sim (List (Child σ α) × List Event)
  | [] => return ([], [])
  | .ended a :: rest => do
    let (rest, events) ← pollAll poll rest
    return (.ended a :: rest, events)
  | .running s :: rest => do
    match ← poll s with
    | .done a =>
      let (rest, events) ← pollAll poll rest
      return (.ended a :: rest, events)
    | .wait s mine =>
      let (rest, events) ← pollAll poll rest
      return (.running s :: rest, mine ++ events)

/-- The results of all children, if all have ended. -/
def results? : List (Child σ α) → Option (List α)
  | [] => some []
  | .ended a :: rest => (results? rest).map (a :: ·)
  | .running _ :: _ => none

/-- The results of the children that have ended. -/
def ended? : Child σ α → Option α
  | .ended a => some a
  | .running _ => none

/-- The children that have not ended. -/
def running? : Child σ α → Option σ
  | .ended _ => none
  | .running s => some s

/-- Waits for all children. -/
def join (poll : σ → Sim (Progress σ α)) (children : List (Child σ α)) :
    Sim (Progress (List (Child σ α)) (List α)) := do
  let (children, events) ← pollAll poll children
  match results? children with
  | some results => return .done results
  | none => return .wait children events

end Child

end Switchboard.Simulation
