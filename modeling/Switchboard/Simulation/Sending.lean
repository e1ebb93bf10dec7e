import Switchboard.Simulation.World

/-!
# Requests under way

A request sent on a connection waits for room in the outbox and then for its outcome, but not beyond
its deadline.  A request dispatched through a pool or a cluster first picks a connection, and is
sent again as a retry policy allows.

## Main definitions

- `Sending` — a request on one connection
- `Dispatching` — a request on whatever connection is picked, with the attempts that a policy allows
-/

namespace Switchboard.Simulation

open Wire

/-! ### Shared steps -/

/-- Delivers a reply, and tells the waiter. -/
def completeReply (c : Nat) (m : Message) : Sim Unit := do
  let core := (← link c).core
  setConnection c (core.complete m)
  match core.inflight.find? m.header.sync with
  | some e => emit (.settled c e.slot)
  | none => return

/-- Replaces the state of a connection by one that has been told to stop and whose pending requests
have been settled, and tells everybody. -/
def sweep (c : Nat) (after : Connection) : Sim Unit := do
  let before := (← link c).core
  setConnection c after
  emit (.stopped c)
  before.inflight.entries.forM fun e => emit (.settled c e.slot)

/-- A connection breaks. -/
def failConnection (c : Nat) (cause : Fault) : Sim Unit := do
  let core := (← link c).core
  if core.stage.isEnding then return else sweep c (core.fail cause)

/-- Tells the senders at the front of the line that they may have room. -/
def emitRoom (c : Nat) : Sim Unit := do
  let core := (← link c).core
  let front :=
    if core.outboxClosed then core.waiting
    else core.waiting.take (Connection.outboxCapacity - core.outbox.length)
  front.forM fun ticket => emit (.room c ticket)

/-! ### One connection -/

/-- A request on a connection. -/
structure Sending where
  connection : Nat
  sync : UInt64
  slot : Nat
  ticket : Nat
  /-- the frame, until it is in the outbox -/
  frame : Option Octets
  timeout : Duration
  deadline : Timer

namespace Sending

/-- The request leaves the connection without a trace. -/
def cancel (s : Sending) : Sim Unit := do
  let core := (← link s.connection).core
  setConnection s.connection (((core.cancel s.sync).2.leaveLine s.ticket).forget s.slot)
  emitRoom s.connection

/-- The request is ready to be sent, unless the connection is out of service or the request too
large. -/
def start (c : Nat) (request : Request) (standard : Duration) : Sim (Except Fault Sending) := do
  let core := (← link c).core
  match core.readyFault? with
  | some fault => return .error fault
  | none =>
    let timeout := request.timeout.getD standard
    let deadline ← timerAfter timeout.millisUp
    let (sync, slot, core) := core.register request.code deadline.due
    let ticket ← newTicket
    setConnection c (core.joinLine ticket)
    let s : Sending := ⟨c, sync, slot, ticket, none, timeout, deadline⟩
    match core.readyFault?, Frame.encode ⟨sync, .request request.code, none⟩ request.body with
    | some fault, _ => s.cancel; return .error fault
    | none, .error e => s.cancel; return .error (.framing e.message)
    | none, .ok frame => return .ok { s with frame := some frame }

/-- Puts the frame into the outbox if there is room. -/
def enqueue (s : Sending) (frame : Octets) : Sim Sending := do
  let core := (← link s.connection).core
  if core.hasRoom s.ticket then
    setConnection s.connection (core.enqueue s.ticket frame)
    emit (.frame s.connection)
    return { s with frame := none }
  else return s

/-- What a settled slot holds. -/
def settled? (core : Connection) (slot : Nat) : Option Outcome :=
  match core.inflight.slot slot with
  | .waiting => none
  | .delivered outcome => some outcome
  | .severed | .forgotten => some (.error core.closedFault)

/-- The outcome if there is one by now: the outbox may have been closed, or the slot be settled. -/
def outcome? (s : Sending) (core : Connection) : Option Outcome :=
  if s.frame.isSome then if core.outboxClosed then some (.error core.closedFault) else none
  else settled? core s.slot

/-- The deadline has come: whoever removes the entry decides on the outcome. -/
def expire (s : Sending) : Sim Outcome := do
  let core := (← link s.connection).core
  let timeout : Outcome := .error (.requestTimeout s.sync s.timeout.millis)
  s.cancel
  return if (core.cancel s.sync).1 then timeout else (settled? core s.slot).getD timeout

/-- Ends with the outcome if there is one, or waits for it. -/
def await (s : Sending) : Sim (Progress Sending Outcome) := do
  match s.outcome? (← link s.connection).core with
  | some outcome => s.cancel; return .done outcome
  | none =>
    match ← s.deadline.check with
    | none => return .done (← s.expire)
    | some deadline =>
      let event : Event :=
        if s.frame.isSome then .room s.connection s.ticket else .settled s.connection s.slot
      return .wait { s with deadline } [event, .timer deadline]

/-- The request goes on. -/
def poll (s : Sending) : Sim (Progress Sending Outcome) := do
  match s.frame with
  | some frame => (← s.enqueue frame).await
  | none => s.await

end Sending

/-! ### Picking a connection -/

/-- Where a request is sent. -/
inductive Route where
  | connection (c : Nat)
  | pool (p : Nat)
  | cluster
  deriving Repr, DecidableEq

/-- The shard of every caller: all run on one thread. -/
def shard : Nat := 0

/-- The number by which a random choice goes. -/
def draw : Nat := 0

/-- What a strategy goes by besides the number of candidates: the shard of the caller, and the
number by which a random choice goes. -/
structure Lot where
  shard : Nat := Simulation.shard
  draw : Nat := Simulation.draw

/-- Picks a connection of a pool. -/
def acquire (p : Nat) (lot : Lot := {}) : Sim (Except Fault Nat) := do
  let (picked, core) := (← depot p).core.acquire (← get).stage lot.shard lot.draw
  setPool p core
  return picked

/-- Has a pool a connection in service? -/
def World.hasReady (w : World) (p : Nat) : Bool :=
  !((w.depots.getD p default).core.ready w.stage).isEmpty

/-- Picks a pool of the cluster. -/
def selectPool (lot : Lot := {}) : Sim (Except Fault Nat) := do
  let w ← get
  match w.cluster with
  | none => return .error (.noAvailableConnection "no cluster")
  | some cluster =>
    let (picked, core) := cluster.core.select w.hasReady lot.shard lot.draw
    set { w with cluster := some { cluster with core } }
    return picked

/-- Picks a connection, and the pool that it was picked from if that was picked too.  The choice
among pools goes by a lot of its own. -/
def pick (route : Route) (amongPools : Lot := {}) (lot : Lot := {}) :
    Sim (Except Fault (Nat × Option Nat)) := do
  match route with
  | .connection c => return .ok (c, none)
  | .pool p => return (← acquire p lot).map fun c => (c, none)
  | .cluster =>
    match ← selectPool amongPools with
    | .error fault => return .error fault
    | .ok p => return (← acquire p lot).map fun c => (c, some p)

/-! ### Attempts -/

/-- What a dispatched request is doing. -/
inductive Dispatching.Phase where
  /-- an attempt is under way, on a connection of the pool if one was picked -/
  | sending (pool : Option Nat) (s : Sending)
  /-- a pause before the next attempt -/
  | pausing (t : Timer)

/-- A request that is sent as often as a policy allows. -/
structure Dispatching where
  route : Route
  request : Request
  policy : Retry.Policy
  /-- the time limit of a request without one of its own -/
  standard : Duration
  /-- the number of the present attempt, the first one being number 1 -/
  attempt : UInt32
  phase : Dispatching.Phase

namespace Dispatching

/-- What a dispatched request comes to. -/
abbrev Step := Sim (Progress Dispatching Outcome)

variable (route : Route) (request : Request) (policy : Retry.Policy) (standard : Duration)

/-- A first step of an attempt: it may have its outcome at once. -/
def launch (amongPools : Lot := {}) (lot : Lot := {}) :
    Sim (Progress Dispatching.Phase Outcome) := do
  match ← pick route amongPools lot with
  | .error fault => return .done (.error fault)
  | .ok (c, pool) =>
    match ← Sending.start c request standard with
    | .error fault => return .done (.error fault)
    | .ok s => Progress.andThen s.poll (.sending pool) (fun outcome => return .done outcome)

mutual

/-- Makes the attempt with the number, and more as the policy allows, but at most `fuel` more. -/
def attemptFrom (fuel : Nat) (number : UInt32) : Step := do
  match ← launch route request standard with
  | .wait phase events => return .wait ⟨route, request, policy, standard, number, phase⟩ events
  | .done outcome => settle fuel number outcome
termination_by (fuel, 1)

/-- Ends with the outcome of an attempt, or pauses and tries again. -/
def settle (fuel : Nat) (number : UInt32) (outcome : Outcome) : Step := do
  match outcome with
  | .ok body => return .done (.ok body)
  | .error fault =>
    match policy.pauseAfter? fault number, fuel with
    | some pause, fuel + 1 =>
      match ← (← timerAfter pause.millisUp).check with
      | none => attemptFrom fuel (number + 1)
      | some t =>
        return .wait ⟨route, request, policy, standard, number, .pausing t⟩ [.timer t]
    | _, _ => return .done (.error fault)
termination_by (fuel, 0)

end

/-- How many attempts may follow the one with the number. -/
def left (number : UInt32) : Nat := policy.maxAttempts - number.toNat

/-- The request is dispatched. -/
def start : Step := attemptFrom route request policy standard (left policy 1) 1

/-- The request goes on. -/
def poll (d : Dispatching) : Step := do
  match d.phase with
  | .pausing t =>
    match ← t.check with
    | some t => return .wait { d with phase := .pausing t } [.timer t]
    | none =>
      let left := left d.policy d.attempt - 1
      attemptFrom d.route d.request d.policy d.standard left (d.attempt + 1)
  | .sending pool s =>
    Progress.andThen s.poll (fun s => { d with phase := .sending pool s }) fun outcome =>
      settle d.route d.request d.policy d.standard (left d.policy d.attempt) d.attempt outcome

/-- The caller goes away. -/
def cancel (d : Dispatching) : Sim Unit :=
  match d.phase with
  | .sending _ s => s.cancel
  | .pausing _ => return

end Dispatching

end Switchboard.Simulation
