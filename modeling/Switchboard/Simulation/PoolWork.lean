import Switchboard.Simulation.Attempt
import Switchboard.Simulation.Pump

/-!
# Work on pools

Opening the connections that a pool lacks, closing those it has, and waiting for requests in flight
before that.  Opening and closing exclude each other.

## Main definitions

- `Replenishing` — connections that a pool lacks are opened
- `PoolOpening` — a pool comes to be
- `PoolClosing` — the connections of a pool are closed
- `Draining` — a pool is closed once its requests are done
- `Maintenance` — lost connections are replaced from time to time
-/

namespace Switchboard.Simulation

/-! ### Opening connections -/

/-- How far the opening of a pool's missing connections has come. -/
inductive Replenishing where
  /-- it waits for the lock -/
  | queued (ticket : Nat)
  /-- the attempts are under way -/
  | opening (ticket : Nat) (attempts : List (Child Attempt (Except Fault Nat)))

namespace Replenishing

/-- What the opening of missing connections comes to: how many were opened. -/
abbrev Step := Sim (Progress Replenishing Nat)

variable (p : Nat)

/-- Waits for all attempts, then takes in what they opened. -/
def await (ticket : Nat) (attempts : List (Child Attempt (Except Fault Nat))) : Step :=
  Progress.andThen (Child.join Attempt.poll attempts) (.opening ticket) fun results => do
    let opened := results.filterMap Except.toOption
    setPool p ((← depot p).core.install (← get).stage opened)
    withdrawLock (.pool p) ticket
    return .done opened.length

/-- Begins the attempts that are needed. -/
def launch (ticket : Nat) : Step := do
  let pool := (← depot p).core
  if pool.stopping then
    withdrawLock (.pool p) ticket
    return .done 0
  else
    let attempts ← (List.range (pool.missing (← get).stage)).mapM fun _ =>
      return Child.running (← Attempt.start pool.address pool.config)
    await p ticket attempts

/-- The opening goes on. -/
def poll : Replenishing → Step
  | .queued ticket => do
    if ← holdsLock (.pool p) ticket then launch p ticket
    else return .wait (.queued ticket) [.granted (.pool p) ticket]
  | .opening ticket attempts => await p ticket attempts

/-- The opening begins. -/
def start : Step := do
  poll p (.queued (← requestLock (.pool p)))

/-- The opening is given up. -/
def cancel (r : Replenishing) : Sim Unit := do
  match r with
  | .queued ticket => withdrawLock (.pool p) ticket
  | .opening ticket attempts =>
    (attempts.filterMap Child.running?).forM Attempt.cancel
    withdrawLock (.pool p) ticket

/-- The connections that have been opened and not yet been taken in. -/
def connections : Replenishing → List Nat
  | .queued _ => []
  | .opening _ attempts => (attempts.filterMap Child.ended?).filterMap Except.toOption

end Replenishing

/-- A pool that comes to be. -/
structure PoolOpening where
  pool : Nat
  work : Replenishing

namespace PoolOpening

/-- What opening a pool comes to: its number. -/
abbrev Step := Sim (Progress PoolOpening (Except Fault Nat))

/-- The pool is there once its connections have been opened. -/
def finish (p : Nat) (work : Replenishing.Step) : Step :=
  Progress.andThen work (⟨p, ·⟩) fun _ => do
    spawn (.maintenance p)
    return .done (.ok p)

/-- A pool is opened. -/
def start (address : Address) (config : ClientConfig) : Step := do
  match config.poolFault? with
  | some fault => return .done (.error fault)
  | none =>
    let p := (← get).depots.size
    modify fun w => { w with depots := w.depots.push { core := .empty address config } }
    finish p (Replenishing.start p)

theorem start_of_valid {config : ClientConfig} (h : config.poolFault? = none) (a : Address)
    (w : World) :
    (start a config).run w = (finish w.depots.size (Replenishing.start w.depots.size)).run
      { w with depots := w.depots.push { core := .empty a config } } := by
  unfold start
  rw [h]
  rfl

theorem start_of_invalid {config : ClientConfig} {fault : Fault}
    (h : config.poolFault? = some fault) (a : Address) (w : World) :
    (start a config).run w = (.done (.error fault), w) := by
  unfold start
  rw [h]
  rfl

/-- The opening goes on. -/
def poll (o : PoolOpening) : Step := finish o.pool (o.work.poll o.pool)

/-- The opening is given up. -/
def cancel (o : PoolOpening) : Sim Unit := o.work.cancel o.pool

end PoolOpening

/-! ### Closing connections -/

/-- How far the closing of a pool has come. -/
inductive PoolClosing where
  /-- it waits for the lock -/
  | queued (ticket : Nat)
  /-- the connections are being closed -/
  | closing (ticket : Nat) (connections : List Nat) (work : List (Child Nat (Except Fault Unit)))

namespace PoolClosing

/-- What closing a pool comes to. -/
abbrev Step := Sim (Progress PoolClosing (Except Fault Unit))

variable (p : Nat)

/-- Waits until all connections have been closed. -/
def await (ticket : Nat) (connections : List Nat) (work : List (Child Nat (Except Fault Unit))) :
    Step :=
  Progress.andThen (Child.join Closing.poll work) (.closing ticket connections) fun results => do
    withdrawLock (.pool p) ticket
    let faults := results.filterMap fun r =>
      match r with
      | .error fault => some fault
      | .ok () => none
    return .done (Pool.closeResult faults)

/-- Begins to close each of the connections. -/
def closeEach : List Nat → Sim (List (Child Nat (Except Fault Unit)))
  | [] => return []
  | c :: rest => do
    let child : Child Nat (Except Fault Unit) ← do
      match ← Closing.start c with
      | .done result => pure (.ended result)
      | .wait c _ => pure (.running c)
    return child :: (← closeEach rest)

/-- The closing goes on. -/
def poll : PoolClosing → Step
  | .queued ticket => do
    if ← holdsLock (.pool p) ticket then
      let (connections, pool) := (← depot p).core.takeAll
      setPool p pool
      await p ticket connections (← closeEach connections)
    else return .wait (.queued ticket) [.granted (.pool p) ticket]
  | .closing ticket connections work => await p ticket connections work

/-- Closes a pool unless somebody has begun to. -/
def start : Step := do
  match (← depot p).core.beginClose? with
  | none => return .done (.ok ())
  | some pool =>
    setPool p pool
    emit (.poolStopped p)
    poll p (.queued (← requestLock (.pool p)))

/-- The closing is given up. -/
def cancel : PoolClosing → Sim Unit
  | .queued ticket | .closing ticket .. => withdrawLock (.pool p) ticket

/-- The connections that have been taken out of the pool. -/
def connections : PoolClosing → List Nat
  | .queued _ => []
  | .closing _ connections _ => connections

end PoolClosing

/-! ### Waiting for requests in flight -/

/-- The requests in flight on the connections of a pool. -/
def World.inFlight (w : World) (p : Nat) : Nat :=
  (w.depots.getD p default).core.members.foldl
    (fun n c => n + (w.links.getD c default).core.pendingCount) 0

/-- The latest deadline of the requests in flight on the connections of a pool. -/
def World.latestDeadline (w : World) (p : Nat) : Option Nat :=
  ((w.depots.getD p default).core.members.filterMap fun c =>
    (w.links.getD c default).core.inflight.latestDeadline).max?

/-- How far the closing of a pool whose requests are waited for has come. -/
inductive Draining where
  /-- it waits before it looks for requests in flight again; `floor` is when it may stop waiting -/
  | sleeping (floor : Nat) (t : Timer)
  | closing (work : PoolClosing)

namespace Draining

/-- What draining and closing a pool comes to. -/
abbrev Step := Sim (Progress Draining (Except Fault Unit))

variable (p : Nat)

/-- Looks for requests in flight.  Activities take turns, so this sees one world; on several threads
each connection would be looked at at a moment of its own. -/
def look (floor : Nat) : Step := do
  let w ← get
  if Pool.drainOver w.now floor (w.inFlight p) (w.latestDeadline p) then
    Progress.andThen (PoolClosing.start p) .closing fun result => return .done result
  else
    let t ← setTimer Pool.drainInterval
    return .wait (.sleeping floor t) [.timer t]

/-- The draining begins. -/
def start (limit : Duration) : Step := do
  look p ((← now) + limit.millisUp)

/-- The draining goes on. -/
def poll : Draining → Step
  | .sleeping floor t => do
    match ← t.check with
    | some t => return .wait (.sleeping floor t) [.timer t]
    | none => look p floor
  | .closing work => Progress.andThen (work.poll p) .closing fun result => return .done result

/-- The draining is given up. -/
def cancel : Draining → Sim Unit
  | .sleeping .. => return
  | .closing work => work.cancel p

/-- The connections that have been taken out of the pool. -/
def connections : Draining → List Nat
  | .sleeping .. => []
  | .closing work => work.connections

end Draining

/-! ### Maintenance -/

/-- How many milliseconds late a tick may be seen without delaying those that follow. -/
def tolerance : Nat := 5

/-- The next of a row of ticks a period apart, given that the one due at `due` was seen at `now`. -/
def nextTick (due now period : Nat) : Nat :=
  if due + tolerance < now then now + period else due + period

/-- How many ticks can be due at one moment: one that is too late, those within the tolerance, and
the one due now. -/
def mostTicks : Nat := tolerance + 3

/-- How far the maintenance of a pool has come. -/
inductive Maintenance where
  | starting
  /-- it waits for the next tick -/
  | waiting (t : Timer)
  /-- it replaces connections; the next tick is due at `due` -/
  | working (due : Nat) (work : Replenishing)

namespace Maintenance

/-- What maintenance comes to. -/
abbrev Step := Sim (Progress Maintenance Unit)

variable (p : Nat)

/-- Waits for ticks, of which at most `fuel` are due, and replaces connections at each. -/
def wait : Nat → Timer → Step
  | 0, t => return .wait (.waiting t) [.poolStopped p, .timer t]
  | fuel + 1, t => do
    let pool := (← depot p).core
    if pool.stopping then return .done ()
    else
      match ← t.check with
      | some t => return .wait (.waiting t) [.poolStopped p, .timer t]
      | none => do
        let due := nextTick t.due (← now) pool.config.reconnectInterval.millisUp
        Progress.andThen (Replenishing.start p) (.working due) fun _ => wait fuel ⟨due, none⟩

/-- The maintenance goes on. -/
def poll : Maintenance → Step
  | .starting => do
    wait p mostTicks (← timerAfter (← depot p).core.config.reconnectInterval.millisUp)
  | .waiting t => wait p mostTicks t
  | .working due r =>
    Progress.andThen (r.poll p) (.working due) fun _ => wait p mostTicks ⟨due, none⟩

/-- The maintenance is given up. -/
def cancel : Maintenance → Sim Unit
  | .working _ r => r.cancel p
  | _ => return

end Maintenance

end Switchboard.Simulation
