import Switchboard.Simulation.World

/-!
# Attempts to open a connection

An attempt dials, reads the greeting, authenticates if there are credentials, and then hands the
stream over to a reader and a writer.  All of it together is bounded by a time limit, and so is
every wait for the server to say something.

## Main definitions

- `Attempt` — an attempt and how far it has come
- `Attempt.start`, `Attempt.poll`, `Attempt.cancel` — its steps
-/

namespace Switchboard.Simulation

open Wire

/-- How far an attempt has come. -/
inductive Attempt.Phase where
  /-- the network has not been asked yet -/
  | starting
  /-- the network takes its time -/
  | dialing (serial : Nat) (ending : DialEnd) (delay : Timer)
  /-- the network never answers -/
  | hanging
  /-- so much of the greeting has been read -/
  | greeting (serial : Nat) (read : Octets) (limit : Timer)
  /-- so much of the request for authentication is still to be written -/
  | requesting (serial : Nat) (greeting : Greeting) (rest : Octets)
  /-- so much has been read towards the reply -/
  | replying (serial : Nat) (greeting : Greeting) (buffer : Octets) (limit : Timer)

/-- An attempt to open a connection. -/
structure Attempt where
  address : Address
  config : ClientConfig
  limit : Timer
  phase : Attempt.Phase

namespace Attempt

/-- The stream that an attempt holds. -/
def Phase.stream? : Phase → Option Nat
  | .greeting serial .. | .requesting serial .. | .replying serial .. => some serial
  | _ => none

/-- An attempt begins. -/
def start (address : Address) (config : ClientConfig) : Sim Attempt :=
  return ⟨address, config, ← timerAfter config.connectTimeout.millisUp, .starting⟩

/-! ### The network -/

/-- The next of the attempts laid out for an address, and those that are left. -/
def nextDial (address : Address) : List (Address × List Dial) → Dial × List (Address × List Dial)
  | [] => ({}, [])
  | (other, dials) :: rest =>
    if other = address then
      match dials with
      | [] => ({}, (other, []) :: rest)
      | d :: more => (d, (other, more) :: rest)
    else
      let (d, rest) := nextDial address rest
      (d, (other, dials) :: rest)

/-- The fault of an address that nobody listens at. -/
def nobodyListens (address : Address) : Fault :=
  .transport ("Failed to connect to " ++ address.display ++ ": Connection refused (os error 111)")

/-- What the network has laid out for an attempt, and the network afterwards. -/
def dialNetwork (address : Address) (n : Network) : Dial × Network :=
  match n.servers with
  | none =>
    let (dial, dials) := nextDial address n.dials
    (dial, { n with dials })
  | some servers =>
    match servers.lookup address with
    | some server => ({ ending := .stream { inbound := server.greeting } false }, n)
    | none => ({ ending := .refused (nobodyListens address) }, n)

/-- Asks the network for a stream: gives the number of the attempt and what is to come of it. -/
def dial (address : Address) : Sim (Nat × Dial) :=
  modifyGet fun w =>
    let (dial, n) := dialNetwork address w.network
    let serial := n.serial + 1
    let network :=
      { n with
        serial
        attempts := (serial, address) :: n.attempts
        pipes := n.pipes.push none
        peers := if n.servers.isSome then (serial, address, []) :: n.peers else n.peers }
    ((serial, dial), { w with network })

/-- The octets with which a server greets that takes part in an attempt with the number. -/
def greetingOf (serial : Nat) : Octets :=
  Server.greet ("s" ++ toString serial) (List.replicate 20 serial.toUInt8)

/-- A stream comes to be. -/
def openPipe (serial : Nat) (pipe : Pipe) (greets : Bool) : Sim Unit :=
  let inbound := if greets then greetingOf serial ++ pipe.inbound else pipe.inbound
  setPipe serial { pipe with inbound }

/-! ### Steps -/

variable (address : Address) (config : ClientConfig)

/-- What the steps of an attempt come to. -/
abbrev Step := Sim (Progress Phase (Except Fault Nat))

/-- The attempt failed while it held a stream. -/
def abandon (serial : Nat) (fault : Fault) : Step := do
  letGo serial
  return .done (.error fault)

/-- The connection comes into service: its reader and writer begin. -/
def enter (serial : Nat) (greeting : Greeting) (syncs : SyncIds) (buffer : Octets) : Step := do
  let c := (← get).links.size
  withPipe serial fun p => ((), { p with holders := 2 })
  modify fun w =>
    { w with links := w.links.push ⟨.opened address greeting syncs, serial, none⟩ }
  spawn (.reader c buffer)
  spawn (.writer c)
  return .done (.ok c)

/-- The sync id of the request for authentication, and the ids after it. -/
def authSync : UInt64 × SyncIds := SyncIds.start.next

/-- Waits for the reply to the request for authentication. -/
def reply (serial : Nat) (greeting : Greeting) (buffer : Octets) (limit : Timer) : Step := do
  let buffer := buffer ++ (← withPipe serial Pipe.takeAll)
  match Handshake.firstFrame buffer with
  | .error fault => abandon serial fault
  | .ok (some (message, rest)) =>
    match Handshake.replyFault? message authSync.1 with
    | some fault => abandon serial fault
    | none => enter address serial greeting authSync.2 rest
  | .ok none =>
    match ((← get).pipe? serial).bind Pipe.readEnd? with
    | some (.failed fault) => abandon serial (Handshake.replyFailure fault)
    | some .ended => abandon serial Handshake.noReply
    | none =>
      match ← limit.check with
      | none => abandon serial (Handshake.lateReply config.readTimeout)
      | some limit =>
        return .wait (.replying serial greeting buffer limit) [.readable serial, .timer limit]

/-- Writes the request for authentication. -/
def request (serial : Nat) (greeting : Greeting) (rest : Octets) : Step := do
  match ← writePipe serial rest with
  | .taken [] => do
    reply address config serial greeting [] (← timerAfter config.readTimeout.millisUp)
  | .taken rest => return .wait (.requesting serial greeting rest) [.writable serial]
  | .failed fault => abandon serial (Handshake.requestFailure fault)
  | .broken => abandon serial (.transport Pipe.breakdown)

/-- Goes on after the greeting. -/
def greeted (serial : Nat) (greeting : Greeting) : Step := do
  match config.credentials with
  | none => enter address serial greeting .start []
  | some credentials =>
    match Handshake.request credentials greeting authSync.1 with
    | .error fault => abandon serial fault
    | .ok frame => request address config serial greeting frame

/-- Waits for the greeting. -/
def greet (serial : Nat) (read : Octets) (limit : Timer) : Step := do
  let read ← withPipe serial fun p =>
    let (read, inbound) := Handshake.fill read p.inbound
    (read, { p with inbound })
  if read.length = Greeting.size then
    match Handshake.greeting read with
    | .error fault => abandon serial fault
    | .ok greeting => greeted address config serial greeting
  else
    match ((← get).pipe? serial).bind Pipe.readEnd? with
    | some (.failed fault) => abandon serial (Handshake.greetingFailure fault)
    | some .ended => abandon serial (Handshake.greetingFailure Handshake.earlyEnd)
    | none =>
      match ← limit.check with
      | none => abandon serial (Handshake.lateGreeting config.readTimeout)
      | some limit => return .wait (.greeting serial read limit) [.readable serial, .timer limit]

/-- Waits for the network. -/
def await (serial : Nat) (ending : DialEnd) (delay : Timer) : Step := do
  match ← delay.check with
  | some delay => return .wait (.dialing serial ending delay) [.timer delay]
  | none =>
    match ending with
    | .hanging => return .wait .hanging []
    | .refused fault => return .done (.error fault)
    | .stream pipe greets => do
      openPipe serial pipe greets
      greet address config serial [] (← timerAfter config.readTimeout.millisUp)

/-- Goes on from a phase. -/
def advance : Phase → Step
  | .starting => do
    let (serial, d) ← dial address
    await address config serial d.ending (← timerAfter d.after)
  | .dialing serial ending delay => await address config serial ending delay
  | .hanging => return .wait .hanging []
  | .greeting serial read limit => greet address config serial read limit
  | .requesting serial greeting rest => request address config serial greeting rest
  | .replying serial greeting buffer limit => reply address config serial greeting buffer limit

/-- The attempt is given up. -/
def Phase.cancel (phase : Phase) : Sim Unit :=
  match phase.stream? with
  | some serial => letGo serial
  | none => return

/-- The attempt goes on: it ends with the number of a connection or with a fault. -/
def poll (a : Attempt) : Sim (Progress Attempt (Except Fault Nat)) := do
  match ← advance a.address a.config a.phase with
  | .done result => return .done result
  | .wait phase events =>
    match ← a.limit.check with
    | some limit => return .wait { a with phase, limit } (.timer limit :: events)
    | none =>
      phase.cancel
      return .done (.error (.connectTimeout a.address.display a.config.connectTimeout.millis))

/-- The attempt is given up. -/
def cancel (a : Attempt) : Sim Unit := a.phase.cancel

end Attempt

end Switchboard.Simulation
