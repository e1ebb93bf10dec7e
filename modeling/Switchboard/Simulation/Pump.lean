import Switchboard.Simulation.Sending

/-!
# Readers and writers

The two activities that a connection in service owns.  The reader delivers replies until the stream
ends or breaks; the writer empties the outbox into the stream.  Both end when the connection is told
to stop.

## Main definitions

- `Reader.poll` — the reader goes on; its state is what it has read of an incomplete frame
- `Writer.poll` — the writer goes on; its state is what is left of the frame that it writes
- `Closing` — waiting for a connection's writer after having told it to stop
-/

namespace Switchboard.Simulation

open Wire

namespace Reader

/-- Delivers the complete replies of a buffer; gives the octets left, or the fault of a connection
that sent no frame. -/
def drain (c : Nat) (buffer : Octets) : Sim (Except Fault Octets) := do
  let drained := Frame.drain buffer
  drained.messages.forM fun m => completeReply c m.1
  match drained.fault with
  | some f => return .error (.framing f.message)
  | none => return .ok drained.rest

/-- The reader ends. -/
def finish (c : Nat) : Sim (Progress Octets Unit) := do
  letGo (← link c).pipe
  return .done ()

/-- The reader ends because the connection broke. -/
def abort (c : Nat) (cause : Fault) : Sim (Progress Octets Unit) := do
  failConnection c cause
  finish c

/-- The reader goes on after it has read what had arrived. -/
def read (c : Nat) (buffer : Octets) : Sim (Progress Octets Unit) := do
  let l ← link c
  match ((← get).pipe? l.pipe).bind Pipe.readEnd? with
  | some (.failed fault) => abort c (l.core.readFailure fault)
  | some .ended => abort c l.core.endOfStream
  | none => return .wait buffer [.stopped c, .readable l.pipe]

/-- The reader goes on. -/
def poll (c : Nat) (buffer : Octets) : Sim (Progress Octets Unit) := do
  match ← drain c buffer with
  | .error cause => abort c cause
  | .ok buffer =>
    let l ← link c
    if l.core.stopping then finish c
    else
      match ← drain c (buffer ++ (← withPipe l.pipe Pipe.takeAll)) with
      | .error cause => abort c cause
      | .ok buffer => read c buffer

end Reader

namespace Writer

/-- The writer ends. -/
def finish (c : Nat) (ending : WriterEnd) : Sim (Progress Octets Unit) := do
  let l ← link c
  setLink c { l with writer := some ending, core := { l.core with outboxClosed := true } }
  emitRoom c
  letGo l.pipe
  emit (.written c)
  return .done ()

/-- The writer ends after it has announced that it writes no more. -/
def shutDown (c : Nat) : Sim (Progress Octets Unit) := do
  withPipe (← link c).pipe fun p => ((), p.shutDown)
  finish c .done

/-- Writes what is left of a frame, or begins with the next one, in at most so many steps. -/
def run (c : Nat) : Nat → Octets → Sim (Progress Octets Unit)
  | 0, rest => return .wait rest [.stopped c, .frame c]
  | fuel + 1, [] => do
    let core := (← link c).core
    if core.stopping then shutDown c
    else
      match core.outbox with
      | [] => return .wait [] [.stopped c, .frame c]
      | frame :: outbox =>
        setConnection c { core with outbox }
        emitRoom c
        run c fuel frame
  | fuel + 1, rest => do
    let l ← link c
    if l.core.stopping then finish c .done
    else
      match ← writePipe l.pipe rest with
      | .taken [] => run c fuel []
      | .taken rest => return .wait rest [.stopped c, .writable l.pipe]
      | .failed fault =>
        failConnection c (l.core.writeFailure fault)
        shutDown c
      | .broken => finish c (.brokenDown Pipe.breakdown)

/-- The writer goes on.  Each frame in the outbox takes two steps, and so do the frame before and
the wait behind them. -/
def poll (c : Nat) (rest : Octets) : Sim (Progress Octets Unit) := do
  run c (2 * (← link c).core.outbox.length + 2) rest

end Writer

/-! ### Closing a connection -/

namespace Closing

/-- Waits until the writer has ended. -/
def poll (c : Nat) : Sim (Progress Nat (Except Fault Unit)) := do
  let l ← link c
  match l.writer with
  | none => return .wait c [.written c]
  | some ending =>
    setConnection c l.core.finishClose
    match ending with
    | .done => return .done (.ok ())
    | .brokenDown detail => return .done (.error (l.core.writerFault detail))

/-- Closes a connection unless somebody has begun to. -/
def start (c : Nat) : Sim (Progress Nat (Except Fault Unit)) := do
  match (← link c).core.beginClose? with
  | none => return .done (.ok ())
  | some core =>
    sweep c core
    poll c

end Closing

end Switchboard.Simulation
