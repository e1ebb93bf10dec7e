import Switchboard.Config
import Switchboard.Inflight
import Switchboard.Request
import Switchboard.Wire.Frame
import Switchboard.Wire.Greeting

/-!
# Connections

The state that the users of one connection share: how far its life has come, the requests in flight,
and the frames that wait to be written.  Every operation here is one indivisible step; senders, the
reader, the writer and whoever closes the connection interleave such steps.

## Main definitions

- `Stage` — how far the life of a connection has come
- `Connection` — the shared state
- `Connection.register`, `enqueue?`, `cancel` — the steps of a sender
- `Connection.complete`, `receive` — the steps of the reader
- `Connection.leave?` — the step out of service, which only one party makes
- `Connection.fail`, `beginClose?`, `finishClose` — the ends of a life
- `Handshake` — the checks before a connection is in service
-/

namespace Switchboard

open Wire

/-- How far the life of a connection has come. -/
inductive Stage where
  | connecting
  | handshaking
  | authenticating
  | ready
  | closing
  | closed
  | failed
  deriving Repr, DecidableEq, Inhabited

namespace Stage

/-- The name of a stage. -/
def name : Stage → String
  | .connecting => "Connecting"
  | .handshaking => "Handshaking"
  | .authenticating => "Authenticating"
  | .ready => "Ready"
  | .closing => "Closing"
  | .closed => "Closed"
  | .failed => "Failed"

/-- Is the life over? -/
def isTerminal (s : Stage) : Bool :=
  s = .closed || s = .failed

/-- Has somebody begun to end the life? -/
def isEnding (s : Stage) : Bool :=
  s = .closing || s.isTerminal

end Stage

/-- The state that the users of one connection share. -/
structure Connection where
  address : Address
  greeting : Greeting
  stage : Stage
  inflight : Inflight
  syncs : SyncIds
  /-- have the reader and the writer been told to stop? -/
  stopping : Bool
  /-- the frames that wait for the writer, oldest first -/
  outbox : List Octets
  /-- the senders that wait for room in the outbox, by ticket, the first in line first -/
  waiting : List Nat
  /-- has the writer let go of the outbox? -/
  outboxClosed : Bool
  deriving Inhabited

namespace Connection

/-- How many frames may wait for the writer. -/
def outboxCapacity : Nat := 1024

/-- A connection that has just come into service. -/
def opened (address : Address) (greeting : Greeting) (syncs : SyncIds) : Connection :=
  ⟨address, greeting, .ready, .empty, syncs, false, [], [], false⟩

/-- Is the connection in service? -/
def isReady (c : Connection) : Bool :=
  c.stage = .ready

/-- The fault of a request on a connection that was closed. -/
def closedFault (c : Connection) : Fault :=
  .connectionClosed c.address.display

/-- The fault of a request on a connection that is not in service. -/
def readyFault? (c : Connection) : Option Fault :=
  if c.isReady then none
  else some (.connectionClosed (c.address.display ++ " is " ++ c.stage.name))

/-! ### Senders -/

/-- Registers a request; gives its sync id and the index of its slot. -/
def register (c : Connection) (code : RequestType) (deadline : Nat) : UInt64 × Nat × Connection :=
  let (sync, slot, inflight, syncs) := c.inflight.register c.syncs code deadline
  (sync, slot, { c with inflight, syncs })

/-- Removes the entry of a request; says whether it was still pending. -/
def cancel (c : Connection) (sync : UInt64) : Bool × Connection :=
  let (removed, inflight) := c.inflight.cancel sync
  (removed, { c with inflight })

/-- Joins the line of senders. -/
def joinLine (c : Connection) (ticket : Nat) : Connection :=
  { c with waiting := c.waiting ++ [ticket] }

/-- Leaves the line of senders. -/
def leaveLine (c : Connection) (ticket : Nat) : Connection :=
  { c with waiting := c.waiting.filter (· ≠ ticket) }

/-- The waiter with the slot goes away. -/
def forget (c : Connection) (slot : Nat) : Connection :=
  { c with inflight := c.inflight.forget slot }

/-- May the sender with the ticket put a frame into the outbox? -/
def hasRoom (c : Connection) (ticket : Nat) : Bool :=
  !c.outboxClosed && c.waiting.head? = some ticket && c.outbox.length < outboxCapacity

/-- Puts a frame into the outbox. -/
def enqueue (c : Connection) (ticket : Nat) (frame : Octets) : Connection :=
  { c.leaveLine ticket with outbox := c.outbox ++ [frame] }

/-! ### The end of service -/

/-- Leaves the present stage for another, unless somebody has begun to end the life.  Of all who try
to end it only the first succeeds. -/
def leave? (c : Connection) (target : Stage) : Option Connection :=
  if c.stage.isEnding then none else some { c with stage := target }

theorem leave?_eq_none_iff {c : Connection} {target : Stage} :
    c.leave? target = none ↔ c.stage.isEnding = true := by
  simp [leave?]

theorem leave?_eq_some_iff {c c' : Connection} {target : Stage} :
    c.leave? target = some c' ↔ c.stage.isEnding = false ∧ { c with stage := target } = c' := by
  simp [leave?]

/-- Tells reader and writer to stop. -/
def stop (c : Connection) : Connection :=
  { c with stopping := true }

/-- Resolves every pending request with the fault. -/
def failAll (c : Connection) (fault : Fault) : Connection :=
  { c with inflight := (c.inflight.failAll fault).2 }

/-- The fault that a failure of the connection hands to each pending request. -/
def replicate (cause : Fault) : Fault :=
  match cause with
  | .framing detail => .framing detail
  | .transport detail => .transport detail
  | .timeout detail => .timeout detail
  | other => .transport other.message

/-- The connection broke: it leaves service, and every pending request fails. -/
def fail (c : Connection) (cause : Fault) : Connection :=
  match c.leave? .failed with
  | none => c
  | some c => c.stop.failAll (replicate cause)

theorem stage_fail {c : Connection} (h : c.stage.isEnding = false) (cause : Fault) :
    (c.fail cause).stage = .failed := by
  rw [fail, leave?_eq_some_iff.mpr ⟨h, rfl⟩]
  rfl

/-- The connection is closed: it leaves service, and every pending request is told so.  `none` when
there is nothing to do. -/
def beginClose? (c : Connection) : Option Connection :=
  (c.leave? .closing).map fun c => c.stop.failAll c.closedFault

theorem beginClose?_eq_none_iff {c : Connection} :
    c.beginClose? = none ↔ c.stage.isEnding = true := by
  rw [beginClose?, Option.map_eq_none_iff, leave?_eq_none_iff]

theorem stage_of_beginClose? {c c' : Connection} (h : c.beginClose? = some c') :
    c.stage.isEnding = false ∧ c'.stage = .closing := by
  obtain ⟨left, hleave, rfl⟩ := Option.map_eq_some_iff.mp h
  obtain ⟨hserves, rfl⟩ := leave?_eq_some_iff.mp hleave
  exact ⟨hserves, rfl⟩

/-- The writer has ended, and so has the connection. -/
def finishClose (c : Connection) : Connection :=
  { c with stage := .closed }

/-! ### The reader -/

/-- What a reply means to the request that it answers. -/
def replyOutcome (m : Message) : Outcome :=
  match m.header.code with
  | .error code => .error (Body.responseFault code m.body)
  | _ => .ok m.body

/-- Delivers a reply to the request with its sync id, if that is still pending. -/
def complete (c : Connection) (m : Message) : Connection :=
  { c with inflight := (c.inflight.resolve m.header.sync (replyOutcome m)).2 }

/-- Delivers the complete replies at the front of a buffer.  Gives the octets left, and the fault if
what follows is no frame. -/
def receive (c : Connection) (buffer : Octets) : Connection × Octets × Option Fault :=
  let drained := Frame.drain buffer
  (drained.messages.foldl (fun c m => c.complete m.1) c, drained.rest,
    drained.fault.map fun f => .framing f.message)

/-- The cause of failure when the server ends the stream. -/
def endOfStream (c : Connection) : Fault :=
  .transport (c.address.display ++ ": connection closed by server")

/-- The cause of failure when reading fails. -/
def readFailure (c : Connection) (fault : StreamFault) : Fault :=
  .ofStream fault ("reading from " ++ c.address.display)

/-- The cause of failure when writing fails. -/
def writeFailure (c : Connection) (fault : StreamFault) : Fault :=
  .ofStream fault ("writing to " ++ c.address.display)

/-- The fault of closing a connection whose writer broke down with a message. -/
def writerFault (c : Connection) (detail : String) : Fault :=
  .transport ("writer for " ++ c.address.display ++ " failed: task # panicked with message " ++
    Text.quoted detail)

/-! ### Text -/

/-- How many requests are pending. -/
def pendingCount (c : Connection) : Nat :=
  c.inflight.size

/-- The text of a connection. -/
def inspect (c : Connection) : String :=
  "Connection \x7b address: " ++ c.address.inspect ++ ", state: " ++ c.stage.name ++
    ", pending: " ++ toString c.pendingCount ++ " \x7d"

end Connection

namespace Handshake

/-- The greeting in the first octets that a server sends. -/
def greeting (data : Octets) : Except Fault Greeting :=
  (Greeting.parse data).mapError fun f => .handshake f.message

/-- Reads on towards a complete greeting: all octets of it that have been read, and those left
unread, given the ones that have arrived. -/
def fill (read arrived : Octets) : Octets × Octets :=
  let missing := Greeting.size - read.length
  (read ++ arrived.take missing, arrived.drop missing)

/-- The fault when no greeting arrives in time. -/
def lateGreeting (limit : Duration) : Fault :=
  .handshake ("no greeting within " ++ toString limit.millis ++ "ms")

/-- The fault when the stream fails before the greeting is complete. -/
def greetingFailure (fault : StreamFault) : Fault :=
  .ofStream fault "reading greeting"

/-- The fault of a stream that ends too early. -/
def earlyEnd : StreamFault := ⟨.unexpectedEof, "early eof"⟩

/-- The frame that asks for authentication under the sync id. -/
def request (c : Credentials) (g : Greeting) (sync : UInt64) : Except Fault Octets := do
  let scramble ← c.cipher.scramble c.password g.salt
  let body := Body.auth c.user c.cipher.method scramble
  (Frame.encode ⟨sync, .request .auth, none⟩ body).mapError fun f => .framing f.message

/-- The fault when the request for authentication cannot be written. -/
def requestFailure (fault : StreamFault) : Fault :=
  .ofStream fault "sending auth request"

/-- The fault when no reply arrives in time. -/
def lateReply (limit : Duration) : Fault :=
  .handshake ("no auth reply within " ++ toString limit.millis ++ "ms")

/-- The fault when the stream fails before the reply is complete. -/
def replyFailure (fault : StreamFault) : Fault :=
  .ofStream fault "reading auth reply"

/-- The fault when the server ends the stream before the reply. -/
def noReply : Fault :=
  .handshake "server closed the connection during authentication"

/-- The first frame of a buffer and the octets behind it, or `none` while it is incomplete. -/
def firstFrame (buffer : Octets) : Except Fault (Option (Message × Octets)) :=
  match Frame.decode buffer with
  | .error f => .error (.framing f.message)
  | .ok none => .ok none
  | .ok (some (m, used)) => .ok (some (m, buffer.drop used))

/-- What the reply to the request for authentication says; `none` when the user is accepted. -/
def replyFault? (m : Message) (sync : UInt64) : Option Fault :=
  if m.header.sync ≠ sync then
    some (.handshake ("auth reply carries sync " ++ toString m.header.sync.toNat ++ ", expected " ++
      toString sync.toNat))
  else
    match m.header.code with
    | .ok => none
    | .error _ => some (.authentication ((Body.errorText? m.body).getD "unknown error"))
    | code => some (.handshake ("unexpected auth reply code " ++ code.inspect))

end Handshake

end Switchboard
