import Mathlib.Logic.Function.Basic
import Switchboard.Simulation.Sending
import Switchboard.Proofs.Inflight.Table

/-!
# The steps of a connection in service

Senders, the reader, the writer and whoever ends the connection, one indivisible step at a time.
Delivering an outcome takes two steps: the entry is taken, and later its slot is settled.  In
between any other party may go on.

## Main definitions

- `Interleaving.Sender`, `Interleaving.Ender` — how far a party has come
- `Interleaving.State` — the connection with all its parties
- `Interleaving.Step` — what a party may do next
- `Interleaving.Run` — the steps of all parties in any order
-/

namespace Switchboard

namespace Inflight

/-- The table without the entry under the id.  Its slot stays as it is. -/
def without (t : Inflight) (sync : UInt64) : Inflight :=
  { t with entries := t.entries.filter fun e => e.sync ≠ sync }

/-- The table after a slot has been settled. -/
def settled (t : Inflight) (slot : ℕ) (new : Slot) : Inflight :=
  { t with slots := settle t.slots slot new }

/-- Removing is taking the entry and settling its slot. -/
theorem remove_of_find? {t : Inflight} {sync : UInt64} {e : Pending} (h : t.find? sync = some e)
    (new : Slot) : t.remove sync new = (true, (t.without sync).settled e.slot new) := by
  simp only [remove, h, without, settled]

end Inflight

/-- The connection with other requests in flight. -/
def Connection.withInflight (c : Connection) (t : Inflight) : Connection :=
  { c with inflight := t }

namespace Interleaving

open Wire

/-! ### Senders -/

/-- How far a call has come before it has a result. -/
inductive Progress where
  /-- its entry is in the table -/
  | registered
  /-- the connection was still in service after that -/
  | cleared
  /-- its frame waits for room in the outbox -/
  | queued (frame : Octets)
  /-- the outbox has accepted its frame -/
  | accepted

/-- A call that has been registered. -/
structure Call where
  sync : UInt64
  slot : ℕ
  request : Request
  timeout : Duration
  progress : Progress

/-- The call is suspended, so its deadline may come or its caller go away. -/
def Call.Awaits (call : Call) : Prop :=
  match call.progress with
  | .queued _ | .accepted => True
  | _ => False

/-- How far a sender has come with its one call.  A result is `none` when its caller went away. -/
inductive Sender where
  | idle
  /-- the connection was in service -/
  | checked (request : Request) (timeout : Duration)
  /-- the connection was not in service -/
  | refused (fault : Fault)
  | active (call : Call)
  /-- the deadline came, but somebody else had taken the entry -/
  | overdue (call : Call)
  /-- the result is certain, but the entry is still guarded -/
  | leaving (call : Call) (result : Option Outcome)
  | gone (call : Call) (result : Option Outcome)

/-- The call of a sender that has registered one. -/
def Sender.call? : Sender → Option Call
  | .active call | .overdue call | .leaving call _ | .gone call _ => some call
  | _ => none

/-- What a sender does. -/
inductive SenderAction where
  | check (request : Request) (timeout : Duration)
  | register (deadline : ℕ)
  | recheck
  | encode
  | enqueue
  | refuse
  | receive
  | expire
  | abandon
  | release

/-- What a sender leaves behind: its guard cancels the entry, and its slot is given up. -/
def release (c : Connection) (k : ℕ) (call : Call) : Connection :=
  let c := (c.cancel call.sync).2.leaveLine k
  c.withInflight (c.inflight.forget call.slot)

/-- The steps of the sender with the number `k`. -/
inductive Sender.Step (c : Connection) (k : ℕ) :
    Sender → SenderAction → Connection → Sender → Prop
  | checked {request timeout} (ready : c.readyFault? = none) :
    Step c k .idle (.check request timeout) c (.checked request timeout)
  | refused {request timeout fault} (ready : c.readyFault? = some fault) :
    Step c k .idle (.check request timeout) c (.refused fault)
  | registered {request timeout deadline} :
    Step c k (.checked request timeout) (.register deadline)
      (c.register request.code deadline).2.2
      (.active ⟨(c.register request.code deadline).1, (c.register request.code deadline).2.1,
        request, timeout, .registered⟩)
  | cleared {call} (progress : call.progress = .registered) (ready : c.readyFault? = none) :
    Step c k (.active call) .recheck c (.active { call with progress := .cleared })
  | turnedAway {call fault} (progress : call.progress = .registered)
    (ready : c.readyFault? = some fault) :
    Step c k (.active call) .recheck c (.leaving call (some (.error fault)))
  | queued {call frame} (progress : call.progress = .cleared)
    (encoded : Frame.encode ⟨call.sync, .request call.request.code, none⟩ call.request.body =
      .ok frame) :
    Step c k (.active call) .encode (c.joinLine k)
      (.active { call with progress := .queued frame })
  | oversized {call fault} (progress : call.progress = .cleared)
    (encoded : Frame.encode ⟨call.sync, .request call.request.code, none⟩ call.request.body =
      .error fault) :
    Step c k (.active call) .encode c (.leaving call (some (.error (.framing fault.message))))
  | accepted {call frame} (progress : call.progress = .queued frame) (room : c.hasRoom k = true) :
    Step c k (.active call) .enqueue (c.enqueue k frame)
      (.active { call with progress := .accepted })
  | shutOut {call frame} (progress : call.progress = .queued frame)
    (closed : c.outboxClosed = true) :
    Step c k (.active call) .refuse c (.leaving call (some (.error c.closedFault)))
  | received {call outcome} (progress : call.progress = .accepted)
    (settled : Simulation.Sending.settled? c call.slot = some outcome) :
    Step c k (.active call) .receive c (.leaving call (some outcome))
  | expired {call} (awaits : call.Awaits) (removed : (c.cancel call.sync).1 = true) :
    Step c k (.active call) .expire ((c.cancel call.sync).2.leaveLine k)
      (.leaving call (some (.error (.requestTimeout call.sync call.timeout.millis))))
  | overdue {call} (awaits : call.Awaits) (removed : (c.cancel call.sync).1 = false) :
    Step c k (.active call) .expire ((c.cancel call.sync).2.leaveLine k) (.overdue call)
  | receivedLate {call outcome}
    (settled : Simulation.Sending.settled? c call.slot = some outcome) :
    Step c k (.overdue call) .receive c (.leaving call (some outcome))
  | abandoned {call} (awaits : call.Awaits) :
    Step c k (.active call) .abandon c (.leaving call none)
  | abandonedLate {call} :
    Step c k (.overdue call) .abandon c (.leaving call none)
  | released {call result} :
    Step c k (.leaving call result) .release (release c k call) (.gone call result)

/-! ### The reader and the writer -/

/-- What the reader does. -/
inductive ReaderAction where
  | take (m : Message)
  | put

/-- The steps of the reader.  Between them it holds at most one outcome, for the slot of an entry
that it has taken. -/
inductive ReaderStep (c : Connection) :
    Option (ℕ × Outcome) → ReaderAction → Connection → Option (ℕ × Outcome) → Prop
  | ignored {m} (find : c.inflight.find? m.header.sync = none) :
    ReaderStep c none (.take m) c none
  | taken {m e} (find : c.inflight.find? m.header.sync = some e) :
    ReaderStep c none (.take m) (c.withInflight (c.inflight.without m.header.sync))
      (some (e.slot, Connection.replyOutcome m))
  | put {slot outcome} :
    ReaderStep c (some (slot, outcome)) .put
      (c.withInflight (c.inflight.settled slot (.delivered outcome))) none

/-- What the writer does. -/
inductive WriterAction where
  | pop
  | hangUp

/-- The steps of the writer. -/
inductive WriterStep (c : Connection) : WriterAction → Connection → Prop
  | popped {frame rest} (outbox : c.outbox = frame :: rest) :
    WriterStep c .pop { c with outbox := rest }
  | hungUp : WriterStep c .hangUp { c with outboxClosed := true }

/-! ### Ending a connection -/

/-- Why a connection ends. -/
inductive Ending where
  | failure (cause : Fault)
  | closure

/-- The stage that the end leads to. -/
def Ending.target : Ending → Stage
  | .failure _ => .failed
  | .closure => .closing

/-- What a pending request is told. -/
def Ending.fault (c : Connection) : Ending → Fault
  | .failure cause => Connection.replicate cause
  | .closure => c.closedFault

/-- How far somebody has come who ends the connection. -/
inductive Ender where
  | idle
  /-- somebody else had begun to end it -/
  | lost
  | won (ending : Ending)
  /-- the ids left of those that were pending -/
  | sweeping (ending : Ending) (rest : List UInt64)
  /-- an entry has been taken, and its slot is to be settled -/
  | delivering (ending : Ending) (slot : ℕ) (outcome : Outcome) (rest : List UInt64)
  | finished

/-- The connection has left service by this party. -/
def Ender.Won : Ender → Prop
  | .idle | .lost => False
  | _ => True

/-- The ids that are still to be swept once the pending ones have been listed. -/
def Ender.rest? : Ender → Option (List UInt64)
  | .sweeping _ rest | .delivering _ _ _ rest => some rest
  | .finished => some []
  | _ => none

/-- The sweep is over. -/
def Ender.Swept : Ender → Prop
  | .sweeping _ [] | .finished => True
  | _ => False

/-- What somebody does who ends the connection. -/
inductive EnderAction where
  | begin (ending : Ending)
  | list
  | withdraw
  | deliver
  | finish

/-- The steps of somebody who ends the connection. -/
inductive Ender.Step (c : Connection) : Ender → EnderAction → Connection → Ender → Prop
  | won {ending c'} (leave : c.leave? ending.target = some c') :
    Step c .idle (.begin ending) c' (.won ending)
  | lost {ending} (leave : c.leave? ending.target = none) :
    Step c .idle (.begin ending) c .lost
  | listed {ending} :
    Step c (.won ending) .list c.stop (.sweeping ending c.inflight.syncs)
  | skipped {ending id rest} (find : c.inflight.find? id = none) :
    Step c (.sweeping ending (id :: rest)) .withdraw c (.sweeping ending rest)
  | taken {ending id rest e} (find : c.inflight.find? id = some e) :
    Step c (.sweeping ending (id :: rest)) .withdraw (c.withInflight (c.inflight.without id))
      (.delivering ending e.slot (.error (ending.fault c)) rest)
  | delivered {ending slot outcome rest} :
    Step c (.delivering ending slot outcome rest) .deliver
      (c.withInflight (c.inflight.settled slot (.delivered outcome))) (.sweeping ending rest)
  | finished : Step c (.sweeping .closure []) .finish c.finishClose .finished

/-! ### All parties -/

/-- The connection with all its parties, and what the reader holds. -/
structure State where
  link : Connection
  senders : ℕ → Sender
  enders : ℕ → Ender
  hand : Option (ℕ × Outcome)

namespace State

/-- The requests in flight. -/
abbrev table (s : State) : Inflight :=
  s.link.inflight

/-- A sender and the connection have moved on. -/
def setSender (s : State) (k : ℕ) (link : Connection) (x : Sender) : State :=
  { s with link, senders := Function.update s.senders k x }

/-- Somebody who ends the connection and the connection have moved on. -/
def setEnder (s : State) (j : ℕ) (link : Connection) (x : Ender) : State :=
  { s with link, enders := Function.update s.enders j x }

@[simp] theorem setSender_self (s : State) (k : ℕ) (link : Connection) (x : Sender) :
    (s.setSender k link x).senders k = x :=
  Function.update_self ..

@[simp] theorem setEnder_self (s : State) (j : ℕ) (link : Connection) (x : Ender) :
    (s.setEnder j link x).enders j = x :=
  Function.update_self ..

theorem setEnder_of_ne {j j' : ℕ} (h : j' ≠ j) (s : State) (link : Connection) (x : Ender) :
    (s.setEnder j link x).enders j' = s.enders j' :=
  Function.update_of_ne h ..

theorem setSender_setSender (s : State) (k : ℕ) (link link' : Connection) (x x' : Sender) :
    (s.setSender k link x).setSender k link' x' = s.setSender k link' x' := by
  simp only [setSender, Function.update_idem]

theorem setEnder_setEnder (s : State) (j : ℕ) (link link' : Connection) (x x' : Ender) :
    (s.setEnder j link x).setEnder j link' x' = s.setEnder j link' x' := by
  simp only [setEnder, Function.update_idem]

end State

/-- What a party does. -/
inductive Action where
  | sender (k : ℕ) (a : SenderAction)
  | reader (a : ReaderAction)
  | writer (a : WriterAction)
  | ender (j : ℕ) (a : EnderAction)

/-- One party takes a step. -/
inductive Step (s : State) : Action → State → Prop
  | sender {k a link x} (step : Sender.Step s.link k (s.senders k) a link x) :
    Step s (.sender k a) (s.setSender k link x)
  | reader {a link hand} (step : ReaderStep s.link s.hand a link hand) :
    Step s (.reader a) { s with link, hand }
  | writer {a link} (step : WriterStep s.link a link) :
    Step s (.writer a) { s with link }
  | ender {j a link x} (step : Ender.Step s.link (s.enders j) a link x) :
    Step s (.ender j a) (s.setEnder j link x)

/-- A step that has been taken. -/
structure Transition where
  before : State
  action : Action
  after : State

/-- The parties take steps in any order, from one state to another. -/
inductive Run (start : State) : List Transition → State → Prop
  | nil : Run start [] start
  | snoc {run s a s'} (init : Run start run s) (last : Step s a s') :
    Run start (run ++ [⟨s, a, s'⟩]) s'

/-- A connection that has just come into service, with parties that have done nothing. -/
def start (address : Address) (greeting : Greeting) (syncs : SyncIds) : State :=
  ⟨.opened address greeting syncs, fun _ => .idle, fun _ => .idle, none⟩

theorem Step.of_sender {s : State} {k : ℕ} {x y : Sender} {a : SenderAction} {link : Connection}
    (h : s.senders k = x) (step : Sender.Step s.link k x a link y) :
    Step s (.sender k a) (s.setSender k link y) :=
  .sender (h ▸ step)

theorem Step.of_reader {s : State} {hand hand' : Option (ℕ × Outcome)} {a : ReaderAction}
    {link : Connection} (h : s.hand = hand) (step : ReaderStep s.link hand a link hand') :
    Step s (.reader a) { s with link, hand := hand' } :=
  .reader (h ▸ step)

theorem Step.of_ender {s : State} {j : ℕ} {x y : Ender} {a : EnderAction} {link : Connection}
    (h : s.enders j = x) (step : Ender.Step s.link x a link y) :
    Step s (.ender j a) (s.setEnder j link y) :=
  .ender (h ▸ step)

theorem Run.single {s s' : State} {a : Action} (h : Step s a s') : Run s [⟨s, a, s'⟩] s' :=
  Run.nil.snoc h

end Interleaving

end Switchboard
