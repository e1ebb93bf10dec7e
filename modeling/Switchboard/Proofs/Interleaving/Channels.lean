import Switchboard.Proofs.FrameSequences
import Switchboard.Proofs.Interleaving.Invariant

/-!
# Connections with their streams

The parties of a connection once more, together with the octets that go in and out.  The stream in
brings any octets in any pieces; the reader takes frames off what has arrived.  The stream out
accepts any number of octets at a time; the writer goes on to the next frame when it has none left.

## Main definitions

- `Interleaving.Channel` — a connection, what has arrived, and what has been written
- `Interleaving.Channel.Step` — what a party may do next, with what it does to the octets
- `Interleaving.Channel.Run` — such steps in any order

## Main statements

- `Interleaving.Channel.Run.exists_run` — beneath it is a run of the connection

## Design notes

`received`, `accepted` and `written` are a record of what has happened, which nobody reads.  A step
that changes no octets is a step of `Interleaving.Step` as it stands, so that all that has been
proved of those holds here.
-/

namespace Switchboard.Interleaving

open Wire

/-- A frame that the outbox has accepted, and the sender and the call that it came from. -/
structure Entered where
  sender : ℕ
  call : Call
  frame : Octets

/-- A connection with its parties and its streams. -/
structure Channel where
  state : State
  /-- the octets that the server has sent so far, after its greeting -/
  received : Octets
  /-- those of them that the reader has not understood yet -/
  unread : Octets
  /-- the frames that the outbox has accepted, in order -/
  entered : List Entered
  /-- what the writer has left of the frame that it writes -/
  rest : Octets
  /-- the octets that the stream has accepted so far -/
  written : Octets

namespace Channel

/-- The frames that the outbox has accepted, in order. -/
def frames (l : Channel) : List Octets :=
  l.entered.map (·.frame)

/-- The parties and what they share have moved on. -/
def moved (l : Channel) (s : State) : Channel :=
  { l with state := s }

/-- The outbox has accepted a frame. -/
def enter (l : Channel) (e : Entered) : Channel :=
  { l with entered := l.entered ++ [e] }

/-- Octets have arrived. -/
def arrive (l : Channel) (chunk : Octets) : Channel :=
  { l with received := l.received ++ chunk, unread := l.unread ++ chunk }

/-- The reader has understood so many octets. -/
def skip (l : Channel) (n : ℕ) : Channel :=
  { l with unread := l.unread.drop n }

/-- The writer has begun with a frame. -/
def load (l : Channel) (frame : Octets) : Channel :=
  { l with rest := frame }

/-- The stream has accepted so many octets of the frame, or all that are left. -/
def write (l : Channel) (count : ℕ) : Channel :=
  { l with rest := l.rest.drop count, written := l.written ++ l.rest.take count }

/-- One party takes a step. -/
inductive Step (l : Channel) : Channel → Prop
  /-- a sender goes on, but for putting its frame into the outbox -/
  | sender {k a s'} (other : a ≠ .enqueue) (step : Interleaving.Step l.state (.sender k a) s') :
    Step l (l.moved s')
  /-- the outbox accepts the frame of a sender -/
  | enters {k call frame s'} (sender : l.state.senders k = .active call)
    (progress : call.progress = .queued frame)
    (step : Interleaving.Step l.state (.sender k .enqueue) s') :
    Step l ((l.enter ⟨k, call, frame⟩).moved s')
  /-- somebody who ends the connection goes on -/
  | ender {j a s'} (step : Interleaving.Step l.state (.ender j a) s') : Step l (l.moved s')
  | arrives (chunk : Octets) : Step l (l.arrive chunk)
  /-- the reader takes the message in front, and the entry that it answers if there is one -/
  | understands {m n s'} (frame : Frame.decode l.unread = .ok (some (m, n)))
    (step : Interleaving.Step l.state (.reader (.take m)) s') : Step l ((l.skip n).moved s')
  /-- the reader settles the slot of the entry that it has taken -/
  | delivers {s'} (step : Interleaving.Step l.state (.reader .put) s') : Step l (l.moved s')
  /-- the writer, having written a frame, takes the next one out of the outbox -/
  | pops {frame outbox s'} (idle : l.rest = []) (working : l.state.link.outboxClosed = false)
    (outbox : l.state.link.outbox = frame :: outbox)
    (step : Interleaving.Step l.state (.writer .pop) s') : Step l ((l.load frame).moved s')
  | writes (count : ℕ) (working : l.state.link.outboxClosed = false) : Step l (l.write count)
  /-- the writer ends, with or without a part of a frame left -/
  | hangsUp {s'} (step : Interleaving.Step l.state (.writer .hangUp) s') : Step l (l.moved s')

/-- The parties take steps in any order, from one state to another. -/
inductive Run (start : Channel) : Channel → Prop
  | nil : Run start start
  | snoc {l l'} (init : Run start l) (last : Step l l') : Run start l'

/-- A connection that has just come into service.  Authentication may have left octets unread. -/
def start (address : Address) (greeting : Greeting) (syncs : SyncIds) (left : Octets) : Channel :=
  ⟨Interleaving.start address greeting syncs, left, left, [], [], []⟩

variable {address : Address} {greeting : Greeting} {syncs : SyncIds} {left : Octets}
  {l l' : Channel}

/-- A step of the channel leaves the connection alone or is one of its steps. -/
theorem Step.state (h : Step l l') :
    l'.state = l.state ∨ ∃ a, Interleaving.Step l.state a l'.state := by
  cases h with
  | arrives | writes => exact .inl rfl
  | sender _ step | enters _ _ step | ender step | understands _ step | delivers step
  | pops _ _ _ step | hangsUp step => exact .inr ⟨_, step⟩

/-- Beneath a run of the channel is a run of the connection. -/
theorem Run.exists_run (h : Run (start address greeting syncs left) l) :
    ∃ run, Interleaving.Run (Interleaving.start address greeting syncs) run l.state := by
  induction h with
  | nil => exact ⟨[], .nil⟩
  | snoc _ last ih =>
    obtain ⟨run, hrun⟩ := ih
    rcases last.state with heq | ⟨a, hstep⟩
    · rw [heq]
      exact ⟨run, hrun⟩
    · exact ⟨_, hrun.snoc hstep⟩

end Channel

end Switchboard.Interleaving
