import Switchboard.Proofs.Interleaving.Channels
import Switchboard.Simulation.Attempt

/-!
# The steps of a connection that comes into service

Opening a connection, one indivisible step at a time: the network is asked for a stream, the
greeting is read off it, and if there are credentials the server is asked to accept them.  Then the
connection is in service, with all its parties, and the reader goes on where the others have stopped
reading.  The server's octets arrive in any pieces, and whoever reads takes any piece of those that
have arrived.

## Main definitions

- `Establishing.Phase` — how far opening a connection has come
- `Establishing.State` — the connection, and what has become of the server's octets
- `Establishing.Advance` — what opening a connection may do next
- `Establishing.Step` — what may happen next, in service and before
- `Establishing.Run` — such steps in any order

## Design notes

Nobody but the one who opens the connection knows it before it is in service, so the steps of
senders, reader, writer and those who end it come after that.  `sent` and `heard` are a record of
what has happened, which nobody reads.
-/

namespace Switchboard.Establishing

open Wire Interleaving

/-- How far opening a connection has come. -/
inductive Phase where
  /-- the network has been asked for a stream -/
  | dialing
  /-- so much of the greeting has been read -/
  | greeting (read : Octets)
  /-- the server has introduced itself, and is to be asked to accept the credentials -/
  | challenged (g : Greeting)
  /-- so much of the request is still to be written -/
  | requesting (g : Greeting) (rest : Octets)
  /-- so much has been read towards the reply -/
  | replying (g : Greeting) (buffer : Octets)
  | opened
  /-- the server has said something that it should not, or cannot be asked -/
  | failed (fault : Fault)
  /-- there was more to be read than the server has said -/
  | starved
  /-- the network has failed, or whoever opened the connection has given up -/
  | severed

/-- The connection is still being opened. -/
def Phase.Underway : Phase → Prop
  | .dialing | .greeting _ | .challenged _ | .requesting .. | .replying .. => True
  | _ => False

/-- Somebody has the stream. -/
def Phase.Listens : Phase → Prop
  | .failed _ | .starved | .severed => False
  | _ => True

/-- The connection, and what has become of the server's octets. -/
structure State where
  phase : Phase
  /-- the octets that have arrived so far -/
  sent : Octets
  /-- those of them that nobody has read yet -/
  pending : Octets
  /-- the connection with its parties -/
  channel : Channel
  /-- the messages that the reader has taken, in order -/
  heard : List Message

namespace State

/-- How far the life of the connection has come. -/
def stage (s : State) : Stage :=
  s.channel.state.link.stage

/-- Octets arrive. -/
def arrive (s : State) (chunk : Octets) : State :=
  { s with sent := s.sent ++ chunk, pending := s.pending ++ chunk }

/-- Opening the connection has come so far. -/
def turn (s : State) (phase : Phase) : State :=
  { s with phase }

/-- So much has been read, and so much is left of what has arrived. -/
def read (s : State) (phase : Phase) (pending : Octets) : State :=
  { s with phase, pending }

/-- The connection is in another stage. -/
def store (s : State) (stage : Stage) : State :=
  { s with channel := s.channel.moved { s.channel.state with
      link := { s.channel.state.link with stage } } }

/-- The connection comes into service.  Octets that have been read too many are the reader's. -/
def enter (s : State) (address : Address) (g : Greeting) (syncs : SyncIds) (left : Octets) :
    State :=
  { s with phase := .opened, channel := .start address g syncs left }

/-- The connection in service and its parties have moved on. -/
def withChannel (s : State) (channel : Channel) : State :=
  { s with channel }

end State

variable (address : Address) (credentials : Option Credentials)

/-- What opening a connection may do next, with the octets that have arrived. -/
inductive Advance (s : State) : State → Prop
  | dialed (phase : s.phase = .dialing) : Advance s ((s.store .handshaking).turn (.greeting []))
  /-- at most so many octets are read -/
  | readsGreeting {read} (phase : s.phase = .greeting read) (partly : read.length < Greeting.size)
    (count : ℕ) (some : 0 < count) (arrived : s.pending ≠ []) :
    Advance s (s.read (.greeting (Handshake.fill read (s.pending.take count)).1)
      ((Handshake.fill read (s.pending.take count)).2 ++ s.pending.drop count))
  | unwelcome {read fault} (phase : s.phase = .greeting read) (whole : read.length = Greeting.size)
    (greeting : Handshake.greeting read = .error fault) : Advance s (s.turn (.failed fault))
  | welcome {read g} (phase : s.phase = .greeting read) (whole : read.length = Greeting.size)
    (greeting : Handshake.greeting read = .ok g) (guest : credentials = none) :
    Advance s (s.enter address g .start [])
  | challenged {read g c} (phase : s.phase = .greeting read) (whole : read.length = Greeting.size)
    (greeting : Handshake.greeting read = .ok g) (user : credentials = some c) :
    Advance s ((s.store .authenticating).turn (.challenged g))
  /-- the cipher fails, or the request is too large -/
  | unprepared {g c fault} (phase : s.phase = .challenged g) (user : credentials = some c)
    (request : Handshake.request c g Simulation.Attempt.authSync.1 = .error fault) :
    Advance s (s.turn (.failed fault))
  | prepared {g c frame} (phase : s.phase = .challenged g) (user : credentials = some c)
    (request : Handshake.request c g Simulation.Attempt.authSync.1 = .ok frame) :
    Advance s (s.turn (.requesting g frame))
  | writes {g rest} (phase : s.phase = .requesting g rest) (count : ℕ) (some : 0 < count)
    (unwritten : rest ≠ []) : Advance s (s.turn (.requesting g (rest.drop count)))
  | requested {g} (phase : s.phase = .requesting g []) : Advance s (s.turn (.replying g []))
  /-- at most so many octets are read -/
  | readsReply {g buffer} (phase : s.phase = .replying g buffer)
    (partly : Handshake.firstFrame buffer = .ok none) (count : ℕ) (some : 0 < count)
    (arrived : s.pending ≠ []) :
    Advance s (s.read (.replying g (buffer ++ s.pending.take count)) (s.pending.drop count))
  | garbled {g buffer fault} (phase : s.phase = .replying g buffer)
    (reply : Handshake.firstFrame buffer = .error fault) : Advance s (s.turn (.failed fault))
  | rejected {g buffer m rest fault} (phase : s.phase = .replying g buffer)
    (reply : Handshake.firstFrame buffer = .ok (some (m, rest)))
    (meaning : Handshake.replyFault? m Simulation.Attempt.authSync.1 = some fault) :
    Advance s (s.turn (.failed fault))
  | accepted {g buffer m rest} (phase : s.phase = .replying g buffer)
    (reply : Handshake.firstFrame buffer = .ok (some (m, rest)))
    (meaning : Handshake.replyFault? m Simulation.Attempt.authSync.1 = none) :
    Advance s (s.enter address g Simulation.Attempt.authSync.2 rest)

/-- Everything that has arrived has been read, and it is not enough. -/
def State.Lacks (s : State) : Prop :=
  s.pending = [] ∧
    ((∃ read, s.phase = .greeting read ∧ read.length < Greeting.size) ∨
      ∃ g buffer, s.phase = .replying g buffer ∧ Handshake.firstFrame buffer = .ok none)

/-- What may happen next. -/
inductive Step (s : State) : State → Prop
  | arrives (chunk : Octets) (listens : s.phase.Listens) : Step s (s.arrive chunk)
  | advances {s'} (step : Advance address credentials s s') : Step s s'
  /-- the server has ended the stream, or does not say anything for too long -/
  | starves (lacks : s.Lacks) : Step s (s.turn .starved)
  | severed (underway : s.phase.Underway) : Step s (s.turn .severed)
  /-- the reader reads at most so many octets -/
  | reads (service : s.phase = .opened) (count : ℕ) :
    Step s (s.withChannel (s.channel.arrive (s.pending.take count))
      |>.read .opened (s.pending.drop count))
  /-- the reader takes the message in front, and the entry that it answers if there is one -/
  | hears {m n t} (service : s.phase = .opened)
    (frame : Frame.decode s.channel.unread = .ok (some (m, n)))
    (step : Interleaving.Step s.channel.state (.reader (.take m)) t) :
    Step s { s with channel := (s.channel.skip n).moved t, heard := s.heard ++ [m] }
  /-- a party does something else -/
  | others {l} (service : s.phase = .opened) (step : Channel.Step s.channel l)
    (received : l.received = s.channel.received) (unread : l.unread = s.channel.unread) :
    Step s (s.withChannel l)

/-- Things happen in any order, from one state to another. -/
inductive Run (start : State) : State → Prop
  | nil : Run start start
  | snoc {s s'} (init : Run start s) (last : Step address credentials s s') : Run start s'

/-- A connection that nobody has opened yet. -/
def start : State :=
  ⟨.dialing, [], [], (Channel.start address default .start []).moved
    { Interleaving.start address default .start with
      link := { Connection.opened address default .start with stage := .connecting } }, []⟩

variable {address : Address} {credentials : Option Credentials} {s s' s'' : State}

theorem Phase.Underway.ne_opened {phase : Phase} (h : phase.Underway) : phase ≠ .opened := by
  rintro rfl
  exact h

theorem Advance.underway (step : Advance address credentials s s') : s.phase.Underway := by
  cases step <;> exact ‹s.phase = _› ▸ trivial

theorem State.Lacks.underway (h : s.Lacks) : s.phase.Underway := by
  obtain ⟨-, ⟨read, phase, -⟩ | ⟨g, buffer, phase, -⟩⟩ := h <;> exact phase ▸ trivial

theorem Run.trans (h : Run address credentials s s') (h' : Run address credentials s' s'') :
    Run address credentials s s'' := by
  induction h' with
  | nil => exact h
  | snoc _ last ih => exact ih.snoc last

theorem Advance.sent_eq (step : Advance address credentials s s') : s'.sent = s.sent := by
  cases step <;> rfl

/-- What has arrived stays in front of what arrives later. -/
theorem Run.sent_prefix (h : Run address credentials s s') : s.sent <+: s'.sent := by
  induction h with
  | nil => exact List.prefix_refl _
  | snoc _ last ih =>
    cases last with
    | arrives chunk => exact ih.trans (List.prefix_append ..)
    | advances step => exact step.sent_eq ▸ ih
    | starves | severed | reads | hears | others => exact ih

theorem Advance.run (step : Advance address credentials s s') : Run address credentials s s' :=
  Run.nil.snoc (.advances step)

end Switchboard.Establishing
