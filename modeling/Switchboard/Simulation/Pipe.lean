import Switchboard.Fault

/-!
# Pipes

A pipe is one byte stream between a client and a scripted server.  The server's side is data: octets
that have arrived, an end or a failure behind them, and how much the server still takes.

## Main definitions

- `Pipe` — the state of a stream
- `Pipe.takeAll`, `Pipe.readEnd?` — what reading gives
- `Pipe.write` — what writing gives
- `Pipe.shutDown`, `Pipe.letGo` — how the client ends it

## Main statements

- `Pipe.eq_drop_of_write` — the server takes what it takes in order
-/

namespace Switchboard.Simulation

/-- How a client ends a stream. -/
inductive Ending where
  /-- the client announced that it writes no more -/
  | shutdown
  /-- the client let go of the stream -/
  | dropped
  deriving Repr, DecidableEq

/-- The state of a byte stream. -/
structure Pipe where
  /-- the octets that have arrived and are still to be read -/
  inbound : Octets := []
  /-- does the stream end behind them? -/
  ended : Bool := false
  /-- the failure behind them -/
  readFault : Option StreamFault := none
  /-- the failure of every write -/
  writeFault : Option StreamFault := none
  /-- does writing break the writer down? -/
  writeBreaks : Bool := false
  /-- how many more octets the server takes, if there is a limit -/
  window : Option Nat := none
  /-- the octets written and not yet reported, latest piece first -/
  outbound : List Octets := []
  /-- how many parties of the client hold the stream -/
  holders : Nat := 1
  /-- the endings not yet reported, latest first -/
  endings : List Ending := []
  deriving Inhabited

namespace Pipe

/-! ### Reading -/

/-- Reads all octets that have arrived. -/
def takeAll (p : Pipe) : Octets × Pipe :=
  (p.inbound, { p with inbound := [] })

/-- What stands behind the octets that have arrived. -/
inductive ReadEnd where
  | failed (fault : StreamFault)
  | ended

/-- What reading gives when no octets are left; `none` when the reader has to wait.  A failure comes
before the end. -/
def readEnd? (p : Pipe) : Option ReadEnd :=
  match p.readFault with
  | some fault => some (.failed fault)
  | none => if p.ended then some .ended else none

/-- More octets arrive. -/
def feed (p : Pipe) (bytes : Octets) : Pipe :=
  { p with inbound := p.inbound ++ bytes }

/-! ### Writing -/

/-- What a writer says when it breaks down. -/
def breakdown : String := "boom"

/-- What writing gives. -/
inductive WriteResult where
  /-- the octets that the server did not take -/
  | taken (rest : Octets)
  | failed (fault : StreamFault)
  /-- the writer broke down -/
  | broken

/-- Writes as many of the octets as the server takes. -/
def write (p : Pipe) (bytes : Octets) : WriteResult × Pipe :=
  if bytes.isEmpty then (.taken [], p)
  else if p.writeBreaks then (.broken, p)
  else
    match p.writeFault with
    | some fault => (.failed fault, p)
    | none =>
      match p.window with
      | none => (.taken [], { p with outbound := bytes :: p.outbound })
      | some room =>
        (.taken (bytes.drop room),
          { p with
            window := some (room - bytes.length)
            outbound := bytes.take room :: p.outbound })

/-- The octets that the server did not take are the last ones. -/
theorem eq_drop_of_write {p : Pipe} {bytes rest : Octets} (h : (p.write bytes).1 = .taken rest) :
    ∃ count, rest = bytes.drop count := by
  unfold write at h
  split at h
  · next empty =>
    cases h
    exact ⟨0, (List.isEmpty_iff.mp empty).symm⟩
  split at h
  · cases h
  split at h
  · cases h
  split at h
  · cases h
    exact ⟨bytes.length, List.drop_length.symm⟩
  · next room _ =>
    cases h
    exact ⟨room, rfl⟩

/-! ### Endings -/

/-- The client announces that it writes no more. -/
def shutDown (p : Pipe) : Pipe :=
  { p with endings := .shutdown :: p.endings }

/-- One of the parties that hold the stream lets go of it. -/
def letGo (p : Pipe) : Pipe :=
  if p.holders = 1 then { p with holders := 0, endings := .dropped :: p.endings }
  else { p with holders := p.holders - 1 }

/-- What was written and how the stream ended since this was asked last. -/
def report (p : Pipe) : Octets × List Ending × Pipe :=
  (p.outbound.reverse.flatten, p.endings.reverse, { p with outbound := [], endings := [] })

end Pipe

end Switchboard.Simulation
