import Switchboard.Fault
import Switchboard.SyncIds
import Switchboard.Wire.Code

/-!
# Requests in flight

The requests of one connection that wait for their outcome, by sync id.  Whoever removes an entry
settles the request: nobody else can deliver an outcome to it any more.

## Main definitions

- `Outcome` — what a request ends with
- `Slot` — the place where one waiter looks for its outcome
- `Inflight` — the entries, and the slots of all requests ever registered
- `Inflight.register`, `resolve`, `cancel`, `failAll`, `forget` — the operations
-/

namespace Switchboard

/-- What a request ends with: the body of the reply, or a fault. -/
abbrev Outcome := Except Fault Octets

/-- The place where one waiter looks for its outcome. -/
inductive Slot where
  /-- nothing has happened yet -/
  | waiting
  /-- the outcome has been delivered -/
  | delivered (outcome : Outcome)
  /-- the entry was removed without an outcome -/
  | severed
  /-- the waiter has gone away -/
  | forgotten

/-- An entry: a request that waits for its outcome. -/
structure Pending where
  sync : UInt64
  code : Wire.RequestType
  /-- the millisecond at which the request gives up -/
  deadline : Nat
  /-- the index of the slot that the outcome goes to -/
  slot : Nat

/-- The requests of one connection that wait for their outcome, oldest first, and the slots of all
requests ever registered. -/
structure Inflight where
  entries : List Pending
  slots : Array Slot

namespace Inflight

/-- No request has been registered. -/
def empty : Inflight := ⟨[], #[]⟩

instance : Inhabited Inflight := ⟨empty⟩

/-- Is a request pending under the id? -/
def contains (t : Inflight) (sync : UInt64) : Bool :=
  t.entries.any fun e => e.sync = sync

/-- The entry pending under the id. -/
def find? (t : Inflight) (sync : UInt64) : Option Pending :=
  t.entries.find? fun e => e.sync = sync

/-- How many requests are pending. -/
def size (t : Inflight) : Nat :=
  t.entries.length

/-- The ids of the pending requests, oldest first. -/
def syncs (t : Inflight) : List UInt64 :=
  t.entries.map (·.sync)

/-- The furthest deadline among the pending requests. -/
def latestDeadline (t : Inflight) : Option Nat :=
  (t.entries.map (·.deadline)).max?

/-- Draws at most `fuel` ids until one is not pending. -/
def firstFree (t : Inflight) : Nat → SyncIds → UInt64 × SyncIds
  | 0, g => g.next
  | fuel + 1, g => if t.contains g.next.1 then firstFree t fuel g.next.2 else g.next

/-- Registers a request under the next id that is not pending, and returns the id, the index of the
request's slot, and what the operation leaves.  Among one id more than there are entries one is
free, so no more are drawn. -/
def register (t : Inflight) (g : SyncIds) (code : Wire.RequestType) (deadline : Nat) :
    UInt64 × Nat × Inflight × SyncIds :=
  let (sync, g) := t.firstFree t.size g
  let slot := t.slots.size
  (sync, slot, ⟨t.entries ++ [⟨sync, code, deadline, slot⟩], t.slots.push .waiting⟩, g)

/-- The slot of the waiter with the index. -/
def slot (t : Inflight) (index : Nat) : Slot :=
  t.slots.getD index .severed

/-- The slots after one of them changes, unless its waiter has gone away. -/
def settle (slots : Array Slot) (index : Nat) (new : Slot) : Array Slot :=
  match slots[index]? with
  | some .waiting => slots.setIfInBounds index new
  | _ => slots

/-- Removes the entry under the id and changes its slot; says whether there was one. -/
def remove (t : Inflight) (sync : UInt64) (new : Slot) : Bool × Inflight :=
  match t.find? sync with
  | some e => (true, ⟨t.entries.filter fun e => e.sync ≠ sync, settle t.slots e.slot new⟩)
  | none => (false, t)

/-- Delivers an outcome to the request under the id; says whether it was pending. -/
def resolve (t : Inflight) (sync : UInt64) (outcome : Outcome) : Bool × Inflight :=
  t.remove sync (.delivered outcome)

/-- Removes the request under the id without an outcome; says whether it was pending. -/
def cancel (t : Inflight) (sync : UInt64) : Bool × Inflight :=
  t.remove sync .severed

/-- Resolves each of the ids with the fault, and counts those that were pending. -/
def failEach (fault : Fault) : List UInt64 → Inflight → Nat × Inflight
  | [], t => (0, t)
  | sync :: rest, t =>
    let (removed, t) := t.resolve sync (.error fault)
    let (count, t) := failEach fault rest t
    (if removed then count + 1 else count, t)

/-- Resolves every pending request with the fault, and counts them. -/
def failAll (t : Inflight) (fault : Fault) : Nat × Inflight :=
  failEach fault t.syncs t

/-- The waiter with the index goes away.  Its entry, if it is pending, stays. -/
def forget (t : Inflight) (index : Nat) : Inflight :=
  { t with slots := t.slots.setIfInBounds index .forgotten }

end Inflight

end Switchboard
