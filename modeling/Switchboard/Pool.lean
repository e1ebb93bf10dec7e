import Switchboard.Connection

/-!
# Connection pools

A pool keeps a number of connections to one server.  Connections are known by number; what is asked
of them, such as their stage, is given as a function.

## Main definitions

- `Pool` — the connections held, and whether the pool is being closed
- `Pool.missing` — how many connections are to be opened
- `Pool.install` — the pool with connections that have been opened
- `Pool.acquire` — a connection in service
- `Pool.drainOver` — is waiting for requests in flight over?

## Main statements

- `Pool.acquire_cases` — a connection in service is picked if there is one
-/

namespace Switchboard

/-- The connections kept to one server. -/
structure Pool where
  address : Address
  config : ClientConfig
  selector : Selector
  /-- the connections by number, oldest first -/
  members : List Nat
  /-- has maintenance been told to stop? -/
  stopping : Bool
  /-- has somebody begun to close the pool? -/
  closed : Bool

namespace Pool

/-- A pool that holds no connection yet. -/
def empty (address : Address) (config : ClientConfig) : Pool :=
  ⟨address, config, .ofStrategy config.selection, [], false, false⟩

instance : Inhabited Pool := ⟨empty default {}⟩

variable (p : Pool) (stage : Nat → Stage)

/-- How many connections have to be opened: those whose life is over do not count. -/
def missing : Nat :=
  p.config.connections - (p.members.filter fun c => !(stage c).isTerminal).length

/-- Lets go of connections whose life is over and takes in those that have been opened. -/
def install (opened : List Nat) : Pool :=
  { p with members := p.members.filter (fun c => !(stage c).isTerminal) ++ opened }

/-- The connections in service. -/
def ready : List Nat :=
  p.members.filter fun c => stage c = .ready

/-- The fault when no connection is in service. -/
def noneReady : Fault :=
  .noAvailableConnection ("no ready connection to " ++ p.address.display)

/-- Picks a connection in service, for a caller of the shard and with the number to draw by. -/
def acquire (shard draw : Nat) : Except Fault Nat × Pool :=
  let candidates := p.ready stage
  let (index, selector) := p.selector.pick shard draw candidates.length
  match index.bind (candidates[·]?) with
  | some c => (.ok c, { p with selector })
  | none => (.error p.noneReady, { p with selector })

theorem mem_ready {c : Nat} : c ∈ p.ready stage ↔ c ∈ p.members ∧ stage c = .ready := by
  rw [ready, List.mem_filter, decide_eq_true_iff]

/-- A connection in service is picked if there is one. -/
theorem acquire_cases (shard draw : Nat) :
    (∃ c ∈ p.ready stage, (p.acquire stage shard draw).1 = .ok c) ∨
      p.ready stage = [] ∧ (p.acquire stage shard draw).1 = .error p.noneReady := by
  unfold acquire
  cases hready : p.ready stage with
  | nil => exact .inr ⟨rfl, rfl⟩
  | cons c rest =>
    obtain ⟨i, hi, hpick⟩ := p.selector.exists_pick (Nat.succ_pos rest.length) shard draw
    have hfound : (some i).bind ((c :: rest)[·]?) = some (c :: rest)[i] :=
      List.getElem?_eq_getElem hi
    refine .inl ⟨(c :: rest)[i], List.getElem_mem hi, ?_⟩
    dsimp only [List.length_cons]
    rw [hpick, hfound]

/-- Picking moves cursors only. -/
theorem acquire_snd (shard draw : Nat) :
    ∃ selector, (p.acquire stage shard draw).2 = { p with selector } := by
  unfold acquire
  dsimp only
  split <;> exact ⟨_, rfl⟩

/-- Begins to close the pool; `none` when somebody has begun already. -/
def beginClose? : Option Pool :=
  if p.closed then none else some { p with closed := true, stopping := true }

theorem beginClose?_eq_none_iff {p : Pool} : p.beginClose? = none ↔ p.closed = true := by
  simp [beginClose?]

theorem beginClose?_eq_some_iff {p p' : Pool} :
    p.beginClose? = some p' ↔
      p.closed = false ∧ { p with closed := true, stopping := true } = p' := by
  simp [beginClose?]

/-- Takes all connections out of the pool. -/
def takeAll : List Nat × Pool :=
  (p.members, { p with members := [] })

/-- What closing amounts to, given the fault of each connection that did not close in order. -/
def closeResult (faults : List Fault) : Except Fault Unit :=
  if faults.isEmpty then .ok () else .error (.close (faults.map Fault.message))

/-- How often a pool that drains looks for requests in flight, in milliseconds. -/
def drainInterval : Nat := 10

/-- Is waiting over at the millisecond `now`, with so many requests in flight and this latest
deadline among them?  It is once nothing is in flight, or once both `floor` and the latest deadline
have passed. -/
def drainOver (now floor inFlight : Nat) (latest : Option Nat) : Bool :=
  inFlight = 0 || max floor (latest.getD floor) ≤ now

/-- The text of a pool. -/
def inspect : String :=
  "ConnectionPool \x7b address: " ++ p.address.inspect ++ ", size: " ++
    toString p.members.length ++ ", ready: " ++ toString (p.ready stage).length ++ " \x7d"

end Pool

end Switchboard
