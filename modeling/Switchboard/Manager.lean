import Switchboard.Pool
import Switchboard.Topology

/-!
# Cluster managers

A manager keeps one pool for each address of the cluster's topology.  Topologies are applied one at
a time and never backwards.  Pools are known by number.

## Main definitions

- `Manager` — the pools by address, and the epoch of the topology applied last
- `Reconciliation` — what applying a topology comes to
- `Manager.decide` — whether a topology is to be applied
- `Manager.install` — the manager after a topology was applied
- `Manager.select` — a pool that has a connection in service
-/

namespace Switchboard

/-- What applying a topology comes to. -/
structure Reconciliation where
  epoch : UInt64
  added : List Address
  removed : List Address
  stale : Bool
  deriving DecidableEq, Inhabited

/-- Did nothing change? -/
def Reconciliation.isNoop (r : Reconciliation) : Bool :=
  r.added.isEmpty && r.removed.isEmpty

/-- The pools of a cluster. -/
structure Manager where
  config : ClientConfig
  selector : Selector
  /-- the pools by number, sorted by address -/
  pools : List (Address × Nat)
  /-- the epoch of the topology applied last -/
  applied : Option UInt64
  /-- the epoch shown to others -/
  epoch : UInt64
  /-- has somebody begun to close the manager? -/
  closed : Bool

namespace Manager

/-- A manager without pools. -/
def empty (config : ClientConfig) : Manager :=
  ⟨config, .ofStrategy config.cluster, [], none, 0, false⟩

instance : Inhabited Manager := ⟨empty {}⟩

/-- The addresses that have a pool. -/
def addresses (m : Manager) : List Address :=
  m.pools.map (·.1)

/-- The pool of an address. -/
def pool? (m : Manager) (a : Address) : Option Nat :=
  (m.pools.find? fun e => e.1 = a).map (·.2)

/-- What to do with a topology. -/
inductive Decision where
  /-- nothing, the manager being closed -/
  | ignore
  /-- nothing, a topology at least as new having been applied -/
  | stale
  /-- open a pool for each address added and let go of those removed -/
  | apply (added removed : List Address)
  deriving DecidableEq

/-- Is the topology no newer than the one applied last?  One of the same epoch is applied again when
`forced`. -/
def isStale (m : Manager) (t : Topology) (forced : Bool) : Bool :=
  match m.applied with
  | none => false
  | some last => t.epoch < last || (t.epoch = last && !forced)

/-- What to do with a topology. -/
def decide (m : Manager) (t : Topology) (forced : Bool) : Decision :=
  if m.closed then .ignore
  else if m.isStale t forced then .stale
  else
    .apply (t.addresses.filter fun a => a ∉ m.addresses)
      (m.addresses.filter fun a => a ∉ t.addresses)

/-- Puts a pool among those sorted by address. -/
def insertPool (a : Address) (p : Nat) : List (Address × Nat) → List (Address × Nat)
  | [] => [(a, p)]
  | (b, q) :: rest =>
    match Address.compare a b with
    | .lt => (a, p) :: (b, q) :: rest
    | .eq => (a, p) :: rest
    | .gt => (b, q) :: insertPool a p rest

/-- The pools of the addresses removed. -/
def leaving (m : Manager) (removed : List Address) : List Nat :=
  (m.pools.filter fun e => e.1 ∈ removed).map (·.2)

/-- The manager after a topology of the epoch was applied: the pools of the addresses removed are
gone, and those opened are there. -/
def install (m : Manager) (epoch : UInt64) (removed : List Address)
    (opened : List (Address × Nat)) : Manager :=
  let kept := m.pools.filter fun e => e.1 ∉ removed
  { m with
    pools := opened.foldl (fun pools e => insertPool e.1 e.2 pools) kept
    applied := some epoch
    epoch := epoch }

/-- The fault when no pool has a connection in service. -/
def noneReady (m : Manager) : Fault :=
  .noAvailableConnection
    ("no ready connection among " ++ toString m.pools.length ++ " cluster address(es)")

/-- Picks a pool that has a connection in service, for a caller of the shard and with the number to
draw by. -/
def select (m : Manager) (hasReady : Nat → Bool) (shard draw : Nat) : Except Fault Nat × Manager :=
  let candidates := (m.pools.map (·.2)).filter hasReady
  let (index, selector) := m.selector.pick shard draw candidates.length
  match index.bind (candidates[·]?) with
  | some p => (.ok p, { m with selector })
  | none => (.error m.noneReady, { m with selector })

/-- Begins to close the manager; `none` when somebody has begun already. -/
def beginClose? (m : Manager) : Option Manager :=
  if m.closed then none else some { m with closed := true }

/-- Takes all pools out of the manager. -/
def takeAll (m : Manager) : List Nat × Manager :=
  (m.pools.map (·.2), { m with pools := [] })

/-- The texts that a pool's fault adds to those of the manager. -/
def closeDetails : Fault → List String
  | .close details => details
  | other => [other.message]

/-- What closing amounts to, given the fault of each pool that could not be closed in order. -/
def closeResult (faults : List Fault) : Except Fault Unit :=
  let details := faults.flatMap closeDetails
  if faults.isEmpty then .ok () else .error (.close details)

/-- The text of a manager. -/
def inspect (m : Manager) : String :=
  "ClusterConnectionManager \x7b epoch: " ++ toString m.epoch.toNat ++ ", addresses: [" ++
    ", ".intercalate (m.addresses.map Address.inspect) ++ "], closed: " ++
    (if m.closed then "true" else "false") ++ " \x7d"

/-- The text of a client that dispatches through a manager under a policy. -/
def inspectClient (m : Manager) (policyText : String) : String :=
  "Client \x7b manager: " ++ m.inspect ++ ", policy: " ++ policyText ++ " \x7d"

end Manager

end Switchboard
