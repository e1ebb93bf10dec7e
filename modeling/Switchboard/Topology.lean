import Switchboard.Fault
import Switchboard.Json.Printer
import Switchboard.MessagePack.Display

/-!
# Cluster topologies

A topology is a set of server addresses with an epoch that grows with every change.  Discovery reads
the set from a list of node records.

## Main definitions

- `Topology` — a sorted set of addresses and an epoch
- `Topology.publish` — the topology after a set of addresses was found
- `Topology.parseNodes` — the addresses of the healthy nodes in a list of records
-/

namespace Switchboard

open MessagePack

/-- A sorted set of addresses, and the epoch at which it came to be. -/
structure Topology where
  addresses : List Address
  epoch : UInt64
  deriving DecidableEq, Inhabited

namespace Topology

/-- The topology of a list of addresses in any order. -/
def ofList (addresses : List Address) (epoch : UInt64) : Topology :=
  ⟨Address.sortedSet addresses, epoch⟩

/-- No addresses, before the first epoch. -/
def empty : Topology := ⟨[], 0⟩

/-- The topology as JSON. -/
def toJson (t : Topology) : Json :=
  .object
    [("addresses", .array (t.addresses.map fun a =>
       .object [("host", .string a.host), ("port", .ofNat a.port.toNat)])),
     ("epoch", .ofNat t.epoch.toNat)]

/-- The text of a topology. -/
def inspect (t : Topology) : String :=
  "ClusterTopology \x7b addresses: \x7b" ++ ", ".intercalate (t.addresses.map Address.inspect) ++
    "\x7d, epoch: " ++ toString t.epoch.toNat ++ " \x7d"

/-- The topology after a set of addresses was found, and whether it changed: a set that differs
begins a new epoch. -/
def publish (t : Topology) (addresses : List Address) : Bool × Topology :=
  if t.addresses = addresses then (false, t) else (true, ⟨addresses, t.epoch + 1⟩)

/-! ### Node records -/

/-- The value of the first entry of a record with the name. -/
def field (name : String) : Value → Option Value
  | .map entries => (entries.find? fun e => e.1.text? = some name.toList).map (·.2)
  | _ => none

/-- Is the value a node record by itself? -/
def isRecord (v : Value) : Bool :=
  (field "uri" v).isSome

/-- The statuses of nodes that are in service. -/
def healthyStatuses : List (List Char) :=
  ["available".toList, "healthy".toList]

/-- The place at which a healthy node is reached; `none` for any other record. -/
def healthyUri? (record : Value) : Option (List Char) :=
  match (field "uri" record).bind Value.text? with
  | none => none
  | some uri =>
    match (field "status" record).bind Value.text? with
    | some status => if status ∈ healthyStatuses then some uri else none
    | none => none

/-- The part of a place that names the server, after any credentials. -/
def hostPort (uri : List Char) : List Char :=
  match Text.cutLast? '@' uri with
  | some (_, rest) => rest
  | none => uri

/-- The address of each healthy node, in the order of the records. -/
def healthyAddresses : List Value → Except AddressFault (List Address)
  | [] => .ok []
  | record :: rest =>
    match healthyUri? record with
    | none => healthyAddresses rest
    | some uri =>
      match Address.parse (String.ofList (hostPort uri)) with
      | .error e => .error e
      | .ok a => (healthyAddresses rest).map (a :: ·)

/-- The records of a list of nodes: the values of a map or the items of an array. -/
def records? : Value → Option (List Value)
  | .map entries => some (entries.map (·.2))
  | .array items => some items
  | .nil => some []
  | _ => none

/-- The list of nodes itself, taken out of the array around the results of a call. -/
def unwrap : Value → Value
  | .array [v] => if isRecord v then .array [v] else v
  | v => v

/-- The set of addresses of the healthy nodes. -/
def parseNodes (data : Value) : Except Fault (List Address) :=
  let nodes := unwrap data
  match records? nodes with
  | none =>
    .error (.discovery ("expected a map or an array of nodes, got " ++ nodes.display))
  | some records =>
    match healthyAddresses records with
    | .error e => .error (.ofAddress e)
    | .ok addresses => .ok (Address.sortedSet addresses)

end Topology

end Switchboard
