import Switchboard.Config
import Switchboard.Topology
import Switchboard.Watch
import Switchboard.Wire.Body

/-!
# Discovery

Where the addresses of a cluster come from: a fixed list, or the answers of a function that lists
the nodes.  Every change of the set is published under the next epoch.

## Main definitions

- `Discovery.fixed` — the topology of a fixed list
- `Discovery.fetched` — the addresses that an answer of the listing function gives
- `Discovery.start` — the topology published at first
- `Discovery.poll` — what a later answer changes
-/

namespace Switchboard.Discovery

open Wire

/-- The topology of a fixed list of addresses, which never changes. -/
def fixed (addresses : List Address) : Watch Topology :=
  .start (.ofList addresses 0)

/-- What is wrong with a configuration, if anything. -/
def configFault? (c : DiscoveryConfig) : Option Fault :=
  if c.delay = .zero then some (.config "discovery delay must not be zero") else none

/-- The fault when the listing function cannot be called. -/
def callFault (c : DiscoveryConfig) (cause : Fault) : Fault :=
  .discovery ("calling '" ++ c.function ++ "' failed: " ++ cause.message)

/-- The addresses that an answer of the listing function gives. -/
def fetched (c : DiscoveryConfig) (answer : Except Fault Octets) : Except Fault (List Address) :=
  match answer.bind Body.responseData with
  | .error cause => .error (callFault c cause)
  | .ok data => Topology.parseNodes data

/-- The fault when no node is in service at first. -/
def noNodes (c : DiscoveryConfig) : Fault :=
  .discovery ("'" ++ c.function ++ "' returned no healthy nodes")

/-- Publishes a set of addresses if it differs from the one published last; says whether it did. -/
def publish (w : Watch Topology) (addresses : List Address) : Bool × Watch Topology :=
  match w.value.publish addresses with
  | (true, t) => (true, w.set t)
  | (false, _) => (false, w)

/-- The topology published at first: the first answer must list a node in service. -/
def start (c : DiscoveryConfig) (answer : Except Fault Octets) : Except Fault (Watch Topology) :=
  match fetched c answer with
  | .error f => .error f
  | .ok [] => .error (noNodes c)
  | .ok addresses => .ok (publish (.start .empty) addresses).2

/-- What a later answer changes: an answer that fails or lists no node in service changes nothing.
Says whether a topology was published. -/
def poll (c : DiscoveryConfig) (w : Watch Topology) (answer : Except Fault Octets) :
    Except Fault Bool × Watch Topology :=
  match fetched c answer with
  | .error f => (.error f, w)
  | .ok [] => (.ok false, w)
  | .ok addresses =>
    let (changed, w) := publish w addresses
    (.ok changed, w)

/-- The text of a provider. -/
def inspect (c : DiscoveryConfig) (w : Watch Topology) : String :=
  "DiscoveryAddressProvider \x7b function: " ++ Text.quoted c.function ++ ", delay: " ++
    c.delay.inspect ++ ", topology: " ++ w.value.inspect ++ " \x7d"

end Switchboard.Discovery
