import Switchboard.Duration
import Switchboard.Fault
import Switchboard.Selection
import Switchboard.Text.Quoted

/-!
# Configuration

## Main definitions

- `Cipher` — turns a password and a salt into a proof of the password
- `Credentials` — a user, a password and a cipher
- `ClientConfig` — how connections are made and used
- `DiscoveryConfig` — how the list of servers is fetched
-/

namespace Switchboard

/-- Turns a password and a server's salt into a proof that the password is known. -/
structure Cipher where
  method : String
  scramble : String → Octets → Except Fault Octets

/-- The proof of the simplest cipher: the octets of the password in reverse, then the salt. -/
def Cipher.reversed (method : String) : Cipher :=
  ⟨method, fun password salt => .ok ((Utf8.ofString password).reverse ++ salt)⟩

/-- A cipher that always fails. -/
def Cipher.failing (method : String) (fault : Fault) : Cipher :=
  ⟨method, fun _ _ => .error fault⟩

/-- A user, a password and the cipher by which the password is proved. -/
structure Credentials where
  user : String
  password : String
  cipher : Cipher

/-- The text of credentials; the password is not shown. -/
def Credentials.inspect (c : Credentials) : String :=
  "Credentials \x7b user: " ++ Text.quoted c.user ++ ", password: \"***\", method: " ++
    Text.quoted c.cipher.method ++ " \x7d"

/-- How connections are made and used. -/
structure ClientConfig where
  /-- how long opening a connection may take in all -/
  connectTimeout : Duration := .ofMillis 1000
  /-- how long each read may take while a connection is opened -/
  readTimeout : Duration := .ofMillis 1000
  /-- how long a request without a time limit of its own may take -/
  requestTimeout : Duration := .ofMillis 2000
  /-- how many connections are kept to each server -/
  connections : Nat := 1
  /-- picks a connection of a pool -/
  selection : Strategy := .parallelRoundRobin
  /-- picks a pool of the cluster -/
  cluster : Strategy := .random
  /-- how often lost connections are replaced -/
  reconnectInterval : Duration := .ofSeconds 1
  /-- whom to authenticate as -/
  credentials : Option Credentials := none

namespace ClientConfig

/-- What is wrong with the number of connections, if anything. -/
def connectionsFault? (c : ClientConfig) : Option Fault :=
  if c.connections = 0 then some (.config "connections must be at least 1") else none

/-- What is wrong with the configuration of a pool, if anything. -/
def poolFault? (c : ClientConfig) : Option Fault :=
  c.connectionsFault?.or <|
    if c.reconnectInterval = .zero then some (.config "reconnect interval must not be zero")
    else none

/-- The text of a configuration. -/
def inspect (c : ClientConfig) : String :=
  "ClientConfig \x7b connect_timeout: " ++ c.connectTimeout.inspect ++
    ", read_timeout: " ++ c.readTimeout.inspect ++
    ", request_timeout: " ++ c.requestTimeout.inspect ++
    ", connections: " ++ toString c.connections ++
    ", selection_strategy: " ++ c.selection.inspect ++
    ", cluster_strategy: " ++ c.cluster.inspect ++
    ", reconnect_interval: " ++ c.reconnectInterval.inspect ++
    ", credentials: " ++
    (match c.credentials with
      | none => "None"
      | some credentials => "Some(" ++ credentials.inspect ++ ")") ++
    " \x7d"

end ClientConfig

/-- How the list of servers is fetched. -/
structure DiscoveryConfig where
  /-- the function that lists the servers -/
  function : String := "get_routers"
  /-- how often it is called -/
  delay : Duration := .ofSeconds 60

/-- The text of a configuration. -/
def DiscoveryConfig.inspect (c : DiscoveryConfig) : String :=
  "DiscoveryConfig \x7b function: " ++ Text.quoted c.function ++ ", delay: " ++ c.delay.inspect ++
    " \x7d"

end Switchboard
