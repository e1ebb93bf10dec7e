import Switchboard.Address
import Switchboard.MessagePack.Decoder

/-!
# Faults

What can go wrong between a caller and a server, as causes.  Each cause has a wording and belongs to
classes by which callers decide whether another attempt is worth making.

## Main definitions

- `StreamFault` — a failure of a byte stream
- `Fault` — the cause of a failed operation
- `Fault.message`, `Fault.beneath` — its wording, and those of what lies beneath it
- `Fault.isNetwork`, `Fault.isTimeout`, `Fault.isNoSuchProcedure` — its classes
- `Fault.ofStream` — the cause that a failing stream amounts to
-/

namespace Switchboard

/-- The kinds of stream failure that are told apart. -/
inductive StreamFaultKind where
  | timedOut
  | wouldBlock
  | connectionReset
  | connectionAborted
  | brokenPipe
  | notConnected
  | unexpectedEof
  | other
  deriving Repr, DecidableEq

/-- A failure of a byte stream. -/
structure StreamFault where
  kind : StreamFaultKind
  detail : String
  deriving Repr, DecidableEq

/-- The cause of a failed operation. -/
inductive Fault where
  /-- the connection to the server broke -/
  | transport (detail : String)
  /-- a stream failed outside any operation on a server -/
  | stream (fault : StreamFault)
  /-- no connection was ready in time -/
  | connectTimeout (address : String) (millis : Nat)
  /-- a request was not answered in time -/
  | requestTimeout (sync : UInt64) (millis : Nat)
  /-- a stream gave up waiting -/
  | timeout (detail : String)
  /-- the octets received are no frame -/
  | framing (detail : String)
  /-- the server did not introduce itself as expected -/
  | handshake (detail : String)
  /-- the server refused the credentials -/
  | authentication (detail : String)
  /-- the server answered with an error -/
  | server (code : UInt32) (detail : String)
  /-- the connection was closed on this side -/
  | connectionClosed (detail : String)
  /-- there is no connection to send on -/
  | noAvailableConnection (detail : String)
  /-- a text names no server -/
  | invalidAddress (detail : String)
  /-- the configuration makes no sense -/
  | config (detail : String)
  /-- the list of servers cannot be had -/
  | discovery (detail : String)
  /-- the octets received are no MessagePack value -/
  | decode (fault : MessagePack.DecodeFault)
  /-- a response is not of the expected form -/
  | invalidResponse (detail : String)
  /-- several connections could not be closed in order -/
  | close (details : List String)
  deriving DecidableEq

namespace Fault

/-- The wording of a cause. -/
def message : Fault → String
  | .transport detail => "Transport error: " ++ detail
  | .stream fault => "IO error: " ++ fault.detail
  | .connectTimeout address millis =>
    "Failed to connect to " ++ address ++ " within " ++ toString millis ++ "ms"
  | .requestTimeout sync millis =>
    "Request " ++ toString sync.toNat ++ " timed out after " ++ toString millis ++ "ms"
  | .timeout detail => "Timed out: " ++ detail
  | .framing detail => "Framing error: " ++ detail
  | .handshake detail => "Handshake error: " ++ detail
  | .authentication detail => "Authentication failed: " ++ detail
  | .server code detail => "Server error " ++ toString code.toNat ++ ": " ++ detail
  | .connectionClosed detail => "Connection closed: " ++ detail
  | .noAvailableConnection detail => "No available connection: " ++ detail
  | .invalidAddress detail => "Invalid address: " ++ detail
  | .config detail => "Invalid configuration: " ++ detail
  | .discovery detail => "Discovery error: " ++ detail
  | .decode fault => "MessagePack decode error: " ++ fault.message
  | .invalidResponse detail => "Invalid response: " ++ detail
  | .close details =>
    "Failed to close " ++ toString details.length ++ " connection(s): " ++ "; ".intercalate details

/-- The wordings of what lies beneath a cause, the nearest first. -/
def beneath : Fault → List String
  | .stream fault => [fault.detail]
  | .decode fault => fault.message :: fault.shortfall?.toList
  | _ => []

/-- Was the cause the network or a connection going away, rather than an answer of the server? -/
def isNetwork : Fault → Bool
  | .transport _ | .stream _ | .connectTimeout .. | .requestTimeout .. | .timeout _ | .framing _
  | .connectionClosed _ | .noAvailableConnection _ => true
  | _ => false

/-- Did something take too long? -/
def isTimeout : Fault → Bool
  | .connectTimeout .. | .requestTimeout .. | .timeout _ => true
  | _ => false

/-- The code with which the server answered. -/
def serverCode : Fault → Option UInt32
  | .server code _ => some code
  | _ => none

/-- The server's code for a call of a function that does not exist. -/
def noSuchProcedureCode : UInt32 := 33

/-- Did the server answer that the called function does not exist? -/
def isNoSuchProcedure (f : Fault) : Bool :=
  f.serverCode = some noSuchProcedureCode

/-- The cause that a stream failing during the operation `context` amounts to: giving up waiting
stays a timeout, and a connection that went away is named as such. -/
def ofStream (fault : StreamFault) (context : String) : Fault :=
  match fault.kind with
  | .timedOut | .wouldBlock => .timeout context
  | .connectionReset | .connectionAborted | .brokenPipe | .notConnected | .unexpectedEof =>
    .transport (context ++ ": connection lost")
  | .other => .transport (context ++ ": " ++ fault.detail)

/-- A text that names no server. -/
def ofAddress (fault : AddressFault) : Fault :=
  .invalidAddress fault.message

end Fault

end Switchboard
