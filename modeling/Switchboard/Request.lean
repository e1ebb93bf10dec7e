import Switchboard.Duration
import Switchboard.Wire.Body
import Switchboard.Wire.Code

/-!
# Requests

## Main definitions

- `Request` — a request ready to be sent
- `Request.ping`, `Request.call`, `Request.eval` — the requests that a client makes by itself
-/

namespace Switchboard

open Wire

/-- A request ready to be sent: its type, its body, and a time limit of its own if it has one. -/
structure Request where
  code : RequestType
  body : Octets
  timeout : Option Duration
  deriving DecidableEq, Inhabited

namespace Request

/-- Asks whether the server is there. -/
def ping : Request := ⟨.ping, Body.ping, none⟩

/-- Calls a stored function. -/
def call (function : String) (args : List MessagePack.Value) : Request :=
  ⟨.call, Body.call function args, none⟩

/-- Evaluates an expression. -/
def eval (expression : String) (args : List MessagePack.Value) : Request :=
  ⟨.eval, Body.eval expression args, none⟩

end Request

end Switchboard
