import Switchboard.Fault
import Switchboard.MessagePack.Encoder
import Switchboard.Wire.Key

/-!
# Message bodies

Bodies of the requests that a client makes by itself, and the parts of response bodies.  A body is
one MessagePack value, or nothing, which stands for nil.

## Main definitions

- `Body.decode` — the value of a body
- `Body.ping`, `Body.call`, `Body.eval`, `Body.auth` — request bodies
- `Body.data`, `Body.error` — response bodies
- `Body.responseData`, `Body.responseFault` — what a response says
-/

namespace Switchboard.Wire.Body

open MessagePack

/-- The value of a body.  No octets stand for nil. -/
def decode (body : Octets) : Except Fault Value :=
  if body.isEmpty then .ok .nil
  else
    match MessagePack.decode body with
    | .error e => .error (.decode e)
    | .ok (v, rest) =>
      if rest.isEmpty then .ok v
      else .error (.invalidResponse (toString rest.length ++ " trailing bytes after body"))

/-- A map with small numbers as keys. -/
def keyed (entries : List (UInt64 × Value)) : Octets :=
  MessagePack.encode (.map (entries.map fun (k, v) => (.ofWord k, v)))

/-- The body of a ping. -/
def ping : Octets :=
  keyed []

/-- The body of a call of a stored function. -/
def call (function : String) (args : List Value) : Octets :=
  keyed [(Key.function, .ofString function), (Key.tuple, .array args)]

/-- The body of an evaluation of an expression. -/
def eval (expression : String) (args : List Value) : Octets :=
  keyed [(Key.expression, .ofString expression), (Key.tuple, .array args)]

/-- The body of an authentication. -/
def auth (user method : String) (scramble : Octets) : Octets :=
  keyed [(Key.user, .ofString user), (Key.tuple, .array [.ofString method, .bin scramble])]

/-- The body of an error response. -/
def error (detail : String) : Octets :=
  keyed [(Key.error, .ofString detail)]

/-- The body of a response that carries a value. -/
def data (v : Value) : Octets :=
  keyed [(Key.data, v)]

/-- The value of the first entry with the key, if the body is a map that has one. -/
def lookup (key : UInt64) : Value → Option Value
  | .map entries => (entries.find? fun e => e.1.word? = some key).map (·.2)
  | _ => none

/-- The value that a response carries; nil when it carries none. -/
def responseData (body : Octets) : Except Fault Value :=
  (decode body).map fun v => (lookup Key.data v).getD .nil

/-- The text of an error response, if it has one that can be read. -/
def errorText? (body : Octets) : Option String :=
  match decode body with
  | .ok v => (lookup Key.error v).bind fun t => t.text?.map String.ofList
  | .error _ => none

/-- What an error response with the code says.  The code is never lost, however unreadable the
body. -/
def responseFault (code : UInt32) (body : Octets) : Fault :=
  .server code ((errorText? body).getD "unknown error")

end Switchboard.Wire.Body
