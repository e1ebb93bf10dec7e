import Switchboard.MessagePack.Value
import Switchboard.Number.Binary

/-!
# JSON values

A number is a whole number of the range that MessagePack knows, or a finite floating-point number.
The members of an object are sorted by name, and no name occurs twice.

## Main definitions

- `Json` — a value
- `Json.putMember` — an object with one member set
- `Json.ofFloat` — a floating-point number, or null when it is not finite
-/

namespace Switchboard

/-- A JSON value. -/
inductive Json where
  | null
  | bool (b : Bool)
  | int (i : MessagePack.Integer)
  /-- a finite number of 64 bits, by its bits -/
  | float (bits : UInt64)
  | string (text : String)
  | array (items : List Json)
  | object (members : List (String × Json))
  deriving Inhabited

namespace Json

/-- Sets a member of a sorted object; an earlier member of that name is replaced. -/
def putMember (name : String) (v : Json) : List (String × Json) → List (String × Json)
  | [] => [(name, v)]
  | (other, w) :: rest =>
    if name = other then (name, v) :: rest
    else if name < other then (name, v) :: (other, w) :: rest
    else (other, w) :: putMember name v rest

/-- A natural number below 2^64; null for a larger one. -/
def ofNat (n : Nat) : Json :=
  match MessagePack.Integer.ofInt? n with
  | some i => .int i
  | none => .null

/-- A floating-point number; null when it is not finite. -/
def ofFloat (b : Binary) : Json :=
  if b.isFinite then .float (b.toBits .double).toUInt64 else .null

end Json

end Switchboard
