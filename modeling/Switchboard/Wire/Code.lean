/-!
# Codes

The code in a message header: the type of a request, or the outcome of one.

## Main definitions

- `RequestType` — the requests a server understands
- `Code` — the code of a message
- `Code.ofRaw`, `Code.toRaw` — its number on the wire
-/

namespace Switchboard.Wire

/-- The requests a server understands. -/
inductive RequestType where
  | select
  | insert
  | replace
  | update
  | delete
  | auth
  | eval
  | upsert
  | call
  | execute
  | ping
  | id
  deriving Repr, DecidableEq, Inhabited

namespace RequestType

/-- All request types by ascending number. -/
def all : List RequestType :=
  [.select, .insert, .replace, .update, .delete, .auth, .eval, .upsert, .call, .execute, .ping, .id]

/-- The number of a request type. -/
def number : RequestType → UInt32
  | .select => 1
  | .insert => 2
  | .replace => 3
  | .update => 4
  | .delete => 5
  | .auth => 7
  | .eval => 8
  | .upsert => 9
  | .call => 10
  | .execute => 11
  | .ping => 64
  | .id => 73

/-- The name of a request type. -/
def name : RequestType → String
  | .select => "Select"
  | .insert => "Insert"
  | .replace => "Replace"
  | .update => "Update"
  | .delete => "Delete"
  | .auth => "Auth"
  | .eval => "Eval"
  | .upsert => "Upsert"
  | .call => "Call"
  | .execute => "Execute"
  | .ping => "Ping"
  | .id => "Id"

/-- The request type with a given number. -/
def ofNumber? (n : UInt32) : Option RequestType :=
  all.find? fun t => t.number = n

/-- The request type with a given name. -/
def ofName? (name : String) : Option RequestType :=
  all.find? fun t => t.name = name

end RequestType

/-- The code of a message. -/
inductive Code where
  | ok
  | request (type : RequestType)
  | error (number : UInt32)
  | unknown (number : UInt32)
  deriving Repr, DecidableEq

namespace Code

/-- The bit that marks an error code on the wire. -/
def errorFlag : UInt32 := 0x8000

/-- The code that a number on the wire stands for. -/
def ofRaw (raw : UInt32) : Code :=
  if raw = 0 then .ok
  else if raw &&& errorFlag ≠ 0 then .error (raw &&& ~~~errorFlag)
  else
    match RequestType.ofNumber? raw with
    | some t => .request t
    | none => .unknown raw

/-- The number of a code on the wire. -/
def toRaw : Code → UInt32
  | .ok => 0
  | .request t => t.number
  | .error n => n ||| errorFlag
  | .unknown n => n

/-- Does the code announce an error? -/
def isError : Code → Bool
  | .error _ => true
  | _ => false

/-- The code under which the number of this one is read back. -/
def canonical (c : Code) : Code :=
  ofRaw c.toRaw

/-- The text of a code. -/
def inspect : Code → String
  | .ok => "Ok"
  | .request t => "Request(" ++ t.name ++ ")"
  | .error n => "Error(" ++ toString n.toNat ++ ")"
  | .unknown n => "Unknown(" ++ toString n.toNat ++ ")"

end Code

end Switchboard.Wire
