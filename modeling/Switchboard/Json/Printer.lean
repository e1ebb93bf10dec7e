import Switchboard.Json.Value
import Switchboard.Number.Shortest
import Switchboard.Octets

/-!
# Writing JSON

## Main definitions

- `Json.compact` — a value on one line without blanks
- `Json.pretty` — a value with one member or item a line, two blanks deeper for each level
-/

namespace Switchboard.Json

/-- A character as it stands inside a string: quotes, backslashes and controls are escaped. -/
def escapeChar (c : Char) : List Char :=
  if c = '"' then ['\\', '"']
  else if c = '\\' then ['\\', '\\']
  else if c = '\x08' then ['\\', 'b']
  else if c = '\x0c' then ['\\', 'f']
  else if c = '\n' then ['\\', 'n']
  else if c = '\r' then ['\\', 'r']
  else if c = '\t' then ['\\', 't']
  else if c.toNat < 0x20 then "\\u".toList ++ (Octets.toHex [0, c.toNat.toUInt8]).toList
  else [c]

/-- A string between quotes. -/
def quote (text : String) : String :=
  String.ofList ('"' :: text.toList.flatMap escapeChar ++ ['"'])

/-- Numbers are positional from 10^-5 on, and an exponent always has a sign. -/
def numberLayout : Decimal.Layout := ⟨-5, "e+"⟩

/-- A value that holds no other values. -/
def scalar : Json → String
  | .null => "null"
  | .bool b => if b then "true" else "false"
  | .int i => toString i.val
  | .float bits => (Binary.ofBits .double bits.toNat).general .double numberLayout
  | .string text => quote text
  | .array _ => "[]"
  | .object _ => "\x7b\x7d"

mutual

/-- Writes a value on one line after what is already written. -/
def writeCompact : Json → String → String
  | .array items, written => writeItems items (written ++ "[") ++ "]"
  | .object members, written => writeMembers members (written ++ "\x7b") ++ "\x7d"
  | v, written => written ++ v.scalar

/-- Writes items with commas between them. -/
def writeItems : List Json → String → String
  | [], written => written
  | [v], written => v.writeCompact written
  | v :: rest, written => writeItems rest (v.writeCompact written ++ ",")

/-- Writes members with commas between them. -/
def writeMembers : List (String × Json) → String → String
  | [], written => written
  | [(name, v)], written => v.writeCompact (written ++ quote name ++ ":")
  | (name, v) :: rest, written =>
    writeMembers rest (v.writeCompact (written ++ quote name ++ ":") ++ ",")

end

/-- The value on one line without blanks. -/
def compact (v : Json) : String :=
  v.writeCompact ""

/-- The end of a line and the blanks of the next one. -/
def newline (depth : Nat) : String :=
  "\n" ++ String.ofList (List.replicate (2 * depth) ' ')

mutual

/-- Writes a value over several lines after what is already written. -/
def writePretty (depth : Nat) : Json → String → String
  | .array (v :: rest), written =>
    writePrettyItems (depth + 1) (v :: rest) (written ++ "[") ++ newline depth ++ "]"
  | .object (m :: rest), written =>
    writePrettyMembers (depth + 1) (m :: rest) (written ++ "\x7b") ++ newline depth ++ "\x7d"
  | v, written => written ++ v.scalar

/-- Writes items, each on a line of its own. -/
def writePrettyItems (depth : Nat) : List Json → String → String
  | [], written => written
  | [v], written => v.writePretty depth (written ++ newline depth)
  | v :: rest, written =>
    writePrettyItems depth rest (v.writePretty depth (written ++ newline depth) ++ ",")

/-- Writes members, each on a line of its own. -/
def writePrettyMembers (depth : Nat) : List (String × Json) → String → String
  | [], written => written
  | [(name, v)], written => v.writePretty depth (written ++ newline depth ++ quote name ++ ": ")
  | (name, v) :: rest, written =>
    writePrettyMembers depth rest
      (v.writePretty depth (written ++ newline depth ++ quote name ++ ": ") ++ ",")

end

/-- The value with one member or item a line. -/
def pretty (v : Json) : String :=
  v.writePretty 0 ""

end Switchboard.Json
