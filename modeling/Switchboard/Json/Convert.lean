import Switchboard.Json.Printer

/-!
# JSON and MessagePack

Arguments are typed as JSON and results are shown as JSON, so values are converted both ways.  JSON
knows fewer kinds of values: binary data becomes a list of numbers, an extension an object, and a
key that is no text the JSON text of itself.

## Main definitions

- `Json.toValue` — the MessagePack value of a JSON value
- `Json.ofValue` — the JSON value that shows a MessagePack value
- `Json.arguments` — the positional arguments that a JSON value gives
-/

namespace Switchboard.Json

open MessagePack

mutual

/-- The MessagePack value of a JSON value. -/
def toValue : Json → Value
  | .null => .nil
  | .bool b => .bool b
  | .int i => .int i
  | .float bits => .f64 bits
  | .string text => .ofString text
  | .array items => .array (toValues items)
  | .object members => .map (toEntries members)

/-- The MessagePack values of items. -/
def toValues : List Json → List Value
  | [] => []
  | v :: rest => v.toValue :: toValues rest

/-- The map entries of members. -/
def toEntries : List (String × Json) → List (Value × Value)
  | [] => []
  | (name, v) :: rest => (.ofString name, v.toValue) :: toEntries rest

end

/-- The positional arguments that a JSON value gives: the items of an array, or the one value. -/
def arguments : Json → List Value
  | .array items => toValues items
  | v => [v.toValue]

/-- Octets as a list of numbers. -/
def ofOctets (bytes : Octets) : Json :=
  .array (bytes.map fun b => .ofNat b.toNat)

/-- A small whole number. -/
def ofSmall (n : Int) : Json :=
  match Integer.ofInt? n with
  | some i => .int i
  | none => .null

/-- The JSON value of a value that holds no other values. -/
def ofScalar : Value → Json
  | .bool b => .bool b
  | .int i => .int i
  | .f32 bits => .ofFloat ((Binary.ofBits .single bits.toNat).convert .double)
  | .f64 bits => .ofFloat (Binary.ofBits .double bits.toNat)
  | .str bytes => .string (String.ofList (Utf8.decodeLossy bytes))
  | .bin bytes => ofOctets bytes
  | .ext kind bytes =>
    .object
      [("data", ofOctets bytes),
       ("type", ofSmall (if kind.toNat < 128 then kind.toNat else (kind.toNat : Int) - 256))]
  | _ => .null

/-- The name under which an entry is shown, given the JSON value of its key. -/
def memberName (key : Value) (shown : Json) : String :=
  match key with
  | .str bytes => String.ofList (Utf8.decodeLossy bytes)
  | _ => shown.compact

mutual

/-- The JSON value that shows a value. -/
def ofValue : Value → Json
  | .array items => .array (ofValues items [])
  | .map entries => .object (ofEntries entries [])
  | v => ofScalar v

/-- The JSON values of items, after those already shown, latest first. -/
def ofValues : List Value → List Json → List Json
  | [], shown => shown.reverse
  | v :: rest, shown => ofValues rest (ofValue v :: shown)

/-- Sets a member for each entry; of entries shown under one name the last counts. -/
def ofEntries : List (Value × Value) → List (String × Json) → List (String × Json)
  | [], members => members
  | (k, v) :: rest, members =>
    ofEntries rest (putMember (memberName k (ofValue k)) (ofValue v) members)

end

end Switchboard.Json
