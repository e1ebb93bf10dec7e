import Switchboard.MessagePack.Value
import Switchboard.Number.Shortest
import Switchboard.Text.Quoted

/-!
# Showing MessagePack values

The text of a value as it appears in messages: text is quoted, octets are a list of numbers, and a
floating-point number has the fewest digits that read back in its own width.

## Main definitions

- `Value.display` — the text of a value
-/

namespace Switchboard.MessagePack

/-- Octets as a list of numbers. -/
def displayOctets (bytes : Octets) : String :=
  "[" ++ ", ".intercalate (bytes.map fun b => toString b.toNat) ++ "]"

/-- An octet taken as a signed number. -/
def signedOctet (b : UInt8) : Int :=
  if b.toNat < 128 then b.toNat else (b.toNat : Int) - 256

namespace Value

/-- The text of a value that holds no other values. -/
def displayScalar : Value → String
  | .bool b => if b then "true" else "false"
  | .int i => toString i.val
  | .f32 bits => (Binary.ofBits .single bits.toNat).positional .single
  | .f64 bits => (Binary.ofBits .double bits.toNat).positional .double
  | .str bytes =>
    match Utf8.decode? bytes with
    | some text => Text.quoted (String.ofList text)
    | none => displayOctets bytes
  | .bin bytes => displayOctets bytes
  | .ext kind bytes => "[" ++ toString (signedOctet kind) ++ ", " ++ displayOctets bytes ++ "]"
  | _ => "nil"

mutual

/-- The text of a value. -/
def display : Value → String
  | .array items => "[" ++ displayItems items "" ++ "]"
  | .map entries => "\x7b" ++ displayEntries entries "" ++ "\x7d"
  | v => v.displayScalar

/-- The texts of the items with commas between them, after the text already shown. -/
def displayItems : List Value → String → String
  | [], shown => shown
  | [v], shown => shown ++ v.display
  | v :: rest, shown => displayItems rest (shown ++ v.display ++ ", ")

/-- The texts of the entries with commas between them, after the text already shown. -/
def displayEntries : List (Value × Value) → String → String
  | [], shown => shown
  | [(k, v)], shown => shown ++ k.display ++ ": " ++ v.display
  | (k, v) :: rest, shown => displayEntries rest (shown ++ k.display ++ ": " ++ v.display ++ ", ")

end

end Value

end Switchboard.MessagePack
