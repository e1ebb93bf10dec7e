import Switchboard.Text.Utf8

/-!
# MessagePack values

The values that MessagePack can carry.  Text is held as octets, since a sender may call any octets
text; floating-point numbers are held by their bits.

## Main definitions

- `Integer` — a whole number that fits one of the wire forms
- `Value` — a value
- `Value.norm` — the value as it comes back from the wire
- `Value.cost` — how much of a depth budget reading the value takes
-/

namespace Switchboard.MessagePack

/-- A whole number from -2^63 up to, not including, 2^64. -/
structure Integer where
  val : Int
  lower : -0x8000000000000000 ≤ val
  upper : val < 0x10000000000000000
  deriving DecidableEq

namespace Integer

instance : Inhabited Integer := ⟨⟨0, by decide, by decide⟩⟩

/-- The number itself if it is in range. -/
def ofInt? (n : Int) : Option Integer :=
  if h : -0x8000000000000000 ≤ n ∧ n < 0x10000000000000000 then some ⟨n, h.1, h.2⟩ else none

/-- The integer of an unsigned word. -/
def ofWord (n : UInt64) : Integer :=
  ⟨n.toNat, by have := n.toNat_lt; omega, by have := n.toNat_lt; omega⟩

/-- The unsigned word of an integer that is not negative. -/
def toWord? (i : Integer) : Option UInt64 :=
  if 0 ≤ i.val then some i.val.toNat.toUInt64 else none

end Integer

/-- A MessagePack value. -/
inductive Value where
  | nil
  | bool (b : Bool)
  | int (i : Integer)
  | f32 (bits : UInt32)
  | f64 (bits : UInt64)
  | str (text : Octets)
  | bin (data : Octets)
  | array (items : List Value)
  | map (entries : List (Value × Value))
  | ext (kind : UInt8) (data : Octets)
  deriving Inhabited

namespace Value

/-- The integer value of an unsigned word. -/
def ofWord (n : UInt64) : Value :=
  .int (.ofWord n)

/-- The text value of a string. -/
def ofString (s : String) : Value :=
  .str (Utf8.ofString s)

/-- The unsigned word that the value holds, if it is an integer that is not negative. -/
def word? : Value → Option UInt64
  | .int i => i.toWord?
  | _ => none

/-- The text that the value holds, if it is text and valid UTF-8. -/
def text? : Value → Option (List Char)
  | .str bytes => Utf8.decode? bytes
  | _ => none

mutual

/-- The value as it comes back from the wire: text that is not UTF-8 travels as binary data. -/
def norm : Value → Value
  | .str bytes => if Utf8.valid bytes then .str bytes else .bin bytes
  | .array items => .array (normItems items)
  | .map entries => .map (normEntries entries)
  | v => v

/-- `norm` of each item. -/
def normItems : List Value → List Value
  | [] => []
  | v :: rest => v.norm :: normItems rest

/-- `norm` of each key and value. -/
def normEntries : List (Value × Value) → List (Value × Value)
  | [] => []
  | (k, v) :: rest => (k.norm, v.norm) :: normEntries rest

end

mutual

/-- How much of a depth budget reading the value takes. -/
def cost : Value → Nat
  | .str _ | .ext .. => 3
  | .bin _ => 2
  | .array items => 2 + costItems items
  | .map entries => 2 + costEntries entries
  | _ => 1

/-- The largest cost of an item. -/
def costItems : List Value → Nat
  | [] => 0
  | v :: rest => max v.cost (costItems rest)

/-- The largest cost of a key or value. -/
def costEntries : List (Value × Value) → Nat
  | [] => 0
  | (k, v) :: rest => max (max k.cost v.cost) (costEntries rest)

end

end Value

end Switchboard.MessagePack
