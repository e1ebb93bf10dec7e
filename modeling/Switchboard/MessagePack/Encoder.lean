import Switchboard.MessagePack.Value

/-!
# Writing MessagePack

Every value is written in its shortest form: an integer in the fewest octets, a length in the
shortest length field.  Text that is not UTF-8 is written as binary data.

## Main definitions

- `writeValue` — puts a value in front of octets already written, latest first
- `encode` — the octets of a value
-/

namespace Switchboard.MessagePack

/-- The octets of an integer. -/
def encodeInteger (i : Integer) : Octets :=
  let n := i.val.toNat
  if 0 ≤ i.val then
    if n < 0x80 then [n.toUInt8]
    else if n < 0x100 then 0xCC :: Octets.bigEndian 1 n
    else if n < 0x10000 then 0xCD :: Octets.bigEndian 2 n
    else if n < 0x100000000 then 0xCE :: Octets.bigEndian 4 n
    else 0xCF :: Octets.bigEndian 8 n
  else if -0x20 ≤ i.val then [(256 + i.val).toNat.toUInt8]
  else if -0x80 ≤ i.val then 0xD0 :: Octets.bigEndian 1 (0x100 + i.val).toNat
  else if -0x8000 ≤ i.val then 0xD1 :: Octets.bigEndian 2 (0x10000 + i.val).toNat
  else if -0x80000000 ≤ i.val then 0xD2 :: Octets.bigEndian 4 (0x100000000 + i.val).toNat
  else 0xD3 :: Octets.bigEndian 8 (0x10000000000000000 + i.val).toNat

/-- The marker and length in front of text of `n` octets. -/
def textHeader (n : Nat) : Octets :=
  if n < 32 then [(0xA0 + n).toUInt8]
  else if n < 0x100 then 0xD9 :: Octets.bigEndian 1 n
  else if n < 0x10000 then 0xDA :: Octets.bigEndian 2 n
  else 0xDB :: Octets.bigEndian 4 n

/-- The marker and length in front of `n` octets of binary data. -/
def dataHeader (n : Nat) : Octets :=
  if n < 0x100 then 0xC4 :: Octets.bigEndian 1 n
  else if n < 0x10000 then 0xC5 :: Octets.bigEndian 2 n
  else 0xC6 :: Octets.bigEndian 4 n

/-- The marker and length in front of `n` items. -/
def arrayHeader (n : Nat) : Octets :=
  if n < 16 then [(0x90 + n).toUInt8]
  else if n < 0x10000 then 0xDC :: Octets.bigEndian 2 n
  else 0xDD :: Octets.bigEndian 4 n

/-- The marker and length in front of `n` entries. -/
def mapHeader (n : Nat) : Octets :=
  if n < 16 then [(0x80 + n).toUInt8]
  else if n < 0x10000 then 0xDE :: Octets.bigEndian 2 n
  else 0xDF :: Octets.bigEndian 4 n

/-- The marker and length in front of the kind and `n` octets of an extension. -/
def extHeader (n : Nat) : Octets :=
  if n = 1 then [0xD4]
  else if n = 2 then [0xD5]
  else if n = 4 then [0xD6]
  else if n = 8 then [0xD7]
  else if n = 16 then [0xD8]
  else if n < 0x100 then 0xC7 :: Octets.bigEndian 1 n
  else if n < 0x10000 then 0xC8 :: Octets.bigEndian 2 n
  else 0xC9 :: Octets.bigEndian 4 n

/-- The octets of a value up to the items or entries it holds. -/
def encodeHead : Value → Octets
  | .nil => [0xC0]
  | .bool false => [0xC2]
  | .bool true => [0xC3]
  | .int i => encodeInteger i
  | .f32 bits => 0xCA :: Octets.bigEndian 4 bits.toNat
  | .f64 bits => 0xCB :: Octets.bigEndian 8 bits.toNat
  | .str text =>
    if Utf8.valid text then textHeader text.length ++ text else dataHeader text.length ++ text
  | .bin data => dataHeader data.length ++ data
  | .array items => arrayHeader items.length
  | .map entries => mapHeader entries.length
  | .ext kind data => extHeader data.length ++ kind :: data

mutual

/-- Writes a value after octets already written, latest first. -/
def writeValue : Value → Octets → Octets
  | .array items, written => writeItems items ((arrayHeader items.length).reverseAux written)
  | .map entries, written => writeEntries entries ((mapHeader entries.length).reverseAux written)
  | v, written => (encodeHead v).reverseAux written

/-- Writes one item after the other. -/
def writeItems : List Value → Octets → Octets
  | [], written => written
  | v :: rest, written => writeItems rest (writeValue v written)

/-- Writes one entry after the other, each key before its value. -/
def writeEntries : List (Value × Value) → Octets → Octets
  | [], written => written
  | (k, v) :: rest, written => writeEntries rest (writeValue v (writeValue k written))

end

/-- The octets of a value. -/
def encode (v : Value) : Octets :=
  (writeValue v []).reverse

end Switchboard.MessagePack
