import Switchboard.MessagePack.Value

/-!
# Reading MessagePack

Every form is accepted, short or long.  A budget bounds how deeply values nest: reading a value
takes one from it, entering the contents of an array or map another; text takes two more, binary
data one more, an extension two more.  The items of an array share what the array leaves.

## Main definitions

- `Form` — what a marker announces
- `readValue` — a value from the front of a byte string, and what follows it
- `depthLimit` — the budget of a whole value
- `decode` — `readValue` within `depthLimit`
-/

namespace Switchboard.MessagePack

/-- Why no value can be read. -/
inductive DecodeFault where
  /-- the marker is missing -/
  | missingMarker
  /-- a number, a length or the kind of an extension is cut short -/
  | missingNumber
  /-- `expected` octets of text, binary data or an extension were announced and `found` are left -/
  | missingData (expected found : Nat)
  /-- the depth budget is used up -/
  | depthExceeded
  deriving Repr, DecidableEq

/-- The wording of a fault. -/
def DecodeFault.message : DecodeFault → String
  | .missingMarker => "I/O error while reading marker byte: failed to fill whole buffer"
  | .missingNumber => "I/O error while reading non-marker bytes: failed to fill whole buffer"
  | .missingData expected found =>
    "I/O error while reading non-marker bytes: Expected " ++ toString expected ++ " bytes, read " ++
      toString found ++ " bytes"
  | .depthExceeded => "depth limit exceeded"

/-- What the stream of octets says beneath a fault: it ended too early. -/
def DecodeFault.shortfall? : DecodeFault → Option String
  | .missingMarker | .missingNumber => some "failed to fill whole buffer"
  | .missingData expected found =>
    some ("Expected " ++ toString expected ++ " bytes, read " ++ toString found ++ " bytes")
  | .depthExceeded => none

/-- How a length is given: by the marker itself or by a number of so many octets. -/
inductive Length where
  | known (n : Nat)
  | field (width : Nat)
  deriving Repr, DecidableEq

/-- What a marker announces. -/
inductive Form where
  | nil
  | bool (b : Bool)
  | small (n : Int)
  | unsigned (width : Nat)
  | signed (width : Nat)
  | single
  | double
  | text (length : Length)
  | data (length : Length)
  | array (length : Length)
  | map (length : Length)
  | extension (length : Length)
  deriving Repr, DecidableEq

/-- The form that a marker announces.  The one marker without a meaning reads as nil. -/
def Form.ofMarker (marker : UInt8) : Form :=
  let n := marker.toNat
  if n < 0x80 then .small n
  else if n < 0x90 then .map (.known (n - 0x80))
  else if n < 0xA0 then .array (.known (n - 0x90))
  else if n < 0xC0 then .text (.known (n - 0xA0))
  else if 0xE0 ≤ n then .small ((n : Int) - 256)
  else
    match n with
    | 0xC2 => .bool false
    | 0xC3 => .bool true
    | 0xC4 => .data (.field 1)
    | 0xC5 => .data (.field 2)
    | 0xC6 => .data (.field 4)
    | 0xC7 => .extension (.field 1)
    | 0xC8 => .extension (.field 2)
    | 0xC9 => .extension (.field 4)
    | 0xCA => .single
    | 0xCB => .double
    | 0xCC => .unsigned 1
    | 0xCD => .unsigned 2
    | 0xCE => .unsigned 4
    | 0xCF => .unsigned 8
    | 0xD0 => .signed 1
    | 0xD1 => .signed 2
    | 0xD2 => .signed 4
    | 0xD3 => .signed 8
    | 0xD4 => .extension (.known 1)
    | 0xD5 => .extension (.known 2)
    | 0xD6 => .extension (.known 4)
    | 0xD7 => .extension (.known 8)
    | 0xD8 => .extension (.known 16)
    | 0xD9 => .text (.field 1)
    | 0xDA => .text (.field 2)
    | 0xDB => .text (.field 4)
    | 0xDC => .array (.field 2)
    | 0xDD => .array (.field 4)
    | 0xDE => .map (.field 2)
    | 0xDF => .map (.field 4)
    | _ => .nil

/-- Reads a number of `width` octets. -/
def readNumber (width : Nat) (bytes : Octets) : Except DecodeFault (Nat × Octets) :=
  match Octets.split? width bytes with
  | some (front, rest) => .ok (Octets.ofBigEndian front, rest)
  | none => .error .missingNumber

/-- Reads a length. -/
def readLength (length : Length) (bytes : Octets) : Except DecodeFault (Nat × Octets) :=
  match length with
  | .known n => .ok (n, bytes)
  | .field width => readNumber width bytes

/-- Reads `n` octets of text, binary data or an extension. -/
def readData (n : Nat) (bytes : Octets) : Except DecodeFault (Octets × Octets) :=
  let front := bytes.take n
  if front.length = n then .ok (front, bytes.drop n) else .error (.missingData n front.length)

/-- A number of `width` octets taken as two's complement. -/
def asSigned (width n : Nat) : Int :=
  if n < Nat.pow 2 (8 * width - 1) then n else (n : Int) - Nat.pow 2 (8 * width)

/-- The integer value of a number that its form keeps in range. -/
def integerValue (n : Int) : Value :=
  match Integer.ofInt? n with
  | some i => .int i
  | none => .nil

/-- Reads `count` items onto those already read, latest first. -/
def readItems (read : Octets → Except DecodeFault (Value × Octets)) :
    Nat → Octets → List Value → Except DecodeFault (Value × Octets)
  | 0, bytes, items => .ok (.array items.reverse, bytes)
  | count + 1, bytes, items =>
    match read bytes with
    | .error e => .error e
    | .ok (v, rest) => readItems read count rest (v :: items)

/-- Reads `count` entries onto those already read, latest first. -/
def readEntries (read : Octets → Except DecodeFault (Value × Octets)) :
    Nat → Octets → List (Value × Value) → Except DecodeFault (Value × Octets)
  | 0, bytes, entries => .ok (.map entries.reverse, bytes)
  | count + 1, bytes, entries =>
    match read bytes with
    | .error e => .error e
    | .ok (k, rest) =>
      match read rest with
      | .error e => .error e
      | .ok (v, rest) => readEntries read count rest ((k, v) :: entries)

/-- Reads what a form without contents announces, `depth` being left of the budget. -/
def readScalar (depth : Nat) (form : Form) (bytes : Octets) :
    Except DecodeFault (Value × Octets) :=
  match form with
  | .bool b => .ok (.bool b, bytes)
  | .small n => .ok (integerValue n, bytes)
  | .unsigned width => do
    let (n, rest) ← readNumber width bytes
    return (integerValue n, rest)
  | .signed width => do
    let (n, rest) ← readNumber width bytes
    return (integerValue (asSigned width n), rest)
  | .single => do
    let (n, rest) ← readNumber 4 bytes
    return (.f32 n.toUInt32, rest)
  | .double => do
    let (n, rest) ← readNumber 8 bytes
    return (.f64 n.toUInt64, rest)
  | .text length => do
    let (n, rest) ← readLength length bytes
    if depth < 2 then throw .depthExceeded
    let (text, rest) ← readData n rest
    return (.str text, rest)
  | .data length => do
    let (n, rest) ← readLength length bytes
    if depth < 1 then throw .depthExceeded
    let (data, rest) ← readData n rest
    return (.bin data, rest)
  | .extension length => do
    let (n, rest) ← readLength length bytes
    if depth < 1 then throw .depthExceeded
    match rest with
    | [] => throw .missingNumber
    | kind :: rest =>
      if depth < 2 then throw .depthExceeded
      let (data, rest) ← readData n rest
      return (.ext kind data, rest)
  | _ => .ok (.nil, bytes)

/-- Reads a value from the front within the depth budget, and returns what follows it. -/
def readValue : Nat → Octets → Except DecodeFault (Value × Octets)
  | 0, _ => .error .depthExceeded
  | _ + 1, [] => .error .missingMarker
  | depth + 1, marker :: bytes =>
    match Form.ofMarker marker with
    | .array length =>
      match readLength length bytes with
      | .error e => .error e
      | .ok (count, rest) =>
        match depth with
        | 0 => .error .depthExceeded
        | inner + 1 => readItems (readValue inner) count rest []
    | .map length =>
      match readLength length bytes with
      | .error e => .error e
      | .ok (count, rest) =>
        match depth with
        | 0 => .error .depthExceeded
        | inner + 1 => readEntries (readValue inner) count rest []
    | form => readScalar depth form bytes

/-- The depth budget of a whole value. -/
def depthLimit : Nat := 1024

/-- Reads a value from the front, and returns what follows it. -/
def decode (bytes : Octets) : Except DecodeFault (Value × Octets) :=
  readValue depthLimit bytes

end Switchboard.MessagePack
