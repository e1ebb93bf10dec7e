import Switchboard.MessagePack.Display
import Switchboard.Wire.Code
import Switchboard.Wire.Key

/-!
# Message headers

A header is a map on the wire.  Of several entries with one key the last counts, and entries with
unknown keys are ignored.

## Main definitions

- `Header` — sync id, code and schema version of a message
- `Header.toValue`, `Header.ofValue` — the map
-/

namespace Switchboard.Wire

open MessagePack

/-- What a message says about its body. -/
structure Header where
  sync : UInt64
  code : Code
  schema : Option UInt64
  deriving Repr, DecidableEq

/-- Why a value is no header. -/
inductive HeaderFault where
  /-- the value is not a map -/
  | notMap (value : Value)
  /-- there is no code -/
  | noCode
  /-- the code does not fit 32 bits -/
  | codeOutOfRange (code : UInt64)
  /-- there is no sync id -/
  | noSync

/-- The wording of a fault. -/
def HeaderFault.message : HeaderFault → String
  | .notMap value => "header is not a map: " ++ value.display
  | .noCode => "header has no code"
  | .codeOutOfRange code => "header code " ++ toString code.toNat ++ " out of range"
  | .noSync => "header has no sync"

namespace Header

/-- The header as a map. -/
def toValue (h : Header) : Value :=
  .map <|
    [(.ofWord Key.code, .ofWord h.code.toRaw.toUInt64), (.ofWord Key.sync, .ofWord h.sync)] ++
      match h.schema with
      | some schema => [(.ofWord Key.schema, .ofWord schema)]
      | none => []

/-- The unsigned word in the last entry with the key; `found` is that of the entries before. -/
def lastWord (key : UInt64) : List (Value × Value) → Option UInt64 → Option UInt64
  | [], found => found
  | (k, v) :: rest, found => lastWord key rest (if k.word? = some key then v.word? else found)

/-- Reads the header of a map's entries. -/
def ofEntries (entries : List (Value × Value)) : Except HeaderFault Header :=
  match lastWord Key.code entries none with
  | none => .error .noCode
  | some code =>
    if code.toNat < 0x100000000 then
      match lastWord Key.sync entries none with
      | none => .error .noSync
      | some sync => .ok ⟨sync, .ofRaw code.toUInt32, lastWord Key.schema entries none⟩
    else .error (.codeOutOfRange code)

/-- Reads a header from its map. -/
def ofValue : Value → Except HeaderFault Header
  | .map entries => ofEntries entries
  | v => .error (.notMap v)

/-- The header with its code as it is read back. -/
def canonical (h : Header) : Header :=
  { h with code := h.code.canonical }

end Header

end Switchboard.Wire
