import Switchboard.Octets

/-!
# Base64

The standard alphabet with padding.  Encoding always pads; decoding accepts exactly what encoding
produces, and otherwise names the offending symbol.

## Main definitions

- `encode` — the symbols of a byte string
- `decode` — the byte string, or a `Fault`
-/

namespace Switchboard.Base64

/-- The symbol of a number below 64. -/
def symbol (n : Nat) : UInt8 :=
  if n < 26 then (65 + n).toUInt8
  else if n < 52 then (71 + n).toUInt8
  else if n < 62 then (n - 4).toUInt8
  else if n = 62 then 43
  else 47

/-- The number of a symbol. -/
def value? (b : UInt8) : Option Nat :=
  let n := b.toNat
  if 65 ≤ n ∧ n ≤ 90 then some (n - 65)
  else if 97 ≤ n ∧ n ≤ 122 then some (n - 71)
  else if 48 ≤ n ∧ n ≤ 57 then some (n + 4)
  else if n = 43 then some 62
  else if n = 47 then some 63
  else none

/-- The symbol that fills the last group. -/
def pad : UInt8 := 61

/-- Three octets become four symbols; a shorter last group is filled with `pad`. -/
def encode : Octets → Octets
  | [] => []
  | [a] =>
    let n := a.toNat * 16
    [symbol (n / 64), symbol (n % 64), pad, pad]
  | [a, b] =>
    let n := (a.toNat * 256 + b.toNat) * 4
    [symbol (n / 4096), symbol (n / 64 % 64), symbol (n % 64), pad]
  | a :: b :: c :: rest =>
    let n := (a.toNat * 256 + b.toNat) * 256 + c.toNat
    symbol (n / 262144) :: symbol (n / 4096 % 64) :: symbol (n / 64 % 64) :: symbol (n % 64) ::
      encode rest

/-- Why a byte string is not base64. -/
inductive Fault where
  /-- an octet that may not stand at this offset -/
  | invalidSymbol (offset : Nat) (octet : UInt8)
  /-- the symbols end after a group of one -/
  | invalidLength (length : Nat)
  /-- the last symbol carries bits that belong to no octet -/
  | invalidLastSymbol (offset : Nat) (octet : UInt8)
  /-- the last group is not filled to four -/
  | invalidPadding
  deriving Repr, DecidableEq

/-- The wording of a fault. -/
def Fault.message : Fault → String
  | .invalidSymbol offset octet =>
    "Invalid symbol " ++ toString octet.toNat ++ ", offset " ++ toString offset ++ "."
  | .invalidLength length => "Invalid input length: " ++ toString length
  | .invalidLastSymbol offset octet =>
    "Invalid last symbol " ++ toString octet.toNat ++ ", offset " ++ toString offset ++ "."
  | .invalidPadding => "Invalid padding"

/-- The values of the symbols of a group, `offset` being the place of its first. -/
def values (offset : Nat) : Octets → Except Fault (List Nat)
  | [] => .ok []
  | b :: rest =>
    match value? b with
    | none => .error (.invalidSymbol offset b)
    | some v => (values (offset + 1) rest).map (v :: ·)

/-- The octets that a complete group of four values spells. -/
def octetsOf (a b c d : Nat) : Octets :=
  let n := ((a * 64 + b) * 64 + c) * 64 + d
  [(n / 65536).toUInt8, (n / 256).toUInt8, n.toUInt8]

/-- Splits a last group into its symbols' values and the count of `pad` after them.  `first` is the
offset of the group, `index` the place in it, `pads` the count of `pad` so far. -/
def lastGroup (first : Nat) : Octets → Nat → Nat → Except Fault (List Nat × Nat)
  | [], _, pads => .ok ([], pads)
  | b :: rest, index, pads =>
    if b = pad then
      if index < 2 then .error (.invalidSymbol (first + index) b)
      else lastGroup first rest (index + 1) (pads + 1)
    else if pads > 0 then .error (.invalidSymbol (first + index - pads) pad)
    else
      match value? b with
      | none => .error (.invalidSymbol (first + index) b)
      | some v =>
        match lastGroup first rest (index + 1) pads with
        | .error e => .error e
        | .ok (vs, pads) => .ok (v :: vs, pads)

/-- Decodes the last group, of at most four octets.  It must be filled to four, and the bits of its
last symbol that belong to no octet must be zero. -/
def decodeLast (first : Nat) (group : Octets) : Except Fault Octets :=
  match lastGroup first group 0 0 with
  | .error e => .error e
  | .ok (vs, pads) =>
    let spare := .error (.invalidLastSymbol (first + vs.length - 1) (group.getD (vs.length - 1) 0))
    match vs with
    | [] | [_] => .error (.invalidLength (first + vs.length))
    | _ =>
      if (vs.length + pads) % 4 ≠ 0 then .error .invalidPadding
      else
        match vs with
        | [a, b] => if b % 16 = 0 then .ok ((octetsOf a b 0 0).take 1) else spare
        | [a, b, c] => if c % 4 = 0 then .ok ((octetsOf a b c 0).take 2) else spare
        | [a, b, c, d] => .ok (octetsOf a b c d)
        | _ => .error .invalidPadding

/-- Decodes groups from the offset `first` on, the last one by `decodeLast`. -/
def decodeFrom (first : Nat) : Octets → Except Fault Octets
  | a :: b :: c :: d :: e :: rest =>
    match values first [a, b, c, d] with
    | .ok [a, b, c, d] => (decodeFrom (first + 4) (e :: rest)).map (octetsOf a b c d ++ ·)
    | .ok _ => .ok []
    | .error f => .error f
  | [] => .ok []
  | group => decodeLast first group

/-- The octets that the symbols spell.  A single octet too many is reported first when it is no
symbol, such as the end of a line. -/
def decode (symbols : Octets) : Except Fault Octets :=
  match symbols.getLast? with
  | some b =>
    if symbols.length % 4 = 1 ∧ b ≠ pad ∧ value? b = none then
      .error (.invalidSymbol (symbols.length - 1) b)
    else decodeFrom 0 symbols
  | none => .ok []

end Switchboard.Base64
