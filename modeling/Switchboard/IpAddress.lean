import Switchboard.Address

/-!
# Internet addresses

The text of a numeric network address: four decimal numbers, or eight groups of hexadecimal digits
with the longest run of two or more zero groups left out.

## Main definitions

- `IpAddress` — an address of 4 or of 16 octets
- `IpAddress.display` — its text
- `Address.ofIp` — the server address of a network address and a port
-/

namespace Switchboard

/-- A network address. -/
inductive IpAddress where
  | v4 (a b c d : UInt8)
  | v6 (groups : Vector UInt16 8)
  deriving DecidableEq

namespace IpAddress

/-- Pairs of octets as groups of 16 bits. -/
def groupsOf : Octets → List UInt16
  | a :: b :: rest => (a.toNat * 256 + b.toNat).toUInt16 :: groupsOf rest
  | _ => []

/-- The address that 4 or 16 octets spell. -/
def ofOctets? (bytes : Octets) : Option IpAddress :=
  match bytes with
  | [a, b, c, d] => some (.v4 a b c d)
  | _ =>
    if h : (groupsOf bytes).toArray.size = 8 ∧ bytes.length = 16 then
      some (.v6 ⟨(groupsOf bytes).toArray, h.1⟩)
    else none

/-- Four decimal numbers with points between them. -/
def dotted (a b c d : UInt8) : String :=
  ".".intercalate ([a, b, c, d].map fun x => toString x.toNat)

/-- Groups in hexadecimal with colons between them. -/
def coloned (groups : List UInt16) : String :=
  ":".intercalate (groups.map fun g => hexText g.toNat)

/-- How many zero groups stand at the front. -/
def zeroRun (groups : List UInt16) : Nat :=
  (groups.takeWhile (· == 0)).length

/-- The start and length of the first longest run of zero groups, `start` being the index of the
first group given. -/
def longestRun (start : Nat) : List UInt16 → Nat × Nat
  | [] => (start, 0)
  | g :: rest =>
    let here := zeroRun (g :: rest)
    let later := longestRun (start + 1) rest
    if here < later.2 then later else (start, here)

/-- The text of an address. -/
def display : IpAddress → String
  | .v4 a b c d => dotted a b c d
  | .v6 groups =>
    match groups.toList with
    | [0, 0, 0, 0, 0, 0xFFFF, high, low] =>
      "::ffff:" ++ dotted (high >>> 8).toUInt8 high.toUInt8 (low >>> 8).toUInt8 low.toUInt8
    | list =>
      let (start, count) := longestRun 0 list
      if count > 1 then coloned (list.take start) ++ "::" ++ coloned (list.drop (start + count))
      else coloned list

end IpAddress

/-- The server address of a network address and a port. -/
def Address.ofIp (ip : IpAddress) (port : UInt16) : Address :=
  ⟨ip.display, port⟩

end Switchboard
