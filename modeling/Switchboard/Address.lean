import Switchboard.Text.Blank
import Switchboard.Text.Cut
import Switchboard.Text.Numeral
import Switchboard.Text.Quoted

/-!
# Server addresses

A server is named by a host and a port.  In text a host that contains a colon stands in square
brackets, and a port that is left out is the default one.

## Main definitions

- `Address` — a host and a port, ordered by the host's text and then by the port
- `Address.parse` — the address that a text names, or an `AddressFault`
- `Address.display` — the text of an address
-/

namespace Switchboard

/-- The name of a server. -/
structure Address where
  host : String
  port : UInt16
  deriving DecidableEq, Inhabited

/-- Why a text names no server. -/
inductive AddressFault where
  /-- nothing but blanks -/
  | empty
  /-- an opening bracket without a closing one -/
  | unterminated (whole : String)
  /-- something other than a port after a bracketed host -/
  | unexpectedTail (tail whole : String)
  /-- a port without a host -/
  | missingHost (whole : String)
  /-- a port that is no number below 65536 -/
  | invalidPort (whole : String) (fault : Numeral.Fault)
  deriving DecidableEq

/-- The wording of a fault. -/
def AddressFault.message : AddressFault → String
  | .empty => "empty address"
  | .unterminated whole => "unterminated IPv6 host in '" ++ whole ++ "'"
  | .unexpectedTail tail whole => "unexpected '" ++ tail ++ "' in '" ++ whole ++ "'"
  | .missingHost whole => "missing host in '" ++ whole ++ "'"
  | .invalidPort whole fault => "invalid port in '" ++ whole ++ "': " ++ fault.message

namespace Address

/-- The port of a server whose address names none. -/
def defaultPort : UInt16 := 3301

/-- The port that a text spells; `whole` is the address that it is part of. -/
def parsePort (port whole : List Char) : Except AddressFault UInt16 :=
  match Numeral.parse 65535 port with
  | .ok n => .ok n.toUInt16
  | .error fault => .error (.invalidPort (String.ofList whole) fault)

/-- Reads what follows an opening bracket. -/
def parseBracketed (rest whole : List Char) : Except AddressFault Address :=
  match Text.cutFirst? ']' rest with
  | none => .error (.unterminated (String.ofList whole))
  | some (host, ':' :: port) => (parsePort port whole).map (⟨String.ofList host, ·⟩)
  | some (host, []) => .ok ⟨String.ofList host, defaultPort⟩
  | some (_, tail) => .error (.unexpectedTail (String.ofList tail) (String.ofList whole))

/-- Reads an address without brackets: a text with several colons is a host. -/
def parsePlain (whole : List Char) : Except AddressFault Address :=
  match Text.cutLast? ':' whole with
  | none => .ok ⟨String.ofList whole, defaultPort⟩
  | some (host, port) =>
    if host.contains ':' then .ok ⟨String.ofList whole, defaultPort⟩
    else if host.isEmpty then .error (.missingHost (String.ofList whole))
    else (parsePort port whole).map (⟨String.ofList host, ·⟩)

/-- The address that a text names, blanks at its ends aside. -/
def parse (text : String) : Except AddressFault Address :=
  match Text.trim text.toList with
  | [] => .error .empty
  | '[' :: rest => parseBracketed rest ('[' :: rest)
  | whole => parsePlain whole

/-- The text of an address.  A host that contains a colon stands in brackets. -/
def display (a : Address) : String :=
  let port := ":" ++ toString a.port.toNat
  if a.host.toList.contains ':' then "[" ++ a.host ++ "]" ++ port else a.host ++ port

/-- The text of an address with its parts named. -/
def inspect (a : Address) : String :=
  "ServerAddress \x7b host: " ++ Text.quoted a.host ++ ", port: " ++ toString a.port.toNat ++
    " \x7d"

/-- Compares two texts by code points, which is also the order of their octets. -/
def compareText : List Char → List Char → Ordering
  | [], [] => .eq
  | [], _ :: _ => .lt
  | _ :: _, [] => .gt
  | c :: s, d :: t => (compare c.toNat d.toNat).then (compareText s t)

/-- Orders addresses by host, then by port. -/
def compare (a b : Address) : Ordering :=
  (compareText a.host.toList b.host.toList).then (Ord.compare a.port.toNat b.port.toNat)

/-- Puts an address into a sorted list, once. -/
def insertSorted (a : Address) : List Address → List Address
  | [] => [a]
  | b :: rest =>
    match compare a b with
    | .lt => a :: b :: rest
    | .eq => b :: rest
    | .gt => b :: insertSorted a rest

/-- The set of the addresses, sorted. -/
def sortedSet (addresses : List Address) : List Address :=
  addresses.foldr insertSorted []

end Address

end Switchboard
