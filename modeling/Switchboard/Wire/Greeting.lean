import Switchboard.Text.Base64
import Switchboard.Text.Blank
import Switchboard.Text.Utf8

/-!
# Greetings

A server opens a connection with two lines of 64 octets: who it is, and a salt in base64.

## Main definitions

- `Greeting` — the version, protocol, instance id and salt that a server announces
- `Greeting.parse` — the greeting in 128 octets, or a `GreetingFault`
- `Greeting.render` — the 128 octets
-/

namespace Switchboard.Wire

/-- How a server introduces itself. -/
structure Greeting where
  version : String
  protocol : String
  uuid : Option String
  salt : Octets
  deriving Repr, DecidableEq, Inhabited

/-- Why octets are no greeting. -/
inductive GreetingFault where
  /-- there are not 128 octets -/
  | wrongSize (size : Nat)
  /-- a line is not UTF-8 -/
  | notText (fault : Utf8.Fault)
  /-- the first word is not the server's name -/
  | unexpectedIdentity (identity : String)
  /-- there is no second word -/
  | noVersion
  /-- the second line is not base64 -/
  | invalidSalt (fault : Base64.Fault)
  /-- the second line is empty -/
  | emptySalt
  deriving DecidableEq

namespace Greeting

/-- The octets of a greeting. -/
def size : Nat := 128

/-- The octets of each of its lines. -/
def lineSize : Nat := 64

end Greeting

/-- The wording of a fault. -/
def GreetingFault.message : GreetingFault → String
  | .wrongSize size =>
    "greeting must be " ++ toString Greeting.size ++ " bytes, got " ++ toString size
  | .notText fault => "greeting is not UTF-8: " ++ fault.message
  | .unexpectedIdentity identity => "unexpected server identity '" ++ identity ++ "'"
  | .noVersion => "greeting has no server version"
  | .invalidSalt fault => "invalid salt: " ++ fault.message
  | .emptySalt => "greeting has an empty salt"

namespace Greeting

/-- Is the character one that fills up a line? -/
def isFiller (c : Char) : Bool :=
  c = '\n' || c = ' ' || c = '\x00'

/-- Is the character a parenthesis? -/
def isParenthesis (c : Char) : Bool :=
  c = '(' || c = ')'

/-- The text of a line without its filling. -/
def readLine (raw : Octets) : Except GreetingFault (List Char) :=
  match Utf8.decode raw with
  | .error e => .error (.notText e)
  | .ok text => .ok (Text.dropEndWhile isFiller text)

/-- The word with which a server's identity begins. -/
def serverName : String := "Tarantool"

/-- The protocol of a server that names none. -/
def defaultProtocol : String := "Binary"

/-- Reads version, protocol and instance id. -/
def readIdentity (line : List Char) : Except GreetingFault (String × String × Option String) :=
  match Text.words line with
  | [] => .error (.unexpectedIdentity (String.ofList line))
  | name :: rest =>
    if String.ofList name ≠ serverName then .error (.unexpectedIdentity (String.ofList line))
    else
      match rest with
      | [] => .error .noVersion
      | [version] => .ok (String.ofList version, defaultProtocol, none)
      | version :: protocol :: rest =>
        let protocol := Text.dropEndWhile isParenthesis (protocol.dropWhile isParenthesis)
        .ok (String.ofList version, String.ofList protocol, rest.head?.map String.ofList)

/-- Reads the salt, which may not be empty. -/
def readSalt (line : List Char) : Except GreetingFault Octets :=
  match Base64.decode (Utf8.encode line) with
  | .error e => .error (.invalidSalt e)
  | .ok [] => .error .emptySalt
  | .ok salt => .ok salt

/-- The greeting that the octets hold. -/
def parse (data : Octets) : Except GreetingFault Greeting :=
  if data.length ≠ size then .error (.wrongSize data.length)
  else do
    let identity ← readLine (data.take lineSize)
    let (version, protocol, uuid) ← readIdentity identity
    let saltLine ← readLine (data.drop lineSize)
    let salt ← readSalt saltLine
    return ⟨version, protocol, uuid, salt⟩

/-- A line: at most 63 octets of text, spaces, and the end of the line. -/
def padLine (text : Octets) : Octets :=
  let shown := text.take (lineSize - 1)
  shown ++ List.replicate (lineSize - 1 - shown.length) 0x20 ++ [0x0A]

/-- The text of the first line. -/
def identity (g : Greeting) : String :=
  serverName ++ " " ++ g.version ++ " (" ++ g.protocol ++ ")" ++
    match g.uuid with
    | some uuid => " " ++ uuid
    | none => ""

/-- The octets of a greeting. -/
def render (g : Greeting) : Octets :=
  padLine (Utf8.ofString g.identity) ++ padLine (Base64.encode g.salt)

end Greeting

end Switchboard.Wire
