import Switchboard.Json.Number
import Switchboard.Text.Utf8

/-!
# Reading JSON

A text is read octet by octet.  Arrays and objects nest to a limited depth; of members with one name
the last counts.

## Main definitions

- `Json.readValue` — a value from the front of a text
- `Json.parse` — the value of a whole text, or the wording of what is wrong with it and where
-/

namespace Switchboard.Json

/-- The wording of a kind of fault. -/
def FaultKind.message : FaultKind → String
  | .eofInValue => "EOF while parsing a value"
  | .eofInList => "EOF while parsing a list"
  | .eofInObject => "EOF while parsing an object"
  | .eofInString => "EOF while parsing a string"
  | .expectedColon => "expected `:`"
  | .expectedCommaOrBracket => "expected `,` or `]`"
  | .expectedCommaOrBrace => "expected `,` or `\x7d`"
  | .expectedIdent => "expected ident"
  | .expectedValue => "expected value"
  | .invalidEscape => "invalid escape"
  | .invalidNumber => "invalid number"
  | .numberOutOfRange => "number out of range"
  | .controlCharacter => "control character (\\u0000-\\u001F) found while parsing a string"
  | .keyMustBeString => "key must be a string"
  | .loneSurrogate => "lone leading surrogate in hex escape"
  | .trailingComma => "trailing comma"
  | .trailingCharacters => "trailing characters"
  | .unexpectedEndOfEscape => "unexpected end of hex escape"
  | .tooDeep => "recursion limit exceeded"

/-- The text without the blanks at its front. -/
def skipBlanks : Octets → Octets
  | b :: rest => if b = 0x20 ∨ b = 0x09 ∨ b = 0x0A ∨ b = 0x0D then skipBlanks rest else b :: rest
  | [] => []

/-- Reads the rest of a literal. -/
def readLiteral (v : Json) : List UInt8 → Octets → Except Fault (Json × Octets)
  | [], text => .ok (v, text)
  | _ :: _, [] => fault .eofInValue []
  | expected :: more, b :: rest =>
    if b = expected then readLiteral v more rest else fault .expectedIdent rest

/-- The number that four hexadecimal digits spell, and the text behind them. -/
def readHex (text : Octets) : Except Fault (Nat × Octets) :=
  match text with
  | a :: b :: c :: d :: rest =>
    let values := [a, b, c, d].map fun x => Octets.hexValue? (Char.ofNat x.toNat)
    match values with
    | [some a, some b, some c, some d] => .ok (((a * 16 + b) * 16 + c) * 16 + d, rest)
    | _ => fault .invalidEscape rest
  | _ => fault .eofInString []

/-- Is the number a leading surrogate, the first half of a pair? -/
def isLeading (n : Nat) : Bool := 0xD800 ≤ n && n ≤ 0xDBFF

/-- Is the number a trailing surrogate, the second half of a pair? -/
def isTrailing (n : Nat) : Bool := 0xDC00 ≤ n && n ≤ 0xDFFF

/-- Takes the octet that must come next in the middle of a pair. -/
def expectInPair (expected : UInt8) (text : Octets) : Except Fault Octets :=
  match text with
  | [] => fault .eofInString []
  | b :: rest => if b = expected then .ok rest else fault .unexpectedEndOfEscape rest

/-- Reads a character given by its number; a pair of surrogates is one character. -/
def readUnicode (text : Octets) : Except Fault (Char × Octets) := do
  let (n, rest) ← readHex text
  if isTrailing n then fault .loneSurrogate rest
  else if isLeading n then
    let rest ← expectInPair 0x5C rest
    let rest ← expectInPair 0x75 rest
    let (m, rest) ← readHex rest
    if isTrailing m then
      return (Char.ofNat ((n - 0xD800) * 0x400 + (m - 0xDC00) + 0x10000), rest)
    else fault .loneSurrogate rest
  else return (Char.ofNat n, rest)

/-- Reads what follows a backslash. -/
def readEscape (text : Octets) : Except Fault (Char × Octets) :=
  match text with
  | [] => fault .eofInString []
  | b :: rest =>
    match Char.ofNat b.toNat with
    | '"' => .ok ('"', rest)
    | '\\' => .ok ('\\', rest)
    | '/' => .ok ('/', rest)
    | 'b' => .ok ('\x08', rest)
    | 'f' => .ok ('\x0c', rest)
    | 'n' => .ok ('\n', rest)
    | 'r' => .ok ('\r', rest)
    | 't' => .ok ('\t', rest)
    | 'u' => readUnicode rest
    | _ => fault .invalidEscape rest

/-- Reads the rest of a string in at most `fuel` steps, onto the octets already read, latest
first. -/
def readStringFrom : Nat → Octets → Octets → Except Fault (String × Octets)
  | 0, text, _ => fault .eofInString text
  | _ + 1, [], _ => fault .eofInString []
  | fuel + 1, b :: rest, read =>
    if b = 0x22 then .ok (String.ofList (Utf8.decodeLossy read.reverse), rest)
    else if b = 0x5C then
      match readEscape rest with
      | .error e => .error e
      | .ok (c, rest) => readStringFrom fuel rest ((String.utf8EncodeChar c).reverseAux read)
    else if b < 0x20 then fault .controlCharacter rest
    else readStringFrom fuel rest (b :: read)

/-- Reads the rest of a string behind its opening quote. -/
def readString (text : Octets) : Except Fault (String × Octets) :=
  readStringFrom (text.length + 1) text []

/-- A way to read a value from the front of a text. -/
abbrev ValueReader := Octets → Except Fault (Json × Octets)

/-- Reads the items of an array in at most `fuel` steps, onto those already read, latest first. -/
def readItems (read : ValueReader) : Nat → Octets → List Json → Except Fault (Json × Octets)
  | 0, text, _ => fault .eofInList text
  | fuel + 1, text, items =>
    match skipBlanks text with
    | [] => peekFault .eofInList []
    | 0x5D :: rest => .ok (.array items.reverse, rest)
    | b :: rest =>
      let element : Except Fault Octets :=
        if items.isEmpty then .ok (b :: rest)
        else if b = 0x2C then
          match skipBlanks rest with
          | [] => peekFault .eofInValue []
          | 0x5D :: after => peekFault .trailingComma (0x5D :: after)
          | text => .ok text
        else peekFault .expectedCommaOrBracket (b :: rest)
      match element with
      | .error e => .error e
      | .ok text =>
        match read text with
        | .error e => .error e
        | .ok (v, rest) => readItems read fuel rest (v :: items)

/-- Reads the colon between a name and its value. -/
def readColon (text : Octets) : Except Fault Octets :=
  match skipBlanks text with
  | [] => peekFault .eofInObject []
  | 0x3A :: rest => .ok rest
  | text => peekFault .expectedColon text

/-- Reads the members of an object in at most `fuel` steps, onto those already read. -/
def readMembers (read : ValueReader) :
    Nat → Bool → Octets → List (String × Json) → Except Fault (Json × Octets)
  | 0, _, text, _ => fault .eofInObject text
  | fuel + 1, first, text, members =>
    match skipBlanks text with
    | [] => peekFault .eofInObject []
    | 0x7D :: rest => .ok (.object members, rest)
    | b :: rest =>
      let key : Except Fault Octets :=
        if first then
          if b = 0x22 then .ok rest else peekFault .keyMustBeString (b :: rest)
        else if b = 0x2C then
          match skipBlanks rest with
          | [] => peekFault .eofInValue []
          | 0x22 :: rest => .ok rest
          | 0x7D :: after => peekFault .trailingComma (0x7D :: after)
          | text => peekFault .keyMustBeString text
        else peekFault .expectedCommaOrBrace (b :: rest)
      match key with
      | .error e => .error e
      | .ok text =>
        match readString text with
        | .error e => .error e
        | .ok (name, rest) =>
          match readColon rest with
          | .error e => .error e
          | .ok rest =>
            match read rest with
            | .error e => .error e
            | .ok (v, rest) => readMembers read fuel false rest (putMember name v members)

/-- The value of a number. -/
def ofNumeric : Numeric × Octets → Json × Octets
  | (.int i, rest) => (.int i, rest)
  | (.float b, rest) => (.ofFloat b, rest)

/-- Reads a value from the front.  Fewer arrays and objects than `depth` may nest in it. -/
def readValue : Nat → ValueReader
  | depth, text =>
    match skipBlanks text with
    | [] => peekFault .eofInValue []
    | b :: rest =>
      match Char.ofNat b.toNat with
      | 'n' => readLiteral .null [0x75, 0x6C, 0x6C] rest
      | 't' => readLiteral (.bool true) [0x72, 0x75, 0x65] rest
      | 'f' => readLiteral (.bool false) [0x61, 0x6C, 0x73, 0x65] rest
      | '-' => (readNumber false rest).map ofNumeric
      | '"' => (readString rest).map fun (text, rest) => (.string text, rest)
      | '[' =>
        match depth with
        | inner + 2 => readItems (readValue (inner + 1)) (rest.length + 1) rest []
        | _ => peekFault .tooDeep (b :: rest)
      | '{' =>
        match depth with
        | inner + 2 => readMembers (readValue (inner + 1)) (rest.length + 1) true rest []
        | _ => peekFault .tooDeep (b :: rest)
      | _ =>
        if (digit? b).isSome then (readNumber true (b :: rest)).map ofNumeric
        else peekFault .expectedValue (b :: rest)

/-- The depth that a whole text is read with. -/
def maxDepth : Nat := 128

/-- The line and column of a place in a text, both by the ends of lines before it. -/
def lineAndColumn (text : Octets) (place : Nat) : Nat × Nat :=
  let before := text.take place
  let column := (before.reverse.takeWhile (· ≠ 0x0A)).length
  (1 + before.count 0x0A, column)

/-- The wording of a fault in a text. -/
def Fault.message (text : Octets) (f : Fault) : String :=
  let taken := text.length - f.rest.length
  let place := if f.peeked then min text.length (taken + 1) else taken
  let (line, column) := lineAndColumn text place
  f.kind.message ++ " at line " ++ toString line ++ " column " ++ toString column

/-- Reads a value that nothing but blanks follows. -/
def readWhole (text : Octets) : Except Fault Json := do
  let (v, rest) ← readValue maxDepth text
  match skipBlanks rest with
  | [] => return v
  | rest => peekFault .trailingCharacters rest

/-- The value of a text, or the wording of what is wrong with it. -/
def parse (text : String) : Except String Json :=
  let octets := Utf8.ofString text
  (readWhole octets).mapError (Fault.message octets)

end Switchboard.Json
