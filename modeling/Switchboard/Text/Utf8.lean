import Switchboard.Octets

/-!
# UTF-8

Encoding text as octets, and three ways of reading octets as text: strictly, with the position of
the first fault; yes or no; and leniently, with a replacement character for each faulty part.

## Main definitions

- `encode` — the octets of a text
- `next` — the first character of a byte string, or what is wrong with it
- `decode` — the text, or a `Fault`
- `decodeLossy` — the text with each maximal faulty part replaced by U+FFFD
-/

namespace Switchboard.Utf8

/-- The octets of a text. -/
def encode (s : List Char) : Octets :=
  s.flatMap String.utf8EncodeChar

/-- The octets of a string. -/
def ofString (s : String) : Octets :=
  encode s.toList

/-- What stands at the front of a byte string. -/
inductive Front where
  /-- nothing -/
  | finish
  /-- a character, and the octets after it -/
  | char (c : Char) (width : Nat) (rest : Octets)
  /-- octets that begin no character, and the octets after them -/
  | invalid (width : Nat) (rest : Octets)
  /-- the beginning of a character, cut short by the end -/
  | incomplete
  deriving Repr, DecidableEq

/-- Is the octet one of the form `10xxxxxx`? -/
def isContinuation (b : UInt8) : Bool :=
  0x80 ≤ b && b ≤ 0xBF

/-- May `second` follow the leading octet `first` of a longer character?  This excludes overlong
forms, surrogates and numbers above the last code point. -/
def secondFits (first second : UInt8) : Bool :=
  if first = 0xE0 then 0xA0 ≤ second && second ≤ 0xBF
  else if first = 0xED then 0x80 ≤ second && second ≤ 0x9F
  else if first = 0xF0 then 0x90 ≤ second && second ≤ 0xBF
  else if first = 0xF4 then 0x80 ≤ second && second ≤ 0x8F
  else isContinuation second

/-- How many octets a character has that begins with this octet; 0 when none does. -/
def widthOf (first : UInt8) : Nat :=
  if first < 0x80 then 1
  else if first < 0xC2 then 0
  else if first < 0xE0 then 2
  else if first < 0xF0 then 3
  else if first < 0xF5 then 4
  else 0

/-- The low six bits of a continuation octet. -/
def low (b : UInt8) : Nat :=
  b.toNat % 64

/-- Reads the character or the fault at the front. -/
def next : Octets → Front
  | [] => .finish
  | a :: rest =>
    match widthOf a with
    | 1 => .char (Char.ofNat a.toNat) 1 rest
    | 2 =>
      match rest with
      | [] => .incomplete
      | b :: rest =>
        if isContinuation b then .char (Char.ofNat (a.toNat % 32 * 64 + low b)) 2 rest
        else .invalid 1 (b :: rest)
    | 3 =>
      match rest with
      | [] => .incomplete
      | b :: rest =>
        if secondFits a b then
          match rest with
          | [] => .incomplete
          | c :: rest =>
            if isContinuation c then
              .char (Char.ofNat (a.toNat % 16 * 4096 + low b * 64 + low c)) 3 rest
            else .invalid 2 (c :: rest)
        else .invalid 1 (b :: rest)
    | 4 =>
      match rest with
      | [] => .incomplete
      | b :: rest =>
        if secondFits a b then
          match rest with
          | [] => .incomplete
          | c :: rest =>
            if isContinuation c then
              match rest with
              | [] => .incomplete
              | d :: rest =>
                if isContinuation d then
                  let code := a.toNat % 8 * 262144 + low b * 4096 + low c * 64 + low d
                  .char (Char.ofNat code) 4 rest
                else .invalid 3 (d :: rest)
            else .invalid 2 (c :: rest)
        else .invalid 1 (b :: rest)
    | _ => .invalid 1 rest

/-- Why a byte string is not UTF-8. -/
inductive Fault where
  /-- `width` octets from `index` on begin no character -/
  | invalid (width index : Nat)
  /-- the character that begins at `index` is cut short -/
  | incomplete (index : Nat)
  deriving Repr, DecidableEq

/-- The wording of a fault. -/
def Fault.message : Fault → String
  | .invalid width index =>
    "invalid utf-8 sequence of " ++ toString width ++ " bytes from index " ++ toString index
  | .incomplete index => "incomplete utf-8 byte sequence from index " ++ toString index

/-- Reads at most `fuel` characters onto those already read, latest first; `index` counts the octets
read so far. -/
def decodeFrom : Nat → Nat → Octets → List Char → Except Fault (List Char)
  | 0, _, _, read => .ok read.reverse
  | fuel + 1, index, bytes, read =>
    match next bytes with
    | .finish => .ok read.reverse
    | .char c width rest => decodeFrom fuel (index + width) rest (c :: read)
    | .invalid width _ => .error (.invalid width index)
    | .incomplete => .error (.incomplete index)

/-- The text that the octets encode.  Each step takes at least one octet, so one step more than
there are octets reaches the end. -/
def decode (bytes : Octets) : Except Fault (List Char) :=
  decodeFrom (bytes.length + 1) 0 bytes []

/-- The text that the octets encode, if they are UTF-8. -/
def decode? (bytes : Octets) : Option (List Char) :=
  (decode bytes).toOption

/-- Are the octets UTF-8? -/
def valid (bytes : Octets) : Bool :=
  (decode? bytes).isSome

/-- The character that stands for octets that are no text. -/
def replacement : Char := '\ufffd'

/-- Reads at most `fuel` characters or faults onto those already read, latest first. -/
def decodeLossyFrom : Nat → Octets → List Char → List Char
  | 0, _, read => read.reverse
  | fuel + 1, bytes, read =>
    match next bytes with
    | .finish => read.reverse
    | .char c _ rest => decodeLossyFrom fuel rest (c :: read)
    | .invalid _ rest => decodeLossyFrom fuel rest (replacement :: read)
    | .incomplete => (replacement :: read).reverse

/-- The text of the octets, with one replacement character for each maximal part that is no text. -/
def decodeLossy (bytes : Octets) : List Char :=
  decodeLossyFrom (bytes.length + 1) bytes []

end Switchboard.Utf8
