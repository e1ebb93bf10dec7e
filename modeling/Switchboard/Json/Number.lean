import Switchboard.Json.Value

/-!
# Reading JSON numbers

A whole number of at most 64 bits is kept exactly.  Any other number is read as a significand of at
most 64 bits, further digits being dropped, times a power of ten; the product or quotient of the two
is rounded to a floating-point number.

## Main definitions

- `Json.Fault` — what is wrong with a text, and where
- `Json.readNumber` — a number from the front of a text
-/

namespace Switchboard.Json

/-- What is wrong with a text. -/
inductive FaultKind where
  | eofInValue
  | eofInList
  | eofInObject
  | eofInString
  | expectedColon
  | expectedCommaOrBracket
  | expectedCommaOrBrace
  | expectedIdent
  | expectedValue
  | invalidEscape
  | invalidNumber
  | numberOutOfRange
  | controlCharacter
  | keyMustBeString
  | loneSurrogate
  | trailingComma
  | trailingCharacters
  | unexpectedEndOfEscape
  | tooDeep
  deriving Repr, DecidableEq

/-- What is wrong with a text, and the text left at that place.  When the octet at the place was
only looked at, the place counts as the one behind it. -/
structure Fault where
  kind : FaultKind
  rest : Octets
  peeked : Bool
  deriving Repr, DecidableEq

/-- A fault at the octet that was only looked at. -/
def peekFault {α : Type} (kind : FaultKind) (rest : Octets) : Except Fault α :=
  .error ⟨kind, rest, true⟩

/-- A fault behind the octets already taken. -/
def fault {α : Type} (kind : FaultKind) (rest : Octets) : Except Fault α :=
  .error ⟨kind, rest, false⟩

/-- A number as it is read: kept exactly or rounded. -/
inductive Numeric where
  | int (i : MessagePack.Integer)
  | float (b : Binary)

/-- The value of a digit. -/
def digit? (b : UInt8) : Option Nat :=
  if 0x30 ≤ b ∧ b ≤ 0x39 then some (b.toNat - 0x30) else none

/-- The largest significand. -/
def maxSignificand : Nat := 0xFFFFFFFFFFFFFFFF

/-- The largest exponent that is read digit by digit. -/
def maxExponent : Nat := 0x7FFFFFFF

/-- Appends digits to a number as long as it stays within the bound.  Gives the number, how many
digits were taken, and the text left. -/
def takeDigits (bound : Nat) : Octets → Nat → Nat → Nat × Nat × Octets
  | [], n, taken => (n, taken, [])
  | b :: rest, n, taken =>
    match digit? b with
    | none => (n, taken, b :: rest)
    | some d =>
      if n * 10 + d ≤ bound then takeDigits bound rest (n * 10 + d) (taken + 1)
      else (n, taken, b :: rest)

/-- Is the front of the text a digit? -/
def startsWithDigit : Octets → Bool
  | b :: _ => (digit? b).isSome
  | [] => false

/-- The text after its leading digits, and their count. -/
def skipDigits : Octets → Nat → Nat × Octets
  | [], skipped => (skipped, [])
  | b :: rest, skipped =>
    if (digit? b).isSome then skipDigits rest (skipped + 1) else (skipped, b :: rest)

/-- A power of ten rounded to a floating-point number. -/
def powerOfTen (n : Nat) : Binary :=
  .ofNat .double (Nat.pow 10 n)

/-- The largest power of ten that is a finite number. -/
def maxPower : Nat := 308

/-- Divides or multiplies by a power of ten, a power that is too small in steps.  After three steps
nothing is left of a significand of 64 bits.  `none` is a number that is too large. -/
def scale : Nat → Binary → Int → Option Binary
  | 0, f, _ => some f
  | fuel + 1, f, exponent =>
    if exponent.natAbs ≤ maxPower then
      if 0 ≤ exponent then
        let product := f.mul .double (powerOfTen exponent.natAbs)
        if product.isInfinite then none else some product
      else some (f.div .double (powerOfTen exponent.natAbs))
    else if f.isZero then some f
    else if 0 ≤ exponent then none
    else scale fuel (f.div .double (powerOfTen maxPower)) (exponent + maxPower)

/-- The number with the sign, significand and power of ten; `rest` is the text left. -/
def floatOf (positive : Bool) (significand : Nat) (exponent : Int) (rest : Octets) :
    Except Fault (Numeric × Octets) :=
  match scale 4 (.ofNat .double significand) exponent with
  | none => fault .numberOutOfRange rest
  | some f => .ok (.float (if positive then f else f.neg), rest)

/-- Reads an exponent behind its letter. -/
def readExponent (positive : Bool) (significand : Nat) (start : Int) (text : Octets) :
    Except Fault (Numeric × Octets) :=
  let (up, text) :=
    match text with
    | 0x2B :: rest => (true, rest)
    | 0x2D :: rest => (false, rest)
    | _ => (true, text)
  match text with
  | [] => fault .eofInValue []
  | b :: rest =>
    match digit? b with
    | none => fault .invalidNumber rest
    | some d =>
      let (e, _, rest) := takeDigits maxExponent rest d 0
      match rest with
      | c :: after =>
        if (digit? c).isSome then
          if significand ≠ 0 ∧ up then fault .numberOutOfRange after
          else
            let (_, rest) := skipDigits rest 0
            let zero := Binary.ofNat .double 0
            .ok (.float (if positive then zero else zero.neg), rest)
        else floatOf positive significand (if up then start + e else start - e) rest
      | [] => floatOf positive significand (if up then start + e else start - e) rest

/-- Reads an exponent if there is one. -/
def readTail (positive : Bool) (significand : Nat) (exponent : Int) (text : Octets) :
    Except Fault (Numeric × Octets) :=
  match text with
  | 0x65 :: rest | 0x45 :: rest => readExponent positive significand exponent rest
  | _ => floatOf positive significand exponent text

/-- Reads a fraction behind its point. -/
def readFraction (positive : Bool) (significand : Nat) (start : Int) (text : Octets) :
    Except Fault (Numeric × Octets) :=
  let (significand, taken, rest) := takeDigits maxSignificand text significand 0
  if startsWithDigit rest then
    readTail positive significand (start - taken) (skipDigits rest 0).2
  else if taken = 0 then
    peekFault (if rest.isEmpty then .eofInValue else .invalidNumber) rest
  else readTail positive significand (start - taken) rest

/-- A whole number, exactly if it fits; a negative zero or a number that is too small is rounded. -/
def wholeNumber (positive : Bool) (significand : Nat) : Numeric :=
  let rounded := Numeric.float (Binary.ofNat .double significand).neg
  if positive then
    match MessagePack.Integer.ofInt? significand with
    | some i => .int i
    | none => rounded
  else if significand = 0 then rounded
  else
    match MessagePack.Integer.ofInt? (-(significand : Int)) with
    | some i => .int i
    | none => rounded

/-- Reads what may follow the digits of a whole number. -/
def readRest (positive : Bool) (significand : Nat) (text : Octets) :
    Except Fault (Numeric × Octets) :=
  match text with
  | 0x2E :: rest => readFraction positive significand 0 rest
  | 0x65 :: rest | 0x45 :: rest => readExponent positive significand 0 rest
  | _ => .ok (wholeNumber positive significand, text)

/-- Reads a number behind its sign. -/
def readNumber (positive : Bool) (text : Octets) : Except Fault (Numeric × Octets) :=
  match text with
  | [] => fault .eofInValue []
  | b :: rest =>
    match digit? b with
    | none => fault .invalidNumber rest
    | some 0 =>
      if startsWithDigit rest then peekFault .invalidNumber rest else readRest positive 0 rest
    | some d =>
      let (significand, _, rest) := takeDigits maxSignificand rest d 0
      if startsWithDigit rest then
        let (skipped, rest) := skipDigits rest 0
        match rest with
        | 0x2E :: rest => readFraction positive significand skipped rest
        | _ => readTail positive significand skipped rest
      else readRest positive significand rest

end Switchboard.Json
