/-!
# Binary floating-point numbers

The values of the IEEE binary formats as exact numbers, and correctly rounded arithmetic on them:
each operation computes the exact result and rounds once, to nearest with ties to even.

## Main definitions

- `BinaryFormat` — a format by the width of its fields; `single` and `double`
- `Binary` — a value: not a number, an infinity, or an exact multiple of a power of two
- `ofBits`, `toBits` — the encoding of a value
- `ofRatio` — a quotient of naturals, rounded
- `mul`, `div`, `lt`, `power`, `truncate` — arithmetic
-/

namespace Switchboard

/-- A binary interchange format, given by the widths of its fraction and exponent fields. -/
structure BinaryFormat where
  fractionBits : Nat
  exponentBits : Nat
  deriving Repr, DecidableEq

namespace BinaryFormat

/-- The format of 32 bits. -/
def single : BinaryFormat := ⟨23, 8⟩

/-- The format of 64 bits. -/
def double : BinaryFormat := ⟨52, 11⟩

/-- The exponent of the last place of the smallest values. -/
def leastExponent (fmt : BinaryFormat) : Int :=
  2 - Nat.pow 2 (fmt.exponentBits - 1) - fmt.fractionBits

/-- The exponent of the last place of the largest values. -/
def greatestExponent (fmt : BinaryFormat) : Int :=
  fmt.leastExponent + Nat.pow 2 fmt.exponentBits - 3

end BinaryFormat

/-- A floating-point value.  A finite one is `significand * 2 ^ exponent` with a sign. -/
inductive Binary where
  | nan
  | infinite (negative : Bool)
  | finite (negative : Bool) (significand : Nat) (exponent : Int)
  deriving Repr, DecidableEq

namespace Binary

/-- The value that a bit pattern encodes. -/
def ofBits (fmt : BinaryFormat) (bits : Nat) : Binary :=
  let fraction := bits % Nat.pow 2 fmt.fractionBits
  let exponent := bits / Nat.pow 2 fmt.fractionBits % Nat.pow 2 fmt.exponentBits
  let negative := bits / Nat.pow 2 (fmt.fractionBits + fmt.exponentBits) % 2 = 1
  if exponent = Nat.pow 2 fmt.exponentBits - 1 then
    if fraction = 0 then .infinite negative else .nan
  else if exponent = 0 then .finite negative fraction fmt.leastExponent
  else .finite negative (Nat.pow 2 fmt.fractionBits + fraction) (fmt.leastExponent + exponent - 1)

/-- The bit pattern of a value of the format; the quiet pattern for `nan`. -/
def toBits (fmt : BinaryFormat) : Binary → Nat
  | .nan => (Nat.pow 2 (fmt.exponentBits + 1) - 1) * Nat.pow 2 (fmt.fractionBits - 1)
  | .infinite negative =>
    (if negative then Nat.pow 2 (fmt.fractionBits + fmt.exponentBits) else 0) +
      (Nat.pow 2 fmt.exponentBits - 1) * Nat.pow 2 fmt.fractionBits
  | .finite negative significand exponent =>
    (if negative then Nat.pow 2 (fmt.fractionBits + fmt.exponentBits) else 0) +
      if significand < Nat.pow 2 fmt.fractionBits then significand
      else (exponent - fmt.leastExponent).toNat * Nat.pow 2 fmt.fractionBits + significand

/-- A quotient rounded to the nearest integer, a tie to the even one. -/
def roundHalfEven (num den : Nat) : Nat :=
  let q := num / den
  let r := num % den
  if 2 * r < den then q
  else if den < 2 * r then q + 1
  else if q % 2 = 0 then q else q + 1

/-- The exponent of the last place of `num / den` in the format. -/
def placeOf (fmt : BinaryFormat) (num den : Nat) : Int :=
  let guess : Int := (num.log2 : Int) - den.log2 - fmt.fractionBits
  let place :=
    if num * Nat.pow 2 (-guess).toNat < den * Nat.pow 2 (guess.toNat + fmt.fractionBits) then
      guess - 1
    else guess
  max place fmt.leastExponent

/-- The value of the format nearest to `num / den`, ties to even; too large a quotient becomes
infinite. -/
def ofRatio (fmt : BinaryFormat) (negative : Bool) (num den : Nat) : Binary :=
  if num = 0 then .finite negative 0 fmt.leastExponent
  else
    let place := placeOf fmt num den
    let significand := roundHalfEven (num * Nat.pow 2 (-place).toNat) (den * Nat.pow 2 place.toNat)
    if significand < Nat.pow 2 (fmt.fractionBits + 1) then
      if fmt.greatestExponent < place then .infinite negative
      else .finite negative significand place
    else if fmt.greatestExponent < place + 1 then .infinite negative
    else .finite negative (Nat.pow 2 fmt.fractionBits) (place + 1)

/-- `m * 2 ^ e` rounded to the format. -/
def ofScaled (fmt : BinaryFormat) (negative : Bool) (m : Nat) (e : Int) : Binary :=
  ofRatio fmt negative (m * Nat.pow 2 e.toNat) (Nat.pow 2 (-e).toNat)

/-- A natural number rounded to the format. -/
def ofNat (fmt : BinaryFormat) (n : Nat) : Binary :=
  ofRatio fmt false n 1

/-- `digits * 10 ^ exponent` rounded to the format. -/
def ofDecimal (fmt : BinaryFormat) (negative : Bool) (digits : Nat) (exponent : Int) : Binary :=
  ofRatio fmt negative (digits * Nat.pow 10 exponent.toNat) (Nat.pow 10 (-exponent).toNat)

/-- The value in another format. -/
def convert (fmt : BinaryFormat) : Binary → Binary
  | .nan => .nan
  | .infinite negative => .infinite negative
  | .finite negative m e => ofScaled fmt negative m e

/-- The value with the opposite sign. -/
def neg : Binary → Binary
  | .nan => .nan
  | .infinite negative => .infinite !negative
  | .finite negative m e => .finite (!negative) m e

/-- Is the value a zero of either sign? -/
def isZero : Binary → Bool
  | .finite _ 0 _ => true
  | _ => false

/-- Is the value a number and not infinite? -/
def isFinite : Binary → Bool
  | .finite .. => true
  | _ => false

/-- Is the value infinite? -/
def isInfinite : Binary → Bool
  | .infinite _ => true
  | _ => false

/-- The product, rounded once. -/
def mul (fmt : BinaryFormat) : Binary → Binary → Binary
  | .nan, _ | _, .nan => .nan
  | .infinite s, .infinite t => .infinite (s != t)
  | .infinite s, .finite t m _ => if m = 0 then .nan else .infinite (s != t)
  | .finite s m _, .infinite t => if m = 0 then .nan else .infinite (s != t)
  | .finite s m e, .finite t n f => ofScaled fmt (s != t) (m * n) (e + f)

/-- The quotient, rounded once. -/
def div (fmt : BinaryFormat) : Binary → Binary → Binary
  | .nan, _ | _, .nan => .nan
  | .infinite _, .infinite _ => .nan
  | .infinite s, .finite t _ _ => .infinite (s != t)
  | .finite s _ _, .infinite t => .finite (s != t) 0 fmt.leastExponent
  | .finite s m e, .finite t n f =>
    if n = 0 then (if m = 0 then .nan else .infinite (s != t))
    else ofRatio fmt (s != t) (m * Nat.pow 2 (e - f).toNat) (n * Nat.pow 2 (f - e).toNat)

/-- Is `m * 2 ^ e` with the sign `s` below `n * 2 ^ f` with the sign `t`? -/
def scaledLt (s : Bool) (m : Nat) (e : Int) (t : Bool) (n : Nat) (f : Int) : Bool :=
  let x : Int := m * Nat.pow 2 (e - f).toNat
  let y : Int := n * Nat.pow 2 (f - e).toNat
  (if s then -x else x) < (if t then -y else y)

/-- Is the first value below the second?  False when one is not a number. -/
def lt : Binary → Binary → Bool
  | .nan, _ | _, .nan => false
  | .infinite s, .infinite t => s && !t
  | .infinite s, .finite .. => s
  | .finite .., .infinite t => !t
  | .finite s m e, .finite t n f => scaledLt s m e t n f

/-- `acc * base ^ n` by repeated squaring, every product rounded.  At most `fuel` bits of `n` are
used. -/
def powerOnto (fmt : BinaryFormat) : Nat → Binary → Nat → Binary → Binary
  | 0, _, _, acc => acc
  | fuel + 1, base, n, acc =>
    let acc := if n % 2 = 1 then mul fmt acc base else acc
    if n / 2 = 0 then acc else powerOnto fmt fuel (mul fmt base base) (n / 2) acc

/-- `base ^ n` by repeated squaring, every product rounded. -/
def power (fmt : BinaryFormat) (base : Binary) (n : Nat) : Binary :=
  powerOnto fmt (n.log2 + 1) base n (ofNat fmt 1)

/-- The whole part of a value that is not negative; 0 for any other. -/
def truncate : Binary → Nat
  | .finite false m e => m * Nat.pow 2 e.toNat / Nat.pow 2 (-e).toNat
  | _ => 0

end Binary

end Switchboard
