import Switchboard.Number.Binary

/-!
# Shortest decimals

The shortest decimal that reads back to a given floating-point value, and two ways of laying it out.

## Main definitions

- `Decimal` — digits times a power of ten
- `Decimal.shortest` — the fewest digits that read back, the nearest of those
- `Decimal.positional` — digits and a point, never an exponent
- `Decimal.general` — positional for moderate values, otherwise with an exponent, by a `Layout`
-/

namespace Switchboard

/-- The number `digits * 10 ^ exponent`. -/
structure Decimal where
  digits : Nat
  exponent : Int
  deriving Repr, DecidableEq

namespace Decimal

/-- Compares `a * 10 ^ i` with `n * 2 ^ j`, exactly. -/
def compareScaled (a : Nat) (i : Int) (n : Nat) (j : Int) : Ordering :=
  compare (a * Nat.pow 10 i.toNat * Nat.pow 2 (-j).toNat)
    (n * Nat.pow 2 j.toNat * Nat.pow 10 (-i).toNat)

/-- Does the decimal lie among the reals that round to `m * 2 ^ q`?  They reach half way to the
neighbours; the ends belong to them when `m` is even.  Below a power of two the neighbour is half as
far away. -/
def readsBack (fmt : BinaryFormat) (m : Nat) (q : Int) (d : Decimal) : Bool :=
  let narrow := m = Nat.pow 2 fmt.fractionBits ∧ fmt.leastExponent < q
  let low := if narrow then 4 * m - 1 else 4 * m - 2
  let below := compareScaled d.digits d.exponent low (q - 2)
  let above := compareScaled d.digits d.exponent (4 * m + 2) (q - 2)
  let ends := m % 2 = 0
  (below = .gt ∨ (ends ∧ below = .eq)) ∧ (above = .lt ∨ (ends ∧ above = .eq))

/-- The least `k` with `m * 2 ^ q < 10 ^ k`, for a value that is not zero.  The binary logarithm
gives it but for a step or two. -/
def scaleOf (m : Nat) (q : Int) : Int :=
  let guess : Int := ((m.log2 : Int) + q) * 30103 / 100000 - 1
  let candidates := [guess, guess + 1, guess + 2, guess + 3]
  (candidates.find? fun k => compareScaled 1 k m q = .gt).getD (guess + 4)

/-- The neighbour of `m * 2 ^ q` on the grid of multiples of `10 ^ grid` that reads back, the nearer
one of two and the upper one of two equally near. -/
def onGrid? (fmt : BinaryFormat) (m : Nat) (q grid : Int) : Option Decimal :=
  let lower := m * Nat.pow 2 q.toNat * Nat.pow 10 (-grid).toNat /
    (Nat.pow 2 (-q).toNat * Nat.pow 10 grid.toNat)
  let down : Decimal := ⟨lower, grid⟩
  let up : Decimal := ⟨lower + 1, grid⟩
  if readsBack fmt m q down then
    if readsBack fmt m q up then
      if compareScaled (2 * lower + 1) grid (2 * m) q = .gt then some down else some up
    else some down
  else if readsBack fmt m q up then some up
  else none

/-- The exact decimal of `m * 2 ^ q`. -/
def exact (m : Nat) (q : Int) : Decimal :=
  ⟨m * Nat.pow 2 q.toNat * Nat.pow 5 (-q).toNat, -((-q).toNat : Int)⟩

/-- Moves at most `fuel` trailing zeros of the digits into the exponent. -/
def stripZeros : Nat → Decimal → Decimal
  | 0, d => d
  | fuel + 1, d =>
    if d.digits ≠ 0 ∧ d.digits % 10 = 0 then stripZeros fuel ⟨d.digits / 10, d.exponent + 1⟩ else d

/-- The fewest digits that read back to `m * 2 ^ q`, which is not zero; of those the nearest.
Seventeen digits suffice in the format of 64 bits. -/
def shortest (fmt : BinaryFormat) (m : Nat) (q : Int) : Decimal :=
  let scale := scaleOf m q
  let found := (List.range 17).findSome? fun n => onGrid? fmt m q (scale - (n + 1 : Nat))
  let d := found.getD (exact m q)
  stripZeros (toString d.digits).length d

/-- `n` zeros. -/
def zeros (n : Nat) : String :=
  String.ofList (List.replicate n '0')

/-- The digits with the point `place` digits after their start; a place outside the digits is
reached by zeros.  `whole` follows a number without a fractional part. -/
def withPoint (digits : String) (place : Int) (whole : String) : String :=
  let count : Int := digits.length
  if count ≤ place then digits ++ zeros (place - count).toNat ++ whole
  else if 0 < place then
    String.ofList (digits.toList.take place.toNat) ++ "." ++
      String.ofList (digits.toList.drop place.toNat)
  else "0." ++ zeros (-place).toNat ++ digits

/-- Digits and a point, never an exponent. -/
def positional (d : Decimal) : String :=
  let digits := toString d.digits
  withPoint digits (digits.length + d.exponent) ""

/-- How a number in general form is laid out: the exponent of the leading digit from which on it is
positional, and what stands before an exponent that is not negative. -/
structure Layout where
  positionalFrom : Int
  exponentMark : String

/-- Positional from the layout's least exponent up to 10^16, always with a fractional part;
otherwise one digit before the point and an exponent. -/
def general (layout : Layout) (d : Decimal) : String :=
  let digits := toString d.digits
  let place : Int := digits.length + d.exponent
  if layout.positionalFrom < place ∧ place ≤ 16 then withPoint digits place ".0"
  else
    let mantissa := if digits.length = 1 then digits else withPoint digits 1 ""
    let e := place - 1
    mantissa ++ (if e < 0 then "e-" else layout.exponentMark) ++ toString e.natAbs

end Decimal

namespace Binary

/-- The value in digits and a point, never an exponent. -/
def positional (fmt : BinaryFormat) : Binary → String
  | .nan => "NaN"
  | .infinite negative => if negative then "-inf" else "inf"
  | .finite negative m q =>
    (if negative then "-" else "") ++
      if m = 0 then "0" else (Decimal.shortest fmt m q).positional

/-- The value in general form. -/
def general (fmt : BinaryFormat) (layout : Decimal.Layout) : Binary → String
  | .nan => "NaN"
  | .infinite negative => if negative then "-inf" else "inf"
  | .finite negative m q =>
    (if negative then "-" else "") ++
      if m = 0 then "0.0" else (Decimal.shortest fmt m q).general layout

/-- Numbers in the text of a setting are positional from 10^-4 on, and no sign stands before an
exponent that is not negative. -/
def settingLayout : Decimal.Layout := ⟨-4, "e"⟩

/-- The value as it stands in the text of a setting. -/
def inspect (fmt : BinaryFormat) (b : Binary) : String :=
  b.general fmt settingLayout

end Binary

end Switchboard
