/-!
# Octets

Byte strings as lists, numbers in big-endian order, and the hexadecimal text of a byte string.

## Main definitions

- `Octets` — a byte string
- `bigEndian`, `ofBigEndian` — a number in a fixed count of octets, most significant first
- `split?` — the first `n` octets and what follows them
- `toHex`, `ofHex?` — lower-case hexadecimal text

## Main statements

- `split?_append`, `append_of_split?` — a split cuts where it is told to and loses nothing
- `split?_append_of_some` — a split is not affected by what follows
-/

namespace Switchboard

/-- A byte string. -/
abbrev Octets := List UInt8

namespace Octets

/-- The low `width` octets of `n`, most significant first. -/
def bigEndian : Nat → Nat → Octets
  | 0, _ => []
  | width + 1, n => (n / Nat.pow 256 width).toUInt8 :: bigEndian width n

@[simp] theorem length_bigEndian (width n : Nat) : (bigEndian width n).length = width := by
  induction width with
  | zero => rfl
  | succ width ih => rw [bigEndian, List.length_cons, ih]

/-- The number that the octets spell, most significant first. -/
def ofBigEndian (bytes : Octets) : Nat :=
  bytes.foldl (fun n b => n * 256 + b.toNat) 0

/-- The first `n` octets and the rest, or `none` when there are fewer. -/
def split? (n : Nat) (bytes : Octets) : Option (Octets × Octets) :=
  let front := bytes.take n
  if front.length = n then some (front, bytes.drop n) else none

/-- A split gives back the two parts of a concatenation. -/
theorem split?_append (front rest : Octets) :
    split? front.length (front ++ rest) = some (front, rest) := by
  simp only [split?, List.take_left, List.drop_left, if_true]

/-- The two parts of a split make up the whole. -/
theorem append_of_split? {n : Nat} {bytes front rest : Octets}
    (h : split? n bytes = some (front, rest)) : front ++ rest = bytes := by
  simp only [split?] at h
  split at h
  · cases h
    exact List.take_append_drop n bytes
  · cases h

/-- The first part of a split is as long as asked for. -/
theorem length_of_split? {n : Nat} {bytes front rest : Octets}
    (h : split? n bytes = some (front, rest)) : front.length = n := by
  simp only [split?] at h
  split at h
  · next hn =>
    cases h
    exact hn
  · cases h

/-- A split is not affected by what follows the octets. -/
theorem split?_append_of_some {n : Nat} {bytes front rest : Octets}
    (h : split? n bytes = some (front, rest)) (more : Octets) :
    split? n (bytes ++ more) = some (front, rest ++ more) := by
  have whole := append_of_split? h
  have size := length_of_split? h
  rw [← whole, ← size, List.append_assoc]
  exact split?_append front (rest ++ more)

/-- The hexadecimal digit of a number below 16. -/
def hexDigit (n : Nat) : Char :=
  if n < 10 then Char.ofNat (48 + n) else Char.ofNat (87 + n)

/-- The value of a hexadecimal digit of either case. -/
def hexValue? (c : Char) : Option Nat :=
  if '0' ≤ c ∧ c ≤ '9' then some (c.toNat - 48)
  else if 'a' ≤ c ∧ c ≤ 'f' then some (c.toNat - 87)
  else if 'A' ≤ c ∧ c ≤ 'F' then some (c.toNat - 55)
  else none

/-- Two lower-case hexadecimal digits for each octet. -/
def toHex (bytes : Octets) : String :=
  String.ofList (bytes.flatMap fun b => [hexDigit (b.toNat / 16), hexDigit (b.toNat % 16)])

/-- Reads pairs of hexadecimal digits onto octets already read, latest first. -/
def readHex? : List Char → Octets → Option Octets
  | [], read => some read.reverse
  | high :: low :: rest, read =>
    match hexValue? high, hexValue? low with
    | some h, some l => readHex? rest ((h * 16 + l).toUInt8 :: read)
    | _, _ => none
  | [_], _ => none

/-- The octets that a hexadecimal text spells. -/
def ofHex? (text : String) : Option Octets :=
  readHex? text.toList []

end Octets

/-- Numbers in base `base` as digit characters, least significant first, at most `fuel` of them. -/
def digitsRev (base : Nat) : Nat → Nat → List Char
  | 0, _ => []
  | fuel + 1, n =>
    Octets.hexDigit (n % base) :: (if n / base = 0 then [] else digitsRev base fuel (n / base))

theorem exists_of_mem_digitsRev {base fuel n : Nat} (hbase : 0 < base) {c : Char}
    (h : c ∈ digitsRev base fuel n) : ∃ d < base, c = Octets.hexDigit d := by
  induction fuel generalizing n with
  | zero => cases h
  | succ fuel ih =>
    rw [digitsRev] at h
    rcases List.mem_cons.mp h with rfl | hrest
    · exact ⟨n % base, Nat.mod_lt _ hbase, rfl⟩
    · split at hrest
      · cases hrest
      · exact ih hrest

/-- A number in lower-case hexadecimal without leading zeros. -/
def hexText (n : Nat) : String :=
  String.ofList (digitsRev 16 (n + 1) n).reverse

theorem exists_of_mem_hexText {n : Nat} {c : Char} (h : c ∈ (hexText n).toList) :
    ∃ d < 16, c = Octets.hexDigit d := by
  rw [hexText, String.toList_ofList, List.mem_reverse] at h
  exact exists_of_mem_digitsRev (by decide) h

end Switchboard
