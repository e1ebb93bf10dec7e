import Mathlib.Tactic.Ring
import Switchboard.MessagePack.Encoder
import Switchboard.Proofs.MessagePack.Grammar

/-!
# What is written is spelled

The octets written for a value are those of its head and of its contents, one after the other.
Integers are written as the grammar spells them.

## Main statements

- `Octets.ofBigEndian_bigEndian` — a number that fits its octets comes back
- `encode_map` — a map is written as a head and its entries
- `spells_encodeInteger` — every integer is spelled by what is written for it
-/

namespace Switchboard

namespace Octets

theorem foldl_bigEndian (width n start : ℕ) :
    (bigEndian width n).foldl (fun n b => n * 256 + b.toNat) start =
      start * Nat.pow 256 width + n % Nat.pow 256 width := by
  induction width generalizing start with
  | zero => simp [bigEndian, Nat.mod_one]
  | succ width ih =>
    have hdigit : (n / Nat.pow 256 width).toUInt8.toNat = n / Nat.pow 256 width % 256 := by
      simp
    have hpow : Nat.pow 256 (width + 1) = Nat.pow 256 width * 256 := Nat.pow_succ ..
    rw [bigEndian, List.foldl_cons, ih, hdigit, hpow, Nat.mod_mul]
    ring

theorem ofBigEndian_bigEndian {width n : ℕ} (h : n < Nat.pow 256 width) :
    ofBigEndian (bigEndian width n) = n := by
  rw [ofBigEndian, foldl_bigEndian, Nat.mod_eq_of_lt h]
  simp

end Octets

namespace MessagePack

/-! ### Contents -/

mutual

/-- Octets already written stay in front. -/
theorem writeValue_eq : ∀ (v : Value) (written : Octets),
    writeValue v written = (encode v).reverse ++ written
  | .array items, written => by
    simp only [encode, writeValue]
    rw [writeItems_eq items, writeItems_eq items (List.reverseAux _ [])]
    simp [List.reverseAux_eq]
  | .map entries, written => by
    simp only [encode, writeValue]
    rw [writeEntries_eq entries, writeEntries_eq entries (List.reverseAux _ [])]
    simp [List.reverseAux_eq]
  | .nil, written | .bool _, written | .int _, written | .f32 _, written | .f64 _, written
  | .str _, written | .bin _, written | .ext _ _, written => by
    simp [encode, writeValue, List.reverseAux_eq]

theorem writeItems_eq : ∀ (items : List Value) (written : Octets),
    writeItems items written = (items.flatMap encode).reverse ++ written
  | [], written => rfl
  | v :: rest, written => by
    rw [writeItems, writeItems_eq rest, writeValue_eq v]
    simp

theorem writeEntries_eq : ∀ (entries : List (Value × Value)) (written : Octets),
    writeEntries entries written =
      (entries.flatMap fun e => encode e.1 ++ encode e.2).reverse ++ written
  | [], written => rfl
  | (k, v) :: rest, written => by
    rw [writeEntries, writeEntries_eq rest, writeValue_eq v, writeValue_eq k]
    simp

end

theorem encode_int (i : Integer) : encode (.int i) = encodeInteger i := by
  simp [encode, writeValue, encodeHead, List.reverseAux_eq]

theorem encode_map (entries : List (Value × Value)) :
    encode (.map entries) =
      mapHeader entries.length ++ entries.flatMap fun e => encode e.1 ++ encode e.2 := by
  rw [encode, writeValue, writeEntries_eq]
  simp [List.reverseAux_eq]

/-! ### Integers -/

theorem integerValue_val (i : Integer) : integerValue i.val = .int i := by
  obtain ⟨n, lower, upper⟩ := i
  simp [integerValue, Integer.ofInt?, lower, upper]

theorem Value.word?_ofWord (n : UInt64) : (Value.ofWord n).word? = some n := by
  have hpos : 0 ≤ (Integer.ofWord n).val := Int.natCast_nonneg _
  rw [Value.ofWord, Value.word?, Integer.toWord?, if_pos hpos]
  simp [Integer.ofWord]

theorem toNat_toUInt8 {n : ℕ} (h : n < 0x100) : n.toUInt8.toNat = n := by
  simp only [Nat.toUInt8_eq, UInt8.toNat_ofNat']
  omega

/-- A marker below 0x80 is the number itself. -/
theorem ofMarker_of_lt {n : ℕ} (h : n < 0x80) : Form.ofMarker n.toUInt8 = .small n := by
  have hn : n.toUInt8.toNat = n := toNat_toUInt8 (by omega)
  simp only [Form.ofMarker, hn, if_pos h]

/-- The last 32 markers are the numbers below zero. -/
theorem ofMarker_of_le {n : ℕ} (h : 0xE0 ≤ n) (hn : n < 0x100) :
    Form.ofMarker n.toUInt8 = .small ((n : Int) - 256) := by
  simp only [Form.ofMarker, toNat_toUInt8 hn]
  rw [if_neg (by omega), if_neg (by omega), if_neg (by omega), if_neg (by omega), if_pos h]

section

variable (depth : ℕ) (i : Integer) {marker : UInt8} {width n : ℕ}

theorem spells_small {n : Int} (hform : Form.ofMarker marker = .small n) (hn : n = i.val) :
    Spells (depth + 1) (.int i) [marker] := by
  subst hn
  have hspells : (Form.ofMarker marker).Spells depth (integerValue i.val) [] := by
    rw [hform]
    exact .small _
  rw [integerValue_val] at hspells
  exact .scalar (by rw [hform]; exact id) hspells

theorem spells_unsigned (hform : Form.ofMarker marker = .unsigned width)
    (hn : n < Nat.pow 256 width) (hi : (n : Int) = i.val) :
    Spells (depth + 1) (.int i) (marker :: Octets.bigEndian width n) := by
  have hspells : Form.Spells depth _ _ _ := .unsigned (Octets.bigEndian width n)
  rw [Octets.length_bigEndian, ← hform, Octets.ofBigEndian_bigEndian hn, hi,
    integerValue_val] at hspells
  exact .scalar (by rw [hform]; exact id) hspells

/-- Octets of two's complement hold half their numbers below zero. -/
theorem two_mul_pow_eq (hwidth : 0 < width) :
    2 * Nat.pow 2 (8 * width - 1) = Nat.pow 256 width := by
  obtain ⟨k, rfl⟩ := Nat.exists_eq_add_of_lt hwidth
  have hexp : 8 * (0 + k + 1) = 8 * (0 + k + 1) - 1 + 1 := by omega
  calc
    2 * Nat.pow 2 (8 * (0 + k + 1) - 1) = Nat.pow 2 (8 * (0 + k + 1) - 1 + 1) :=
      (Nat.pow_succ' ..).symm
    _ = Nat.pow 2 (8 * (0 + k + 1)) := by rw [← hexp]
    _ = Nat.pow 256 (0 + k + 1) := Nat.pow_mul 2 8 (0 + k + 1)

theorem asSigned_of_neg (hwidth : 0 < width) {m : Int} (hneg : m < 0)
    (hlow : -(Nat.pow 256 width : Int) ≤ 2 * m) :
    asSigned width (Nat.pow 256 width + m).toNat = m := by
  have hhalf := two_mul_pow_eq hwidth
  have hfull : Nat.pow 2 (8 * width) = Nat.pow 256 width := Nat.pow_mul 2 8 width
  rw [asSigned, hfull, if_neg (by omega)]
  omega

theorem spells_signed {full : Int} (hform : Form.ofMarker marker = .signed width)
    (hwidth : 0 < width) (hfull : full = Nat.pow 256 width) (hneg : i.val < 0)
    (hlow : -full ≤ 2 * i.val) :
    Spells (depth + 1) (.int i) (marker :: Octets.bigEndian width (full + i.val).toNat) := by
  subst hfull
  have hlt : ((Nat.pow 256 width : Int) + i.val).toNat < Nat.pow 256 width := by omega
  have hspells : Form.Spells depth _ _ _ :=
    .signed (Octets.bigEndian width ((Nat.pow 256 width : Int) + i.val).toNat)
  rw [Octets.length_bigEndian, ← hform, Octets.ofBigEndian_bigEndian hlt,
    asSigned_of_neg hwidth hneg hlow, integerValue_val] at hspells
  exact .scalar (by rw [hform]; exact id) hspells

theorem spells_encodeInteger : Spells (depth + 1) (.int i) (encodeInteger i) := by
  have hlower := i.lower
  have hupper := i.upper
  simp only [encodeInteger]
  split
  · next hpos =>
    have hval : (i.val.toNat : Int) = i.val := Int.toNat_of_nonneg hpos
    have hlt : i.val.toNat < 0x10000000000000000 := by omega
    split
    · next h => exact spells_small depth i (ofMarker_of_lt h) hval
    split
    · next h => exact spells_unsigned depth i rfl h hval
    split
    · next h => exact spells_unsigned depth i rfl h hval
    split
    · next h => exact spells_unsigned depth i rfl h hval
    · exact spells_unsigned depth i rfl hlt hval
  · next hneg =>
    rw [Int.not_le] at hneg
    split
    · next h =>
      refine spells_small depth i (ofMarker_of_le ?_ ?_) ?_
      all_goals omega
    split
    · exact spells_signed depth i rfl (by decide) rfl hneg (by omega)
    split
    · exact spells_signed depth i rfl (by decide) rfl hneg (by omega)
    split
    · exact spells_signed depth i rfl (by decide) rfl hneg (by omega)
    · exact spells_signed depth i rfl (by decide) rfl hneg (by omega)

end

end MessagePack

end Switchboard
