import Mathlib.Data.List.Basic
import Mathlib.Tactic.SplitIfs
import Switchboard.Json.Value

/-!
# Floating-point numbers and their bits

A finite number of 64 bits comes back from its value, zeros with their sign, and every finite result
of the arithmetic has such bits.

## Main definitions

- `Binary.Bounded` — a value whose significand and exponent the format of 64 bits has fields for
- `IsFiniteBits` — the bits of a finite number

## Main statements

- `Binary.toBits_ofBits` — the bits of a finite number come back
- `Binary.Bounded.isFiniteBits` — a bounded value has the bits of a finite number
- `Binary.bounded_ofRatio`, `Binary.bounded_mul`, `Binary.bounded_div` — results are bounded
-/

namespace Switchboard

/-- The bits of a finite number: their exponent field is not full. -/
def IsFiniteBits (bits : ℕ) : Prop :=
  bits / 0x10000000000000 % 0x800 ≠ 0x7FF

namespace Binary

/-- The value has a significand and an exponent that the format of 64 bits has fields for. -/
def Bounded : Binary → Prop
  | .finite _ significand exponent => significand < 0x20000000000000 ∧ exponent ≤ 971
  | _ => True

/-! ### Bits -/

theorem double_fields :
    Nat.pow 2 BinaryFormat.double.fractionBits = 0x10000000000000 ∧
      Nat.pow 2 (BinaryFormat.double.fractionBits + 1) = 0x20000000000000 ∧
      Nat.pow 2 BinaryFormat.double.exponentBits = 0x800 ∧
      Nat.pow 2 (BinaryFormat.double.fractionBits + BinaryFormat.double.exponentBits) =
        0x8000000000000000 ∧
      BinaryFormat.double.leastExponent = -1074 ∧ BinaryFormat.double.greatestExponent = 971 := by
  decide

theorem ofBits_double {bits : ℕ} (h : IsFiniteBits bits) :
    ofBits .double bits =
      if bits / 0x10000000000000 % 0x800 = 0 then
        .finite (bits / 0x8000000000000000 % 2 = 1) (bits % 0x10000000000000) (-1074)
      else
        .finite (bits / 0x8000000000000000 % 2 = 1)
          (0x10000000000000 + bits % 0x10000000000000)
          (-1074 + (bits / 0x10000000000000 % 0x800 : ℕ) - 1) := by
  obtain ⟨hfraction, -, hexponent, hsign, hleast, -⟩ := double_fields
  simp only [ofBits, hfraction, hexponent, hsign, hleast]
  exact if_neg h

theorem toBits_double (negative : Bool) (significand : ℕ) (exponent : Int) :
    (finite negative significand exponent).toBits .double =
      (if negative then 0x8000000000000000 else 0) +
        if significand < 0x10000000000000 then significand
        else (exponent + 1074).toNat * 0x10000000000000 + significand := by
  obtain ⟨hfraction, -, -, hsign, hleast, -⟩ := double_fields
  simp only [toBits, hfraction, hsign, hleast, Int.sub_neg]

/-- The bits of a finite number come back from its value. -/
theorem toBits_ofBits {bits : ℕ} (hbits : bits < 0x10000000000000000) (h : IsFiniteBits bits) :
    (ofBits .double bits).isFinite = true ∧ (ofBits .double bits).toBits .double = bits := by
  rw [ofBits_double h]
  split
  · refine ⟨rfl, ?_⟩
    rw [toBits_double, if_pos (Nat.mod_lt _ (by decide))]
    simp only [decide_eq_true_eq]
    split <;> omega
  · refine ⟨rfl, ?_⟩
    have hnormal : ¬0x10000000000000 + bits % 0x10000000000000 < 0x10000000000000 :=
      Nat.not_lt.mpr (Nat.le_add_right ..)
    simp only [toBits_double, decide_eq_true_eq, if_neg hnormal]
    split <;> omega

theorem Bounded.isFiniteBits {b : Binary} (h : b.Bounded) (hfinite : b.isFinite = true) :
    b.toBits .double < 0x10000000000000000 ∧ IsFiniteBits (b.toBits .double) := by
  cases b with
  | finite negative significand exponent =>
    obtain ⟨hsignificand, hexponent⟩ := h
    rw [toBits_double, IsFiniteBits]
    split_ifs <;> omega
  | _ => cases hfinite

/-! ### Arithmetic -/

theorem bounded_ofRatio (negative : Bool) (num den : ℕ) :
    (ofRatio .double negative num den).Bounded := by
  obtain ⟨hfraction, htwice, -, -, hleast, hgreatest⟩ := double_fields
  rw [ofRatio]
  split
  · rw [hleast]
    exact ⟨by decide, by decide⟩
  generalize placeOf .double num den = place
  dsimp only
  generalize roundHalfEven _ _ = significand
  rw [hfraction, htwice, hgreatest]
  split
  · next hsmall =>
    split
    · trivial
    · next hplace => exact ⟨hsmall, Int.not_lt.mp hplace⟩
  · split
    · trivial
    · next hplace => exact ⟨by decide, Int.not_lt.mp hplace⟩

theorem bounded_ofNat (n : ℕ) : (ofNat .double n).Bounded :=
  bounded_ofRatio false n 1

theorem Bounded.neg {b : Binary} (h : b.Bounded) : b.neg.Bounded := by
  cases b <;> exact h

theorem bounded_mul (a b : Binary) : (mul .double a b).Bounded := by
  cases a <;> cases b <;> simp only [mul, ofScaled, bounded_ofRatio]
  all_goals first | trivial | (split <;> trivial)

theorem bounded_div (a b : Binary) : (div .double a b).Bounded := by
  cases a <;> cases b <;> simp only [div]
  case finite.finite =>
    split_ifs
    · trivial
    · trivial
    · exact bounded_ofRatio ..
  case finite.infinite => exact ⟨by decide, by decide⟩
  all_goals trivial

end Binary

end Switchboard
