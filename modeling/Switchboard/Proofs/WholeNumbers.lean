import Mathlib.Tactic.Ring
import Switchboard.Proofs.Floats

/-!
# Whole numbers in floating point

As long as the results stay below `2 ^ 53`, the arithmetic of 64 bits on whole numbers is exact:
nothing is rounded, and comparing and truncating are those of the numbers.

## Main definitions

- `Binary.Denotes` — a value is a natural number

## Main statements

- `Binary.denotes_ofRatio` — a quotient that is a number of 53 bits is not rounded
- `Binary.Denotes.mul`, `Binary.Denotes.power` — products and powers of such numbers
- `Binary.Denotes.lt_iff`, `Binary.Denotes.truncate` — their order, and their whole part
-/

namespace Switchboard.Binary

/-- The value is the number, `significand * 2 ^ exponent`, the power standing on the side where its
exponent is not negative. -/
def Denotes : Binary → ℕ → Prop
  | finite false significand exponent, n =>
    significand * 2 ^ exponent.toNat = n * 2 ^ (-exponent).toNat
  | _, _ => False

instance (b : Binary) (n : ℕ) : Decidable (b.Denotes n) := by
  unfold Denotes
  split <;> infer_instance

variable {a b : Binary} {x y n significand num den : ℕ} {exponent : ℤ}

/-- Powers may stand on both sides, if they differ by the exponent. -/
theorem denotes_finite_iff {j k : ℕ} (h : (j : ℤ) - k = exponent) :
    (finite false significand exponent).Denotes x ↔ significand * 2 ^ j = x * 2 ^ k := by
  obtain ⟨c, hj, hk⟩ : ∃ c, j = exponent.toNat + c ∧ k = (-exponent).toNat + c :=
    ⟨j - exponent.toNat, by omega, by omega⟩
  rw [hj, hk, pow_add, pow_add, ← Nat.mul_assoc, ← Nat.mul_assoc,
    Nat.mul_left_inj (Nat.two_pow_pos c).ne']
  rfl

theorem Denotes.exists_finite (h : b.Denotes x) :
    ∃ significand exponent, b = finite false significand exponent := by
  unfold Denotes at h
  split at h
  · exact ⟨_, _, rfl⟩
  · exact h.elim

/-! ### Nothing is rounded -/

theorem roundHalfEven_mul (n : ℕ) (h : 0 < den) : roundHalfEven (n * den) den = n := by
  rw [roundHalfEven, Nat.mul_mod_left, Nat.mul_div_cancel n h, if_pos (by omega)]

/-- The logarithm of a product is the sum of the logarithms, or one more. -/
theorem log2_mul_bounds (hx : 0 < x) (hy : 0 < y) :
    x.log2 + y.log2 ≤ (x * y).log2 ∧ (x * y).log2 ≤ x.log2 + y.log2 + 1 := by
  have hxy : x * y ≠ 0 := (Nat.mul_pos hx hy).ne'
  constructor
  · rw [Nat.le_log2 hxy, pow_add]
    exact Nat.mul_le_mul (Nat.log2_self_le hx.ne') (Nat.log2_self_le hy.ne')
  · rw [← Nat.lt_succ_iff, Nat.log2_lt hxy]
    calc x * y < 2 ^ (x.log2 + 1) * 2 ^ (y.log2 + 1) :=
          Nat.mul_lt_mul'' Nat.lt_log2_self Nat.lt_log2_self
      _ = 2 ^ (x.log2 + y.log2 + 1).succ := by rw [← pow_add]; congr 1; omega

/-- The last place of a number of 53 bits is that of its first bit, 52 places on. -/
theorem placeOf_mul (hx : 0 < x) (hsmall : x < 2 ^ 53) (hden : 0 < den) :
    placeOf .double (x * den) den = x.log2 - 52 := by
  have hlog : x.log2 < 53 := (Nat.log2_lt hx.ne').mpr hsmall
  have hlow : 2 ^ x.log2 ≤ x := Nat.log2_self_le hx.ne'
  have hhigh : x < 2 ^ (x.log2 + 1) := Nat.lt_log2_self
  have hbounds := log2_mul_bounds hx hden
  obtain ⟨-, -, -, -, hleast, -⟩ := double_fields
  have hfraction : BinaryFormat.double.fractionBits = 52 := rfl
  -- the test compares the number itself with a power
  have htest (j k : ℕ) : x * den * 2 ^ j < den * 2 ^ k ↔ x * 2 ^ j < 2 ^ k := by
    rw [Nat.mul_right_comm, Nat.mul_comm _ den, Nat.mul_lt_mul_left hden]
  obtain hnum | hnum : (x * den).log2 = x.log2 + den.log2 ∨
      (x * den).log2 = x.log2 + den.log2 + 1 := by omega
  · have hguess : ((x * den).log2 : ℤ) - den.log2 - 52 = x.log2 - 52 := by omega
    have hneg : (-((x.log2 : ℤ) - 52)).toNat = 52 - x.log2 := by omega
    have hpos : ((x.log2 : ℤ) - 52).toNat = 0 := by omega
    have hnot : ¬x * 2 ^ (52 - x.log2) < 2 ^ (0 + 52) := by
      rw [Nat.not_lt]
      calc 2 ^ (0 + 52) = 2 ^ x.log2 * 2 ^ (52 - x.log2) := by rw [← pow_add]; congr 1; omega
        _ ≤ x * 2 ^ (52 - x.log2) := Nat.mul_le_mul_right _ hlow
    simp only [placeOf, hfraction, hleast, Nat.pow_eq, Nat.cast_ofNat, hguess, hneg, hpos, htest, if_neg hnot]
    omega
  · have hguess : ((x * den).log2 : ℤ) - den.log2 - 52 = x.log2 - 51 := by omega
    have hneg : (-((x.log2 : ℤ) - 51)).toNat = 51 - x.log2 := by omega
    have hpos : ((x.log2 : ℤ) - 51).toNat = x.log2 - 51 := by omega
    have htrue : x * 2 ^ (51 - x.log2) < 2 ^ (x.log2 - 51 + 52) := by
      calc x * 2 ^ (51 - x.log2) < 2 ^ (x.log2 + 1) * 2 ^ (51 - x.log2) :=
            Nat.mul_lt_mul_of_pos_right hhigh (Nat.two_pow_pos _)
        _ = 2 ^ (x.log2 - 51 + 52) := by rw [← pow_add]; congr 1; omega
    simp only [placeOf, hfraction, hleast, Nat.pow_eq, Nat.cast_ofNat, hguess, hneg, hpos, htest, if_pos htrue]
    omega

/-- A quotient that is a number of 53 bits is not rounded. -/
theorem denotes_ofRatio (h : num = x * den) (hsmall : x < 2 ^ 53) (hden : 0 < den) :
    (ofRatio .double false num den).Denotes x := by
  obtain ⟨-, -, -, -, -, hgreatest⟩ := double_fields
  have htwice : Nat.pow 2 (BinaryFormat.double.fractionBits + 1) = 2 ^ 53 := rfl
  obtain rfl | hx := Nat.eq_zero_or_pos x
  · rw [h, Nat.zero_mul, ofRatio, if_pos rfl]
    show 0 * _ = 0 * _
    rw [Nat.zero_mul, Nat.zero_mul]
  subst h
  have hlog : x.log2 < 53 := (Nat.log2_lt hx.ne').mpr hsmall
  have hneg : (-((x.log2 : ℤ) - 52)).toNat = 52 - x.log2 := by omega
  have hpos : ((x.log2 : ℤ) - 52).toNat = 0 := by omega
  -- moved to 53 bits the number is whole
  have hround : roundHalfEven (x * den * 2 ^ (52 - x.log2)) (den * 2 ^ 0) =
      x * 2 ^ (52 - x.log2) := by
    rw [pow_zero, Nat.mul_one, Nat.mul_right_comm]
    exact roundHalfEven_mul _ hden
  have hsum : x.log2 + 1 + (52 - x.log2) = 53 := by omega
  have hfits : x * 2 ^ (52 - x.log2) < 2 ^ 53 := by
    calc x * 2 ^ (52 - x.log2) < 2 ^ (x.log2 + 1) * 2 ^ (52 - x.log2) :=
          Nat.mul_lt_mul_of_pos_right Nat.lt_log2_self (Nat.two_pow_pos _)
      _ = 2 ^ 53 := by rw [← pow_add, hsum]
  have hplace : ¬(971 : ℤ) < x.log2 - 52 := by omega
  have hvalue : ofRatio .double false (x * den) den =
      finite false (x * 2 ^ (52 - x.log2)) (x.log2 - 52) := by
    rw [ofRatio, if_neg (Nat.mul_pos hx hden).ne', placeOf_mul hx hsmall hden]
    dsimp only
    rw [hneg, hpos, htwice, hgreatest, Nat.pow_eq, Nat.pow_eq, hround, if_pos hfits,
      if_neg hplace]
  rw [hvalue, denotes_finite_iff (j := 0) (k := 52 - x.log2) (by omega), pow_zero, Nat.mul_one]

theorem denotes_ofNat (h : x < 2 ^ 53) : (ofNat .double x).Denotes x :=
  denotes_ofRatio (Nat.mul_one x).symm h Nat.one_pos

/-! ### Products and powers -/

theorem Denotes.mul (ha : a.Denotes x) (hb : b.Denotes y) (h : x * y < 2 ^ 53) :
    (mul .double a b).Denotes (x * y) := by
  obtain ⟨m, e, rfl⟩ := ha.exists_finite
  obtain ⟨n, f, rfl⟩ := hb.exists_finite
  have hproduct : (finite false (m * n) (e + f)).Denotes (x * y) := by
    rw [denotes_finite_iff (j := e.toNat + f.toNat) (k := (-e).toNat + (-f).toNat) (by omega)]
    calc m * n * 2 ^ (e.toNat + f.toNat) = m * 2 ^ e.toNat * (n * 2 ^ f.toNat) := by ring
      _ = x * 2 ^ (-e).toNat * (y * 2 ^ (-f).toNat) := congrArg₂ (· * ·) ha hb
      _ = x * y * 2 ^ ((-e).toNat + (-f).toNat) := by ring
  exact denotes_ofRatio hproduct h (Nat.two_pow_pos _)

/-- Squaring takes no more than the power it is part of. -/
theorem Denotes.powerOnto {fuel : ℕ} (ha : a.Denotes x) (hb : b.Denotes y) (hx : 0 < x)
    (hy : 0 < y) (hfuel : n < 2 ^ fuel) (h : x * y ^ n < 2 ^ 53) :
    (powerOnto .double fuel b n a).Denotes (x * y ^ n) := by
  induction fuel generalizing a b x y n with
  | zero =>
    obtain rfl : n = 0 := by omega
    rwa [Binary.powerOnto, pow_zero, Nat.mul_one]
  | succ fuel ih =>
    have hsplit : y ^ n = y ^ (n % 2) * (y * y) ^ (n / 2) := by
      rw [← pow_two, ← pow_mul, ← pow_add, Nat.mod_add_div]
    have hle {k : ℕ} (hk : k ≤ n) : x * y ^ k < 2 ^ 53 :=
      Nat.lt_of_le_of_lt (Nat.mul_le_mul_left x (Nat.pow_le_pow_right hy hk)) h
    obtain ⟨acc, hacc⟩ : ∃ acc, acc = if n % 2 = 1 then Binary.mul .double a b else a := ⟨_, rfl⟩
    have haccDenotes : acc.Denotes (x * y ^ (n % 2)) := by
      obtain hodd | heven := (Nat.mod_two_eq_zero_or_one n).symm
      · rw [hacc, if_pos hodd, hodd, pow_one]
        exact ha.mul hb (pow_one y ▸ hle (by omega))
      · rwa [hacc, if_neg (by omega), heven, pow_zero, Nat.mul_one]
    rw [Binary.powerOnto, ← hacc]
    split
    · next hlast =>
      rwa [hsplit, hlast, pow_zero, Nat.mul_one]
    · next hmore =>
      have hsquare : y * y < 2 ^ 53 := by
        rw [← pow_two]
        exact Nat.lt_of_le_of_lt (Nat.le_mul_of_pos_left _ hx) (hle (by omega))
      rw [hsplit, ← Nat.mul_assoc] at h ⊢
      exact ih haccDenotes (hb.mul hb hsquare) (Nat.mul_pos hx (Nat.pow_pos hy))
        (Nat.mul_pos hy hy) (by omega) h

theorem Denotes.power (hb : b.Denotes y) (hy : 0 < y) (h : y ^ n < 2 ^ 53) :
    (power .double b n).Denotes (y ^ n) := by
  have hone : (ofNat .double 1).Denotes 1 := denotes_ofNat (by decide)
  have hpower := hone.powerOnto hb Nat.one_pos hy Nat.lt_log2_self (by rwa [Nat.one_mul])
  rwa [Nat.one_mul] at hpower

/-! ### Order and whole part -/

theorem Denotes.isFinite (h : b.Denotes x) : b.isFinite = true := by
  obtain ⟨m, e, rfl⟩ := h.exists_finite
  rfl

theorem Denotes.truncate (h : b.Denotes x) : b.truncate = x := by
  obtain ⟨m, e, rfl⟩ := h.exists_finite
  have hvalue : m * 2 ^ e.toNat = x * 2 ^ (-e).toNat := h
  simp only [Binary.truncate, Nat.pow_eq, hvalue]
  exact Nat.mul_div_cancel x (Nat.two_pow_pos _)

theorem Denotes.lt_iff (ha : a.Denotes x) (hb : b.Denotes y) : a.lt b = true ↔ x < y := by
  obtain ⟨m, e, rfl⟩ := ha.exists_finite
  obtain ⟨n, f, rfl⟩ := hb.exists_finite
  have hm : m * 2 ^ e.toNat = x * 2 ^ (-e).toNat := ha
  have hn : n * 2 ^ f.toNat = y * 2 ^ (-f).toNat := hb
  obtain ⟨c, he, hf⟩ : ∃ c, (e - f).toNat + c = e.toNat + (-f).toNat ∧
      (f - e).toNat + c = f.toNat + (-e).toNat :=
    ⟨e.toNat + (-f).toNat - (e - f).toNat, by omega, by omega⟩
  have hleft : m * 2 ^ (e - f).toNat * 2 ^ c = x * 2 ^ ((-e).toNat + (-f).toNat) := by
    rw [Nat.mul_assoc, ← pow_add, he, pow_add, ← Nat.mul_assoc, hm, Nat.mul_assoc, ← pow_add]
  have hright : n * 2 ^ (f - e).toNat * 2 ^ c = y * 2 ^ ((-e).toNat + (-f).toNat) := by
    rw [Nat.mul_assoc, ← pow_add, hf, pow_add, ← Nat.mul_assoc, hn, Nat.mul_assoc, ← pow_add,
      Nat.add_comm]
  calc (finite false m e).lt (finite false n f) = true
      ↔ m * 2 ^ (e - f).toNat < n * 2 ^ (f - e).toNat := by
        simp only [Binary.lt, scaledLt, Nat.pow_eq, Bool.false_eq_true, if_false,
          decide_eq_true_eq]
        exact_mod_cast Iff.rfl
    _ ↔ m * 2 ^ (e - f).toNat * 2 ^ c < n * 2 ^ (f - e).toNat * 2 ^ c :=
        (Nat.mul_lt_mul_right (Nat.two_pow_pos c)).symm
    _ ↔ x < y := by rw [hleft, hright, Nat.mul_lt_mul_right (Nat.two_pow_pos _)]

end Switchboard.Binary
