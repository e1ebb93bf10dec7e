import Switchboard.Json.Number
import Switchboard.Proofs.Floats

/-!
# Numbers read from JSON

A number that is read is whole, or a floating-point number that has bits; and reading it leaves a
shorter text.

## Main definitions

- `Leaves` — what reading something from a text can give
- `Numeric.Bounded` — a number that has bits

## Main statements

- `readNumber_leaves` — a number is bounded, and at least one octet is read
-/

namespace Switchboard.Json

/-- What reading something from a text can give: a fault, or something with a property, and at most
so many octets left. -/
inductive Leaves {α : Type} (P : α → Prop) (size : ℕ) : Except Fault (α × Octets) → Prop
  | error (f : Fault) : Leaves P size (.error f)
  | ok {x : α} {rest : Octets} (holds : P x) (length : rest.length ≤ size) :
    Leaves P size (.ok (x, rest))

section

variable {α β : Type} {P : α → Prop} {size : ℕ} {r : Except Fault (α × Octets)}

theorem Leaves.mono (h : Leaves P size r) {size' : ℕ} (hsize : size ≤ size') :
    Leaves P size' r := by
  cases h with
  | error f => exact .error f
  | ok holds length => exact .ok holds (Nat.le_trans length hsize)

theorem Leaves.map {Q : β → Prop} (h : Leaves P size r) {f : α × Octets → β × Octets}
    (hf : ∀ x rest, P x → ∃ y, f (x, rest) = (y, rest) ∧ Q y) : Leaves Q size (r.map f) := by
  cases h with
  | error f => exact .error f
  | @ok x rest holds length =>
    obtain ⟨y, hy, hq⟩ := hf x rest holds
    rw [Except.map, hy]
    exact .ok hq length

end

/-- A floating-point number has a significand and an exponent that its bits have fields for. -/
def Numeric.Bounded : Numeric → Prop
  | .int _ => True
  | .float b => b.Bounded

/-! ### Digits -/

theorem length_takeDigits_le (bound : ℕ) (text : Octets) (n taken : ℕ) :
    (takeDigits bound text n taken).2.2.length ≤ text.length := by
  induction text generalizing n taken with
  | nil => exact Nat.le_refl _
  | cons b rest ih =>
    rw [takeDigits]
    split
    · exact Nat.le_refl _
    split
    · exact Nat.le_trans (ih _ _) (Nat.le_succ _)
    · exact Nat.le_refl _

theorem length_skipDigits_le (text : Octets) (skipped : ℕ) :
    (skipDigits text skipped).2.length ≤ text.length := by
  induction text generalizing skipped with
  | nil => exact Nat.le_refl _
  | cons b rest ih =>
    rw [skipDigits]
    split
    · exact Nat.le_trans (ih _) (Nat.le_succ _)
    · exact Nat.le_refl _

/-! ### Rounding -/

theorem bounded_scale {f g : Binary} {fuel : ℕ} {exponent : Int} (hf : f.Bounded)
    (h : scale fuel f exponent = some g) : g.Bounded := by
  induction fuel generalizing f exponent with
  | zero =>
    cases h
    exact hf
  | succ fuel ih =>
    rw [scale] at h
    split at h
    · split at h
      · dsimp only at h
        split at h
        · cases h
        · cases h
          exact Binary.bounded_mul ..
      · cases h
        exact Binary.bounded_div ..
    split at h
    · cases h
      exact hf
    split at h
    · cases h
    · exact ih (Binary.bounded_div ..) h

theorem bounded_signed {b : Binary} (positive : Bool) (h : b.Bounded) :
    (if positive then b else b.neg).Bounded := by
  cases positive
  · exact h.neg
  · exact h

section

variable (positive : Bool) (significand : ℕ)

theorem floatOf_leaves (exponent : Int) (rest : Octets) :
    Leaves Numeric.Bounded rest.length (floatOf positive significand exponent rest) := by
  rw [floatOf]
  split
  · exact .error _
  · next f hf =>
    exact Leaves.ok (bounded_signed _ (bounded_scale (Binary.bounded_ofNat _) hf)) (Nat.le_refl _)

theorem bounded_wholeNumber : (wholeNumber positive significand).Bounded := by
  have hrounded : (Binary.ofNat .double significand).neg.Bounded :=
    (Binary.bounded_ofNat significand).neg
  simp only [wholeNumber]
  split
  · split
    · trivial
    · exact hrounded
  split
  · exact hrounded
  split
  · trivial
  · exact hrounded

/-! ### Numbers -/

theorem readExponent_leaves (start : Int) (text : Octets) :
    Leaves Numeric.Bounded text.length (readExponent positive significand start text) := by
  rw [readExponent.eq_def]
  split
  next up body hsign =>
  have hbody : body.length ≤ text.length := by
    split at hsign <;> cases hsign <;> simp
  split
  · exact .error _
  next b digits =>
  split
  · exact .error _
  next d hd =>
  have htake : (takeDigits maxExponent digits d 0).2.2.length ≤ text.length :=
    Nat.le_trans (length_takeDigits_le ..) (Nat.le_trans (Nat.le_succ _) hbody)
  generalize takeDigits maxExponent digits d 0 = taken at htake
  obtain ⟨e, count, rest⟩ := taken
  cases rest with
  | nil => exact (floatOf_leaves ..).mono htake
  | cons c after =>
    dsimp only
    split
    · split
      · exact .error _
      · have hzero : (Binary.ofNat .double 0).Bounded := Binary.bounded_ofNat 0
        exact .ok (bounded_signed positive hzero) (Nat.le_trans (length_skipDigits_le ..) htake)
    · exact (floatOf_leaves ..).mono htake

theorem readTail_leaves (exponent : Int) (text : Octets) :
    Leaves Numeric.Bounded text.length (readTail positive significand exponent text) := by
  rw [readTail.eq_def]
  split
  · exact (readExponent_leaves ..).mono (Nat.le_succ _)
  · exact (readExponent_leaves ..).mono (Nat.le_succ _)
  · exact floatOf_leaves ..

theorem readFraction_leaves (start : Int) (text : Octets) :
    Leaves Numeric.Bounded text.length (readFraction positive significand start text) := by
  have htake := length_takeDigits_le maxSignificand text significand 0
  simp only [readFraction]
  split
  · exact (readTail_leaves ..).mono (Nat.le_trans (length_skipDigits_le _ 0) htake)
  split
  · exact .error _
  · exact (readTail_leaves ..).mono htake

theorem readRest_leaves (text : Octets) :
    Leaves Numeric.Bounded text.length (readRest positive significand text) := by
  rw [readRest.eq_def]
  split
  · exact (readFraction_leaves ..).mono (Nat.le_succ _)
  · exact (readExponent_leaves ..).mono (Nat.le_succ _)
  · exact (readExponent_leaves ..).mono (Nat.le_succ _)
  · exact Leaves.ok (bounded_wholeNumber ..) (Nat.le_refl _)

end

/-- A number that is read is bounded, and takes at least one octet. -/
theorem readNumber_leaves (positive : Bool) (text : Octets) :
    Leaves Numeric.Bounded (text.length - 1) (readNumber positive text) := by
  rw [readNumber.eq_def]
  split
  · exact .error _
  next b digits =>
  rw [List.length_cons, Nat.add_sub_cancel]
  split
  · exact .error _
  · split
    · exact .error _
    · exact readRest_leaves ..
  next d hd hzero =>
  have htake := length_takeDigits_le maxSignificand digits d 0
  generalize takeDigits maxSignificand digits d 0 = taken at htake
  obtain ⟨significand, count, rest⟩ := taken
  dsimp only at htake ⊢
  split
  · have hskip := length_skipDigits_le rest 0
    generalize skipDigits rest 0 = skipped at hskip
    obtain ⟨count, after⟩ := skipped
    dsimp only at hskip ⊢
    split
    · next behind =>
      rw [List.length_cons] at hskip
      exact (readFraction_leaves ..).mono (by omega)
    · exact (readTail_leaves ..).mono (by omega)
  · exact (readRest_leaves ..).mono htake

end Switchboard.Json
