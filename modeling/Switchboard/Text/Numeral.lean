/-!
# Decimal numerals

Reading a bounded natural number from its decimal text.  A plus sign may stand in front; nothing but
ASCII digits may follow.

## Main definitions

- `Numeral.parse` — the number, or the first fault from the left

## Main statements

- `Numeral.parse_toDigits` — a number within the bound comes back from its digits
-/

namespace Switchboard.Numeral

/-- Why a text is not a numeral within the bound. -/
inductive Fault where
  /-- there is no character at all -/
  | empty
  /-- a character that is no digit, or a sign alone -/
  | invalidDigit
  /-- the digits read so far spell a number above the bound -/
  | tooLarge
  deriving Repr, DecidableEq

/-- The wording of a fault. -/
def Fault.message : Fault → String
  | .empty => "cannot parse integer from empty string"
  | .invalidDigit => "invalid digit found in string"
  | .tooLarge => "number too large to fit in target type"

/-- The value of an ASCII digit. -/
def digit? (c : Char) : Option Nat :=
  if '0' ≤ c ∧ c ≤ '9' then some (c.toNat - 48) else none

/-- Reads digits onto the number `read`; the fault nearest to the left wins. -/
def readDigits (bound : Nat) : List Char → Nat → Except Fault Nat
  | [], read => .ok read
  | c :: rest, read =>
    match digit? c with
    | none => .error .invalidDigit
    | some d =>
      if read * 10 + d ≤ bound then readDigits bound rest (read * 10 + d) else .error .tooLarge

/-- The number of at most `bound` that the text spells. -/
def parse (bound : Nat) : List Char → Except Fault Nat
  | [] => .error .empty
  | ['+'] => .error .invalidDigit
  | '+' :: rest => readDigits bound rest 0
  | s => readDigits bound s 0

theorem digit?_of_isDigit {c : Char} (h : c.isDigit = true) : digit? c = some (c.toNat - 48) := by
  rw [Char.isDigit, Bool.and_eq_true, decide_eq_true_iff, decide_eq_true_iff] at h
  exact if_pos h

theorem le_ofDigitChars (s : List Char) (read : Nat) : read ≤ Nat.ofDigitChars 10 s read := by
  induction s generalizing read with
  | nil => exact Nat.le_refl _
  | cons c s ih =>
    rw [Nat.ofDigitChars_cons]
    exact Nat.le_trans (by omega) (ih _)

theorem readDigits_of_isDigit {bound : Nat} {s : List Char} (h : ∀ c ∈ s, c.isDigit = true)
    {read : Nat} (hbound : Nat.ofDigitChars 10 s read ≤ bound) :
    readDigits bound s read = .ok (Nat.ofDigitChars 10 s read) := by
  induction s generalizing read with
  | nil => rfl
  | cons c s ih =>
    rw [Nat.ofDigitChars_cons, Nat.mul_comm] at hbound ⊢
    have hread : read * 10 + (c.toNat - 48) ≤ bound := Nat.le_trans (le_ofDigitChars s _) hbound
    rw [readDigits, digit?_of_isDigit (h c (List.mem_cons_self ..))]
    dsimp only
    rw [if_pos hread]
    exact ih (fun d hd => h d (List.mem_cons_of_mem c hd)) hbound

/-- A number within the bound comes back from its digits. -/
theorem parse_toDigits {bound n : Nat} (h : n ≤ bound) :
    parse bound (Nat.toDigits 10 n) = .ok n := by
  have hdigits : ∀ c ∈ Nat.toDigits 10 n, c.isDigit = true := fun c hc =>
    Nat.isDigit_of_mem_toDigits (by decide) (by decide) hc
  have hbound : Nat.ofDigitChars 10 (Nat.toDigits 10 n) 0 ≤ bound := by
    rwa [Nat.ofDigitChars_ten_toDigits]
  have hread := readDigits_of_isDigit hdigits hbound
  rw [Nat.ofDigitChars_ten_toDigits] at hread
  unfold parse
  split
  · next hnil => exact absurd hnil Nat.toDigits_ne_nil
  · next hplus => exact absurd (hdigits '+' (by simp [hplus])) (by decide)
  · next hplus => exact absurd (hdigits '+' (by simp [hplus])) (by decide)
  · exact hread

end Switchboard.Numeral
