import Mathlib.Data.List.Basic
import Switchboard.Text.Utf8

/-!
# Text there and back

The octets of a text are UTF-8, and each way of reading them gives the text again.

## Main statements

- `next_append` — the octets of a character are read as this character
- `decode_encode`, `decodeLossy_encode` — the octets of a text are read as this text
-/

namespace Switchboard.Utf8

/-! ### Leading octets -/

theorem widthOf_of_lt {a : UInt8} (h : a.toNat < 0x80) : widthOf a = 1 :=
  if_pos (UInt8.lt_iff_toNat_lt.mpr h)

theorem widthOf_two {a : UInt8} (h : 0xC2 ≤ a.toNat) (h' : a.toNat < 0xE0) : widthOf a = 2 := by
  simp only [widthOf, UInt8.lt_iff_toNat_lt, UInt8.reduceToNat]
  rw [if_neg (by omega), if_neg (by omega), if_pos h']

theorem widthOf_three {a : UInt8} (h : 0xE0 ≤ a.toNat) (h' : a.toNat < 0xF0) : widthOf a = 3 := by
  simp only [widthOf, UInt8.lt_iff_toNat_lt, UInt8.reduceToNat]
  rw [if_neg (by omega), if_neg (by omega), if_neg (by omega), if_pos h']

theorem widthOf_four {a : UInt8} (h : 0xF0 ≤ a.toNat) (h' : a.toNat < 0xF5) : widthOf a = 4 := by
  simp only [widthOf, UInt8.lt_iff_toNat_lt, UInt8.reduceToNat]
  rw [if_neg (by omega), if_neg (by omega), if_neg (by omega), if_neg (by omega), if_pos h']

/-! ### Continuation octets -/

/-- The octet that continues a character with these six bits. -/
def continuation (n : ℕ) : UInt8 :=
  UInt8.ofNat (n % 64 + 0x80)

theorem toNat_continuation (n : ℕ) : (continuation n).toNat = n % 64 + 0x80 := by
  rw [continuation, UInt8.toNat_ofNat']
  omega

theorem isContinuation_continuation (n : ℕ) : isContinuation (continuation n) = true := by
  simp only [isContinuation, UInt8.le_iff_toNat_le, toNat_continuation, Bool.and_eq_true,
    decide_eq_true_eq, UInt8.reduceToNat]
  omega

theorem low_continuation (n : ℕ) : low (continuation n) = n % 64 := by
  rw [low, toNat_continuation]
  omega

/-- Neither an overlong form, nor a surrogate, nor beyond the last code point. -/
theorem secondFits_of {a b : UInt8} (hlow : 0x80 ≤ b.toNat) (hhigh : b.toNat ≤ 0xBF)
    (hthree : a.toNat = 0xE0 → 0xA0 ≤ b.toNat) (hsurrogate : a.toNat = 0xED → b.toNat ≤ 0x9F)
    (hfour : a.toNat = 0xF0 → 0x90 ≤ b.toNat) (hlast : a.toNat = 0xF4 → b.toNat ≤ 0x8F) :
    secondFits a b = true := by
  simp only [secondFits, isContinuation, ← UInt8.toNat_inj, UInt8.le_iff_toNat_le,
    UInt8.reduceToNat]
  repeat' split
  all_goals
    simp only [Bool.and_eq_true, decide_eq_true_eq]
    omega

/-! ### Characters -/

section

variable {a : UInt8} {n : ℕ} (rest : Octets)

theorem next_of_width_two (ha : a.toNat = n / 64 % 32 + 0xC0) (hlow : 0x80 ≤ n)
    (hhigh : n < 0x800) :
    next (a :: continuation n :: rest) = .char (Char.ofNat n) 2 rest := by
  have hwidth : widthOf a = 2 := widthOf_two (by omega) (by omega)
  have hcode : a.toNat % 32 * 64 + n % 64 = n := by omega
  simp only [next, hwidth, isContinuation_continuation, if_true, low_continuation, hcode]

theorem next_of_width_three (ha : a.toNat = n / 4096 % 16 + 0xE0) (hlow : 0x800 ≤ n)
    (hhigh : n < 0x10000) (hvalid : n < 0xD800 ∨ 0xDFFF < n) :
    next (a :: continuation (n / 64) :: continuation n :: rest) =
      .char (Char.ofNat n) 3 rest := by
  have hwidth : widthOf a = 3 := widthOf_three (by omega) (by omega)
  have hsecond : secondFits a (continuation (n / 64)) = true := by
    apply secondFits_of
    all_goals
      rw [toNat_continuation]
      omega
  have hcode : a.toNat % 16 * 4096 + n / 64 % 64 * 64 + n % 64 = n := by omega
  simp only [next, hwidth, hsecond, isContinuation_continuation, if_true, low_continuation, hcode]

theorem next_of_width_four (ha : a.toNat = n / 262144 % 8 + 0xF0) (hlow : 0x10000 ≤ n)
    (hhigh : n < 0x110000) :
    next (a :: continuation (n / 4096) :: continuation (n / 64) :: continuation n :: rest) =
      .char (Char.ofNat n) 4 rest := by
  have hwidth : widthOf a = 4 := widthOf_four (by omega) (by omega)
  have hsecond : secondFits a (continuation (n / 4096)) = true := by
    apply secondFits_of
    all_goals
      rw [toNat_continuation]
      omega
  have hcode : a.toNat % 8 * 262144 + n / 4096 % 64 * 4096 + n / 64 % 64 * 64 + n % 64 =
      n := by omega
  simp only [next, hwidth, hsecond, isContinuation_continuation, if_true, low_continuation, hcode]

end

/-- The octets of a character are read as this character. -/
theorem next_append (c : Char) (rest : Octets) :
    next (String.utf8EncodeChar c ++ rest) = .char c (String.utf8EncodeChar c).length rest := by
  have hvalid : c.toNat < 0xD800 ∨ 0xDFFF < c.toNat ∧ c.toNat < 0x110000 := c.valid
  have hback : Char.ofNat c.toNat = c := Char.ofNat_toNat c
  have hcode : c.val.toNat = c.toNat := rfl
  simp only [String.utf8EncodeChar, hcode]
  split
  · next h =>
    have ha : (UInt8.ofNat c.toNat).toNat = c.toNat := by
      rw [UInt8.toNat_ofNat']
      omega
    simp only [List.cons_append, List.nil_append, next, widthOf_of_lt (a := UInt8.ofNat c.toNat)
      (by omega), ha, hback]
    rfl
  next hone =>
  split
  · next h =>
    have hnext := next_of_width_two (a := UInt8.ofNat (c.toNat / 64 % 32 + 0xC0))
      (n := c.toNat) rest (by rw [UInt8.toNat_ofNat']; omega) (by omega) (by omega)
    rw [hback] at hnext
    exact hnext
  next htwo =>
  split
  · next h =>
    have hnext := next_of_width_three (a := UInt8.ofNat (c.toNat / 4096 % 16 + 0xE0))
      (n := c.toNat) rest (by rw [UInt8.toNat_ofNat']; omega) (by omega) (by omega) (by omega)
    rw [hback] at hnext
    exact hnext
  next hthree =>
  have hnext := next_of_width_four (a := UInt8.ofNat (c.toNat / 262144 % 8 + 0xF0))
    (n := c.toNat) rest (by rw [UInt8.toNat_ofNat']; omega) (by omega) (by omega)
  rw [hback] at hnext
  exact hnext

theorem length_utf8EncodeChar_pos (c : Char) : 0 < (String.utf8EncodeChar c).length := by
  simp only [String.utf8EncodeChar]
  split_ifs <;> exact Nat.succ_pos _

/-! ### Texts -/

theorem encode_cons (c : Char) (s : List Char) : encode (c :: s) = String.utf8EncodeChar c ++ encode s :=
  rfl

theorem decodeFrom_encode (s : List Char) (fuel index : ℕ) (read : List Char)
    (hfuel : (encode s).length < fuel) :
    decodeFrom fuel index (encode s) read = .ok (read.reverse ++ s) := by
  induction s generalizing fuel index read with
  | nil =>
    obtain ⟨fuel, rfl⟩ := Nat.exists_eq_add_of_lt hfuel
    simp [encode, decodeFrom, next]
  | cons c s ih =>
    have hpos := length_utf8EncodeChar_pos c
    rw [encode_cons, List.length_append] at hfuel
    cases fuel with
    | zero => omega
    | succ fuel =>
      simp only [encode_cons, decodeFrom, next_append]
      rw [ih _ _ _ (by omega)]
      simp

/-- The octets of a text are read as this text. -/
theorem decode_encode (s : List Char) : decode (encode s) = .ok s :=
  decodeFrom_encode s _ 0 [] (Nat.lt_succ_self _)

theorem decode?_encode (s : List Char) : decode? (encode s) = some s := by
  rw [decode?, decode_encode]
  rfl

theorem valid_encode (s : List Char) : valid (encode s) = true := by
  rw [valid, decode?_encode]
  rfl

theorem decodeLossyFrom_encode (s : List Char) (fuel : ℕ) (read : List Char)
    (hfuel : (encode s).length < fuel) :
    decodeLossyFrom fuel (encode s) read = read.reverse ++ s := by
  induction s generalizing fuel read with
  | nil =>
    obtain ⟨fuel, rfl⟩ := Nat.exists_eq_add_of_lt hfuel
    simp [encode, decodeLossyFrom, next]
  | cons c s ih =>
    have hpos := length_utf8EncodeChar_pos c
    rw [encode_cons, List.length_append] at hfuel
    cases fuel with
    | zero => omega
    | succ fuel =>
      simp only [encode_cons, decodeLossyFrom, next_append]
      rw [ih _ _ (by omega)]
      simp

/-- No character of a text is replaced. -/
theorem decodeLossy_encode (s : List Char) : decodeLossy (encode s) = s :=
  decodeLossyFrom_encode s _ [] (Nat.lt_succ_self _)

/-! ### Lengths -/

theorem length_utf8EncodeChar_le (c : Char) : (String.utf8EncodeChar c).length ≤ 4 := by
  simp only [String.utf8EncodeChar]
  split_ifs <;> simp

theorem length_utf8EncodeChar_of_lt {c : Char} (h : c.toNat < 0x80) :
    (String.utf8EncodeChar c).length = 1 := by
  have hcode : c.val.toNat ≤ 0x7F := Nat.le_of_lt_succ h
  simp only [String.utf8EncodeChar, if_pos hcode]
  rfl

theorem widthOf_eq_one_iff {a : UInt8} : widthOf a = 1 ↔ a.toNat < 0x80 := by
  simp only [widthOf, UInt8.lt_iff_toNat_lt, UInt8.reduceToNat]
  split_ifs <;> simp <;> omega

theorem toNat_ofNat {n : ℕ} (h : n.isValidChar) : (Char.ofNat n).toNat = n := by
  rw [Char.ofNat, dif_pos h]
  rfl

/-- A character in front takes at most three times the octets that were read for it. -/
theorem length_of_next_eq_char {bytes rest : Octets} {c : Char} {width : ℕ}
    (h : next bytes = .char c width rest) :
    (String.utf8EncodeChar c).length + 3 * rest.length ≤ 3 * bytes.length := by
  have hwide := length_utf8EncodeChar_le c
  cases bytes with
  | nil => cases h
  | cons a tail =>
    by_cases hone : widthOf a = 1
    · simp only [next, hone, Front.char.injEq] at h
      obtain ⟨rfl, -, rfl⟩ := h
      have ha := widthOf_eq_one_iff.mp hone
      have hback : (Char.ofNat a.toNat).toNat = a.toNat := toNat_ofNat (.inl (by omega))
      rw [length_utf8EncodeChar_of_lt (by omega), List.length_cons]
      omega
    · -- at least two octets were read
      have hread : rest.length + 2 ≤ (a :: tail).length := by
        simp only [next] at h
        split at h
        · exact absurd ‹_› hone
        all_goals repeat' split at h
        all_goals cases h
        all_goals simp
      omega

/-- Octets that are no character are fewer after each fault. -/
theorem length_of_next_eq_invalid {bytes rest : Octets} {width : ℕ}
    (h : next bytes = .invalid width rest) : rest.length < bytes.length := by
  cases bytes with
  | nil => cases h
  | cons a tail =>
    simp only [next] at h
    repeat' split at h
    all_goals cases h
    all_goals simp

theorem length_decodeLossyFrom_le (fuel : ℕ) (bytes : Octets) (read : List Char) :
    (encode (decodeLossyFrom fuel bytes read)).length ≤
      (encode read.reverse).length + 3 * bytes.length := by
  have hreplacement : (String.utf8EncodeChar replacement).length = 3 := by decide
  have hmore (c : Char) (read : List Char) : (encode (c :: read).reverse).length =
      (encode read.reverse).length + (String.utf8EncodeChar c).length := by
    simp [encode]
  induction fuel generalizing bytes read with
  | zero => exact Nat.le_add_right ..
  | succ fuel ih =>
    rw [decodeLossyFrom]
    split
    · exact Nat.le_add_right ..
    · next c width rest h =>
      have hc := length_of_next_eq_char h
      have hrest := ih rest (c :: read)
      rw [hmore] at hrest
      omega
    · next width rest h =>
      have hlt := length_of_next_eq_invalid h
      have hrest := ih rest (replacement :: read)
      rw [hmore, hreplacement] at hrest
      omega
    · next h =>
      -- a character is cut short: all that is left becomes one replacement
      have hpos : bytes ≠ [] := by
        rintro rfl
        cases h
      have hlength := List.length_pos_iff.mpr hpos
      rw [hmore, hreplacement]
      omega

/-- Read leniently, octets become a text of at most three times as many. -/
theorem length_decodeLossy_le (bytes : Octets) :
    (encode (decodeLossy bytes)).length ≤ 3 * bytes.length := by
  have h := length_decodeLossyFrom_le (bytes.length + 1) bytes []
  have hempty : (encode [].reverse).length = 0 := rfl
  rwa [hempty, Nat.zero_add] at h

end Switchboard.Utf8
