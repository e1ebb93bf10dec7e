/-!
# Blank characters

The characters with the White_Space property of Unicode 16.0, and the functions that cut text at
them.

## Main definitions

- `isBlank` — the property
- `trim` — a text without the blanks at its two ends
- `words` — the maximal runs of characters that are not blank

## Main statements

- `trim_append_cons` — what trimming leaves of a text that does not end in a blank
-/

namespace Switchboard.Text

/-- Closed ranges of code points, ascending and apart. -/
def blankRanges : List (Nat × Nat) :=
  [(0x09, 0x0D), (0x20, 0x20), (0x85, 0x85), (0xA0, 0xA0), (0x1680, 0x1680), (0x2000, 0x200A),
   (0x2028, 0x2029), (0x202F, 0x202F), (0x205F, 0x205F), (0x3000, 0x3000)]

/-- Does the character have the White_Space property? -/
def isBlank (c : Char) : Bool :=
  blankRanges.any fun r => r.1 ≤ c.toNat && c.toNat ≤ r.2

theorem isBlank_of_isDigit {c : Char} (h : c.isDigit = true) : isBlank c = false := by
  rw [Char.isDigit, Bool.and_eq_true, decide_eq_true_iff, decide_eq_true_iff] at h
  have h0 : 48 ≤ c.toNat := h.1
  have h9 : c.toNat ≤ 57 := h.2
  simp [isBlank, blankRanges]
  omega

/-- The text without the characters in `p` at its end. -/
def dropEndWhile (p : Char → Bool) (s : List Char) : List Char :=
  (s.reverse.dropWhile p).reverse

/-- The text without the blanks at its two ends. -/
def trim (s : List Char) : List Char :=
  dropEndWhile isBlank (s.dropWhile isBlank)

theorem dropEndWhile_append_singleton {p : Char → Bool} {c : Char} (h : p c = false)
    (s : List Char) : dropEndWhile p (s ++ [c]) = s ++ [c] := by
  simp [dropEndWhile, h]

/-- Nothing is cut off behind a character that is not blank if the text does not end in a blank. -/
theorem trim_append_cons {c : Char} {t : List Char} (s : List Char) (hc : isBlank c = false)
    (hlast : isBlank ((c :: t).getLast nofun) = false) :
    trim (s ++ c :: t) = s.dropWhile isBlank ++ c :: t := by
  have hfront : (s ++ c :: t).dropWhile isBlank = s.dropWhile isBlank ++ c :: t := by
    rw [List.dropWhile_append]
    split
    · next hblank =>
      rw [List.isEmpty_iff.mp hblank, List.nil_append, List.dropWhile_cons_of_neg]
      simp [hc]
    · rfl
  rw [trim, hfront, ← List.dropLast_concat_getLast (l := c :: t) nofun, ← List.append_assoc,
    dropEndWhile_append_singleton hlast]

/-- The maximal runs of characters that are not blank; `word` is the run being read, latest first.
-/
def wordsFrom (word : List Char) : List Char → List (List Char)
  | [] => if word.isEmpty then [] else [word.reverse]
  | c :: s =>
    if isBlank c then
      if word.isEmpty then wordsFrom [] s else word.reverse :: wordsFrom [] s
    else wordsFrom (c :: word) s

/-- The maximal runs of characters that are not blank. -/
def words (s : List Char) : List (List Char) :=
  wordsFrom [] s

end Switchboard.Text
