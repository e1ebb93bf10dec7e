/-!
# Cutting text at a character

## Main definitions

- `cutFirst?`, `cutLast?` — the parts before and after the first or last occurrence of a character

## Main statements

- `cutFirst?_eq_some_iff`, `cutLast?_eq_some_iff` — where a text is cut
-/

namespace Switchboard.Text

/-- The parts before and after the first `c`, if there is one. -/
def cutFirst? (c : Char) : List Char → Option (List Char × List Char)
  | [] => none
  | d :: s => if d = c then some ([], s) else (cutFirst? c s).map fun (a, b) => (d :: a, b)

/-- The parts before and after the last `c`, if there is one. -/
def cutLast? (c : Char) : List Char → Option (List Char × List Char)
  | [] => none
  | d :: s =>
    match cutLast? c s with
    | some (a, b) => some (d :: a, b)
    | none => if d = c then some ([], s) else none

variable {c : Char} {s a b : List Char}

theorem cutFirst?_append_cons (h : c ∉ a) : cutFirst? c (a ++ c :: b) = some (a, b) := by
  induction a with
  | nil => simp [cutFirst?]
  | cons d a ih =>
    have hd := List.ne_of_not_mem_cons h
    rw [List.cons_append, cutFirst?, if_neg hd.symm, ih (List.not_mem_of_not_mem_cons h)]
    rfl

/-- A text is cut at the first occurrence of the character. -/
theorem cutFirst?_eq_some_iff : cutFirst? c s = some (a, b) ↔ s = a ++ c :: b ∧ c ∉ a := by
  refine ⟨fun h => ?_, fun ⟨hs, ha⟩ => hs ▸ cutFirst?_append_cons ha⟩
  induction s generalizing a with
  | nil => cases h
  | cons d s ih =>
    rw [cutFirst?] at h
    split at h
    · next hd =>
      cases h
      exact ⟨by rw [hd, List.nil_append], List.not_mem_nil⟩
    · next hd =>
      obtain ⟨⟨a', b'⟩, hrest, heq⟩ := Option.map_eq_some_iff.mp h
      cases heq
      obtain ⟨rfl, ha⟩ := ih hrest
      exact ⟨rfl, List.not_mem_cons_of_ne_of_not_mem (Ne.symm hd) ha⟩

/-- A text is cut unless the character does not occur. -/
theorem cutLast?_eq_none_iff : cutLast? c s = none ↔ c ∉ s := by
  induction s with
  | nil => simp [cutLast?]
  | cons d s ih =>
    rw [cutLast?]
    cases hrest : cutLast? c s with
    | none =>
      have hs := ih.mp hrest
      simp [hs, eq_comm]
    | some cut =>
      have hs : c ∈ s := by
        rw [hrest] at ih
        exact Decidable.not_not.mp fun h => nomatch ih.mpr h
      simp [hs]

/-- A text is cut at the last occurrence of the character. -/
theorem cutLast?_eq_some_iff : cutLast? c s = some (a, b) ↔ s = a ++ c :: b ∧ c ∉ b := by
  constructor
  · intro h
    induction s generalizing a with
    | nil => cases h
    | cons d s ih =>
      rw [cutLast?] at h
      cases hrest : cutLast? c s with
      | none =>
        rw [hrest] at h
        obtain ⟨hd, heq⟩ := Option.ite_none_right_eq_some.mp h
        cases heq
        exact ⟨by rw [hd, List.nil_append], cutLast?_eq_none_iff.mp hrest⟩
      | some cut =>
        rw [hrest] at h
        cases h
        obtain ⟨rfl, hb⟩ := ih hrest
        exact ⟨rfl, hb⟩
  · rintro ⟨rfl, hb⟩
    induction a with
    | nil => simp [cutLast?, cutLast?_eq_none_iff.mpr hb]
    | cons d a ih => simp [cutLast?, ih]

end Switchboard.Text
