import Mathlib.Data.List.Basic
import Switchboard.Text.Base64

/-!
# Base64 there and back

Encoding writes whole groups of four symbols, and decoding gives the octets again.  Decoding takes
whole groups only, so what is left of an encoding that was cut inside a group is refused.

## Main statements

- `Base64.length_encode` — how many symbols are written
- `Base64.decode_encode` — octets come back from their symbols
- `Base64.length_of_decode_eq_ok` — whatever is decoded consists of whole groups
-/

namespace Switchboard.Base64

variable {first : ℕ} {bytes : Octets}

/-! ### Symbols -/

theorem value?_symbol {n : ℕ} (h : n < 64) : value? (symbol n) = some n :=
  (by decide : ∀ n < 64, value? (symbol n) = some n) n h

theorem symbol_ne_pad {n : ℕ} (h : n < 64) : symbol n ≠ pad :=
  (by decide : ∀ n < 64, symbol n ≠ pad) n h

/-! ### What is written -/

theorem length_encode (bytes : Octets) :
    (encode bytes).length = 4 * ((bytes.length + 2) / 3) := by
  fun_induction encode bytes with
  | case1 => rfl
  | case2 => simp
  | case3 => simp
  | case4 a b c rest n ih =>
    simp only [List.length_cons, ih]
    omega

/-- Nothing but symbols and filling is written. -/
theorem eq_pad_or_symbol_of_mem_encode {b : UInt8} (h : b ∈ encode bytes) :
    b = pad ∨ ∃ n < 64, b = symbol n := by
  fun_induction encode bytes with
  | case1 => cases h
  | case2 a n =>
    have ha := a.toNat_lt
    simp only [List.mem_cons, List.not_mem_nil, or_false, or_self] at h
    rcases h with rfl | rfl | rfl
    · exact .inr ⟨_, by omega, rfl⟩
    · exact .inr ⟨_, Nat.mod_lt _ (by decide), rfl⟩
    · exact .inl rfl
  | case3 a a' n =>
    have ha := a.toNat_lt
    have ha' := a'.toNat_lt
    simp only [List.mem_cons, List.not_mem_nil, or_false] at h
    rcases h with rfl | rfl | rfl | rfl
    · exact .inr ⟨_, by omega, rfl⟩
    · exact .inr ⟨_, Nat.mod_lt _ (by decide), rfl⟩
    · exact .inr ⟨_, Nat.mod_lt _ (by decide), rfl⟩
    · exact .inl rfl
  | case4 a a' a'' rest n ih =>
    have ha := a.toNat_lt
    have ha' := a'.toNat_lt
    have ha'' := a''.toNat_lt
    simp only [List.mem_cons] at h
    rcases h with rfl | rfl | rfl | rfl | h
    · exact .inr ⟨_, by omega, rfl⟩
    · exact .inr ⟨_, Nat.mod_lt _ (by decide), rfl⟩
    · exact .inr ⟨_, Nat.mod_lt _ (by decide), rfl⟩
    · exact .inr ⟨_, Nat.mod_lt _ (by decide), rfl⟩
    · exact ih h

/-- What is written consists of graphic characters of ASCII. -/
theorem graphic_of_mem_encode {b : UInt8} (h : b ∈ encode bytes) :
    0x20 < b.toNat ∧ b.toNat < 0x7F := by
  obtain rfl | ⟨n, hn, rfl⟩ := eq_pad_or_symbol_of_mem_encode h
  · decide
  · exact (by decide : ∀ n < 64, 0x20 < (symbol n).toNat ∧ (symbol n).toNat < 0x7F) n hn

/-! ### What is read -/

/-- The octets of a group are those that were joined. -/
theorem octetsOf_eq (a b c : UInt8) {n : ℕ} (h : n = (a.toNat * 256 + b.toNat) * 256 + c.toNat) :
    octetsOf (n / 262144) (n / 4096 % 64) (n / 64 % 64) (n % 64) = [a, b, c] := by
  have ha := a.toNat_lt
  have hb := b.toNat_lt
  have hc := c.toNat_lt
  have hn : ((n / 262144 * 64 + n / 4096 % 64) * 64 + n / 64 % 64) * 64 + n % 64 = n := by omega
  have toNat_toUInt8 (m : ℕ) : m.toUInt8.toNat = m % 256 := UInt8.toNat_ofNat'
  have hfirst : (n / 65536).toUInt8 = a := by
    rw [← UInt8.toNat_inj, toNat_toUInt8]
    omega
  have hsecond : (n / 256).toUInt8 = b := by
    rw [← UInt8.toNat_inj, toNat_toUInt8]
    omega
  have hthird : n.toUInt8 = c := by
    rw [← UInt8.toNat_inj, toNat_toUInt8]
    omega
  simp only [octetsOf, hn, hfirst, hsecond, hthird]

section

variable {n₁ n₂ n₃ n₄ : ℕ} (h₁ : n₁ < 64) (h₂ : n₂ < 64) (h₃ : n₃ < 64) (h₄ : n₄ < 64)
include h₁ h₂

theorem decodeLast_two (hspare : n₂ % 16 = 0) :
    decodeLast first [symbol n₁, symbol n₂, pad, pad] = .ok ((octetsOf n₁ n₂ 0 0).take 1) := by
  simp [decodeLast, lastGroup, symbol_ne_pad, value?_symbol, h₁, h₂, hspare]

include h₃

theorem decodeLast_three (hspare : n₃ % 4 = 0) :
    decodeLast first [symbol n₁, symbol n₂, symbol n₃, pad] =
      .ok ((octetsOf n₁ n₂ n₃ 0).take 2) := by
  simp [decodeLast, lastGroup, symbol_ne_pad, value?_symbol, h₁, h₂, h₃, hspare]

include h₄

/-- A full group is decoded, whatever comes after it. -/
theorem decodeFrom_group (rest : Octets) :
    decodeFrom first (symbol n₁ :: symbol n₂ :: symbol n₃ :: symbol n₄ :: rest) =
      (decodeFrom (first + 4) rest).map (octetsOf n₁ n₂ n₃ n₄ ++ ·) := by
  cases rest with
  | nil =>
    simp [decodeFrom, decodeLast, lastGroup, symbol_ne_pad, value?_symbol, h₁, h₂, h₃, h₄,
      Except.map]
  | cons => simp [decodeFrom, values, value?_symbol, h₁, h₂, h₃, h₄, Except.map]

end

theorem decodeFrom_encode (bytes : Octets) (first : ℕ) :
    decodeFrom first (encode bytes) = .ok bytes := by
  fun_induction encode bytes generalizing first with
  | case1 => rfl
  | case2 a n =>
    have ha := a.toNat_lt
    have hgroup : octetsOf (n / 64) (n % 64) 0 0 = [a, 0, 0] := by
      rw [← octetsOf_eq a 0 0 rfl]
      congr 1 <;> simp only [UInt8.toNat_zero] <;> omega
    rw [decodeFrom, decodeLast_two (by omega) (by omega) (by omega), hgroup]
    · rfl
    all_goals simp
  | case3 a b n =>
    have ha := a.toNat_lt
    have hb := b.toNat_lt
    have hgroup : octetsOf (n / 4096) (n / 64 % 64) (n % 64) 0 = [a, b, 0] := by
      rw [← octetsOf_eq a b 0 rfl]
      congr 1 <;> simp only [UInt8.toNat_zero] <;> omega
    rw [decodeFrom, decodeLast_three (by omega) (by omega) (by omega) (by omega), hgroup]
    · rfl
    all_goals simp
  | case4 a b c rest n ih =>
    have ha := a.toNat_lt
    have hb := b.toNat_lt
    have hc := c.toNat_lt
    rw [decodeFrom_group (by omega) (by omega) (by omega) (by omega), ih, octetsOf_eq a b c rfl]
    rfl

/-- Octets come back from their symbols. -/
theorem decode_encode (bytes : Octets) : decode (encode bytes) = .ok bytes := by
  have hlength := length_encode bytes
  have hread := decodeFrom_encode bytes 0
  unfold decode
  split
  · rw [if_neg (by omega)]
    exact hread
  · next hnone =>
    rw [List.getLast?_eq_none_iff.mp hnone] at hread
    exact hread

/-! ### What is refused -/

theorem length_of_values_eq_ok {group : Octets} {vs : List ℕ} (h : values first group = .ok vs) :
    vs.length = group.length := by
  induction group generalizing first vs with
  | nil =>
    cases h
    rfl
  | cons b rest ih =>
    rw [values] at h
    split at h
    · cases h
    · cases hrest : values (first + 1) rest with
      | error fault => simp [hrest, Except.map] at h
      | ok ws =>
        rw [hrest] at h
        cases h
        rw [List.length_cons, List.length_cons, ih hrest]

theorem length_of_lastGroup_eq_ok {index pads pads' : ℕ} {group : Octets} {vs : List ℕ}
    (h : lastGroup first group index pads = .ok (vs, pads')) :
    vs.length + pads' = group.length + pads := by
  fun_induction lastGroup first group index pads generalizing vs pads' with
  | case1 => cases h; rfl
  | case2 => cases h
  | case3 index pads rest hindex ih =>
    have hrest := ih h
    rw [List.length_cons]
    omega
  | case4 => cases h
  | case5 => cases h
  | case6 => cases h
  | case7 index pads b rest hb hpads v hv vs' pads'' hlast ih =>
    cases h
    have hrest := ih hlast
    rw [List.length_cons, List.length_cons]
    omega

theorem length_of_decodeLast_eq_ok {group : Octets} (h : decodeLast first group = .ok bytes) :
    group.length % 4 = 0 := by
  rw [decodeLast] at h
  split at h
  · cases h
  next vs pads hlast =>
  have hlength := length_of_lastGroup_eq_ok hlast
  split at h
  · cases h
  · cases h
  split at h
  · cases h
  · omega

theorem length_of_decodeFrom_eq_ok {symbols : Octets} (h : decodeFrom first symbols = .ok bytes) :
    symbols.length % 4 = 0 := by
  fun_induction decodeFrom first symbols generalizing bytes with
  | case1 first a b c d e rest a' b' c' d' hvalues ih =>
    cases hrest : decodeFrom (first + 4) (e :: rest) with
    | error fault => simp [hrest, Except.map] at h
    | ok bytes' =>
      have hlength := ih hrest
      simp only [List.length_cons] at hlength ⊢
      omega
  | case2 first a b c d e rest vs hnot hvalues =>
    obtain ⟨_, _, _, _, rfl⟩ := List.length_eq_four.mp (length_of_values_eq_ok hvalues)
    exact absurd rfl (hnot _ _ _ _)
  | case3 => cases h
  | case4 => rfl
  | case5 => exact length_of_decodeLast_eq_ok h

/-- Whatever is decoded consists of whole groups. -/
theorem length_of_decode_eq_ok {symbols : Octets} (h : decode symbols = .ok bytes) :
    symbols.length % 4 = 0 := by
  unfold decode at h
  split at h
  · split at h
    · cases h
    · exact length_of_decodeFrom_eq_ok h
  · next hnone =>
    rw [List.getLast?_eq_none_iff.mp hnone]
    rfl

end Switchboard.Base64
