import Switchboard.Proofs.WholeNumbers
import Switchboard.Retry.Delay

/-!
# How delays grow

A growing delay is computed in whole milliseconds.  As long as its numbers have 53 bits, nothing is
rounded: the delay is what growth by the multiplier comes to, up to the limit, if neither the first
delay nor the limit has a fraction of a millisecond.  A fraction of the first delay is lost before
it grows, and one of the limit comes back when the limit is reached.

## Main definitions

- `Retry.Delay.Exact` — the numbers of a delay are in the range where nothing is rounded
- `Retry.Delay.grown` — what growth by a factor comes to

## Main statements

- `Retry.Delay.afterAttempt_exponential` — a growing delay in whole numbers
- `Retry.Delay.grown_eq_min_iff` — what the fractions change
- `Retry.Delay.growth_by_whole_multiplier` — both together, and how the delays follow each other
- `Retry.Delay.half_a_millisecond_never_grows` — a delay that is lost altogether
-/

namespace Switchboard.Retry.Delay

open Binary (Denotes denotes_ofNat)

variable {initial limit : Duration} {multiplier : Binary} {m factor factor' : ℕ} {n : UInt32}

/-! ### Numbers of 53 bits -/

/-- The first delay, grown by the factor, and the limit stay below `2 ^ 53` milliseconds, and the
factor below `2 ^ 53`. -/
structure Exact (initial : Duration) (factor : ℕ) (limit : Duration) : Prop where
  grown : initial.nanos * factor < 2 ^ 53 * 1000000
  limit : limit.nanos < 2 ^ 53 * 1000000
  factor : factor < 2 ^ 53

instance (initial : Duration) (factor : ℕ) (limit : Duration) :
    Decidable (Exact initial factor limit) :=
  decidable_of_iff (initial.nanos * factor < 2 ^ 53 * 1000000 ∧
      limit.nanos < 2 ^ 53 * 1000000 ∧ factor < 2 ^ 53)
    ⟨fun ⟨hgrown, hlimit, hfactor⟩ => ⟨hgrown, hlimit, hfactor⟩, fun h => ⟨h.1, h.2, h.3⟩⟩

/-- Whole milliseconds are no more than the time that they are part of. -/
theorem millis_mul_le (d : Duration) : d.millis * 1000000 ≤ d.nanos :=
  Nat.div_mul_le_self ..

theorem Exact.mono (h : Exact initial factor limit) (hle : factor' ≤ factor) :
    Exact initial factor' limit :=
  ⟨Nat.lt_of_le_of_lt (Nat.mul_le_mul_left _ hle) h.grown, h.limit,
    Nat.lt_of_le_of_lt hle h.factor⟩

theorem Exact.millis_lt (h : Exact initial factor limit) : limit.millis < 2 ^ 53 :=
  Nat.div_lt_of_lt_mul (Nat.mul_comm _ _ ▸ h.limit)

theorem Exact.millis_mul_lt (h : Exact initial factor limit) :
    initial.millis * factor < 2 ^ 53 := by
  have hgrown : initial.millis * factor * 1000000 < 2 ^ 53 * 1000000 := by
    calc initial.millis * factor * 1000000 = initial.millis * 1000000 * factor :=
          Nat.mul_right_comm ..
      _ ≤ initial.nanos * factor := Nat.mul_le_mul_right _ (millis_mul_le initial)
      _ < 2 ^ 53 * 1000000 := h.grown
  exact Nat.lt_of_mul_lt_mul_right hgrown

/-- The bound on exponents is never reached by a factor of 53 bits. -/
theorem pow_min_maxExponent {k : ℕ} (hm : 1 ≤ m) (h : m ^ k < 2 ^ 53) :
    m ^ min k maxExponent = m ^ k := by
  obtain rfl | hm := Nat.eq_or_lt_of_le hm
  · rw [one_pow, one_pow]
  · -- powers of a larger number grow too fast
    have hk : 2 ^ k < 2 ^ 53 := Nat.lt_of_le_of_lt (Nat.pow_le_pow_left hm k) h
    have hsmall : k < 53 := (Nat.pow_lt_pow_iff_right Nat.one_lt_two).mp hk
    rw [Nat.min_eq_left]
    exact Nat.le_of_lt (Nat.lt_trans hsmall (by decide))

/-! ### Growth -/

/-- What the first delay comes to when it has grown by the factor: whole milliseconds below the
limit, or the limit. -/
def grown (initial : Duration) (factor : ℕ) (limit : Duration) : Duration :=
  if initial.millis * factor < limit.millis then .ofMillis (initial.millis * factor) else limit

/-- Within 53 bits a growing delay is computed in whole numbers. -/
theorem afterAttempt_exponential (hmultiplier : multiplier.Denotes m) (hm : 1 ≤ m)
    (h : Exact initial (m ^ (n.toNat - 1)) limit) :
    (exponential initial multiplier limit).afterAttempt n =
      grown initial (m ^ (n.toNat - 1)) limit := by
  have hpower := pow_min_maxExponent hm h.factor
  have hfactor : (multiplier.power .double (min (n.toNat - 1) maxExponent)).Denotes
      (m ^ (n.toNat - 1)) := by
    rw [← hpower]
    exact hmultiplier.power hm (hpower ▸ h.factor)
  have hinitial : (Binary.ofNat .double initial.millis).Denotes initial.millis := by
    refine denotes_ofNat (Nat.lt_of_le_of_lt ?_ h.millis_mul_lt)
    exact Nat.le_mul_of_pos_right _ (Nat.pow_pos hm)
  have hmillis := hinitial.mul hfactor h.millis_mul_lt
  have hlt := hmillis.lt_iff (denotes_ofNat h.millis_lt)
  simp only [afterAttempt, grown, hmillis.isFinite, hmillis.truncate, Bool.true_and, hlt]

theorem grown_le_limit (initial : Duration) (factor : ℕ) (limit : Duration) :
    (grown initial factor limit).nanos ≤ limit.nanos := by
  have hlimit := millis_mul_le limit
  rw [grown]
  split
  · next hbelow =>
    exact Nat.le_trans (Nat.mul_le_mul_right _ (Nat.le_of_lt hbelow)) hlimit
  · exact Nat.le_refl _

/-- Who grows more comes to more. -/
theorem grown_mono (hle : factor' ≤ factor) (initial limit : Duration) :
    (grown initial factor' limit).nanos ≤ (grown initial factor limit).nanos := by
  have hmillis : initial.millis * factor' ≤ initial.millis * factor := Nat.mul_le_mul_left _ hle
  by_cases h : initial.millis * factor < limit.millis
  · rw [grown, grown, if_pos h, if_pos (Nat.lt_of_le_of_lt hmillis h)]
    exact Nat.mul_le_mul_right _ hmillis
  · rw [grown.eq_def initial factor, if_neg h]
    exact grown_le_limit ..

/-- Growth is what it should be, up to the limit, unless a fraction of a millisecond has been lost
below the limit, or one has come back with it. -/
theorem grown_eq_min_iff (hfactor : 0 < factor) :
    (grown initial factor limit).nanos = min (initial.nanos * factor) limit.nanos ↔
      if initial.millis * factor < limit.millis then 1000000 ∣ initial.nanos
      else limit.nanos ≤ initial.nanos * factor := by
  have hlimit := millis_mul_le limit
  rw [grown]
  split
  · next hbelow =>
    have hlost : initial.millis * factor * 1000000 = initial.millis * 1000000 * factor :=
      Nat.mul_right_comm ..
    have hless : initial.millis * 1000000 * factor ≤ initial.nanos * factor :=
      Nat.mul_le_mul_right _ (millis_mul_le initial)
    calc initial.millis * factor * 1000000 = min (initial.nanos * factor) limit.nanos
        ↔ initial.millis * 1000000 * factor = initial.nanos * factor := by omega
      _ ↔ initial.millis * 1000000 = initial.nanos := Nat.mul_left_inj hfactor.ne'
      _ ↔ 1000000 ∣ initial.nanos :=
        ⟨Dvd.intro_left _, Nat.div_mul_cancel⟩
  · omega

/-- Without fractions of a millisecond growth is what it should be. -/
theorem grown_eq_min (hfactor : 0 < factor) (hinitial : 1000000 ∣ initial.nanos)
    (hlimit : 1000000 ∣ limit.nanos) :
    (grown initial factor limit).nanos = min (initial.nanos * factor) limit.nanos := by
  rw [grown_eq_min_iff hfactor]
  split
  · exact hinitial
  · next hreached =>
    calc limit.nanos = limit.millis * 1000000 := (Nat.div_mul_cancel hlimit).symm
      _ ≤ initial.millis * factor * 1000000 := Nat.mul_le_mul_right _ (Nat.le_of_not_lt hreached)
      _ = initial.millis * 1000000 * factor := Nat.mul_right_comm ..
      _ ≤ initial.nanos * factor := Nat.mul_le_mul_right _ (millis_mul_le initial)

/-- A delay grows by its multiplier after every attempt, up to the limit, in whole milliseconds:
fractions of a millisecond are lost before they grow.  It never shrinks, nor exceeds the limit. -/
theorem growth_by_whole_multiplier (hmultiplier : multiplier.Denotes m) (hm : 1 ≤ m)
    (h : Exact initial (m ^ (n.toNat - 1)) limit) :
    let delay := exponential initial multiplier limit
    let wanted := min (initial.nanos * m ^ (n.toNat - 1)) limit.nanos
    ((delay.afterAttempt n).nanos = wanted ↔
        if initial.millis * m ^ (n.toNat - 1) < limit.millis then 1000000 ∣ initial.nanos
        else limit.nanos ≤ initial.nanos * m ^ (n.toNat - 1)) ∧
      (1000000 ∣ initial.nanos → 1000000 ∣ limit.nanos →
        (delay.afterAttempt n).nanos = wanted ∧
        (delay.afterAttempt 1).nanos = min initial.nanos limit.nanos) ∧
      (delay.afterAttempt n).nanos ≤ limit.nanos ∧
      ∀ k ≤ n, (delay.afterAttempt k).nanos ≤ (delay.afterAttempt n).nanos := by
  have hpow {k : ℕ} : 0 < m ^ k := Nat.pow_pos hm
  have hearlier {k : UInt32} (hk : m ^ (k.toNat - 1) ≤ m ^ (n.toNat - 1)) :=
    afterAttempt_exponential hmultiplier hm (h.mono hk)
  intro delay wanted
  refine ⟨?_, fun hinitial hlimit => ⟨?_, ?_⟩, ?_, fun k hk => ?_⟩
  · rw [hearlier (Nat.le_refl _)]
    exact grown_eq_min_iff hpow
  · rw [hearlier (Nat.le_refl _)]
    exact grown_eq_min hpow hinitial hlimit
  · rw [hearlier (k := 1) hpow, grown_eq_min hpow hinitial hlimit]
    exact congrArg (min · _) (Nat.mul_one _)
  · rw [hearlier (Nat.le_refl _)]
    exact grown_le_limit ..
  · have hle : m ^ (k.toNat - 1) ≤ m ^ (n.toNat - 1) :=
      Nat.pow_le_pow_right hm (Nat.sub_le_sub_right (UInt32.le_iff_toNat_le.mp hk) 1)
    rw [hearlier hle, hearlier (Nat.le_refl _)]
    exact grown_mono hle ..

/-- From 50 milliseconds a delay has doubled twice after the third attempt. -/
theorem growth_by_whole_multiplier_standard :
    (standard.afterAttempt 3).nanos = 200000000 ∧
      (standard.afterAttempt 2).nanos ≤ (standard.afterAttempt 3).nanos := by
  have htwo : (Binary.ofNat .double 2).Denotes 2 := denotes_ofNat (by decide)
  have hexact : Exact (.ofMillis 50) (2 ^ ((3 : UInt32).toNat - 1)) (.ofMillis 5000) :=
    by decide
  obtain ⟨-, hwhole, -, hgrows⟩ := growth_by_whole_multiplier htwo (by decide) hexact
  exact ⟨(hwhole (by decide) (by decide)).1, hgrows 2 (by decide)⟩

/-- Half a millisecond is to be doubled after every attempt, and there is never any delay. -/
theorem half_a_millisecond_never_grows :
    let initial := Duration.ofMicros 500
    let limit := Duration.ofMillis 1000
    (Binary.ofNat .double 2).Denotes 2 ∧
      ∀ n ∈ [1, 2, 3, 5], Exact initial (2 ^ (n - 1)) limit ∧
        min (initial.nanos * 2 ^ (n - 1)) limit.nanos = 500000 * 2 ^ (n - 1) ∧
        (exponential initial (.ofNat .double 2) limit).afterAttempt (.ofNat n) = .zero := by
  decide +kernel

end Switchboard.Retry.Delay
