/-!
# Durations

Spans of time in nanoseconds, and their text in the largest unit that is not a fraction of one.

## Main definitions

- `Duration` — a span of time
- `Duration.ofMillis`, `Duration.ofMicros` — spans by whole units
- `Duration.millis`, `Duration.millisUp` — whole milliseconds, rounded down or up
- `Duration.inspect` — the text of a span
-/

namespace Switchboard

/-- A span of time. -/
structure Duration where
  nanos : Nat
  deriving Repr, DecidableEq, Inhabited

namespace Duration

/-- No time at all. -/
def zero : Duration := ⟨0⟩

/-- So many microseconds. -/
def ofMicros (n : Nat) : Duration := ⟨n * 1000⟩

/-- So many milliseconds. -/
def ofMillis (n : Nat) : Duration := ⟨n * 1000000⟩

/-- So many seconds. -/
def ofSeconds (n : Nat) : Duration := ⟨n * 1000000000⟩

/-- Whole milliseconds, a fraction left out. -/
def millis (d : Duration) : Nat := d.nanos / 1000000

/-- Whole microseconds, a fraction left out. -/
def micros (d : Duration) : Nat := d.nanos / 1000

/-- Whole milliseconds, a fraction counted as one: how long a wait takes on a clock of
milliseconds. -/
def millisUp (d : Duration) : Nat := (d.nanos + 999999) / 1000000

/-- Waiting until the time has passed takes whole milliseconds. -/
theorem add_millisUp_le_iff {d : Duration} {m n : Nat} :
    m + d.millisUp ≤ n ↔ m * 1000000 + d.nanos ≤ n * 1000000 := by
  unfold millisUp
  omega

theorem millisUp_eq_zero_iff {d : Duration} : d.millisUp = 0 ↔ d = .zero := by
  obtain ⟨nanos⟩ := d
  simp only [millisUp, zero, mk.injEq]
  omega

/-- `n / unit` in decimal, `unit` being `10 ^ places`, without trailing zeros. -/
def quotientText (n unit places : Nat) : String :=
  let digits := toString (n % unit)
  let padded := List.replicate (places - digits.length) '0' ++ digits.toList
  let fraction := (padded.reverse.dropWhile (· == '0')).reverse
  toString (n / unit) ++ if fraction.isEmpty then "" else "." ++ String.ofList fraction

/-- The text of a span, in seconds, milliseconds, microseconds or nanoseconds. -/
def inspect (d : Duration) : String :=
  let n := d.nanos
  if 1000000000 ≤ n then quotientText n 1000000000 9 ++ "s"
  else if 1000000 ≤ n then quotientText n 1000000 6 ++ "ms"
  else if 1000 ≤ n then quotientText n 1000 3 ++ "µs"
  else toString n ++ "ns"

end Duration

end Switchboard
