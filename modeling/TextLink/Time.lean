/-!
# Lengths of time and moments

A `Duration` counts nanoseconds and is bounded: it is below `2 ^ 64` seconds, and arithmetic that
would leave the range stops at its end (`Duration.ofNanos`). An `Instant` is a moment, reckoned from
the start of the clock. The clock itself counts nanoseconds in 64 bits and begins again when these
run out (`Instant.elapse`); a wait is taken not to last so long. Deadlines reach much further, up to
just below `2 ^ 63` seconds; there is none beyond (`Instant.deadline?`).

Both carry the order of their nanoseconds, so comparisons between them are comparisons of natural
numbers.

## Main results

* `Duration.nanos_mulSaturating`, `Duration.nanos_min`: what the operations do to the nanoseconds.
* `Duration.le_toMillisCeil`, `Duration.toMillisCeil_lt`: a whole number of milliseconds is never
  shorter than the duration it stands for, and less than a millisecond longer.
* `Instant.deadline?_eq_some_iff`: when there is a deadline, and which one.
* `Instant.thrice_elapse_le`: what a clock shows is far from the last deadline.
-/

namespace TextLink

/-- Nanoseconds in a second. -/
def nanosPerSecond : Nat := 1000000000

/-- Nanoseconds in a millisecond. -/
def nanosPerMilli : Nat := 1000000

/-! ## Durations -/

/-- The number of nanoseconds just below `2 ^ 64` seconds. -/
def maxNanos : Nat := 1 <<< 64 * nanosPerSecond - 1

/-- A length of time. -/
structure Duration where
  nanos : Nat
  nanos_le : nanos ≤ maxNanos
deriving DecidableEq

namespace Duration

@[ext] theorem ext {a b : Duration} (h : a.nanos = b.nanos) : a = b := by
  cases a; cases b; simp_all

/-- `n` nanoseconds, or the longest duration if that is shorter. -/
def ofNanos (n : Nat) : Duration := ⟨min n maxNanos, Nat.min_le_right ..⟩

/-- `n` milliseconds. -/
def ofMillis (n : Nat) : Duration := ofNanos (n * nanosPerMilli)

/-- `n` seconds. -/
def ofSeconds (n : Nat) : Duration := ofNanos (n * nanosPerSecond)

/-- No time at all. -/
def zero : Duration := ofNanos 0

/-- The longest duration. -/
def longest : Duration := ofNanos maxNanos

instance : Inhabited Duration := ⟨zero⟩

instance : LE Duration := ⟨fun a b => a.nanos ≤ b.nanos⟩
instance : LT Duration := ⟨fun a b => a.nanos < b.nanos⟩

instance (a b : Duration) : Decidable (a ≤ b) := inferInstanceAs (Decidable (a.nanos ≤ b.nanos))
instance (a b : Duration) : Decidable (a < b) := inferInstanceAs (Decidable (a.nanos < b.nanos))

theorem le_iff {a b : Duration} : a ≤ b ↔ a.nanos ≤ b.nanos := Iff.rfl

theorem lt_iff {a b : Duration} : a < b ↔ a.nanos < b.nanos := Iff.rfl

/-- The shorter of two durations. -/
instance : Min Duration := ⟨fun a b => if a ≤ b then a else b⟩

theorem nanos_min (a b : Duration) : (min a b).nanos = min a.nanos b.nanos := by
  show (if a ≤ b then a else b).nanos = _
  rw [Nat.min_def]
  by_cases h : a.nanos ≤ b.nanos
  · rw [if_pos (le_iff.2 h), if_pos h]
  · rw [if_neg (fun h' => h (le_iff.1 h')), if_neg h]

/-- `n` times the duration, or the longest duration if that is shorter. -/
def mulSaturating (d : Duration) (n : Nat) : Duration := ofNanos (d.nanos * n)

theorem nanos_mulSaturating (d : Duration) (n : Nat) :
    (d.mulSaturating n).nanos = min (d.nanos * n) maxNanos := rfl

/-- Whole seconds of the duration. -/
def wholeSeconds (d : Duration) : Nat := d.nanos / nanosPerSecond

/-- Nanoseconds beyond the whole seconds. -/
def subsecNanos (d : Duration) : Nat := d.nanos % nanosPerSecond

/-- The fewest whole milliseconds that are not shorter than the duration. -/
def toMillisCeil (d : Duration) : Nat := (d.nanos + (nanosPerMilli - 1)) / nanosPerMilli

theorem le_toMillisCeil (d : Duration) : d.nanos ≤ d.toMillisCeil * nanosPerMilli := by
  simp only [toMillisCeil, nanosPerMilli]; omega

theorem toMillisCeil_lt (d : Duration) :
    d.toMillisCeil * nanosPerMilli < d.nanos + nanosPerMilli := by
  simp only [toMillisCeil, nanosPerMilli]; omega

end Duration

/-! ## Moments -/

/-- A moment, counted in nanoseconds from the start of the clock. -/
structure Instant where
  nanos : Nat
deriving DecidableEq, Inhabited

namespace Instant

/-- The start of the clock. -/
def start : Instant := ⟨0⟩

instance : LE Instant := ⟨fun a b => a.nanos ≤ b.nanos⟩
instance : LT Instant := ⟨fun a b => a.nanos < b.nanos⟩

instance (a b : Instant) : Decidable (a ≤ b) := inferInstanceAs (Decidable (a.nanos ≤ b.nanos))
instance (a b : Instant) : Decidable (a < b) := inferInstanceAs (Decidable (a.nanos < b.nanos))

theorem le_iff {a b : Instant} : a ≤ b ↔ a.nanos ≤ b.nanos := Iff.rfl

theorem lt_iff {a b : Instant} : a < b ↔ a.nanos < b.nanos := Iff.rfl

/-- The moment `d` after `t`. -/
def after (t : Instant) (d : Duration) : Instant := ⟨t.nanos + d.nanos⟩

/-- The last moment that can be a deadline. -/
def lastDeadline : Instant := ⟨1 <<< 63 * nanosPerSecond - 1⟩

/-- The moment `d` after `t` as a deadline, if it can be one. -/
def deadline? (t : Instant) (d : Duration) : Option Instant :=
  if t.after d ≤ lastDeadline then some (t.after d) else none

theorem deadline?_eq_some_iff {t u : Instant} {d : Duration} :
    t.deadline? d = some u ↔ u = t.after d ∧ u ≤ lastDeadline := by
  unfold deadline?
  constructor
  · intro h
    split at h
    · next hle =>
      obtain rfl := Option.some.inj h
      exact ⟨rfl, hle⟩
    · simp at h
  · rintro ⟨rfl, hle⟩
    rw [if_pos hle]

/-- How many nanoseconds a clock counts before it begins again. -/
def clockRange : Nat := 1 <<< 64

/-- What a clock that shows `t` shows when `d` has passed. -/
def elapse (t : Instant) (d : Duration) : Instant := ⟨(t.nanos + d.nanos) % clockRange⟩

theorem thrice_elapse_le (t : Instant) (d : Duration) :
    3 * (t.elapse d).nanos ≤ lastDeadline.nanos := by
  have hlt : (t.elapse d).nanos < clockRange := Nat.mod_lt _ (by decide)
  have hrange : 3 * clockRange ≤ lastDeadline.nanos := by decide
  omega

/-- The moment `n` milliseconds after `t`. -/
def afterMillis (t : Instant) (n : Nat) : Instant := ⟨t.nanos + n * nanosPerMilli⟩

/-- How much later `t` is than `earlier`: no time if it is not later. -/
def since (t earlier : Instant) : Duration := .ofNanos (t.nanos - earlier.nanos)

theorem nanos_since_le (t earlier : Instant) : (t.since earlier).nanos ≤ t.nanos - earlier.nanos :=
  Nat.min_le_left ..

/-- Whole seconds since the start of the clock. -/
def wholeSeconds (t : Instant) : Nat := t.nanos / nanosPerSecond

/-- Nanoseconds beyond the whole seconds. -/
def subsecNanos (t : Instant) : Nat := t.nanos % nanosPerSecond

end Instant

end TextLink
