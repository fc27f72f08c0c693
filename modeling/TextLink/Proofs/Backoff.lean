import TextLink.Connection
import Mathlib.Algebra.Group.Nat.Defs

/-!
# How long a connection waits between attempts

A policy says that the wait doubles with every failed attempt, up to `maxBackoff`
(`ConnectPolicy.doubled`). The wait that is taken, `ConnectPolicy.backoff`, is reckoned with a
factor that fits 32 bits, so it doubles no more than `maxDoublings` times. This shows if
`maxBackoff` is longer than `2 ^ 31` times the first wait, and then `maxBackoff` is never reached.

## Main results

* `ConnectPolicy.nanos_backoff_eq_doubled_iff` — when the wait is the one the policy says.
* `ConnectPolicy.nanos_backoff_mono`, `ConnectPolicy.nanos_backoff_succ_le` — waits never get
  shorter, and at most twice as long.
* `ConnectPolicy.exists_backoff_eq_maxBackoff_iff` — when the longest wait is reached for good.
* `ConnectPolicy.backoff_doubles` — all of this in one statement.
-/

namespace TextLink

namespace ConnectPolicy

variable {p : ConnectPolicy} {m n : Nat}

/-- The wait after `failed` failed attempts, in nanoseconds, if it doubles each time. -/
def doubled (p : ConnectPolicy) (failed : Nat) : Nat :=
  min (p.initialBackoff.nanos * 2 ^ (failed - 1)) p.maxBackoff.nanos

/-- The longest wait that doubling the first one comes to, in nanoseconds. -/
def furthest (p : ConnectPolicy) : Nat := p.initialBackoff.nanos * 2 ^ maxDoublings

/-! ## The factor -/

/-- By how much the first wait is multiplied. -/
theorem factor_eq (n : Nat) : 1 <<< min (n - 1) maxDoublings = 2 ^ min (n - 1) maxDoublings :=
  Nat.one_shiftLeft _

theorem factor_lt (n : Nat) : 1 <<< min (n - 1) maxDoublings < 2 ^ 32 := by
  rw [factor_eq]
  have hmost : min (n - 1) maxDoublings < 32 := Nat.lt_succ_of_le (Nat.min_le_right ..)
  exact Nat.pow_lt_pow_right (by decide) hmost

theorem factor_mono (h : m ≤ n) : 2 ^ min (m - 1) maxDoublings ≤ 2 ^ min (n - 1) maxDoublings := by
  have hless : min (m - 1) maxDoublings ≤ min (n - 1) maxDoublings := by omega
  exact Nat.pow_le_pow_right (by decide) hless

/-! ## The wait -/

theorem nanos_backoff_eq (hn : n ≠ 0) : (p.backoff n).nanos =
    min (p.initialBackoff.nanos * 2 ^ min (n - 1) maxDoublings) p.maxBackoff.nanos := by
  rw [p.nanos_backoff hn, factor_eq]

/-- As long as the factor fits, the wait is the one that doubles each time. -/
theorem nanos_backoff_of_le (hn : n ≠ 0) (hle : n ≤ 32) : (p.backoff n).nanos = p.doubled n := by
  have hexponent : min (n - 1) maxDoublings = n - 1 := by
    unfold maxDoublings
    omega
  rw [nanos_backoff_eq hn, hexponent, doubled]

/-- From then on it stays as it is. -/
theorem nanos_backoff_of_ge (h : 32 ≤ n) :
    (p.backoff n).nanos = min p.furthest p.maxBackoff.nanos := by
  have hexponent : min (n - 1) maxDoublings = maxDoublings := by
    unfold maxDoublings
    omega
  rw [nanos_backoff_eq (by omega), hexponent, furthest]

/-- Beyond the factor's range, doubling once more would at least double the furthest wait. -/
theorem twice_furthest_le (h : 32 < n) :
    2 * p.furthest ≤ p.initialBackoff.nanos * 2 ^ (n - 1) := by
  have hpower : 2 ^ (maxDoublings + 1) ≤ 2 ^ (n - 1) :=
    Nat.pow_le_pow_right (by decide) (by unfold maxDoublings; omega)
  calc 2 * p.furthest = p.initialBackoff.nanos * 2 ^ (maxDoublings + 1) := by
        rw [furthest, Nat.pow_succ, Nat.mul_comm 2, Nat.mul_assoc]
    _ ≤ p.initialBackoff.nanos * 2 ^ (n - 1) := Nat.mul_le_mul_left _ hpower

theorem furthest_eq_zero_iff : p.furthest = 0 ↔ p.initialBackoff.nanos = 0 := by
  unfold furthest maxDoublings
  omega

/-- The wait is the one that doubles each time, unless the factor is out of its range and the
longest wait is still further off. -/
theorem nanos_backoff_eq_doubled_iff (hn : n ≠ 0) : (p.backoff n).nanos = p.doubled n ↔
    n ≤ 32 ∨ p.maxBackoff.nanos ≤ p.furthest ∨ p.initialBackoff.nanos = 0 := by
  by_cases hle : n ≤ 32
  · simp [hle, nanos_backoff_of_le hn hle]
  · have hlate : 32 < n := by omega
    have hfar := twice_furthest_le (p := p) hlate
    have hzero := furthest_eq_zero_iff (p := p)
    rw [nanos_backoff_of_ge (Nat.le_of_lt hlate), doubled]
    constructor
    · intro heq
      by_cases hmost : p.maxBackoff.nanos ≤ p.furthest
      · exact .inr (.inl hmost)
      · have hnone : p.furthest = 0 := by omega
        exact .inr (.inr (hzero.1 hnone))
    · rintro (hle' | hmost | hnone)
      · exact absurd hle' hle
      · omega
      · rw [furthest, hnone]
        simp

theorem nanos_backoff_mono (h : m ≤ n) : (p.backoff m).nanos ≤ (p.backoff n).nanos := by
  by_cases hm : m = 0
  · subst hm
    exact Nat.zero_le _
  · rw [nanos_backoff_eq hm, nanos_backoff_eq (by omega)]
    have hproduct := Nat.mul_le_mul_left p.initialBackoff.nanos (factor_mono h)
    omega

/-- A wait is at most twice as long as the one before. -/
theorem nanos_backoff_succ_le (hn : n ≠ 0) :
    (p.backoff (n + 1)).nanos ≤ 2 * (p.backoff n).nanos := by
  have hexponent : min (n + 1 - 1) maxDoublings ≤ min (n - 1) maxDoublings + 1 := by omega
  have hfactor : 2 ^ min (n + 1 - 1) maxDoublings ≤ 2 ^ min (n - 1) maxDoublings * 2 :=
    Nat.pow_le_pow_right (by decide) hexponent
  have hproduct := Nat.mul_le_mul_left p.initialBackoff.nanos hfactor
  rw [← Nat.mul_assoc] at hproduct
  rw [nanos_backoff_eq hn, nanos_backoff_eq (n := n + 1) (Nat.succ_ne_zero n)]
  omega

/-- The longest wait is reached for good just when doubling the first one gets there, and then
within the range of the factor. -/
theorem exists_backoff_eq_maxBackoff_iff {bound : Nat} (hbound : 32 ≤ bound) :
    (∃ k ≤ bound, ∀ n, k ≤ n → p.backoff n = p.maxBackoff) ↔ p.maxBackoff.nanos ≤ p.furthest := by
  constructor
  · rintro ⟨k, hk, hall⟩
    have hlast := congrArg Duration.nanos (hall bound hk)
    rw [nanos_backoff_of_ge hbound] at hlast
    omega
  · intro hmost
    refine ⟨32, hbound, fun n hn => Duration.ext ?_⟩
    rw [nanos_backoff_of_ge hn]
    omega

/-! ## The rule -/

/-- **The wait after failed attempts.** For every policy and any number of failed attempts but none,
the factor fits 32 bits and the wait is the one that doubles each time and is cut at `maxBackoff`,
unless more than 32 attempts have failed and `maxBackoff` is out of reach of the factor; then it is
the furthest the factor reaches. In any case waits never get shorter, and from 32 failed attempts on
they stay the same, which is `maxBackoff` if it is within reach. -/
theorem backoff_doubles (p : ConnectPolicy) :
    (∀ n, n ≠ 0 → 1 <<< min (n - 1) maxDoublings < 2 ^ 32 ∧
      ((p.backoff n).nanos = p.doubled n ↔
        n ≤ 32 ∨ p.maxBackoff.nanos ≤ p.furthest ∨ p.initialBackoff.nanos = 0) ∧
      (32 ≤ n → (p.backoff n).nanos = min p.furthest p.maxBackoff.nanos)) ∧
    (∀ m n, m ≤ n → p.backoff m ≤ p.backoff n) ∧
    ((∃ k ≤ maxAttemptCount, ∀ n, k ≤ n → p.backoff n = p.maxBackoff) ↔
      p.maxBackoff.nanos ≤ p.furthest) := by
  refine ⟨?_, ?_, ?_⟩
  · intro n hn
    exact ⟨factor_lt n, nanos_backoff_eq_doubled_iff hn, nanos_backoff_of_ge⟩
  · intro m n hmn
    exact Duration.le_iff.2 (nanos_backoff_mono hmn)
  · exact exists_backoff_eq_maxBackoff_iff (by decide)

theorem backoff_doubles_of_default :
    let p : ConnectPolicy := {}
    (p.backoff 7).nanos = p.doubled 7 ∧
      ∃ k ≤ maxAttemptCount, ∀ n, k ≤ n → p.backoff n = .ofSeconds 5 := by
  intro p
  have hrule := backoff_doubles p
  have hwait := (hrule.1 7 (by decide)).2.1
  exact ⟨hwait.2 (.inl (by decide)), hrule.2.2.2 (by decide +kernel)⟩

/-- A first wait of a nanosecond never gets to five seconds, however often it doubles. -/
theorem backoff_stops_doubling :
    let p : ConnectPolicy := { initialBackoff := .ofNanos 1, maxBackoff := .ofSeconds 5 }
    (p.backoff 33).nanos = 2147483648 ∧ p.doubled 33 = 4294967296 ∧
      ∀ n, 32 ≤ n → p.backoff n ≠ p.maxBackoff := by
  intro p
  refine ⟨by decide +kernel, by decide +kernel, fun n hn heq => ?_⟩
  have hreached := congrArg Duration.nanos heq
  rw [nanos_backoff_of_ge hn] at hreached
  revert hreached
  decide +kernel

end ConnectPolicy

end TextLink
