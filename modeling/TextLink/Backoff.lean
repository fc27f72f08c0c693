import TextLink.Time

/-!
# Retrying a failed connect

A `ConnectPolicy` says how often a connect may be attempted and how long to wait between attempts.
The wait starts at `initialBackoff`, doubles with every failed attempt, and never exceeds
`maxBackoff`. The doubling itself stops after `maxDoublings` attempts, so that the factor stays a
32-bit number.

## Main results

* `ConnectPolicy.nanos_backoff`: the wait in nanoseconds, as one formula.
-/

namespace TextLink

/-- How a connection retries a failed connect. -/
structure ConnectPolicy where
  /-- How many connects are attempted in all; `none`: as many as it takes. -/
  maxAttempts : Option Nat := none
  /-- The wait after the first failed attempt. -/
  initialBackoff : Duration := .ofMillis 100
  /-- The longest wait. -/
  maxBackoff : Duration := .ofSeconds 5
deriving DecidableEq, Inhabited

namespace ConnectPolicy

/-- Retries forever, without a wait. -/
def immediate : ConnectPolicy where
  initialBackoff := .zero
  maxBackoff := .zero

/-- Whether a connect may follow `failed` failed attempts. -/
def allowsRetry (p : ConnectPolicy) (failed : Nat) : Bool :=
  match p.maxAttempts with
  | none => true
  | some most => failed < most

/-- How often the wait doubles at most. -/
def maxDoublings : Nat := 31

/-- The wait after `failed` failed attempts. -/
def backoff (p : ConnectPolicy) (failed : Nat) : Duration :=
  if failed = 0 then .zero
  else min (p.initialBackoff.mulSaturating (1 <<< min (failed - 1) maxDoublings)) p.maxBackoff

theorem nanos_backoff (p : ConnectPolicy) {failed : Nat} (h : failed ≠ 0) :
    (p.backoff failed).nanos =
      min (p.initialBackoff.nanos * 1 <<< min (failed - 1) maxDoublings) p.maxBackoff.nanos := by
  rw [backoff, if_neg h, Duration.nanos_min, Duration.nanos_mulSaturating]
  have := p.maxBackoff.nanos_le
  omega

end ConnectPolicy

end TextLink
