import TextLink.Failure
import TextLink.Text.Utf8

/-!
# Media to write to

A `Medium` is a state that holds several destinations, each under a number, and answers attempts to
write to one of them: it accepts a front of the bytes offered, or fails. What the sending side does
is the same for the sockets of a kernel and for destinations in memory, and it is written against
this interface.

An attempt interrupted by a signal is made again at once (`Medium.writeOnce`). The medium promises
through `patience` that it cannot interrupt forever.

## Main results

* `writeOnce_not_interrupted`: the caller never sees an interruption.
-/

namespace TextLink

/-- A state whose numbered destinations can be written to. -/
class Medium (σ : Type) where
  /-- One attempt to write `bytes` to destination `w`: how many of them it accepted, or why none. -/
  write (s : σ) (w : Nat) (bytes : Bytes) : Except IoError Nat × σ
  /-- A bound on the interruptions of `w` still to come. -/
  patience (s : σ) (w : Nat) : Nat
  patience_lt (s : σ) (w : Nat) (bytes : Bytes) (e : IoError) :
    (write s w bytes).1 = .error e → e.kind = .interrupted →
      patience (write s w bytes).2 w < patience s w

namespace Medium

variable {σ : Type} [Medium σ]

/-- One attempt to write, made again as long as it is interrupted. -/
def writeOnce (s : σ) (w : Nat) (bytes : Bytes) : Except IoError Nat × σ :=
  match _h : (write s w bytes).1 with
  | .ok n => (.ok n, (write s w bytes).2)
  | .error e =>
    if _hk : e.kind = .interrupted then writeOnce (write s w bytes).2 w bytes
    else (.error e, (write s w bytes).2)
termination_by patience s w
decreasing_by exact patience_lt s w bytes e _h _hk

theorem writeOnce_not_interrupted (s : σ) (w : Nat) (bytes : Bytes) {e : IoError}
    (h : (writeOnce s w bytes).1 = .error e) : e.kind ≠ .interrupted := by
  fun_induction writeOnce s w bytes with
  | case1 s n hn => simp at h
  | case2 s e' he hk ih => exact ih h
  | case3 s e' he hk =>
    simp only [Except.error.injEq] at h
    exact h ▸ hk

end Medium

end TextLink
