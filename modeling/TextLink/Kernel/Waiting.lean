import TextLink.Kernel.Calls

/-!
# Waiting for readiness

A wait reports, in this order, the waker if it was signalled, every registration that is ready, and
the events injected from outside, cut to as many as the caller takes. With nothing to report it
lasts its timeout, and at least a millisecond; the clock moves on by as much.

Readiness is a level: it is reported by every wait as long as it lasts. The waker is read when it is
reported, and an injected event is reported once.

The steps of a wait are separate functions, since a wait that has begun may be held up until
something happens: `beginWait`, then `answerWait` with `pendingReports` or with none, then
`collect`. `wait` does all of it at once.

## Main results

* `timeoutMillis_lt`: a timeout always fits a signed 32-bit number.
-/

namespace TextLink

/-- A readiness event, as the loop sees it. -/
structure Event where
  /-- The token of the registration. -/
  token : Nat
  /-- There is something to receive, or the peer hung up. -/
  readable : Bool
  /-- More can be sent; while a connect is under way: it has ended. -/
  writable : Bool
  /-- The peer hung up, or the socket failed. -/
  hangup : Bool
deriving DecidableEq, Repr, Inhabited

namespace Report

/-- The token under which an event is reported. -/
def token (r : Report) : Nat :=
  match r.source with
  | .waker => wakerToken
  | .socket _ t => t
  | .injected t => t

/-- The event as the loop sees it; the waker's is none. -/
def event? (r : Report) : Option Event :=
  if r.token = wakerToken then none
  else
    let hangup := r.flags.error || r.flags.hangup || r.flags.readHangup
    some
      { token := r.token, readable := hangup || r.flags.input, writable := r.flags.output, hangup }

/-- Whether the event was injected. -/
def isInjected (r : Report) : Bool :=
  match r.source with
  | .injected _ => true
  | _ => false

end Report

/-- The longest timeout in milliseconds. -/
def maxTimeoutMillis : Nat := 2147483647

/-- A timeout in whole milliseconds, rounded up. -/
def timeoutMillis (timeout : Duration) : Nat := min timeout.toMillisCeil maxTimeoutMillis

theorem timeoutMillis_lt (timeout : Duration) : timeoutMillis timeout < 1 <<< 31 := by
  simp only [timeoutMillis, maxTimeoutMillis]
  omega

/-- When a wait that began at `t` ends by itself. -/
def waitEnd (t : Instant) (millis : Nat) : Instant := t.afterMillis (max 1 millis)

namespace Kernel

/-- The registrations that are ready, in the order they were added. -/
def readyReports (k : Kernel) : List Report :=
  k.registrations.filterMap fun r => do
    let s ← k.holder? r.descriptor
    let sock ← k.sockets[s]?
    let flags := sock.readiness.through (.ofInterest r.interest)
    if flags.any then some ⟨.socket s r.token, flags⟩ else none

/-- What a wait of a caller that takes at most `capacity` events would report. -/
def pendingReports (k : Kernel) (capacity : Nat) : List Report :=
  let woken : List Report := if k.signalled then [⟨.waker, {}⟩] else []
  let injected := k.injections.map fun i => Report.mk (.injected i.token) i.flags
  (woken ++ k.readyReports ++ injected).take capacity

/-- Begins a wait, which may fail on the spot. -/
def beginWait (k : Kernel) (millis : Option Nat) : Verdict × Kernel :=
  match k.takeVerdict .epollWait with
  | (.ok, k) => (.ok, k)
  | (.fails e, k) => (.fails e, k.record (.wait millis (.error e)))

/-- Ends a wait with `reports`. -/
def answerWait (k : Kernel) (millis : Option Nat) (reports : List Report) : Kernel :=
  let k := k.record (.wait millis (.ok reports))
  { k with injections := k.injections.drop (reports.filter Report.isInjected).length }

/-- Moves the clock to where a wait that begins now ends by itself. -/
def passTimeout (k : Kernel) (millis : Option Nat) : Kernel :=
  match millis with
  | none => k
  | some n => { k with clock := waitEnd k.clock n }

/-- Waits for readiness. -/
def wait (k : Kernel) (millis : Option Nat) (capacity : Nat) :
    Except Errno (List Report) × Kernel :=
  match k.beginWait millis with
  | (.fails e, k) => (.error e, k)
  | (.ok, k) =>
    match k.pendingReports capacity with
    | [] => (.ok [], (k.passTimeout millis).answerWait millis [])
    | reports => (.ok reports, k.answerWait millis reports)

/-- Turns the outcome of a wait into events, and reads the waker if it was reported. An interrupted
wait gave no events. -/
def collect (k : Kernel) (outcome : Except Errno (List Report)) :
    Except Errno (List Event) × Kernel :=
  match outcome with
  | .error .interrupted => (.ok [], k)
  | .error e => (.error e, k)
  | .ok reports =>
    let woken := reports.any fun r => r.token == wakerToken
    (.ok (reports.filterMap Report.event?), { k with signalled := k.signalled && !woken })

/-- Waits, without end if there is no timeout, and turns what was reported into events. -/
def poll (k : Kernel) (timeout : Option Duration) (capacity : Nat) :
    Except Errno (List Event) × Kernel :=
  let (outcome, k) := k.wait (timeout.map timeoutMillis) capacity
  k.collect outcome

end Kernel

end TextLink
