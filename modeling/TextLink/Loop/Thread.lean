import TextLink.Loop.Requests

/-!
# A loop on a thread of its own

While a loop runs on its own thread, producers act and the outside world moves whenever the loop is
held up in a wait. A `Thread` is a loop together with what its thread is doing: running through a
round, waiting since some moment, or ended.

`step` is one move of the thread, and `settle` makes moves until none is left: the thread is then in
a wait with nothing to report, or has ended. Whether a wait with nothing to report moves the clock
to its own end is for the caller to say (`free`); otherwise it waits for the clock to be moved
there.

## Main results

* `step_of_ended`: an ended thread does not move.
-/

namespace TextLink

/-- What kind of rounds a thread is going through. -/
inductive Stage where
  | turning
  | draining (deadline : Instant)
deriving DecidableEq

/-- What a thread is doing. -/
inductive Activity where
  /-- It begins a round. -/
  | running (stage : Stage)
  /-- It is in a wait of so many milliseconds, begun at `since`. -/
  | waiting (stage : Stage) (since : Instant) (millis : Nat)
  /-- It has ended, by a fault or in due course. -/
  | ended (faulted : Bool)
deriving DecidableEq

/-- A loop, and what its thread is doing. -/
structure Thread where
  loop : Loop
  activity : Activity := .running .turning

namespace Thread

/-- A fault ends the thread, and the loop is dropped. -/
def fail (loop : Loop) : Thread := { loop := loop.drop, activity := .ended true }

/-- After a wait: events are dispatched, and the next round begins. -/
def leaveWait (loop : Loop) (stage : Stage) (outcome : Except Errno (List Report)) : Thread :=
  let (outcome, kernel) := loop.kernel.collect outcome
  match { loop with kernel }.conclude outcome with
  | (.ok (), loop) => { loop, activity := .running stage }
  | (.error _, loop) => fail loop

/-- Begins a wait. -/
def enterWait (loop : Loop) (stage : Stage) (timeout : Duration) : Thread :=
  let millis := timeoutMillis timeout
  match loop.kernel.beginWait (some millis) with
  | (.ok, kernel) => { loop := { loop with kernel }, activity := .waiting stage loop.now millis }
  | (.fails e, kernel) => leaveWait { loop with kernel } stage (.error e)

/-- Goes through the part of a round before its wait. -/
def begin (loop : Loop) : Stage → Thread
  | .turning =>
    match loop.prepareTurn with
    | (.error _, loop) => fail loop
    | (.ok none, loop) =>
      match loop.drainDeadline with
      | none => fail loop
      | some deadline => { loop, activity := .running (.draining deadline) }
    | (.ok (some timeout), loop) => enterWait loop .turning timeout
  | .draining deadline =>
    match loop.prepareDrain deadline with
    | (.error _, loop) => fail loop
    | (.ok none, loop) => { loop := loop.closeAll.finish, activity := .ended false }
    | (.ok (some timeout), loop) => enterWait loop (.draining deadline) timeout

/-- Ends a wait with `reports`. -/
def answer (loop : Loop) (stage : Stage) (millis : Nat) (reports : List Report) : Thread :=
  leaveWait { loop with kernel := loop.kernel.answerWait (some millis) reports } stage (.ok reports)

/-- Ends a wait if there is something to report or its time is over; `none` if it is held up. -/
def resume (free : Bool) (loop : Loop) (stage : Stage) (since : Instant) (millis : Nat) :
    Option Thread :=
  match loop.kernel.pendingReports loop.config.capacity with
  | [] =>
    let ending := waitEnd since millis
    if ending ≤ loop.now then some (answer loop stage millis [])
    else if free then
      some (answer { loop with kernel := { loop.kernel with clock := ending } } stage millis [])
    else none
  | reports => some (answer loop stage millis reports)

/-- One move of the thread; `none` if it is held up or has ended. -/
def step (free : Bool) (t : Thread) : Option Thread :=
  match t.activity with
  | .running stage => some (begin t.loop stage)
  | .waiting stage since millis => resume free t.loop stage since millis
  | .ended _ => none

theorem step_of_ended (free : Bool) {t : Thread} {faulted : Bool}
    (h : t.activity = .ended faulted) : t.step free = none := by
  simp [step, h]

/-- At most `moves` moves. -/
def settleWithin (free : Bool) : Nat → Thread → Thread
  | 0, t => t
  | moves + 1, t =>
    match t.step free with
    | none => t
    | some t => settleWithin free moves t

/-- Moves until the thread is held up or has ended. -/
def settle (free : Bool) (t : Thread) : Thread :=
  let rounds := t.loop.config.shutdownGrace.toMillisCeil + t.loop.prospects
  settleWithin free (2 * rounds) t

end Thread

end TextLink
