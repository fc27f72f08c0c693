import TextLink.Kernel.Outside
import TextLink.Loop

/-!
# Turning the loop, and bringing it to its end

A turn takes the commands, fires the retries that are due, waits for readiness, and dispatches the
events. A shutdown ends the turning; then the loop drains: it goes on connecting, reading and
writing until nothing waits or the grace is over, and closes every connection.

Both kinds of round have a part before the wait and a part after it, and the parts are functions of
their own (`prepareTurn`, `prepareDrain`, `conclude`). A loop that is dropped, or that meets a
fault, ends without draining; and the latest moment for a draining to end may itself be beyond every
deadline, which is a fault before the first round.

## Main results

* `ended_drop`: a dropped loop is gone.
-/

namespace TextLink

/-- What the loop asks of whoever turns it. -/
inductive Turn where
  /-- Turn again. -/
  | again
  /-- A shutdown was requested. -/
  | shutdown
  /-- The loop cannot go on. -/
  | faulted (f : Fault)
deriving DecidableEq, Repr

namespace Loop

/-! ## The parts of a round -/

/-- How long to wait at most: as configured, but not beyond the next retry. -/
def waitTimeout (l : Loop) : Duration :=
  match l.agenda.peek? with
  | none => l.config.pollTimeout
  | some first => min (first.deadline.since l.now) l.config.pollTimeout

/-- What comes before the wait of a turn: how long to wait, or `none` for a shutdown. -/
def prepareTurn (l : Loop) : Except Fault (Option Duration) × Loop :=
  match l.takeCommands with
  | (.error fault, l) => (.error fault, l)
  | (.ok true, l) => (.ok none, l)
  | (.ok false, l) =>
    match l.fireRetries with
    | (.error fault, l) => (.error fault, l)
    | (.ok (), l) => (.ok (some l.waitTimeout), l)

/-- How many connections have messages waiting. -/
def pendingOutput (l : Loop) : Nat :=
  (l.connections.values.filter fun c => (l.link c).hasPendingOutput).length

/-- Has the connection in slot `token` watched for what it needs now. -/
def rearmSlot (l : Loop) (token : Nat) : Loop :=
  match l.connections.get? token with
  | none => l
  | some c =>
    let (outcome, k) := (l.link c).rearm
    let notes := match outcome with
      | .ok () => []
      | .error _ => [LogRecord.drainNotArmed token]
    (l.absorb token k).note notes

/--
What comes before the wait of a round of draining: how long to wait, or `none` when it is over.

Requests to flush are no longer taken, so every connection is rearmed.
-/
def prepareDrain (l : Loop) (deadline : Instant) : Except Fault (Option Duration) × Loop :=
  let pending := l.pendingOutput
  if pending = 0 then (.ok none, l)
  else if deadline ≤ l.now then (.ok none, l.note [.graceExpired pending])
  else
    match (l.connections.keys.foldl rearmSlot l).fireRetries with
    | (.error fault, l) => (.error fault, l)
    | (.ok (), l) => (.ok (some (min l.waitTimeout (deadline.since l.now))), l)

/-- What comes after the wait: dispatching its events. -/
def conclude (l : Loop) (outcome : Except Errno (List Event)) : Except Fault Unit × Loop :=
  match outcome with
  | .ok events => l.dispatch events
  | .error _ => (.ok (), l.note [.pollFailed])

/-- Waits, and dispatches the events. -/
def waitAndDispatch (l : Loop) (timeout : Duration) : Except Fault Unit × Loop :=
  let (outcome, kernel) := l.kernel.poll (some timeout) l.config.capacity
  { l with kernel }.conclude outcome

/-- One turn. -/
def turn (l : Loop) : Turn × Loop :=
  match l.prepareTurn with
  | (.error fault, l) => (.faulted fault, l)
  | (.ok none, l) => (.shutdown, l)
  | (.ok (some timeout), l) =>
    match l.waitAndDispatch timeout with
    | (.ok (), l) => (.again, l)
    | (.error fault, l) => (.faulted fault, l)

/-! ## Ending -/

/-- Takes the connection out of slot `token`, and closes it. -/
def closeSlot (l : Loop) (token : Nat) : Loop :=
  match l.connections.get? token with
  | none => l
  | some c =>
    { l with connections := (l.connections.remove token).2 }.absorb token (l.link c).close

/-- Closes the queue of a connection whose request was never taken. -/
def refuse (l : Loop) : Command → Loop
  | .connect id .. => { l with queues := l.queues.modify id fun q => q.close.2 }
  | _ => l

/-- Closes every connection, and the queues of those still requested in the channel. -/
def closeAll (l : Loop) : Loop :=
  let l := l.connections.keys.foldl closeSlot l
  let l := l.channel.foldl refuse { l with agenda := .empty }
  { l with channel := [] }

/-- The loop is gone, and its channel with it. -/
def finish (l : Loop) : Loop := { l with channel := [], ended := true }

/-- Drops the loop. Only a loop with connections has something to close. -/
def drop (l : Loop) : Loop :=
  (if l.connections.isEmpty then l else l.closeAll).finish

theorem ended_drop (l : Loop) : l.drop.ended = true := rfl

/-- When a draining that begins now is over at the latest, if there can be such a deadline. -/
def drainDeadline (l : Loop) : Option Instant := l.now.deadline? l.config.shutdownGrace

/-! ## Draining and running -/

/-- A bound on the waits that end before their timeout, if nothing new happens outside. -/
def prospects (l : Loop) : Nat :=
  let waiting := l.queues.foldr
    (fun q others => q.pending.flatten.length + q.pending.length + 1 + others) 0
  l.kernel.prospects + 8 * l.channel.length + waiting + 8

/-- A bound on the rounds until `deadline`. -/
def roundsUntil (l : Loop) (deadline : Instant) : Nat :=
  (deadline.since l.now).toMillisCeil + l.prospects

/-- Drains until nothing waits or `deadline` is reached, for at most `rounds` rounds. -/
def drainWithin (deadline : Instant) : Nat → Loop → Option (Except Fault Unit × Loop)
  | 0, _ => none
  | rounds + 1, l =>
    match l.prepareDrain deadline with
    | (.error fault, l) => some (.error fault, l)
    | (.ok none, l) => some (.ok (), l)
    | (.ok (some timeout), l) =>
      match l.waitAndDispatch timeout with
      | (.ok (), l) => drainWithin deadline rounds l
      | (.error fault, l) => some (.error fault, l)

/-- Drains; `none` if it goes on forever. -/
def drain (l : Loop) : Option (Except Fault Unit × Loop) :=
  match l.drainDeadline with
  | none => some (.error .deadline, l)
  | some deadline => drainWithin deadline (l.roundsUntil deadline) l

/-- Drains, closes every connection, and is gone. -/
def shutDown (l : Loop) : Option (Except Fault Unit × Loop) :=
  match l.drain with
  | none => none
  | some (.ok (), l) => some (.ok (), l.closeAll.finish)
  | some (.error fault, l) => some (.error fault, l.drop)

/--
Runs the loop to its end, and tells which fault it met, if any.

It turns until it is shut down or meets a fault. Nobody sends commands while it runs, so it may turn
forever, and then there is no result.
-/
def run (l : Loop) : Option (Except Fault Unit × Loop) :=
  match l.turn with
  | (.again, l) => by
    -- A call made by `apply` is not marked with its place in the file.
    apply run
    exact l
  | (.faulted fault, l) => some (.error fault, l.drop)
  | (.shutdown, l) => l.shutDown
partial_fixpoint

end Loop

end TextLink
