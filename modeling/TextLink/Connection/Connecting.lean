import TextLink.Connection

/-!
# Connecting

An attempt makes a socket and starts its connect. The connect succeeds on the spot, fails on the
spot, or goes on; then the socket is watched for becoming writable, and the pending error tells how
it ended. A hang-up of a socket that is not writable is a failure even without an error.

However an attempt fails, everything made for it is undone in one place (`Link.attemptFailed`): the
socket is given up, the queue holds messages back, and either a retry is due or the connection is
closed. A retry that would be due later than any deadline is a fault.
-/

namespace TextLink

namespace Link

/-- When the next attempt is due after a failed one, if there can be such a deadline. -/
def retryDeadline (l : Link) : Option Instant :=
  l.now.deadline? (l.conn.policy.backoff l.conn.attempts)

/-- Undoes a failed attempt, and says when the next one is due, or closes the connection if the
policy allows none. -/
def attemptFailed (l : Link) : Except Fault Progress × Link :=
  let l := l.release.suspendQueue
  if l.conn.policy.allowsRetry l.conn.attempts then
    match l.retryDeadline with
    | none => (.error .deadline, l)
    | some deadline =>
      (.ok (.retry deadline), { l with conn := { l.conn with retryAt := some deadline } })
  else
    (.ok .closed, (l.note [.gaveUpConnecting l.conn.token l.conn.attempts]).close)

/-- Puts an established connection to work: the queue writes to its socket, which is watched for
reading, and for writing if messages wait. -/
def establish (l : Link) : Except IoError Unit × Link :=
  match l.conn.socket with
  | none => (.error (.kindOnly .notConnected), l)
  | some s =>
    let held := l.queue.writer
    let l := { l with queue := l.queue.connected s }.letGo held
    match l.arm (.serving l.queue.hasPending) with
    | (.ok (), l) => (.ok (), l.setState .connected)
    | (.error e, l) => (.error e, l)

/-- What an attempt comes to after its last call. -/
def concludeAttempt : Except IoError Unit × Link → Except Fault Progress × Link
  | (.ok (), l) => (.ok .ongoing, l)
  | (.error _, l) => l.attemptFailed

/-- Counts an attempt and enters the connecting state. -/
def beginAttempt (l : Link) : Link :=
  let attempts := min (l.conn.attempts + 1) maxAttemptCount
  let conn := { l.conn with retryAt := none, attempts }
  { l with conn }.suspendQueue.setState .connecting

/-- Takes over a new socket in place of the one held so far. -/
def adopt (l : Link) (s : SocketId) : Link :=
  { l with conn := { l.conn with socket := some s } }.letGo l.conn.socket

/-- Attempts to connect. -/
def connect (l : Link) : Except Fault Progress × Link :=
  if l.conn.state = .closed then (.ok .closed, l)
  else
    let l := l.beginAttempt
    let (outcome, kernel) := l.kernel.openStream l.conn.address
    let l := { l with kernel }
    match outcome with
    | .error _ => l.attemptFailed
    | .ok (s, isUp) =>
      let l := l.adopt s
      concludeAttempt (if isUp then l.establish else l.arm .writing)

/-- How the connect of socket `s` ended, going by an event and the pending error. -/
def connectOutcome (l : Link) (s : SocketId) (event : Event) : Except IoError Unit × Link :=
  let (pending, kernel) := l.kernel.takeError s
  let outcome : Except IoError Unit :=
    match pending with
    | .error e => .error (.os e)
    | .ok (some e) => .error (.os e)
    | .ok none =>
      if event.hangup && !event.writable then .error (.kindOnly .notConnected) else .ok ()
  (outcome, { l with kernel })

/-- Handles an event while a connect is under way. Without a socket, it is left over from an earlier
one. -/
def finishConnect (l : Link) (event : Event) : Except Fault Progress × Link :=
  match l.conn.socket with
  | none => (.ok .ongoing, l)
  | some s =>
    match l.connectOutcome s event with
    | (.ok (), l) => concludeAttempt l.establish
    | (.error _, l) => l.attemptFailed

end Link

end TextLink
