import TextLink.Error
import TextLink.Lifecycle
import TextLink.Medium

/-!
# The messages waiting for one connection

A `SendQueue` is where a connection's producers and the loop meet. Producers `push` messages; the
loop attaches a writer when the connection is established, takes it away when it is lost, and
`flush`es what waits.

Messages leave in the order they came, and their bytes never interleave. A message is tried on the
wire the moment it is pushed if nothing waits before it; whatever the wire does not take waits at
the head of the queue, and `headSent` counts what is out of it. Bytes on the wire are never sent
again: when a write fails, or the connection is lost, a message that is partly out is given up,
while one that is not is kept.

## Main results

* `push_of_refusal`: a refused message changes nothing and writes nothing.
* `state_connecting`: connecting takes the writer away, unless the queue is closed.
* `flush_of_no_writer`: without a writer, flushing changes nothing and writes nothing.
-/

namespace TextLink

/-- What became of an accepted message. -/
inductive Pushed where
  /-- All of it was written. -/
  | written
  /-- It waits. With `arm`, the queue of a connected socket was empty before, and nobody watches yet
  for the socket to take more. -/
  | queued (arm : Bool)
deriving DecidableEq, Repr

/-- How far flushing got. -/
inductive Flushed where
  /-- Nothing waits any more. -/
  | drained
  /-- The wire takes no more for now. -/
  | blocked
deriving DecidableEq, Repr

/-- A message given up partway: how much of it is on the wire, and how much is not. -/
structure Torn where
  sent : Nat
  unsent : Nat
deriving DecidableEq, Repr

/-- Why flushing stopped, and the message given up for it, if any. -/
structure FlushFailure where
  cause : IoError
  torn : Option Torn
deriving DecidableEq, Repr

/-- The messages waiting for one connection. -/
structure SendQueue where
  state : ConnectionState := .disconnected
  /-- The destination to write to, while there is one. -/
  writer : Option Nat := none
  /-- The messages waiting, without what is already out of the first one. -/
  pending : List Bytes := []
  /-- How many bytes of the first message are on the wire. -/
  headSent : Nat := 0
  /-- Messages given up partway. -/
  discarded : Nat := 0
  /-- The slot of the connection, once it has one. -/
  token : Option Nat := none
  /-- How many messages may wait; `none`: any number. -/
  limit : Option Nat := none
deriving DecidableEq, Inhabited, Repr

namespace SendQueue

variable {σ : Type} [Medium σ]

/-- An empty queue for at most `limit` messages. -/
def ofLimit (limit : Option Nat) : SendQueue := { limit }

/-- Records the slot of the connection, the first time. -/
def bind (q : SendQueue) (token : Nat) : SendQueue :=
  { q with token := q.token <|> some token }

/-- Whether a message waits. -/
def hasPending (q : SendQueue) : Bool := !q.pending.isEmpty

/-- Why the queue takes no message now, if it takes none. -/
def refusal (q : SendQueue) : Option SendError :=
  if q.state = .closed then some .notConnected
  else
    match q.limit with
    | none => none
    | some limit => if limit ≤ q.pending.length then some (.queueFull limit) else none

/-- Puts a message behind the others. -/
def enqueue (q : SendQueue) (message : Bytes) : SendQueue :=
  { q with pending := q.pending ++ [message] }

/--
Offers a message.

If the connection is up and nothing waits, one attempt to write it is made on the spot; what the
wire does not take is queued, whatever the reason. An empty message has nothing to write.
-/
def push (q : SendQueue) (s : σ) (message : Bytes) : Except SendError Pushed × SendQueue × σ :=
  match q.refusal with
  | some e => (.error e, q, s)
  | none =>
    if message.isEmpty then (.ok .written, q, s)
    else
      let idle := q.state == .connected && q.pending.isEmpty
      match q.writer.filter fun _ => idle with
      | none => (.ok (.queued idle), q.enqueue message, s)
      | some w =>
        match Medium.writeOnce s w message with
        | (.ok n, s) =>
          if n = message.length then (.ok .written, q, s)
          else (.ok (.queued idle), { q.enqueue (message.drop n) with headSent := n }, s)
        | (.error _, s) => (.ok (.queued idle), q.enqueue message, s)

/-- Removes the first message, of which nothing is left to send. -/
def dropHead (q : SendQueue) : SendQueue :=
  { q with pending := q.pending.tail, headSent := 0 }

/-- Gives up the first message, part of which is on the wire. -/
def discardHead (q : SendQueue) : SendQueue :=
  { q.dropHead with discarded := q.discarded + 1 }

/--
Writes the messages `waiting`, which are those of `q`, to `w` until one does not go out whole.

Every message is tried once. An attempt that takes nothing, or only a part, ends the flush.
-/
def flushTo (w : Nat) (waiting : List Bytes) (q : SendQueue) (s : σ) :
    Except FlushFailure Flushed × SendQueue × σ :=
  match waiting with
  | [] => (.ok .drained, q, s)
  | head :: others =>
    match Medium.writeOnce s w head with
    | (.ok n, s) =>
      if n = 0 then (.ok .blocked, q, s)
      else if n = head.length then flushTo w others q.dropHead s
      else
        let rest := { q with pending := head.drop n :: others, headSent := q.headSent + n }
        (.ok .blocked, rest, s)
    | (.error e, s) =>
      if e.kind = .wouldBlock then (.ok .blocked, q, s)
      else if 0 < q.headSent then
        (.error ⟨e, some ⟨q.headSent, head.length⟩⟩, q.discardHead, s)
      else (.error ⟨e, none⟩, q, s)

/--
Writes the waiting messages in order, until none is left or the wire takes no more.

After a failure, a message that had no byte written stays, and one partly written is given up.
-/
def flush (q : SendQueue) (s : σ) : Except FlushFailure Flushed × SendQueue × σ :=
  match q.writer with
  | none => (.ok (if q.hasPending then .blocked else .drained), q, s)
  | some w => flushTo w q.pending q s

/--
The connection is being attempted (again): the writer is taken away, and messages wait.

A message partly written to the lost socket is given up; the first component tells how much of it
was sent. A closed queue stays as it is.
-/
def connecting (q : SendQueue) : Option Nat × SendQueue :=
  if q.state = .closed then (none, q)
  else
    let detached := { q with state := .connecting, writer := none }
    if 0 < q.headSent then (some q.headSent, detached.discardHead) else (none, detached)

/-- The connection is up: what is pushed from now on goes to destination `w`. -/
def connected (q : SendQueue) (w : Nat) : SendQueue :=
  { q with writer := some w, state := .connected }

/-- Closes the queue for good, and tells how many messages were dropped with it. -/
def close (q : SendQueue) : Nat × SendQueue :=
  (q.pending.length, { q with state := .closed, writer := none, headSent := 0, pending := [] })

theorem state_connecting {q : SendQueue} (h : q.state ≠ .closed) :
    q.connecting.2.state = .connecting ∧ q.connecting.2.writer = none := by
  rw [connecting, if_neg h]
  by_cases hsent : 0 < q.headSent
  · rw [if_pos hsent]
    exact ⟨rfl, rfl⟩
  · rw [if_neg hsent]
    exact ⟨rfl, rfl⟩

theorem push_of_refusal {q : SendQueue} {e : SendError} (s : σ) (message : Bytes)
    (h : q.refusal = some e) : q.push s message = (.error e, q, s) := by
  simp [push, h]

theorem flush_of_no_writer {q : SendQueue} (s : σ) (h : q.writer = none) :
    q.flush s = (.ok (if q.hasPending then .blocked else .drained), q, s) := by
  simp [flush, h]

end SendQueue

end TextLink
