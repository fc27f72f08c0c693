import TextLink.Connection.Connecting

/-!
# Serving an established connection

An event is served by reading first and writing then. Reading goes on until nothing more has
arrived; every piece is decoded and told to the handler. Writing flushes the queue. Last, the socket
is watched for what is needed now.

A failure that says the peer is gone closes the connection. Any other failure cuts the event short
and changes nothing else; readiness is a level, so the next wait reports what is left.

## Main results

* `kernel_takeIn`: taking in bytes makes no call, which is what lets reading end.
-/

namespace TextLink

namespace Link

/-! ## Reading -/

/--
Takes in received bytes: decodes them, tells the text, and logs once that nothing more will be
decoded. The first component says whether the handler stood it.
-/
def takeIn (l : Link) (bytes : Bytes) : Bool × Link :=
  let (text, decoder) := l.conn.decoder.feed bytes
  let told := if text.isEmpty then l.journal else l.journal.tell l.conn.handler (.text text)
  let l := { l with conn := { l.conn with decoder }, journal := told }
  if !text.isEmpty && l.conn.handler.faultsOn == some text then (false, l)
  else if !l.conn.stalled && decoder.isStalled then
    (true, { l with conn := { l.conn with stalled := true } }.note [.malformedInput l.conn.token])
  else (true, l)

theorem kernel_takeIn (l : Link) (bytes : Bytes) : (l.takeIn bytes).2.kernel = l.kernel := by
  simp only [takeIn, note]
  split
  · rfl
  · split <;> rfl

theorem kernel_of_takeIn {l told : Link} {bytes : Bytes} {stood : Bool}
    (h : l.takeIn bytes = (stood, told)) : told.kernel = l.kernel := by
  rw [← kernel_takeIn l bytes, h]

/-- Reads from socket `s` until nothing more has arrived, and tells whether the stream is still
open. -/
def readFrom (l : Link) (s : SocketId) : Except Setback Bool × Link :=
  match _h : l.kernel.receive s l.conn.chunk with
  | (.ok [], kernel) => (.ok false, { l with kernel })
  | (.ok (b :: bs), kernel) =>
    match _ht : { l with kernel }.takeIn (b :: bs) with
    | (true, told) => told.readFrom s
    | (false, told) => (.error (.fault .handler), told)
  | (.error e, kernel) =>
    if e = .tryAgain then (.ok true, { l with kernel })
    else if _he : e = .interrupted then { l with kernel }.readFrom s
    else if e.kind.isDisconnect then (.ok false, { l with kernel })
    else (.error (.failed (.os e)), { l with kernel })
termination_by l.kernel.backlog s
decreasing_by
  · have hk : told.kernel = kernel := kernel_of_takeIn _ht
    have hlt := Kernel.backlog_receive_lt (.inl ⟨b :: bs, by rw [_h], by simp⟩)
    rw [_h] at hlt
    simpa [hk] using hlt
  · have hlt := Kernel.backlog_receive_lt (.inr (by rw [_h, _he]))
    rw [_h] at hlt
    exact hlt

/-- Reads what has arrived; a connection without a socket has ended. -/
def read (l : Link) : Except Setback Bool × Link :=
  match l.conn.socket with
  | none => (.ok false, l)
  | some s => l.readFrom s

/-! ## Writing -/

/-- Flushes the queue. -/
def flush (l : Link) : Except IoError Unit × Link :=
  let (outcome, queue, kernel) := l.queue.flush l.kernel
  let l := { l with queue, kernel }
  match outcome with
  | .ok _ => (.ok (), l)
  | .error failure =>
    let notes := (failure.torn.map fun t => LogRecord.partlyWritten t.sent t.unsent).toList
    (.error failure.cause, l.note notes)

/-! ## Events -/

/-- Watches for what is needed now, at the end of an event. -/
def concludeService (l : Link) : Except Setback Progress × Link :=
  match l.rearm with
  | (.ok (), l) => (.ok .ongoing, l)
  | (.error e, l) => (.error (.failed e), l)

/-- Writes if the event says so, and concludes. -/
def serveWriting (l : Link) (event : Event) : Except Setback Progress × Link :=
  if event.writable then
    match l.flush with
    | (.ok (), l) => l.concludeService
    | (.error e, l) =>
      if e.kind.isDisconnect then (.ok .closed, l.close) else (.error (.failed e), l)
  else l.concludeService

/-- Serves an event of an established connection. -/
def serve (l : Link) (event : Event) : Except Setback Progress × Link :=
  if event.readable then
    match l.read with
    | (.ok true, l) => l.serveWriting event
    | (.ok false, l) => (.ok .closed, l.close)
    | (.error setback, l) => (.error setback, l)
  else l.serveWriting event

/-- Handles an event. A connection that is idle or closed has none to handle. -/
def handleEvent (l : Link) (event : Event) : Except Setback Progress × Link :=
  match l.conn.state with
  | .connecting =>
    match l.finishConnect event with
    | (.ok progress, l) => (.ok progress, l)
    | (.error fault, l) => (.error (.fault fault), l)
  | .connected => l.serve event
  | .disconnected | .closed => (.ok .ongoing, l)

end Link

end TextLink
