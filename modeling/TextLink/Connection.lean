import TextLink.Error
import TextLink.Journal
import TextLink.Kernel.Waiting
import TextLink.SendQueue
import TextLink.Settings

/-!
# A connection and what it holds

A `Connection` is the loop's part of one stream: the socket it goes through, how that socket is
registered, the decoder of what arrives, and how often connecting was tried.

Handling a connection also touches its send queue, the kernel and the journal. A `Link` is the four
of them together; nothing else is within its reach, so no handling of one connection can change
another one, or another one's queue.

A socket is held by the connection and, while it is up, by the queue that writes to it. It is closed
when the last of them lets it go (`Link.letGo`).

## Main results

* `Link.letGo_of_holds`: a socket still held stays open.
-/

namespace TextLink

/-- One stream, as the loop sees it. -/
structure Connection where
  /-- Its number among all requested connections. -/
  id : Nat := 0
  /-- The slot it lives in, under which its socket is registered. -/
  token : Nat := 0
  address : Address := default
  /-- Who is told what it receives. -/
  handler : Handler := {}
  policy : ConnectPolicy := {}
  /-- How many bytes one receive takes at most. -/
  chunk : Nat := 4096
  state : ConnectionState := .disconnected
  socket : Option SocketId := none
  /-- How the socket is registered, if it is. -/
  registered : Option Interest := none
  decoder : Text.Decoder := {}
  /-- Whether it was noted that nothing more will be decoded. -/
  stalled : Bool := false
  /-- How many connects were attempted. -/
  attempts : Nat := 0
  /-- When the next connect is due, while it waits for one. -/
  retryAt : Option Instant := none
deriving Inhabited

/-- The largest count of attempts; counting stops there. -/
def maxAttemptCount : Nat := 4294967295

/-- The largest size of a buffer. -/
def maxBufferSize : Nat := 1 <<< 63 - 1

/-- Whether there can be a buffer that receives as many bytes at once as the options say. -/
def ConnectOptions.areFeasible (options : ConnectOptions) : Bool :=
  options.readChunk ≤ maxBufferSize

/-- A connection that was requested. -/
def Connection.ofRequest (id token : Nat) (address : Address) (handler : Handler)
    (options : ConnectOptions) : Connection where
  id
  token
  address
  handler
  policy := options.policy
  chunk := max 1 options.readChunk
  decoder := { policy := options.malformed }

/-- What the loop has to do about a connection that handled something. -/
inductive Progress where
  /-- Nothing. -/
  | ongoing
  /-- A connect failed: try again at this moment. -/
  | retry (deadline : Instant)
  /-- It is closed: remove it. -/
  | closed
deriving DecidableEq, Inhabited

/-- Why handling an event stopped early. -/
inductive Setback where
  /-- A call failed for now. -/
  | failed (e : IoError)
  /-- The loop cannot go on. -/
  | fault (f : Fault)
deriving DecidableEq, Inhabited

/-- A connection and all that handling it may change. -/
structure Link where
  conn : Connection
  queue : SendQueue
  kernel : Kernel
  journal : Journal
deriving Inhabited

namespace Link

/-- The time. -/
def now (l : Link) : Instant := l.kernel.clock

/-- Logs facts. -/
def note (l : Link) (rs : List LogRecord) : Link := { l with journal := l.journal.note rs }

/-- Whether the connection or its queue holds socket `s`. -/
def holds (l : Link) (s : SocketId) : Bool :=
  l.conn.socket == some s || l.queue.writer == some s

/-- Whether messages wait that the connection may yet deliver. -/
def hasPendingOutput (l : Link) : Bool := l.conn.state != .closed && l.queue.hasPending

/-- Closes a socket that one of its holders gave up, unless the other one still holds it. -/
def letGo (l : Link) (socket : Option SocketId) : Link :=
  match socket with
  | none => l
  | some s => if l.holds s then l else { l with kernel := l.kernel.close s }

theorem letGo_of_holds {l : Link} {s : SocketId} (h : l.holds s = true) : l.letGo (some s) = l := by
  simp [letGo, h]

/-- Enters a state, and tells the handler if it is a new one. -/
def setState (l : Link) (state : ConnectionState) : Link :=
  if l.conn.state = state then l
  else
    { l with
      conn := { l.conn with state }
      journal := l.journal.tell l.conn.handler (.state state) }

/-! ## Registering the socket -/

/-- Has the socket watched as `interest` says, with a call only if something changes. -/
def arm (l : Link) (interest : Interest) : Except IoError Unit × Link :=
  match l.conn.socket with
  | none => (.ok (), l)
  | some s =>
    if l.conn.registered = some interest then (.ok (), l)
    else
      let (verdict, kernel) :=
        if l.conn.registered.isSome then l.kernel.reregister s l.conn.token interest
        else l.kernel.register s l.conn.token interest
      match verdict with
      | .ok => (.ok (), { l with kernel, conn := { l.conn with registered := some interest } })
      | .fails e => (.error (.os e), { l with kernel })

/-- Has the socket of an established connection watched for what it needs now: reading, and writing
while messages wait. -/
def rearm (l : Link) : Except IoError Unit × Link :=
  if l.conn.state = .connected then l.arm (.serving l.queue.hasPending) else (.ok (), l)

/-- Gives up the socket, which is no longer watched. -/
def release (l : Link) : Link :=
  match l.conn.socket with
  | none => l
  | some s =>
    let kernel := if l.conn.registered.isSome then (l.kernel.deregister s).2 else l.kernel
    let conn := { l.conn with socket := none, registered := none }
    { l with kernel, conn }.letGo (some s)

/-! ## Closing -/

/-- Has the queue hold messages back: there is nothing to write to for now. -/
def suspendQueue (l : Link) : Link :=
  let (torn, queue) := l.queue.connecting
  let notes := (torn.map LogRecord.tornByConnect).toList
  ({ l with queue }.letGo l.queue.writer).note notes

/-- Closes the queue, and tells how many messages were dropped with it. -/
def closeQueue (l : Link) : Nat × Link :=
  let (dropped, queue) := l.queue.close
  (dropped, { l with queue }.letGo l.queue.writer)

/--
Closes the connection for good.

What is lost with it is logged: messages that were never sent, and bytes that never became text.
-/
def close (l : Link) : Link :=
  if l.conn.state = .closed then l
  else
    let (dropped, l) := l.release.closeQueue
    let leftover := l.conn.decoder.finish
    let unsent := if 0 < dropped then [LogRecord.unsentAtClose l.conn.token dropped] else []
    let undecoded :=
      if leftover.isEmpty then [] else [LogRecord.undecodedAtClose l.conn.token leftover.length]
    let conn := { l.conn with retryAt := none, decoder := {} }
    ({ l with conn }.note (unsent ++ undecoded)).setState .closed

/-- Ends a connection that is dropped without having been closed: nobody is told. -/
def abandon (l : Link) : Link :=
  let (_, l) := if l.conn.state = .closed then (0, l) else l.closeQueue
  { l with conn := { l.conn with socket := none, registered := none } }.letGo l.conn.socket

end Link

end TextLink
