import TextLink.Loop.Turning

/-!
# The producers' side

What threads other than the loop's may ask for: a connection, sending a message, closing a
connection, stopping the loop. Every command is put into the channel and wakes the loop; a loop that
is gone takes none.

Sending goes to the queue directly, and so may write to the socket while the loop waits.

## Main results

* `submit_of_ended`: a loop that is gone changes no more.
-/

namespace TextLink

/-- What became of a message that was accepted. -/
inductive SendStatus where
  /-- All of it was handed to the socket. -/
  | written
  /-- It waits, or its rest does. -/
  | queued
deriving DecidableEq, Repr

namespace Loop

/-- Gives the loop a command, and wakes it. -/
def submit (l : Loop) (c : Command) : Except Error Unit × Loop :=
  if l.ended then (.error .loopGone, l)
  else (.ok (), { l with channel := l.channel ++ [c], kernel := l.kernel.wake })

theorem submit_of_ended {l : Loop} (c : Command) (h : l.ended = true) :
    l.submit c = (.error .loopGone, l) := by
  simp [submit, h]

/-- Requests a connection, told to a handler made for its number; tells the number. -/
def requestConnect (l : Loop) (address : Address) (handler : Handler) (options : ConnectOptions) :
    Except Error Nat × Loop :=
  let id := l.queues.length
  match l.submit (.connect id address { handler with conn := id } options) with
  | (.ok (), l) => (.ok id, { l with queues := l.queues ++ [.ofLimit options.maxPending] })
  | (.error e, l) => (.error e, l)

/-- Sends bytes on connection number `id`. -/
def sendBytes (l : Loop) (id : Nat) (bytes : Bytes) : Except SendError SendStatus × Loop :=
  let (outcome, queue, kernel) := (l.queue id).push l.kernel bytes
  let l := { l with queues := l.queues.set id queue, kernel }
  match outcome with
  | .error e => (.error e, l)
  | .ok .written => (.ok .written, l)
  | .ok (.queued false) => (.ok .queued, l)
  | .ok (.queued true) =>
    match l.submit (.flush id) with
    | (.ok (), l) => (.ok .queued, l)
    | (.error _, l) => (.ok .queued, l.note [.nobodyFlushes])

/-- Asks for connection number `id` to be closed. -/
def requestClose (l : Loop) (id : Nat) : Except Error Unit × Loop := l.submit (.close id)

/-- Asks the loop to stop. -/
def requestShutdown (l : Loop) : Except Error Unit × Loop := l.submit .shutdown

/-! ## Descriptions -/

/-- The description of the producers' side of connection number `id`. -/
def describeOutbox (l : Loop) (id : Nat) : String :=
  let q := l.queue id
  let token := match q.token with
    | none => "None"
    | some t => s!"Some({t})"
  s!"Outbox \x7b token: {token}, state: {q.state.title}, pending: {q.pending.length} \x7d"

/-- The description of the producers' side of the loop. -/
def describeHandle : String := "LoopHandle \x7b .. \x7d"

end Loop

end TextLink
