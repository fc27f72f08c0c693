import TextLink.Agenda
import TextLink.Connection.Serving
import TextLink.SlotTable

/-!
# The loop

A `Loop` serves every connection of a client. Producers talk to it through a channel of `Command`s
and through the send queues, one of which exists for every requested connection from the moment of
the request; a connection's number is its place in the list of queues. The loop's own part is the
table of connections, by slot, and the agenda of retries.

The loop lets a connection act by handing it a `Link` and taking over what the link became
(`Loop.absorb`).

A command names its connection by number. The slot bound to the queue may meanwhile belong to
another connection, so it counts only if the connection living there has that number (`Loop.find?`).
An entry of the agenda may be outdated in the same way; it counts only if the connection under its
token still waits for just that deadline.

What a connection does may end in a `Fault`. Nothing is done after one: whatever was left to do
stays undone, and it is for the caller to end the loop.

## Main results

* `id_of_find?_eq_some`: what is found has the number looked for.
-/

namespace TextLink

/-- A request to the loop. -/
inductive Command where
  /-- Open the connection number `id`. -/
  | connect (id : Nat) (address : Address) (handler : Handler) (options : ConnectOptions)
  /-- Messages wait on a connection that nobody watches for writability. -/
  | flush (id : Nat)
  /-- Close a connection. -/
  | close (id : Nat)
  /-- Stop. -/
  | shutdown
deriving DecidableEq

/-- The loop, its producers' side, and all that is below it. -/
structure Loop where
  config : LoopConfig := {}
  /-- The connections, by slot. -/
  connections : SlotTable Connection := .ofSize 16
  /-- When retries are due. -/
  agenda : Agenda := .empty
  /-- The commands not yet taken, the oldest first. -/
  channel : List Command := []
  /-- The send queues of all requested connections, by number. -/
  queues : List SendQueue := []
  kernel : Kernel := {}
  journal : Journal := {}
  /-- Whether the loop is gone. -/
  ended : Bool := false
deriving Inhabited

namespace Loop

/-- A loop over a kernel, if what it waits with can be made. -/
def create (config : LoopConfig) (kernel : Kernel) : Except Error Loop :=
  match kernel.openPoller with
  | (.ok, kernel) => .ok { config, kernel }
  | (.fails e, _) => .error (.system e)

/-- The time. -/
def now (l : Loop) : Instant := l.kernel.clock

/-- Logs facts. -/
def note (l : Loop) (rs : List LogRecord) : Loop := { l with journal := l.journal.note rs }

/-- The queue of connection number `id`. -/
def queue (l : Loop) (id : Nat) : SendQueue := l.queues[id]?.getD {}

/-! ## Letting a connection act -/

/-- What connection `c` may change. -/
def link (l : Loop) (c : Connection) : Link :=
  { conn := c, queue := l.queue c.id, kernel := l.kernel, journal := l.journal }

/-- Takes over what the connection in slot `token` has become, with all it changed. -/
def absorb (l : Loop) (token : Nat) (k : Link) : Loop :=
  { l with
    connections := l.connections.set token k.conn
    queues := l.queues.set k.conn.id k.queue
    kernel := k.kernel
    journal := k.journal }

/-- Does what is left to do about a connection that acted. -/
def apply (l : Loop) (token : Nat) : Progress → Loop
  | .ongoing => l
  | .retry deadline => { l with agenda := l.agenda.push ⟨deadline, token⟩ }
  | .closed => { l with connections := (l.connections.remove token).2 }

/-- The slot and the connection number `id` itself, if the loop has it. -/
def find? (l : Loop) (id : Nat) : Option (Nat × Connection) := do
  let token ← (l.queue id).token
  let c ← l.connections.get? token
  if c.id = id then some (token, c) else none

theorem id_of_find?_eq_some {l : Loop} {id token : Nat} {c : Connection}
    (h : l.find? id = some (token, c)) : c.id = id := by
  simp only [find?, Option.bind_eq_bind, Option.bind_eq_some_iff] at h
  obtain ⟨t, _, c', _, h⟩ := h
  split at h
  · rename_i hid
    simp only [Option.some.injEq, Prod.mk.injEq] at h
    exact h.2 ▸ hid
  · simp at h

/-! ## Connecting -/

/-- Takes over what the connection in slot `token` has become by an attempt to connect, and does
what is left to do about it. -/
def settleAttempt (l : Loop) (token : Nat) : Except Fault Progress × Link → Except Fault Unit × Loop
  | (.ok progress, k) => (.ok (), (l.absorb token k).apply token progress)
  | (.error fault, k) => (.error fault, l.absorb token k)

/-- Has the connection in slot `token` attempt to connect. -/
def attempt (l : Loop) (token : Nat) : Except Fault Unit × Loop :=
  match l.connections.get? token with
  | none => (.ok (), l)
  | some c => l.settleAttempt token (l.link c).connect

/-- Takes up a requested connection, for which there must be a buffer: gives it a slot, and
attempts to connect. -/
def takeUp (l : Loop) (id : Nat) (address : Address) (handler : Handler)
    (options : ConnectOptions) : Except Fault Unit × Loop :=
  if options.areFeasible then
    let (token, connections) := l.connections.insertWith fun token =>
      Connection.ofRequest id token address handler options
    { l with connections, queues := l.queues.modify id (·.bind token) }.attempt token
  else (.error .memory, l)

/-- Retries a connect, if the connection still waits for it. -/
def retry (l : Loop) (due : Appointment) : Except Fault Unit × Loop :=
  match l.connections.get? due.token with
  | none => (.ok (), l)
  | some c => if c.retryAt = some due.deadline then l.attempt due.token else (.ok (), l)

/-- Retries connects in order. -/
def retryAll (l : Loop) : List Appointment → Except Fault Unit × Loop
  | [] => (.ok (), l)
  | due :: later =>
    match l.retry due with
    | (.ok (), l) => l.retryAll later
    | (.error fault, l) => (.error fault, l)

/-- Retries the connects that are due. What falls due meanwhile waits for the next time. -/
def fireRetries (l : Loop) : Except Fault Unit × Loop :=
  let (due, agenda) := l.agenda.takeDue l.now
  { l with agenda }.retryAll due

/-! ## Commands -/

/-- Has connection number `id` watched for what it needs now. -/
def rearmFor (l : Loop) (id : Nat) : Loop :=
  match l.find? id with
  | none => l
  | some (token, c) =>
    let (outcome, k) := (l.link c).rearm
    let notes := match outcome with
      | .ok () => []
      | .error _ => [LogRecord.flushNotArmed token]
    (l.absorb token k).note notes

/-- Closes connection number `id`, and frees its slot. -/
def closeFor (l : Loop) (id : Nat) : Loop :=
  match l.find? id with
  | none => l
  | some (token, c) => (l.absorb token (l.link c).close).apply token .closed

/-- Does what a command asks for; a shutdown is not done here. -/
def obey (l : Loop) : Command → Except Fault Unit × Loop
  | .connect id address handler options => l.takeUp id address handler options
  | .flush id => (.ok (), l.rearmFor id)
  | .close id => (.ok (), l.closeFor id)
  | .shutdown => (.ok (), l)

/-- Takes the commands `cs`, which are those in the channel, up to a shutdown; tells whether there
was one. Later commands stay. -/
def takeFrom (l : Loop) : List Command → Except Fault Bool × Loop
  | [] => (.ok false, l)
  | .shutdown :: later => (.ok true, { l with channel := later })
  | c :: later =>
    match { l with channel := later }.obey c with
    | (.ok (), l) => l.takeFrom later
    | (.error fault, l) => (.error fault, l)

/-- Takes the commands in the channel up to a shutdown, and tells whether there was one. -/
def takeCommands (l : Loop) : Except Fault Bool × Loop := l.takeFrom l.channel

/-! ## Events -/

/-- Has the connection under the token of an event handle it. -/
def handle (l : Loop) (event : Event) : Except Fault Unit × Loop :=
  match l.connections.get? event.token with
  | none => (.ok (), l)
  | some c =>
    match (l.link c).handleEvent event with
    | (.ok progress, k) => (.ok (), (l.absorb event.token k).apply event.token progress)
    | (.error (.failed _), k) =>
      (.ok (), (l.absorb event.token k).note [.eventSkipped event.token])
    | (.error (.fault fault), k) => (.error fault, l.absorb event.token k)

/-- Handles events in order. -/
def dispatch (l : Loop) : List Event → Except Fault Unit × Loop
  | [] => (.ok (), l)
  | event :: later =>
    match l.handle event with
    | (.ok (), l) => l.dispatch later
    | (.error fault, l) => (.error fault, l)

end Loop

end TextLink
