import TextLink.Client.Builder

/-!
# Clients

A `Client` owns a loop on a thread of its own and its first connection, number zero. It is over when
it is joined, which waits for the thread to end, or dropped, which asks the loop to stop first.

What producers do and what happens outside is done while the thread is held up; the thread then goes
on until it is held up again (`Client.act`, `Client.happen`).

## Main results

* `isOver_join`: a joined client is over.
-/

namespace TextLink

/-- A client. -/
structure Client where
  thread : Thread
  /-- Whether it was joined or dropped. -/
  isOver : Bool := false

namespace Client

/-- The number of the client's own connection. -/
def ownId : Nat := 0

/-- Starts a client: its loop, its connection and its thread. -/
def start (b : ClientBuilder) (handler : Handler) (kernel : Kernel) : Except Error Client := do
  let address ← b.target
  let loop ← Loop.create b.loop kernel
  let (outcome, loop) := loop.requestConnect address handler b.options
  let _ ← outcome
  return { thread := ({ loop } : Thread).settle false }

/-- The loop, and the producers' side of it. -/
def loop (c : Client) : Loop := c.thread.loop

/-- Lets the thread go on until it is held up or has ended. -/
def settle (c : Client) (free : Bool) : Client := { c with thread := c.thread.settle free }

/-- Lets a producer act, and then the thread. -/
def act {α : Type} (c : Client) (f : Loop → α × Loop) : α × Client :=
  let (a, loop) := f c.loop
  (a, { c with thread := { c.thread with loop } }.settle false)

/-- Answers a request of a producer, and lets the thread go on. -/
def request (c : Client) (r : Request) : Reply × Client := c.act fun loop => loop.request r

/-- Lets something happen outside, and then the thread go on. -/
def happen (c : Client) (h : Happening) : Client :=
  (c.act fun loop => ((), loop.happen h)).2

/-- The state of the client's own connection; `none` once the client is over. -/
def state (c : Client) : Option ConnectionState :=
  if c.isOver then none else some (c.loop.queue ownId).state

/-- Waits for the thread to end. A fault of the thread is logged. -/
def join (c : Client) : Client :=
  let c := c.settle true
  let loop := match c.thread.activity with
    | .ended true => c.loop.note [.threadFaulted]
    | _ => c.loop
  { thread := { c.thread with loop }, isOver := true }

/-- Asks the loop to stop, and waits for the thread to end. -/
def drop (c : Client) : Client :=
  if c.isOver then c else (c.act fun loop => loop.requestShutdown).2.join

theorem isOver_join (c : Client) : c.join.isOver = true := rfl

/-- The description of a client. -/
def describe (c : Client) : String :=
  s!"Client \x7b outbox: {c.loop.describeOutbox ownId}, running: {!c.isOver} \x7d"

end Client

end TextLink
