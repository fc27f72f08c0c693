import TextLink.Kernel.Outside
import TextLink.Loop.Requests

/-!
# Histories of a loop

Everything that changes a loop is one of three kinds of `Action`: a request of a producer, a move of
the outside world, a turn. What can become of a loop is what a list of them makes of it
(`Loop.after`), so a statement about every history is a statement about every list.

A turn that meets a fault ends the loop, and so nothing turns a loop that is gone.

## Main results

* `after_append`: histories can be cut anywhere.
-/

namespace TextLink

/-- What a producer may ask for. -/
inductive Request where
  /-- Open a connection. -/
  | connect (address : Address) (handler : Handler) (options : ConnectOptions)
  /-- Send bytes on a connection. -/
  | send (id : Nat) (bytes : Bytes)
  /-- Close a connection. -/
  | close (id : Nat)
  /-- Stop the loop. -/
  | shutdown
deriving DecidableEq

/-- The answer to a request. -/
inductive Reply where
  /-- The number of the connection opened. -/
  | connected (outcome : Except Error Nat)
  | sent (outcome : Except SendError SendStatus)
  /-- A command was given, or there is no loop to give it to. -/
  | told (outcome : Except Error Unit)

/-- Whatever changes a loop. -/
inductive Action where
  | request (r : Request)
  | happen (h : Happening)
  | turn
deriving DecidableEq

namespace Loop

/-- Answers a request. -/
def request (l : Loop) : Request → Reply × Loop
  | .connect address handler options =>
    let (outcome, l) := l.requestConnect address handler options
    (.connected outcome, l)
  | .send id bytes =>
    let (outcome, l) := l.sendBytes id bytes
    (.sent outcome, l)
  | .close id =>
    let (outcome, l) := l.requestClose id
    (.told outcome, l)
  | .shutdown =>
    let (outcome, l) := l.requestShutdown
    (.told outcome, l)

/-- Has something happen outside. -/
def happen (l : Loop) (h : Happening) : Loop := { l with kernel := l.kernel.happen h }

/-- Turns the loop if it is there; a fault ends it. -/
def turnOnce (l : Loop) : Loop :=
  if l.ended then l
  else
    match l.turn with
    | (.faulted _, l) => l.drop
    | (_, l) => l

/-- The loop after an action. -/
def perform (l : Loop) : Action → Loop
  | .request r => (l.request r).2
  | .happen h => l.happen h
  | .turn => l.turnOnce

/-- The loop after a history. -/
def after (l : Loop) (actions : List Action) : Loop := actions.foldl perform l

theorem after_append (l : Loop) (as bs : List Action) :
    l.after (as ++ bs) = (l.after as).after bs := List.foldl_append

end Loop

end TextLink
