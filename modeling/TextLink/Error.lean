import TextLink.Failure

/-!
# Errors shown to the user of a client

Failures inside the loop are logged and never get here. What remains is what a caller can act on:
starting the loop, resolving an address, and handing a message to a connection.

A `Fault` is no such error: it is nothing that the loop can go on after.
-/

namespace TextLink

/-- Why starting a client or talking to its loop failed. -/
inductive Error where
  /-- An operating system resource could not be created. -/
  | system (e : Errno)
  /-- Creating a resource failed for a reason the system has no number for. -/
  | resource (reason : String)
  /-- The configured address stands for no socket address. -/
  | unresolved (reason : String)
  /-- The loop has ended and takes no commands. -/
  | loopGone
  /-- The loop's thread could not be started. -/
  | noThread (reason : String)
deriving DecidableEq, Repr

namespace Error

/-- The text shown for an error. -/
def message : Error → String
  | system e => s!"I/O error: {e.message}"
  | resource reason => s!"I/O error: {reason}"
  | unresolved reason => s!"could not resolve address: {reason}"
  | loopGone => "event loop is no longer running"
  | noThread reason => s!"failed to spawn event loop thread: {reason}"

end Error

/-- Why a message was not accepted. -/
inductive SendError where
  /-- The connection is closed for good. -/
  | notConnected
  /-- The queue holds as many messages as it may. -/
  | queueFull (limit : Nat)
deriving DecidableEq, Repr

namespace SendError

/-- The text shown for an error. -/
def message : SendError → String
  | notConnected => "not connected"
  | queueFull limit => s!"outbound queue full ({limit} messages pending)"

end SendError

/-- What makes a loop end on the spot. -/
inductive Fault where
  /-- A handler faulted on what it was told. -/
  | handler
  /-- A deadline lies beyond the last one there is. -/
  | deadline
  /-- A buffer would have more bytes than can be addressed. -/
  | memory
deriving DecidableEq, Repr

namespace Fault

/-- The text shown for a fault. -/
def message : Fault → String
  | handler => "a handler faulted"
  | deadline => "overflow when adding duration to instant"
  | memory => "capacity overflow"

end Fault

end TextLink
