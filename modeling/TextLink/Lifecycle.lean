/-!
# The states of a connection

A connection is requested, connects (perhaps several times), is connected, and is closed. Closing is
final.
-/

namespace TextLink

/-- Where a connection stands. -/
inductive ConnectionState where
  /-- Requested, not yet taken up by the loop. -/
  | disconnected
  /-- A connect is under way, or waits for its retry. -/
  | connecting
  | connected
  /-- For good: the peer is gone, connecting was given up, or a close was asked for. -/
  | closed
deriving DecidableEq, Repr, Inhabited

namespace ConnectionState

/-- Every state, in the order they are gone through. -/
def all : List ConnectionState := [disconnected, connecting, connected, closed]

/-- The word shown for a state. -/
def name : ConnectionState → String
  | disconnected => "disconnected"
  | connecting => "connecting"
  | connected => "connected"
  | closed => "closed"

/-- The word shown for a state in a description of a value. -/
def title : ConnectionState → String
  | disconnected => "Disconnected"
  | connecting => "Connecting"
  | connected => "Connected"
  | closed => "Closed"

end ConnectionState

end TextLink
