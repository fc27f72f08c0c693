import TextLink.Backoff
import TextLink.Text.Decoder

/-!
# Settings of loops and connections
-/

namespace TextLink

/-- Settings of a loop. -/
structure LoopConfig where
  /-- The longest wait: how often the loop turns even if nothing happens. -/
  pollTimeout : Duration := .ofSeconds 1
  /-- How many events one wait reports at most. -/
  eventCapacity : Nat := 64
  /-- How long a shutdown goes on writing what waits before it closes the connections. -/
  shutdownGrace : Duration := .ofSeconds 2
deriving DecidableEq, Inhabited

/-- The number of events a wait is asked for: at least one. -/
def LoopConfig.capacity (c : LoopConfig) : Nat := max 1 c.eventCapacity

/-- Settings of a connection. -/
structure ConnectOptions where
  /-- How many bytes one receive takes at most. -/
  readChunk : Nat := 4096
  policy : ConnectPolicy := {}
  malformed : Text.MalformedPolicy := .retain
  /-- How many messages may wait; `none`: any number. -/
  maxPending : Option Nat := none
deriving DecidableEq, Inhabited

end TextLink
