import TextLink.Lifecycle

/-!
# What is told: callbacks and the log

The handler of a connection is told of every change of state and of every piece of text received. A
handler may fault on a text; it has been told of it by then. A handler of text only is told of
states as well, and takes no notice.

What goes wrong and cannot be told to a caller is logged.
-/

namespace TextLink

/-! ## Handlers -/

/-- Who is told what a connection receives. -/
structure Handler where
  /-- The number of the connection it was made for. -/
  conn : Nat := 0
  /-- Whether it takes no notice of states. -/
  textOnly : Bool := false
  /-- The text on which it faults, if any. -/
  faultsOn : Option String := none
deriving DecidableEq, Repr, Inhabited

/-- What a handler is told. -/
inductive Heard where
  | text (s : String)
  | state (s : ConnectionState)
deriving DecidableEq, Repr, Inhabited

/-- A call made to a handler. -/
structure Callback where
  handler : Handler
  heard : Heard
deriving DecidableEq, Repr, Inhabited

/-- Whether the handler takes notice of the call. -/
def Callback.isNoted (c : Callback) : Bool :=
  match c.heard with
  | .text _ => true
  | .state _ => !c.handler.textOnly

/-! ## The log -/

/-- How grave a logged fact is. -/
inductive Level where
  | warning
  | error
deriving DecidableEq, Repr

/-- Something logged. -/
inductive LogRecord where
  /-- A write failed with the first message partly sent. -/
  | partlyWritten (sent unsent : Nat)
  /-- A connect was attempted again with the first message partly sent. -/
  | tornByConnect (sent : Nat)
  /-- A message waits, and nobody will send it. -/
  | nobodyFlushes
  | gaveUpConnecting (token attempts : Nat)
  | unsentAtClose (token dropped : Nat)
  | undecodedAtClose (token bytes : Nat)
  | malformedInput (token : Nat)
  /-- The watch for writability could not be set up when a producer asked for it. -/
  | flushNotArmed (token : Nat)
  /-- The watch for writability could not be set up while draining. -/
  | drainNotArmed (token : Nat)
  | graceExpired (connections : Nat)
  | eventSkipped (token : Nat)
  | pollFailed
  | threadFaulted
deriving DecidableEq, Repr

namespace LogRecord

/-- How grave a record is. -/
def level : LogRecord → Level
  | pollFailed | threadFaulted => .error
  | _ => .warning

/-- What a record says. -/
def message : LogRecord → String
  | partlyWritten sent unsent =>
    s!"discarding partially written message sent={sent} unsent={unsent}"
  | tornByConnect sent => s!"discarding message torn by a failed connect sent={sent}"
  | nobodyFlushes => "queued a message but the event loop is gone"
  | gaveUpConnecting token attempts => s!"giving up connecting token={token} attempts={attempts}"
  | unsentAtClose token dropped => s!"closing with unsent messages token={token} dropped={dropped}"
  | undecodedAtClose token bytes =>
    s!"stream ended with undecodable bytes token={token} bytes={bytes}"
  | malformedInput token => s!"malformed input; no further text will be decoded token={token}"
  | flushNotArmed token => s!"failed to arm write interest token=Some({token})"
  | drainNotArmed token => s!"failed to arm write interest token={token}"
  | graceExpired connections =>
    s!"shutdown grace expired with unsent messages connections={connections}"
  | eventSkipped token => s!"I/O error, event skipped token={token}"
  | pollFailed => "poll failed"
  | threadFaulted => "event loop thread panicked"

/-- A record as it is shown. -/
def text (r : LogRecord) : String :=
  match r.level with
  | .warning => "WARN " ++ r.message
  | .error => "ERROR " ++ r.message

end LogRecord

/-! ## The journal -/

/-- All that was told, each in its order. -/
structure Journal where
  callbacks : Array Callback := #[]
  log : List LogRecord := []
deriving DecidableEq, Inhabited

namespace Journal

/-- Tells a handler. -/
def tell (j : Journal) (h : Handler) (heard : Heard) : Journal :=
  { j with callbacks := j.callbacks.push ⟨h, heard⟩ }

/-- Logs facts. -/
def note (j : Journal) (rs : List LogRecord) : Journal := { j with log := j.log ++ rs }

end Journal

end TextLink
