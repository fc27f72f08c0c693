/-!
# Failures of input and output

A failure is either an error number reported by the kernel (`Errno`) or a failure named by its kind
alone (`ErrorKind`). The loop only ever looks at the kind: whether a call would block, was
interrupted, or found the peer gone. Every other kind is a transient error.

## Main results

* `Errno.ofSymbol?_symbol`: a symbol names one error number.
* `ErrorKind.name_ofName`: a kind keeps the name it was given.
-/

namespace TextLink

/-! ## Kinds -/

/-- What a failure means, as far as anything depends on it. -/
inductive ErrorKind where
  | wouldBlock
  | interrupted
  | connectionReset
  | connectionAborted
  | brokenPipe
  | notConnected
  | unexpectedEnd
  /-- A kind nothing depends on. -/
  | other (name : String)
deriving DecidableEq, Repr, Inhabited

namespace ErrorKind

/-- The name of a kind. -/
def name : ErrorKind → String
  | wouldBlock => "WouldBlock"
  | interrupted => "Interrupted"
  | connectionReset => "ConnectionReset"
  | connectionAborted => "ConnectionAborted"
  | brokenPipe => "BrokenPipe"
  | notConnected => "NotConnected"
  | unexpectedEnd => "UnexpectedEof"
  | other n => n

/-- The kind of a name. -/
def ofName (n : String) : ErrorKind :=
  if n = "WouldBlock" then wouldBlock
  else if n = "Interrupted" then interrupted
  else if n = "ConnectionReset" then connectionReset
  else if n = "ConnectionAborted" then connectionAborted
  else if n = "BrokenPipe" then brokenPipe
  else if n = "NotConnected" then notConnected
  else if n = "UnexpectedEof" then unexpectedEnd
  else other n

theorem name_ofName (n : String) : (ofName n).name = n := by
  unfold ofName
  repeat' split
  all_goals simp_all [name]

/-- Whether a stream is unusable after a failure of this kind. -/
def isDisconnect : ErrorKind → Bool
  | connectionReset | connectionAborted | brokenPipe | notConnected | unexpectedEnd => true
  | _ => false

end ErrorKind

/-! ## Error numbers -/

/-- The kernel's error numbers. -/
inductive Errno where
  | noEntry
  | interrupted
  | ioFault
  | badDescriptor
  | tryAgain
  | noMemory
  | accessDenied
  | alreadyExists
  | invalidArgument
  | systemFilesExhausted
  | filesExhausted
  | noSpace
  | brokenPipe
  | addressUnavailable
  | networkUnreachable
  | connectionAborted
  | connectionReset
  | noBuffers
  | notConnected
  | timedOut
  | connectionRefused
  | hostUnreachable
  | alreadyUnderway
  | inProgress
deriving DecidableEq, Repr, Inhabited

namespace Errno

/-- Every error number, in ascending order. -/
def all : List Errno :=
  [noEntry, interrupted, ioFault, badDescriptor, tryAgain, noMemory, accessDenied, alreadyExists,
    invalidArgument, systemFilesExhausted, filesExhausted, noSpace, brokenPipe, addressUnavailable,
    networkUnreachable, connectionAborted, connectionReset, noBuffers, notConnected, timedOut,
    connectionRefused, hostUnreachable, alreadyUnderway, inProgress]

/-- The symbol of an error number. -/
def symbol : Errno → String
  | noEntry => "ENOENT"
  | interrupted => "EINTR"
  | ioFault => "EIO"
  | badDescriptor => "EBADF"
  | tryAgain => "EAGAIN"
  | noMemory => "ENOMEM"
  | accessDenied => "EACCES"
  | alreadyExists => "EEXIST"
  | invalidArgument => "EINVAL"
  | systemFilesExhausted => "ENFILE"
  | filesExhausted => "EMFILE"
  | noSpace => "ENOSPC"
  | brokenPipe => "EPIPE"
  | addressUnavailable => "EADDRNOTAVAIL"
  | networkUnreachable => "ENETUNREACH"
  | connectionAborted => "ECONNABORTED"
  | connectionReset => "ECONNRESET"
  | noBuffers => "ENOBUFS"
  | notConnected => "ENOTCONN"
  | timedOut => "ETIMEDOUT"
  | connectionRefused => "ECONNREFUSED"
  | hostUnreachable => "EHOSTUNREACH"
  | alreadyUnderway => "EALREADY"
  | inProgress => "EINPROGRESS"

/-- The number itself. -/
def number : Errno → Nat
  | noEntry => 2
  | interrupted => 4
  | ioFault => 5
  | badDescriptor => 9
  | tryAgain => 11
  | noMemory => 12
  | accessDenied => 13
  | alreadyExists => 17
  | invalidArgument => 22
  | systemFilesExhausted => 23
  | filesExhausted => 24
  | noSpace => 28
  | brokenPipe => 32
  | addressUnavailable => 99
  | networkUnreachable => 101
  | connectionAborted => 103
  | connectionReset => 104
  | noBuffers => 105
  | notConnected => 107
  | timedOut => 110
  | connectionRefused => 111
  | hostUnreachable => 113
  | alreadyUnderway => 114
  | inProgress => 115

/-- The system's description of an error number. -/
def description : Errno → String
  | noEntry => "No such file or directory"
  | interrupted => "Interrupted system call"
  | ioFault => "Input/output error"
  | badDescriptor => "Bad file descriptor"
  | tryAgain => "Resource temporarily unavailable"
  | noMemory => "Cannot allocate memory"
  | accessDenied => "Permission denied"
  | alreadyExists => "File exists"
  | invalidArgument => "Invalid argument"
  | systemFilesExhausted => "Too many open files in system"
  | filesExhausted => "Too many open files"
  | noSpace => "No space left on device"
  | brokenPipe => "Broken pipe"
  | addressUnavailable => "Cannot assign requested address"
  | networkUnreachable => "Network is unreachable"
  | connectionAborted => "Software caused connection abort"
  | connectionReset => "Connection reset by peer"
  | noBuffers => "No buffer space available"
  | notConnected => "Transport endpoint is not connected"
  | timedOut => "Connection timed out"
  | connectionRefused => "Connection refused"
  | hostUnreachable => "No route to host"
  | alreadyUnderway => "Operation already in progress"
  | inProgress => "Operation now in progress"

/-- What an error number means to the loop. -/
def kind : Errno → ErrorKind
  | connectionReset => .connectionReset
  | connectionAborted => .connectionAborted
  | brokenPipe => .brokenPipe
  | notConnected => .notConnected
  | interrupted => .interrupted
  | tryAgain => .wouldBlock
  | e => .other e.symbol

/-- The error number of a symbol. -/
def ofSymbol? (s : String) : Option Errno :=
  all.find? fun e => e.symbol == s

theorem ofSymbol?_symbol (e : Errno) : ofSymbol? e.symbol = some e := by
  cases e <;> decide +kernel

/-- The text shown for an error number: its description and the number. -/
def message (e : Errno) : String :=
  s!"{e.description} (os error {e.number})"

end Errno

/-- How a call ended that gives no result. -/
inductive Verdict where
  | ok
  | fails (e : Errno)
deriving DecidableEq, Repr, Inhabited

namespace Verdict

/-- The symbol shown for a verdict. -/
def symbol : Verdict → String
  | ok => "ok"
  | fails e => e.symbol

/-- The verdict of a symbol. -/
def ofSymbol? (s : String) : Option Verdict :=
  if s = "ok" then some ok else (Errno.ofSymbol? s).map fails

end Verdict

/-! ## Failures -/

/-- Why an operation on a stream failed. -/
inductive IoError where
  /-- The kernel reported an error number. -/
  | os (e : Errno)
  /-- A failure of a kind, from no call. -/
  | kindOnly (k : ErrorKind)
deriving DecidableEq, Repr, Inhabited

namespace IoError

/-- The kind of a failure. -/
def kind : IoError → ErrorKind
  | os e => e.kind
  | kindOnly k => k

/-- The symbol of the error number, or the name of the kind. -/
def label : IoError → String
  | os e => e.symbol
  | kindOnly k => k.name

end IoError

end TextLink
