import TextLink.Address
import TextLink.Medium
import TextLink.Time

/-!
# The kernel: sockets, registrations, and what is still to happen

A `Kernel` is everything below the loop. It holds the sockets, numbered in the order they were made,
the readiness registrations in the order they were added, the clock, and the record of the calls
made to it. Registrations go by descriptor. A socket takes the two lowest descriptors that are free
when it is made: its own, which is free again once it is closed, and one for its far end, which
stays taken.

What the outside world will do is part of the state: a `Plan` for every socket to come, items that
peers have sent, room that peers leave, and verdicts that calls of one name are to take. Whatever a
network can do to a loop is thereby one of the kernel's states, and every call is a function.

## Main results

* `takeVerdict_length_le`: a call uses up at most one scripted verdict.
-/

namespace TextLink

/-- The number of a socket. -/
abbrev SocketId := Nat

/-! ## Sockets -/

/-- How far the connect of a socket got. -/
inductive Phase where
  /-- None was started, or it failed on the spot. -/
  | fresh
  /-- Under way. -/
  | pending
  /-- Succeeded. -/
  | up
  /-- Failed later on. -/
  | failed
deriving DecidableEq, Repr, Inhabited

/-- Something that arrived on a socket. -/
inductive Arrival where
  | data (bytes : Bytes)
  /-- A receive is to fail. -/
  | failure (e : Errno)
  /-- The end of the stream. -/
  | ending
deriving DecidableEq, Repr, Inhabited

/-- What will become of a socket's connect. -/
structure Plan where
  /-- The answer to the connect call. -/
  connect : Verdict := .fails .inProgress
  /-- How a connect that is under way ends at once, if it does. -/
  done : Option Verdict := none
  /-- How many bytes the peer takes; `none`: any number. -/
  room : Option Nat := none
deriving DecidableEq, Repr, Inhabited

/-- A socket. -/
structure Socket where
  /-- The number it is open under. It is free again once the socket is closed. -/
  descriptor : Nat := 0
  plan : Plan := {}
  phase : Phase := .fresh
  /-- The pending error, to be read once. -/
  error : Option Errno := none
  /-- What has arrived and was not yet received. -/
  incoming : List Arrival := []
  /-- How many bytes it still accepts; `none`: any number. -/
  room : Option Nat := none
  /-- Failures of the sends to come. -/
  sendErrors : List Errno := []
  isOpen : Bool := true
  /-- All bytes accepted for sending. -/
  wire : Bytes := []
deriving DecidableEq, Repr, Inhabited

/-! ## Readiness -/

/-- What a registration asks to be told about. -/
structure Interest where
  read : Bool
  write : Bool
deriving DecidableEq, Repr, Inhabited

namespace Interest

/-- Reading only. -/
def reading : Interest := ⟨true, false⟩

/-- Writing only: a connect under way ends by becoming writable. -/
def writing : Interest := ⟨false, true⟩

/-- Reading, and writing as well while output waits. -/
def serving (hasOutput : Bool) : Interest := ⟨true, hasOutput⟩

end Interest

/-- A set of readiness flags. -/
structure Flags where
  input : Bool := false
  output : Bool := false
  error : Bool := false
  hangup : Bool := false
  readHangup : Bool := false
deriving DecidableEq, Repr, Inhabited

namespace Flags

/-- Whether any flag is set. -/
def any (f : Flags) : Bool := f.input || f.output || f.error || f.hangup || f.readHangup

/-- The flags shown, in their fixed order. -/
def text (f : Flags) : String :=
  let shown := [(f.input, "in"), (f.output, "out"), (f.error, "err"), (f.hangup, "hup"),
    (f.readHangup, "rdhup")]
  "+".intercalate (shown.filterMap fun (isSet, word) => if isSet then some word else none)

/-- The flags a registration with this interest asks for; the peer's hanging up is always among
them. -/
def ofInterest (i : Interest) : Flags := { input := i.read, output := i.write, readHangup := true }

/-- The flags that get through to a registration asking for `mask`; errors and
hang-ups always do. -/
def through (f mask : Flags) : Flags where
  input := f.input && mask.input
  output := f.output && mask.output
  error := f.error
  hangup := f.hangup
  readHangup := f.readHangup && mask.readHangup

end Flags

/-- A descriptor watched for readiness, under a token. -/
structure Registration where
  descriptor : Nat
  token : Nat
  interest : Interest
deriving DecidableEq, Repr, Inhabited

/-- An event reported out of nowhere. -/
structure Injection where
  token : Nat
  flags : Flags
deriving DecidableEq, Repr, Inhabited

/-- Where a reported event comes from. -/
inductive Source where
  | waker
  | socket (s : SocketId) (token : Nat)
  | injected (token : Nat)
deriving DecidableEq, Repr, Inhabited

/-- An event reported by a wait. -/
structure Report where
  source : Source
  flags : Flags := {}
deriving DecidableEq, Repr, Inhabited

/-! ## Calls -/

/-- The names of the calls that can be told to fail. -/
inductive CallName where
  | socket
  | fcntl
  | getsockopt
  | epollCreate
  | eventfd
  | epollCtl
  | epollWait
deriving DecidableEq, Repr, Inhabited

namespace CallName

/-- Every name. -/
def all : List CallName := [socket, fcntl, getsockopt, epollCreate, eventfd, epollCtl, epollWait]

/-- The symbol of a name. -/
def symbol : CallName → String
  | socket => "socket"
  | fcntl => "fcntl"
  | getsockopt => "getsockopt"
  | epollCreate => "epoll_create"
  | eventfd => "eventfd"
  | epollCtl => "epoll_ctl"
  | epollWait => "epoll_wait"

/-- The name of a symbol. -/
def ofSymbol? (s : String) : Option CallName := all.find? fun c => c.symbol == s

end CallName

/-- A call made to the kernel, with its outcome. -/
inductive Call where
  | socket (family : Family) (outcome : Except Errno SocketId)
  | connect (s : SocketId) (address : Address) (outcome : Verdict)
  /-- The pending error was read; the verdict is the error itself. -/
  | takeError (s : SocketId) (outcome : Except Errno Verdict)
  | send (s : SocketId) (length : Nat) (outcome : Except Errno Nat)
  | receive (s : SocketId) (size : Nat) (outcome : Except Errno Bytes)
  | register (s : SocketId) (token : Nat) (interest : Interest) (outcome : Verdict)
  | reregister (s : SocketId) (token : Nat) (interest : Interest) (outcome : Verdict)
  | deregister (s : SocketId) (outcome : Verdict)
  /-- A wait of so many milliseconds, or without end; no report at all is a timeout. -/
  | wait (millis : Option Nat) (outcome : Except Errno (List Report))

/-! ## The state -/

/-- Everything below the loop. -/
structure Kernel where
  clock : Instant := .start
  /-- Whether closing a socket ends its registration. A registration that outlives its socket
  reports nothing, and bars the descriptor from being registered again. -/
  closeUnregisters : Bool := true
  sockets : List Socket := []
  /-- The descriptors that were given back, the lowest first. -/
  spareDescriptors : List Nat := []
  /-- No descriptor from here on was ever taken. -/
  nextDescriptor : Nat := 0
  /-- The plans of the sockets to come. -/
  plans : List Plan := []
  registrations : List Registration := []
  /-- Whether the waker was signalled since it was last read. -/
  signalled : Bool := false
  injections : List Injection := []
  /-- Verdicts that calls are to take, in order; each is used by one call of its name. -/
  verdicts : List (CallName × Verdict) := []
  /-- The calls made, the first one first. -/
  calls : Array Call := #[]
deriving Inhabited

/-- The token under which the waker reports. -/
def wakerToken : Nat := 1 <<< 64 - 1

namespace Kernel

/-- Records a call. -/
def record (k : Kernel) (c : Call) : Kernel := { k with calls := k.calls.push c }

/-- Changes socket `s`, if there is one. -/
def updateSocket (k : Kernel) (s : SocketId) (f : Socket → Socket) : Kernel :=
  { k with sockets := k.sockets.modify s f }

/-- The verdict that a call named `c` is to take first, and the verdicts left. -/
def splitVerdict (c : CallName) : List (CallName × Verdict) → Verdict × List (CallName × Verdict)
  | [] => (.ok, [])
  | (name, v) :: rest =>
    if name = c then (v, rest)
    else
      let (found, left) := splitVerdict c rest
      (found, (name, v) :: left)

/-- Uses up the next verdict for a call named `c`; without one the call goes through. -/
def takeVerdict (k : Kernel) (c : CallName) : Verdict × Kernel :=
  let (v, left) := splitVerdict c k.verdicts
  (v, { k with verdicts := left })

/-- Uses up verdicts for the calls named, up to the first that fails. -/
def takeVerdicts (k : Kernel) : List CallName → Verdict × Kernel
  | [] => (.ok, k)
  | c :: cs =>
    match k.takeVerdict c with
    | (.ok, k) => k.takeVerdicts cs
    | (.fails e, k) => (.fails e, k)

theorem length_splitVerdict_le (c : CallName) (vs : List (CallName × Verdict)) :
    (splitVerdict c vs).2.length ≤ vs.length := by
  induction vs with
  | nil => simp [splitVerdict]
  | cons v vs ih =>
    simp only [splitVerdict]
    split
    · simp
    · simpa using ih

theorem takeVerdict_length_le (k : Kernel) (c : CallName) :
    (k.takeVerdict c).2.verdicts.length ≤ k.verdicts.length :=
  length_splitVerdict_le c k.verdicts

/-- The open socket under a descriptor. -/
def holder? (k : Kernel) (descriptor : Nat) : Option SocketId :=
  k.sockets.findIdx? fun sock => sock.isOpen && sock.descriptor == descriptor

/-- Takes the lowest free descriptor. -/
def takeDescriptor (k : Kernel) : Nat × Kernel :=
  match k.spareDescriptors with
  | d :: later => (d, { k with spareDescriptors := later })
  | [] => (k.nextDescriptor, { k with nextDescriptor := k.nextDescriptor + 1 })

/-- Gives descriptor `d` back. -/
def giveBack (k : Kernel) (d : Nat) : Kernel :=
  let (lower, higher) := k.spareDescriptors.span (· < d)
  { k with spareDescriptors := lower ++ d :: higher }

/-- The descriptor of socket `s`. -/
def descriptor (k : Kernel) (s : SocketId) : Nat := (k.sockets[s]?.map (·.descriptor)).getD 0

/-- The registrations of descriptors other than `d`. -/
def registrationsBut (k : Kernel) (d : Nat) : List Registration :=
  k.registrations.filter fun r => r.descriptor != d

/-- Closes socket `s`, if it is open. -/
def close (k : Kernel) (s : SocketId) : Kernel :=
  match k.sockets[s]? with
  | none => k
  | some sock =>
    if sock.isOpen then
      let registrations :=
        if k.closeUnregisters then k.registrationsBut sock.descriptor else k.registrations
      { k.updateSocket s fun sock => { sock with isOpen := false } with registrations }.giveBack
        sock.descriptor
    else k

/-- Signals the waker. -/
def wake (k : Kernel) : Kernel := { k with signalled := true }

end Kernel

end TextLink
