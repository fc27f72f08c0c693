import TextLink.Kernel.Calls

/-!
# What happens outside

The moves of everything that is not the loop: peers answer connects, send data and take some, calls
begin to fail, time passes. Together with the calls they are all the ways in which a kernel changes.
-/

namespace TextLink

/-- A move of the outside world. -/
inductive Happening where
  /-- A plan for the next socket without one. -/
  | plan (p : Plan)
  /-- The next calls of this name take these verdicts. -/
  | script (c : CallName) (verdicts : List Verdict)
  /-- A connect under way ends. -/
  | complete (s : SocketId) (v : Verdict)
  /-- Something arrives. -/
  | arrive (s : SocketId) (items : List Arrival)
  /-- The peer leaves this much room. -/
  | room (s : SocketId) (n : Option Nat)
  /-- The next sends fail. -/
  | failSends (s : SocketId) (errors : List Errno)
  /-- An event is to be reported out of nowhere. -/
  | inject (i : Injection)
  /-- Time passes. -/
  | advance (d : Duration)
deriving DecidableEq

namespace Kernel

/-- The kernel after a move of the outside world. Moves on sockets that do not exist do nothing. -/
def happen (k : Kernel) : Happening → Kernel
  | .plan p => { k with plans := k.plans ++ [p] }
  | .script c vs => { k with verdicts := k.verdicts ++ vs.map fun v => (c, v) }
  | .complete s v => k.updateSocket s fun sock => sock.complete v
  | .arrive s items => k.updateSocket s fun sock => { sock with incoming := sock.incoming ++ items }
  | .room s n => k.updateSocket s fun sock => { sock with room := n }
  | .failSends s es => k.updateSocket s fun sock =>
      { sock with sendErrors := sock.sendErrors ++ es }
  | .inject i => { k with injections := k.injections ++ [i] }
  | .advance d => { k with clock := k.clock.elapse d }

end Kernel

/-! ## What is still to come -/

/-- A measure of what is to happen on a socket, and of what it may still cause. -/
def Socket.prospects (sock : Socket) : Nat := sock.backlog + sock.sendErrors.length + 8

/-- A measure of what was set up to happen and has not happened yet. -/
def Kernel.prospects (k : Kernel) : Nat :=
  k.verdicts.length + 8 * k.plans.length + k.injections.length
    + k.sockets.foldr (fun sock others => sock.prospects + others) 0

end TextLink
