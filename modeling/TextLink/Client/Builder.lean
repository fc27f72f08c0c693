import TextLink.Address.Host
import TextLink.Loop.Action
import TextLink.Loop.Thread

/-!
# Setting up a client

A client is set up by giving it settings one by one, later ones in place of earlier ones. An address
is resolved when it is given, and a failure to resolve it is reported when the client is started. A
size of zero is refused on the spot.
-/

namespace TextLink

/-- A size that may not be zero was. -/
inductive Misuse where
  | zeroReadChunk
  | zeroEventCapacity
deriving DecidableEq, Repr

/-- The text shown for a misuse. -/
def Misuse.message : Misuse → String
  | zeroReadChunk => "read_chunk must be > 0"
  | zeroEventCapacity => "event_capacity must be > 0"

/-- A setting of a client. -/
inductive Setting where
  /-- An address as text. -/
  | addressText (text : String)
  /-- Addresses, of which the first is used. -/
  | addresses (as : List Address)
  | pollTimeout (d : Duration)
  | shutdownGrace (d : Duration)
  | eventCapacity (n : Nat)
  | readChunk (n : Nat)
  | maxPending (n : Nat)
  | policy (p : ConnectPolicy)
  | malformed (m : Text.MalformedPolicy)
deriving DecidableEq

/-- The settings of a client. -/
structure ClientBuilder where
  /-- The address to connect to, or why there is none; `none` if none was given. -/
  address : Option (Except String Address) := none
  loop : LoopConfig := {}
  options : ConnectOptions := {}
deriving Inhabited

namespace ClientBuilder

/-- Adds a setting. -/
def adding (b : ClientBuilder) : Setting → Except Misuse ClientBuilder
  | .addressText text => .ok { b with address := some (Address.resolve text) }
  | .addresses as =>
    let first := match as with
      | [] => .error "no address found"
      | a :: _ => .ok a
    .ok { b with address := some first }
  | .pollTimeout d => .ok { b with loop := { b.loop with pollTimeout := d } }
  | .shutdownGrace d => .ok { b with loop := { b.loop with shutdownGrace := d } }
  | .eventCapacity n =>
    if n = 0 then .error .zeroEventCapacity
    else .ok { b with loop := { b.loop with eventCapacity := n } }
  | .readChunk n =>
    if n = 0 then .error .zeroReadChunk
    else .ok { b with options := { b.options with readChunk := n } }
  | .maxPending n => .ok { b with options := { b.options with maxPending := some n } }
  | .policy p => .ok { b with options := { b.options with policy := p } }
  | .malformed m => .ok { b with options := { b.options with malformed := m } }

/-- Adds settings in order. -/
def addingAll (b : ClientBuilder) (settings : List Setting) : Except Misuse ClientBuilder :=
  settings.foldlM adding b

/-- The address to connect to. -/
def target (b : ClientBuilder) : Except Error Address :=
  match b.address with
  | none => .error (.unresolved "no address configured")
  | some (.error reason) => .error (.unresolved reason)
  | some (.ok a) => .ok a

end ClientBuilder

end TextLink
