import TextLink.Address.Reading

/-!
# Hosts given by number

A text that is no socket address still names a host and a port if it has a colon: the port follows
the last one. Names of hosts are not known here, only hosts given by number, and more ways to write
a number are allowed than in a socket address.

* A version 4 address is one to four numbers with dots between them, each in decimal, in octal after
  a leading zero, or in hexadecimal after `0x`. Every number but the last is one octet; the last one
  fills the octets that are left, so that `127.1` is `127.0.0.1`.
* A version 6 address stands without brackets. The zone after a percent sign is a number; on an
  address that means nothing beyond a link it may also be the name of a network interface.

## Main results

* `Reader.dotted_lt`: what dotted numbers stand for fits the octets they are read into.
-/

namespace TextLink

/-! ## Dotted numbers -/

namespace Reader

/-- Reads a 32-bit number, whose base its first characters tell. -/
def numeral : Reader Nat
  | '0' :: 'x' :: cs | '0' :: 'X' :: cs => number 16 (1 <<< 32) none true cs
  | '0' :: cs => number 8 (1 <<< 32) none true ('0' :: cs)
  | cs => number 10 (1 <<< 32) none true cs

/-- Reads dotted numbers that fill `room` octets, as the one number that these octets make. -/
def dotted : Nat → Reader Nat
  | 0, _ => none
  | room + 1, cs => do
    let (n, rest) ← numeral cs
    match rest with
    | '.' :: rest =>
      let (low, rest) ← dotted room rest
      if n < 256 then some (n <<< (8 * room) + low, rest) else none
    | _ => if n < 1 <<< (8 * (room + 1)) then some (n, rest) else none

theorem dotted_lt {room n : Nat} {cs rest : List Char} (h : dotted room cs = some (n, rest)) :
    n < 1 <<< (8 * room) := by
  induction room generalizing cs n rest with
  | zero => simp [dotted] at h
  | succ room ih =>
    simp only [dotted, Option.bind_eq_bind, Option.bind_eq_some_iff] at h
    obtain ⟨⟨first, after⟩, -, h⟩ := h
    split at h
    · simp only [Option.bind_eq_some_iff] at h
      obtain ⟨⟨low, last⟩, hlow, h⟩ := h
      have hlow := ih hlow
      split at h
      · next hfirst =>
        simp only [Option.some.injEq, Prod.mk.injEq] at h
        obtain ⟨rfl, -⟩ := h
        rw [Nat.one_shiftLeft] at hlow
        rw [Nat.one_shiftLeft, Nat.mul_succ, Nat.pow_add, Nat.shiftLeft_eq]
        have := Nat.mul_le_mul_left (2 ^ (8 * room)) hfirst
        rw [Nat.mul_succ, Nat.mul_comm _ first] at this
        omega
      · simp at h
    · split at h
      · next hfirst =>
        simp only [Option.some.injEq, Prod.mk.injEq] at h
        omega
      · simp at h

end Reader

namespace Ipv4

/-- The address whose octets make the number `n`, the first one being the most significant. -/
def ofNat (n : Nat) : Ipv4 :=
  ⟨#v[(n / 16777216).toUInt8, (n / 65536).toUInt8, (n / 256).toUInt8, n.toUInt8]⟩

/-- The version 4 address that dotted numbers stand for. -/
def ofDotted? (text : String) : Option Ipv4 :=
  (Reader.whole? (Reader.dotted 4) text).map ofNat

end Ipv4

/-! ## Zones -/

namespace Ipv6

/-- Whether the address means nothing beyond a link: one of a host on the local link, or of a group
within an interface or a link. -/
def staysOnLink (ip : Ipv6) : Bool :=
  let front := ip.groups[0]
  let group := front &&& 0xff0f
  front &&& 0xffc0 == 0xfe80 || group == 0xff01 || group == 0xff02

end Ipv6

/-- How many bytes the name of an interface has at most. -/
def maxInterfaceName : Nat := 15

/-- The number of a network interface; the loopback one is always there and comes first. A label may
follow the name after a colon. -/
def interfaceNumber? (name : String) : Option UInt32 :=
  if name.utf8ByteSize ≤ maxInterfaceName ∧ name.toList.takeWhile (· ≠ ':') = ['l', 'o'] then some 1
  else none

/-- The number of a zone written as `text`. -/
def zoneNumber? (text : String) : Option UInt32 :=
  (Reader.whole? (Reader.number 10 (1 <<< 32) none true) text).map Nat.toUInt32

namespace Ipv6

/-- The zone that `text` stands for after the address. -/
def zone? (ip : Ipv6) (text : String) : Option UInt32 :=
  match if ip.staysOnLink then interfaceNumber? text else none with
  | some n => some n
  | none => zoneNumber? text

/-- A version 6 address and its zone, which is zero if none is given. -/
def ofZoned? (text : String) : Option (Ipv6 × UInt32) := do
  let (ip, rest) ← Reader.ipv6 text.toList
  match rest with
  | [] => some (ip, 0)
  | '%' :: zone => (ip.zone? (String.ofList zone)).map fun n => (ip, n)
  | _ => none

end Ipv6

/-! ## Hosts and ports -/

namespace Address

/-- The port written as `text`: decimal digits, after an optional plus sign. -/
def portOfText? (text : String) : Option UInt16 :=
  let cs := text.toList
  let digits := if cs.head? = some '+' then cs.tail else cs
  match Reader.number 10 65536 none true digits with
  | some (n, []) => some n.toUInt16
  | _ => none

/-- The address of a host given by number. -/
def ofHost? (host : String) (port : UInt16) : Option Address :=
  match Ipv4.ofDotted? host with
  | some ip => some (.v4 ip port)
  | none => (Ipv6.ofZoned? host).map fun (ip, zone) => .v6 ip port 0 zone

/-- Splits a text at its last colon. -/
def splitAtLastColon? (text : String) : Option (String × String) :=
  let back := text.toList.reverse
  let port := back.takeWhile (· ≠ ':')
  match back.drop port.length with
  | [] => none
  | _ :: host => some (String.ofList host.reverse, String.ofList port.reverse)

/-- The address a text stands for, or why it stands for none. -/
def resolve (text : String) : Except String Address :=
  match ofText? text with
  | some a => .ok a
  | none =>
    match splitAtLastColon? text with
    | none => .error "invalid socket address"
    | some (host, port) =>
      match portOfText? port with
      | none => .error "invalid port value"
      | some p =>
        if host.toList.contains '\x00' then .error "file name contained an unexpected NUL byte"
        else
          match ofHost? host p with
          | some a => .ok a
          | none => .error "failed to lookup address information: Name or service not known"

end Address

end TextLink
