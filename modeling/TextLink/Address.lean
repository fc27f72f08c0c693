/-!
# Socket addresses

An address is a version 4 or version 6 Internet address with a port; a version 6 address also
carries a flow label and a scope. `Address.text` writes it as it is shown, `Address.layout` as the
kernel takes it.

## Main results

* `length_layout`: a version 4 address takes 16 octets and a version 6 address 28.
-/

namespace TextLink

/-- A version 4 Internet address. -/
structure Ipv4 where
  octets : Vector UInt8 4
deriving DecidableEq, Inhabited

/-- A version 6 Internet address, as eight groups of 16 bits. -/
structure Ipv6 where
  groups : Vector UInt16 8
deriving DecidableEq, Inhabited

/-- An address to connect to. -/
inductive Address where
  | v4 (ip : Ipv4) (port : UInt16)
  | v6 (ip : Ipv6) (port : UInt16) (flow scope : UInt32)
deriving DecidableEq

instance : Inhabited Address := ⟨.v4 default 0⟩

/-- The two families of addresses. -/
inductive Family where
  | v4
  | v6
deriving DecidableEq, Repr

/-- The word shown for a family. -/
def Family.name : Family → String
  | v4 => "v4"
  | v6 => "v6"

/-! ## Text -/

/-- The four octets in decimal, with points between them. -/
def Ipv4.text (ip : Ipv4) : String :=
  ".".intercalate (ip.octets.toList.map fun o => toString o.toNat)

/-- A group in hexadecimal, without leading zeros. -/
def hexGroup (g : UInt16) : String :=
  String.ofList (Nat.toDigits 16 g.toNat)

/-- Groups with colons between them. -/
def hexGroups (gs : List UInt16) : String :=
  ":".intercalate (gs.map hexGroup)

/--
The first longest run of zeros in a list of groups, as its start and its length.

`start` and `length` describe the run that reaches up to the front of the list, `i` is the position
of that front, `best` the longest run so far.
-/
def longestZeros (i start length : Nat) (best : Nat × Nat) : List UInt16 → Nat × Nat
  | [] => best
  | g :: gs =>
    if g = 0 then
      let start := if length = 0 then i else start
      let length := length + 1
      longestZeros (i + 1) start length (if best.2 < length then (start, length) else best) gs
    else longestZeros (i + 1) 0 0 best gs

/-- The version 4 address inside a version 6 address of the form `::ffff:a.b.c.d`. -/
def Ipv6.mapped? (ip : Ipv6) : Option Ipv4 :=
  match ip.groups.toList with
  | [0, 0, 0, 0, 0, 0xFFFF, hi, lo] =>
    some ⟨#v[(hi / 256).toUInt8, hi.toUInt8, (lo / 256).toUInt8, lo.toUInt8]⟩
  | _ => none

/--
The groups in hexadecimal, the first longest run of at least two zero groups left out; an address
that carries a version 4 address shows it in decimal.
-/
def Ipv6.text (ip : Ipv6) : String :=
  match ip.mapped? with
  | some inner => "::ffff:" ++ inner.text
  | none =>
    let gs := ip.groups.toList
    let (start, length) := longestZeros 0 0 0 (0, 0) gs
    if 1 < length then hexGroups (gs.take start) ++ "::" ++ hexGroups (gs.drop (start + length))
    else hexGroups gs

namespace Address

/-- The family of an address. -/
def family : Address → Family
  | v4 .. => .v4
  | v6 .. => .v6

/-- The address as it is shown; a scope appears only if it is not zero. -/
def text : Address → String
  | v4 ip port => s!"{ip.text}:{port.toNat}"
  | v6 ip port _ scope =>
    let zone := if scope = 0 then "" else s!"%{scope.toNat}"
    s!"[{ip.text}{zone}]:{port.toNat}"

/-! ## Layout -/

/-- Two octets, the more significant one first. -/
def bigEndian16 (n : UInt16) : List UInt8 := [(n / 256).toUInt8, n.toUInt8]

/-- Four octets, the least significant one first. -/
def littleEndian32 (n : UInt32) : List UInt8 :=
  [n.toUInt8, (n / 256).toUInt8, (n / 65536).toUInt8, (n / 16777216).toUInt8]

/--
The octets of the structure the kernel takes, on a machine that stores the least significant octet
first.

The family number is in machine order, as are flow label and scope; the port and the address are in
network order. A version 4 address is followed by eight unused octets.
-/
def layout : Address → List UInt8
  | v4 ip port => [2, 0] ++ bigEndian16 port ++ ip.octets.toList ++ List.replicate 8 0
  | v6 ip port flow scope =>
    [10, 0] ++ bigEndian16 port ++ littleEndian32 flow ++ ip.groups.toList.flatMap bigEndian16
      ++ littleEndian32 scope

/-- How many octets the kernel is told the structure has. -/
def layoutLength : Address → Nat
  | v4 .. => 16
  | v6 .. => 28

/-- The octets of the storage the structure is handed over in, which has room for any family. -/
def storage (a : Address) : List UInt8 :=
  a.layout ++ List.replicate (128 - a.layout.length) 0

theorem length_layout (a : Address) : a.layout.length = a.layoutLength := by
  cases a <;>
    simp [layout, layoutLength, bigEndian16, littleEndian32, List.length_flatMap, List.map_const']

end Address

end TextLink
