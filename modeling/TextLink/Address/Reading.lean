import TextLink.Address

/-!
# Reading addresses from text

The grammar of an address in text: a version 4 address is four decimal numbers without leading
zeros; a version 6 address is up to eight groups of at most four hexadecimal digits, of which one
run may be left out as `::` and the last two may be a version 4 address. A version 6 address stands
in brackets before a port, with an optional scope after a percent sign.

Every reader takes what it needs off the front of the text and gives back the rest, or fails and has
taken nothing.
-/

namespace TextLink

/-- Reads from the front of a text. -/
abbrev Reader (α : Type) := List Char → Option (α × List Char)

namespace Reader

/-- Reads the one character `c`. -/
def exactly (c : Char) : Reader Unit
  | d :: rest => if d = c then some ((), rest) else none
  | [] => none

/-- The value of a digit in base `base`, upper and lower case letters alike. -/
def digit? (base : Nat) (c : Char) : Option Nat :=
  let v :=
    if c.isDigit then some (c.toNat - '0'.toNat)
    else if 'a' ≤ c ∧ c ≤ 'f' then some (c.toNat - 'a'.toNat + 10)
    else if 'A' ≤ c ∧ c ≤ 'F' then some (c.toNat - 'A'.toNat + 10)
    else none
  v.filter (· < base)

/-- The value of a sequence of digits. -/
def digitsValue (base : Nat) (ds : List Char) : Nat :=
  ds.foldl (fun v c => v * base + (digit? base c).getD 0) 0

/--
Reads the longest run of digits as a number below `bound`.

It must have a digit, and at most `most` of them where `most` is given. Without `zeros`, a number
that begins with zero is zero written with one digit.
-/
def number (base bound : Nat) (most : Option Nat) (zeros : Bool) : Reader Nat := fun cs =>
  let ds := cs.takeWhile fun c => (digit? base c).isSome
  let v := digitsValue base ds
  if ds.isEmpty || most.any (· < ds.length) || (!zeros && ds.head? == some '0' && 1 < ds.length)
      || bound ≤ v then none
  else some (v, cs.drop ds.length)

/-- Reads with `r`, after the separator `sep` unless it is the first of a sequence. -/
def separated {α : Type} (sep : Char) (first : Bool) (r : Reader α) : Reader α := fun cs =>
  if first then r cs
  else do
    let (_, cs) ← exactly sep cs
    r cs

/-- One octet of a version 4 address. -/
def octet : Reader UInt8 := fun cs => do
  let (n, cs) ← number 10 256 (some 3) false cs
  some (n.toUInt8, cs)

/-- Reads a version 4 address. -/
def ipv4 : Reader Ipv4 := fun cs => do
  let (a, cs) ← octet cs
  let (b, cs) ← separated '.' false octet cs
  let (c, cs) ← separated '.' false octet cs
  let (d, cs) ← separated '.' false octet cs
  some (⟨#v[a, b, c, d]⟩, cs)

/--
Reads up to `room` groups of a version 6 address, with colons between them.

Where room for two groups is left, a version 4 address may stand for them; it ends the sequence, and
the second component tells that it was there.
-/
def groups (first : Bool) : Nat → List Char → (List UInt16 × Bool) × List Char
  | 0, cs => (([], false), cs)
  | room + 1, cs =>
    let inner := if 1 ≤ room then separated ':' first ipv4 cs else none
    match inner with
    | some (ip, rest) =>
      let o := ip.octets
      let pair (hi lo : UInt8) : UInt16 := hi.toUInt16 * 256 + lo.toUInt16
      (([pair o[0] o[1], pair o[2] o[3]], true), rest)
    | none =>
      match separated ':' first (number 16 65536 (some 4) true) cs with
      | none => (([], false), cs)
      | some (g, rest) =>
        let ((gs, hasInner), rest) := groups false room rest
        ((g.toUInt16 :: gs, hasInner), rest)

/-- Eight groups as an address, if there are eight. -/
def ofGroups? (gs : List UInt16) : Option Ipv6 :=
  if h : gs.length = 8 then some ⟨⟨gs.toArray, by simpa using h⟩⟩ else none

/-- Reads a version 6 address. -/
def ipv6 : Reader Ipv6 := fun cs => do
  let ((front, hasInner), cs) := groups true 8 cs
  if front.length = 8 then
    let ip ← ofGroups? front
    some (ip, cs)
  else if hasInner then none
  else
    let (_, cs) ← exactly ':' cs
    let (_, cs) ← exactly ':' cs
    let ((back, _), cs) := groups true (7 - front.length) cs
    let ip ← ofGroups? (front ++ List.replicate (8 - front.length - back.length) 0 ++ back)
    some (ip, cs)

/-- Reads a colon and a port. -/
def port : Reader UInt16 := fun cs => do
  let (_, cs) ← exactly ':' cs
  let (n, cs) ← number 10 65536 none true cs
  some (n.toUInt16, cs)

/-- Reads a percent sign and a scope. -/
def scope : Reader UInt32 := fun cs => do
  let (_, cs) ← exactly '%' cs
  let (n, cs) ← number 10 4294967296 none true cs
  some (n.toUInt32, cs)

/-- Reads a version 4 address and a port. -/
def addressV4 : Reader Address := fun cs => do
  let (ip, cs) ← ipv4 cs
  let (p, cs) ← port cs
  some (.v4 ip p, cs)

/-- Reads a version 6 address in brackets, with or without a scope, and a port. -/
def addressV6 : Reader Address := fun cs => do
  let (_, cs) ← exactly '[' cs
  let (ip, cs) ← ipv6 cs
  let (zone, cs) := (scope cs).getD (0, cs)
  let (_, cs) ← exactly ']' cs
  let (p, cs) ← port cs
  some (.v6 ip p 0 zone, cs)

/-- What `r` reads, provided it reads the whole text. -/
def whole? {α : Type} (r : Reader α) (text : String) : Option α :=
  match r text.toList with
  | some (a, []) => some a
  | _ => none

end Reader

namespace Ipv4

/-- The version 4 address written as `text`. -/
def ofText? (text : String) : Option Ipv4 := Reader.whole? Reader.ipv4 text

end Ipv4

namespace Address

/-- The address written as `text`. -/
def ofText? (text : String) : Option Address :=
  match Reader.whole? Reader.addressV4 text with
  | some a => some a
  | none => Reader.whole? Reader.addressV6 text

end Address

end TextLink
