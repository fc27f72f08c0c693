import TextLink.Text.Utf8

/-!
# Decoding a stream of octets

A `Decoder` owns what the stream has delivered and text has not yet used up: its `remainder`. Each
`feed` puts the new bytes behind the remainder and hands out what became decodable. A character cut
by the end of a read stays in the remainder until a later read completes it.

Bytes that can never become text are treated as the `MalformedPolicy` says: kept, which holds back
everything behind them for good, or replaced by one `U+FFFD` per malformed part.

## Main results

* `decode_rest`: stateless decoding keeps back exactly what `Utf8.scan` leaves.
-/

namespace TextLink

namespace Text

open Utf8

/-- Takes the longest valid front off a buffer: its text, and the bytes kept back. -/
def decode (buffer : Bytes) : String × Bytes :=
  let s := scan buffer
  (String.ofList s.valid, s.rest)

theorem decode_rest (buffer : Bytes) : (decode buffer).2 = (scan buffer).rest := rfl

/-- What becomes of bytes that can never be part of text. -/
inductive MalformedPolicy where
  /-- They stay in the remainder; nothing behind them is ever decoded. -/
  | retain
  /-- Each malformed part gives one `U+FFFD`, and decoding goes on behind it. -/
  | replace
deriving DecidableEq, Repr, Inhabited

/-- The outcome of decoding with replacement. -/
structure Replaced where
  /-- The text, replacement characters included. -/
  text : List Char
  /-- The octets of a character cut by the end. -/
  rest : Bytes
  /-- How many malformed parts were replaced. -/
  count : Nat
deriving DecidableEq, Repr

/-- Decodes all of `bs` but a character cut by its end, replacing malformed parts. -/
def decodeReplacing (bs : Bytes) : Replaced :=
  match _h : next bs with
  | .ended => ⟨[], [], 0⟩
  | .truncated => ⟨[], bs, 0⟩
  | .char c rest =>
    let r := decodeReplacing rest
    { r with text := c :: r.text }
  | .malformed _ rest =>
    let r := decodeReplacing rest
    { r with text := '\uFFFD' :: r.text, count := r.count + 1 }
termination_by bs.length
decreasing_by
  · exact length_rest_lt_of_char _h
  · exact length_rest_lt_of_malformed _h

/-- The decoder of one stream. -/
structure Decoder where
  policy : MalformedPolicy := .retain
  /-- Bytes received and not yet given out as text. -/
  remainder : Bytes := []
  /-- Malformed parts replaced so far. -/
  replaced : Nat := 0
deriving DecidableEq, Repr, Inhabited

namespace Decoder

/-- Takes in `bytes` and gives out the text that became decodable. -/
def feed (d : Decoder) (bytes : Bytes) : String × Decoder :=
  let buffer := d.remainder ++ bytes
  match d.policy with
  | .retain =>
    let (text, rest) := decode buffer
    (text, { d with remainder := rest })
  | .replace =>
    let r := decodeReplacing buffer
    (String.ofList r.text, { d with remainder := r.rest, replaced := d.replaced + r.count })

/-- Whether the remainder begins with bytes that can never become text. -/
def isStalled (d : Decoder) : Bool :=
  match (scan d.remainder).tail with
  | .malformed _ => true
  | _ => false

/-- Ends the stream: the bytes that never became text. -/
def finish (d : Decoder) : Bytes :=
  d.remainder

end Decoder

end Text

end TextLink
