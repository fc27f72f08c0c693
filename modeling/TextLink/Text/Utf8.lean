/-!
# UTF-8: writing text and recognising it in octets

Encoding is the standard one, a character at a time. Recognising is driven by one table: the lead
octet of a character decides how many octets follow and in which range each of them lies
(`following`). Overlong forms, surrogates and code points above `U+10FFFF` are shut out by the
range of the *second* octet alone, so no decoded value ever has to be checked afterwards.

`next` reads one character off the front of a byte sequence and tells apart the three ways in which
there may be none: nothing is left, the octets stop inside a character, or no character starts this
way. `scan` repeats it.

## The fact the design rests on

What `next` answers about a byte sequence does not change when bytes are appended, unless the answer
was that the sequence stops too early. A reader may therefore cut a stream anywhere
and lose nothing by keeping back a truncated character.

## Main results

* `next_append_of_char`, `next_append_of_malformed`: those answers stay under appending.
* `length_rest_lt_of_char`, `length_rest_lt_of_malformed`: and each of them consumes.
-/

namespace TextLink

/-- A sequence of octets. -/
abbrev Bytes := List UInt8

namespace Text.Utf8

/-! ## Writing -/

/-- The UTF-8 octets of `text`. -/
def encode (text : String) : Bytes :=
  text.toList.flatMap String.utf8EncodeChar

/-! ## The table of characters -/

/-- An inclusive range of octets. -/
structure OctetRange where
  lo : UInt8
  hi : UInt8
deriving DecidableEq, Repr

/-- Whether `b` lies in the range. -/
def OctetRange.holds (r : OctetRange) (b : UInt8) : Bool :=
  r.lo ≤ b && b ≤ r.hi

/-- The range of an unrestricted continuation octet. -/
def continuation : OctetRange := ⟨0x80, 0xBF⟩

/--
The ranges of the octets that follow a lead octet, in order; `none` where `lead` starts no
character.

The second octet is restricted after `E0` and `F0` (shorter forms exist), after `ED` (surrogates)
and after `F4` (above `U+10FFFF`).
-/
def following (lead : UInt8) : Option (List OctetRange) :=
  if lead ≤ 0x7F then some []
  else if lead ≤ 0xC1 then none
  else if lead ≤ 0xDF then some [continuation]
  else if lead = 0xE0 then some [⟨0xA0, 0xBF⟩, continuation]
  else if lead = 0xED then some [⟨0x80, 0x9F⟩, continuation]
  else if lead ≤ 0xEF then some [continuation, continuation]
  else if lead = 0xF0 then some [⟨0x90, 0xBF⟩, continuation, continuation]
  else if lead ≤ 0xF3 then some [continuation, continuation, continuation]
  else if lead = 0xF4 then some [⟨0x80, 0x8F⟩, continuation, continuation]
  else none

/-! ## Fitting octets to ranges -/

/-- How the front of a byte sequence fits a list of ranges. -/
inductive Fit where
  /-- Every range is met: the octets that met them, and what follows. -/
  | full (taken rest : Bytes)
  /-- The octets run out while all of them fit. -/
  | short
  /-- The octet after the first `matched` ones misses its range. -/
  | broken (matched : Nat)
deriving DecidableEq, Repr

/-- Records one more fitting octet in front. -/
def Fit.push (b : UInt8) : Fit → Fit
  | full taken rest => full (b :: taken) rest
  | short => short
  | broken matched => broken (matched + 1)

/-- Fits the front of a byte sequence to `ranges`, an octet to a range. -/
def fit : List OctetRange → Bytes → Fit
  | [], bs => .full [] bs
  | _ :: _, [] => .short
  | r :: rs, b :: bs => if r.holds b then (fit rs bs).push b else .broken 0

theorem length_of_fit_eq_full {rs : List OctetRange} {bs taken rest : Bytes}
    (h : fit rs bs = .full taken rest) : bs = taken ++ rest ∧ taken.length = rs.length := by
  induction rs generalizing bs taken with
  | nil => simp only [fit, Fit.full.injEq] at h; simp [← h.1, ← h.2]
  | cons r rs ih =>
    cases bs with
    | nil => simp [fit] at h
    | cons b bs =>
      simp only [fit] at h
      split at h
      · cases hf : fit rs bs with
        | full t r' =>
          simp only [hf, Fit.push, Fit.full.injEq] at h
          obtain ⟨rfl, rfl⟩ := h
          obtain ⟨h1, h2⟩ := ih hf
          simp [h1, h2]
        | short => simp [hf, Fit.push] at h
        | broken _ => simp [hf, Fit.push] at h
      · simp at h

theorem lt_length_of_fit_eq_broken {rs : List OctetRange} {bs : Bytes} {n : Nat}
    (h : fit rs bs = .broken n) : n < bs.length := by
  induction rs generalizing bs n with
  | nil => simp [fit] at h
  | cons r rs ih =>
    cases bs with
    | nil => simp [fit] at h
    | cons b bs =>
      simp only [fit] at h
      split at h
      · cases hf : fit rs bs with
        | full t r' => simp [hf, Fit.push] at h
        | short => simp [hf, Fit.push] at h
        | broken m =>
          simp only [hf, Fit.push, Fit.broken.injEq] at h
          have := ih hf
          simp only [List.length_cons]
          omega
      · simp only [Fit.broken.injEq] at h
        simp [← h]

theorem fit_append_of_full {rs : List OctetRange} {bs taken rest : Bytes} (more : Bytes)
    (h : fit rs bs = .full taken rest) : fit rs (bs ++ more) = .full taken (rest ++ more) := by
  induction rs generalizing bs taken with
  | nil => simp_all [fit]
  | cons r rs ih =>
    cases bs with
    | nil => simp [fit] at h
    | cons b bs =>
      simp only [fit] at h
      split at h
      · rename_i hb
        cases hf : fit rs bs with
        | full t r' =>
          simp only [hf, Fit.push, Fit.full.injEq] at h
          obtain ⟨rfl, rfl⟩ := h
          simp [fit, hb, ih hf, Fit.push]
        | short => simp [hf, Fit.push] at h
        | broken _ => simp [hf, Fit.push] at h
      · simp at h

theorem fit_append_of_broken {rs : List OctetRange} {bs : Bytes} {n : Nat} (more : Bytes)
    (h : fit rs bs = .broken n) : fit rs (bs ++ more) = .broken n := by
  induction rs generalizing bs n with
  | nil => simp [fit] at h
  | cons r rs ih =>
    cases bs with
    | nil => simp [fit] at h
    | cons b bs =>
      simp only [fit] at h
      split at h
      · rename_i hb
        cases hf : fit rs bs with
        | full t r' => simp [hf, Fit.push] at h
        | short => simp [hf, Fit.push] at h
        | broken m =>
          simp only [hf, Fit.push, Fit.broken.injEq] at h
          simp [fit, hb, ih hf, Fit.push, h]
      · rename_i hb
        simp only [Fit.broken.injEq] at h
        simp [fit, hb, h]

/-! ## One character -/

/--
The character whose octets are `lead` followed by `tail`.

A continuation octet carries six bits; the lead carries what its length marker leaves free.
-/
def assemble (lead : UInt8) (tail : Bytes) : Char :=
  let payload := if tail.isEmpty then lead.toNat else lead.toNat % 1 <<< (6 - tail.length)
  Char.ofNat (tail.foldl (fun v b => v * 64 + b.toNat % 64) payload)

/-- What stands at the front of a byte sequence. -/
inductive Next where
  /-- Nothing: the sequence is empty. -/
  | ended
  /-- A character, and the bytes after it. -/
  | char (c : Char) (rest : Bytes)
  /-- The sequence stops inside a character. -/
  | truncated
  /-- The first `len` octets belong to no character, whatever follows; `rest` is what follows. -/
  | malformed (len : Nat) (rest : Bytes)
deriving DecidableEq, Repr

/--
Reads one character off the front.

A malformed part is the longest run of octets that starts some character, or the single octet that
starts none.
-/
def next : Bytes → Next
  | [] => .ended
  | lead :: bs =>
    match following lead with
    | none => .malformed 1 bs
    | some ranges =>
      match fit ranges bs with
      | .full taken rest => .char (assemble lead taken) rest
      | .short => .truncated
      | .broken matched => .malformed (matched + 1) (bs.drop matched)

theorem length_rest_lt_of_char {bs rest : Bytes} {c : Char} (h : next bs = .char c rest) :
    rest.length < bs.length := by
  cases bs with
  | nil => simp [next] at h
  | cons lead bs =>
    simp only [next] at h
    split at h
    · simp at h
    · rename_i ranges _
      cases hf : fit ranges bs with
      | full taken r =>
        simp only [hf, Next.char.injEq] at h
        have := (length_of_fit_eq_full hf).1
        simp only [this, ← h.2, List.length_cons, List.length_append]
        omega
      | short => simp [hf] at h
      | broken _ => simp [hf] at h

theorem length_rest_lt_of_malformed {bs rest : Bytes} {n : Nat} (h : next bs = .malformed n rest) :
    rest.length < bs.length := by
  cases bs with
  | nil => simp [next] at h
  | cons lead bs =>
    simp only [next] at h
    split at h
    · simp only [Next.malformed.injEq] at h
      simp [← h.2]
    · rename_i ranges _
      cases hf : fit ranges bs with
      | full taken r => simp [hf] at h
      | short => simp [hf] at h
      | broken m =>
        simp only [hf, Next.malformed.injEq] at h
        simp only [← h.2, List.length_drop, List.length_cons]
        omega

theorem next_append_of_char {bs rest : Bytes} {c : Char} (more : Bytes)
    (h : next bs = .char c rest) : next (bs ++ more) = .char c (rest ++ more) := by
  cases bs with
  | nil => simp [next] at h
  | cons lead bs =>
    simp only [next, List.cons_append] at h ⊢
    split at h
    · simp at h
    · rename_i ranges _
      cases hf : fit ranges bs with
      | full taken r =>
        simp only [hf, Next.char.injEq] at h
        simp [fit_append_of_full more hf, h]
      | short => simp [hf] at h
      | broken _ => simp [hf] at h

theorem next_append_of_malformed {bs rest : Bytes} {n : Nat} (more : Bytes)
    (h : next bs = .malformed n rest) : next (bs ++ more) = .malformed n (rest ++ more) := by
  cases bs with
  | nil => simp [next] at h
  | cons lead bs =>
    simp only [next, List.cons_append] at h ⊢
    split at h
    · simp only [Next.malformed.injEq] at h
      simp [h]
    · rename_i ranges _
      cases hf : fit ranges bs with
      | full taken r => simp [hf] at h
      | short => simp [hf] at h
      | broken m =>
        simp only [hf, Next.malformed.injEq] at h
        have hm := Nat.le_of_lt (lt_length_of_fit_eq_broken hf)
        simp [fit_append_of_broken more hf, List.drop_append_of_le_length hm, h]

/-! ## A whole sequence -/

/-- What follows the valid front of a byte sequence. -/
inductive Tail where
  /-- Nothing. -/
  | complete
  /-- The first `len` octets of a character, and the end. -/
  | incomplete (len : Nat)
  /-- `len` octets that start no character. -/
  | malformed (len : Nat)
deriving DecidableEq, Repr

/-- A byte sequence split behind its longest valid front. -/
structure Scan where
  /-- The characters of the valid front. -/
  valid : List Char
  /-- The bytes behind it. -/
  rest : Bytes
  /-- What those bytes are. -/
  tail : Tail
deriving DecidableEq, Repr

/-- How many bytes the valid front takes. -/
def Scan.validUpTo (s : Scan) : Nat :=
  s.valid.foldr (fun c rest => c.utf8Size + rest) 0

/-- Splits `bs` behind its longest valid front. -/
def scan (bs : Bytes) : Scan :=
  match _h : next bs with
  | .ended => ⟨[], [], .complete⟩
  | .char c rest =>
    let s := scan rest
    { s with valid := c :: s.valid }
  | .truncated => ⟨[], bs, .incomplete bs.length⟩
  | .malformed len _ => ⟨[], bs, .malformed len⟩
termination_by bs.length
decreasing_by exact length_rest_lt_of_char _h

end Text.Utf8

end TextLink
