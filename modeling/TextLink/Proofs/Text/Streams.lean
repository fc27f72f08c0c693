import TextLink.Proofs.Text.Characters
import TextLink.Text.Decoder

/-!
# Decoding does not depend on where the stream is cut

A `Decoder` sees a stream in pieces of the network's choosing. This module says what it makes of the
stream as a whole, and that the pieces leave no trace in it.

What is well-formed is said by the standard encoding alone: `WellFormed` sequences are encodings of
characters one after the other. A decoder that retains malformed octets gives out the longest
well-formed front of what it was fed. A decoder that replaces them gives out the stream's `Dissects`
relation: characters as they are, one `U+FFFD` for each maximal malformed part, and at the end
nothing, or a character cut short, which it keeps.

Both arguments run over the pieces with the same invariant: what was fed so far is what was given
out, followed by the remainder, and no character stands at the front of the remainder. When more is
appended, the parts already read are read again the same way, because `next` does not change its
mind.

## Main results

* `longestValidFront_feedAll` — retaining: the longest well-formed front, then the rest.
* `dissects_feedAll` — replacing: the same as one feed of everything, and what that is.
-/

namespace TextLink.Text

open Utf8
open String (utf8EncodeChar)

/-! ## Well-formed sequences -/

namespace Utf8

/-- Well-formed UTF-8: encodings of characters, one after the other. -/
def WellFormed (bs : Bytes) : Prop := ∃ cs : List Char, bs = cs.flatMap utf8EncodeChar

/-- `front` is the longest well-formed front of `bs`. -/
structure LongestValidFront (front bs : Bytes) : Prop where
  wellFormed : WellFormed front
  isFront : front <+: bs
  longest : ∀ other, WellFormed other → other <+: bs → other.length ≤ front.length

/-- No character stands at the front of the octets. -/
def Stuck (bs : Bytes) : Prop := ∀ c rest, next bs ≠ .char c rest

/-- Characters in front of octets that are stuck are a longest well-formed front. -/
theorem longestValidFront_of_stuck (cs : List Char) {rest : Bytes} (h : Stuck rest) :
    LongestValidFront (cs.flatMap utf8EncodeChar) (cs.flatMap utf8EncodeChar ++ rest) := by
  refine ⟨⟨cs, rfl⟩, List.prefix_append _ _, ?_⟩
  rintro other ⟨ds, rfl⟩ hprefix
  induction ds generalizing cs with
  | nil => simp
  | cons d ds ih =>
      obtain ⟨t, ht⟩ := hprefix
      rw [List.flatMap_cons, List.append_assoc] at ht
      have hd := next_utf8EncodeChar_append d (ds.flatMap utf8EncodeChar ++ t)
      rw [ht] at hd
      cases cs with
      | nil => exact absurd hd (h _ _)
      | cons c cs =>
          rw [List.flatMap_cons, List.append_assoc, next_utf8EncodeChar_append] at hd
          obtain ⟨rfl, hrest⟩ := Next.char.inj hd
          have := ih cs ⟨t, hrest.symm⟩
          simp only [List.flatMap_cons, List.length_append]
          omega

/-- A scan takes characters off the front until the rest is stuck. -/
theorem scan_eq (bs : Bytes) :
    (scan bs).valid.flatMap utf8EncodeChar ++ (scan bs).rest = bs ∧ Stuck (scan bs).rest := by
  fun_induction scan bs with
  | case1 bs h =>
      constructor
      · exact (next_eq_ended_iff.1 h).symm
      · intro c rest
        simp [next]
  | case2 bs c rest h s ih =>
      constructor
      · rw [next_eq_char_iff.1 h, List.flatMap_cons, List.append_assoc, ih.1]
      · exact ih.2
  | case3 bs h => exact ⟨rfl, fun c rest => by simp [h]⟩
  | case4 bs n rest h => exact ⟨rfl, fun c rest => by simp [h]⟩

end Utf8

/-! ## What a stream consists of -/

/-- A part of a stream of octets. -/
inductive Part where
  | char (c : Char)
  /-- A maximal malformed part, with its octets. -/
  | malformed (bad : Bytes)
deriving DecidableEq

namespace Part

/-- The character given out for a part. -/
def shown : Part → Char
  | char c => c
  | malformed _ => '\uFFFD'

/-- Whether the part is malformed. -/
def isMalformed : Part → Bool
  | char _ => false
  | malformed _ => true

end Part

/--
`bs` consists of `parts`, in order, and of `tail`.

Each part is a character or a maximal malformed part, and `tail` is empty or a character cut short.
-/
inductive Dissects : Bytes → List Part → Bytes → Prop
  | ended : Dissects [] [] []
  | cut {bs : Bytes} : CutShort bs → Dissects bs [] bs
  | char {rest tail : Bytes} {parts : List Part} (c : Char) :
      Dissects rest parts tail → Dissects (utf8EncodeChar c ++ rest) (.char c :: parts) tail
  | malformed {bad rest tail : Bytes} {parts : List Part} :
      MalformedPart bad rest → Dissects rest parts tail →
        Dissects (bad ++ rest) (.malformed bad :: parts) tail

namespace Dissects

variable {bs rest more tail tail' : Bytes} {parts parts' : List Part}

/-- What is left at the end is nothing, or a character cut short. -/
theorem tail_cut (h : Dissects bs parts tail) : tail = [] ∨ CutShort tail := by
  induction h with
  | ended => exact .inl rfl
  | cut hcut => exact .inr hcut
  | char _ _ ih => exact ih
  | malformed _ _ ih => exact ih

/-- Reading on where a dissection stopped: the parts are found again when more is appended. -/
theorem append (h : Dissects bs parts tail) (h' : Dissects (tail ++ more) parts' tail') :
    Dissects (bs ++ more) (parts ++ parts') tail' := by
  induction h with
  | ended => exact h'
  | cut _ => exact h'
  | char c _ ih =>
      rw [List.append_assoc]
      exact .char c (ih h')
  | @malformed bad rest _ _ hbad _ ih =>
      have hnext : next (bad ++ rest) = .malformed bad.length rest :=
        next_eq_malformed_iff.2 ⟨bad, rfl, rfl, hbad⟩
      obtain ⟨bad', he, hlen, hbad'⟩ :=
        next_eq_malformed_iff.1 (next_append_of_malformed more hnext)
      rw [List.append_assoc] at he
      obtain ⟨rfl, -⟩ := List.append_inj he hlen.symm
      rw [List.append_assoc]
      exact .malformed hbad' (ih h')

/-- What stands at the front decides the first part. -/
theorem next_cases (h : Dissects bs parts tail) :
    (next bs = .ended ∧ parts = [] ∧ tail = []) ∨
    (next bs = .truncated ∧ parts = [] ∧ tail = bs) ∨
    (∃ c rest later, next bs = .char c rest ∧ parts = .char c :: later ∧
      Dissects rest later tail) ∨
    (∃ bad rest later, next bs = .malformed bad.length rest ∧ bs = bad ++ rest ∧
      parts = .malformed bad :: later ∧ Dissects rest later tail) := by
  cases h with
  | ended => exact .inl ⟨rfl, rfl, rfl⟩
  | cut hcut => exact .inr (.inl ⟨next_eq_truncated_iff.2 hcut, rfl, rfl⟩)
  | char c hrest =>
      exact .inr (.inr (.inl ⟨c, _, _, next_utf8EncodeChar_append c _, rfl, hrest⟩))
  | malformed hbad hrest =>
      exact .inr (.inr (.inr
        ⟨_, _, _, next_eq_malformed_iff.2 ⟨_, rfl, rfl, hbad⟩, rfl, rfl, hrest⟩))

/-- A stream consists of its parts in one way only. -/
theorem unique (h : Dissects bs parts tail) (h' : Dissects bs parts' tail') :
    parts' = parts ∧ tail' = tail := by
  induction h generalizing parts' with
  | ended =>
      rcases h'.next_cases with ⟨_, hp, ht⟩ | ⟨hn, _⟩ | ⟨_, _, _, hn, _⟩ | ⟨_, _, _, hn, _⟩
      · exact ⟨hp, ht⟩
      all_goals cases hn
  | cut hcut =>
      have hnext := next_eq_truncated_iff.2 hcut
      rcases h'.next_cases with ⟨hn, _⟩ | ⟨_, hp, ht⟩ | ⟨_, _, _, hn, _⟩ | ⟨_, _, _, hn, _⟩
      · cases hnext.symm.trans hn
      · exact ⟨hp, ht⟩
      all_goals cases hnext.symm.trans hn
  | @char rest tail later c _ ih =>
      have hnext := next_utf8EncodeChar_append c rest
      rcases h'.next_cases with ⟨hn, _⟩ | ⟨hn, _⟩ | ⟨d, r, ps, hn, rfl, hps⟩ | ⟨_, _, _, hn, _⟩
      · cases hnext.symm.trans hn
      · cases hnext.symm.trans hn
      · obtain ⟨rfl, rfl⟩ := Next.char.inj (hnext.symm.trans hn)
        obtain ⟨rfl, rfl⟩ := ih hps
        exact ⟨rfl, rfl⟩
      · cases hnext.symm.trans hn
  | @malformed bad rest tail later hbad _ ih =>
      have hnext : next (bad ++ rest) = .malformed bad.length rest :=
        next_eq_malformed_iff.2 ⟨bad, rfl, rfl, hbad⟩
      rcases h'.next_cases with
        ⟨hn, _⟩ | ⟨hn, _⟩ | ⟨_, _, _, hn, _⟩ | ⟨bad', r, ps, hn, he, rfl, hps⟩
      · cases hnext.symm.trans hn
      · cases hnext.symm.trans hn
      · cases hnext.symm.trans hn
      · obtain ⟨hlen, rfl⟩ := Next.malformed.inj (hnext.symm.trans hn)
        obtain ⟨rfl, -⟩ := List.append_inj he hlen
        obtain ⟨rfl, rfl⟩ := ih hps
        exact ⟨rfl, rfl⟩

end Dissects

/-- Decoding with replacement goes by the parts of the stream. -/
theorem dissects_decodeReplacing (bs : Bytes) : ∃ parts,
    Dissects bs parts (decodeReplacing bs).rest ∧
      (decodeReplacing bs).text = parts.map Part.shown ∧
      (decodeReplacing bs).count = parts.countP Part.isMalformed := by
  fun_induction decodeReplacing bs with
  | case1 bs h =>
      obtain rfl := next_eq_ended_iff.1 h
      exact ⟨[], .ended, rfl, rfl⟩
  | case2 bs h => exact ⟨[], .cut (next_eq_truncated_iff.1 h), rfl, rfl⟩
  | case3 bs c rest h r ih =>
      obtain ⟨parts, hparts, htext, hcount⟩ := ih
      obtain rfl := next_eq_char_iff.1 h
      use .char c :: parts, .char c hparts
      constructor
      · exact congrArg (c :: ·) htext
      · exact hcount
  | case4 bs n rest h r ih =>
      obtain ⟨parts, hparts, htext, hcount⟩ := ih
      obtain ⟨bad, rfl, -, hbad⟩ := next_eq_malformed_iff.1 h
      use .malformed bad :: parts, .malformed hbad hparts
      constructor
      · exact congrArg ('\uFFFD' :: ·) htext
      · rw [List.countP_cons_of_pos rfl]
        exact congrArg (· + 1) hcount

/-! ## Feeding pieces -/

namespace Decoder

/-- Feeds pieces in order: the texts given out, and the decoder left. -/
def feedAll (d : Decoder) : List Bytes → List String × Decoder
  | [] => ([], d)
  | piece :: pieces =>
    let (text, d) := d.feed piece
    let (texts, d) := d.feedAll pieces
    (text :: texts, d)

theorem feedAll_cons (d : Decoder) (piece : Bytes) (pieces : List Bytes) :
    d.feedAll (piece :: pieces) =
      ((d.feed piece).1 :: ((d.feed piece).2.feedAll pieces).1,
        ((d.feed piece).2.feedAll pieces).2) := rfl

theorem eq_of {d e : Decoder} (hp : d.policy = e.policy) (hr : d.remainder = e.remainder)
    (hc : d.replaced = e.replaced) : d = e := by
  cases d
  cases e
  simp_all

/-! ## Retaining malformed octets -/

/-- One feed gives out characters until the remainder is stuck. -/
theorem feed_retain {d : Decoder} (hp : d.policy = .retain) (bytes : Bytes) :
    encode (d.feed bytes).1 ++ (d.feed bytes).2.remainder = d.remainder ++ bytes ∧
      Stuck (d.feed bytes).2.remainder ∧ (d.feed bytes).2.policy = .retain ∧
      (d.feed bytes).2.replaced = d.replaced := by
  obtain ⟨heq, hstuck⟩ := scan_eq (d.remainder ++ bytes)
  simp only [feed, hp, decode, encode, String.toList_ofList]
  exact ⟨heq, hstuck, trivial, trivial⟩

/-- Feeding pieces gives out characters until the remainder is stuck. -/
theorem feedAll_retain {d : Decoder} (hp : d.policy = .retain) (hd : Stuck d.remainder)
    (pieces : List Bytes) :
    (d.feedAll pieces).1.flatMap encode ++ (d.feedAll pieces).2.remainder
        = d.remainder ++ pieces.flatten ∧
      Stuck (d.feedAll pieces).2.remainder ∧ (d.feedAll pieces).2.replaced = d.replaced := by
  induction pieces generalizing d with
  | nil => exact ⟨by simp [feedAll], hd, rfl⟩
  | cons piece pieces ih =>
      obtain ⟨heq, hstuck, hpolicy, hreplaced⟩ := feed_retain hp piece
      obtain ⟨ih1, ih2, ih3⟩ := ih hpolicy hstuck
      rw [feedAll_cons]
      refine ⟨?_, ih2, ih3.trans hreplaced⟩
      rw [List.flatMap_cons, List.append_assoc, ih1, ← List.append_assoc, heq, List.flatten_cons,
        List.append_assoc]

/--
**Retaining.** However a stream is cut into pieces, after any number of them the texts given out
stand for the longest well-formed front of what was fed, and what is kept is exactly the rest.
-/
theorem longestValidFront_feedAll (pieces : List Bytes) (n : Nat) :
    let fed := pieces.take n
    let (texts, d) := feedAll { policy := .retain } fed
    LongestValidFront (texts.flatMap encode) fed.flatten ∧
      texts.flatMap encode ++ d.remainder = fed.flatten ∧ d.finish = d.remainder ∧
      d.replaced = 0 := by
  have hstart : Stuck ({ policy := .retain } : Decoder).remainder := by
    intro c rest
    simp [next]
  obtain ⟨heq, hstuck, hreplaced⟩ := feedAll_retain rfl hstart (pieces.take n)
  rw [List.nil_append] at heq
  refine ⟨?_, heq, rfl, hreplaced⟩
  rw [← heq]
  have hchars : ∀ texts : List String,
      texts.flatMap encode = (texts.flatMap String.toList).flatMap utf8EncodeChar := by
    intro texts
    simp only [List.flatMap_assoc]
    rfl
  rw [hchars]
  exact longestValidFront_of_stuck _ hstuck

/-! ## Replacing malformed octets -/

/-- One feed gives out the parts of what is received, up to a character cut short. -/
theorem feed_replace {d : Decoder} (hp : d.policy = .replace) (bytes : Bytes) : ∃ parts,
    Dissects (d.remainder ++ bytes) parts (d.feed bytes).2.remainder ∧
      (d.feed bytes).1 = String.ofList (parts.map Part.shown) ∧
      (d.feed bytes).2.replaced = d.replaced + parts.countP Part.isMalformed ∧
      (d.feed bytes).2.policy = .replace := by
  obtain ⟨parts, hparts, htext, hcount⟩ := dissects_decodeReplacing (d.remainder ++ bytes)
  use parts
  simp only [feed, hp, htext, hcount]
  exact ⟨hparts, trivial, trivial, trivial⟩

/-- Feeding pieces gives out the parts of all that was received, up to a character cut short. -/
theorem feedAll_replace {d : Decoder} (hp : d.policy = .replace)
    (hd : Dissects d.remainder [] d.remainder) (pieces : List Bytes) : ∃ parts,
    Dissects (d.remainder ++ pieces.flatten) parts (d.feedAll pieces).2.remainder ∧
      String.join (d.feedAll pieces).1 = String.ofList (parts.map Part.shown) ∧
      (d.feedAll pieces).2.replaced = d.replaced + parts.countP Part.isMalformed ∧
      (d.feedAll pieces).2.policy = .replace := by
  induction pieces generalizing d with
  | nil => exact ⟨[], by simpa [feedAll] using hd, by simp [feedAll], rfl, hp⟩
  | cons piece pieces ih =>
      obtain ⟨first, hfirst, htext, hcount, hpolicy⟩ := feed_replace hp piece
      have hkept : Dissects (d.feed piece).2.remainder [] (d.feed piece).2.remainder := by
        rcases hfirst.tail_cut with h | h
        · rw [h]
          exact .ended
        · exact .cut h
      obtain ⟨later, hlater, htexts, hcounts, hpolicies⟩ := ih hpolicy hkept
      rw [feedAll_cons]
      refine ⟨first ++ later, ?_, ?_, ?_, hpolicies⟩
      · rw [List.flatten_cons, ← List.append_assoc]
        exact hfirst.append hlater
      · rw [String.join_cons, htext, htexts, List.map_append, String.ofList_append]
      · rw [hcounts, hcount, List.countP_append, Nat.add_assoc]

/-- A remainder that is empty or a character cut short does not stall the decoder. -/
theorem isStalled_of_tail_cut {d : Decoder} (h : d.remainder = [] ∨ CutShort d.remainder) :
    d.isStalled = false := by
  have htail : (scan d.remainder).tail = .complete ∨
      (scan d.remainder).tail = .incomplete d.remainder.length := by
    rcases h with h | h
    · rw [h, scan]
      exact .inl rfl
    · have hnext := next_eq_truncated_iff.2 h
      rw [scan]
      split
      all_goals
        next hn => first | exact .inr rfl | cases hnext.symm.trans hn
  unfold isStalled
  rcases htail with ht | ht <;> rw [ht]

/--
**Replacing.** However a stream is cut into pieces, after any number of them text, remainder and
count are those of one feed of everything. They are given by the only way there is to see what was
fed as characters and maximal malformed parts, up to a character cut short: each character is given
out as it is and each malformed part as one `U+FFFD`, the malformed parts are counted, and the cut
character is kept.
-/
theorem dissects_feedAll (pieces : List Bytes) (n : Nat) :
    let fed := pieces.take n
    let (texts, d) := feedAll { policy := .replace } fed
    (String.join texts, d) = feed { policy := .replace } fed.flatten ∧
      (∃ parts,
        (∀ parts' tail, Dissects fed.flatten parts' tail ↔ parts' = parts ∧ tail = d.remainder) ∧
        String.join texts = String.ofList (parts.map Part.shown) ∧
        d.replaced = parts.countP Part.isMalformed) ∧
      (d.remainder = [] ∨ CutShort d.remainder) ∧ d.remainder.length ≤ 3 ∧
      d.isStalled = false := by
  obtain ⟨parts, hparts, htext, hcount, hpolicy⟩ :=
    feedAll_replace (d := { policy := .replace }) rfl .ended (pieces.take n)
  obtain ⟨parts', hparts', htext', hcount', hpolicy'⟩ :=
    feed_replace (d := { policy := .replace }) rfl (pieces.take n).flatten
  -- Both dissect the same octets, so they agree on the parts and on what is left.
  obtain ⟨rfl, htail⟩ := hparts.unique hparts'
  refine ⟨Prod.ext (htext.trans htext'.symm) ?_, ⟨parts', ?_, htext, ?_⟩, hparts.tail_cut, ?_, ?_⟩
  · exact eq_of (hpolicy.trans hpolicy'.symm) htail.symm (hcount.trans hcount'.symm)
  · intro ps tail
    exact ⟨fun h => hparts.unique h, fun ⟨h1, h2⟩ => by rw [h1, h2]; exact hparts⟩
  · simpa using hcount
  · rcases hparts.tail_cut with h | h
    · rw [h]
      exact Nat.zero_le 3
    · exact h.length_le
  · exact isStalled_of_tail_cut hparts.tail_cut

end Decoder

end TextLink.Text
