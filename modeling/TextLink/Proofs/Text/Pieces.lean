import TextLink.Proofs.Text.Streams

/-!
# Feeding on

A decoder that is fed more takes up where it stopped: what it makes of bytes and of more bytes
behind them is what it makes of both at once (`feed_append`). This needs no invariant, because what
is kept back is read again with what follows it, and what was read before is read the same way
(`next_append_of_char`, `next_append_of_malformed`).

## Main results

* `feed_append` — feeding in two parts.
* `feedAll_eq` — feeding in any number of pieces.
-/

namespace TextLink.Text

open Utf8

variable {bs rest : Bytes}

/-! ## Reading on -/

theorem Utf8.scan_of_char {c : Char} (h : next bs = .char c rest) :
    scan bs = { scan rest with valid := c :: (scan rest).valid } := by
  rw [scan]
  split
  case h_2 _ _ hn =>
    cases hn.symm.trans h
    rfl
  all_goals
    next hn => cases hn.symm.trans h

/-- A scan goes on with what it left. -/
theorem Utf8.scan_append (bs more : Bytes) :
    (scan (bs ++ more)).valid = (scan bs).valid ++ (scan ((scan bs).rest ++ more)).valid ∧
      (scan (bs ++ more)).rest = (scan ((scan bs).rest ++ more)).rest := by
  fun_induction scan bs with
  | case1 bs h =>
      rw [next_eq_ended_iff.1 h]
      exact ⟨rfl, rfl⟩
  | case2 bs c rest h s ih =>
      rw [scan_of_char (next_append_of_char more h)]
      exact ⟨congrArg (c :: ·) ih.1, ih.2⟩
  | case3 bs h => exact ⟨rfl, rfl⟩
  | case4 bs n rest h => exact ⟨rfl, rfl⟩

theorem decodeReplacing_of_char {c : Char} (h : next bs = .char c rest) :
    decodeReplacing bs =
      { decodeReplacing rest with text := c :: (decodeReplacing rest).text } := by
  rw [decodeReplacing]
  split
  case h_3 _ _ hn =>
    cases hn.symm.trans h
    rfl
  all_goals
    next hn => cases hn.symm.trans h

theorem decodeReplacing_of_malformed {n : Nat} (h : next bs = .malformed n rest) :
    decodeReplacing bs = { decodeReplacing rest with
      text := '\uFFFD' :: (decodeReplacing rest).text
      count := (decodeReplacing rest).count + 1 } := by
  rw [decodeReplacing]
  split
  case h_4 _ _ hn =>
    cases hn.symm.trans h
    rfl
  all_goals
    next hn => cases hn.symm.trans h

/-- Decoding with replacement goes on with what it left. -/
theorem decodeReplacing_append (bs more : Bytes) :
    decodeReplacing (bs ++ more) =
      let r := decodeReplacing bs
      let later := decodeReplacing (r.rest ++ more)
      ⟨r.text ++ later.text, later.rest, r.count + later.count⟩ := by
  fun_induction decodeReplacing bs with
  | case1 bs h =>
      rw [next_eq_ended_iff.1 h]
      simp
  | case2 bs h => simp
  | case3 bs c rest h r ih =>
      rw [decodeReplacing_of_char (next_append_of_char more h), ih]
      rfl
  | case4 bs n rest h r ih =>
      rw [decodeReplacing_of_malformed (next_append_of_malformed more h), ih]
      simp only [List.cons_append, r]
      rw [Nat.add_right_comm]

/-! ## Feeding on -/

namespace Decoder

theorem feed_append (d : Decoder) (bytes more : Bytes) :
    d.feed (bytes ++ more) =
      ((d.feed bytes).1 ++ ((d.feed bytes).2.feed more).1, ((d.feed bytes).2.feed more).2) := by
  rcases hp : d.policy with _ | _
  · have ⟨hvalid, hrest⟩ := scan_append (d.remainder ++ bytes) more
    simp only [feed, hp, decode, ← List.append_assoc, hvalid, hrest, String.ofList_append]
  · have happend := decodeReplacing_append (d.remainder ++ bytes) more
    simp only [feed, hp, ← List.append_assoc, happend, String.ofList_append, Nat.add_assoc]

/-- A decoder that was fed nothing. -/
theorem feed_nil (policy : MalformedPolicy) :
    feed { policy } [] = ("", { policy }) := by
  cases policy
  · rw [feed, decode, scan]
    rfl
  · rw [feed, decodeReplacing]
    rfl

/-- Feeding pieces behind bytes that were fed. -/
theorem feedAll_feed (d : Decoder) (bytes : Bytes) (pieces : List Bytes) :
    d.feed (bytes ++ pieces.flatten) =
      ((d.feed bytes).1 ++ String.join ((d.feed bytes).2.feedAll pieces).1,
        ((d.feed bytes).2.feedAll pieces).2) := by
  induction pieces generalizing bytes with
  | nil => simp [feedAll]
  | cons piece later ih =>
      rw [List.flatten_cons, ← List.append_assoc, ih, feed_append, feedAll_cons, String.join_cons,
        String.append_assoc]

/-- However a stream is cut into pieces, text and decoder are those of one feed of everything. -/
theorem feedAll_eq (policy : MalformedPolicy) (pieces : List Bytes) :
    (String.join (feedAll { policy } pieces).1, (feedAll { policy } pieces).2) =
      feed { policy } pieces.flatten := by
  have hfed := feedAll_feed { policy } [] pieces
  rw [feed_nil, String.empty_append] at hfed
  exact hfed.symm

end Decoder

end TextLink.Text
