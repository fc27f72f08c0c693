import TextLink.Proofs.Text.Tails

/-!
# Text on the wire

Texts that are sent one after the other arrive as one stream of octets, cut and merged by the
network as it likes. Every front of such a stream is made of whole characters and at most the
beginning of one more (`exists_read_of_prefix`), so a decoder never meets anything malformed in it,
and its policy does not matter: under either one it gives out the characters and keeps the beginning
(`feed_characters`).

What was given out after some of the stream is therefore the longest front of the text whose octets
have arrived.

## Main results

* `feedAll_encode` — texts survive the wire, however they are cut.
-/

namespace TextLink.Text

open Utf8
open String (utf8EncodeChar)

variable {bs rest : Bytes}

/-! ## Reading characters -/

theorem Utf8.scan_characters (cs : List Char) (rest : Bytes) :
    scan (cs.flatMap utf8EncodeChar ++ rest) =
      { scan rest with valid := cs ++ (scan rest).valid } := by
  induction cs with
  | nil => rfl
  | cons c cs ih =>
      rw [List.flatMap_cons, List.append_assoc, scan_of_char (next_utf8EncodeChar_append c _), ih]
      rfl

theorem decodeReplacing_characters (cs : List Char) (rest : Bytes) :
    decodeReplacing (cs.flatMap utf8EncodeChar ++ rest) =
      { decodeReplacing rest with text := cs ++ (decodeReplacing rest).text } := by
  induction cs with
  | nil => rfl
  | cons c cs ih =>
      rw [List.flatMap_cons, List.append_assoc,
        decodeReplacing_of_char (next_utf8EncodeChar_append c _), ih]
      rfl

/-- No character stands at the front of one cut short. -/
theorem Utf8.stuck_of_tail_cut (h : rest = [] ∨ CutShort rest) : Stuck rest := by
  rcases h with rfl | h
  · exact stuck_nil
  · intro c later hc
    cases hc.symm.trans (next_eq_truncated_iff.2 h)

theorem decodeReplacing_of_tail_cut (h : rest = [] ∨ CutShort rest) :
    decodeReplacing rest = ⟨[], rest, 0⟩ := by
  rw [decodeReplacing]
  split
  case h_1 hn => rw [next_eq_ended_iff.1 hn]
  case h_2 => rfl
  case h_3 c later hn => exact absurd hn (stuck_of_tail_cut h c later)
  case h_4 len later hn =>
    rcases h with rfl | h
    · cases hn
    · cases hn.symm.trans (next_eq_truncated_iff.2 h)

/-- Characters are read alike under either policy, and what is cut short behind them is kept. -/
theorem Decoder.feed_characters (policy : MalformedPolicy) (cs : List Char)
    (h : rest = [] ∨ CutShort rest) :
    feed { policy } (cs.flatMap utf8EncodeChar ++ rest) =
      (String.ofList cs, { policy, remainder := rest }) := by
  cases policy with
  | retain =>
      obtain ⟨hvalid, hrest⟩ := scan_of_stuck (stuck_of_tail_cut h)
      simp only [feed, decode, List.nil_append, scan_characters, hvalid, hrest, List.append_nil]
  | replace =>
      simp only [feed, List.nil_append, decodeReplacing_characters, decodeReplacing_of_tail_cut h,
        List.append_nil, Nat.add_zero]

/-! ## Fronts of a stream of characters -/

/-- A front of a stream of characters ends between two of them or inside one: it is the octets of as
many characters as fit, and of the beginning of one more. -/
theorem Utf8.exists_read_of_prefix {cs : List Char} {fed : Bytes}
    (h : fed <+: cs.flatMap utf8EncodeChar) : ∃ read rest,
      read <+: cs ∧ fed = read.flatMap utf8EncodeChar ++ rest ∧ (rest = [] ∨ CutShort rest) ∧
      ∀ other, other <+: cs → (other.flatMap utf8EncodeChar).length ≤ fed.length →
        other.length ≤ read.length := by
  induction cs generalizing fed with
  | nil =>
      obtain rfl := List.prefix_nil.1 h
      refine ⟨[], [], List.prefix_refl _, rfl, .inl rfl, fun other ho _ => ?_⟩
      exact ho.length_le
  | cons c cs ih =>
      rw [List.flatMap_cons] at h
      by_cases hc : utf8EncodeChar c <+: fed
      · obtain ⟨fed, rfl⟩ := hc
        obtain ⟨read, rest, hread, hfed, hrest, hlongest⟩ :=
          ih ((List.prefix_append_right_inj _).1 h)
        refine ⟨c :: read, rest, List.cons_prefix_cons.2 ⟨rfl, hread⟩, ?_, hrest, ?_⟩
        · rw [List.flatMap_cons, List.append_assoc, ← hfed]
        · intro other ho hle
          cases other with
          | nil => exact Nat.zero_le _
          | cons d other =>
              obtain ⟨rfl, hothers⟩ := List.cons_prefix_cons.1 ho
              simp only [List.flatMap_cons, List.length_append] at hle
              exact Nat.succ_le_succ (hlongest other hothers (by omega))
      · -- The first character has not arrived as a whole, so nothing was read.
        have hshort : fed <+: utf8EncodeChar c :=
          (List.prefix_or_prefix_of_prefix h (List.prefix_append _ _)).resolve_right hc
        have hne : fed ≠ utf8EncodeChar c := fun he => hc (he ▸ List.prefix_refl _)
        refine ⟨[], fed, List.nil_prefix, rfl, ?_, ?_⟩
        · by_cases hnil : fed = []
          · exact .inl hnil
          · exact .inr ⟨hnil, c, hshort, hne⟩
        · intro other ho hle
          cases other with
          | nil => exact Nat.le_refl 0
          | cons d other =>
              obtain ⟨rfl, -⟩ := List.cons_prefix_cons.1 ho
              have hle' := hshort.length_le
              have hlt : fed.length ≠ (utf8EncodeChar d).length := fun he =>
                hne (hshort.eq_of_length he)
              simp only [List.flatMap_cons, List.length_append] at hle
              omega

/-- `text` is the longest front of `whole` that fits in the octets `fed`. -/
structure LongestArrived (text whole : String) (fed : Bytes) : Prop where
  isFront : text.toList <+: whole.toList
  arrived : encode text <+: fed
  longest : ∀ other : String, other.toList <+: whole.toList →
    (encode other).length ≤ fed.length → other.length ≤ text.length

theorem Utf8.encode_join (texts : List String) :
    encode (String.join texts) = texts.flatMap encode := by
  induction texts with
  | nil => rfl
  | cons text texts ih =>
      rw [String.join_cons, List.flatMap_cons, ← ih]
      simp only [encode, String.toList_append, List.flatMap_append]

namespace Decoder

/-- What a decoder of a stream of text has given out after a front of it. -/
theorem feed_prefix (policy : MalformedPolicy) {text : String} {fed : Bytes}
    (h : fed <+: encode text) : LongestArrived (feed { policy } fed).1 text fed := by
  obtain ⟨read, rest, hread, rfl, hrest, hlongest⟩ := exists_read_of_prefix h
  rw [feed_characters policy read hrest]
  constructor
  · rwa [String.toList_ofList]
  · rw [encode, String.toList_ofList]
    exact List.prefix_append _ _
  · intro other ho hle
    rw [← String.length_toList, ← String.length_toList, String.toList_ofList]
    exact hlongest other.toList ho hle

/--
Texts survive the wire.

However the octets of texts are cut into pieces, after any number of the pieces a decoder of either
policy has given out the longest front of the text whose octets fit in what it was fed. After all of
them it has given out just these texts, keeps nothing, is not stalled and has replaced nothing.
-/
theorem feedAll_encode (policy : MalformedPolicy) (texts : List String) (pieces : List Bytes)
    (h : pieces.flatten = texts.flatMap encode) :
    (∀ n, LongestArrived (String.join (feedAll { policy } (pieces.take n)).1) (String.join texts)
      (pieces.take n).flatten) ∧
    let (out, d) := feedAll { policy } pieces
    String.join out = String.join texts ∧ d.remainder = [] ∧ d.isStalled = false ∧
      d.replaced = 0 := by
  rw [← encode_join] at h
  constructor
  · intro n
    have hfront : (pieces.take n).flatten <+: encode (String.join texts) := by
      rw [← h]
      exact ⟨(pieces.drop n).flatten, by rw [← List.flatten_append, List.take_append_drop]⟩
    rw [(Prod.mk.inj (feedAll_eq policy (pieces.take n))).1]
    exact feed_prefix policy hfront
  · have hall := feedAll_eq policy pieces
    rw [h, encode, ← List.append_nil (List.flatMap _ _), feed_characters policy _ (.inl rfl),
      String.ofList_toList] at hall
    obtain ⟨hout, hd⟩ := Prod.mk.inj hall
    simp only [hout, hd, true_and]
    exact ⟨isStalled_of_tail_cut (.inl rfl), trivial⟩

/-- Three sends arrive in pieces that end inside characters and run over the ends of sends. -/
theorem feedAll_encode_of_cut_characters :
    let texts := ["né", "", "🦀!"]
    let pieces : List Bytes := [[0x6E, 0xC3], [0xA9, 0xF0, 0x9F], [], [0xA6, 0x80, 0x21]]
    pieces.flatten = texts.flatMap encode ∧
    LongestArrived (String.join (feedAll { policy := .replace } (pieces.take 2)).1)
      (String.join texts) (pieces.take 2).flatten ∧
    let (out, d) := feedAll { policy := .replace } pieces
    String.join out = String.join texts ∧ d.remainder = [] ∧ d.isStalled = false ∧
      d.replaced = 0 := by
  intro texts pieces
  have h : pieces.flatten = texts.flatMap encode := by decide +kernel
  obtain ⟨hfront, hall⟩ := feedAll_encode .replace texts pieces h
  exact ⟨h, hfront 2, hall⟩

end Decoder

end TextLink.Text
