import TextLink.Proofs.Text.Pieces

/-!
# What may still become text

A scan stops where no character stands in front, and says why: nothing is left, the rest is a
character cut short, or no continuation of the rest is text. Only the last of these is final. A
truncated rest always has a continuation that completes it, and a malformed part stays one whatever
follows, because `next` does not change its mind.

For a decoder that retains malformed octets this decides its whole future: it is stalled exactly if
it will never give out text again.

## Main results

* `scan_classifies` — what is in front, and what the rest is, for every sequence of octets.
* `isStalled_iff_silent` — stalled, and silent for good, are the same.
-/

namespace TextLink.Text

open Utf8
open String (utf8EncodeChar)

namespace Utf8

variable {bs rest : Bytes} {len : Nat}

/-! ## Malformed lengths -/

/-- `front` is the longest front of `bs`, of one octet at least, that begins a character. -/
structure LongestOpening (front bs : Bytes) : Prop where
  ne_nil : front ≠ []
  isFront : front <+: bs
  opens : Opens front
  longest : ∀ other, other <+: bs → Opens other → other.length ≤ front.length

/-- How many octets are malformed together where no character can come of `bs`: the longest front
that begins one, or a single octet if there is no such front. -/
inductive MalformedLength (bs : Bytes) : Nat → Prop
  | opening {front : Bytes} : LongestOpening front bs → MalformedLength bs front.length
  | single : (∀ front, front ≠ [] → front <+: bs → ¬ Opens front) → MalformedLength bs 1

theorem MalformedLength.unique {len' : Nat} (h : MalformedLength bs len)
    (h' : MalformedLength bs len') : len = len' := by
  cases h with
  | @opening front hf =>
      cases h' with
      | opening hf' =>
          exact Nat.le_antisymm (hf'.longest _ hf.isFront hf.opens)
            (hf.longest _ hf'.isFront hf'.opens)
      | single hno => exact absurd hf.opens (hno front hf.ne_nil hf.isFront)
  | single hno =>
      cases h' with
      | @opening front hf' => exact absurd hf'.opens (hno front hf'.ne_nil hf'.isFront)
      | single _ => rfl

/-- A maximal malformed part has the malformed length of what it is the front of. -/
theorem MalformedPart.malformedLength {bad : Bytes} (h : MalformedPart bad rest) :
    MalformedLength (bad ++ rest) bad.length := by
  by_cases ho : Opens bad
  · exact .opening ⟨h.ne_nil, List.prefix_append bad rest, ho, h.longest⟩
  · have hlen : bad.length = 1 := h.opens.resolve_left ho
    rw [hlen]
    refine .single fun front hne hfront hopens => ho ?_
    -- A front that opens is no longer than the single octet, and so is that octet.
    have hle : front.length ≤ 1 := hlen ▸ h.longest front hfront hopens
    have hpos : 0 < front.length := List.length_pos_iff.2 hne
    have hbad : front = bad := by
      obtain ⟨t, ht⟩ := hfront
      exact (List.append_inj ht (by omega)).1
    exact hbad ▸ hopens

theorem MalformedPart.length_le {bad : Bytes} (h : MalformedPart bad rest) : bad.length ≤ 3 := by
  rcases h.opens with ⟨c, hc⟩ | h1
  · refine CutShort.length_le ⟨h.ne_nil, c, hc, ?_⟩
    rintro rfl
    exact h.not_char c (List.prefix_append _ _)
  · omega

/-! ## Where a scan stops -/

/-- Octets in front of which stands no character are left as they are. -/
theorem scan_of_stuck (h : Stuck bs) : (scan bs).valid = [] ∧ (scan bs).rest = bs := by
  rw [scan]
  split
  case h_1 hn => exact ⟨rfl, (next_eq_ended_iff.1 hn).symm⟩
  case h_2 c rest hn => exact absurd hn (h c rest)
  all_goals exact ⟨rfl, rfl⟩

/-- The tail says what stands in front of the rest. -/
theorem tail_scan (bs : Bytes) :
    (next (scan bs).rest = .ended ∧ (scan bs).tail = .complete) ∨
    (next (scan bs).rest = .truncated ∧ (scan bs).tail = .incomplete (scan bs).rest.length) ∨
    (∃ len later, next (scan bs).rest = .malformed len later ∧
      (scan bs).tail = .malformed len) := by
  fun_induction scan bs with
  | case1 bs h => exact .inl ⟨rfl, rfl⟩
  | case2 bs c rest h s ih => exact ih
  | case3 bs h => exact .inr (.inl ⟨h, rfl⟩)
  | case4 bs len later h => exact .inr (.inr ⟨len, later, h, rfl⟩)

theorem tail_eq_complete_iff : (scan bs).tail = .complete ↔ (scan bs).rest = [] := by
  rw [← next_eq_ended_iff]
  rcases tail_scan bs with ⟨hn, ht⟩ | ⟨hn, ht⟩ | ⟨len, later, hn, ht⟩ <;> simp [hn, ht]

theorem tail_eq_incomplete_iff :
    (scan bs).tail = .incomplete len ↔ CutShort (scan bs).rest ∧ len = (scan bs).rest.length := by
  rw [← next_eq_truncated_iff]
  rcases tail_scan bs with ⟨hn, ht⟩ | ⟨hn, ht⟩ | ⟨len, later, hn, ht⟩ <;> simp [hn, ht, eq_comm]

theorem tail_eq_malformed_iff :
    (scan bs).tail = .malformed len ↔ ∃ later, next (scan bs).rest = .malformed len later := by
  rcases tail_scan bs with ⟨hn, ht⟩ | ⟨hn, ht⟩ | ⟨len, later, hn, ht⟩ <;> simp [hn, ht]

theorem length_encode_ofList (cs : List Char) :
    (encode (String.ofList cs)).length = cs.foldr (fun c n => c.utf8Size + n) 0 := by
  rw [encode, String.toList_ofList]
  induction cs with
  | nil => rfl
  | cons c cs ih =>
      rw [List.flatMap_cons, List.length_append, String.length_utf8EncodeChar, ih, List.foldr_cons]

/-! ## What can follow -/

theorem stuck_nil : Stuck [] := by
  intro c later
  simp [next]

theorem stuck_of_malformed (h : next bs = .malformed len rest) : Stuck bs := by
  intro c later hc
  cases h.symm.trans hc

/-- No continuation of a sequence that stops at a malformed part is well-formed. -/
theorem not_wellFormed_of_malformed (cs : List Char) (h : next bs = .malformed len rest)
    (more : Bytes) : ¬ WellFormed (cs.flatMap utf8EncodeChar ++ bs ++ more) := by
  intro hw
  have hstuck : Stuck (bs ++ more) := stuck_of_malformed (next_append_of_malformed more h)
  have hfront := longestValidFront_of_stuck cs hstuck
  rw [← List.append_assoc] at hfront
  have hle := hfront.longest _ hw (List.prefix_refl _)
  have hpos := length_rest_lt_of_malformed h
  simp only [List.length_append] at hle
  omega

/-- Octets in front of which stands no character begin one exactly if they are one cut short. -/
theorem Stuck.cutShort_iff (h : Stuck bs) : CutShort bs ↔ bs ≠ [] ∧ Opens bs := by
  constructor
  · rintro ⟨hne, c, hc, _⟩
    exact ⟨hne, c, hc⟩
  · rintro ⟨hne, c, hc⟩
    refine ⟨hne, c, hc, ?_⟩
    rintro rfl
    exact h c [] (by simpa using next_utf8EncodeChar_append c [])

/-- Octets in front of which stands no character are malformed exactly if they begin none, and as
far as their malformed length goes. -/
theorem Stuck.malformed_iff (h : Stuck bs) :
    (∃ later, next bs = .malformed len later) ↔
      bs ≠ [] ∧ ¬ Opens bs ∧ MalformedLength bs len := by
  constructor
  · rintro ⟨later, hn⟩
    obtain ⟨bad, rfl, rfl, hbad⟩ := malformedPart_of_next hn
    refine ⟨?_, hbad.not_cut, hbad.malformedLength⟩
    intro hnil
    exact hbad.ne_nil (List.append_eq_nil_iff.1 hnil).1
  · rintro ⟨hne, hno, hlen⟩
    cases hn : next bs with
    | ended => exact absurd (next_eq_ended_iff.1 hn) hne
    | char c later => exact absurd hn (h c later)
    | truncated => exact absurd (h.cutShort_iff.1 (next_eq_truncated_iff.1 hn)).2 hno
    | malformed n later =>
        obtain ⟨bad, rfl, rfl, hbad⟩ := malformedPart_of_next hn
        exact ⟨later, by rw [hbad.malformedLength.unique hlen]⟩

/--
A scan classifies every sequence of octets.

In front is the longest well-formed front. The tail is complete exactly if nothing is left;
incomplete exactly if some continuation makes one character of all that is left; and otherwise
malformed, with the length of the longest front of the rest that begins a character, or one. Then no
continuation is well-formed.
-/
theorem scan_classifies (bs : Bytes) :
    let s := scan bs
    let valid := encode (String.ofList s.valid)
    LongestValidFront valid bs ∧ valid ++ s.rest = bs ∧ s.validUpTo = valid.length ∧
      (s.tail = .complete ↔ s.rest = []) ∧
      (∀ len, s.tail = .incomplete len ↔
        (s.rest ≠ [] ∧ ∃ c more, s.rest ++ more = utf8EncodeChar c) ∧ len = s.rest.length) ∧
      (∀ len, s.tail = .malformed len ↔
        (s.rest ≠ [] ∧ ¬ ∃ c more, s.rest ++ more = utf8EncodeChar c) ∧
          MalformedLength s.rest len) ∧
      (∀ len, s.tail = .malformed len →
        1 ≤ len ∧ len ≤ 3 ∧ ∀ more, ¬ WellFormed (bs ++ more)) := by
  obtain ⟨heq, hstuck⟩ := scan_eq bs
  have hvalid : encode (String.ofList (scan bs).valid)
      = (scan bs).valid.flatMap utf8EncodeChar := by
    rw [encode, String.toList_ofList]
  refine ⟨?_, ?_, ?_, tail_eq_complete_iff, ?_, ?_, ?_⟩
  · have hfront := longestValidFront_of_stuck (scan bs).valid hstuck
    rwa [heq, ← hvalid] at hfront
  · rw [hvalid, heq]
  · exact (length_encode_ofList _).symm
  · intro len
    rw [tail_eq_incomplete_iff, hstuck.cutShort_iff]
    rfl
  · intro len
    rw [tail_eq_malformed_iff, hstuck.malformed_iff, and_assoc]
    rfl
  · intro len htail
    obtain ⟨later, hn⟩ := tail_eq_malformed_iff.1 htail
    obtain ⟨bad, hrest, rfl, hbad⟩ := malformedPart_of_next hn
    refine ⟨List.length_pos_iff.2 hbad.ne_nil, hbad.length_le, fun more => ?_⟩
    have hno := not_wellFormed_of_malformed (scan bs).valid hn more
    rwa [heq] at hno

end Utf8

/-! ## Stalled decoders -/

namespace Decoder

/-- A decoder in front of whose remainder stands no character is stalled exactly if a malformed part
does. -/
theorem isStalled_iff {d : Decoder} (h : Stuck d.remainder) :
    d.isStalled = true ↔ ∃ len later, next d.remainder = .malformed len later := by
  have hrest := (scan_of_stuck h).2
  have htail := tail_scan d.remainder
  rw [hrest] at htail
  unfold isStalled
  rcases htail with ⟨hn, ht⟩ | ⟨hn, ht⟩ | ⟨len, later, hn, ht⟩ <;> simp [hn, ht]

/-- Feeding a decoder that retains octets, in front of which stands no character even then. -/
theorem feed_of_stuck {d : Decoder} (hp : d.policy = .retain) {bytes : Bytes}
    (h : Stuck (d.remainder ++ bytes)) :
    d.feed bytes = ("", { d with remainder := d.remainder ++ bytes }) := by
  obtain ⟨hvalid, hrest⟩ := scan_of_stuck h
  simp only [feed, hp, decode, hvalid, hrest, String.ofList_nil]

theorem policy_feed (d : Decoder) (bytes : Bytes) : (d.feed bytes).2.policy = d.policy := by
  unfold feed
  split <;> rfl

theorem policy_feedAll (d : Decoder) (pieces : List Bytes) :
    (d.feedAll pieces).2.policy = d.policy := by
  induction pieces generalizing d with
  | nil => rfl
  | cons piece pieces ih => rw [feedAll_cons, ih, policy_feed]

/-- A stalled decoder only gathers what it is fed, and stays stalled. -/
theorem feed_of_isStalled {d : Decoder} (hp : d.policy = .retain) (hd : Stuck d.remainder)
    (h : d.isStalled = true) (bytes : Bytes) :
    d.feed bytes = ("", { d with remainder := d.remainder ++ bytes }) ∧
      (d.feed bytes).2.isStalled = true := by
  obtain ⟨len, later, hn⟩ := (isStalled_iff hd).1 h
  have hmore := next_append_of_malformed bytes hn
  have hstuck := stuck_of_malformed hmore
  have hfeed := feed_of_stuck hp hstuck
  exact ⟨hfeed, by rw [hfeed]; exact (isStalled_iff hstuck).2 ⟨len, _, hmore⟩⟩

theorem texts_of_isStalled {d : Decoder} (hp : d.policy = .retain) (hd : Stuck d.remainder)
    (h : d.isStalled = true) (pieces : List Bytes) : ∀ text ∈ (d.feedAll pieces).1, text = "" := by
  induction pieces generalizing d with
  | nil => simp [feedAll]
  | cons piece pieces ih =>
      obtain ⟨hfeed, hstalled⟩ := feed_of_isStalled hp hd h piece
      obtain ⟨_, hstuck, hpolicy, _⟩ := feed_retain hp piece
      rw [feedAll_cons, List.forall_mem_cons]
      exact ⟨by rw [hfeed], ih hpolicy hstuck hstalled⟩

/-- What a decoder that is not stalled keeps back can be made a text. -/
theorem exists_completing {bs : Bytes} (h : Stuck bs)
    (hno : ¬ ∃ len later, next bs = .malformed len later) :
    ∃ c more, bs ++ more = utf8EncodeChar c := by
  cases hn : next bs with
  | ended =>
      obtain rfl := next_eq_ended_iff.1 hn
      exact ⟨'a', utf8EncodeChar 'a', rfl⟩
  | truncated =>
      obtain ⟨_, c, ⟨more, hmore⟩, _⟩ := next_eq_truncated_iff.1 hn
      exact ⟨c, more, hmore⟩
  | char c rest => exact absurd hn (h c rest)
  | malformed len rest => exact absurd ⟨len, rest, hn⟩ hno

/-- A decoder that is not stalled gives out text again after some further feed. -/
theorem exists_feed_of_not_isStalled {d : Decoder} (hp : d.policy = .retain)
    (hd : Stuck d.remainder) (h : d.isStalled = false) : ∃ bytes, (d.feed bytes).1 ≠ "" := by
  obtain ⟨c, more, hmore⟩ := exists_completing hd fun hm => by
    rw [← isStalled_iff hd, h] at hm
    cases hm
  have hnext : next (utf8EncodeChar c) = .char c [] := by
    simpa using next_utf8EncodeChar_append c []
  use more
  simp only [feed, hp, decode, hmore, scan_of_char hnext]
  intro hnil
  simpa using congrArg String.toList hnil

/--
Stalled means silent for good.

A decoder that retains malformed octets, after whatever feeds, is stalled exactly if it gives out no
text whatever else it is fed. And then every feed leaves it stalled, with the fed octets behind its
remainder and all else as it was.
-/
theorem isStalled_iff_silent (fed : List Bytes) :
    let d := (feedAll { policy := .retain } fed).2
    (d.isStalled = true ↔ ∀ pieces, ∀ text ∈ (d.feedAll pieces).1, text = "") ∧
      (d.isStalled = true → ∀ bytes,
        d.feed bytes = ("", { d with remainder := d.remainder ++ bytes }) ∧
          (d.feed bytes).2.isStalled = true) := by
  intro d
  have hp : d.policy = .retain := policy_feedAll { policy := .retain } fed
  have hstart : Stuck ({ policy := .retain } : Decoder).remainder := stuck_nil
  have hd : Stuck d.remainder := (feedAll_retain rfl hstart fed).2.1
  refine ⟨⟨texts_of_isStalled hp hd, fun hsilent => ?_⟩, feed_of_isStalled hp hd⟩
  by_contra hstalled
  obtain ⟨bytes, hbytes⟩ := exists_feed_of_not_isStalled hp hd (Bool.not_eq_true _ ▸ hstalled)
  exact hbytes (hsilent [bytes] _ (List.mem_singleton.2 rfl))

end Decoder

end TextLink.Text
