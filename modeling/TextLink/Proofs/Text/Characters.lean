import Mathlib.Data.List.Forall2
import TextLink.Text.Utf8

/-!
# Characters and the octets that stand for them

`next` works from a table of lead octets and ranges and never looks at a code point. What a
character's octets are is said elsewhere, by the standard encoding `String.utf8EncodeChar`, which
never looks at a table. This module ties the two together: the sequences that the table admits are
the encodings of characters, all of them and nothing else.

From this follows what each answer of `next` means in terms of encodings alone. A character is
reported exactly if its encoding stands in front; truncation, exactly if what is left is the
beginning of some encoding, but not a whole one; and a malformed part is the longest front that
begins some encoding, or one octet if no front does.

## Main results

* `exists_meets_utf8EncodeChar`, `exists_utf8EncodeChar_of_meets` — the table admits the encodings
  of characters and nothing else.
* `next_eq_char_iff`, `next_eq_truncated_iff`, `next_eq_malformed_iff` — what the answers mean.
-/

namespace TextLink.Text.Utf8

open String (utf8EncodeChar)

/-! ## The table in natural numbers -/

theorem holds_iff (r : OctetRange) (b : UInt8) :
    r.holds b = true ↔ r.lo.toNat ≤ b.toNat ∧ b.toNat ≤ r.hi.toNat := by
  simp [OctetRange.holds, UInt8.le_iff_toNat_le]

/-- The rows of the table: a lead octet, and the ranges of those behind it. -/
inductive Row (lead : UInt8) : List OctetRange → Prop where
  | one (h : lead.toNat ≤ 0x7F) : Row lead []
  | two (h : 0xC2 ≤ lead.toNat ∧ lead.toNat ≤ 0xDF) : Row lead [continuation]
  /-- What is left out has a shorter form. -/
  | threeLow (h : lead.toNat = 0xE0) : Row lead [⟨0xA0, 0xBF⟩, continuation]
  | three (h : 0xE1 ≤ lead.toNat ∧ lead.toNat ≤ 0xEF) (hne : lead.toNat ≠ 0xED) :
      Row lead [continuation, continuation]
  /-- What is left out are the surrogates. -/
  | threeScalar (h : lead.toNat = 0xED) : Row lead [⟨0x80, 0x9F⟩, continuation]
  /-- What is left out has a shorter form. -/
  | fourLow (h : lead.toNat = 0xF0) : Row lead [⟨0x90, 0xBF⟩, continuation, continuation]
  | four (h : 0xF1 ≤ lead.toNat ∧ lead.toNat ≤ 0xF3) :
      Row lead [continuation, continuation, continuation]
  /-- What is left out is above all code points. -/
  | fourHigh (h : lead.toNat = 0xF4) : Row lead [⟨0x80, 0x8F⟩, continuation, continuation]

/-- The table has these rows and no others. -/
theorem following_eq_some_iff {lead : UInt8} {ranges : List OctetRange} :
    following lead = some ranges ↔ Row lead ranges := by
  have hfollowing : following lead =
      if lead.toNat ≤ 0x7F then some []
      else if lead.toNat ≤ 0xC1 then none
      else if lead.toNat ≤ 0xDF then some [continuation]
      else if lead.toNat = 0xE0 then some [⟨0xA0, 0xBF⟩, continuation]
      else if lead.toNat = 0xED then some [⟨0x80, 0x9F⟩, continuation]
      else if lead.toNat ≤ 0xEF then some [continuation, continuation]
      else if lead.toNat = 0xF0 then some [⟨0x90, 0xBF⟩, continuation, continuation]
      else if lead.toNat ≤ 0xF3 then some [continuation, continuation, continuation]
      else if lead.toNat = 0xF4 then some [⟨0x80, 0x8F⟩, continuation, continuation]
      else none := by
    simp only [following, UInt8.le_iff_toNat_le, ← UInt8.toNat_inj]
    rfl
  rw [hfollowing]
  constructor
  · intro h
    split at h
    · next hone => exact Option.some.inj h ▸ .one hone
    split at h
    · cases h
    split at h
    · exact Option.some.inj h ▸ .two (by omega)
    split at h
    · next hlow => exact Option.some.inj h ▸ .threeLow hlow
    split at h
    · next hscalar => exact Option.some.inj h ▸ .threeScalar hscalar
    split at h
    · exact Option.some.inj h ▸ .three (by omega) (by omega)
    split at h
    · next hlow => exact Option.some.inj h ▸ .fourLow hlow
    split at h
    · exact Option.some.inj h ▸ .four (by omega)
    split at h
    · next hhigh => exact Option.some.inj h ▸ .fourHigh hhigh
    · cases h
  · intro h
    cases h with
    | one h => rw [if_pos h]
    | two h => rw [if_neg (by omega), if_neg (by omega), if_pos h.2]
    | threeLow h | threeScalar h | fourLow h | fourHigh h => simp [h]
    | three h hne =>
        rw [if_neg (by omega), if_neg (by omega), if_neg (by omega), if_neg (by omega), if_neg hne,
          if_pos h.2]
    | four h =>
        rw [if_neg (by omega), if_neg (by omega), if_neg (by omega), if_neg (by omega),
          if_neg (by omega), if_neg (by omega), if_neg (by omega), if_pos h.2]

/-- The octets meet the ranges, one octet to a range. -/
def Meets (rs : List OctetRange) (bs : Bytes) : Prop :=
  List.Forall₂ (fun r b => r.lo.toNat ≤ b.toNat ∧ b.toNat ≤ r.hi.toNat) rs bs

/-! ## The table admits the encodings of characters -/

/-- A code point of two octets. -/
private theorem admits_two {v : Nat} (hlow : 0x7F < v) (hhigh : v ≤ 0x7FF) :
    ∃ ranges, Row (.ofNat (v / 64 % 0x20 + 0xC0)) ranges ∧
      Meets ranges [.ofNat (v % 0x40 + 0x80)] := by
  refine ⟨_, .two ?_, ?_⟩
  · rw [UInt8.toNat_ofNat']
    omega
  · simp [Meets, continuation]
    omega

/-- A code point of three octets. The second is restricted where a shorter form or a surrogate would
be next to it. -/
private theorem admits_three {v : Nat} (hlow : 0x7FF < v) (hhigh : v ≤ 0xFFFF)
    (hscalar : v < 0xD800 ∨ 0xDFFF < v) :
    ∃ ranges, Row (.ofNat (v / 4096 % 0x10 + 0xE0)) ranges ∧
      Meets ranges [.ofNat (v / 64 % 0x40 + 0x80), .ofNat (v % 0x40 + 0x80)] := by
  have hlead : (UInt8.ofNat (v / 4096 % 0x10 + 0xE0)).toNat = v / 4096 + 0xE0 := by
    rw [UInt8.toNat_ofNat']
    omega
  by_cases hfirst : v < 0x1000
  · refine ⟨_, .threeLow (by omega), ?_⟩
    simp [Meets, continuation]
    omega
  by_cases hsurrogate : 0xD000 ≤ v ∧ v < 0xE000
  · refine ⟨_, .threeScalar (by omega), ?_⟩
    simp [Meets, continuation]
    omega
  · refine ⟨_, .three (by omega) (by omega), ?_⟩
    simp [Meets, continuation]
    omega

/-- A code point of four octets. The second is restricted at either end of their range. -/
private theorem admits_four {v : Nat} (hlow : 0xFFFF < v) (hhigh : v < 0x110000) :
    ∃ ranges, Row (.ofNat (v / 262144 % 0x08 + 0xF0)) ranges ∧
      Meets ranges [.ofNat (v / 4096 % 0x40 + 0x80), .ofNat (v / 64 % 0x40 + 0x80),
        .ofNat (v % 0x40 + 0x80)] := by
  have hlead : (UInt8.ofNat (v / 262144 % 0x08 + 0xF0)).toNat = v / 262144 + 0xF0 := by
    rw [UInt8.toNat_ofNat']
    omega
  by_cases hfirst : v < 0x40000
  · refine ⟨_, .fourLow (by omega), ?_⟩
    simp [Meets, continuation]
    omega
  by_cases hlast : v < 0x100000
  · refine ⟨_, .four (by omega), ?_⟩
    simp [Meets, continuation]
    omega
  · refine ⟨_, .fourHigh (by omega), ?_⟩
    simp [Meets, continuation]
    omega

/-- The encoding of every character meets the table. -/
theorem exists_meets_utf8EncodeChar (c : Char) : ∃ lead tail ranges,
    utf8EncodeChar c = lead :: tail ∧ following lead = some ranges ∧ Meets ranges tail := by
  have hc := c.valid
  simp only [UInt32.isValidChar, Nat.isValidChar] at hc
  unfold utf8EncodeChar
  generalize c.val.toNat = v at *
  by_cases h1 : v ≤ 0x7F
  · refine ⟨_, _, [], if_pos h1, following_eq_some_iff.2 (.one ?_), .nil⟩
    rw [UInt8.toNat_ofNat']
    omega
  rw [if_neg h1]
  by_cases h2 : v ≤ 0x7FF
  · obtain ⟨ranges, hlead, htail⟩ := admits_two (v := v) (by omega) h2
    exact ⟨_, _, ranges, if_pos h2, following_eq_some_iff.2 hlead, htail⟩
  rw [if_neg h2]
  by_cases h3 : v ≤ 0xFFFF
  · obtain ⟨ranges, hlead, htail⟩ := admits_three (v := v) (by omega) h3 (by omega)
    exact ⟨_, _, ranges, if_pos h3, following_eq_some_iff.2 hlead, htail⟩
  · obtain ⟨ranges, hlead, htail⟩ := admits_four (v := v) (by omega) (by omega)
    exact ⟨_, _, ranges, if_neg h3, following_eq_some_iff.2 hlead, htail⟩

/-- A number that is a code point is that of a character. -/
private theorem exists_char_of_isValidChar {v : Nat} (hv : v.isValidChar) :
    ∃ c : Char, c.val.toNat = v := by
  use Char.ofNat v
  rw [Char.ofNat, dif_pos hv]
  rfl

/-- Two octets that meet the table are the encoding of a character. -/
private theorem exists_of_two {a b : UInt8} (ha : 0xC2 ≤ a.toNat) (ha' : a.toNat ≤ 0xDF)
    (hb : 0x80 ≤ b.toNat) (hb' : b.toNat ≤ 0xBF) : ∃ c, utf8EncodeChar c = [a, b] := by
  obtain ⟨c, hc⟩ := exists_char_of_isValidChar
    (v := a.toNat % 32 * 64 + b.toNat % 64) (.inl (by omega))
  use c
  unfold utf8EncodeChar
  rw [hc, if_neg (by omega), if_pos (by omega)]
  simp only [List.cons.injEq, ← UInt8.toNat_inj, UInt8.toNat_ofNat', and_true]
  omega

/-- Three octets are the encoding of a character if what they spell needs three octets and is no
surrogate. -/
private theorem exists_of_three {a b c : UInt8} (ha : 0xE0 ≤ a.toNat) (ha' : a.toNat ≤ 0xEF)
    (hb : 0x80 ≤ b.toNat) (hb' : b.toNat ≤ 0xBF) (hc : 0x80 ≤ c.toNat) (hc' : c.toNat ≤ 0xBF)
    (hlong : 0xE0 < a.toNat ∨ 0xA0 ≤ b.toNat) (hscalar : a.toNat ≠ 0xED ∨ b.toNat ≤ 0x9F) :
    ∃ ch, utf8EncodeChar ch = [a, b, c] := by
  obtain ⟨ch, hch⟩ := exists_char_of_isValidChar
    (v := a.toNat % 16 * 4096 + b.toNat % 64 * 64 + c.toNat % 64)
    (by simp only [Nat.isValidChar]; omega)
  use ch
  unfold utf8EncodeChar
  rw [hch, if_neg (by omega), if_neg (by omega), if_pos (by omega)]
  simp only [List.cons.injEq, ← UInt8.toNat_inj, UInt8.toNat_ofNat', and_true]
  omega

/-- Four octets are the encoding of a character if what they spell needs four octets and is not
above the last code point. -/
private theorem exists_of_four {a b c d : UInt8} (ha : 0xF0 ≤ a.toNat) (ha' : a.toNat ≤ 0xF4)
    (hb : 0x80 ≤ b.toNat) (hb' : b.toNat ≤ 0xBF) (hc : 0x80 ≤ c.toNat) (hc' : c.toNat ≤ 0xBF)
    (hd : 0x80 ≤ d.toNat) (hd' : d.toNat ≤ 0xBF) (hlong : 0xF0 < a.toNat ∨ 0x90 ≤ b.toNat)
    (hlast : a.toNat < 0xF4 ∨ b.toNat ≤ 0x8F) : ∃ ch, utf8EncodeChar ch = [a, b, c, d] := by
  obtain ⟨ch, hch⟩ := exists_char_of_isValidChar
    (v := a.toNat % 8 * 262144 + b.toNat % 64 * 4096 + c.toNat % 64 * 64 + d.toNat % 64)
    (by simp only [Nat.isValidChar]; omega)
  use ch
  unfold utf8EncodeChar
  rw [hch, if_neg (by omega), if_neg (by omega), if_neg (by omega)]
  simp only [List.cons.injEq, ← UInt8.toNat_inj, UInt8.toNat_ofNat', and_true]
  omega

/-- What meets one range. -/
private theorem meets_one {r : OctetRange} {tail : Bytes} (h : Meets [r] tail) :
    ∃ b, tail = [b] ∧ r.lo.toNat ≤ b.toNat ∧ b.toNat ≤ r.hi.toNat := by
  obtain ⟨b, rest, hb, hrest, rfl⟩ := List.forall₂_cons_left_iff.1 h
  obtain rfl := List.forall₂_nil_left_iff.1 hrest
  exact ⟨b, rfl, hb⟩

/-- What meets two ranges. -/
private theorem meets_two {r s : OctetRange} {tail : Bytes} (h : Meets [r, s] tail) :
    ∃ b c, tail = [b, c] ∧ (r.lo.toNat ≤ b.toNat ∧ b.toNat ≤ r.hi.toNat) ∧
      (s.lo.toNat ≤ c.toNat ∧ c.toNat ≤ s.hi.toNat) := by
  obtain ⟨b, rest, hb, hrest, rfl⟩ := List.forall₂_cons_left_iff.1 h
  obtain ⟨c, rfl, hc⟩ := meets_one hrest
  exact ⟨b, c, rfl, hb, hc⟩

/-- What meets three ranges. -/
private theorem meets_three {r s t : OctetRange} {tail : Bytes} (h : Meets [r, s, t] tail) :
    ∃ b c d, tail = [b, c, d] ∧ (r.lo.toNat ≤ b.toNat ∧ b.toNat ≤ r.hi.toNat) ∧
      (s.lo.toNat ≤ c.toNat ∧ c.toNat ≤ s.hi.toNat) ∧
      (t.lo.toNat ≤ d.toNat ∧ d.toNat ≤ t.hi.toNat) := by
  obtain ⟨b, rest, hb, hrest, rfl⟩ := List.forall₂_cons_left_iff.1 h
  obtain ⟨c, d, rfl, hc, hd⟩ := meets_two hrest
  exact ⟨b, c, d, rfl, hb, hc, hd⟩

/-- Whatever meets the table is the encoding of a character. -/
theorem exists_utf8EncodeChar_of_meets {lead : UInt8} {ranges : List OctetRange} {tail : Bytes}
    (hl : following lead = some ranges) (ht : Meets ranges tail) :
    ∃ c, utf8EncodeChar c = lead :: tail := by
  cases following_eq_some_iff.1 hl with
  | one h =>
      obtain rfl : tail = [] := List.forall₂_nil_left_iff.1 ht
      obtain ⟨c, hc⟩ := exists_char_of_isValidChar (v := lead.toNat) (.inl (by omega))
      use c
      unfold utf8EncodeChar
      rw [hc, if_pos h, UInt8.ofNat_toNat]
  | two h =>
      obtain ⟨b, rfl, hb⟩ := meets_one ht
      exact exists_of_two h.1 h.2 hb.1 hb.2
  | threeLow h =>
      obtain ⟨b, c, rfl, hb, hc⟩ := meets_two ht
      have hlow : 0xA0 ≤ b.toNat := hb.1
      exact exists_of_three (by omega) (by omega) (by omega) hb.2 hc.1 hc.2 (.inr hlow) (by omega)
  | three h hne =>
      obtain ⟨b, c, rfl, hb, hc⟩ := meets_two ht
      exact exists_of_three (by omega) h.2 hb.1 hb.2 hc.1 hc.2 (by omega) (.inl hne)
  | threeScalar h =>
      obtain ⟨b, c, rfl, hb, hc⟩ := meets_two ht
      have hhigh : b.toNat ≤ 0x9F := hb.2
      exact exists_of_three (by omega) (by omega) hb.1 (by omega) hc.1 hc.2 (by omega) (.inr hhigh)
  | fourLow h =>
      obtain ⟨b, c, d, rfl, hb, hc, hd⟩ := meets_three ht
      have hlow : 0x90 ≤ b.toNat := hb.1
      exact exists_of_four (by omega) (by omega) (by omega) hb.2 hc.1 hc.2 hd.1 hd.2 (.inr hlow)
        (by omega)
  | four h =>
      obtain ⟨b, c, d, rfl, hb, hc, hd⟩ := meets_three ht
      exact exists_of_four (by omega) (by omega) hb.1 hb.2 hc.1 hc.2 hd.1 hd.2 (by omega) (by omega)
  | fourHigh h =>
      obtain ⟨b, c, d, rfl, hb, hc, hd⟩ := meets_three ht
      have hhigh : b.toNat ≤ 0x8F := hb.2
      exact exists_of_four (by omega) (by omega) hb.1 (by omega) hc.1 hc.2 hd.1 hd.2 (by omega)
        (.inr hhigh)

/-- Assembling the octets of a character gives it back. -/
theorem assemble_of_utf8EncodeChar {c : Char} {lead : UInt8} {tail : Bytes}
    (h : utf8EncodeChar c = lead :: tail) : assemble lead tail = c := by
  have hc := c.valid
  simp only [UInt32.isValidChar, Nat.isValidChar] at hc
  have hback : Char.ofNat c.val.toNat = c := Char.ofNat_toNat c
  unfold utf8EncodeChar at h
  rw [← hback]
  generalize c.val.toNat = v at *
  dsimp only at h
  -- The lead keeps what its length marker leaves free: nothing is lost by the remainders.
  split at h
  · obtain ⟨rfl, rfl⟩ := List.cons.inj h
    simp only [assemble, List.isEmpty_nil, if_true, List.foldl_nil, UInt8.toNat_ofNat']
    rw [Nat.mod_eq_of_lt (by omega)]
  split at h
  on_goal 2 => split at h
  all_goals
    obtain ⟨rfl, rfl⟩ := List.cons.inj h
    simp only [assemble, List.isEmpty_cons, Bool.false_eq_true, if_false, List.foldl_cons,
      List.foldl_nil, List.length_cons, List.length_nil, Nat.one_shiftLeft, UInt8.toNat_ofNat']
    congr 1
    omega

/-! ## Fitting -/

theorem fit_of_meets {rs : List OctetRange} {taken : Bytes} (rest : Bytes) (h : Meets rs taken) :
    fit rs (taken ++ rest) = .full taken rest := by
  induction h with
  | nil => rfl
  | cons hb _ ih =>
      rw [List.cons_append, fit, if_pos ((holds_iff _ _).2 hb), ih]
      rfl

theorem meets_of_fit_eq_full {rs : List OctetRange} {bs taken rest : Bytes}
    (h : fit rs bs = .full taken rest) : Meets rs taken := by
  induction rs generalizing bs taken rest with
  | nil =>
      simp only [fit, Fit.full.injEq] at h
      exact h.1 ▸ .nil
  | cons r rs ih =>
      cases bs with
      | nil => simp [fit] at h
      | cons b bs =>
          simp only [fit] at h
          split at h
          · next hb =>
            cases hf : fit rs bs with
            | full t rest' =>
                simp only [hf, Fit.push, Fit.full.injEq] at h
                exact h.1 ▸ .cons ((holds_iff r b).1 hb) (ih hf)
            | short => simp [hf, Fit.push] at h
            | broken n => simp [hf, Fit.push] at h
          · simp at h

/-- No range of the table is empty. -/
theorem lo_le_hi_of_following {lead : UInt8} {ranges : List OctetRange}
    (h : following lead = some ranges) : ∀ r ∈ ranges, r.lo.toNat ≤ r.hi.toNat := by
  cases following_eq_some_iff.1 h <;> decide

/-- Ranges of which none is empty are met by something. -/
private theorem exists_meets {rs : List OctetRange} (hrs : ∀ r ∈ rs, r.lo.toNat ≤ r.hi.toNat) :
    ∃ bs, Meets rs bs := by
  induction rs with
  | nil => exact ⟨[], .nil⟩
  | cons r rs ih =>
      obtain ⟨bs, hbs⟩ := ih fun x hx => hrs x (.tail _ hx)
      exact ⟨r.lo :: bs, .cons ⟨Nat.le_refl _, hrs r (.head _)⟩ hbs⟩

/-- Octets that run out can be completed. -/
theorem exists_meets_of_fit_eq_short {rs : List OctetRange} {bs : Bytes}
    (hrs : ∀ r ∈ rs, r.lo.toNat ≤ r.hi.toNat) (h : fit rs bs = .short) :
    ∃ more, more ≠ [] ∧ Meets rs (bs ++ more) := by
  induction rs generalizing bs with
  | nil => simp [fit] at h
  | cons r rs ih =>
      have hrs' : ∀ x ∈ rs, x.lo.toNat ≤ x.hi.toNat := fun x hx => hrs x (.tail _ hx)
      cases bs with
      | nil =>
          obtain ⟨more, hmore⟩ := exists_meets hrs
          refine ⟨more, ?_, hmore⟩
          rintro rfl
          cases hmore
      | cons b bs =>
          simp only [fit] at h
          split at h
          · next hb =>
            cases hf : fit rs bs with
            | full t rest => simp [hf, Fit.push] at h
            | broken n => simp [hf, Fit.push] at h
            | short =>
                obtain ⟨more, hne, hmore⟩ := ih hrs' hf
                exact ⟨more, hne, .cons ((holds_iff r b).1 hb) hmore⟩
          · simp at h

/-- Octets that break after `n` can be completed up to there, and no further. -/
theorem meets_of_fit_eq_broken {rs : List OctetRange} {bs : Bytes} {n : Nat}
    (hrs : ∀ r ∈ rs, r.lo.toNat ≤ r.hi.toNat) (h : fit rs bs = .broken n) :
    (∃ more, Meets rs (bs.take n ++ more)) ∧ ∀ more, ¬ Meets rs (bs.take (n + 1) ++ more) := by
  induction rs generalizing bs n with
  | nil => simp [fit] at h
  | cons r rs ih =>
      have hrs' : ∀ x ∈ rs, x.lo.toNat ≤ x.hi.toNat := fun x hx => hrs x (.tail _ hx)
      cases bs with
      | nil => simp [fit] at h
      | cons b bs =>
          simp only [fit] at h
          split at h
          · next hb =>
            cases hf : fit rs bs with
            | full t rest => simp [hf, Fit.push] at h
            | short => simp [hf, Fit.push] at h
            | broken m =>
                simp only [hf, Fit.push, Fit.broken.injEq] at h
                obtain rfl := h
                obtain ⟨⟨more, hmore⟩, hno⟩ := ih hrs' hf
                constructor
                · exact ⟨more, .cons ((holds_iff r b).1 hb) hmore⟩
                · intro more hm
                  exact hno more (List.forall₂_cons.1 hm).2
          · next hb =>
            obtain rfl : n = 0 := (Fit.broken.inj h).symm
            constructor
            · exact exists_meets hrs
            · intro more hm
              exact hb ((holds_iff r b).2 (List.forall₂_cons.1 hm).1)

/-! ## Beginnings of encodings -/

/-- The octets begin the encoding of some character. -/
def Opens (front : Bytes) : Prop := ∃ c, front <+: utf8EncodeChar c

theorem opens_cons_iff {lead : UInt8} {bs : Bytes} : Opens (lead :: bs) ↔
    ∃ ranges, following lead = some ranges ∧ ∃ more, Meets ranges (bs ++ more) := by
  constructor
  · rintro ⟨c, more, hc⟩
    obtain ⟨lead', tail, ranges, he, hl, ht⟩ := exists_meets_utf8EncodeChar c
    rw [← hc, List.cons_append] at he
    obtain ⟨rfl, rfl⟩ := List.cons.inj he
    exact ⟨ranges, hl, more, ht⟩
  · rintro ⟨ranges, hl, more, ht⟩
    obtain ⟨c, hc⟩ := exists_utf8EncodeChar_of_meets hl ht
    exact ⟨c, more, by rw [hc, List.cons_append]⟩

/-- The octets are the beginning of a character's encoding, and more of it is missing. -/
def CutShort (bs : Bytes) : Prop := bs ≠ [] ∧ ∃ c, bs <+: utf8EncodeChar c ∧ bs ≠ utf8EncodeChar c

/--
`bad` is the maximal malformed part at the front of `bad ++ rest`.

No character stands there, whole or cut short by the end; `bad` is the longest front that begins the
encoding of a character, or a single octet if no front does.
-/
structure MalformedPart (bad rest : Bytes) : Prop where
  not_char : ∀ c, ¬ utf8EncodeChar c <+: bad ++ rest
  not_cut : ¬ Opens (bad ++ rest)
  ne_nil : bad ≠ []
  longest : ∀ front, front <+: bad ++ rest → Opens front → front.length ≤ bad.length
  opens : Opens bad ∨ bad.length = 1

/-- A byte sequence has one maximal malformed part at most. -/
theorem MalformedPart.unique {bad rest bad' rest' : Bytes} (h : MalformedPart bad rest)
    (h' : MalformedPart bad' rest') (he : bad ++ rest = bad' ++ rest') :
    bad = bad' ∧ rest = rest' := by
  have hpos : 0 < bad.length := List.length_pos_iff.2 h.ne_nil
  have hpos' : 0 < bad'.length := List.length_pos_iff.2 h'.ne_nil
  have hle : bad.length ≤ bad'.length := by
    rcases h.opens with ho | ho
    · exact h'.longest bad ⟨rest, he⟩ ho
    · omega
  have hle' : bad'.length ≤ bad.length := by
    rcases h'.opens with ho | ho
    · exact h.longest bad' ⟨rest', he.symm⟩ ho
    · omega
  exact List.append_inj he (by omega)

/-! ## What the answers of `next` mean -/

theorem next_utf8EncodeChar_append (c : Char) (rest : Bytes) :
    next (utf8EncodeChar c ++ rest) = .char c rest := by
  obtain ⟨lead, tail, ranges, he, hl, ht⟩ := exists_meets_utf8EncodeChar c
  rw [he, List.cons_append, next, hl]
  simp only [fit_of_meets rest ht, assemble_of_utf8EncodeChar he]

/-- A character is reported exactly if its encoding stands in front. -/
theorem next_eq_char_iff {bs rest : Bytes} {c : Char} :
    next bs = .char c rest ↔ bs = utf8EncodeChar c ++ rest := by
  constructor
  · intro h
    cases bs with
    | nil => simp [next] at h
    | cons lead bs =>
        simp only [next] at h
        split at h
        · simp at h
        · next ranges hl =>
          cases hf : fit ranges bs with
          | short => simp [hf] at h
          | broken n => simp [hf] at h
          | full taken r =>
              simp only [hf, Next.char.injEq] at h
              obtain ⟨hc, rfl⟩ := h
              obtain ⟨d, hd⟩ := exists_utf8EncodeChar_of_meets hl (meets_of_fit_eq_full hf)
              rw [← hc, assemble_of_utf8EncodeChar hd, hd, (length_of_fit_eq_full hf).1,
                List.cons_append]
  · rintro rfl
    exact next_utf8EncodeChar_append c rest

theorem next_eq_ended_iff {bs : Bytes} : next bs = .ended ↔ bs = [] := by
  constructor
  · intro h
    cases bs with
    | nil => rfl
    | cons lead bs =>
        simp only [next] at h
        repeat' split at h
        all_goals simp at h
  · rintro rfl
    rfl

/-- Where the octets break after `n`, no front of more than `n` can be completed. -/
private theorem length_le_of_meets_append {rs : List OctetRange} {bs front more : Bytes} {n : Nat}
    (hno : ∀ more, ¬ Meets rs (bs.take (n + 1) ++ more)) (hfront : front <+: bs)
    (hm : Meets rs (front ++ more)) : front.length ≤ n := by
  by_contra hlt
  have htake : bs.take (n + 1) = front.take (n + 1) := by
    obtain ⟨t, rfl⟩ := hfront
    exact List.take_append_of_le_length (by omega)
  apply hno (front.drop (n + 1) ++ more)
  rw [htake, ← List.append_assoc, List.take_append_drop]
  exact hm

/-- No character stands where a malformed part is reported. -/
private theorem not_char_of_next {bs rest : Bytes} {n : Nat} (h : next bs = .malformed n rest)
    (c : Char) : ¬ utf8EncodeChar c <+: bs := by
  rintro ⟨t, rfl⟩
  rw [next_utf8EncodeChar_append] at h
  cases h

/-- An octet that leads no sequence of the table begins nothing. -/
private theorem not_opens_of_following {lead : UInt8} (hl : following lead = none) (front : Bytes) :
    ¬ Opens (lead :: front) := by
  intro ho
  obtain ⟨ranges, hr, _⟩ := opens_cons_iff.1 ho
  rw [hl] at hr
  cases hr

private theorem malformedPart_of_following {lead : UInt8} {bs : Bytes}
    (hl : following lead = none) : MalformedPart [lead] bs where
  not_char := not_char_of_next (show next (lead :: bs) = .malformed 1 bs by rw [next, hl])
  not_cut := not_opens_of_following hl bs
  ne_nil := List.cons_ne_nil lead []
  longest := by
    intro front hfront ho
    rcases front with _ | ⟨b, front⟩
    · exact Nat.zero_le 1
    · obtain ⟨rfl, -⟩ := List.cons_prefix_cons.1 hfront
      exact absurd ho (not_opens_of_following hl front)
  opens := .inr rfl

/-- The octets that were accepted before a sequence broke. -/
private theorem malformedPart_of_broken {lead : UInt8} {ranges : List OctetRange} {bs : Bytes}
    {m : Nat} (hl : following lead = some ranges) (hf : fit ranges bs = .broken m) :
    MalformedPart (lead :: bs.take m) (bs.drop m) := by
  have hm : m < bs.length := lt_length_of_fit_eq_broken hf
  have hnext : next (lead :: bs) = .malformed (m + 1) (bs.drop m) := by
    simp only [next, hl, hf]
  have hsplit : lead :: bs.take m ++ bs.drop m = lead :: bs := by
    rw [List.cons_append, List.take_append_drop]
  obtain ⟨hyes, hno⟩ := meets_of_fit_eq_broken (lo_le_hi_of_following hl) hf
  have hlong (front : Bytes) (hfront : front <+: bs) (ho : Opens (lead :: front)) :
      front.length ≤ m := by
    obtain ⟨ranges', hl', more, hmeets⟩ := opens_cons_iff.1 ho
    obtain rfl : ranges = ranges' := Option.some.inj (hl.symm.trans hl')
    exact length_le_of_meets_append hno hfront hmeets
  constructor
  · rw [hsplit]
    exact not_char_of_next hnext
  · rw [hsplit]
    intro ho
    have hle := hlong bs (List.prefix_refl bs) ho
    omega
  · exact List.cons_ne_nil lead _
  · rw [hsplit]
    intro front hfront ho
    rcases front with _ | ⟨b, front⟩
    · exact Nat.zero_le _
    · obtain ⟨rfl, hpre⟩ := List.cons_prefix_cons.1 hfront
      have hle := hlong front hpre ho
      simp only [List.length_cons, List.length_take]
      omega
  · exact .inl (opens_cons_iff.2 ⟨ranges, hl, hyes⟩)

/-- What is reported as malformed is the maximal malformed part. -/
theorem malformedPart_of_next {bs rest : Bytes} {n : Nat} (h : next bs = .malformed n rest) :
    ∃ bad, bs = bad ++ rest ∧ bad.length = n ∧ MalformedPart bad rest := by
  cases bs with
  | nil => simp [next] at h
  | cons lead bs =>
      simp only [next] at h
      split at h
      · next hl =>
        obtain ⟨rfl, rfl⟩ := Next.malformed.inj h
        exact ⟨[lead], rfl, rfl, malformedPart_of_following hl⟩
      · next ranges hl =>
        cases hf : fit ranges bs with
        | full taken r => simp [hf] at h
        | short => simp [hf] at h
        | broken m =>
            simp only [hf] at h
            obtain ⟨rfl, rfl⟩ := Next.malformed.inj h
            have hm : m < bs.length := lt_length_of_fit_eq_broken hf
            use lead :: bs.take m
            constructor
            · rw [List.cons_append, List.take_append_drop]
            · constructor
              · rw [List.length_cons, List.length_take]
                omega
              · exact malformedPart_of_broken hl hf

theorem cutShort_of_next {bs : Bytes} (h : next bs = .truncated) : CutShort bs := by
  cases bs with
  | nil => simp [next] at h
  | cons lead bs =>
      simp only [next] at h
      split at h
      · simp at h
      · next ranges hl =>
        cases hf : fit ranges bs with
        | full taken r => simp [hf] at h
        | broken m => simp [hf] at h
        | short =>
            obtain ⟨more, hne, hmore⟩ :=
              exists_meets_of_fit_eq_short (lo_le_hi_of_following hl) hf
            obtain ⟨c, hc⟩ := exists_utf8EncodeChar_of_meets hl hmore
            refine ⟨by simp, c, ⟨more, by rw [hc, List.cons_append]⟩, fun heq => hne ?_⟩
            rw [hc, ← List.cons_append] at heq
            exact List.self_eq_append_right.1 heq

/-- A cut character is no whole one. -/
theorem CutShort.not_char {bs : Bytes} (h : CutShort bs) (c : Char) :
    ¬ utf8EncodeChar c <+: bs := by
  rintro ⟨t, rfl⟩
  obtain ⟨_, d, ⟨t', ht'⟩, hne⟩ := h
  have hd : next (utf8EncodeChar d) = .char d [] := by
    simpa using next_utf8EncodeChar_append d []
  rw [← ht', List.append_assoc, next_utf8EncodeChar_append] at hd
  obtain ⟨rfl, hnil⟩ := Next.char.inj hd
  rw [(List.append_eq_nil_iff.1 hnil).1, List.append_nil] at hne
  exact hne rfl

theorem CutShort.length_le {bs : Bytes} (h : CutShort bs) : bs.length ≤ 3 := by
  obtain ⟨_, c, hc, hne⟩ := h
  have hle : bs.length ≤ (utf8EncodeChar c).length := hc.length_le
  have hlt : bs.length ≠ (utf8EncodeChar c).length := fun he => hne (hc.eq_of_length he)
  have hsize : (utf8EncodeChar c).length ≤ 4 := by
    rw [String.length_utf8EncodeChar]
    exact c.utf8Size_le_four
  omega

/-- A sequence is reported truncated exactly if it is a character cut short. -/
theorem next_eq_truncated_iff {bs : Bytes} : next bs = .truncated ↔ CutShort bs := by
  constructor
  · exact cutShort_of_next
  · intro h
    cases hn : next bs with
    | ended => exact absurd (next_eq_ended_iff.1 hn) h.1
    | truncated => rfl
    | char c rest => exact absurd ⟨rest, (next_eq_char_iff.1 hn).symm⟩ (h.not_char c)
    | malformed n rest =>
        obtain ⟨bad, rfl, _, hbad⟩ := malformedPart_of_next hn
        obtain ⟨_, c, hc, _⟩ := h
        exact absurd ⟨c, hc⟩ hbad.not_cut

/-- A malformed part is reported exactly if the maximal one stands in front. -/
theorem next_eq_malformed_iff {bs rest : Bytes} {n : Nat} : next bs = .malformed n rest ↔
    ∃ bad, bs = bad ++ rest ∧ bad.length = n ∧ MalformedPart bad rest := by
  constructor
  · exact malformedPart_of_next
  · rintro ⟨bad, rfl, rfl, hbad⟩
    cases hn : next (bad ++ rest) with
    | ended => exact absurd (List.append_eq_nil_iff.1 (next_eq_ended_iff.1 hn)).1 hbad.ne_nil
    | truncated =>
        obtain ⟨_, c, hc, _⟩ := cutShort_of_next hn
        exact absurd ⟨c, hc⟩ hbad.not_cut
    | char c r => exact absurd ⟨r, (next_eq_char_iff.1 hn).symm⟩ (hbad.not_char c)
    | malformed m r =>
        obtain ⟨bad', he, rfl, hbad'⟩ := malformedPart_of_next hn
        obtain ⟨rfl, rfl⟩ := hbad.unique hbad' he
        rfl

end TextLink.Text.Utf8
