import TextLink.SlotTable

/-!
# A table of slots is a finite map

Read through `get?`, a table is a map from indices to values: storing, replacing and taking out each
change it at one index only. What lies behind the map is kept in step with it by every operation
(`Sound`): the stack holds each vacant index once, and the size counts the values.

## Main results

* `get?_insertWith`, `get?_remove`, `get?_set` — what each operation does to the map.
* `Sound.insertWith`, `Sound.remove`, `Sound.set` — the rest follows it.
* `mem_keys_iff`, `isEmpty_iff` — what is listed and counted is what the map holds.
-/

namespace TextLink.SlotTable

variable {α : Type} {t : SlotTable α} {i j : Nat} {v w : α}

/-! ## The map -/

theorem get?_eq_some_iff : t.get? i = some v ↔ t.slots[i]? = some (some v) := by
  rw [get?, Option.join_eq_some_iff]

theorem exists_slot_of_get? (h : t.get? i = some w) :
    ∃ hlt : i < t.slots.length, t.slots[i] = some w :=
  List.getElem?_eq_some_iff.1 (get?_eq_some_iff.1 h)

theorem lt_length_of_get? (h : t.get? i = some v) : i < t.slots.length := by
  have ⟨hlt, _⟩ := exists_slot_of_get? h
  exact hlt

theorem get?_of_length_le (h : t.slots.length ≤ i) : t.get? i = none := by
  rw [get?, List.getElem?_eq_none h]
  rfl

/-- The map behind a list of slots with another one in place `i`. -/
theorem join_getElem?_set {slots : List (Option α)} (hi : i < slots.length) (x : Option α) :
    (slots.set i x)[j]?.join = if j = i then x else slots[j]?.join := by
  by_cases hj : j = i
  · rw [if_pos hj, hj, List.getElem?_set_self hi]
    rfl
  · rw [if_neg hj, List.getElem?_set_ne (Ne.symm hj)]

theorem get?_set (h : t.get? i = some w) :
    (t.set i v).get? j = if j = i then some v else t.get? j := by
  rw [set, if_pos (by rw [h]; rfl)]
  exact join_getElem?_set (lt_length_of_get? h) (some v)

theorem set_of_get?_none (h : t.get? i = none) : t.set i v = t := by
  rw [set, if_neg (by rw [h]; exact Bool.false_ne_true)]

theorem get?_remove : (t.remove i).2.get? j = if j = i then none else t.get? j := by
  unfold remove
  split
  · next h =>
    by_cases hj : j = i
    · rw [if_pos hj, hj, h]
    · rw [if_neg hj]
  · next v h => exact join_getElem?_set (lt_length_of_get? h) none

/-- What is stored where something is taken out does not matter. -/
theorem remove_set (h : t.get? i = some w) : ((t.set i v).remove i).2 = (t.remove i).2 := by
  have hset : (t.set i v).get? i = some v := by rw [get?_set h, if_pos rfl]
  rw [remove, hset, remove, h, set, if_pos (by rw [h]; rfl)]
  simp only [List.set_set]

/-! ## What lies behind the map -/

/-- The free stack and the size agree with the slots. -/
structure Sound (t : SlotTable α) : Prop where
  free_nodup : t.free.Nodup
  mem_free_iff : ∀ i, i ∈ t.free ↔ i < t.slots.length ∧ t.get? i = none
  size_eq : t.size = t.values.length

theorem length_values : t.values.length = t.slots.countP Option.isSome := by
  rw [values, List.length_filterMap_eq_countP]
  rfl

theorem mem_values_iff : v ∈ t.values ↔ ∃ i, t.get? i = some v := by
  rw [values, List.mem_filterMap]
  constructor
  · rintro ⟨x, hx, rfl⟩
    have ⟨i, hi⟩ := List.mem_iff_getElem?.1 hx
    exact ⟨i, get?_eq_some_iff.2 hi⟩
  · rintro ⟨i, hi⟩
    exact ⟨some v, List.mem_of_getElem? (get?_eq_some_iff.1 hi), rfl⟩

theorem mem_keys_iff : i ∈ t.keys ↔ ∃ v, t.get? i = some v := by
  rw [keys, List.mem_filterMap]
  constructor
  · rintro ⟨⟨slot, n⟩, hmem, hslot⟩
    have hn := List.mem_zipIdx_iff_getElem?.1 hmem
    rcases slot with _ | v
    · cases hslot
    · have hni : n = i := Option.some.inj hslot
      exact ⟨v, get?_eq_some_iff.2 (hni ▸ hn)⟩
  · rintro ⟨v, hv⟩
    exact ⟨(some v, i), List.mem_zipIdx_iff_getElem?.2 (get?_eq_some_iff.1 hv), rfl⟩

theorem isEmpty_iff (h : t.Sound) : t.isEmpty = true ↔ ∀ i, t.get? i = none := by
  rw [isEmpty, beq_iff_eq, h.size_eq, List.length_eq_zero_iff, List.eq_nil_iff_forall_not_mem]
  constructor
  · intro hnone i
    rcases hi : t.get? i with _ | v
    · rfl
    · exact absurd (mem_values_iff.2 ⟨i, hi⟩) (hnone v)
  · intro hnone v hv
    have ⟨i, hi⟩ := mem_values_iff.1 hv
    rw [hnone i] at hi
    cases hi

theorem sound_ofSize (n : Nat) : (ofSize n : SlotTable α).Sound where
  free_nodup := List.nodup_range
  mem_free_iff i := by
    show i ∈ List.range n ↔ i < (List.replicate n none).length ∧ _
    rw [List.mem_range, List.length_replicate]
    constructor
    · intro hi
      refine ⟨hi, ?_⟩
      show (List.replicate n none)[i]?.join = none
      rw [List.getElem?_replicate_of_lt hi]
      rfl
    · intro hi
      exact hi.1
  size_eq := by
    rw [length_values]
    show 0 = (List.replicate n none).countP Option.isSome
    rw [List.countP_replicate]
    rfl

theorem get?_ofSize (n : Nat) : (ofSize n : SlotTable α).get? i = none := by
  show (List.replicate n none)[i]?.join = none
  rw [List.getElem?_replicate]
  split <;> rfl

theorem Sound.set (h : t.Sound) (i : Nat) (v : α) : (t.set i v).Sound := by
  rcases hi : t.get? i with _ | w
  · rw [set_of_get?_none hi]
    exact h
  · have ⟨hlt, hslot⟩ := exists_slot_of_get? hi
    have hset : t.set i v = { t with slots := t.slots.set i (some v) } := by
      rw [SlotTable.set, if_pos (by rw [hi]; rfl)]
    constructor
    · rw [hset]
      exact h.free_nodup
    · intro j
      rw [get?_set hi, hset, h.mem_free_iff, List.length_set]
      by_cases hj : j = i
      · simp [hj, hi]
      · rw [if_neg hj]
    · rw [length_values, hset]
      show t.size = (t.slots.set i (some v)).countP Option.isSome
      rw [h.size_eq, length_values, List.countP_set hlt, hslot]
      have hpos : 0 < t.slots.countP Option.isSome :=
        List.countP_pos_iff.2 ⟨some w, hslot ▸ List.getElem_mem hlt, rfl⟩
      simp only [Option.isSome_some, if_true]
      omega

theorem Sound.remove (h : t.Sound) (i : Nat) : (t.remove i).2.Sound := by
  rcases hi : t.get? i with _ | w
  · rw [SlotTable.remove, hi]
    exact h
  · have ⟨hlt, hslot⟩ := exists_slot_of_get? hi
    have hremove : (t.remove i).2 =
        { slots := t.slots.set i none, free := i :: t.free, size := t.size - 1 } := by
      rw [SlotTable.remove, hi]
    have hused : i ∉ t.free := by
      rw [h.mem_free_iff, hi]
      exact fun hfree => Option.some_ne_none w hfree.2
    constructor
    · rw [hremove]
      exact List.nodup_cons.2 ⟨hused, h.free_nodup⟩
    · intro j
      rw [get?_remove, hremove]
      show j ∈ i :: t.free ↔ j < (t.slots.set i none).length ∧ _
      rw [List.mem_cons, h.mem_free_iff, List.length_set]
      by_cases hj : j = i
      · simp [hj, hlt]
      · simp [hj]
    · rw [length_values, hremove]
      show t.size - 1 = (t.slots.set i none).countP Option.isSome
      rw [h.size_eq, length_values, List.countP_set hlt, hslot]
      simp

/-! ## Storing a value -/

theorem insertWith_of_free {free : List Nat} (hstack : t.free = i :: free) (make : Nat → α) :
    t.insertWith make =
      (i, { slots := t.slots.set i (some (make i)), free, size := t.size + 1 }) := by
  rw [insertWith, hstack]

theorem insertWith_of_full (hstack : t.free = []) (make : Nat → α) :
    t.insertWith make =
      (t.slots.length,
        { slots := t.slots ++
            some (make t.slots.length) :: List.replicate (t.slots.length - 1) none
          free := List.range' (t.slots.length + 1) (t.slots.length - 1)
          size := t.size + 1 }) := by
  rw [insertWith, hstack]

/-- The map behind a list of slots that has grown by a value and vacant slots. -/
private theorem join_getElem?_grow (slots : List (Option α)) (v : α) (spare : Nat) :
    (slots ++ some v :: List.replicate spare none)[j]?.join =
      if j = slots.length then some v else slots[j]?.join := by
  rcases Nat.lt_trichotomy j slots.length with hj | hj | hj
  · rw [List.getElem?_append_left hj, if_neg (Nat.ne_of_lt hj)]
  · simp [hj]
  · have hpos : j - slots.length = (j - slots.length - 1) + 1 := by omega
    rw [if_neg (Nat.ne_of_gt hj), List.getElem?_append_right (Nat.le_of_lt hj), hpos,
      List.getElem?_cons_succ, List.getElem?_replicate, List.getElem?_eq_none (Nat.le_of_lt hj)]
    split <;> rfl

/-- A value is stored in a slot that was vacant, and all others stay as they are. -/
theorem get?_insertWith (h : t.Sound) (make : Nat → α) :
    t.get? (t.insertWith make).1 = none ∧
      ∀ j, (t.insertWith make).2.get? j =
        if j = (t.insertWith make).1 then some (make j) else t.get? j := by
  rcases hstack : t.free with _ | ⟨i, free⟩
  · rw [insertWith_of_full hstack]
    constructor
    · exact get?_of_length_le (Nat.le_refl _)
    · intro j
      refine (join_getElem?_grow t.slots _ _).trans ?_
      by_cases hj : j = t.slots.length
      · rw [if_pos hj, if_pos hj, hj]
      · rw [if_neg hj, if_neg hj]
        rfl
  · have ⟨hlt, hnone⟩ := (h.mem_free_iff i).1 (hstack ▸ List.mem_cons_self)
    rw [insertWith_of_free hstack]
    constructor
    · exact hnone
    · intro j
      refine (join_getElem?_set hlt _).trans ?_
      by_cases hj : j = i
      · rw [if_pos hj, if_pos hj, hj]
      · rw [if_neg hj, if_neg hj]
        rfl

theorem Sound.insertWith (h : t.Sound) (make : Nat → α) : (t.insertWith make).2.Sound := by
  have ⟨hvacant, hget⟩ := get?_insertWith h make
  rcases hstack : t.free with _ | ⟨i, free⟩
  · rw [insertWith_of_full hstack] at hget ⊢
    constructor
    · exact List.nodup_range'
    · intro j
      have hused : j < t.slots.length → t.get? j ≠ none := by
        intro hj h0
        have hmem := (h.mem_free_iff j).2 ⟨hj, h0⟩
        rw [hstack] at hmem
        cases hmem
      rw [hget, List.mem_range'_1, List.length_append, List.length_cons, List.length_replicate]
      rcases Nat.lt_trichotomy j t.slots.length with hj | hj | hj
      · simp only [if_neg (Nat.ne_of_lt hj), hused hj, and_false, iff_false]
        omega
      · simp only [if_pos hj, reduceCtorEq, and_false, iff_false]
        omega
      · simp only [if_neg (Nat.ne_of_gt hj), get?_of_length_le (Nat.le_of_lt hj), and_true]
        omega
    · rw [length_values, List.countP_append, List.countP_cons, List.countP_replicate]
      show t.size + 1 = _
      rw [h.size_eq, length_values]
      simp
  · have ⟨hlt, hfree⟩ := (h.mem_free_iff i).1 (hstack ▸ List.mem_cons_self)
    have hnodup := List.nodup_cons.1 (hstack ▸ h.free_nodup)
    rw [insertWith_of_free hstack] at hget ⊢
    constructor
    · exact hnodup.2
    · intro j
      have hmem := h.mem_free_iff j
      rw [hstack, List.mem_cons] at hmem
      rw [hget, List.length_set]
      by_cases hj : j = i
      · simp [hj, hnodup.1]
      · rw [if_neg hj, ← hmem]
        simp [hj]
    · have hslot : t.slots[i] = none := by
        rw [get?, List.getElem?_eq_getElem hlt] at hfree
        exact hfree
      rw [length_values]
      show t.size + 1 = (t.slots.set i (some (make i))).countP Option.isSome
      rw [h.size_eq, length_values, List.countP_set hlt, hslot]
      simp

end TextLink.SlotTable
