import Mathlib.Data.List.Basic
import TextLink.Proofs.Slots

/-!
# A table gives back what was stored

A table chooses the indices itself, so what it should hold is read off the record of what was asked
and answered: `SlotHistory.stored` tells for an index the value stored there last, if the index was
not vacated since. The table holds just that, after every history and from every size it may start
with, and everything else it answers or lists follows (`Refines`).

The invariant behind it is `Sound`, that the free stack and the size are in step with the slots. It
is the only thing a step needs to know of a table besides the values in it.

## Main results

* `keys_pairwise`, `map_get?_keys` — what is listed, and in which order.
* `Sound.refines` — how a sound table behaves is said by its map.
* `SlotHistory.refines_stored` — and the map is what was stored.
-/

namespace TextLink

namespace SlotTable

variable {α : Type} {t : SlotTable α} {i : Nat}

/-! ## What is listed -/

/-- The indices are listed in ascending order. -/
theorem keys_pairwise (t : SlotTable α) : t.keys.Pairwise (· < ·) := by
  have hpairwise : (t.slots.zipIdx.map Prod.snd).Pairwise (· < ·) := by
    rw [List.zipIdx_map_snd]
    exact List.pairwise_lt_range'
  rw [keys, List.pairwise_filterMap]
  refine (List.pairwise_map.1 hpairwise).imp ?_
  intro p q hlt i hi j hj
  obtain ⟨_, _, rfl⟩ := Option.map_eq_some_iff.1 hi
  obtain ⟨_, _, rfl⟩ := Option.map_eq_some_iff.1 hj
  exact hlt

/-- The values are listed in the order of their indices. -/
theorem map_get?_keys (t : SlotTable α) : t.keys.map t.get? = t.values.map some := by
  have hslots : t.slots.zipIdx.map Prod.fst = t.slots := List.zipIdx_map_fst ..
  rw [keys, values, List.map_filterMap, List.map_filterMap]
  conv => rhs; rw [← hslots, List.filterMap_map]
  refine List.filterMap_congr fun p hp => ?_
  rcases p with ⟨_ | v, i⟩
  · rfl
  · have hget := List.mem_zipIdx_iff_getElem?.1 hp
    exact congrArg some (get?_eq_some_iff.2 hget)

theorem length_keys (t : SlotTable α) : t.keys.length = t.values.length := by
  rw [← List.length_map t.get?, map_get?_keys, List.length_map]

/-! ## Behaving like a map -/

/-- The table answers and lists what the map `m` says. -/
structure Refines (t : SlotTable α) (m : Nat → Option α) : Prop where
  get?_eq : ∀ i, t.get? i = m i
  none_of_length_le : ∀ i, t.slots.length ≤ i → m i = none
  /-- What is taken out is what was there. -/
  remove_fst : ∀ i, (t.remove i).1 = m i
  remove_snd_of_none : ∀ i, m i = none → (t.remove i).2 = t
  /-- A value is stored where there was none. -/
  insertWith_vacant : ∀ make, m (t.insertWith make).1 = none
  /-- It is built from the index told, and the others stay. -/
  insertWith_get? : ∀ make j, (t.insertWith make).2.get? j =
    if j = (t.insertWith make).1 then some (make (t.insertWith make).1) else m j
  /-- The index freed last is used first. -/
  insertWith_remove : ∀ i make, m i ≠ none → ((t.remove i).2.insertWith make).1 = i
  mem_keys_iff : ∀ i, i ∈ t.keys ↔ m i ≠ none
  keys_pairwise : t.keys.Pairwise (· < ·)
  map_keys : t.keys.map m = t.values.map some
  size_eq : t.size = t.keys.length
  free_nodup : t.free.Nodup
  mem_free_iff : ∀ i, i ∈ t.free ↔ i < t.slots.length ∧ m i = none

theorem remove_fst (t : SlotTable α) (i : Nat) : (t.remove i).1 = t.get? i := by
  unfold remove
  split
  · next h => exact h.symm
  · next h => exact h.symm

theorem remove_of_get?_none (h : t.get? i = none) : (t.remove i).2 = t := by
  rw [remove, h]

theorem insertWith_remove (make : Nat → α) (h : t.get? i ≠ none) :
    ((t.remove i).2.insertWith make).1 = i := by
  obtain ⟨v, hv⟩ := Option.ne_none_iff_exists'.1 h
  have hfree : (t.remove i).2.free = i :: t.free := by rw [remove, hv]
  rw [insertWith_of_free hfree]

theorem Sound.refines (h : t.Sound) : t.Refines t.get? where
  get?_eq _ := rfl
  none_of_length_le _ := get?_of_length_le
  remove_fst := t.remove_fst
  remove_snd_of_none _ := remove_of_get?_none
  insertWith_vacant make := (get?_insertWith h make).1
  insertWith_get? make j := by
    rw [(get?_insertWith h make).2]
    by_cases hj : j = (t.insertWith make).1
    · rw [if_pos hj, if_pos hj, hj]
    · rw [if_neg hj, if_neg hj]
  insertWith_remove _ := insertWith_remove
  mem_keys_iff _ := by rw [SlotTable.mem_keys_iff, Option.ne_none_iff_exists']
  keys_pairwise := t.keys_pairwise
  map_keys := t.map_get?_keys
  size_eq := by rw [h.size_eq, length_keys]
  free_nodup := h.free_nodup
  mem_free_iff := h.mem_free_iff

end SlotTable

/-! ## Histories of a table -/

/-- What is asked of a table. -/
inductive SlotAction (α : Type) where
  /-- Store the value that `make` builds from its index. -/
  | insert (make : Nat → α)
  | remove (i : Nat)
  /-- Look up the value in slot `i`, and change it in its place. -/
  | update (i : Nat) (change : α → α)
  | lookup (i : Nat)

/-- What a table answers. -/
inductive SlotAnswer (α : Type) where
  | index (i : Nat)
  | value (v : Option α)

/-- A table, with what was asked of it and what it answered, in order. -/
structure SlotHistory (α : Type) where
  table : SlotTable α
  record : List (SlotAction α × SlotAnswer α) := []

namespace SlotHistory

variable {α : Type} {h : SlotHistory α}

/-- A new table with `n` slots. -/
def start (n : Nat) : SlotHistory α where
  table := .ofSize n

/-- The answer to an action, and the table after it. -/
def answer (t : SlotTable α) : SlotAction α → SlotAnswer α × SlotTable α
  | .insert make => (.index (t.insertWith make).1, (t.insertWith make).2)
  | .remove i => (.value (t.remove i).1, (t.remove i).2)
  | .update i change =>
    match t.get? i with
    | none => (.value none, t)
    | some v => (.value (some v), t.set i (change v))
  | .lookup i => (.value (t.get? i), t)

/-- The history after one more action. -/
def perform (h : SlotHistory α) (a : SlotAction α) : SlotHistory α where
  table := (answer h.table a).2
  record := h.record ++ [(a, (answer h.table a).1)]

/-- The history after a list of actions. -/
def after (h : SlotHistory α) (actions : List (SlotAction α)) : SlotHistory α :=
  actions.foldl perform h

/-- What is stored under `i` after an action and its answer, if `old` was before. -/
def storedNext (i : Nat) (old : Option α) : SlotAction α × SlotAnswer α → Option α
  | (.insert make, .index j) => if i = j then some (make i) else old
  | (.remove j, _) => if i = j then none else old
  | (.update j change, _) => if i = j then old.map change else old
  | _ => old

/-- The value stored last under `i`, if `i` was not vacated since. -/
def stored (h : SlotHistory α) (i : Nat) : Option α := h.record.foldl (storedNext i) none

theorem stored_perform (a : SlotAction α) (i : Nat) :
    (h.perform a).stored i = storedNext i (h.stored i) (a, (answer h.table a).1) := by
  rw [stored, perform, List.foldl_append]
  rfl

/-- The table is sound, and holds what was stored. -/
structure Kept (h : SlotHistory α) : Prop where
  sound : h.table.Sound
  get?_eq : h.table.get? = h.stored

theorem kept_start (n : Nat) : (start n : SlotHistory α).Kept where
  sound := SlotTable.sound_ofSize n
  get?_eq := funext fun _ => SlotTable.get?_ofSize n

theorem Kept.perform (hk : h.Kept) (a : SlotAction α) : (h.perform a).Kept := by
  have hsound := hk.sound
  refine ⟨?_, funext fun j => ?_⟩
  · show (answer h.table a).2.Sound
    cases a with
    | insert make => exact hsound.insertWith make
    | remove i => exact hsound.remove i
    | update i change =>
        rw [answer]
        split
        · exact hsound
        · exact hsound.set i _
    | lookup i => exact hsound
  · rw [stored_perform, ← hk.get?_eq]
    show (answer h.table a).2.get? j = _
    cases a with
    | insert make => exact (SlotTable.get?_insertWith hsound make).2 j
    | remove i => exact SlotTable.get?_remove
    | update i change =>
        rcases hi : h.table.get? i with _ | v
        · by_cases hj : j = i <;> simp [answer, storedNext, hi, hj]
        · by_cases hj : j = i <;> simp [answer, storedNext, hi, hj, SlotTable.get?_set hi]
    | lookup i => rfl

theorem Kept.after (hk : h.Kept) (actions : List (SlotAction α)) : (h.after actions).Kept := by
  induction actions generalizing h with
  | nil => exact hk
  | cons a later ih => exact ih (hk.perform a)

/--
**A table is a finite map.** Whatever size it starts with and whatever was asked of it, a table
holds under each index the value stored there last, and answers and lists what follows from that.
-/
theorem refines_stored (n : Nat) (actions : List (SlotAction α)) :
    ((start n).after actions).table.Refines ((start n).after actions).stored := by
  have hk := (kept_start n).after actions
  rw [← hk.get?_eq]
  exact hk.sound.refines

end SlotHistory

end TextLink
