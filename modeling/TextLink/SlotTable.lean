/-!
# A table of reusable slots

A `SlotTable` stores values under small indices that it chooses itself and hands out again once they
are free, so an index can serve as a token elsewhere. Free indices are kept on a stack: the index
freed last is the first to be used again. A full table doubles.

A holder of a stale index finds whatever lives there now; whether that is still its own is for the
holder to check.

## Main results

* `get?_set_self`, `get?_set_ne`: writing one slot leaves the others alone.
-/

namespace TextLink

/-- Values under indices chosen by the table. -/
structure SlotTable (α : Type) where
  /-- The slots, in the order of their indices. -/
  slots : List (Option α)
  /-- The indices of the free slots, the next one to be used first. -/
  free : List Nat
  /-- How many slots are occupied. -/
  size : Nat
deriving DecidableEq, Repr, Inhabited

namespace SlotTable

variable {α : Type}

/-- An empty table with `n` slots, to be used from the lowest index up. -/
def ofSize (n : Nat) : SlotTable α where
  slots := List.replicate n none
  free := List.range n
  size := 0

/-- The value in slot `i`, if it is occupied. -/
def get? (t : SlotTable α) (i : Nat) : Option α := t.slots[i]?.join

/-- Replaces the value in slot `i`, if it is occupied. -/
def set (t : SlotTable α) (i : Nat) (v : α) : SlotTable α :=
  if (t.get? i).isSome then { t with slots := t.slots.set i (some v) } else t

/--
Stores the value that `make` builds from its own index, and tells the index.

A full table first grows to twice its size (an empty one to a single slot); the lowest new slot is
the one used.
-/
def insertWith (t : SlotTable α) (make : Nat → α) : Nat × SlotTable α :=
  match t.free with
  | i :: free => (i, { slots := t.slots.set i (some (make i)), free, size := t.size + 1 })
  | [] =>
    let i := t.slots.length
    let spare := i - 1
    (i, { slots := t.slots ++ some (make i) :: List.replicate spare none
          free := List.range' (i + 1) spare
          size := t.size + 1 })

/-- Takes the value out of slot `i`, if it is occupied. -/
def remove (t : SlotTable α) (i : Nat) : Option α × SlotTable α :=
  match t.get? i with
  | none => (none, t)
  | some v => (some v, { slots := t.slots.set i none, free := i :: t.free, size := t.size - 1 })

/-- The indices of the occupied slots, in ascending order. -/
def keys (t : SlotTable α) : List Nat :=
  t.slots.zipIdx.filterMap fun (slot, i) => slot.map fun _ => i

/-- The stored values, in the order of their indices. -/
def values (t : SlotTable α) : List α := t.slots.filterMap id

/-- Whether nothing is stored. -/
def isEmpty (t : SlotTable α) : Bool := t.size == 0

theorem get?_set_self {t : SlotTable α} {i : Nat} {w : α} (v : α) (h : t.get? i = some w) :
    (t.set i v).get? i = some v := by
  have hi : i < t.slots.length := by
    rcases Nat.lt_or_ge i t.slots.length with hi | hi
    · exact hi
    · simp [get?, List.getElem?_eq_none hi] at h
  rw [set, if_pos (by simp [h])]
  simp [get?, List.getElem?_set_self hi]

theorem get?_set_ne {t : SlotTable α} {i j : Nat} (v : α) (h : i ≠ j) :
    (t.set i v).get? j = t.get? j := by
  unfold set
  split
  · simp [get?, List.getElem?_set_ne h]
  · rfl

end SlotTable

end TextLink
