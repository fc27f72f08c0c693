import Mathlib.Data.List.Perm.Subperm
import TextLink.Proofs.Agenda.Order

/-!
# An agenda gives back what falls due first

Over a history of an agenda, what was pushed and has not been popped is read off the two lists of
what went in and what came out (`AgendaHistory.waiting`), with equal appointments told apart by how
often they occur. The agenda holds just that, and what it shows or gives out is always the first of
it.

The order that decides which one is first is total: any two appointments compare, only an
appointment compares equal to itself, and the comparisons of three of them agree. So there is one
appointment that is first, however the heap came about.

## Main results

* `Appointment.urgency_isLE_iff` — the order in words of deadlines and tokens.
* `Ordered.peek?_eq_some_iff` — the root of a heap is the first of what it holds.
* `AgendaHistory.gives_first` — what every history shows and gives out.
-/

namespace TextLink

/-! ## The order of appointments -/

namespace Appointment

variable {a b : Appointment} {xs ys : List Appointment}

theorem compare_swap (a b : Appointment) : a.compare b = (b.compare a).swap := by
  rw [compare, compare, Ordering.swap_then, Nat.compare_swap, Nat.compare_swap]

theorem compare_isLE : (a.compare b).isLE = a.notAfter b := by
  rw [notAfter]
  cases a.compare b <;> rfl

/-- The appointment that is not after the other presses no less. -/
theorem urgency_isLE_iff :
    (a.urgency b).isLE = true ↔
      b.deadline < a.deadline ∨ b.deadline = a.deadline ∧ b.token ≤ a.token := by
  rw [urgency, compare_isLE, notAfter_iff]

instance : Std.OrientedCmp urgency where
  eq_swap := compare_swap _ _

instance : Std.TransCmp urgency where
  isLE_trans hab hbc := by
    rw [urgency, compare_isLE] at *
    exact notAfter_trans hbc hab

instance : Std.LawfulEqCmp urgency where
  compare_self := compare_eq_eq_iff.2 rfl
  eq_of_compare h := (compare_eq_eq_iff.1 h).symm

theorem urgency_total (a b : Appointment) :
    (a.urgency b).isLE = true ∨ (b.urgency a).isLE = true := by
  rw [urgency, urgency, compare_swap a b]
  cases b.compare a <;> simp

/-- `x` is one of the appointments `xs`, and none of them has an earlier deadline, or the same
deadline and a smaller token. -/
def IsFirst (x : Appointment) (xs : List Appointment) : Prop :=
  x ∈ xs ∧ ∀ y ∈ xs, x.deadline < y.deadline ∨ x.deadline = y.deadline ∧ x.token ≤ y.token

theorem IsFirst.perm (h : a.IsFirst xs) (hperm : xs.Perm ys) : a.IsFirst ys :=
  ⟨hperm.mem_iff.1 h.1, fun y hy => h.2 y (hperm.mem_iff.2 hy)⟩

/-- There is no more than one. -/
theorem IsFirst.unique (ha : a.IsFirst xs) (hb : b.IsFirst xs) : a = b := by
  have hab : (b.urgency a).isLE = true := urgency_isLE_iff.2 (ha.2 b hb.1)
  have hba : (a.urgency b).isLE = true := urgency_isLE_iff.2 (hb.2 a ha.1)
  exact Std.LawfulEqCmp.eq_of_compare (Std.OrientedCmp.isLE_antisymm hba hab)

end Appointment

/-! ## The first of a heap -/

namespace Agenda

variable {a : Agenda} {x : Appointment}

theorem toList_eq_nil_iff : a.toList = [] ↔ a.peek? = none := by
  cases a <;> simp [toList, peek?]

/-- What is shown is what would be given out. -/
theorem map_pop? (a : Agenda) : a.pop?.map Prod.fst = a.peek? := by
  cases a <;> rfl

theorem Ordered.isFirst_of_peek? (h : a.Ordered) (hx : a.peek? = some x) : x.IsFirst a.toList := by
  cases a with
  | empty => cases hx
  | node n y l r =>
      obtain rfl := Option.some.inj hx
      exact ⟨List.mem_cons_self, fun z hz => Appointment.notAfter_iff.1 (h.root hz)⟩

/-- The root of a heap is the first of what it holds. -/
theorem Ordered.peek?_eq_some_iff (h : a.Ordered) : a.peek? = some x ↔ x.IsFirst a.toList := by
  constructor
  · exact h.isFirst_of_peek?
  · intro hfirst
    rcases hy : a.peek? with _ | y
    · rw [toList_eq_nil_iff.2 hy] at hfirst
      exact absurd hfirst.1 List.not_mem_nil
    · rw [(h.isFirst_of_peek? hy).unique hfirst]

end Agenda

/-! ## Histories of an agenda -/

/-- What is asked of an agenda. -/
inductive AgendaAction where
  | push (x : Appointment)
  | pop
  | peek

/-- An agenda, with what went into it and what came out of it, in order. -/
structure AgendaHistory where
  agenda : Agenda := .empty
  pushed : List Appointment := []
  popped : List Appointment := []

namespace AgendaHistory

variable {h : AgendaHistory}

/-- The history after one more action. -/
def perform (h : AgendaHistory) : AgendaAction → AgendaHistory
  | .push x => { h with agenda := h.agenda.push x, pushed := h.pushed ++ [x] }
  | .pop =>
    match h.agenda.pop? with
    | none => h
    | some (x, agenda) => { h with agenda, popped := h.popped ++ [x] }
  | .peek => h

/-- The history after a list of actions. -/
def after (h : AgendaHistory) (actions : List AgendaAction) : AgendaHistory :=
  actions.foldl perform h

/-- What was pushed and has not been popped. -/
def waiting (h : AgendaHistory) : List Appointment := h.pushed.diff h.popped

/-- The agenda is a heap, and with what came out of it there is all that went in. -/
structure Kept (h : AgendaHistory) : Prop where
  ordered : h.agenda.Ordered
  perm : h.pushed.Perm (h.popped ++ h.agenda.toList)

theorem Kept.perform (hk : h.Kept) (a : AgendaAction) : (h.perform a).Kept := by
  cases a with
  | push x =>
      refine ⟨hk.ordered.push x, ?_⟩
      show (h.pushed ++ [x]).Perm (h.popped ++ (h.agenda.push x).toList)
      refine (hk.perm.append_right [x]).trans ?_
      rw [List.append_assoc]
      exact (List.perm_append_comm.trans (Agenda.perm_push h.agenda x).symm).append_left h.popped
  | pop =>
      rw [AgendaHistory.perform]
      split
      · exact hk
      · next x agenda hpop =>
        refine ⟨(hk.ordered.of_pop? hpop).1, hk.perm.trans ?_⟩
        show (h.popped ++ h.agenda.toList).Perm (h.popped ++ [x] ++ agenda.toList)
        rw [List.append_assoc]
        exact (Agenda.perm_of_pop? hpop).append_left h.popped
  | peek => exact hk

theorem Kept.after (hk : h.Kept) (actions : List AgendaAction) : (h.after actions).Kept := by
  induction actions generalizing h with
  | nil => exact hk
  | cons a later ih => exact ih (hk.perform a)

/-- No appointment came out more often than it went in. -/
theorem Kept.perm_pushed (hk : h.Kept) : (h.popped ++ h.waiting).Perm h.pushed := by
  refine List.subperm_append_diff_self_of_count_le fun x _ => ?_
  rw [hk.perm.count_eq, List.count_append]
  exact Nat.le_add_right ..

/-- The agenda holds what waits. -/
theorem Kept.perm_waiting (hk : h.Kept) : h.waiting.Perm h.agenda.toList :=
  (List.perm_append_left_iff h.popped).1 (hk.perm_pushed.trans hk.perm)

theorem kept_start : ({} : AgendaHistory).Kept where
  ordered := trivial
  perm := List.Perm.refl _

/--
**The first one first.** The order by urgency is total and agrees with equality, and earlier
deadlines, then smaller tokens, are the more urgent. After every sequence of actions, nothing that
was pushed is lost or was given out twice; what is shown, and would be given out next, is the first
of the appointments that wait; and there is none just when none waits.
-/
theorem gives_first :
    (∀ a b c : Appointment,
      a.urgency a = .eq ∧
      ((a.urgency b).isLE → (b.urgency a).isLE → a = b) ∧
      ((a.urgency b).isLE → (b.urgency c).isLE → (a.urgency c).isLE) ∧
      ((a.urgency b).isLE ∨ (b.urgency a).isLE) ∧
      b.urgency a = (a.urgency b).swap ∧
      (a == b ↔ a.urgency b = .eq) ∧
      a.urgency? b = some (a.urgency b) ∧
      ((a.urgency b).isLE ↔
        b.deadline < a.deadline ∨ b.deadline = a.deadline ∧ b.token ≤ a.token)) ∧
    ∀ actions : List AgendaAction,
      let h := ({} : AgendaHistory).after actions
      h.pushed.Perm (h.popped ++ h.waiting) ∧
      h.agenda.toList.Perm h.waiting ∧
      (∀ x, h.agenda.peek? = some x ↔ x.IsFirst h.waiting) ∧
      (h.agenda.peek? = none ↔ h.waiting = []) ∧
      h.agenda.pop?.map Prod.fst = h.agenda.peek? := by
  constructor
  · intro a b c
    refine ⟨Std.ReflCmp.compare_self, ?_, ?_, Appointment.urgency_total a b, ?_, ?_, rfl,
      Appointment.urgency_isLE_iff⟩
    · exact fun hab hba => Std.LawfulEqCmp.eq_of_compare (Std.OrientedCmp.isLE_antisymm hab hba)
    · exact fun hab hbc => Std.TransCmp.isLE_trans hab hbc
    · exact Std.OrientedCmp.eq_swap
    · rw [beq_iff_eq, Std.LawfulEqCmp.compare_eq_iff_eq]
  · intro actions
    have hk := kept_start.after actions
    have hperm := hk.perm_waiting
    refine ⟨hk.perm_pushed.symm, hperm.symm, fun x => ?_, ?_, Agenda.map_pop? _⟩
    · exact hk.ordered.peek?_eq_some_iff.trans ⟨fun h => h.perm hperm.symm, fun h => h.perm hperm⟩
    · rw [← Agenda.toList_eq_nil_iff]
      constructor
      · exact fun h => (h ▸ hperm).eq_nil
      · exact fun h => (h ▸ hperm).symm.eq_nil

end AgendaHistory

end TextLink
