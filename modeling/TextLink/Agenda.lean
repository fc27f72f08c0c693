import TextLink.Time

/-!
# Appointments in the order they fall due

An `Agenda` holds `Appointment`s, a deadline and the token of whom it concerns, and gives back the
one that falls due first; equal deadlines are ordered by token. Equal appointments are kept as often
as they were made.

It is a leftist heap: every node is not greater than the nodes below it, and the shorter of two
right spines is always the one on the right, so a merge walks short paths only. Adding and removing
are each one merge.

## Main results

* `Appointment.compare_eq_eq_iff`: only an appointment compares equal to itself.
* `size_merge`, `size_of_pop_eq_some`: nothing is lost or made up.
-/

namespace TextLink

/-- Somebody is due at a moment. -/
structure Appointment where
  deadline : Instant
  token : Nat
deriving DecidableEq, Inhabited

namespace Appointment

/-- Earlier deadlines first, then smaller tokens. -/
def compare (a b : Appointment) : Ordering :=
  (Ord.compare a.deadline.nanos b.deadline.nanos).then (Ord.compare a.token b.token)

/-- The order in which appointments press: the greater one falls due first. -/
def urgency (a b : Appointment) : Ordering := b.compare a

/-- How urgent one appointment is next to another, if they can be compared: they always can. -/
def urgency? (a b : Appointment) : Option Ordering := some (a.urgency b)

theorem compare_eq_eq_iff {a b : Appointment} : a.compare b = .eq ↔ a = b := by
  rcases a with ⟨⟨x⟩, s⟩
  rcases b with ⟨⟨y⟩, t⟩
  simp [compare, Ordering.then_eq_eq]

/-- Whether `a` is not after `b`. -/
def notAfter (a b : Appointment) : Bool := a.compare b != .gt

end Appointment

/-- A leftist heap of appointments, the first one due at its root. -/
inductive Agenda where
  | empty
  | node (spine : Nat) (first : Appointment) (left right : Agenda)
deriving DecidableEq, Inhabited

namespace Agenda

/-- The length of the right spine. -/
def spine : Agenda → Nat
  | empty => 0
  | node n _ _ _ => n

/-- How many appointments there are. -/
def size : Agenda → Nat
  | empty => 0
  | node _ _ l r => l.size + r.size + 1

/-- A node over two heaps, the one with the shorter right spine on the right. -/
def join (first : Appointment) (a b : Agenda) : Agenda :=
  if b.spine ≤ a.spine then node (b.spine + 1) first a b else node (a.spine + 1) first b a

/-- All appointments of two heaps. -/
def merge : Agenda → Agenda → Agenda
  | empty, b => b
  | a, empty => a
  | node n x l r, node m y l' r' =>
    if x.notAfter y then join x l (merge r (node m y l' r'))
    else join y l' (merge (node n x l r) r')
termination_by a b => a.size + b.size
decreasing_by
  all_goals simp only [size]; omega

/-- Adds an appointment. -/
def push (a : Agenda) (x : Appointment) : Agenda :=
  a.merge (node 1 x empty empty)

/-- The appointment that falls due first. -/
def peek? : Agenda → Option Appointment
  | empty => none
  | node _ x _ _ => some x

/-- Takes out the appointment that falls due first. -/
def pop? : Agenda → Option (Appointment × Agenda)
  | empty => none
  | node _ x l r => some (x, l.merge r)

theorem size_join (x : Appointment) (a b : Agenda) : (join x a b).size = a.size + b.size + 1 := by
  unfold join
  split <;> simp only [size]
  omega

theorem size_merge (a b : Agenda) : (a.merge b).size = a.size + b.size := by
  fun_induction merge a b with
  | case1 b => simp [size]
  | case2 a _ => simp [size]
  | case3 n x l r m y l' r' _ ih => rw [size_join, ih]; simp only [size]; omega
  | case4 n x l r m y l' r' _ ih => rw [size_join, ih]; simp only [size]; omega

theorem size_of_pop_eq_some {a b : Agenda} {x : Appointment} (h : a.pop? = some (x, b)) :
    a.size = b.size + 1 := by
  cases a with
  | empty => simp [pop?] at h
  | node n y l r =>
    simp only [pop?, Option.some.injEq, Prod.mk.injEq] at h
    rw [← h.2, size_merge, size]

/-- Takes out the appointments due at `now`, in the order they fall due. -/
def takeDue (a : Agenda) (now : Instant) : List Appointment × Agenda :=
  match _h : a.pop? with
  | none => ([], a)
  | some (x, rest) =>
    if x.deadline ≤ now then
      let (due, later) := rest.takeDue now
      (x :: due, later)
    else ([], a)
termination_by a.size
decreasing_by
  have := size_of_pop_eq_some _h
  omega

/-- The appointments held, in no particular order. -/
def toList : Agenda → List Appointment
  | empty => []
  | node _ x l r => x :: (l.toList ++ r.toList)

end Agenda

end TextLink
