import TextLink.Agenda

/-!
# What an agenda holds

Read through `toList`, an agenda is a collection in which only the number of equal appointments
counts, so every statement is up to the order of the list. Merging joins two collections, and every
operation is a merge.

Which appointment stands at the root plays no part here: that an appointment is not lost does not
depend on the order they are given back in.

## Main results

* `perm_merge`, `perm_push` — nothing is lost or made up by adding.
* `perm_takeDue` — what falls due and what stays are what there was.
-/

namespace TextLink.Agenda

variable {a b : Agenda} {x y : Appointment}

theorem perm_join (x : Appointment) (a b : Agenda) :
    (join x a b).toList.Perm (x :: (a.toList ++ b.toList)) := by
  unfold join
  split
  · exact List.Perm.refl _
  · exact (List.perm_append_comm).cons x

theorem perm_merge (a b : Agenda) : (a.merge b).toList.Perm (a.toList ++ b.toList) := by
  fun_induction merge a b with
  | case1 b => exact List.Perm.refl _
  | case2 a _ =>
      show a.toList.Perm (a.toList ++ [])
      rw [List.append_nil]
  | case3 n x l r m y l' r' _ ih =>
      refine (perm_join x l _).trans (List.Perm.cons x ?_)
      show (l.toList ++ _).Perm (l.toList ++ r.toList ++ _)
      rw [List.append_assoc]
      exact ih.append_left l.toList
  | case4 n x l r m y l' r' _ ih =>
      refine (perm_join y l' _).trans ?_
      show (y :: (l'.toList ++ _)).Perm (_ ++ y :: (l'.toList ++ r'.toList))
      refine List.Perm.trans (List.Perm.cons y ?_) List.perm_middle.symm
      -- The left branch of the second heap is passed over by the first heap.
      refine (ih.append_left l'.toList).trans ?_
      rw [← List.append_assoc, ← List.append_assoc]
      exact List.perm_append_comm.append_right r'.toList

theorem perm_push (a : Agenda) (x : Appointment) : (a.push x).toList.Perm (x :: a.toList) :=
  (perm_merge a _).trans List.perm_append_comm

theorem mem_push : y ∈ (a.push x).toList ↔ y = x ∨ y ∈ a.toList := by
  rw [(perm_push a x).mem_iff, List.mem_cons]

theorem perm_of_pop? (h : a.pop? = some (x, b)) : a.toList.Perm (x :: b.toList) := by
  cases a with
  | empty => cases h
  | node n z l r =>
      cases h
      exact List.Perm.cons x (perm_merge l r).symm

/-- What falls due and what stays are all there was. -/
theorem perm_takeDue (a : Agenda) (now : Instant) :
    ((a.takeDue now).1 ++ (a.takeDue now).2.toList).Perm a.toList := by
  fun_induction takeDue a now with
  | case1 a hpop => exact List.Perm.refl _
  | case2 a x rest hpop hdue due later heq ih =>
      rw [heq] at ih
      exact (ih.cons x).trans (perm_of_pop? hpop).symm
  | case3 a x rest hpop hdue => exact List.Perm.refl _

theorem mem_takeDue {now : Instant} :
    y ∈ a.toList ↔ y ∈ (a.takeDue now).1 ∨ y ∈ (a.takeDue now).2.toList := by
  rw [← (perm_takeDue a now).mem_iff, List.mem_append]

end TextLink.Agenda
