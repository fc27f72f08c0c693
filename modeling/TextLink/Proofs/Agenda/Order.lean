import TextLink.Proofs.Agenda

/-!
# What falls due, and in which order

The agenda is a heap: no appointment stands before the one at its node (`Ordered`). Every operation
keeps it one, so the appointment taken out is one that none stands before, and what is due at a
moment comes out whole and in order.

## Main results

* `Ordered.push`, `Ordered.of_pop?` — adding and removing keep the order.
* `Ordered.due_pairwise`, `Ordered.mem_due_iff` — what is due at a moment, and in which order.
* `Ordered.perm_later` — what stays.
-/

namespace TextLink

/-! ## The order of appointments -/

namespace Appointment

variable {a b c : Appointment}

/-- Earlier deadlines come first; between equal ones, smaller tokens do. -/
theorem notAfter_iff :
    a.notAfter b = true ↔
      a.deadline < b.deadline ∨ a.deadline = b.deadline ∧ a.token ≤ b.token := by
  rcases a with ⟨⟨x⟩, s⟩
  rcases b with ⟨⟨y⟩, t⟩
  simp only [notAfter, compare, bne_iff_ne, ne_eq, Ordering.then_eq_gt, Nat.compare_eq_gt,
    Nat.compare_eq_eq, Instant.lt_iff, Instant.mk.injEq]
  omega

theorem notAfter_refl (a : Appointment) : a.notAfter a = true :=
  notAfter_iff.2 (.inr ⟨rfl, Nat.le_refl _⟩)

theorem notAfter_trans (hab : a.notAfter b = true) (hbc : b.notAfter c = true) :
    a.notAfter c = true := by
  rw [notAfter_iff] at *
  rcases a with ⟨⟨x⟩, s⟩
  rcases b with ⟨⟨y⟩, t⟩
  rcases c with ⟨⟨z⟩, u⟩
  simp only [Instant.lt_iff, Instant.mk.injEq] at *
  omega

theorem notAfter_of_not (h : ¬a.notAfter b = true) : b.notAfter a = true := by
  rw [notAfter_iff] at *
  rcases a with ⟨⟨x⟩, s⟩
  rcases b with ⟨⟨y⟩, t⟩
  simp only [Instant.lt_iff, Instant.mk.injEq] at *
  omega

theorem deadline_le_of_notAfter (h : a.notAfter b = true) : a.deadline ≤ b.deadline := by
  rcases notAfter_iff.1 h with hlt | ⟨heq, _⟩
  · exact Nat.le_of_lt hlt
  · exact Nat.le_of_eq (congrArg Instant.nanos heq)

/-- Of two that differ, the one that is not after the other comes first. -/
theorem compare_of_notAfter (h : a.notAfter b = true) (hne : a ≠ b) : a.compare b = .lt := by
  rcases hcmp : a.compare b with _ | _ | _
  · rfl
  · exact absurd (compare_eq_eq_iff.1 hcmp) hne
  · rw [notAfter, hcmp] at h
    cases h

end Appointment

/-! ## The order of the heap -/

namespace Agenda

variable {a b : Agenda} {x y : Appointment} {now : Instant}

/-- No appointment stands before the one at its node. -/
def Ordered : Agenda → Prop
  | empty => True
  | node _ x l r =>
    (∀ y ∈ l.toList ++ r.toList, x.notAfter y = true) ∧ l.Ordered ∧ r.Ordered

theorem Ordered.join (ha : a.Ordered) (hb : b.Ordered)
    (hx : ∀ y ∈ a.toList ++ b.toList, x.notAfter y = true) : (Agenda.join x a b).Ordered := by
  unfold Agenda.join
  split
  · exact ⟨hx, ha, hb⟩
  · refine ⟨fun y hy => hx y ?_, hb, ha⟩
    exact List.perm_append_comm.mem_iff.1 hy

theorem Ordered.root {n : Nat} {l r : Agenda} (h : (node n x l r).Ordered)
    (hy : y ∈ (node n x l r).toList) : x.notAfter y = true := by
  rcases List.mem_cons.1 hy with rfl | hy
  · exact y.notAfter_refl
  · exact h.1 y hy

theorem Ordered.merge (ha : a.Ordered) (hb : b.Ordered) : (a.merge b).Ordered := by
  fun_induction Agenda.merge a b with
  | case1 b => exact hb
  | case2 a _ => exact ha
  | case3 n x l r m y l' r' hxy ih =>
      refine ha.2.1.join (ih ha.2.2 hb) fun z hz => ?_
      rcases List.mem_append.1 hz with hz | hz
      · exact ha.1 z (List.mem_append_left _ hz)
      · rcases List.mem_append.1 ((perm_merge r _).mem_iff.1 hz) with hz | hz
        · exact ha.1 z (List.mem_append_right _ hz)
        · exact Appointment.notAfter_trans hxy (hb.root hz)
  | case4 n x l r m y l' r' hxy ih =>
      have hyx := Appointment.notAfter_of_not hxy
      refine hb.2.1.join (ih ha hb.2.2) fun z hz => ?_
      rcases List.mem_append.1 hz with hz | hz
      · exact hb.1 z (List.mem_append_left _ hz)
      · rcases List.mem_append.1 ((perm_merge _ r').mem_iff.1 hz) with hz | hz
        · exact Appointment.notAfter_trans hyx (ha.root hz)
        · exact hb.1 z (List.mem_append_right _ hz)

theorem Ordered.push (h : a.Ordered) (x : Appointment) : (a.push x).Ordered :=
  h.merge ⟨fun _ hy => absurd hy List.not_mem_nil, trivial, trivial⟩

/-- What is taken out stands behind nothing that is left. -/
theorem Ordered.of_pop? (h : a.Ordered) (hpop : a.pop? = some (x, b)) :
    b.Ordered ∧ ∀ y ∈ b.toList, x.notAfter y = true := by
  cases a with
  | empty => cases hpop
  | node n z l r =>
      cases hpop
      exact ⟨h.2.1.merge h.2.2, fun y hy => h.1 y ((perm_merge l r).mem_iff.1 hy)⟩

/-! ## What is due -/

/-- All that is due comes out, in order, and nothing else. -/
theorem Ordered.takeDue (h : a.Ordered) (now : Instant) :
    (a.takeDue now).2.Ordered ∧ (a.takeDue now).1.Pairwise (fun x y => x.notAfter y = true) ∧
      (∀ x ∈ (a.takeDue now).1, x.deadline ≤ now) ∧
      ∀ x ∈ (a.takeDue now).2.toList, now < x.deadline := by
  fun_induction Agenda.takeDue a now with
  | case1 a hpop =>
      have hnil : a.toList = [] := by
        cases a with
        | empty => rfl
        | node n z l r => cases hpop
      refine ⟨h, List.Pairwise.nil, fun _ hx => absurd hx List.not_mem_nil, fun x hx => ?_⟩
      rw [hnil] at hx
      cases hx
  | case2 a x rest hpop hdue due later heq ih =>
      obtain ⟨hrest, hfirst⟩ := h.of_pop? hpop
      obtain ⟨hlater, hpairwise, hdues, hlaters⟩ := ih hrest
      have hmem := (perm_takeDue rest now).subset
      rw [heq] at hlater hpairwise hdues hlaters hmem
      refine ⟨hlater, List.Pairwise.cons (fun y hy => ?_) hpairwise, fun y hy => ?_, hlaters⟩
      · exact hfirst y (hmem (List.mem_append_left _ hy))
      · rcases List.mem_cons.1 hy with rfl | hy
        · exact hdue
        · exact hdues y hy
  | case3 a x rest hpop hdue =>
      refine ⟨h, List.Pairwise.nil, fun _ hy => absurd hy List.not_mem_nil, fun y hy => ?_⟩
      have hlt : now < x.deadline := Nat.lt_of_not_le hdue
      rcases List.mem_cons.1 ((perm_of_pop? hpop).mem_iff.1 hy) with rfl | hy
      · exact hlt
      · exact Nat.lt_of_lt_of_le hlt (Appointment.deadline_le_of_notAfter ((h.of_pop? hpop).2 y hy))

/-- What is due comes out in order. -/
theorem Ordered.due_pairwise (h : a.Ordered) (now : Instant) :
    (a.takeDue now).1.Pairwise fun x y => x.notAfter y = true :=
  (h.takeDue now).2.1

theorem Ordered.perm_due (h : a.Ordered) (now : Instant) :
    (a.takeDue now).1.Perm (a.toList.filter fun x => decide (x.deadline ≤ now)) := by
  have ⟨_, _, hdue, hlater⟩ := h.takeDue now
  have hparts := (perm_takeDue a now).filter fun x => decide (x.deadline ≤ now)
  have hall : (a.takeDue now).1.filter (fun x => decide (x.deadline ≤ now)) = (a.takeDue now).1 :=
    List.filter_eq_self.2 fun x hx => decide_eq_true (hdue x hx)
  have hnone : (a.takeDue now).2.toList.filter (fun x => decide (x.deadline ≤ now)) = [] :=
    List.filter_eq_nil_iff.2 fun x hx hle => Nat.not_lt_of_le (of_decide_eq_true hle) (hlater x hx)
  rw [List.filter_append, hall, hnone, List.append_nil] at hparts
  exact hparts

/-- What stays is what is due later. -/
theorem Ordered.perm_later (h : a.Ordered) (now : Instant) :
    (a.takeDue now).2.toList.Perm (a.toList.filter fun x => decide (now < x.deadline)) := by
  have ⟨_, _, hdue, hlater⟩ := h.takeDue now
  have hparts := (perm_takeDue a now).filter fun x => decide (now < x.deadline)
  have hnone : (a.takeDue now).1.filter (fun x => decide (now < x.deadline)) = [] :=
    List.filter_eq_nil_iff.2 fun x hx hlt => Nat.not_lt_of_le (hdue x hx) (of_decide_eq_true hlt)
  have hall : (a.takeDue now).2.toList.filter (fun x => decide (now < x.deadline)) =
      (a.takeDue now).2.toList :=
    List.filter_eq_self.2 fun x hx => decide_eq_true (hlater x hx)
  rw [List.filter_append, hall, hnone, List.nil_append] at hparts
  exact hparts

theorem Ordered.mem_due_iff (h : a.Ordered) :
    x ∈ (a.takeDue now).1 ↔ x ∈ a.toList ∧ x.deadline ≤ now := by
  rw [(h.perm_due now).mem_iff, List.mem_filter, decide_eq_true_iff]

end Agenda

end TextLink
