import TextLink.Proofs.Loop.Booking
import TextLink.Proofs.Loop.Patience

/-!
# Which retries a pass fires

A pass takes all appointments out of the agenda that are due, and looks at them one by one. This
module says which connects come of it. They are listed as `Firing`s, each with the connection, the
appointment it was made for, and how it went (`Loop.firings`); and a pass does nothing but make
these connects (`Fires`).

Appointments are never cancelled. An outdated one is told by its deadline alone, so what carries the
proofs is that a connection waits until one moment at a time, and that the agenda is a heap, which
every move keeps it (`Started.agenda_ordered`). A connect concerns the slot of its connection only,
so the appointments of the others, which were due when the pass began, are found as they were.

A connect could cut the pass short only by failing at a moment from which its next wait has no
deadline. But its last wait is over, and the next one is at most twice as long
(`Connection.Patient.next_le`); so the clock would have to show more than a third of the last
deadline, far more than a clock counts (`Instant.thrice_elapse_le`).

## Main results

* `Started.firesInTurn` — every connection due is connected, in the order of the agenda; and what
  the agenda holds then.
* `Started.fires_once` — how often one pass connects the same connection.
-/

namespace TextLink

/-- A connect made for an appointment. -/
structure Firing where
  /-- The number of the connection. -/
  id : Nat
  due : Appointment
  outcome : Except Fault Progress

namespace Firing

/-- The appointment made because the connect failed. -/
def renewed (f : Firing) : Option Appointment :=
  match f.outcome with
  | .ok (.retry deadline) => some ⟨deadline, f.due.token⟩
  | _ => none

/-- The first connect of every slot. -/
def firsts : List Firing → List Firing
  | [] => []
  | f :: later => f :: (firsts later).filter fun g => g.due.token ≠ f.due.token

theorem firsts_sublist (firings : List Firing) : (firsts firings).Sublist firings := by
  induction firings with
  | nil => exact List.Sublist.refl _
  | cons f later ih => exact (List.filter_sublist.trans ih).cons_cons f

end Firing

namespace Loop

variable {l l' : Loop} {t : Nat} {c : Connection} {k : Link} {progress : Progress}
  {now : Instant} {a : Appointment} {due later : List Appointment}

/-! ## The connects of a pass -/

/-- The connects that looking at the appointments comes to. -/
def firings (l : Loop) : List Appointment → List Firing
  | [] => []
  | a :: later =>
    match l.connections.get? a.token with
    | none => l.firings later
    | some c =>
      if c.retryAt = some a.deadline then
        ⟨c.id, a, (l.link c).connect.1⟩ ::
          match l.attempt a.token with
          | (.ok (), l) => l.firings later
          | (.error _, _) => []
      else l.firings later

/-- The connects of a pass over the retries that are due. -/
def fired (l : Loop) : List Firing :=
  { l with agenda := (l.agenda.takeDue l.now).2 }.firings (l.agenda.takeDue l.now).1

/-- Making the connects `firings`, one after the other, and nothing else, comes to `r`. -/
inductive Fires : Loop → List Firing → Except Fault Unit × Loop → Prop where
  | done (l : Loop) : Fires l [] (.ok (), l)
  | goesOn {l : Loop} {c : Connection} {a : Appointment} {progress : Progress} {k : Link}
      {firings : List Firing} {r : Except Fault Unit × Loop}
      (hslot : l.connections.get? a.token = some c) (hdue : c.retryAt = some a.deadline)
      (hconnect : (l.link c).connect = (.ok progress, k))
      (hrest : Fires ((l.absorb a.token k).apply a.token progress) firings r) :
      Fires l (⟨c.id, a, .ok progress⟩ :: firings) r
  | breaks {l : Loop} {c : Connection} {a : Appointment} {fault : Fault} {k : Link}
      (hslot : l.connections.get? a.token = some c) (hdue : c.retryAt = some a.deadline)
      (hconnect : (l.link c).connect = (.error fault, k)) :
      Fires l [⟨c.id, a, .error fault⟩] (.error fault, l.absorb a.token k)

/-- The connection under the token of the appointment waits until just its deadline. -/
def WaitsUntil (l : Loop) (a : Appointment) : Prop :=
  ∃ c, l.connections.get? a.token = some c ∧ c.retryAt = some a.deadline

/-- A connection waits until one moment at a time. -/
theorem WaitsUntil.unique {b : Appointment} (ha : l.WaitsUntil a) (hb : l.WaitsUntil b)
    (htoken : a.token = b.token) : a = b := by
  obtain ⟨c, hc, hdue⟩ := ha
  obtain ⟨c', hc', hdue'⟩ := hb
  rcases a with ⟨d, t⟩
  rcases b with ⟨d', t'⟩
  cases htoken
  cases hc.symm.trans hc'
  cases hdue.symm.trans hdue'
  rfl

/-- Who waits for now or later, and for an appointment that is due, waits for now. -/
theorem WaitsUntil.eq_now (ha : l.WaitsUntil a) (hle : a.deadline ≤ l.now)
    (hlate : ∀ c d, l.connections.get? a.token = some c → c.retryAt = some d → l.now ≤ d) :
    a = ⟨l.now, a.token⟩ := by
  obtain ⟨c, hc, hdue⟩ := ha
  have hge := hlate c a.deadline hc hdue
  have heq : a.deadline = l.now := congrArg Instant.mk (Nat.le_antisymm hle hge)
  rw [← heq]

/-- How looking at appointments in turn goes: with which connects, and what it comes to. -/
inductive Pass :
    Loop → List Appointment → List Firing → Except Fault Unit × Loop → Prop where
  | done (l : Loop) : Pass l [] [] (.ok (), l)
  | outdated {l : Loop} {a : Appointment} {later : List Appointment} {firings : List Firing}
      {r : Except Fault Unit × Loop} (hno : ¬l.WaitsUntil a) (hrest : Pass l later firings r) :
      Pass l (a :: later) firings r
  | made {l : Loop} {a : Appointment} {later : List Appointment} {firings : List Firing}
      {r : Except Fault Unit × Loop} {c : Connection} {progress : Progress} {k : Link}
      (hacts : Acts l a.token c progress k) (hdue : c.retryAt = some a.deadline)
      (hsettled : Settled none progress k) (hconnect : (l.link c).connect = (.ok progress, k))
      (hrest : Pass ((l.absorb a.token k).apply a.token progress) later firings r) :
      Pass l (a :: later) (⟨c.id, a, .ok progress⟩ :: firings) r
  | broken {l : Loop} {a : Appointment} {later : List Appointment} {c : Connection} {fault : Fault}
      {k : Link} (hslot : l.connections.get? a.token = some c) (hdue : c.retryAt = some a.deadline)
      (hconnect : (l.link c).connect = (.error fault, k)) :
      Pass l (a :: later) [⟨c.id, a, .error fault⟩] (.error fault, l.absorb a.token k)

/-- A connection with a retry due attempts to connect, and settles or meets a fault. -/
theorem Sound.acts_connect (h : l.Sound) (hc : l.connections.get? t = some c) {d : Instant}
    (hdue : c.retryAt = some d) (hconnect : (l.link c).connect = (.ok progress, k)) :
    Acts l t c progress k ∧ Settled none progress k := by
  cases h.shape t c hc with
  | connected _ _ _ _ hretry _ _ | inFlight _ _ _ hretry _ _ => cases hretry.symm.trans hdue
  | waiting hstate _ hr _ _ hqueue =>
      have hsettled : Settled none progress k := by
        refine Link.settled_connect (l := l.link c) ?_ ?_ hr hconnect
        · show c.state ≠ _
          rw [hstate]
          decide
        · show (l.queue c.id).state ≠ _
          rw [hqueue]
          decide
      have hleads := Link.leads_connect (h.coherent.lives hc).link hr
      rw [hconnect] at hleads
      exact ⟨⟨hc, hleads, hsettled.of_none c.retryAt⟩, hsettled⟩

/-! ## What a connect changes -/

namespace Acts

theorem now_eq (h : Acts l t c progress k) : ((l.absorb t k).apply t progress).now = l.now := by
  have hclock : k.kernel.clock = l.kernel.clock := h.leads.touches.clock_eq
  cases progress <;> exact hclock

theorem dues_after (h : Acts l t c progress k) (hdues : ∀ b ∈ a :: later, b.deadline ≤ l.now) :
    ∀ b ∈ later, b.deadline ≤ ((l.absorb t k).apply t progress).now :=
  fun b hb => h.now_eq ▸ hdues b (List.mem_cons_of_mem _ hb)

theorem get?_other {u : Nat} (h : Acts l t c progress k) (hne : u ≠ t) :
    ((l.absorb t k).apply t progress).connections.get? u = l.connections.get? u := by
  have habsorbed : (l.absorb t k).connections.get? u = l.connections.get? u := by
    rw [get?_absorb h.slot, if_neg hne]
  cases progress with
  | ongoing | retry _ => exact habsorbed
  | closed =>
      show ((l.absorb t k).connections.remove t).2.get? u = _
      rw [SlotTable.get?_remove, if_neg hne, habsorbed]

theorem eq_of_slot {c' : Connection} (h : Acts l t c progress k)
    (hc' : ((l.absorb t k).apply t progress).connections.get? t = some c') : c' = k.conn := by
  have habsorbed : (l.absorb t k).connections.get? t = some k.conn :=
    get?_absorb_self h.slot
  cases progress with
  | ongoing | retry _ => exact Option.some.inj (hc'.symm.trans habsorbed)
  | closed => exact absurd rfl (slot_remove hc').1

theorem sound_after (h : Acts l t c progress k) (hl : l.Sound) :
    ((l.absorb t k).apply t progress).Sound :=
  (hl.except t).acts h

theorem waitsUntil_iff (h : Acts l t c progress k) (hne : a.token ≠ t) :
    ((l.absorb t k).apply t progress).WaitsUntil a ↔ l.WaitsUntil a := by
  rw [WaitsUntil, WaitsUntil, h.get?_other hne]

/-- A connection that was connected waits again, if at all, by its policy. -/
theorem deadline_eq {c' : Connection} {d : Instant} (h : Acts l t c progress k)
    (hsettled : Settled none progress k) (hconnect : (l.link c).connect = (.ok progress, k))
    (hc' : ((l.absorb t k).apply t progress).connections.get? t = some c')
    (hd : c'.retryAt = some d) :
    d = l.now.after (c.policy.backoff (min (c.attempts + 1) maxAttemptCount)) := by
  cases h.eq_of_slot hc'
  cases progress with
  | ongoing => cases (hsettled.2.elim id id).symm.trans hd
  | closed => cases hsettled.retryAt.symm.trans hd
  | retry deadline =>
      have hput := Link.putsOff_connect (l.link c)
      rw [hconnect] at hput
      cases hput.2.symm.trans hd
      exact hput.1

end Acts

/-! ## A pass in a sound loop -/

theorem Sound.pass (h : l.Sound) (due : List Appointment) :
    Pass l due (l.firings due) (l.retryAll due) := by
  induction due generalizing l with
  | nil => exact .done l
  | cons a later ih =>
      rcases hc : l.connections.get? a.token with _ | c
      · have hretry : l.retry a = (.ok (), l) := by rw [Loop.retry, hc]
        rw [firings, hc, retryAll, hretry]
        refine .outdated (fun hwaits => ?_) (ih h)
        obtain ⟨c, hc', _⟩ := hwaits
        cases hc.symm.trans hc'
      · by_cases hdue : c.retryAt = some a.deadline
        · have hattempt : l.attempt a.token = l.settleAttempt a.token (l.link c).connect := by
            rw [attempt, hc]
          have hretry : l.retry a = l.attempt a.token := by
            rw [Loop.retry, hc]
            exact if_pos hdue
          rw [firings, hc, retryAll, hretry]
          simp only [if_pos hdue, hattempt]
          rcases hconnect : (l.link c).connect with ⟨fault | progress, k⟩
          · exact .broken hc hdue hconnect
          · obtain ⟨hacts, hsettled⟩ := h.acts_connect hc hdue hconnect
            exact .made hacts hdue hsettled hconnect (ih (hacts.sound_after h))
        · have hretry : l.retry a = (.ok (), l) := by
            rw [Loop.retry, hc]
            exact if_neg hdue
          rw [firings, hc, retryAll, hretry]
          simp only [if_neg hdue]
          refine .outdated (fun hwaits => ?_) (ih h)
          obtain ⟨c', hc', hdue'⟩ := hwaits
          cases hc.symm.trans hc'
          exact hdue hdue'

namespace Pass

variable {firings : List Firing} {r : Except Fault Unit × Loop}

/-- A pass makes its connects, and does nothing else. -/
theorem fires (h : Pass l due firings r) : Fires l firings r := by
  induction h with
  | done l => exact .done l
  | outdated _ _ ih => exact ih
  | made hacts hdue _ hconnect _ ih => exact .goesOn hacts.slot hdue hconnect ih
  | broken hslot hdue hconnect => exact .breaks hslot hdue hconnect

theorem sublist (h : Pass l due firings r) : (firings.map Firing.due).Sublist due := by
  induction h with
  | done l => exact List.Sublist.refl _
  | outdated _ _ ih => exact ih.cons _
  | made _ _ _ _ _ ih => exact ih.cons_cons _
  | broken _ _ _ => exact (List.nil_sublist _).cons_cons _

/-- Only connections that were due when the pass began are connected. -/
theorem due_of_mem (h : Pass l due firings r) (hdues : ∀ a ∈ due, a.deadline ≤ l.now) {f : Firing}
    (hf : f ∈ firings) : ∃ c d, l.connections.get? f.due.token = some c ∧ c.id = f.id ∧
      c.retryAt = some d ∧ d ≤ l.now := by
  induction h with
  | done l => cases hf
  | outdated _ _ ih => exact ih (fun a ha => hdues a (List.mem_cons_of_mem _ ha)) hf
  | @made l a later firings r c progress k hacts hdue _ _ _ ih =>
      have hfirst : a.deadline ≤ l.now := hdues a List.mem_cons_self
      rcases List.mem_cons.1 hf with rfl | hf
      · exact ⟨c, a.deadline, hacts.slot, rfl, hdue, hfirst⟩
      · have ⟨c', d, hc', hid, hd, hle⟩ :=
          ih (hacts.dues_after hdues) hf
        by_cases htoken : f.due.token = a.token
        · rw [htoken] at hc' ⊢
          have hsame : c'.id = c.id := hacts.eq_of_slot hc' ▸ id_eq hacts.leads
          exact ⟨c, a.deadline, hacts.slot, hsame ▸ hid, hdue, hfirst⟩
        · rw [hacts.get?_other htoken] at hc'
          exact ⟨c', d, hc', hid, hd, hacts.now_eq ▸ hle⟩
  | broken hslot hdue _ =>
      cases List.mem_singleton.1 hf
      exact ⟨_, _, hslot, rfl, hdue, hdues _ List.mem_cons_self⟩

/-! ### The first connect of each connection -/

theorem waits_of_mem_firsts (h : Pass l due firings r) {f : Firing}
    (hf : f ∈ Firing.firsts firings) : l.WaitsUntil f.due := by
  induction h with
  | done l => cases hf
  | outdated _ _ ih => exact ih hf
  | made hacts hdue _ _ _ ih =>
      rcases List.mem_cons.1 hf with rfl | hf
      · exact ⟨_, hacts.slot, hdue⟩
      · have ⟨hf, htoken⟩ := List.mem_filter.1 hf
        exact (hacts.waitsUntil_iff (of_decide_eq_true htoken)).1 (ih hf)
  | broken hslot hdue _ =>
      cases List.mem_singleton.1 hf
      exact ⟨_, hslot, hdue⟩

theorem ascending (h : Pass l due firings r)
    (hsorted : due.Pairwise fun a b => a.notAfter b = true) :
    (Firing.firsts firings).Pairwise fun f g => f.due.compare g.due = .lt := by
  induction h with
  | done l => exact List.Pairwise.nil
  | outdated _ _ ih => exact ih (List.pairwise_cons.1 hsorted).2
  | @made l a later firings r c progress k _ _ _ _ hrest ih =>
      have ⟨hfirst, hothers⟩ := List.pairwise_cons.1 hsorted
      refine List.Pairwise.cons (fun g hg => ?_) ((ih hothers).filter _)
      have ⟨hg, htoken⟩ := List.mem_filter.1 hg
      have hmem : g.due ∈ later :=
        hrest.sublist.subset (List.mem_map_of_mem ((Firing.firsts_sublist firings).subset hg))
      refine Appointment.compare_of_notAfter (hfirst g.due hmem) fun heq => ?_
      exact of_decide_eq_true htoken (congrArg Appointment.token heq).symm
  | broken _ _ _ => exact List.pairwise_singleton _ _

/-- If no connect meets a fault, whoever was due at the beginning is connected. -/
theorem exists_first (h : Pass l due firings r) (hok : r.1 = .ok ()) (hmem : a ∈ due)
    (ha : l.WaitsUntil a) : ∃ f ∈ Firing.firsts firings, f.due = a := by
  induction h with
  | done l => cases hmem
  | outdated hno _ ih =>
      rcases List.mem_cons.1 hmem with rfl | hmem
      · exact absurd ha hno
      · exact ih hok hmem ha
  | @made l b later firings r c progress k hacts hdue _ _ _ ih =>
      by_cases htoken : a.token = b.token
      · exact ⟨_, List.mem_cons_self, (ha.unique ⟨c, hacts.slot, hdue⟩ htoken).symm⟩
      · have hlater : a ∈ later := by
          rcases List.mem_cons.1 hmem with rfl | hlater
          · exact absurd rfl htoken
          · exact hlater
        have ⟨f, hf, hfa⟩ := ih hok hlater ((hacts.waitsUntil_iff htoken).2 ha)
        refine ⟨f, List.mem_cons_of_mem _ (List.mem_filter.2 ⟨hf, ?_⟩), hfa⟩
        rw [hfa]
        exact decide_eq_true htoken
  | broken _ _ _ => cases hok

/-! ### What it leaves behind -/

/-- Every connect that failed has made one appointment. -/
theorem agenda_perm (h : Pass l due firings r) :
    r.2.agenda.toList.Perm (l.agenda.toList ++ firings.filterMap Firing.renewed) := by
  induction h with
  | done l =>
      rw [List.filterMap_nil, List.append_nil]
  | outdated _ _ ih => exact ih
  | @made l a later firings r c progress k _ _ _ _ _ ih =>
      cases progress with
      | ongoing | closed => exact ih
      | retry deadline =>
          have hpush := Agenda.perm_push l.agenda ⟨deadline, a.token⟩
          refine ih.trans ((hpush.append_right _).trans ?_)
          exact List.perm_middle.symm
  | @broken l a _ _ fault k _ _ _ =>
      show l.agenda.toList.Perm (l.agenda.toList ++ [])
      rw [List.append_nil]

/-- The next wait of whoever is connected has a deadline, so no connect meets a fault. -/
theorem goesThrough (h : Pass l due firings r) (hl : l.Sound) (hpatient : l.Patient)
    (hdues : ∀ a ∈ due, a.deadline ≤ l.now) (hnow : 3 * l.now.nanos ≤ Instant.lastDeadline.nanos) :
    r.1 = .ok () := by
  induction h with
  | done l => rfl
  | outdated _ _ ih => exact ih hl hpatient (fun a ha => hdues a (List.mem_cons_of_mem _ ha)) hnow
  | made hacts _ hsettled hconnect _ ih =>
      have hstate := (hl.shape _ _ hacts.slot).state_ne_closed
      have hpatient' := (hpatient.except _).acts hacts
        (Link.patient_connect hacts.leads hstate hconnect hsettled)
      exact ih (hacts.sound_after hl) hpatient' (hacts.dues_after hdues) (hacts.now_eq ▸ hnow)
  | @broken l a _ c fault k hslot hdue hconnect =>
      have hput := Link.putsOff_connect (l.link c)
      rw [hconnect] at hput
      have hlate : Instant.lastDeadline.nanos <
        (l.now.after (c.policy.backoff (min (c.attempts + 1) maxAttemptCount))).nanos := hput
      have hstate := (hl.shape a.token c hslot).connecting hdue
      have hnext := (hpatient a.token c hslot).next_le hstate hdue (hdues a List.mem_cons_self)
      omega

/-! ### How often the same connection is connected -/

/-- A connection that waits for later than now is not connected. -/
theorem countP_eq_zero (h : Pass l due firings r) (hdues : ∀ a ∈ due, a.deadline ≤ l.now)
    (hlate : ∀ c d, l.connections.get? t = some c → c.retryAt = some d → l.now < d) :
    firings.countP (fun f => f.due.token = t) = 0 := by
  rw [List.countP_eq_zero]
  intro f hf htoken
  have ⟨c, d, hc, _, hd, hle⟩ := h.due_of_mem hdues hf
  rw [of_decide_eq_true htoken] at hc
  exact Nat.not_lt_of_le hle (hlate c d hc hd)

/-- A connection that waits for now or later is connected once for each appointment for now. -/
theorem countP_le_count (h : Pass l due firings r) (hdues : ∀ a ∈ due, a.deadline ≤ l.now)
    (hlate : ∀ c d, l.connections.get? t = some c → c.retryAt = some d → l.now ≤ d) :
    firings.countP (fun f => f.due.token = t) ≤ due.count ⟨l.now, t⟩ := by
  induction h with
  | done l => exact Nat.le_refl _
  | outdated _ _ ih =>
      exact Nat.le_trans (ih (fun a ha => hdues a (List.mem_cons_of_mem _ ha)) hlate)
        List.count_le_count_cons
  | @made l a later firings r c progress k hacts hdue hsettled hconnect _ ih =>
      have hrest := ih (hacts.dues_after hdues)
      rw [hacts.now_eq] at hrest
      rw [List.countP_cons]
      by_cases htoken : a.token = t
      · subst htoken
        have hagain : firings.countP (fun f => f.due.token = a.token) ≤
            later.count ⟨l.now, a.token⟩ := by
          refine hrest fun c' d hc' hd => ?_
          rw [hacts.deadline_eq hsettled hconnect hc' hd]
          exact Nat.le_add_right _ _
        have hself := WaitsUntil.eq_now ⟨c, hacts.slot, hdue⟩ (hdues a List.mem_cons_self) hlate
        rw [if_pos (decide_eq_true rfl), ← hself, List.count_cons_self]
        exact Nat.succ_le_succ (hself ▸ hagain)
      · rw [if_neg (by simpa using htoken), Nat.add_zero]
        refine Nat.le_trans (hrest fun c' d hc' hd => ?_) List.count_le_count_cons
        rw [hacts.get?_other (Ne.symm htoken)] at hc'
        exact hlate c' d hc' hd
  | @broken l a later c fault k hslot hdue _ =>
      rw [List.countP_singleton]
      by_cases htoken : a.token = t
      · subst htoken
        have hself := WaitsUntil.eq_now ⟨c, hslot, hdue⟩ (hdues a List.mem_cons_self) hlate
        rw [if_pos (decide_eq_true rfl), ← hself, List.count_cons_self]
        exact Nat.succ_le_succ (Nat.zero_le _)
      · rw [if_neg (by simpa using htoken)]
        exact Nat.zero_le _

/-- The first of several connects of a connection is made for its own appointment. Each later one is
made for another one for now, and there is none if the policy has the connection wait. -/
theorem exists_first_of_many (h : Pass l due firings r) (hdues : ∀ a ∈ due, a.deadline ≤ l.now)
    (hc : l.connections.get? t = some c)
    (hmany : 1 < firings.countP fun f => f.due.token = t) :
    ∃ earlier d later n, due = earlier ++ ⟨d, t⟩ :: later ∧ c.retryAt = some d ∧
      firings.countP (fun f => f.due.token = t) = n + 1 ∧ n ≤ later.count ⟨l.now, t⟩ ∧
      (0 < (c.policy.backoff 1).nanos → n = 0) := by
  induction h with
  | done l => exact absurd hmany (Nat.not_lt_zero 1)
  | @outdated l a later firings r _ _ ih =>
      have hdues' := fun b hb => hdues b (List.mem_cons_of_mem _ hb)
      obtain ⟨earlier, d, later, n, rfl, hfirst⟩ := ih hdues' hc hmany
      exact ⟨a :: earlier, d, later, n, rfl, hfirst⟩
  | @made l a later firings r c' progress k hacts hdue hsettled hconnect hrest ih =>
      have hdues' := hacts.dues_after hdues
      rw [List.countP_cons] at hmany ⊢
      by_cases htoken : a.token = t
      · subst htoken
        cases hc.symm.trans hacts.slot
        rw [if_pos (decide_eq_true rfl)]
        have hagain := hrest.countP_le_count (t := a.token) hdues' fun c' d hc' hd => by
          rw [hacts.now_eq, hacts.deadline_eq hsettled hconnect hc' hd]
          exact Nat.le_add_right _ _
        rw [hacts.now_eq] at hagain
        refine ⟨[], a.deadline, later, _, rfl, hdue, rfl, hagain, fun hpos => ?_⟩
        refine hrest.countP_eq_zero hdues' fun c' d hc' hd => ?_
        rw [hacts.now_eq, hacts.deadline_eq hsettled hconnect hc' hd]
        refine Nat.lt_add_of_pos_right (ConnectPolicy.backoff_pos ?_ hpos)
        rw [maxAttemptCount]
        omega
      · rw [if_neg (by simpa using htoken), Nat.add_zero] at hmany ⊢
        have hc' := (hacts.get?_other (Ne.symm htoken)).trans hc
        have hothers := ih hdues' hc' hmany
        rw [hacts.now_eq] at hothers
        obtain ⟨earlier, d, later, n, rfl, hfirst⟩ := hothers
        exact ⟨a :: earlier, d, later, n, rfl, hfirst⟩
  | broken _ _ _ => exact absurd hmany (Nat.not_lt_of_le List.countP_le_length)

/-- A connection is connected once for its own appointment, and once more at most for each other one
for now. -/
theorem countP_le (h : Pass l due firings r) (hdues : ∀ a ∈ due, a.deadline ≤ l.now)
    (hc : l.connections.get? t = some c) :
    firings.countP (fun f => f.due.token = t) ≤
      1 + (due.count ⟨l.now, t⟩ - if c.retryAt = some l.now then 1 else 0) := by
  rcases Nat.lt_or_ge 1 (firings.countP fun f => f.due.token = t) with hmany | hone
  · obtain ⟨earlier, d, later, n, rfl, hd, hcount, hagain, -⟩ :=
      h.exists_first_of_many hdues hc hmany
    rw [hcount, hd, List.count_append, List.count_cons]
    by_cases hown : d = l.now
    · subst hown
      rw [if_pos rfl, if_pos (beq_self_eq_true _)]
      omega
    · rw [if_neg fun heq => hown (Option.some.inj heq)]
      omega
  · exact Nat.le_trans hone (Nat.le_add_right 1 _)

/-- A connection whose policy has it wait is connected once at most. -/
theorem countP_le_one (h : Pass l due firings r) (hdues : ∀ a ∈ due, a.deadline ≤ l.now)
    (hc : l.connections.get? t = some c) (hpos : 0 < (c.policy.backoff 1).nanos) :
    firings.countP (fun f => f.due.token = t) ≤ 1 := by
  by_contra hmany
  obtain ⟨_, _, _, n, -, -, hcount, -, hnone⟩ :=
    h.exists_first_of_many hdues hc (Nat.lt_of_not_le hmany)
  rw [hcount, hnone hpos] at hmany
  exact hmany (Nat.le_refl 1)

end Pass

/-! ## Every loop -/

/-- The loop, when the clock shows `now`. -/
def atClock (l : Loop) (now : Instant) : Loop := { l with kernel := { l.kernel with clock := now } }

/-- The connects `firings` are those that a pass over the retries due in `l` has to make, and `r` is
what it has to come to. -/
structure FiresInTurn (l : Loop) (firings : List Firing) (r : Except Fault Unit × Loop) : Prop where
  fires : Fires { l with agenda := (l.agenda.takeDue l.now).2 } firings r
  /-- Nobody is connected who did not wait, or waits for later. -/
  only : ∀ f ∈ firings, ∃ c d, l.connections.get? f.due.token = some c ∧ c.id = f.id ∧
    c.retryAt = some d ∧ d ≤ l.now
  /-- The first connect of a connection is made for the appointment that it waits for. -/
  own : ∀ f ∈ Firing.firsts firings, l.WaitsUntil f.due
  ascending : (Firing.firsts firings).Pairwise fun f g => f.due.compare g.due = .lt
  /-- Everybody due is connected. -/
  every : ∀ a, l.WaitsUntil a → a.deadline ≤ l.now → ∃ f ∈ Firing.firsts firings, f.due = a
  agenda : r.2.agenda.toList.Perm
    (l.agenda.toList.filter (fun a => l.now < a.deadline) ++ firings.filterMap Firing.renewed)
  /-- No connect meets a fault. -/
  goesThrough : r.1 = .ok ()

/-- What a pass over the retries finds: a sound loop whose agenda is a heap. -/
theorem Started.at_pass (h : l.Started) {m : Loop} (hm : Moves ⟨l, []⟩ ⟨m, []⟩) (now : Instant) :
    (m.atClock now).Sound ∧ (m.atClock now).agenda.Ordered ∧
      Moment.Scheduled ⟨m.atClock now, []⟩ := by
  have hreach : Moves ⟨l, []⟩ ⟨m.atClock now, []⟩ :=
    hm.tail (.idle m (Kernel.idles_clock m.kernel now))
  exact ⟨h.sound.moves hreach, h.agenda_ordered hreach,
    Scheduled.moves h.vacant.scheduled h.sound hreach⟩

/-- A loop that has taken the commands of a history came about by moves. -/
theorem moves_takeCommands (l : Loop) (actions : List Action) {stop : Bool}
    (h : (l.after actions).takeCommands.1 = .ok stop) :
    Moves ⟨l, []⟩ ⟨(l.after actions).takeCommands.2, []⟩ := by
  have hreaches : Reaches (fun _ => True) ⟨l.after actions, [], []⟩
    (l.after actions).takeCommands :=
    reaches_takeCommands _
  have hmoves := moves_after l actions
  generalize (l.after actions).takeCommands = r at h hreaches ⊢
  rcases r with ⟨_ | _, m⟩
  · cases h
  · have hcourse : Course (fun _ => True) ⟨l.after actions, [], []⟩ ⟨m, [], []⟩ := hreaches
    exact hmoves.trans hcourse.moves

/--
**Retries fire in turn.** In every loop that came about by moves, at whatever the clock shows, a
pass over the retries connects those whose retry is due and nobody else, whatever outdated
appointments the agenda holds. Nobody is left out. Their first connects come in the order of their
appointments; and then the agenda holds what is due later, and one appointment for each connect that
failed and may be tried again. The clock must not show more than a third of the last deadline, for
which its 64 bits are too few (`Instant.thrice_elapse_le`).
-/
theorem Started.firesInTurn (h : l.Started) {m : Loop} (hm : Moves ⟨l, []⟩ ⟨m, []⟩) (now : Instant)
    (hnow : 3 * now.nanos ≤ Instant.lastDeadline.nanos) :
    FiresInTurn (m.atClock now) (m.atClock now).fired (m.atClock now).fireRetries := by
  have ⟨hsound, hordered, hscheduled⟩ := h.at_pass hm now
  have hpatient : (m.atClock now).Patient := Patient.moves h.vacant.patient h.sound hm
  have hclock : (m.atClock now).now = now := rfl
  generalize m.atClock now = l₁ at hsound hordered hscheduled hpatient hclock
  subst hclock
  have hl₁ := hsound.appoint (l₁.agenda.takeDue l₁.now).2
  have hpass := hl₁.pass (l₁.agenda.takeDue l₁.now).1
  have hdues : ∀ a ∈ (l₁.agenda.takeDue l₁.now).1, a.deadline ≤ l₁.now :=
    fun a ha => (hordered.mem_due_iff.1 ha).2
  have hok := hpass.goesThrough hl₁ hpatient hdues hnow
  exact
    { fires := hpass.fires
      only := fun f hf => hpass.due_of_mem hdues hf
      own := fun f hf => hpass.waits_of_mem_firsts hf
      ascending := hpass.ascending (hordered.due_pairwise l₁.now)
      every := fun a ha hle => by
        obtain ⟨c, hc, hd⟩ := id ha
        have hmem := (hscheduled a.token c a.deadline hc hd).resolve_right List.not_mem_nil
        exact hpass.exists_first hok (hordered.mem_due_iff.2 ⟨hmem, hle⟩) ha
      agenda := hpass.agenda_perm.trans ((hordered.perm_later l₁.now).append_right _)
      goesThrough := hok }

/-- Three connects are refused, and one of the connections is closed before the retries are due. -/
theorem Started.firesInTurn_of_outdated :
    let refused : Plan := { connect := .fails .connectionRefused }
    let l : Loop := { kernel := { plans := [refused, refused, refused, {}, refused] } }
    let connect : Action := .request (.connect default {} {})
    let m := ((l.after [connect, connect, connect, .turn, .request (.close 0)]).takeCommands).2
    let now := Instant.start.elapse (.ofMillis 200)
    l.Started ∧ Moves ⟨l, []⟩ ⟨m, []⟩ ∧ 3 * now.nanos ≤ Instant.lastDeadline.nanos ∧
      m.agenda.toList.map Appointment.token = [0, 1, 2] ∧
      (m.atClock now).fired.map (fun f => (f.id, f.due.token)) = [(1, 1), (2, 2)] ∧
      (m.atClock now).fireRetries.2.agenda.toList = [⟨⟨400000000⟩, 2⟩] ∧
      FiresInTurn (m.atClock now) (m.atClock now).fired (m.atClock now).fireRetries := by
  intro refused l connect m now
  have hstarted : l.Started := ⟨{}, l.kernel, ⟨rfl, rfl, rfl⟩, rfl⟩
  have htaken : (l.after [connect, connect, connect, .turn, .request (.close 0)]).takeCommands.1 =
      .ok false := by decide +kernel
  have hm : Moves ⟨l, []⟩ ⟨m, []⟩ := moves_takeCommands l _ htaken
  have hnow : 3 * now.nanos ≤ Instant.lastDeadline.nanos := Instant.thrice_elapse_le _ _
  have hagenda : m.agenda.toList.map Appointment.token = [0, 1, 2] := by decide +kernel
  have hfired : (m.atClock now).fired.map (fun f => (f.id, f.due.token)) = [(1, 1), (2, 2)] := by
    decide +kernel
  have hlater : (m.atClock now).fireRetries.2.agenda.toList = [⟨⟨400000000⟩, 2⟩] := by
    decide +kernel
  clear_value m now
  exact ⟨hstarted, hm, hnow, hagenda, hfired, hlater, hstarted.firesInTurn hm now hnow⟩

/--
**A retry does not spin.** One pass over the retries makes the connects that it fires, and no
others. It connects a connection once, and once more at most for every outdated appointment under
its token for this very moment; and once at most if its policy has it wait at all.
-/
theorem Started.fires_once (h : l.Started) {m : Loop} (hm : Moves ⟨l, []⟩ ⟨m, []⟩) (now : Instant)
    (hc : m.connections.get? t = some c) :
    let firings := (m.atClock now).fired
    let outdated := m.agenda.toList.count ⟨now, t⟩ - if c.retryAt = some now then 1 else 0
    Fires { m.atClock now with agenda := (m.agenda.takeDue now).2 } firings
        (m.atClock now).fireRetries ∧
      firings.countP (fun f => f.id = c.id) ≤ 1 + outdated ∧
      (0 < (c.policy.backoff 1).nanos → firings.countP (fun f => f.id = c.id) ≤ 1) := by
  have ⟨hsound, hordered, _⟩ := h.at_pass hm now
  have hc₁ : (m.atClock now).connections.get? t = some c := hc
  have hagenda : (m.atClock now).agenda = m.agenda := rfl
  have hnow : (m.atClock now).now = now := rfl
  simp only
  rw [← hagenda]
  generalize m.atClock now = l₁ at hsound hordered hc₁ hnow
  subst hnow
  have hpass := (hsound.appoint (l₁.agenda.takeDue l₁.now).2).pass (l₁.agenda.takeDue l₁.now).1
  have hdues : ∀ a ∈ (l₁.agenda.takeDue l₁.now).1, a.deadline ≤ l₁.now :=
    fun a ha => (hordered.mem_due_iff.1 ha).2
  -- A connection has one slot.
  have hslot : l₁.fired.countP (fun f => f.id = c.id) ≤
      l₁.fired.countP (fun f => f.due.token = t) := by
    refine List.countP_mono_left fun f hf hid => ?_
    have ⟨c', d, hc', hid', _, _⟩ := hpass.due_of_mem hdues hf
    exact decide_eq_true (hsound.coherent.slot_eq hc' hc₁ (hid'.trans (of_decide_eq_true hid)))
  have hcount : (l₁.agenda.takeDue l₁.now).1.count ⟨l₁.now, t⟩ =
      l₁.agenda.toList.count ⟨l₁.now, t⟩ := by
    rw [(hordered.perm_due l₁.now).count_eq, List.count_filter]
    exact decide_eq_true (Nat.le_refl _)
  have hmany := hpass.countP_le hdues hc₁
  refine ⟨hpass.fires, Nat.le_trans hslot ?_,
    fun hpos => Nat.le_trans hslot (hpass.countP_le_one hdues hc₁ hpos)⟩
  rw [← hcount]
  exact hmany

/-- A connection is closed, and the next one in its slot is due at the same moment. -/
theorem Started.fires_once_of_reused_slot :
    let refused : Plan := { connect := .fails .connectionRefused }
    let l : Loop := { kernel := { plans := [refused, refused, refused, refused] } }
    let connect : Action := .request (.connect default {} {})
    let m := ((l.after [connect, .request (.close 0), connect]).takeCommands).2
    let now : Instant := ⟨100000000⟩
    l.Started ∧ Moves ⟨l, []⟩ ⟨m, []⟩ ∧ m.agenda.toList = [⟨now, 0⟩, ⟨now, 0⟩] ∧
      ∃ c, m.connections.get? 0 = some c ∧ c.id = 1 ∧ c.retryAt = some now ∧
        0 < (c.policy.backoff 1).nanos ∧ (m.atClock now).fired.map Firing.id = [1] ∧
        (m.atClock now).fired.countP (fun f => f.id = c.id) ≤ 1 := by
  intro refused l connect m now
  have hstarted : l.Started := ⟨{}, l.kernel, ⟨rfl, rfl, rfl⟩, rfl⟩
  have htaken : (l.after [connect, .request (.close 0), connect]).takeCommands.1 = .ok false := by
    decide +kernel
  have hm : Moves ⟨l, []⟩ ⟨m, []⟩ := moves_takeCommands l _ htaken
  have hagenda : m.agenda.toList = [⟨now, 0⟩, ⟨now, 0⟩] := by decide +kernel
  have hslot : (m.connections.get? 0).map (fun c => (c.id, c.retryAt, c.policy)) =
      some (1, some now, {}) := by decide +kernel
  have hfired : (m.atClock now).fired.map Firing.id = [1] := by decide +kernel
  clear_value m
  have ⟨c, hc, hdata⟩ := Option.map_eq_some_iff.1 hslot
  have ⟨hid, hretry, hpolicy⟩ : c.id = 1 ∧ c.retryAt = some now ∧ c.policy = {} := by
    simpa only [Prod.mk.injEq] using hdata
  have hpos : 0 < (c.policy.backoff 1).nanos := by
    rw [hpolicy]
    decide +kernel
  exact ⟨hstarted, hm, hagenda, c, hc, hid, hretry, hpos, hfired,
    (hstarted.fires_once hm now hc).2.2 hpos⟩

/-- The same, with a policy that has nobody wait: the second connection is connected twice. -/
theorem Started.not_fires_once_of_immediate :
    let refused : Plan := { connect := .fails .connectionRefused }
    let l : Loop := { kernel := { plans := [refused, refused, refused, refused] } }
    let connect : Action := .request (.connect default {} { policy := .immediate })
    let m := ((l.after [connect, .request (.close 0), connect]).takeCommands).2
    l.Started ∧ Moves ⟨l, []⟩ ⟨m, []⟩ ∧ (m.connections.get? 0).map Connection.id = some 1 ∧
      m.fired.countP (fun f => f.id = 1) = 2 ∧ m.fireRetries.1 = .ok () := by
  intro refused l connect m
  have hstarted : l.Started := ⟨{}, l.kernel, ⟨rfl, rfl, rfl⟩, rfl⟩
  have htaken : (l.after [connect, .request (.close 0), connect]).takeCommands.1 = .ok false := by
    decide +kernel
  have hm : Moves ⟨l, []⟩ ⟨m, []⟩ := moves_takeCommands l _ htaken
  have hslot : (m.connections.get? 0).map Connection.id = some 1 := by decide +kernel
  have htwice : m.fired.countP (fun f => f.id = 1) = 2 := by decide +kernel
  have hok : m.fireRetries.1 = .ok () := by decide +kernel
  clear_value m
  exact ⟨hstarted, hm, hslot, htwice, hok⟩

end Loop

end TextLink
