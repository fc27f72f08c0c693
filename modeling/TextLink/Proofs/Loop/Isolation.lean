import TextLink.Proofs.Agenda
import TextLink.Proofs.Connection.Alike
import TextLink.Proofs.Loop.Commands
import TextLink.Proofs.Loop.Draining

/-!
# Events of others are not noticed

The events of a batch are handled one after the other over the same tables. What an event does shows
on the connection under its token only, and what it does there is told by that connection, its queue
and its socket. So of every connection a batch makes what its own events alone would have made of it
(`Isolates`): the two runs have the same of it (`SameAt`) after every event, since an event of its
own is handled alike in both, and one of another is not noticed in the run that has it.

A fault ends a batch, and the events behind it are lost whomever they were for. That happens only
where a connection meets the fault by its own events alone, and a calm one meets none.

## Main results

* `SameAt.handle_other`, `SameAt.handle_own` — one event.
* `SameAt.dispatch` — a batch that goes through.
* `Started.isolates` — every batch.
-/

namespace TextLink.Loop

open Link (Steps Leads)

variable {allowed : Happening → Prop} {l l' l₀ : Loop} {t t' id : Nat} {c c₀ : Connection}
  {event : Event} {r r' : Except Setback Progress × Link}

/-! ## After an event was handled -/

/-- Takes over what the connection in slot `t` has become by an event, and does what is left to
do. -/
def settleEvent (l : Loop) (t : Nat) : Except Setback Progress × Link → Except Fault Unit × Loop
  | (.ok progress, k) => (.ok (), (l.absorb t k).apply t progress)
  | (.error (.failed _), k) => (.ok (), (l.absorb t k).note [.eventSkipped t])
  | (.error (.fault fault), k) => (.error fault, l.absorb t k)

theorem handle_of_slot (hc : l.connections.get? event.token = some c) :
    l.handle event = l.settleEvent event.token ((l.link c).handleEvent event) := by
  rcases hr : (l.link c).handleEvent event with ⟨(e | f) | progress, k⟩ <;>
    simp only [handle, settleEvent, hc, hr]

theorem handle_of_vacant (hc : l.connections.get? event.token = none) :
    l.handle event = (.ok (), l) := by
  rw [handle, hc]

/-- The retry to be made after an event that ended a connect. -/
def toBook (t : Nat) : Except Setback Progress → List Appointment
  | .ok (.retry deadline) => [⟨deadline, t⟩]
  | _ => []

theorem answer_settleEvent (h : r'.1 = r.1) : (l'.settleEvent t r').1 = (l.settleEvent t r).1 := by
  rcases r with ⟨answer, k⟩
  rcases r' with ⟨answer', k'⟩
  cases h
  rcases answer with (e | f) | progress <;> rfl

theorem kernel_settleEvent : (l.settleEvent t r).2.kernel = r.2.kernel := by
  rcases r with ⟨(e | f) | (_ | _ | _), k⟩ <;> rfl

theorem heardBy_settleEvent : (l.settleEvent t r).2.heardBy id = r.2.journal.heardBy id := by
  rcases r with ⟨(e | f) | (_ | _ | _), k⟩ <;> rfl

theorem queue_settleEvent : (l.settleEvent t r).2.queue id = (l.absorb t r.2).queue id := by
  rcases r with ⟨(e | f) | (_ | _ | _), k⟩ <;> rfl

theorem perm_agenda_settleEvent :
    (l.settleEvent t r).2.agenda.toList.Perm (toBook t r.1 ++ l.agenda.toList) := by
  rcases r with ⟨(e | f) | (_ | deadline | _), k⟩
  case ok.retry => exact Agenda.perm_push l.agenda ⟨deadline, t⟩
  all_goals exact .refl _

theorem get?_settleEvent (hc : l.connections.get? t = some c) (t' : Nat) :
    (l.settleEvent t r).2.connections.get? t' =
      if t' = t then (if r.1 = .ok .closed then none else some r.2.conn)
      else l.connections.get? t' := by
  have habsorb : (l.absorb t r.2).connections.get? t' =
      if t' = t then some r.2.conn else l.connections.get? t' := get?_absorb hc
  rcases r with ⟨(e | f) | (_ | deadline | _), k⟩
  case ok.closed =>
    refine SlotTable.get?_remove.trans ?_
    by_cases ht : t' = t
    · rw [if_pos ht, if_pos ht]
      rfl
    · rw [if_neg ht, if_neg ht, habsorb, if_neg ht]
  all_goals exact habsorb

/-- Whoever is there afterwards had the event, or was there before. -/
theorem slot_settleEvent {c' : Connection} (hc : l.connections.get? t = some c)
    (hc' : (l.settleEvent t r).2.connections.get? t' = some c') :
    (t' = t ∧ c' = r.2.conn) ∨ l.connections.get? t' = some c' := by
  rw [get?_settleEvent hc] at hc'
  split at hc'
  · split at hc'
    · cases hc'
    · exact .inl ⟨‹_›, (Option.some.inj hc').symm⟩
  · exact .inr hc'

/-! ## What becomes of those that were there -/

/-- `l` comes from `l₀` by events: whoever is there was there, with no other socket. -/
structure Descends (l₀ l : Loop) : Prop where
  sound : l.Sound
  quiet : l.kernel.verdicts = []
  own : ∀ t c, l.connections.get? t = some c → c.handler.conn = c.id
  was : ∀ t c, l.connections.get? t = some c → ∃ c₀, l₀.connections.get? t = some c₀ ∧
    c.id = c₀.id ∧ ∀ s, c.socket = some s → c₀.socket = some s
  descriptor_eq : ∀ s, l.kernel.descriptor s = l₀.kernel.descriptor s

/-- What comes of an event that connection `c` of `l` handles. -/
structure Handled (l : Loop) (c : Connection) (r : Except Setback Progress × Link) : Prop where
  leads : Leads (l.link c) r.2
  kernel : Kernel.Confined c.socket l.kernel r.2.kernel
  within : r.2.Within c.socket
  quiet : r.2.kernel.verdicts = []
  heard_other : ∀ id, c.id ≠ id → r.2.journal.heardBy id = l.heardBy id

theorem Handled.handler_eq (h : Handled l c r) : r.2.conn.handler = c.handler :=
  congrArg (·.2.2.2.1) h.leads.identity_eq

theorem Sound.within (h : l.Sound) (hc : l.connections.get? t = some c) :
    (l.link c).Within c.socket :=
  fun _ hs => (Link.holds_iff.1 hs).elim id fun hw => (writer_up (h.shape t c hc) hw).2

namespace Descends

theorem refl (h : l.Sound) (haddressed : l.Addressed) (hquiet : l.kernel.verdicts = []) :
    Descends l l :=
  ⟨h, hquiet, haddressed.own, fun _ c hc => ⟨c, hc, rfl, fun _ hs => hs⟩, fun _ => rfl⟩

theorem handled (h : Descends l₀ l) (hc : l.connections.get? t = some c) (event : Event) :
    Handled l c ((l.link c).handleEvent event) := by
  have hsteps := Steps.handleEvent (l.link c) event
  have hwithin := h.sound.within hc
  have hwhy : Link.Occasion.ofEvent c.state ≠ .attempting := by
    cases c.state <;> exact nofun
  have halike : Link.Alike c.socket (l.link c) (l.link c) := ⟨hwithin, rfl, rfl, .refl h.quiet, rfl⟩
  have hconfined := hsteps.confined hwhy (h.sound.coherent.lives hc).link hwithin
  refine ⟨hsteps.leads (h.sound.coherent.lives hc).link, hconfined.1, hconfined.2,
    (halike.handleEvent event).after.kernel.quiet, fun id hid => ?_⟩
  exact hsteps.heardBy_other fun heq => hid ((h.own t c hc).symm.trans heq)

/-- An event that does not end in a fault. -/
theorem handle (h : Descends l₀ l) (hok : l.handle event = (.ok (), l')) : Descends l₀ l' := by
  have hnext : Next (fun _ => True) ⟨l, [], [event]⟩ ⟨l', [], []⟩ := .handle [] hok
  have hsound : l'.Sound := Sound.next (m := ⟨l, [], [event]⟩) h.sound hnext
  rcases hc : l.connections.get? event.token with _ | c
  · rw [handle_of_vacant hc] at hok
    cases hok
    exact h
  rw [handle_of_slot hc] at hok
  have hhandled := h.handled hc event
  generalize (l.link c).handleEvent event = r at hok hhandled
  obtain rfl : (l.settleEvent event.token r).2 = l' := congrArg Prod.snd hok
  refine ⟨hsound, kernel_settleEvent ▸ hhandled.quiet, fun t c' hc' => ?_, fun t c' hc' => ?_,
    fun s => ?_⟩
  · rcases slot_settleEvent hc hc' with ⟨rfl, rfl⟩ | hc'
    · rw [hhandled.handler_eq, id_eq hhandled.leads, h.own event.token c hc]
    · exact h.own t c' hc'
  · rcases slot_settleEvent hc hc' with ⟨rfl, rfl⟩ | hc'
    · obtain ⟨c₀, hc₀, hid, hsocket⟩ := h.was event.token c hc
      exact ⟨c₀, hc₀, (id_eq hhandled.leads).trans hid, fun s hs =>
        hsocket s (hhandled.within.socket hs)⟩
    · exact h.was t c' hc'
  · rw [kernel_settleEvent, hhandled.kernel.descriptor_eq, h.descriptor_eq]

end Descends

/-! ## The same of one connection -/

/-- The retries booked for slot `t`. -/
def bookings (l : Loop) (t : Nat) : List Appointment := l.agenda.toList.filter fun a => a.token == t

theorem perm_bookings_settleEvent (l : Loop) (t t' : Nat) (r : Except Setback Progress × Link) :
    ((l.settleEvent t r).2.bookings t').Perm
      ((toBook t r.1).filter (fun a => a.token == t') ++ l.bookings t') := by
  rw [bookings, bookings, ← List.filter_append]
  exact perm_agenda_settleEvent.filter _

theorem filter_toBook_of_ne (hne : t' ≠ t) (answer : Except Setback Progress) :
    ((toBook t answer).filter fun a => a.token == t') = [] := by
  refine List.filter_eq_nil_iff.2 fun a ha htoken => hne ?_
  rcases answer with e | (_ | deadline | _)
  case ok.retry =>
    rw [List.mem_singleton.1 ha] at htoken
    exact (eq_of_beq htoken).symm
  all_goals cases ha

/-- Of the connection that `l₀` has in slot `t`, `l` and `l'` have the same: its slot and its
retries, its queue, what it was told, and what the kernel has of its socket. -/
structure SameAt (l₀ : Loop) (t : Nat) (l l' : Loop) : Prop where
  slot_eq : l'.connections.get? t = l.connections.get? t
  bookings_perm : (l'.bookings t).Perm (l.bookings t)
  queue_eq : ∀ c, l₀.connections.get? t = some c → l'.queue c.id = l.queue c.id
  heard_eq : ∀ c, l₀.connections.get? t = some c → l'.heardBy c.id = l.heardBy c.id
  kernel : ∀ c, l₀.connections.get? t = some c → Kernel.Alike c.socket l.kernel l'.kernel

namespace SameAt

theorem refl (hquiet : l.kernel.verdicts = []) : SameAt l₀ t l l :=
  ⟨rfl, .refl _, fun _ _ => rfl, fun _ _ => rfl, fun _ _ => .refl hquiet⟩

theorem symm (h : SameAt l₀ t l l') : SameAt l₀ t l' l :=
  ⟨h.slot_eq.symm, h.bookings_perm.symm, fun c hc => (h.queue_eq c hc).symm,
    fun c hc => (h.heard_eq c hc).symm, fun c hc => (h.kernel c hc).symm⟩

theorem trans {l'' : Loop} (h : SameAt l₀ t l l') (h' : SameAt l₀ t l' l'') : SameAt l₀ t l l'' :=
  ⟨h'.slot_eq.trans h.slot_eq, h'.bookings_perm.trans h.bookings_perm,
    fun c hc => (h'.queue_eq c hc).trans (h.queue_eq c hc),
    fun c hc => (h'.heard_eq c hc).trans (h.heard_eq c hc),
    fun c hc => (h.kernel c hc).trans (h'.kernel c hc)⟩

end SameAt

/-! ### One event -/

variable (hl₀ : l₀.Coherent) (h : Descends l₀ l)

include hl₀ h

/-- Two connections hold different sockets, with different descriptors. -/
theorem Descends.apart (hc : l.connections.get? t = some c) (hc₀ : l₀.connections.get? t' = some c₀)
    (hne : t' ≠ t) {s s' : SocketId} (hs : c.socket = some s) (hs' : c₀.socket = some s') :
    s ≠ s' ∧ l.kernel.descriptor s ≠ l.kernel.descriptor s' := by
  obtain ⟨c₁, hc₁, -, hsocket⟩ := h.was t c hc
  have hheld : (l₀.link c₁).holds s := Link.holds_iff.2 (.inl (hsocket s hs))
  have hheld' : (l₀.link c₀).holds s' := Link.holds_iff.2 (.inl hs')
  have hapart : s ≠ s' := fun heq => hne (hl₀.apart t' t c₀ c₁ s' hc₀ hc₁ hheld' (heq ▸ hheld))
  refine ⟨hapart, fun hd => hapart ?_⟩
  rw [h.descriptor_eq, h.descriptor_eq] at hd
  exact hl₀.kernel.distinct s s' ((hl₀.lives hc₁).link.open_of_holds s hheld)
    ((hl₀.lives hc₀).link.open_of_holds s' hheld') hd

/-- An event of another is not noticed. -/
theorem SameAt.handle_other (hne : t ≠ event.token) : SameAt l₀ t l (l.handle event).2 := by
  rcases hc : l.connections.get? event.token with _ | c
  · rw [handle_of_vacant hc]
    exact .refl h.quiet
  have hhandled := h.handled hc event
  obtain ⟨c₁, hc₁, hid₁, -⟩ := h.was event.token c hc
  have hid {c₀ : Connection} (hc₀ : l₀.connections.get? t = some c₀) : c₀.id ≠ c.id := fun heq =>
    hne (hl₀.slot_eq hc₀ hc₁ (heq.trans hid₁))
  rw [handle_of_slot hc]
  refine ⟨?_, ?_, fun c₀ hc₀ => ?_, fun c₀ hc₀ => ?_, fun c₀ hc₀ => ?_⟩
  · rw [get?_settleEvent hc, if_neg hne]
  · have hperm := perm_bookings_settleEvent l event.token t ((l.link c).handleEvent event)
    rwa [filter_toBook_of_ne hne] at hperm
  · have hlt := (h.sound.coherent.lives hc).id_lt
    have hsame := id_eq hhandled.leads
    rw [queue_settleEvent, queue_absorb (hsame ▸ hlt), if_neg (hsame ▸ hid hc₀)]
  · rw [heardBy_settleEvent]
    exact hhandled.heard_other _ (hid hc₀).symm
  · rw [kernel_settleEvent]
    exact hhandled.kernel.alike h.quiet hhandled.quiet fun s s' hs hs' =>
      h.apart hl₀ hc hc₀ hne hs hs'

omit hl₀ in
/-- The connection that `l₀` has in slot `t` is linked alike to what is below it. -/
theorem SameAt.link (hsame : SameAt l₀ t l l') (hc : l.connections.get? t = some c)
    (hc₀ : l₀.connections.get? t = some c₀) : Link.Alike c₀.socket (l.link c) (l'.link c) := by
  obtain ⟨c₁, hc₁, hid, hsocket⟩ := h.was t c hc
  cases hc₁.symm.trans hc₀
  refine ⟨fun s hs => hsocket s (h.sound.within hc s hs), rfl, ?_, hsame.kernel c₀ hc₀, ?_⟩
  · show l'.queue c.id = l.queue c.id
    rw [hid, hsame.queue_eq c₀ hc₀]
  · show l'.heardBy c.handler.conn = l.heardBy c.handler.conn
    rw [h.own t c hc, hid, hsame.heard_eq c₀ hc₀]

omit hl₀ in
/-- An event of its own is handled alike. -/
theorem SameAt.handle_own (h' : Descends l₀ l') (hsame : SameAt l₀ event.token l l') :
    Agree (SameAt l₀ event.token) (l.handle event) (l'.handle event) := by
  rcases hc : l.connections.get? event.token with _ | c
  · rw [handle_of_vacant hc, handle_of_vacant (hsame.slot_eq.trans hc)]
    exact ⟨rfl, hsame⟩
  have hc' : l'.connections.get? event.token = some c := hsame.slot_eq.trans hc
  obtain ⟨c₀, hc₀, hid, -⟩ := h.was event.token c hc
  have hagree := (hsame.link h hc hc₀).handleEvent event
  have hhandled := h.handled hc event
  have hlt := (h.sound.coherent.lives hc).id_lt
  have hlt' := (h'.sound.coherent.lives hc').id_lt
  rw [handle_of_slot hc, handle_of_slot hc']
  generalize (l.link c).handleEvent event = r at hagree hhandled ⊢
  generalize (l'.link c).handleEvent event = r' at hagree ⊢
  have hown := id_eq hhandled.leads
  have hown' : r'.2.conn.id = c.id := (congrArg Connection.id hagree.after.conn_eq).trans hown
  have honly {c : Connection} (hc : l₀.connections.get? event.token = some c) : c = c₀ :=
    Option.some.inj (hc.symm.trans hc₀)
  refine ⟨answer_settleEvent hagree.answer_eq, ?_, ?_, fun c₁ hc₁ => ?_, fun c₁ hc₁ => ?_,
    fun c₁ hc₁ => ?_⟩
  · rw [get?_settleEvent hc, get?_settleEvent hc', hagree.answer_eq, hagree.after.conn_eq,
      hsame.slot_eq]
  · have hperm := perm_bookings_settleEvent l event.token event.token r
    have hperm' := perm_bookings_settleEvent l' event.token event.token r'
    rw [hagree.answer_eq] at hperm'
    exact (hperm'.trans (hsame.bookings_perm.append_left _)).trans hperm.symm
  · obtain rfl := honly hc₁
    rw [queue_settleEvent, queue_settleEvent, queue_absorb (hown' ▸ hlt'),
      queue_absorb (hown ▸ hlt), if_pos (hown'.trans hid).symm, if_pos (hown.trans hid).symm]
    exact hagree.after.queue_eq
  · obtain rfl := honly hc₁
    have hheard := hagree.after.heard_eq
    rw [hhandled.handler_eq, h.own event.token c hc, hid] at hheard
    rw [heardBy_settleEvent, heardBy_settleEvent]
    exact hheard
  · obtain rfl := honly hc₁
    rw [kernel_settleEvent, kernel_settleEvent]
    exact hagree.after.kernel

/-! ## Batches -/

omit hl₀ h

theorem dispatch_cons_ok {later : List Event} (hok : l.handle event = (.ok (), l')) :
    l.dispatch (event :: later) = l'.dispatch later := by
  rw [dispatch, hok]

theorem dispatch_cons_error {later : List Event} {fault : Fault}
    (hfault : l.handle event = (.error fault, l')) :
    l.dispatch (event :: later) = (.error fault, l') := by
  rw [dispatch, hfault]

theorem dispatch_append {events later : List Event} (hok : l.dispatch events = (.ok (), l')) :
    l.dispatch (events ++ later) = l'.dispatch later := by
  induction events generalizing l with
  | nil =>
      cases hok
      rfl
  | cons event events ih =>
      rcases hhandle : l.handle event with ⟨fault | _, l₁⟩
      · rw [dispatch_cons_error hhandle] at hok
        cases hok
      · rw [dispatch_cons_ok hhandle] at hok
        rw [List.cons_append, dispatch_cons_ok hhandle]
        exact ih hok

/-- A batch that faults does so at one of its events, and leaves out those behind it. -/
theorem exists_of_dispatch_fault {events : List Event} {fault : Fault} {l' : Loop}
    (hfault : l.dispatch events = (.error fault, l')) :
    ∃ done event later l₁, events = done ++ event :: later ∧ l.dispatch done = (.ok (), l₁) ∧
      l₁.handle event = (.error fault, l') := by
  induction events generalizing l with
  | nil => cases hfault
  | cons event events ih =>
      rcases hhandle : l.handle event with ⟨f | _, l₁⟩
      · rw [dispatch_cons_error hhandle] at hfault
        cases hfault
        exact ⟨[], event, events, l, rfl, rfl, hhandle⟩
      · rw [dispatch_cons_ok hhandle] at hfault
        obtain ⟨done, e, later, l₂, rfl, hdone, he⟩ := ih hfault
        exact ⟨event :: done, e, later, l₂, rfl, by rw [dispatch_cons_ok hhandle, hdone], he⟩

/-- The events of slot `t`. -/
def eventsOf (t : Nat) (events : List Event) : List Event := events.filter fun e => e.token == t

theorem eventsOf_cons_own (event : Event) (later : List Event) :
    eventsOf event.token (event :: later) = event :: eventsOf event.token later := by
  simp [eventsOf]

theorem eventsOf_cons_other (hne : event.token ≠ t) (later : List Event) :
    eventsOf t (event :: later) = eventsOf t later := by
  simp [eventsOf, hne]

/-- A batch that goes through makes of a connection what its own events make of it. -/
theorem SameAt.dispatch (hl₀ : l₀.Coherent) (h : Descends l₀ l) (h' : Descends l₀ l')
    (hsame : SameAt l₀ t l l') {events : List Event} {l₁ : Loop}
    (hok : l.dispatch events = (.ok (), l₁)) :
    ∃ l₁', l'.dispatch (eventsOf t events) = (.ok (), l₁') ∧ Descends l₀ l₁ ∧ Descends l₀ l₁' ∧
      SameAt l₀ t l₁ l₁' := by
  induction events generalizing l l' with
  | nil =>
      cases hok
      exact ⟨l', rfl, h, h', hsame⟩
  | cons event later ih =>
      rcases hhandle : l.handle event with ⟨fault | _, l₂⟩
      · rw [dispatch_cons_error hhandle] at hok
        cases hok
      rw [dispatch_cons_ok hhandle] at hok
      have hafter := h.handle hhandle
      by_cases htoken : event.token = t
      · subst htoken
        obtain ⟨l₂', hhandle', hsame'⟩ := (hsame.handle_own h h').exists_of_eq hhandle
        rw [eventsOf_cons_own, dispatch_cons_ok hhandle']
        exact ih hafter (h'.handle hhandle') hsame' hok
      · have hother := SameAt.handle_other hl₀ h (Ne.symm htoken)
        rw [hhandle] at hother
        rw [eventsOf_cons_other htoken]
        exact ih hafter h' (hother.symm.trans hsame) hok

/--
Dispatching `events` makes of every connection what its own events alone would make of it.

A batch goes through, unless one of the connections meets a fault by its own events; then it comes
to nothing more than the events up to that one.
-/
structure Isolates (l : Loop) (events : List Event) : Prop where
  alone : ∀ l₁, l.dispatch events = (.ok (), l₁) → ∀ t,
    ∃ l₁', l.dispatch (eventsOf t events) = (.ok (), l₁') ∧ SameAt l t l₁ l₁'
  fault : ∀ fault l₁, l.dispatch events = (.error fault, l₁) → ∃ done event later,
    events = done ++ event :: later ∧ (l.dispatch done).1 = .ok () ∧
      l.dispatch (done ++ [event]) = (.error fault, l₁) ∧
      (l.dispatch (eventsOf event.token (done ++ [event]))).1 = .error fault
  calm : l.Calm l.now → (l.dispatch events).1 = .ok ()

theorem Sound.isolates_batch (h : l.Sound) (haddressed : l.Addressed)
    (hquiet : l.kernel.verdicts = []) (events : List Event) : l.Isolates events := by
  have hstart := Descends.refl h haddressed hquiet
  refine ⟨fun l₁ hok t => ?_, fun fault l₁ hfault => ?_, fun hcalm => ?_⟩
  · obtain ⟨l₁', hok', -, -, hsame⟩ := SameAt.dispatch h.coherent hstart hstart (.refl hquiet) hok
    exact ⟨l₁', hok', hsame⟩
  · obtain ⟨done, event, later, l₂, rfl, hdone, hevent⟩ := exists_of_dispatch_fault hfault
    have hlast : l₂.dispatch [event] = (.error fault, l₁) := dispatch_cons_error hevent
    obtain ⟨l₂', hdone', hafter, hafter', hsame⟩ :=
      SameAt.dispatch (t := event.token) h.coherent hstart hstart (.refl hquiet) hdone
    obtain ⟨l₁', hevent', -⟩ := (hsame.handle_own hafter hafter').exists_of_eq hevent
    refine ⟨done, event, later, rfl, congrArg Prod.fst hdone, ?_, ?_⟩
    · rw [dispatch_append hdone, hlast]
    · have hown : eventsOf event.token (done ++ [event]) =
        eventsOf event.token done ++ [event] := by
        rw [eventsOf, List.filter_append]
        exact congrArg (eventsOf event.token done ++ ·) (eventsOf_cons_own event [])
      rw [hown, dispatch_append hdone', dispatch_cons_error hevent']
  · rcases hr : (l.dispatch events).1 with fault | _
    · exact absurd hr (hcalm.dispatch_ne_fault h (Nat.le_refl _) events)
    · rfl

/--
**Events of others are not noticed.** In every scene of a run in which no scripted verdicts are
left, and for every batch of events, whoever they are for: if the batch goes through, it makes of
every slot, of the retries booked for it, and of the connection in it, with its queue, what it was
told and what the kernel has of its socket, what the events of that slot alone would have made of
it. If the batch faults, a connection has met the fault by its own events, and what came before that
event went through. A batch over calm connections goes through.
-/
theorem Started.isolates (h : l.Started) {m : Scene} (hm : Course allowed ⟨l, [], []⟩ m)
    (hquiet : m.loop.kernel.verdicts = []) (events : List Event) : m.loop.Isolates events :=
  (h.sound.course (m := ⟨l, [], []⟩) hm).isolates_batch (h.addressed_course hm) hquiet events

/-- The stream of connection 0 ends, connection 1 has something to read, and the connect of
connection 2 was refused. Two of the events come too late, or for nobody. -/
theorem Started.isolates_of_mixed_batch :
    let l : Loop := { kernel := { plans := [{ connect := .ok }, { connect := .ok }, {}] } }
    let connect : Action := .request (.connect default {} {})
    let m := l.after [connect, connect, connect, .turn, .happen (.arrive 0 [.ending]),
      .happen (.arrive 1 [.data [104, 105]]), .happen (.complete 2 (.fails .connectionRefused))]
    let events : List Event :=
      [⟨0, true, false, true⟩, ⟨1, true, false, false⟩, ⟨2, true, true, true⟩,
        ⟨0, true, false, true⟩, ⟨9, true, false, false⟩, ⟨1, false, true, false⟩]
    l.Started ∧ Course (fun _ => True) ⟨l, [], []⟩ ⟨m, [], []⟩ ∧ m.kernel.verdicts = [] ∧
      m.Isolates events ∧ ∃ l₁, m.dispatch events = (.ok (), l₁) ∧
        l₁.connections.get? 0 = none ∧ l₁.agenda.toList.map Appointment.token = [2] ∧
        l₁.heardBy 1 = [.state .connecting, .state .connected, .text "hi"] ∧
        ∀ t, ∃ l₁', m.dispatch (eventsOf t events) = (.ok (), l₁') ∧ SameAt m t l₁ l₁' := by
  intro l connect m events
  have hstarted : l.Started := ⟨{}, l.kernel, ⟨rfl, rfl, rfl⟩, rfl⟩
  have hm : Course (fun _ => True) ⟨l, [], []⟩ ⟨m, [], []⟩ := course_after l _ fun _ _ => trivial
  have hquiet : m.kernel.verdicts = [] := by decide +kernel
  have hok : (m.dispatch events).1 = .ok () := by decide +kernel
  have hgone : ((m.dispatch events).2.connections.get? 0).isNone := by decide +kernel
  have hbooked : (m.dispatch events).2.agenda.toList.map Appointment.token = [2] := by
    decide +kernel
  have hheard : (m.dispatch events).2.heardBy 1 =
      [.state .connecting, .state .connected, .text "hi"] := by decide +kernel
  clear_value m
  have hisolates := hstarted.isolates hm hquiet events
  exact ⟨hstarted, hm, hquiet, hisolates, (m.dispatch events).2, Prod.ext hok rfl,
    Option.isNone_iff_eq_none.1 hgone, hbooked, hheard, hisolates.alone _ (Prod.ext hok rfl)⟩

/-- The connects of two connections have ended. The first one was refused, and its wait has no end;
the second one succeeded, and the connection does not learn of it. -/
theorem Started.not_isolated_of_endless_wait :
    let l : Loop := { kernel := { plans := [{}, {}] } }
    let endless : ConnectOptions :=
      { policy := { initialBackoff := .longest, maxBackoff := .longest } }
    let m := l.after [.request (.connect default {} endless), .request (.connect default {} {}),
      .turn, .happen (.complete 0 (.fails .connectionRefused)), .happen (.complete 1 .ok)]
    let events : List Event := [⟨0, true, true, true⟩, ⟨1, false, true, false⟩]
    l.Started ∧ Course (fun _ => True) ⟨l, [], []⟩ ⟨m, [], []⟩ ∧ m.kernel.verdicts = [] ∧
      (m.dispatch events).1 = .error .deadline ∧
      ((m.dispatch events).2.connections.get? 1).map Connection.state = some .connecting ∧
      (m.dispatch (eventsOf 1 events)).1 = .ok () ∧
      ((m.dispatch (eventsOf 1 events)).2.connections.get? 1).map Connection.state =
      some .connected := by
  intro l endless m events
  have hstarted : l.Started := ⟨{}, l.kernel, ⟨rfl, rfl, rfl⟩, rfl⟩
  have hm : Course (fun _ => True) ⟨l, [], []⟩ ⟨m, [], []⟩ := course_after l _ fun _ _ => trivial
  have hquiet : m.kernel.verdicts = [] := by decide +kernel
  have hfault : (m.dispatch events).1 = .error .deadline := by decide +kernel
  have hmissed : ((m.dispatch events).2.connections.get? 1).map Connection.state =
    some .connecting := by
    decide +kernel
  have halone : (m.dispatch (eventsOf 1 events)).1 = .ok () := by decide +kernel
  have hestablished : ((m.dispatch (eventsOf 1 events)).2.connections.get? 1).map Connection.state =
      some .connected := by decide +kernel
  clear_value m
  exact ⟨hstarted, hm, hquiet, hfault, hmissed, halone, hestablished⟩

end TextLink.Loop
