import TextLink.Proofs.Connection.Confined
import TextLink.Proofs.Loop.Callbacks

/-!
# Commands reach only their own connection

A command names a connection by its number, and finds it by the slot that the queue is bound to.
Slots are used again at once, so by the time a command is taken its slot may be free, or another
connection's. It counts only for the connection whose queue it was given through (`Owns`): for any
other it does nothing, and what it does for that one shows on nothing else (`Confined`).

## Main results

* `Started.commands_confined` — what flushing and closing do, and to whom.
-/

namespace TextLink.Loop

open Link (Steps Occasion)

variable {allowed : Happening → Prop} {l l' : Loop} {t t' id : Nat} {c c' : Connection} {k : Link}

/-! ## Whose queue it is -/

/-- Connection `c` in slot `t` owns queue number `id`. -/
structure Owns (l : Loop) (id t : Nat) (c : Connection) : Prop where
  bound : (l.queue id).token = some t
  slot : l.connections.get? t = some c
  id_eq : c.id = id

/-- A command finds the owner of the queue it was given through. -/
theorem find?_eq_some_iff : l.find? id = some (t, c) ↔ l.Owns id t c := by
  constructor
  · intro hfind
    have hid := id_of_find?_eq_some hfind
    simp only [find?, Option.bind_eq_bind, Option.bind_eq_some_iff] at hfind
    obtain ⟨t', hbound, c', hc', hif⟩ := hfind
    split at hif
    · cases hif
      exact ⟨hbound, hc', hid⟩
    · cases hif
  · rintro ⟨hbound, hc, rfl⟩
    simp [find?, hbound, hc]

theorem find?_eq_none (h : ∀ t c, ¬ l.Owns id t c) : l.find? id = none := by
  rcases hfind : l.find? id with _ | ⟨t, c⟩
  · rfl
  · exact absurd (find?_eq_some_iff.1 hfind) (h t c)

/-- A command that flushes or closes connection number `id`. -/
inductive Concerns (id : Nat) : Command → Prop where
  | flush : Concerns id (.flush id)
  | close : Concerns id (.close id)

/-- Without an owner, there is nothing to flush and nothing to close. -/
theorem obey_of_not_owns {command : Command} (hcommand : Concerns id command)
    (h : ∀ t c, ¬ l.Owns id t c) : l.obey command = (.ok (), l) := by
  cases hcommand with
  | flush =>
      simp only [obey, rearmFor, find?_eq_none h]
  | close =>
      simp only [obey, closeFor, find?_eq_none h]

/-! ## What is left alone -/

/-- `l'` comes from `l` by acting for connection `c` in slot `t`, and it shows on that connection,
its queue, its socket and its slot only. -/
structure Confined (t : Nat) (c : Connection) (l l' : Loop) : Prop where
  slot_eq : ∀ t', t' ≠ t → l'.connections.get? t' = l.connections.get? t'
  /-- Nobody else is put into the slot. -/
  slot_own : ∀ c', l'.connections.get? t = some c' → c'.id = c.id
  queue_eq : ∀ id, id ≠ c.id → l'.queue id = l.queue id
  queues_length : l'.queues.length = l.queues.length
  kernel : Kernel.Confined c.socket l.kernel l'.kernel
  heardBy_eq : ∀ id, id ≠ c.id → l'.heardBy id = l.heardBy id
  agenda_eq : l'.agenda = l.agenda
  channel_eq : l'.channel = l.channel
  config_eq : l'.config = l.config
  ended_eq : l'.ended = l.ended

/-- A connection takes over what it has become. -/
theorem Confined.absorb (hl : l.Coherent) (hown : l.Addressed) (hc : l.connections.get? t = some c)
    {why : Occasion} (hk : Steps why (l.link c) k)
    (hkernel : Kernel.Confined c.socket l.kernel k.kernel) : Confined t c l (l.absorb t k) := by
  have hleads := hl.leads hc hk
  refine ⟨fun t' hne => ?_, fun c' hc' => ?_, fun id hid => ?_, List.length_set, hkernel,
    fun id hid => ?_, rfl, rfl, rfl, rfl⟩
  · rw [get?_absorb hc, if_neg hne]
  · rw [get?_absorb_self hc] at hc'
    rw [← Option.some.inj hc', id_eq hleads]
  · rw [queue_absorb (id_eq hleads ▸ (hl.lives hc).id_lt), if_neg (id_eq hleads ▸ hid)]
  · exact hk.heardBy_other fun heq => hid (heq.symm.trans (hown.own t c hc))

theorem Confined.note (h : Confined t c l l') (rs : List LogRecord) : Confined t c l (l'.note rs) :=
  { h with }

theorem Confined.remove (h : Confined t c l l') : Confined t c l (l'.apply t .closed) :=
  { h with
    slot_eq := fun t' hne => by
      rw [← h.slot_eq t' hne]
      exact SlotTable.get?_remove.trans (if_neg hne)
    slot_own := fun c' hc' => absurd rfl (slot_remove hc').1 }

/-- The owner acts, and nobody notices. -/
theorem Sound.confined_obey (hl : l.Sound) (hown : l.Addressed) {command : Command}
    (hcommand : Concerns id command) (howns : l.Owns id t c) :
    ∃ l', l.obey command = (.ok (), l') ∧ Confined t c l l' := by
  have hc := howns.slot
  have hfind := find?_eq_some_iff.2 howns
  cases hcommand with
  | flush =>
      simp only [Loop.obey, Loop.rearmFor, hfind]
      have hsteps : Steps .called (l.link c) (l.link c).rearm.2 := Steps.rearm .refl
      have hkernel : Kernel.Confined c.socket l.kernel (l.link c).rearm.2.kernel :=
        Link.confined_rearm (l.link c)
      exact ⟨_, rfl, (Confined.absorb hl.coherent hown hc hsteps hkernel).note _⟩
  | close =>
      simp only [Loop.obey, Loop.closeFor, hfind]
      have hsteps : Steps .called (l.link c) (l.link c).close := Steps.close .refl nofun
      have hkernel : Kernel.Confined c.socket l.kernel (l.link c).close.kernel :=
        Link.confined_close (l := l.link c) fun w hw => (writer_up (hl.shape t c hc) hw).2
      exact ⟨_, rfl, (Confined.absorb hl.coherent hown hc hsteps hkernel).remove⟩

/-! ## The others -/

/-- Connection `c` in slot `t` is as it was in `l`, with its queue, its socket and what is watched
of it, and it has been told nothing. -/
structure Undisturbed (t : Nat) (c : Connection) (l l' : Loop) : Prop where
  slot : l'.connections.get? t = some c
  queue_eq : l'.queue c.id = l.queue c.id
  socket_eq : ∀ s, c.socket = some s → l'.kernel.sockets[s]? = l.kernel.sockets[s]? ∧
    l'.kernel.watches (l.kernel.descriptor s) = l.kernel.watches (l.kernel.descriptor s)
  heardBy_eq : l'.heardBy c.id = l.heardBy c.id

theorem Confined.undisturbed (h : Confined t c l l') (hl : l.Coherent)
    (hc : l.connections.get? t = some c) (hc' : l.connections.get? t' = some c') (hne : t' ≠ t) :
    Undisturbed t' c' l l' := by
  have hid : c'.id ≠ c.id := fun heq => hne (hl.slot_eq hc' hc heq)
  refine ⟨(h.slot_eq t' hne).trans hc', h.queue_eq _ hid, fun s hs => ?_, h.heardBy_eq _ hid⟩
  -- No two connections hold the same socket, and no two open sockets have the same descriptor.
  have hheld : (l.link c').holds s := Link.holds_iff.2 (.inl hs)
  have hapart {s' : SocketId} (hs' : c.socket = some s') : s' ≠ s := fun heq =>
    hne (hl.apart t' t c' c s hc' hc hheld (Link.holds_iff.2 (.inl (heq ▸ hs'))))
  refine ⟨h.kernel.socket_eq s fun heq => hapart heq rfl, h.kernel.watches_eq _ fun s' hs' hd => ?_⟩
  have hopen' : l.kernel.Open s' :=
    (hl.lives hc).link.open_of_holds s' (Link.holds_iff.2 (.inl hs'))
  have hopen : l.kernel.Open s := (hl.lives hc').link.open_of_holds s hheld
  exact hapart hs' (hl.kernel.distinct s' s hopen' hopen hd)

/-! ## Runs -/

/--
**A command reaches only its own connection.** In every scene of a run, however often slots were
used again, the next command is one to flush or close connection number `id`. If no connection owns
that queue, because it is closed or its slot is another's by now, the command does nothing at all:
no call is made, and the loop differs in the command taken only. If one does, then the command goes
through, it shows on that connection, its queue, its socket and its slot only, and every other
connection is undisturbed.
-/
theorem Started.commands_confined (h : l.Started) {m : Scene} (hm : Course allowed ⟨l, [], []⟩ m)
    {command : Command} {later : List Command} (hchannel : m.loop.channel = command :: later)
    (hcommand : Concerns id command) :
    let taken : Loop := { m.loop with channel := later }
    ((∀ t c, ¬ m.loop.Owns id t c) → taken.obey command = (.ok (), taken)) ∧
      ∀ t c, m.loop.Owns id t c → ∃ l', taken.obey command = (.ok (), l') ∧ Confined t c taken l' ∧
        ∀ t' c', t' ≠ t → m.loop.connections.get? t' = some c' → Undisturbed t' c' taken l' := by
  intro taken
  have hsound : m.loop.Sound := h.sound.course (m := ⟨l, [], []⟩) hm
  have htaken : taken.Sound := hsound.take hchannel
  have haddressed : m.loop.Addressed := h.addressed_course hm
  have hown : taken.Addressed := by
    refine ⟨haddressed.own, fun id address handler options hmem => ?_, haddressed.told⟩
    exact haddressed.requested id address handler options (hchannel ▸ List.mem_cons_of_mem _ hmem)
  have howns {t : Nat} {c : Connection} : taken.Owns id t c ↔ m.loop.Owns id t c :=
    ⟨fun ⟨hbound, hc, hid⟩ => ⟨hbound, hc, hid⟩, fun ⟨hbound, hc, hid⟩ => ⟨hbound, hc, hid⟩⟩
  refine ⟨fun hnobody => obey_of_not_owns hcommand fun t c h => hnobody t c (howns.1 h),
    fun t c howner => ?_⟩
  obtain ⟨l', hobey, hconfined⟩ := htaken.confined_obey hown hcommand (howns.2 howner)
  exact ⟨l', hobey, hconfined, fun t' c' hne hc' =>
    hconfined.undisturbed htaken.coherent howner.slot hc' hne⟩

/-- Connection 1 was put into the slot that connection 0 left, and connection 2 lives beside it.
Another request to close connection 0 does nothing, and one to close connection 1 leaves
connection 2 alone. -/
theorem Started.commands_confined_of_reused_slot :
    let l : Loop := { kernel := { plans := List.replicate 3 { connect := .ok } } }
    let l₁ := l.after [.request (.connect default {} {}), .turn, .request (.close 0),
      .request (.connect default {} {}), .request (.connect default {} {}), .turn]
    let late := l₁.after [.request (.close 0)]
    let own := l₁.after [.request (.close 1)]
    l.Started ∧ Concerns 0 (.close 0) ∧ Concerns 1 (.close 1) ∧
      Course (fun _ => True) ⟨l, [], []⟩ ⟨late, [], []⟩ ∧ late.channel = [.close 0] ∧
      (late.queue 0).token = (late.queue 1).token ∧
      { late with channel := [] }.obey (.close 0) = (.ok (), { late with channel := [] }) ∧
      Course (fun _ => True) ⟨l, [], []⟩ ⟨own, [], []⟩ ∧ own.channel = [.close 1] ∧
      ∃ c c' l', own.Owns 1 0 c ∧ own.connections.get? 1 = some c' ∧ c'.id = 2 ∧
        { own with channel := [] }.obey (.close 1) = (.ok (), l') ∧
        Confined 0 c { own with channel := [] } l' ∧
        Undisturbed 1 c' { own with channel := [] } l' := by
  intro l l₁ late own
  have hstarted : l.Started := ⟨{}, l.kernel, ⟨rfl, rfl, rfl⟩, rfl⟩
  have hl₁ : Course (fun _ => True) ⟨l, [], []⟩ ⟨l₁, [], []⟩ := course_after l _ fun _ _ => trivial
  have hlate : Course (fun _ => True) ⟨l, [], []⟩ ⟨late, [], []⟩ :=
    hl₁.trans (course_after l₁ _ fun _ _ => trivial)
  have hown : Course (fun _ => True) ⟨l, [], []⟩ ⟨own, [], []⟩ :=
    hl₁.trans (course_after l₁ _ fun _ _ => trivial)
  have hlateChannel : late.channel = [.close 0] := by decide +kernel
  have hownChannel : own.channel = [.close 1] := by decide +kernel
  have hbound : (late.queue 0).token = some 0 := by decide +kernel
  have hbound' : (late.queue 1).token = some 0 := by decide +kernel
  have hslot : (late.connections.get? 0).all fun c => c.id ≠ 0 := by decide +kernel
  have hself : (own.queue 1).token = some 0 := by decide +kernel
  have howner : (own.connections.get? 0).map (·.id) = some 1 := by decide +kernel
  have hother : (own.connections.get? 1).map (·.id) = some 2 := by decide +kernel
  clear_value late own
  have hnobody : ∀ t c, ¬ late.Owns 0 t c := by
    intro t c howns
    obtain rfl := Option.some.inj (howns.bound.symm.trans hbound)
    rw [howns.slot, Option.all_some, decide_eq_true_eq] at hslot
    exact hslot howns.id_eq
  obtain ⟨c, hc, hid⟩ := Option.map_eq_some_iff.1 howner
  obtain ⟨c', hc', hid'⟩ := Option.map_eq_some_iff.1 hother
  have ⟨hnothing, _⟩ := hstarted.commands_confined hlate hlateChannel .close
  have ⟨_, hconfined⟩ := hstarted.commands_confined hown hownChannel .close
  obtain ⟨l', hobey, hconfined, hundisturbed⟩ := hconfined 0 c ⟨hself, hc, hid⟩
  exact ⟨hstarted, .close, .close, hlate, hlateChannel, hbound.trans hbound'.symm, hnothing hnobody,
    hown, hownChannel, c, c', l', ⟨hself, hc, hid⟩, hc', hid', hobey, hconfined,
    hundisturbed 1 c' (by decide) hc'⟩

end TextLink.Loop
