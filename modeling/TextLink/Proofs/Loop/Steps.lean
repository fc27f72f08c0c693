import TextLink.Proofs.Loop.Soundness

/-!
# What the parts of a turn come to

In each part of a turn one connection acts, or none. The loop takes over what the connection has
become, does what is left to do about it, and logs a few facts; if the connection meets a fault,
only the first of these.

`Acts` and `Breaks` say what holds of a connection that acts in a sound loop. Each part of a turn
then has the list of what it can come to (`Attempts`, `Obeys`, `Retries`, `Handles`), and a property
of the loop is shown case by case over these lists. A requested connection is in no shape before its
first attempt, so attempts are described under weaker hypotheses than the rest.

## Main results

* `Sound.obeys`, `Sound.retries`, `Sound.handles`, `Sound.rearms` — what the parts of a turn come
  to.
-/

namespace TextLink.Loop

open Link (Leads)

variable {l l' : Loop} {t id : Nat} {c : Connection} {k : Link} {progress : Progress}

/-! ## Connections that act -/

/-- Connection `c` in slot `t` acts: it becomes `k`, and `progress` says what is left
to do about it. -/
structure Acts (l : Loop) (t : Nat) (c : Connection) (progress : Progress) (k : Link) : Prop where
  slot : l.connections.get? t = some c
  leads : Leads (l.link c) k
  settled : Settled c.retryAt progress k

/-- Connection `c` in slot `t` meets a fault, and is left as `k`. -/
structure Breaks (l : Loop) (t : Nat) (c : Connection) (k : Link) : Prop where
  slot : l.connections.get? t = some c
  leads : Leads (l.link c) k
  alive : k.conn.state.Alive

theorem Sound.acts_rearm (h : l.Sound) (hc : l.connections.get? t = some c) :
    Acts l t c .ongoing (l.link c).rearm.2 where
  slot := hc
  leads := (Link.Leaves.refl (h.coherent.lives hc).link).rearm
  settled := Link.settled_rearm (l := l.link c) (h.shape t c hc)

theorem Sound.acts_close (h : l.Sound) (hc : l.connections.get? t = some c) :
    Acts l t c .closed (l.link c).close where
  slot := hc
  leads := (Link.Leaves.refl (h.coherent.lives hc).link).close
  settled :=
    have hshape := h.shape t c hc
    Link.gone_close (l := l.link c) hshape.state_ne_closed hshape.consistent

/-! ## Attempts to connect -/

/-- What comes of an attempt to connect, by connection `c` in slot `t`. A retry that was due before
is due no more. -/
inductive Attempts (l : Loop) (t : Nat) (c : Connection) : Except Fault Unit × Loop → Prop where
  | made {progress : Progress} {k : Link} (hacts : Acts l t c progress k)
      (hsettled : Settled none progress k) (h : (l.link c).connect = (.ok progress, k)) :
      Attempts l t c (.ok (), (l.absorb t k).apply t progress)
  | broken {fault : Fault} {k : Link} (hbreaks : Breaks l t c k) :
      Attempts l t c (.error fault, l.absorb t k)

/-- A connection that is not closed attempts to connect; its socket is not registered. -/
theorem Coherent.attempts (h : l.Coherent) (hc : l.connections.get? t = some c)
    (hstate : c.state ≠ .closed) (hqueue : (l.queue c.id).state ≠ .closed)
    (hr : c.registered = none) : Attempts l t c (l.attempt t) := by
  have hleads := Link.leads_connect (h.lives hc).link hr
  unfold attempt
  simp only [hc]
  rcases hconnect : (l.link c).connect with ⟨fault | progress, k⟩ <;> rw [hconnect] at hleads
  · exact .broken ⟨hc, hleads, .inl (Link.state_of_connect_fault hconnect)⟩
  · have hsettled := Link.settled_connect (l := l.link c) hstate hqueue hr hconnect
    exact .made ⟨hc, hleads, hsettled.of_none c.retryAt⟩ hsettled hconnect

/-! ## Commands -/

theorem requestedIds_sublist (c : Command) (later : List Command) :
    (requestedIds later).Sublist (requestedIds (c :: later)) := by
  unfold requestedIds
  rw [List.filterMap_cons]
  split
  · exact List.Sublist.refl _
  · exact List.sublist_cons_self _ _

/-- The next command is taken. -/
theorem Coherent.take (h : l.Coherent) {command : Command} {later : List Command}
    (hchannel : l.channel = command :: later) : Coherent { l with channel := later } := by
  refine h.change rfl rfl (.refl _) ?_ fun hended => ?_
  · rw [hchannel]
    exact requestedIds_sublist command later
  · have hnil := (h.ended hended).2
    rw [hchannel] at hnil
    cases hnil

theorem Sound.take (h : l.Sound) {command : Command} {later : List Command}
    (hchannel : l.channel = command :: later) : Sound { l with channel := later } :=
  ⟨h.coherent.take hchannel, h.shape⟩

/-- A requested connection that gets a slot is the only one that may be out of shape. -/
theorem Sound.enrol (h : l.Sound) (hid : l.Unowned id) (hawaits : l.Awaits id)
    {make : Nat → Connection} (hmake : Newborn id make) (hnot : id ∉ requestedIds l.channel)
    (hended : l.ended = false) :
    SoundExcept (l.connections.insertWith make).1 (l.enrol id make) := by
  constructor
  · exact h.coherent.enrol hid hawaits hmake hnot hended
  · intro t' c' hne hc'
    rcases slot_enrol h.coherent.table hc' with ⟨ht, _⟩ | ⟨_, hc'⟩
    · exact absurd ht hne
    · rw [queue_enrol_other hawaits.id_lt hid make hc']
      exact h.shape t' c' hc'

/-- The connection to be made for a request. -/
abbrev requested (id : Nat) (address : Address) (handler : Handler) (options : ConnectOptions)
    (token : Nat) : Connection :=
  .ofRequest id token address handler options

theorem newborn_requested (id : Nat) (address : Address) (handler : Handler)
    (options : ConnectOptions) : Newborn id (requested id address handler options) :=
  ⟨fun _ => rfl, fun _ => rfl, fun _ => rfl, fun _ => rfl, fun _ => rfl⟩

/-- The connection requested first has no slot, and nothing was done about it. -/
theorem Coherent.awaits (h : l.Coherent) {later : List Command} {address : Address}
    {handler : Handler} {options : ConnectOptions}
    (hchannel : l.channel = .connect id address handler options :: later) :
    l.Unowned id ∧ l.Awaits id ∧ id ∉ requestedIds later ∧ l.ended = false := by
  have hids : requestedIds l.channel = id :: requestedIds later := by
    rw [hchannel]
    rfl
  have hmem : id ∈ requestedIds l.channel := by
    rw [hids]
    exact List.mem_cons_self
  have hnodup := h.requested_nodup
  rw [hids, List.nodup_cons] at hnodup
  refine ⟨h.unowned_of_requested hmem, h.requested id hmem, hnodup.1, ?_⟩
  rw [← Bool.not_eq_true]
  intro hended
  have hnil := (h.ended hended).2
  rw [hchannel] at hnil
  cases hnil

/-- A connection that was requested gets a slot, before connecting is attempted. -/
theorem Sound.enrol_requested (h : l.Sound) {later : List Command} {address : Address}
    {handler : Handler} {options : ConnectOptions}
    (hchannel : l.channel = .connect id address handler options :: later) :
    SoundExcept (l.connections.insertWith (requested id address handler options)).1
      (Loop.enrol { l with channel := later } id (requested id address handler options)) := by
  have ⟨hunowned, ⟨hlt, hstate, htoken⟩, hnot, hended⟩ := h.coherent.awaits hchannel
  exact (h.take hchannel).enrol hunowned ⟨hlt, hstate, htoken⟩ (newborn_requested id _ _ _) hnot
    hended

/-- What comes of a command that `l` has taken. -/
inductive Obeys (l : Loop) : Command → Except Fault Unit × Loop → Prop where
  /-- The connection gets a slot, and attempts to connect. -/
  | connect {id : Nat} {address : Address} {handler : Handler} {options : ConnectOptions}
      {r : Except Fault Unit × Loop}
      (h : Attempts (l.enrol id (requested id address handler options))
        (l.connections.insertWith (requested id address handler options)).1
        (requested id address handler options
          (l.connections.insertWith (requested id address handler options)).1) r) :
      Obeys l (.connect id address handler options) r
  /-- There can be no buffer for it. -/
  | refused {id : Nat} {address : Address} {handler : Handler} {options : ConnectOptions} :
      Obeys l (.connect id address handler options) (.error .memory, l)
  | flush {id t : Nat} {c : Connection} (hid : c.id = id)
      (hacts : Acts l t c .ongoing (l.link c).rearm.2) (rs : List LogRecord) :
      Obeys l (.flush id) (.ok (), (l.absorb t (l.link c).rearm.2).note rs)
  /-- Nobody has that number. -/
  | flushNobody {id : Nat} (h : l.Unowned id) : Obeys l (.flush id) (.ok (), l)
  | close {id t : Nat} {c : Connection} (hid : c.id = id)
      (hacts : Acts l t c .closed (l.link c).close) :
      Obeys l (.close id) (.ok (), (l.absorb t (l.link c).close).apply t .closed)
  | closeNobody {id : Nat} (h : l.Unowned id) : Obeys l (.close id) (.ok (), l)
  | shutdown : Obeys l .shutdown (.ok (), l)

theorem Sound.obeys (h : l.Sound) {command : Command} {later : List Command}
    (hchannel : l.channel = command :: later) :
    Obeys { l with channel := later } command ({ l with channel := later }.obey command) := by
  have htaken := h.take hchannel
  cases command with
  | connect id address handler options =>
      have ⟨_, hawaits, _, _⟩ := h.coherent.awaits hchannel
      have hslot := get?_enrol_self (l := { l with channel := later }) h.coherent.table id
        (requested id address handler options)
      show Obeys _ _ (takeUp _ id address handler options)
      unfold takeUp
      split
      · refine .connect ((h.enrol_requested hchannel).coherent.attempts hslot nofun ?_ rfl)
        intro hclosed
        have hqueue := state_queue_enrol (l := { l with channel := later }) hawaits.id_lt
          (requested id address handler options)
        cases (hqueue.trans hawaits.state).symm.trans hclosed
      · exact .refused
  | flush id =>
      show Obeys _ _ (.ok (), rearmFor _ id)
      unfold rearmFor
      rcases hfind : find? { l with channel := later } id with _ | ⟨t, c⟩
      · exact .flushNobody (htaken.coherent.unowned_of_find?_eq_none hfind)
      · exact .flush (id_of_find?_eq_some hfind)
          (htaken.acts_rearm (Coherent.get?_of_find? hfind)) _
  | close id =>
      show Obeys _ _ (.ok (), closeFor _ id)
      unfold closeFor
      rcases hfind : find? { l with channel := later } id with _ | ⟨t, c⟩
      · exact .closeNobody (htaken.coherent.unowned_of_find?_eq_none hfind)
      · exact .close (id_of_find?_eq_some hfind)
          (htaken.acts_close (Coherent.get?_of_find? hfind))
  | shutdown => exact .shutdown

/-! ## Retries -/

/-- What comes of a retry that was due. -/
inductive Retries (l : Loop) (due : Appointment) : Except Fault Unit × Loop → Prop where
  | attempt {c : Connection} {r : Except Fault Unit × Loop}
      (hdue : c.retryAt = some due.deadline) (h : Attempts l due.token c r) : Retries l due r
  /-- Nobody waits for it any more. -/
  | outdated (h : ∀ c, l.connections.get? due.token = some c → c.retryAt ≠ some due.deadline) :
      Retries l due (.ok (), l)

theorem Sound.retries (h : l.Sound) (due : Appointment) : Retries l due (l.retry due) := by
  unfold Loop.retry
  rcases hc : l.connections.get? due.token with _ | c
  · exact .outdated fun c hc' => by cases hc.symm.trans hc'
  · by_cases hdue : c.retryAt = some due.deadline
    · simp only [if_pos hdue]
      -- Only a connection that waits has a retry due.
      cases h.shape due.token c hc with
      | connected _ _ _ _ hretry _ _ | inFlight _ _ _ hretry _ _ => cases hretry.symm.trans hdue
      | waiting hstate _ hr _ _ hqueue =>
          refine .attempt hdue (h.coherent.attempts hc ?_ ?_ hr)
          · rw [hstate]
            decide
          · rw [hqueue]
            decide
    · simp only [if_neg hdue]
      refine .outdated fun c' hc' => ?_
      cases hc.symm.trans hc'
      exact hdue

/-! ## Events -/

/-- What comes of an event. -/
inductive Handles (l : Loop) (event : Event) : Except Fault Unit × Loop → Prop where
  | nobody (h : l.connections.get? event.token = none) : Handles l event (.ok (), l)
  | served {c : Connection} {progress : Progress} {k : Link}
      (hacts : Acts l event.token c progress k)
      (h : (l.link c).handleEvent event = (.ok progress, k)) :
      Handles l event (.ok (), (l.absorb event.token k).apply event.token progress)
  /-- A call failed, so the rest is skipped; no retry is put off. -/
  | skipped {c : Connection} {e : IoError} {k : Link} (hacts : Acts l event.token c .ongoing k)
      (h : (l.link c).handleEvent event = (.error (.failed e), k)) (rs : List LogRecord) :
      Handles l event (.ok (), (l.absorb event.token k).note rs)
  | broken {c : Connection} {fault : Fault} {k : Link} (hbreaks : Breaks l event.token c k) :
      Handles l event (.error fault, l.absorb event.token k)

theorem Sound.handles (h : l.Sound) (event : Event) : Handles l event (l.handle event) := by
  unfold Loop.handle
  rcases hc : l.connections.get? event.token with _ | c
  · exact .nobody hc
  · have hleads := Link.leads_handleEvent (h.coherent.lives hc).link event
    have hsettled := Link.settled_handleEvent (l := l.link c) (h.shape event.token c hc) event
    simp only
    rcases hr : (l.link c).handleEvent event with ⟨(e | fault) | progress, k⟩ <;>
      rw [hr] at hleads hsettled
    · exact .skipped ⟨hc, hleads, hsettled.1, .inr hsettled.2⟩ hr _
    · exact .broken ⟨hc, hleads, Link.alive_of_handleEvent_fault hr⟩
    · exact .served ⟨hc, hleads, hsettled⟩ hr

/-! ## Registrations -/

/-- The registration of the connection in slot `t` is looked after, if there is one. -/
theorem Sound.rearms (h : l.Sound) (t : Nat) : l.rearmSlot t = l ∨
    ∃ c rs, Acts l t c .ongoing (l.link c).rearm.2 ∧
      l.rearmSlot t = (l.absorb t (l.link c).rearm.2).note rs := by
  unfold rearmSlot
  rcases hc : l.connections.get? t with _ | c
  · exact .inl rfl
  · exact .inr ⟨c, _, h.acts_rearm hc, rfl⟩

end TextLink.Loop
