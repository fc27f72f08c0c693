import TextLink.Proofs.Loop.Isolation
import TextLink.Proofs.Loop.Lasting

/-!
# How one connection fares

Between two scenes of a run a connection in the table fares in one of a few ways (`Fares`): it is
left alone, or watched for what it needs, or closed by a command; its retry is made, or an event is
handled under its token; or the loop is over. A connection that is requested waits, or is taken up,
or the loop is over (`Bides`). A statement about what can become of a connection is shown case by
case over these lists, and what others do in the meantime need not be looked at again.

## Main results

* `Coherent.fares`, `Next.bides` — every connection fares in one of these ways.
* `Next.stems` — nothing else puts a connection into the table.
* `get?_settleAttempt` — the slots after an attempt, as `get?_settleEvent` says it of events.
-/

namespace TextLink.Loop

open Link (Occasion)

variable {allowed : Happening → Prop} {may : Occasion → Loop → Nat → Prop} {base l l' : Loop}
  {t t' id : Nat} {c : Connection} {due : Appointment} {r : Except Fault Progress × Link}

/-! ## Slots after an attempt -/

theorem attempt_of_slot (hc : l.connections.get? t = some c) :
    l.attempt t = l.settleAttempt t (l.link c).connect := by
  rw [attempt, hc]

/-- A retry that is waited for is an attempt. -/
theorem retry_of_due (hc : l.connections.get? due.token = some c)
    (hdue : c.retryAt = some due.deadline) :
    l.retry due = l.settleAttempt due.token (l.link c).connect := by
  rw [retry, hc, ← attempt_of_slot hc]
  exact if_pos hdue

/-- A retry that nobody waits for is none. -/
theorem retry_of_outdated
    (h : ∀ c, l.connections.get? due.token = some c → c.retryAt ≠ some due.deadline) :
    l.retry due = (.ok (), l) := by
  rw [retry]
  rcases hc : l.connections.get? due.token with _ | c
  · rfl
  · exact if_neg (h c hc)

theorem get?_settleAttempt (hc : l.connections.get? t = some c) (t' : Nat) :
    (l.settleAttempt t r).2.connections.get? t' =
      if t' = t then (if r.1 = .ok .closed then none else some r.2.conn)
      else l.connections.get? t' := by
  -- What is left to do about an attempt is what is left to do about an event that went as well.
  rcases r with ⟨fault | progress, k⟩
  · exact get?_settleEvent (r := (.error (.fault fault), k)) hc t'
  · have hevent := get?_settleEvent (r := (.ok progress, k)) hc t'
    simp only [settleEvent, Except.ok.injEq] at hevent
    simpa only [settleAttempt, Except.ok.injEq] using hevent

theorem kernel_settleAttempt : (l.settleAttempt t r).2.kernel = r.2.kernel := by
  rcases r with ⟨fault | (_ | _ | _), k⟩ <;> rfl

/-! ## The parts of a turn -/

/-- Having a connection watched leaves the other slots. -/
theorem get?_rearmSlot (t : Nat) : (l.rearmSlot t).connections.get? t' =
    if t' = t then (l.connections.get? t).map fun c => (l.link c).rearm.2.conn
    else l.connections.get? t' := by
  rcases hc : l.connections.get? t with _ | c <;> rw [rearmSlot, hc]
  · by_cases ht : t' = t
    · exact (ht ▸ hc).trans (if_pos ht).symm
    · exact (if_neg ht).symm
  · exact get?_absorb hc

/-- How connection `c` in slot `t` fares between two scenes. -/
inductive Fares (t : Nat) (c : Connection) : Scene → Scene → Prop where
  /-- Nothing happens to it. -/
  | rests {m m' : Scene} (hslot : m'.loop.connections.get? t = some c) : Fares t c m m'
  /-- It is watched for what it needs now. -/
  | watched {m m' : Scene}
      (hslot : m'.loop.connections.get? t = some (m.loop.link c).rearm.2.conn) : Fares t c m m'
  | closed {l l' : Loop} {later : List Command} (hchannel : l.channel = .close c.id :: later)
      (hobey : { l with channel := later }.obey (.close c.id) = (.ok (), l'))
      (hslot : l'.connections.get? t = none) : Fares t c ⟨l, [], []⟩ ⟨l', [], []⟩
  | retried {l l' : Loop} {due : Appointment} {later : List Appointment} (htoken : due.token = t)
      (hdue : c.retryAt = some due.deadline) (hretry : l.retry due = (.ok (), l')) :
      Fares t c ⟨l, due :: later, []⟩ ⟨l', later, []⟩
  | handled {l l' : Loop} {event : Event} {later : List Event} (htoken : event.token = t)
      (hhandle : l.handle event = (.ok (), l')) : Fares t c ⟨l, [], event :: later⟩ ⟨l', [], later⟩
  /-- The loop is over, and everything with it. -/
  | ended {m m' : Scene} (hended : m'.loop.ended = true) : Fares t c m m'

theorem takeUp_of_feasible {options : ConnectOptions} (h : options.areFeasible = true) (id : Nat)
    (address : Address) (handler : Handler) : l.takeUp id address handler options =
      (l.enrol id (requested id address handler options)).attempt
        (l.connections.insertWith (requested id address handler options)).1 :=
  if_pos h

theorem feasible_of_takeUp {options : ConnectOptions} {address : Address} {handler : Handler}
    (h : l.takeUp id address handler options = (.ok (), l')) : options.areFeasible = true := by
  by_contra hnot
  rw [takeUp, if_neg hnot] at h
  cases h

/-- A request that is taken up gets a slot of its own. -/
theorem get?_takeUp (h : l.connections.Sound) (hc : l.connections.get? t = some c) (id : Nat)
    (address : Address) (handler : Handler) (options : ConnectOptions) :
    (l.takeUp id address handler options).2.connections.get? t = some c := by
  by_cases hfeasible : options.areFeasible = true
  · have hslot := get?_enrol_self h id (requested id address handler options)
    have hkept : (l.enrol id (requested id address handler options)).connections.get? t = some c :=
      get?_enrol_other h hc
    have hne : t ≠ (l.connections.insertWith (requested id address handler options)).1 := by
      intro heq
      rw [heq, (SlotTable.get?_insertWith h _).1] at hc
      cases hc
    rw [takeUp_of_feasible hfeasible, attempt_of_slot hslot, get?_settleAttempt hslot, if_neg hne,
      hkept]
  · rw [takeUp, if_neg hfeasible]
    exact hc

/-- A command to close closes the connection with that number, and no other one. -/
theorem Coherent.get?_closeFor (h : l.Coherent) (hc : l.connections.get? t = some c) (id : Nat) :
    (l.closeFor id).connections.get? t = if c.id = id then none else some c := by
  by_cases hid : c.id = id
  · subst hid
    have hclosed := get?_settleAttempt (r := (.ok .closed, (l.link c).close)) hc t
    simp only [if_true] at hclosed
    rw [closeFor, h.find?_eq hc, if_pos rfl]
    exact hclosed
  · rw [if_neg hid, closeFor]
    rcases hfind : l.find? id with _ | ⟨u, c'⟩
    · exact hc
    · have hc' := Coherent.get?_of_find? hfind
      have hne : t ≠ u := by
        rintro rfl
        cases hc.symm.trans hc'
        exact hid (id_of_find?_eq_some hfind)
      have hother := get?_settleAttempt (r := (.ok .closed, (l.link c').close)) hc' t
      rw [if_neg hne, hc] at hother
      exact hother

theorem Coherent.fares_obey (h : l.Coherent) (hc : l.connections.get? t = some c)
    {command : Command} {later : List Command} (hchannel : l.channel = command :: later)
    (hobey : { l with channel := later }.obey command = (.ok (), l')) :
    Fares t c ⟨l, [], []⟩ ⟨l', [], []⟩ := by
  have heq : l' = ({ l with channel := later }.obey command).2 := by rw [hobey]
  cases command with
  | connect id address handler options =>
      refine .rests ?_
      rw [heq]
      exact get?_takeUp (l := { l with channel := later }) h.table hc id address handler options
  | flush id =>
      have hflush : l' = Loop.rearmFor { l with channel := later } id := heq
      rw [rearmFor] at hflush
      rcases hfind : find? { l with channel := later } id with _ | ⟨u, c'⟩ <;> rw [hfind] at hflush
      · exact .rests (hflush ▸ hc)
      · have hc' : l.connections.get? u = some c' :=
          Coherent.get?_of_find? (l := { l with channel := later }) hfind
        have hslot : l'.connections.get? t =
            if t = u then some (l.link c').rearm.2.conn else l.connections.get? t :=
          hflush ▸ get?_absorb hc'
        by_cases ht : t = u
        · subst ht
          cases hc.symm.trans hc'
          exact .watched (hslot.trans (if_pos rfl))
        · exact .rests (hslot.trans ((if_neg ht).trans hc))
  | close id =>
      have hslot : l'.connections.get? t = if c.id = id then none else some c := by
        rw [heq]
        exact Coherent.get?_closeFor (l := { l with channel := later }) (h.take hchannel) hc id
      by_cases hid : c.id = id
      · subst hid
        exact .closed hchannel hobey (hslot.trans (if_pos rfl))
      · exact .rests (hslot.trans (if_neg hid))
  | shutdown =>
      cases hobey
      exact .rests hc

/-- Whatever comes next, a connection fares in one of these ways. -/
theorem Coherent.fares {m m' : Scene} (h : m.loop.Coherent) (hnext : Next allowed m m')
    (hc : m.loop.connections.get? t = some c) : Fares t c m m' := by
  cases hnext with
  | request l r _ _ =>
      refine .rests ?_
      rw [(sameSlots_request l r).1]
      exact hc
  | happen | takeDue | beginWait | pass | answer | note => exact .rests hc
  | obey hchannel hobey => exact h.fares_obey hc hchannel hobey
  | @retry l l' due later hretry =>
      by_cases hdue : due.token = t ∧ c.retryAt = some due.deadline
      · exact .retried hdue.1 hdue.2 hretry
      · refine .rests ?_
        have heq : l' = (l.retry due).2 := by rw [hretry]
        show l'.connections.get? t = _
        rcases Classical.em (∃ c', l.connections.get? due.token = some c' ∧
            c'.retryAt = some due.deadline) with ⟨c', hc', hdue'⟩ | hnobody
        · have hne : t ≠ due.token := by
            rintro rfl
            cases hc.symm.trans hc'
            exact hdue ⟨rfl, hdue'⟩
          rw [heq, retry_of_due hc' hdue', get?_settleAttempt hc', if_neg hne]
          exact hc
        · rw [heq, retry_of_outdated fun c' hc' hdue' => hnobody ⟨c', hc', hdue'⟩]
          exact hc
  | rearm l u =>
      have hslot : (l.rearmSlot u).connections.get? t = _ := get?_rearmSlot u
      by_cases ht : t = u
      · subst ht
        rw [if_pos rfl, show l.connections.get? t = some c from hc] at hslot
        exact .watched hslot
      · exact .rests (hslot.trans ((if_neg ht).trans hc))
  | @handle l l' event later hhandle =>
      by_cases ht : event.token = t
      · exact .handled ht hhandle
      · refine .rests ?_
        have heq : l' = (l.handle event).2 := by rw [hhandle]
        show l'.connections.get? t = _
        rcases hc' : l.connections.get? event.token with _ | c'
        · rw [heq, handle_of_vacant hc']
          exact hc
        · rw [heq, handle_of_slot hc', get?_settleEvent hc', if_neg (Ne.symm ht)]
          exact hc
  | obeyFault | retryFault | handleFault | drop => exact .ended (ended_drop _)
  | finish => exact .ended rfl

/-! ## Requested connections -/

/-- How connection number `id` fares between two scenes when it was requested and is still
to be taken up. -/
inductive Bides (id : Nat) : Scene → Scene → Prop where
  | waits {m m' : Scene} (hrequested : id ∈ requestedIds m'.loop.channel) : Bides id m m'
  | taken {l l' : Loop} {address : Address} {handler : Handler} {options : ConnectOptions}
      {later : List Command} (hchannel : l.channel = .connect id address handler options :: later)
      (hfeasible : options.areFeasible = true)
      (hobey :
        { l with channel := later }.obey (.connect id address handler options) = (.ok (), l')) :
      Bides id ⟨l, [], []⟩ ⟨l', [], []⟩
  | ended {m m' : Scene} (hended : m'.loop.ended = true) : Bides id m m'

/-- Producers put commands behind those that wait. -/
theorem channel_request (l : Loop) (r : Request) : l.channel <+: (l.request r).2.channel := by
  have hasked := asked l r
  generalize (l.request r).2 = l' at hasked ⊢
  cases hasked with
  | refused | offered | stranded => exact List.prefix_refl _
  | told | joined | armed => exact List.prefix_append _ _

/-- Whatever comes next, a requested connection fares in one of these ways. -/
theorem Next.bides {m m' : Scene} (hnext : Next allowed m m')
    (hid : id ∈ requestedIds m.loop.channel) : Bides id m m' := by
  cases hnext with
  | request l r _ _ => exact .waits (((channel_request l r).sublist.filterMap _).subset hid)
  | happen | takeDue | beginWait | pass | answer | note => exact .waits hid
  | @obey l l' command later hchannel hobey =>
      have hkept := (keeps_obey { l with channel := later } command).channel_eq
      rw [hobey] at hkept
      by_cases hmem : id ∈ requestedIds later
      · exact .waits (show id ∈ requestedIds l'.channel from hkept ▸ hmem)
      · have hid : id ∈ requestedIds (command :: later) := hchannel ▸ hid
        cases command with
        | connect id' address handler options =>
            obtain rfl : id = id' := (List.mem_cons.1 hid).resolve_right hmem
            exact .taken hchannel (feasible_of_takeUp hobey) hobey
        | flush | close | shutdown => exact absurd hid hmem
  | @retry l l' due later hretry =>
      have hkept := (keeps_retry l due).channel_eq
      rw [hretry] at hkept
      exact .waits (show id ∈ requestedIds l'.channel from hkept ▸ hid)
  | rearm l u => exact .waits (show id ∈ requestedIds _ from (keeps_rearmSlot l u).channel_eq ▸ hid)
  | @handle l l' event later hhandle =>
      have hkept := (keeps_handle l event).channel_eq
      rw [hhandle] at hkept
      exact .waits (show id ∈ requestedIds l'.channel from hkept ▸ hid)
  | obeyFault | retryFault | handleFault | drop => exact .ended (ended_drop _)
  | finish => exact .ended rfl

/-! ## Where connections come from -/

theorem Stroke.requestedIds_sublist (h : Stroke may l l') :
    (requestedIds l'.channel).Sublist (requestedIds l.channel) := by
  cases h with
  | act | remove | appoint | note => exact List.Sublist.refl _
  | enrol hchannel | skip hchannel =>
      rw [hchannel]
      exact Loop.requestedIds_sublist _ _
  | refuse command => rw [channel_refuse]
  | clear => exact List.nil_sublist _

theorem Strokes.requestedIds_sublist (h : Strokes may l l') :
    (requestedIds l'.channel).Sublist (requestedIds l.channel) := by
  induction h with
  | refl => exact List.Sublist.refl _
  | tail _ hstroke ih => exact hstroke.requestedIds_sublist.trans ih

/-- A connection that was requested before is not requested again. -/
theorem Next.requested_of_lt {m m' : Scene} (h : Next allowed m m') (hl : m.loop.Sound)
    (hlt : id < m.loop.queues.length) (hid : id ∈ requestedIds m'.loop.channel) :
    id ∈ requestedIds m.loop.channel := by
  have hadvance : Advance allowed (fun _ _ _ => True) m.loop m'.loop :=
    h.advances hl (fun _ _ _ _ => trivial) fun _ _ _ _ _ => trivial
  rcases hadvance.asks_or_strokes with ⟨hasks, _⟩ | hstrokes
  · obtain ⟨command, hmem, hsome⟩ := List.mem_filterMap.1 hid
    cases command with
    | connect id' address handler options =>
        obtain rfl : id' = id := Option.some.inj hsome
        rcases hasks.requested id' address handler options hmem with hmem | ⟨hle, _, _⟩
        · exact List.mem_filterMap.2 ⟨_, hmem, rfl⟩
        · exact absurd hlt (Nat.not_lt.2 hle)
    | flush | close | shutdown => cases hsome
  · exact hstrokes.requestedIds_sublist.subset hid

/-- A connection in the table was there, in the same slot, or was requested. -/
theorem Strokes.stems (h : Strokes may base l) (hbase : base.Coherent)
    (hc : l.connections.get? t = some c) :
    (∃ c₀, base.connections.get? t = some c₀ ∧ c₀.id = c.id) ∨
      c.id ∈ requestedIds base.channel := by
  induction h generalizing c with
  | refl => exact .inl ⟨c, hc, rfl⟩
  | @tail l l' hbefore hstroke ih =>
      have hl := Strokes.coherent hbefore hbase
      have hrequested := Strokes.requestedIds_sublist hbefore
      cases hstroke with
      | act hslot hk _ _ =>
          rcases slot_absorb hslot hc with ⟨rfl, rfl⟩ | ⟨_, hc⟩
          · rw [id_eq (hl.leads hslot hk)]
            exact ih hslot
          · exact ih hc
      | remove => exact ih (slot_remove hc).2
      | @enrol id _ _ _ later hchannel =>
          rcases slot_enrol (l := { l with channel := later }) hl.table hc with ⟨_, rfl⟩ | ⟨_, hc⟩
          · refine .inr (hrequested.subset ?_)
            rw [hchannel]
            exact List.mem_cons_self
          · exact ih hc
      | refuse command _ _ =>
          rw [connections_refuse] at hc
          exact ih hc
      | skip | appoint | note | clear => exact ih hc

/-- Nothing but a request puts a connection into the table. -/
theorem Next.stems {m m' : Scene} (h : Next allowed m m') (hl : m.loop.Sound)
    (hc : m'.loop.connections.get? t = some c) :
    (∃ c₀, m.loop.connections.get? t = some c₀ ∧ c₀.id = c.id) ∨
      c.id ∈ requestedIds m.loop.channel := by
  have hadvance : Advance allowed (fun _ _ _ => True) m.loop m'.loop :=
    h.advances hl (fun _ _ _ _ => trivial) fun _ _ _ _ _ => trivial
  rcases hadvance.asks_or_strokes with ⟨hasks, _⟩ | hstrokes
  · exact .inl ⟨c, hasks.connections_eq ▸ hc, rfl⟩
  · exact hstrokes.stems hl.coherent hc

/-- A slot is not given to another connection while it is taken. -/
theorem Next.id_eq_of_slot {m m' : Scene} {c' : Connection} (h : Next allowed m m')
    (hl : m.loop.Sound)
    (hc : m.loop.connections.get? t = some c) (hc' : m'.loop.connections.get? t = some c') :
    c'.id = c.id := by
  rcases h.stems hl hc' with ⟨c₀, hc₀, hid⟩ | hrequested
  · cases hc.symm.trans hc₀
    exact hid.symm
  · have hl' := (hl.next h).coherent
    cases h.bides hrequested with
    | waits hwaits => exact absurd rfl (hl'.unowned_of_requested hwaits t c' hc')
    | @taken l l' address handler options later hchannel _ hobey =>
        have hkept := get?_takeUp (l := { l with channel := later }) hl.coherent.table hc
          c'.id address handler options
        have heq : l' = (Loop.takeUp { l with channel := later } c'.id address handler options).2 :=
          congrArg Prod.snd hobey.symm
        rw [← heq] at hkept
        cases hkept.symm.trans hc'
        rfl
    | ended hended => cases ((hl'.ended hended).1 t).symm.trans hc'

end TextLink.Loop
