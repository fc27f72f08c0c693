import TextLink.Proofs.Agenda
import TextLink.Proofs.Loop.Lasting
import TextLink.Proofs.Loop.Preservation

/-!
# No connection is stuck

Something is always under way for a connection in the table. Either it is established and watched
for reading, or a connect is in flight and its end is watched for, or a retry is due at a moment
that the agenda knows of. These are its stances (`Stance`), and it is in exactly one of them.

What its record and its queue say in each follows from its shape. What is left is the agenda: a
connection that waits for a retry must have an appointment there. While retries are fired, those due
are out of the agenda and still to be looked at, so an appointment counts wherever it is
(`Moment.Expects`). An attempt that fails makes a new appointment, and an outdated one is dropped
only when no connection waits for it.

## Main results

* `Scheduled.move` — every move keeps the appointments of those who wait.
* `Started.existsUnique_stance` — every connection is in exactly one stance.
-/

namespace TextLink

/-- An appointment is in the agenda, or out of it and still to be looked at. -/
def Moment.Expects (m : Moment) (a : Appointment) : Prop :=
  a ∈ m.loop.agenda.toList ∨ a ∈ m.due

/-- Whoever waits for a retry has an appointment. -/
def Moment.Scheduled (m : Moment) : Prop :=
  ∀ t c d, m.loop.connections.get? t = some c → c.retryAt = some d → m.Expects ⟨d, t⟩

namespace Loop

variable {l l' : Loop} {t id : Nat} {c : Connection} {k : Link} {progress : Progress}
  {later : List Appointment}

/-! ## What becomes of a connection -/

/-- Whoever waits for a retry has an appointment, except in slot `t`. -/
def ScheduledExcept (t : Nat) (m : Moment) : Prop :=
  ∀ t' c d, t' ≠ t → m.loop.connections.get? t' = some c → c.retryAt = some d → m.Expects ⟨d, t'⟩

theorem scheduledExcept (h : Moment.Scheduled ⟨l, later⟩) (t : Nat) :
    ScheduledExcept t ⟨l, later⟩ :=
  fun t' c d _ hc hd => h t' c d hc hd

namespace ScheduledExcept

/-- A connection that has an appointment after it has acted, or waits for none. -/
theorem absorb (h : ScheduledExcept t ⟨l, later⟩) (hc : l.connections.get? t = some c)
    (hk : ∀ d, k.conn.retryAt = some d → Moment.Expects ⟨l, later⟩ ⟨d, t⟩) :
    Moment.Scheduled ⟨l.absorb t k, later⟩ := by
  intro t' c' d hc' hd
  rcases slot_absorb hc hc' with ⟨rfl, rfl⟩ | ⟨hne, hc'⟩
  · exact hk d hd
  · exact h t' c' d hne hc' hd

/-- A connection that has settled waits for its old appointment, for a new one, or for none. -/
theorem settle (h : ScheduledExcept t ⟨l, later⟩) (hc : l.connections.get? t = some c)
    {due : Option Instant} {progress : Progress} (hs : Settled due progress k)
    (hdue : ∀ d, due = some d → Moment.Expects ⟨l, later⟩ ⟨d, t⟩) :
    Moment.Scheduled ⟨(l.absorb t k).apply t progress, later⟩ := by
  cases progress with
  | ongoing =>
      refine h.absorb hc ?_
      intro d hd
      rcases hs.2 with hnone | hsame
      · cases hnone.symm.trans hd
      · exact hdue d (hsame.symm.trans hd)
  | retry deadline =>
      intro t' c' d hc' hd
      rcases slot_absorb hc hc' with ⟨rfl, rfl⟩ | ⟨hne, hc'⟩
      · cases hs.2.symm.trans hd
        exact .inl (Agenda.mem_push.2 (.inl rfl))
      · exact (h t' c' d hne hc' hd).imp_left fun hmem => Agenda.mem_push.2 (.inr hmem)
  | closed =>
      intro t' c' d hc' hd
      have ⟨hne, hc'⟩ := slot_remove hc'
      rcases slot_absorb hc hc' with ⟨ht, _⟩ | ⟨_, hc'⟩
      · exact absurd ht hne
      · exact h t' c' d hne hc' hd

/-- An attempt to connect, after which no older retry is due. -/
theorem attempts (h : ScheduledExcept t ⟨l, later⟩) (hattempts : Attempts l t c (.ok (), l')) :
    Moment.Scheduled ⟨l', later⟩ := by
  cases hattempts with
  | made hacts hsettled _ => exact h.settle hacts.slot hsettled nofun

end ScheduledExcept

/-! ## Moves -/

theorem Vacant.scheduled (h : l.Vacant) : Moment.Scheduled ⟨l, later⟩ := by
  intro t c d hc _
  rw [h t] at hc
  cases hc

/-- A change of neither the connections nor the agenda. -/
theorem scheduled_of_change (h : Moment.Scheduled ⟨l, later⟩)
    (hconnections : l'.connections = l.connections) (hagenda : l'.agenda = l.agenda) :
    Moment.Scheduled ⟨l', later⟩ := by
  intro t c d hc hd
  show _ ∈ l'.agenda.toList ∨ _ ∈ later
  rw [hagenda]
  exact h t c d (hconnections ▸ hc) hd

/-- A connection that acts waits for its old appointment, for a new one, or for none. -/
theorem scheduled_acts (h : Moment.Scheduled ⟨l, later⟩) (hacts : Acts l t c progress k) :
    Moment.Scheduled ⟨(l.absorb t k).apply t progress, later⟩ :=
  (scheduledExcept h t).settle hacts.slot hacts.settled fun d hd => h t c d hacts.slot hd

theorem scheduled_obey (h : Moment.Scheduled ⟨l, later⟩) (hl : l.Sound) {command : Command}
    {commands : List Command} (hchannel : l.channel = command :: commands)
    (hok : { l with channel := commands }.obey command = (.ok (), l')) :
    Moment.Scheduled ⟨l', later⟩ := by
  have h' : Moment.Scheduled ⟨{ l with channel := commands }, later⟩ :=
    scheduled_of_change h rfl rfl
  have hobeys := hl.obeys hchannel
  rw [hok] at hobeys
  cases hobeys with
  | connect hattempts =>
      refine ScheduledExcept.attempts (fun t' c' d hne hc' hd => ?_) hattempts
      rcases slot_enrol (l := { l with channel := commands }) hl.coherent.table hc' with
        ⟨ht, _⟩ | ⟨_, hc'⟩
      · exact absurd ht hne
      · exact h t' c' d hc' hd
  | flush _ hacts rs => exact scheduled_of_change (scheduled_acts h' hacts) rfl rfl
  | close _ hacts => exact scheduled_acts h' hacts
  | flushNobody _ | closeNobody _ | shutdown => exact h'

/-- An appointment is looked at. If somebody waits for it, another attempt is made. -/
theorem scheduled_retry {due : Appointment} (h : Moment.Scheduled ⟨l, due :: later⟩) (hl : l.Sound)
    (hok : l.retry due = (.ok (), l')) : Moment.Scheduled ⟨l', later⟩ := by
  -- Whoever waits for another appointment keeps it.
  have hother {t : Nat} {c : Connection} {d : Instant} (hc : l.connections.get? t = some c)
      (hd : c.retryAt = some d) (hne : Appointment.mk d t ≠ due) :
      Moment.Expects ⟨l, later⟩ ⟨d, t⟩ :=
    (h t c d hc hd).imp_right fun hmem => (List.mem_cons.1 hmem).resolve_left hne
  have hretries := hl.retries due
  rw [hok] at hretries
  cases hretries with
  | attempt _ hattempts =>
      refine ScheduledExcept.attempts (fun t' c' d hne hc' hd => ?_) hattempts
      refine hother hc' hd fun heq => ?_
      cases heq
      exact hne rfl
  | outdated hno =>
      intro t' c' d hc' hd
      refine hother hc' hd fun heq => ?_
      cases heq
      exact hno c' hc' hd

theorem scheduled_handle (h : Moment.Scheduled ⟨l, later⟩) (hl : l.Sound) {event : Event}
    (hok : l.handle event = (.ok (), l')) : Moment.Scheduled ⟨l', later⟩ := by
  have hhandles := hl.handles event
  rw [hok] at hhandles
  cases hhandles with
  | nobody _ => exact h
  | served hacts _ => exact scheduled_acts h hacts
  | skipped hacts _ rs => exact scheduled_of_change (scheduled_acts h hacts) rfl rfl

theorem scheduled_rearmSlot (h : Moment.Scheduled ⟨l, later⟩) (hl : l.Sound) (t : Nat) :
    Moment.Scheduled ⟨l.rearmSlot t, later⟩ := by
  rcases hl.rearms t with heq | ⟨c, rs, hacts, heq⟩ <;> rw [heq]
  · exact h
  · exact scheduled_of_change (scheduled_acts h hacts) rfl rfl

/-- Every move keeps the appointments of those who wait. -/
theorem Scheduled.move {m m' : Moment} (h : m.Scheduled) (hl : m.loop.Sound) (hmove : Move m m') :
    m'.Scheduled := by
  cases hmove with
  | request l r later =>
      have ⟨hconnections, hagenda, _⟩ := sameSlots_request l r
      exact scheduled_of_change h hconnections hagenda
  | happen l happening later => exact scheduled_of_change h rfl rfl
  | obey hchannel hok => exact scheduled_obey h hl hchannel hok
  | takeDue l =>
      intro t c d hc hd
      have hmem := (h t c d hc hd).resolve_right List.not_mem_nil
      exact (Agenda.mem_takeDue.1 hmem).symm
  | retry later hok => exact scheduled_retry h hl hok
  | handle hok => exact scheduled_handle h hl hok
  | rearm l token => exact scheduled_rearmSlot h hl token
  | idle l hidle => exact scheduled_of_change h rfl rfl
  | note l rs => exact scheduled_of_change h rfl rfl
  | fault later hfault => exact (hfault.ending hl).drop.2.scheduled
  | finish l => exact hl.ending.closeAll.2.scheduled
  | drop l => exact hl.ending.drop.2.scheduled

theorem Scheduled.moves {m m' : Moment} (h : m.Scheduled) (hl : m.loop.Sound)
    (hmoves : Moves m m') : m'.Scheduled := by
  induction hmoves with
  | refl => exact h
  | tail hbefore hmove ih => exact Scheduled.move ih (hl.moves hbefore) hmove

/-! ## Stances -/

/-- What is under way for a connection. -/
inductive Stance where
  /-- It is established, and watched for what arrives. -/
  | established
  /-- A connect goes on, and its end is watched for. -/
  | inFlight
  /-- A retry is due at a moment that is kept in mind. -/
  | waiting
deriving DecidableEq, Repr

/-- The kernel watches the open socket `s` as `interest` says, and reports it under `token`. -/
def Watches (l : Loop) (s : SocketId) (token : Nat) (interest : Interest) : Prop :=
  l.kernel.Open s ∧ ⟨l.kernel.descriptor s, token, interest⟩ ∈ l.kernel.registrations

/-- What the loop says of connection `c` in each stance. -/
def Stance.Fits (m : Moment) (c : Connection) : Stance → Prop
  | .established =>
    c.state = .connected ∧ c.retryAt = none ∧ ∃ s interest, c.socket = some s ∧
      (m.loop.queue c.id).writer = some s ∧ c.registered = some interest ∧
      interest.read = true ∧ m.loop.Watches s c.token interest
  | .inFlight =>
    c.state = .connecting ∧ c.retryAt = none ∧ (m.loop.queue c.id).writer = none ∧
      c.registered = some .writing ∧ ∃ s, c.socket = some s ∧
        m.loop.Watches s c.token .writing
  | .waiting =>
    c.state = .connecting ∧ c.socket = none ∧ c.registered = none ∧
      (m.loop.queue c.id).writer = none ∧
      ∃ d, c.retryAt = some d ∧ m.Expects ⟨d, c.token⟩

/-- No two stances fit the same connection. -/
theorem Stance.Fits.unique {m : Moment} {stance stance' : Stance} (h : stance.Fits m c)
    (h' : stance'.Fits m c) : stance = stance' := by
  cases stance <;> cases stance'
  case established.established | inFlight.inFlight | waiting.waiting => rfl
  case established.inFlight | established.waiting => cases h.1.symm.trans h'.1
  case inFlight.established | waiting.established => cases h.1.symm.trans h'.1
  case inFlight.waiting => cases h.2.2.2.1.symm.trans h'.2.2.1
  case waiting.inFlight => cases h'.2.2.2.1.symm.trans h.2.2.1

/-- What a connection says of its registration is what the kernel has registered. -/
theorem Coherent.watches (h : l.Coherent) (hc : l.connections.get? t = some c) {s : SocketId}
    {interest : Interest} (hs : c.socket = some s) (hr : c.registered = some interest) :
    l.Watches s c.token interest := by
  have hsound := (h.lives hc).link
  have ⟨s', hs', hmem⟩ := hsound.watched.mem_watches interest hr
  cases hs.symm.trans hs'
  have hopen : l.kernel.Open s := hsound.open_of_holds s (Link.holds_iff.2 (.inl hs))
  exact ⟨hopen, (Kernel.mem_watches.1 hmem).1⟩

theorem Sound.exists_stance {m : Moment} (hl : m.loop.Sound) (h : m.Scheduled)
    (hc : m.loop.connections.get? t = some c) : ∃ stance : Stance, stance.Fits m c := by
  have htoken := (hl.coherent.lives hc).token_eq
  cases hl.shape t c hc with
  | connected hstate hs hr hread hretry hw _ =>
      exact ⟨.established, hstate, hretry, _, _, hs, hw, hr, hread, hl.coherent.watches hc hs hr⟩
  | inFlight hstate hs hr hretry hw _ =>
      exact ⟨.inFlight, hstate, hretry, hw, hr, _, hs, hl.coherent.watches hc hs hr⟩
  | @waiting d hstate hs hr hretry hw _ =>
      have hexpects : m.Expects ⟨d, c.token⟩ := htoken ▸ h t c d hc hretry
      exact ⟨.waiting, hstate, hs, hr, hw, d, hretry, hexpects⟩

/--
**No connection is stuck.** At every moment of every run of a new loop, a connection in the table is
in exactly one stance: established and watched for reading, with a queue that writes to its socket;
or with a connect in flight, whose end is watched for; or without a socket, and expected at the
moment its retry is due. Between turns, when nothing is still to be looked at, the agenda expects
it.
-/
theorem Started.existsUnique_stance (h : l.Started) {m : Moment} (hm : Moves ⟨l, []⟩ m)
    (hc : m.loop.connections.get? t = some c) : ∃! stance : Stance, stance.Fits m c := by
  have hl : m.loop.Sound := h.sound.moves hm
  have hscheduled : m.Scheduled := Scheduled.moves h.vacant.scheduled h.sound hm
  have ⟨stance, hfits⟩ := hl.exists_stance hscheduled hc
  exact ⟨stance, hfits, fun stance' hfits' => hfits'.unique hfits⟩

/-- Of three connects, one succeeds on the spot, one goes on, and one is refused. -/
theorem Started.existsUnique_stance_of_three_connects :
    let refused : Plan := { connect := .fails .connectionRefused }
    let l : Loop := { kernel := { plans := [{ connect := .ok }, {}, refused] } }
    let connect : Action := .request (.connect default {} {})
    let m : Moment := ⟨l.after [connect, connect, connect, .turn], []⟩
    l.Started ∧
      (List.range 3).map (fun t => (m.loop.connections.get? t).map fun c =>
        (c.state, c.socket, c.retryAt.isSome)) =
        [some (.connected, some 0, false), some (.connecting, some 1, false),
          some (.connecting, none, true)] ∧
      ∀ t < 3, ∃ c, m.loop.connections.get? t = some c ∧ ∃! stance : Stance, stance.Fits m c := by
  intro refused l connect m
  have hstarted : l.Started := ⟨{}, l.kernel, ⟨rfl, rfl, rfl⟩, rfl⟩
  have hm : Moves ⟨l, []⟩ m := moves_after l _
  refine ⟨hstarted, by decide +kernel, fun t ht => ?_⟩
  have hsome : ∀ t < 3, (m.loop.connections.get? t).isSome = true := by decide +kernel
  have ⟨c, hc⟩ := Option.isSome_iff_exists.1 (hsome t ht)
  exact ⟨c, hc, hstarted.existsUnique_stance hm hc⟩

end Loop

end TextLink
