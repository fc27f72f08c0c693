import TextLink.Proofs.Agenda
import TextLink.Proofs.Connection.Undoing
import TextLink.Proofs.Loop.Mirror
import TextLink.Proofs.Loop.Queues

/-!
# A failed attempt leaves nothing behind

An attempt to connect is begun when a request is taken up or a retry is fired, and concluded by an
event of its socket (`Tries`). Whichever obstacle it meets, the loop afterwards has nothing of it
(`Undoes`): its socket is closed and not registered, and the connection waits for its next attempt,
for which there is an appointment, with its queue as before, or it is gone from the table with an
empty queue.

There is one thing that undoing cannot do. The next attempt may be allowed only after the last
deadline there is; the attempt then ends in a fault, which ends the loop.

## Main results

* `Started.undoes` — an attempt of any connection in any scene, with and without an obstacle.
-/

namespace TextLink

/-! ## Queues -/

namespace SendQueue

variable {q : SendQueue}

/-- Without a writer the first message is whole. -/
def HeadWhole (q : SendQueue) : Prop := q.writer = none → q.headSent = 0

theorem headWhole_connecting (h : q.HeadWhole) : q.connecting.2.HeadWhole := by
  unfold connecting
  split
  · exact h
  · split
    · exact fun _ => rfl
    · next hsent => exact fun _ => Nat.eq_zero_of_not_pos hsent

theorem headWhole_push (h : q.HeadWhole) (k : Kernel) (message : Bytes) :
    (q.push k message).2.1.HeadWhole := by
  have hpushes := pushes q k message
  generalize q.push k message = result at hpushes ⊢
  cases hpushes with
  | refused _ | empty _ _ | whole _ _ _ _ _ _ => exact h
  | queued _ _ _ | failed _ _ _ _ _ _ => exact h
  | part _ _ hw _ _ _ _ => exact fun hnone => by cases hw.symm.trans hnone

theorem headWhole_flush (h : q.HeadWhole) (k : Kernel) : (q.flush k).2.1.HeadWhole := by
  rcases hw : q.writer with _ | w
  · rw [flush_of_no_writer k hw]
    exact h
  · obtain ⟨_, _, _, hq⟩ := flush_keeps q k
    rw [hq]
    exact fun hnone => by cases hw.symm.trans hnone

theorem invariant_headWhole : Invariant HeadWhole where
  ofLimit _ _ := rfl
  bind _ h := h
  connecting := headWhole_connecting
  connected _ _ := nofun
  close _ _ := rfl
  push k message h := headWhole_push h k message
  flush k h := headWhole_flush h k

end SendQueue

namespace Loop

open Link (Leads)

variable {allowed : Happening → Prop} {l l' : Loop} {t n : Nat} {c : Connection} {k : Link}
  {r : Except Fault Progress × Link}

/-! ## Attempts -/

/-- In one step of `l` the connection `c` in slot `t` makes or concludes its attempt `n`, with the
first obstacle that is met and what comes of it. -/
inductive Tries (l : Loop) :
    Nat → Connection → Nat → Option FailurePoint → Except Fault Unit × Loop → Prop where
  /-- A requested connection gets a slot, and makes its first attempt. -/
  | request {id : Nat} {address : Address} {handler : Handler} {options : ConnectOptions}
      {later : List Command} (hchannel : l.channel = .connect id address handler options :: later)
      (hfeasible : options.areFeasible = true) :
      Tries l (l.connections.insertWith (requested id address handler options)).1
        (requested id address handler options
          (l.connections.insertWith (requested id address handler options)).1) 1 l.kernel.obstacle?
        ({ l with channel := later }.obey (.connect id address handler options))
  | retry {due : Appointment} {c : Connection} (hc : l.connections.get? due.token = some c)
      (hdue : c.retryAt = some due.deadline) :
      Tries l due.token c (min (c.attempts + 1) maxAttemptCount) l.kernel.obstacle? (l.retry due)
  | event {event : Event} {c : Connection} {s : SocketId}
      (hc : l.connections.get? event.token = some c) (hstate : c.state = .connecting)
      (hs : c.socket = some s) :
      Tries l event.token c c.attempts (l.kernel.obstacleAfter? s event) (l.handle event)

/-! ## What is left of an attempt -/

/-- Connection `c` waits in slot `t` of `l'` for the attempt after its attempt `n`, with all else
as it was in `l`. -/
structure WaitsAgain (l : Loop) (t n : Nat) (c : Connection) (deadline : Instant) (l' : Loop) :
    Prop where
  slot : l'.connections.get? t = some { c with
    state := .connecting
    attempts := n
    retryAt := some deadline
    socket := none
    registered := none }
  queue : l'.queue c.id =
    { l.queue c.id with token := some t, state := .connecting, writer := none }
  agenda : l'.agenda.toList.Perm (⟨deadline, t⟩ :: l.agenda.toList)

/-- Connection `c` is gone from slot `t` of `l'`, and its handler was told. -/
structure GivenUp (l : Loop) (t : Nat) (c : Connection) (l' : Loop) : Prop where
  slot : l'.connections.get? t = none
  queue : l'.queue c.id = { l.queue c.id with
    token := some t, state := .closed, writer := none, headSent := 0, pending := [] }
  told : l'.journal.callbacks.back? = some ⟨c.handler, .state .closed⟩
  agenda : l'.agenda = l.agenda

/-- Nothing is left in the kernel of `l'` of what connection `c` in slot `t` of `l`
had or has made. -/
structure Cleared (l : Loop) (t : Nat) (c : Connection) (l' : Loop) : Prop where
  closed : ∀ s, c.socket = some s ∨ l.kernel.sockets.length ≤ s → ¬ l'.kernel.Open s
  unregistered : l.kernel.closeUnregisters = true → ∀ r ∈ l'.kernel.registrations, r.token ≠ t
  now_eq : l'.now = l.now

/-- Attempt `n` of connection `c` in slot `t` of `l` has failed, and is undone. -/
structure Undoes (l : Loop) (t n : Nat) (c : Connection) (r : Except Fault Unit × Loop) : Prop where
  cleared : Cleared l t c r.2
  waits : c.policy.allowsRetry n = true →
    l.now.after (c.policy.backoff n) ≤ Instant.lastDeadline →
      r.1 = .ok () ∧ WaitsAgain l t n c (l.now.after (c.policy.backoff n)) r.2
  givesUp : c.policy.allowsRetry n = false → r.1 = .ok () ∧ GivenUp l t c r.2
  /-- Nothing can be due after the last deadline. -/
  faults : c.policy.allowsRetry n = true →
    Instant.lastDeadline < l.now.after (c.policy.backoff n) → r.1 = .error .deadline

/-- An attempt goes on: the connection in slot `t` has a socket, and waits for no other attempt. -/
structure GoesOn (t : Nat) (r : Except Fault Unit × Loop) : Prop where
  ok : r.1 = .ok ()
  slot : ∃ c s, r.2.connections.get? t = some c ∧ c.socket = some s ∧ c.retryAt = none

/-- What comes of attempt `n` of connection `c` in slot `t` of `l`, by the obstacle that it
meets. -/
def ComesTo (l : Loop) (t n : Nat) (c : Connection) :
    Option FailurePoint → Except Fault Unit × Loop → Prop
  | some _, r => Undoes l t n c r
  | none, r => GoesOn t r

/-! ## Taking over what is left -/

/-- What is left to do about a connection does not reach the kernel. -/
theorem Cleared.apply (h : Cleared l t c l') (t' : Nat) (progress : Progress) :
    Cleared l t c (l'.apply t' progress) := by
  cases progress <;> exact ⟨h.closed, h.unregistered, h.now_eq⟩

/-- An attempt that goes on has a socket. -/
theorem goesOn_settleAttempt (hc : l.connections.get? t = some c) (hr : r.1 = .ok .ongoing)
    (hshape : Shape r.2.conn r.2.queue) (hretry : r.2.conn.retryAt = none) :
    GoesOn t (l.settleAttempt t r) := by
  obtain ⟨outcome, k⟩ := r
  cases hr
  have hself : (l.absorb t k).connections.get? t = some k.conn := get?_absorb_self hc
  cases hshape with
  | @connected s i _ hs _ _ _ _ _ => exact ⟨rfl, k.conn, s, hself, hs, hretry⟩
  | @inFlight s _ hs _ _ _ _ => exact ⟨rfl, k.conn, s, hself, hs, hretry⟩
  | waiting _ _ _ hsome _ _ => cases hretry.symm.trans hsome

namespace SoundExcept

/-- A connection that has acted may be in no shape. -/
theorem except_absorb (h : l.SoundExcept t) (hc : l.connections.get? t = some c)
    (hk : Leads (l.link c) k) : (l.absorb t k).SoundExcept t where
  coherent := h.coherent.absorb hc hk
  shape t' c' hne hc' := by
    rcases slot_absorb hc hc' with ⟨heq, _⟩ | ⟨_, hc'⟩
    · exact absurd heq hne
    · exact h.shape_absorb hc hk hne hc'

/-- A slot whose connection holds nothing has no registration under its token. -/
theorem unregistered (h : l.SoundExcept t) (hc : l.connections.get? t = some c)
    (hnone : ∀ s, ¬ (l.link c).holds s) (hcloses : l.kernel.closeUnregisters = true) :
    ∀ r ∈ l.kernel.registrations, r.token ≠ t := by
  intro r hr
  obtain ⟨s, hopen, hd⟩ := h.coherent.kernel.owned hcloses r hr
  obtain ⟨t', c', hc', hheld⟩ := h.coherent.kept s hopen
  have hne : t' ≠ t := by
    rintro rfl
    cases hc.symm.trans hc'
    exact hnone s hheld
  have hs : c'.socket = some s := (Shape.holds_iff (l := l.link c') (h.shape t' c' hne hc')).1 hheld
  have hlives := h.coherent.lives hc'
  have hmem : r ∈ l.kernel.watches (l.kernel.descriptor s) := Kernel.mem_watches.2 ⟨hr, hd.symm⟩
  have hwatches : l.kernel.watches (l.kernel.descriptor s) =
      (c'.registered.map (⟨l.kernel.descriptor s, c'.token, ·⟩)).toList :=
    hlives.link.watched.watches_eq hcloses s hs
  rw [hwatches, Option.mem_toList, Option.map_eq_some_iff] at hmem
  obtain ⟨i, _, rfl⟩ := hmem
  exact fun ht => hne (hlives.token_eq.symm.trans ht)

/-- What a connection lets go is closed, and nothing is registered under its token. -/
theorem cleared (h : l.SoundExcept t) (hc : l.connections.get? t = some c)
    (hk : Leads (l.link c) k) (hnone : ∀ s, ¬ k.holds s) : Cleared l t c (l.absorb t k) where
  closed s hs hopen := by
    rcases hk.kept s hopen with hheld | hloose | ⟨hopen, hnot⟩
    · exact hnone s hheld
    · cases hloose
    · rcases hs with hs | hs
      · exact hnot (Link.holds_iff.2 (.inl hs))
      · exact absurd hopen.lt_length (Nat.not_lt_of_le hs)
  unregistered hcloses := by
    refine (h.except_absorb hc hk).unregistered (get?_absorb_self hc) (fun s => ?_)
      (hk.touches.closeUnregisters_eq.trans hcloses)
    rw [h.coherent.link_self hc hk]
    exact hnone s
  now_eq := hk.touches.clock_eq

/-- An attempt that has failed is undone by the loop that takes it over. -/
theorem undoes_settleAttempt (h : l.SoundExcept t) (hc : l.connections.get? t = some c)
    (hk : Leads (l.link c) r.2) (hundone : Link.Undone n (l.link c) r) :
    Undoes l t n c (l.settleAttempt t r) := by
  have hcleared := h.cleared hc hk hundone.holdsNone
  have hqueue : (l.absorb t r.2).queue c.id = r.2.queue := id_eq hk ▸ h.coherent.queue_self hc hk
  have hbound := (h.coherent.lives hc).bound
  have hdeadline {deadline : Instant} : l.now.deadline? (c.policy.backoff n) = some deadline ↔
      deadline = l.now.after (c.policy.backoff n) ∧ deadline ≤ Instant.lastDeadline :=
    Instant.deadline?_eq_some_iff
  cases hundone with
  | @waits deadline k hallowed hd hconn hq =>
      obtain ⟨rfl, hlast⟩ := hdeadline.1 hd
      refine ⟨hcleared.apply t (.retry _), fun _ _ => ⟨rfl, ?_⟩, fun hnot => ?_,
        fun _ hlate => absurd hlate (Nat.not_lt_of_le hlast)⟩
      · refine ⟨(get?_absorb_self hc).trans (congrArg some hconn), ?_, Agenda.perm_push _ _⟩
        rw [← hbound]
        exact hqueue.trans hq
      · cases hnot.symm.trans hallowed
  | @closes k hnot hgone hq htold =>
      refine ⟨hcleared.apply t .closed, fun hallowed _ => ?_,
        fun _ => ⟨rfl, SlotTable.get?_remove.trans (if_pos rfl), ?_, htold, rfl⟩,
        fun hallowed _ => ?_⟩
      · cases hnot.symm.trans hallowed
      · rw [← hbound]
        exact hqueue.trans hq
      · cases hnot.symm.trans hallowed
  | @late k hallowed hd _ _ =>
      refine ⟨hcleared, fun _ hlast => ?_, fun hnot => ?_, fun _ _ => rfl⟩
      · cases hd.symm.trans (hdeadline.2 ⟨rfl, hlast⟩)
      · cases hnot.symm.trans hallowed

/-- What comes of an attempt by a connection at rest. -/
theorem attempt_comesTo (h : l.SoundExcept t) (hc : l.connections.get? t = some c)
    (hrest : (l.link c).AtRest) :
    ComesTo l t (min (c.attempts + 1) maxAttemptCount) c l.kernel.obstacle? (l.attempt t) := by
  have hleads := Link.leads_connect (h.coherent.lives hc).link hrest.registered
  have hattempt : l.attempt t = l.settleAttempt t (l.link c).connect := by
    unfold Loop.attempt
    rw [hc]
  rw [hattempt]
  rcases ho : l.kernel.obstacle? with _ | p
  · have hok := Link.connect_of_clear hrest ho
    obtain ⟨hshape, hretry⟩ := Link.settled_connect hrest.state hrest.queue hrest.registered
      (Prod.ext hok rfl)
    exact goesOn_settleAttempt hc hok hshape (hretry.elim id id)
  · exact h.undoes_settleAttempt hc hleads (Link.undone_connect hrest ho)

end SoundExcept

/-- Of the loop before, only the kernel, the agenda and the queue count. -/
theorem ComesTo.congr {o : Option FailurePoint} {r : Except Fault Unit × Loop}
    (h : ComesTo l t n c o r) (hkernel : l'.kernel = l.kernel) (hagenda : l'.agenda = l.agenda)
    (hqueue : { l.queue c.id with token := some t } = { l'.queue c.id with token := some t }) :
    ComesTo l' t n c o r := by
  have hnow : l'.now = l.now := congrArg Kernel.clock hkernel
  cases o with
  | none => exact h
  | some p =>
      obtain ⟨hcleared, hwaits, hgivesUp, hfaults⟩ := h
      refine ⟨?_, ?_, ?_, ?_⟩
      · obtain ⟨hclosed, hunregistered, hnow'⟩ := hcleared
        exact ⟨hkernel ▸ hclosed, hkernel ▸ hunregistered, hnow'.trans hnow.symm⟩
      · rw [hnow]
        intro hallowed hlast
        obtain ⟨hok, hslot, hq, hperm⟩ := hwaits hallowed hlast
        refine ⟨hok, hslot, hq.trans ?_, hagenda ▸ hperm⟩
        exact congrArg (fun q : SendQueue => { q with state := .connecting, writer := none }) hqueue
      · intro hnot
        obtain ⟨hok, hslot, hq, htold, heq⟩ := hgivesUp hnot
        refine ⟨hok, hslot, hq.trans ?_, htold, heq.trans hagenda.symm⟩
        exact congrArg (fun q : SendQueue =>
          { q with state := .closed, writer := none, headSent := 0, pending := [] }) hqueue
      · rw [hnow]
        exact hfaults

/-! ## The attempts of a loop -/

variable {o : Option FailurePoint} {result : Except Fault Unit × Loop} {s : SocketId}

/-- A requested connection is at rest when it has got its slot. -/
theorem Coherent.atRest_enrol (h : l.Coherent) (hwhole : l.EveryQueue SendQueue.HeadWhole)
    {id : Nat}
    (hid : l.Unowned id) (hawaits : l.Awaits id) {make : Nat → Connection} (hmake : Newborn id make)
    (t : Nat) : ((l.enrol id make).link (make t)).AtRest := by
  have hqueue : (l.enrol id make).queue (make t).id =
      (l.queue id).bind (l.connections.insertWith make).1 := by
    rw [hmake.id_eq, queue_enrol hawaits.id_lt, if_pos rfl]
  have hwriter : (l.queue id).writer = none := h.idle id hid
  have hsent : (l.queue id).headSent = 0 := hwhole.queue SendQueue.invariant_headWhole id hwriter
  refine ⟨fun hclosed => ?_, hmake.socket t, hmake.registered t, fun hclosed => ?_, ?_, ?_⟩
  · cases (hmake.state t).symm.trans hclosed
  · have hstate : (l.queue id).state = .closed :=
      (congrArg SendQueue.state hqueue).symm.trans hclosed
    cases hawaits.state.symm.trans hstate
  · exact (congrArg SendQueue.writer hqueue).trans hwriter
  · exact (congrArg SendQueue.headSent hqueue).trans hsent

/-- A connection that waits for its next attempt is at rest. -/
theorem Sound.atRest (h : l.Sound) (hwhole : l.EveryQueue SendQueue.HeadWhole)
    (hc : l.connections.get? t = some c) {deadline : Instant} (hdue : c.retryAt = some deadline) :
    (l.link c).AtRest := by
  have hsent := hwhole.queue SendQueue.invariant_headWhole c.id
  cases h.shape t c hc with
  | connected _ _ _ _ hnone _ _ | inFlight _ _ _ hnone _ _ => cases hnone.symm.trans hdue
  | waiting hstate hsocket hr _ hwriter hqueue =>
      have hopen : c.state ≠ .closed := fun hclosed => by cases hstate.symm.trans hclosed
      have hqopen : (l.queue c.id).state ≠ .closed := fun hclosed => by
        cases hqueue.symm.trans hclosed
      exact ⟨hopen, hsocket, hr, hqopen, hwriter, hsent hwriter⟩

/-- A connecting connection that has a socket has its connect in flight. -/
theorem Sound.inFlight (h : l.Sound) (hwhole : l.EveryQueue SendQueue.HeadWhole)
    (hc : l.connections.get? t = some c) (hstate : c.state = .connecting) (hs : c.socket = some s) :
    (l.link c).InFlight s := by
  have hsent := hwhole.queue SendQueue.invariant_headWhole c.id
  cases h.shape t c hc with
  | connected hconnected _ _ _ _ _ _ => cases hconnected.symm.trans hstate
  | inFlight _ _ hr hretry hwriter hqueue =>
      exact ⟨hstate, hs, hr, hretry, hqueue, hwriter, hsent hwriter⟩
  | waiting _ hnone _ _ _ _ => cases hs.symm.trans hnone

/-- A connecting connection concludes its attempt when an event has come. -/
theorem handle_of_connecting {event : Event} (hc : l.connections.get? event.token = some c)
    (hstate : c.state = .connecting) :
    l.handle event = l.settleAttempt event.token ((l.link c).finishConnect event) := by
  have hconnecting : (l.link c).conn.state = .connecting := hstate
  unfold Loop.handle Link.handleEvent
  rw [hc]
  simp only [hconnecting]
  rcases (l.link c).finishConnect event with ⟨_ | _, k⟩ <;> rfl

/-- What comes of the first attempt of a requested connection. -/
theorem Sound.request_comesTo (h : l.Sound) (hwhole : l.EveryQueue SendQueue.HeadWhole) {id : Nat}
    {address : Address} {handler : Handler} {options : ConnectOptions} {later : List Command}
    (hchannel : l.channel = .connect id address handler options :: later)
    (hfeasible : options.areFeasible = true) :
    ComesTo l (l.connections.insertWith (requested id address handler options)).1 1
      (requested id address handler options
        (l.connections.insertWith (requested id address handler options)).1)
      l.kernel.obstacle?
      ({ l with channel := later }.obey (.connect id address handler options)) := by
  have ⟨hid, ⟨hlt, hstate, htoken⟩, _, _⟩ := h.coherent.awaits hchannel
  have htaken := h.take hchannel
  have hexcept := h.enrol_requested hchannel
  have hobey : Loop.obey { l with channel := later } (.connect id address handler options) =
      (Loop.enrol { l with channel := later } id (requested id address handler options)).attempt
        (l.connections.insertWith (requested id address handler options)).1 :=
    if_pos hfeasible
  have hbound (token : Nat) : { (Loop.enrol { l with channel := later } id
        (requested id address handler options)).queue id with token := some token } =
      { l.queue id with token := some token } := by
    rw [queue_enrol (l := { l with channel := later }) hlt, if_pos rfl]
    rfl
  have hslot := get?_enrol_self htaken.coherent.table id (requested id address handler options)
  have hrest := htaken.coherent.atRest_enrol hwhole hid ⟨hlt, hstate, htoken⟩
    (newborn_requested id address handler options)
    (l.connections.insertWith (requested id address handler options)).1
  rw [hobey]
  exact (hexcept.attempt_comesTo hslot hrest).congr rfl rfl (hbound _)

theorem Sound.comesTo (h : l.Sound) (hwhole : l.EveryQueue SendQueue.HeadWhole)
    (htries : Tries l t c n o result) : ComesTo l t n c o result := by
  cases htries with
  | request hchannel hfeasible => exact h.request_comesTo hwhole hchannel hfeasible
  | @retry due c hc hdue =>
      have hretry : l.retry due = l.attempt due.token := by
        unfold Loop.retry
        rw [hc]
        exact if_pos hdue
      rw [hretry]
      exact (h.except due.token).attempt_comesTo hc (h.atRest hwhole hc hdue)
  | @event event c s hc hstate hs =>
      have hflight := h.inFlight hwhole hc hstate hs
      have hleads := (Link.Leaves.refl (h.coherent.lives hc).link).finishConnect event
      rw [handle_of_connecting hc hstate]
      rcases ho : l.kernel.obstacleAfter? s event with _ | p
      · have hok := Link.finishConnect_of_clear hflight ho
        obtain ⟨hshape, hretry⟩ :=
          Link.settled_finishConnect (h.shape event.token c hc) hstate event (Prod.ext hok rfl)
        exact goesOn_settleAttempt hc hok hshape (hretry.elim id (·.trans hflight.retryAt))
      · exact (h.except event.token).undoes_settleAttempt hc hleads
          (Link.undone_finishConnect hflight ho)

/--
**A failed attempt is undone.** Whatever an attempt to connect meets in any scene of a run, the loop
is left with nothing of it: the connection waits for the next one with its queue as before, or it is
gone. An attempt that meets nothing goes on.
-/
theorem Started.undoes (h : l.Started) {m : Scene} (hm : Course allowed ⟨l, [], []⟩ m)
    (htries : Tries m.loop t c n o result) : ComesTo m.loop t n c o result :=
  (h.sound.course (m := ⟨l, [], []⟩) hm).comesTo (h.everyQueue SendQueue.invariant_headWhole hm)
    htries

/-- The connect has succeeded and a message waits, but the socket cannot be watched for
what comes next. -/
theorem Started.undoes_of_failed_rewatch :
    let l : Loop := { kernel := { plans := [{}] } }
    let m := l.after [.request (.connect default {} {}), .turn, .request (.send 0 [104, 105]),
      .happen (.complete 0 .ok), .happen (.script .epollCtl [.fails .ioFault])]
    let event : Event := ⟨0, false, true, false⟩
    l.Started ∧ Course (fun _ => True) ⟨l, [], []⟩ ⟨m, [], []⟩ ∧
      ∃ c, Tries m 0 c 1 (some .reregister) (m.handle event) ∧ Undoes m 0 1 c (m.handle event) ∧
        c.policy.allowsRetry 1 = true ∧ m.now.after (c.policy.backoff 1) ≤ Instant.lastDeadline ∧
        ((m.handle event).2.queue 0).pending = [[104, 105]] ∧
        (m.handle event).2.kernel.sockets.map Socket.isOpen = [false] := by
  intro l m event
  have hstarted : l.Started := ⟨{}, l.kernel, ⟨rfl, rfl, rfl⟩, rfl⟩
  have hm : Course (fun _ => True) ⟨l, [], []⟩ ⟨m, [], []⟩ := course_after l _ fun _ _ => trivial
  have hslot : ∃ c, m.connections.get? 0 = some c := Option.isSome_iff_exists.1 (by decide +kernel)
  have hfacts : (m.connections.get? 0).all fun c => c.state = .connecting ∧ c.socket = some 0 ∧
      c.attempts = 1 ∧ c.policy.allowsRetry 1 = true ∧
        m.now.after (c.policy.backoff 1) ≤ Instant.lastDeadline := by decide +kernel
  have hobstacle : m.kernel.obstacleAfter? 0 event = some .reregister := by decide +kernel
  have hpending : ((m.handle event).2.queue 0).pending = [[104, 105]] := by decide +kernel
  have hclosed : (m.handle event).2.kernel.sockets.map Socket.isOpen = [false] := by decide +kernel
  clear_value m
  obtain ⟨c, hc⟩ := hslot
  rw [hc] at hfacts
  obtain ⟨hstate, hs, hattempts, hallowed, hlast⟩ := of_decide_eq_true hfacts
  have htries : Tries m 0 c c.attempts (m.kernel.obstacleAfter? 0 event) (m.handle event) :=
    .event (show m.connections.get? event.token = some c from hc) hstate hs
  rw [hattempts, hobstacle] at htries
  exact ⟨hstarted, hm, c, htries, hstarted.undoes hm htries, hallowed, hlast, hpending, hclosed⟩

/-- The connect is refused, and the wait for the next attempt has no end. The connection does not
wait for it, nothing is due, and the loop ends in a fault. -/
theorem Started.not_undone_of_endless_wait :
    let l : Loop := { kernel := { plans := [{ connect := .fails .connectionRefused }] } }
    let endless : ConnectOptions :=
      { policy := { initialBackoff := .longest, maxBackoff := .longest } }
    let m := l.after [.request (.connect default {} endless)]
    let c := requested 0 default {} endless 0
    let r := Loop.obey { m with channel := [] } (.connect 0 default {} endless)
    l.Started ∧ Course (fun _ => True) ⟨l, [], []⟩ ⟨m, [], []⟩ ∧ Tries m 0 c 1 (some .connect) r ∧
      c.policy.allowsRetry 1 = true ∧ r.1 = .error .deadline ∧
      (r.2.connections.get? 0).map Connection.retryAt = some none ∧ r.2.agenda.toList = [] := by
  intro l endless m c r
  have hstarted : l.Started := ⟨{}, l.kernel, ⟨rfl, rfl, rfl⟩, rfl⟩
  have hm : Course (fun _ => True) ⟨l, [], []⟩ ⟨m, [], []⟩ := course_after l _ fun _ _ => trivial
  have hobstacle : m.kernel.obstacle? = some .connect := by decide +kernel
  have hchannel : m.channel = [.connect 0 default {} endless] := rfl
  have htries : Tries m 0 c 1 m.kernel.obstacle? r := .request hchannel rfl
  rw [hobstacle] at htries
  exact ⟨hstarted, hm, htries, by decide +kernel, by decide +kernel, by decide +kernel,
    by decide +kernel⟩

end Loop

end TextLink
