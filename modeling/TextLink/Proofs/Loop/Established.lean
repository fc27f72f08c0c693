import TextLink.Proofs.Loop.Truth

/-!
# Connected means up

In every scene of a run in which no event comes out of nowhere, a connection is connected only over
a socket whose connect has succeeded, and to the address it was requested with; so does its queue
write to that socket only; and its handler is told of being connected only then. An address to which
no connect succeeds is therefore never reported as connected, however often it is tried.

What a connection and its queue say is true in every scene (`Foretold`). As to what handlers are
told, it has to be shown that whoever is told something between two scenes is still connected in the
second one (`Announces`): a connection is closed, in the same go in which it was established, by no
part of a turn.

## Main results

* `Next.announces` — whoever is told to be connected is.
* `Started.genuine` — connected means up, in every scene of a run.
-/

namespace TextLink.Loop

open Relation (ReflTransGen)
open Link (Occasion Steps)

variable {allowed : Happening → Prop} {l l' l'' : Loop} {t id : Nat} {c : Connection} {k : Link}
  {why : Occasion}

/-! ## Who is told -/

/-- On the way from `l` to `l'` nobody is told to be connected. -/
def Withholds (l l' : Loop) : Prop :=
  ∃ new, l'.journal.callbacks.toList = l.journal.callbacks.toList ++ new ∧
    ∀ b ∈ new, b.heard ≠ .state .connected

/-- Whoever is told on the way from `l` to `l'` to be connected is so in `l'`. -/
def Announces (l l' : Loop) : Prop :=
  ∃ new, l'.journal.callbacks.toList = l.journal.callbacks.toList ++ new ∧
    ∀ b ∈ new, b.heard = .state .connected →
      ∃ t c, l'.connections.get? t = some c ∧ c.handler = b.handler ∧ c.state = .connected

/-- So do the parts of a turn; at a fault nobody is told to be connected. -/
def Reports (l : Loop) : Except Fault Unit × Loop → Prop
  | (.ok _, l') => Announces l l'
  | (.error _, l') => Withholds l l'

theorem withholds_of_eq (h : l'.journal.callbacks = l.journal.callbacks) : Withholds l l' :=
  ⟨[], by rw [h, List.append_nil], fun _ hb => absurd hb List.not_mem_nil⟩

namespace Withholds

theorem trans (h : Withholds l l') (h' : Withholds l' l'') : Withholds l l'' := by
  obtain ⟨new, hcallbacks, hnew⟩ := h
  obtain ⟨new', hcallbacks', hnew'⟩ := h'
  refine ⟨new ++ new', by rw [hcallbacks', hcallbacks, List.append_assoc], fun b hb => ?_⟩
  exact (List.mem_append.1 hb).elim (hnew b) (hnew' b)

theorem announces (h : Withholds l l') : Announces l l' := by
  obtain ⟨new, hcallbacks, hnew⟩ := h
  exact ⟨new, hcallbacks, fun b hb hheard => absurd hheard (hnew b hb)⟩

theorem then_announces (h : Withholds l l') (h' : Announces l' l'') : Announces l l'' := by
  obtain ⟨new, hcallbacks, hnew⟩ := h
  obtain ⟨new', hcallbacks', hnew'⟩ := h'
  refine ⟨new ++ new', by rw [hcallbacks', hcallbacks, List.append_assoc], fun b hb hheard => ?_⟩
  rcases List.mem_append.1 hb with hb | hb
  · exact absurd hheard (hnew b hb)
  · exact hnew' b hb hheard

theorem then_reports (h : Withholds l l') {r : Except Fault Unit × Loop} (hr : Reports l' r) :
    Reports l r := by
  rcases r with ⟨fault | _, l''⟩
  · exact h.trans hr
  · exact h.then_announces hr

end Withholds

/-! ### What the loop does without attempts and events -/

/-- Connections act only as the loop has them be watched or closed. -/
def ByCall : Occasion → Loop → Nat → Prop := fun why _ _ => why = .called

theorem withholds_absorb (t : Nat) (hk : Steps why (l.link c) k)
    (hnot : why.isConnect = true → k.conn.state ≠ .connected) : Withholds l (l.absorb t k) := by
  obtain ⟨new, hcallbacks, hnew⟩ := hk.announces
  refine ⟨new, hcallbacks, fun b hb hheard => ?_⟩
  have ⟨hwhy, hstate, _⟩ := hnew b hb hheard
  exact hnot hwhy hstate

theorem Stroke.withholds (h : Stroke ByCall l l') : Withholds l l' := by
  cases h with
  | act hc hk _ hmay =>
      refine withholds_absorb _ hk fun hconnect => ?_
      rw [show _ = Occasion.called from hmay] at hconnect
      cases hconnect
  | remove | enrol | skip | appoint | note | clear => exact withholds_of_eq rfl
  | refuse command _ _ => cases command <;> exact withholds_of_eq rfl

theorem Strokes.withholds (h : Strokes ByCall l l') : Withholds l l' := by
  induction h with
  | refl => exact withholds_of_eq rfl
  | tail _ hstroke ih => exact ih.trans hstroke.withholds

/-! ### Attempts and events -/

/-- A connection that has acted, and is told to be connected, keeps its slot. -/
theorem announces_settle (hc : l.connections.get? t = some c) (hk : Steps why (l.link c) k)
    {progress : Progress} (hclosed : progress = .closed → k.conn.state = .closed) :
    Announces l ((l.absorb t k).apply t progress) := by
  have hself : (l.absorb t k).connections.get? t = some k.conn :=
    get?_absorb_self hc
  obtain ⟨new, hcallbacks, hnew⟩ := hk.announces
  have hsame : ((l.absorb t k).apply t progress).journal = k.journal := by cases progress <;> rfl
  refine ⟨new, (congrArg (·.callbacks.toList) hsame).trans hcallbacks, fun b hb hheard => ?_⟩
  have ⟨_, hstate, hhandler⟩ := hnew b hb hheard
  refine ⟨t, k.conn, ?_, hk.told.1.trans hhandler.symm, hstate⟩
  cases progress with
  | ongoing | retry _ => exact hself
  | closed => cases hstate.symm.trans (hclosed rfl)

theorem reports_attempt (hc : l.connections.get? t = some c)
    (hstate : c.state = .disconnected ∨ c.state = .connecting) (hsocket : c.socket = none)
    (hr : c.registered = none) (hqueue : (l.queue c.id).state ≠ .closed) :
    Reports l (l.attempt t) := by
  have hsteps : Steps .attempting (l.link c) (l.link c).connect.2 := Steps.connect hstate hsocket hr
  unfold Loop.attempt
  simp only [hc]
  rcases hconnect : (l.link c).connect with ⟨fault | progress, k⟩ <;> rw [hconnect] at hsteps
  · refine withholds_absorb t hsteps fun _ hconnected => ?_
    cases hconnected.symm.trans (Link.state_of_connect_fault hconnect)
  · have hne : (l.link c).conn.state ≠ .closed := by
      rcases hstate with hstate | hstate <;> exact fun hclosed => by cases hstate.symm.trans hclosed
    have hsettled := Link.settled_connect hne hqueue hr hconnect
    refine announces_settle hc hsteps fun hclosed => ?_
    subst hclosed
    exact hsettled.state

theorem reports_retry (h : l.Sound) (due : Appointment) : Reports l (l.retry due) := by
  have hnone : Reports l (.ok (), l) := (withholds_of_eq rfl).announces
  unfold Loop.retry
  rcases hc : l.connections.get? due.token with _ | c
  · exact hnone
  · by_cases hdue : c.retryAt = some due.deadline
    · simp only [if_pos hdue]
      cases h.shape due.token c hc with
      | connected _ _ _ _ hretry _ _ | inFlight _ _ _ hretry _ _ => cases hretry.symm.trans hdue
      | waiting hstate hsocket hr _ _ hqueue =>
          exact reports_attempt hc (.inr hstate) hsocket hr fun hclosed => by
            cases hqueue.symm.trans hclosed
    · simp only [if_neg hdue]
      exact hnone

theorem reports_obey (h : l.Sound) {command : Command} {later : List Command}
    (hchannel : l.channel = command :: later) :
    Reports l ({ l with channel := later }.obey command) := by
  have hskip : Withholds l { l with channel := later } := withholds_of_eq rfl
  cases command with
  | connect id address handler options =>
      have ⟨_, ⟨hlt, hstate, _⟩, _, _⟩ := h.coherent.awaits hchannel
      show Reports l (takeUp _ id address handler options)
      unfold takeUp
      split
      · have hslot := get?_enrol_self (l := { l with channel := later }) h.coherent.table id
          (requested id address handler options)
        have hqueue := state_queue_enrol (l := { l with channel := later }) hlt
          (requested id address handler options)
        have henrol : Withholds l (Loop.enrol { l with channel := later } id
          (requested id address handler options)) := withholds_of_eq rfl
        refine henrol.then_reports (reports_attempt hslot (.inl rfl) rfl rfl fun hclosed => ?_)
        cases (hqueue.trans hstate).symm.trans hclosed
      · exact hskip
  | flush id =>
      have hrearm : Strokes ByCall { l with channel := later }
        (rearmFor { l with channel := later } id) :=
        Strokes.rearmFor (h.take hchannel) id fun _ _ => rfl
      exact (hskip.trans hrearm.withholds).announces
  | close id =>
      have hclose : Strokes ByCall { l with channel := later }
        (closeFor { l with channel := later } id) :=
        Strokes.closeFor (h.take hchannel) id fun _ _ => rfl
      exact (hskip.trans hclose.withholds).announces
  | shutdown => exact hskip.announces

/-- A fault leaves the connect of a connection without success. -/
theorem not_connected_of_fault {l k : Link} {event : Event} {fault : Fault}
    (h : l.handleEvent event = (.error (.fault fault), k))
    (hwhy : (Occasion.ofEvent l.conn.state).isConnect = true) : k.conn.state ≠ .connected := by
  unfold Link.handleEvent at h
  rcases hstate : l.conn.state with _ | _ | _ | _ <;> rw [hstate] at h hwhy
  · cases h
  · simp only at h
    rcases hfinish : l.finishConnect event with ⟨f | progress, l₁⟩ <;> rw [hfinish] at h
    · cases h
      rw [Link.state_of_finishConnect_fault hstate hfinish]
      decide
    · cases h
  · cases hwhy
  · cases h

theorem reports_handle (h : l.Sound) (event : Event) : Reports l (l.handle event) := by
  unfold Loop.handle
  rcases hc : l.connections.get? event.token with _ | c
  · exact (withholds_of_eq rfl).announces
  · have hsteps := Steps.handleEvent (l.link c) event
    have hsettled := Link.settled_handleEvent (l := l.link c) (h.shape event.token c hc) event
    simp only
    rcases hr : (l.link c).handleEvent event with ⟨(e | fault) | progress, k⟩ <;>
      rw [hr] at hsteps hsettled
    · have habsorb : Announces l ((l.absorb event.token k).apply event.token .ongoing) :=
        announces_settle hc hsteps nofun
      exact habsorb
    · exact withholds_absorb _ hsteps (not_connected_of_fault hr)
    · refine announces_settle hc hsteps fun hclosed => ?_
      subst hclosed
      exact Gone.state hsettled

/-- Whoever is told between two scenes to be connected is so in the second. -/
theorem Next.announces {m m' : Scene} (h : Next allowed m m') (hl : m.loop.Sound) :
    Announces m.loop m'.loop := by
  have hdrop {l l' : Loop} (hl : Withholds l l') (hending : l'.Ending) : Announces l l'.drop :=
    have hstrokes : Strokes ByCall l' l'.drop := Strokes.drop hending fun _ _ => rfl
    (hl.trans hstrokes.withholds).announces
  cases h with
  | request l r due events => exact (withholds_of_eq (asks_request l r).callbacks_eq).announces
  | happen | takeDue | beginWait | pass | answer | note => exact (withholds_of_eq rfl).announces
  | obey hchannel h =>
      have hreports := reports_obey hl hchannel
      rw [h] at hreports
      exact hreports
  | obeyFault hchannel h =>
      have hreports := reports_obey hl hchannel
      rw [h] at hreports
      exact hdrop hreports ((hl.obey hchannel).ending h)
  | @retry l l' due later h =>
      have hreports := reports_retry hl due
      rw [h] at hreports
      exact hreports
  | @retryFault l l' due fault later h =>
      have hreports := reports_retry hl due
      rw [h] at hreports
      exact hdrop hreports ((hl.retry due).ending h)
  | rearm l token =>
      have hrearm : Strokes ByCall l (l.rearmSlot token) :=
        Strokes.rearmSlot hl token fun _ _ => rfl
      exact hrearm.withholds.announces
  | @handle l l' event later h =>
      have hreports := reports_handle hl event
      rw [h] at hreports
      exact hreports
  | @handleFault l l' event fault later h =>
      have hreports := reports_handle hl event
      rw [h] at hreports
      exact hdrop hreports ((hl.handle event).ending h)
  | finish l =>
      have hclose : Strokes ByCall l l.closeAll := Strokes.closeAll hl.ending fun _ _ => rfl
      exact (hclose.withholds.trans (withholds_of_eq rfl)).announces
  | drop l => exact hdrop (withholds_of_eq rfl) hl.ending

/-! ## Runs -/

/-- A connect to `address` has succeeded, that of socket `s`. -/
def Reached (l : Loop) (address : Address) (s : SocketId) : Prop :=
  l.kernel.IsUp s ∧ ∃ v, .connect s address v ∈ l.kernel.calls.toList

theorem Reached.keeps {address : Address} {s : SocketId} (h : l.Reached address s)
    (hk : l.kernel.Keeps l'.kernel) : l'.Reached address s :=
  ⟨hk.up s h.1, h.2.imp fun _ hv => hk.calls_prefix.subset hv⟩

/-- The socket of a connected connection has reached the address it was requested for. -/
theorem Truthful.reached (h : l.Truthful) (hl : l.Sound) {address : Address} {handler : Handler}
    {options : ConnectOptions} (hrequested : AsRequested id address handler options l)
    (hc : l.connections.get? t = some c) (hid : c.id = id) (hstate : c.state = .connected) :
    ∃ s, c.socket = some s ∧ l.Reached address s := by
  have ⟨s, hs⟩ := (hl.shape t c hc).exists_socket hstate
  have hlink := h.links t c hc
  have ⟨_, hcall⟩ := hlink.tried s hs
  rw [show (l.link c).conn.address = address from hrequested.address_eq hc hid] at hcall
  exact ⟨s, hs, hlink.up hstate s hs, hcall⟩

/-- Connection number `id` counts as connected only over a connect to `address` that has
succeeded. -/
structure Genuine (id : Nat) (address : Address) (l : Loop) : Prop where
  connected : ∀ t c, l.connections.get? t = some c → c.id = id → c.state = .connected →
    ∃ s, c.socket = some s ∧ l.Reached address s
  /-- Its queue writes to the socket it is connected over. -/
  writer : ∀ w, (l.queue id).writer = some w →
    ∃ t c, l.connections.get? t = some c ∧ c.id = id ∧ c.state = .connected ∧ c.socket = some w
  told : ∀ b ∈ l.journal.callbacks.toList, b.handler.conn = id → b.heard = .state .connected →
    ∃ s, l.Reached address s
  /-- As long as every connect to the address fails, nothing counts it as connected. -/
  refused : (∀ s, ¬ l.Reached address s) →
    (∀ t c, l.connections.get? t = some c → c.id = id → c.state ≠ .connected) ∧
      (l.queue id).writer = none ∧
      ∀ b ∈ l.journal.callbacks.toList, b.handler.conn = id → b.heard ≠ .state .connected

/-- What is known of connection number `id` in every scene after it was requested. -/
structure Vouched (id : Nat) (address : Address) (m : Scene) : Prop extends Foretold m where
  addressed : m.loop.Addressed
  requested : ∃ handler options, AsRequested id address handler options m.loop
  told : ∀ b ∈ m.loop.journal.callbacks.toList, b.handler.conn = id → b.heard = .state .connected →
    ∃ s, m.loop.Reached address s

namespace Vouched

variable {m m' : Scene} {address : Address}

/-- The socket of a connected connection has reached the address. -/
theorem reached (h : Vouched id address m) (hl : m.loop.Sound)
    (hc : m.loop.connections.get? t = some c) (hid : c.id = id) (hstate : c.state = .connected) :
    ∃ s, c.socket = some s ∧ m.loop.Reached address s :=
  have ⟨_, _, hrequested⟩ := h.requested
  h.truthful.reached hl hrequested hc hid hstate

theorem toGenuine (h : Vouched id address m) (hl : m.loop.Sound) : m.loop.Genuine id address := by
  have hwriter : ∀ w, (m.loop.queue id).writer = some w → ∃ t c,
      m.loop.connections.get? t = some c ∧ c.id = id ∧ c.state = .connected ∧
      c.socket = some w := by
    intro w hw
    by_cases howned : m.loop.Unowned id
    · cases (hl.coherent.idle id howned).symm.trans hw
    · obtain ⟨t, c, hc, hid⟩ : ∃ t c, m.loop.connections.get? t = some c ∧ c.id = id := by
        by_contra hnone
        exact howned fun t c hc hid => hnone ⟨t, c, hc, hid⟩
      exact ⟨t, c, hc, hid, writer_up (hl.shape t c hc) (hid ▸ hw)⟩
  refine ⟨fun t c => h.reached hl, hwriter, h.told, fun hfailed => ⟨fun t c hc hid hstate => ?_, ?_,
    fun b hb hid hheard => ?_⟩⟩
  · have ⟨s, _, hreached⟩ := h.reached hl hc hid hstate
    exact hfailed s hreached
  · refine Option.eq_none_iff_forall_ne_some.2 fun w hw => ?_
    have ⟨t, c, hc, hid, hstate, _⟩ := hwriter w hw
    have ⟨s, _, hreached⟩ := h.reached hl hc hid hstate
    exact hfailed s hreached
  · have ⟨s, hreached⟩ := h.told b hb hid hheard
    exact hfailed s hreached

/-- Whoever is told to be connected is, and so over a socket that has reached the address. -/
theorem announces (h : Vouched id address m') (hl' : m'.loop.Sound)
    (hannounces : Announces m.loop m'.loop) :
    ∃ new, m'.loop.journal.callbacks.toList = m.loop.journal.callbacks.toList ++ new ∧
      ∀ b ∈ new, b.handler.conn = id → b.heard = .state .connected →
        ∃ t c s, m'.loop.connections.get? t = some c ∧ c.id = id ∧ c.state = .connected ∧
          c.socket = some s ∧ m'.loop.Reached address s := by
  obtain ⟨new, hcallbacks, hnew⟩ := hannounces
  refine ⟨new, hcallbacks, fun b hb hconn hheard => ?_⟩
  obtain ⟨t, c, hc, hhandler, hstate⟩ := hnew b hb hheard
  have hid : c.id = id := by rw [← h.addressed.own t c hc, hhandler, hconn]
  have ⟨s, hs, hreached⟩ := h.reached hl' hc hid hstate
  exact ⟨t, c, s, hc, hid, hstate, hs, hreached⟩

/-- In the next scene as much is known. -/
theorem next (h : Vouched id address m) (hl : m.loop.Sound)
    (hallowed : ∀ h, allowed h → ∀ i, h ≠ .inject i) (hnext : Next allowed m m') :
    Vouched id address m' := by
  have hl' := hl.next hnext
  have hadvance := h.advances hl hnext
  have hforetold := h.toForetold.next hl hallowed hnext
  have haddressed := h.addressed.advance hl.coherent hadvance
  have hrequested : ∃ handler options, AsRequested id address handler options m'.loop :=
    h.requested.imp fun _ => .imp fun _ hrequested => hrequested.advance hl.coherent hadvance
  refine ⟨hforetold, haddressed, hrequested, fun b hb hconn hheard => ?_⟩
  obtain ⟨new, hcallbacks, hnew⟩ := hnext.announces hl
  rw [hcallbacks] at hb
  rcases List.mem_append.1 hb with hb | hb
  · have ⟨s, hreached⟩ := h.told b hb hconn hheard
    exact ⟨s, hreached.keeps (hadvance.keeps_kernel hallowed)⟩
  · obtain ⟨t, c, hc, hhandler, hstate⟩ := hnew b hb hheard
    have hid : c.id = id := by rw [← haddressed.own t c hc, hhandler, hconn]
    have ⟨_, _, hrequested⟩ := hrequested
    have ⟨s, _, hreached⟩ := hforetold.truthful.reached hl' hrequested hc hid hstate
    exact ⟨s, hreached⟩

theorem course (h : Vouched id address m) (hl : m.loop.Sound)
    (hallowed : ∀ h, allowed h → ∀ i, h ≠ .inject i) (hm : Course allowed m m') :
    Vouched id address m' := by
  induction hm with
  | refl => exact h
  | tail hbefore hnext ih => exact ih.next (hl.course hbefore) hallowed hnext

end Vouched

theorem Started.foretold (h : l.Started) (hcloses : l.kernel.closeUnregisters = true)
    (hquiet : l.kernel.injections = []) : Foretold ⟨l, [], []⟩ := by
  refine ⟨⟨hcloses, hquiet, fun t c hc => ?_⟩, fun _ hevent => absurd hevent List.not_mem_nil⟩
  obtain ⟨config, kernel, _, rfl⟩ := h.eq
  rw [SlotTable.get?_ofSize] at hc
  cases hc

theorem Foretold.course {m m' : Scene} (h : Foretold m) (hl : m.loop.Sound)
    (hallowed : ∀ h, allowed h → ∀ i, h ≠ .inject i) (hm : Course allowed m m') : Foretold m' := by
  induction hm with
  | refl => exact h
  | tail hbefore hnext ih => exact ih.next (hl.course hbefore) hallowed hnext

/-- A connection that was just requested. -/
theorem Foretold.vouched {m : Scene} (h : Foretold m) (hl : m.loop.Sound)
    (haddressed : m.loop.Addressed)
    (hallowed : ∀ h, allowed h → ∀ i, h ≠ .inject i) {address : Address} {handler : Handler}
    {options : ConnectOptions}
    (hrequest : m.loop.request (.connect address handler options) = (.connected (.ok id), l')) :
    Vouched id address ⟨l', m.due, m.events⟩ := by
  have hnext : Next allowed m
      ⟨(m.loop.request (.connect address handler options)).2, m.due, m.events⟩ :=
    .request m.loop _ m.due m.events
  have hasks := asks_request m.loop (.connect address handler options)
  have ⟨hrequested, hid⟩ := asRequested_request haddressed hl.coherent hrequest
  have hforetold := h.next hl hallowed hnext
  rw [hrequest] at hasks hforetold
  refine ⟨hforetold, haddressed.asks hasks, ⟨_, _, hrequested⟩, fun b hb hconn _ => ?_⟩
  rw [hasks.callbacks_eq] at hb
  exact absurd (hconn.trans hid) (Nat.ne_of_lt (haddressed.told b hb))

/--
**Connected means up.** In every scene of a run in which no event comes out of nowhere, after a
connection was requested for `address`, however often it is retried, whatever else is opened, closed
and put into its slot, and whichever calls fail: it is connected, or its queue has a writer, only
over its own socket, and only where the kernel has completed the connect of that very socket, which
was to `address`, with success. Nor was its handler told of being connected at any other time. As
long as every connect to `address` fails, it is therefore never connected and never told so.
-/
theorem Started.genuine (h : l.Started) (hcloses : l.kernel.closeUnregisters = true)
    (hquiet : l.kernel.injections = []) {m₀ m : Scene} {address : Address} {handler : Handler}
    {options : ConnectOptions}
    (hbefore : Course (fun h => ∀ i, h ≠ .inject i) ⟨l, [], []⟩ m₀)
    (hrequest : m₀.loop.request (.connect address handler options) = (.connected (.ok id), l'))
    (hafter : Course (fun h => ∀ i, h ≠ .inject i) ⟨l', m₀.due, m₀.events⟩ m) :
    m.loop.Genuine id address ∧ ∀ m', Next (fun h => ∀ i, h ≠ .inject i) m m' →
      ∃ new, m'.loop.journal.callbacks.toList = m.loop.journal.callbacks.toList ++ new ∧
        ∀ b ∈ new, b.handler.conn = id → b.heard = .state .connected →
          ∃ t c s, m'.loop.connections.get? t = some c ∧ c.id = id ∧ c.state = .connected ∧
            c.socket = some s ∧ m'.loop.Reached address s := by
  have hallowed : ∀ h : Happening, (∀ i, h ≠ .inject i) → ∀ i, h ≠ .inject i := fun _ hnone => hnone
  have hsound : m₀.loop.Sound := h.sound.course (m := ⟨l, [], []⟩) hbefore
  have haddressed : m₀.loop.Addressed := h.addressed_course hbefore
  have hforetold := (h.foretold hcloses hquiet).course h.sound hallowed hbefore
  have hsound' : l'.Sound := by
    have hsound' := hsound.request (.connect address handler options)
    rwa [hrequest] at hsound'
  have hvouched := (hforetold.vouched hsound haddressed hallowed hrequest).course
    (m := ⟨l', m₀.due, m₀.events⟩) hsound' hallowed hafter
  have hsound : m.loop.Sound := hsound'.course (m := ⟨l', m₀.due, m₀.events⟩) hafter
  refine ⟨hvouched.toGenuine hsound, fun m' hnext => ?_⟩
  exact (hvouched.next hsound hallowed hnext).announces (hsound.next hnext) (hnext.announces hsound)

/-- The first connect fails, later on; the retry has another socket, over which the connection is
established when its connect succeeds. -/
theorem Started.genuine_of_retry :
    let l : Loop := { kernel := { plans := [{}, {}] } }
    let l₁ := (l.request (.connect default {} { policy := .immediate })).2
    let m : Scene :=
      ⟨l₁.after [.turn, .happen (.complete 0 (.fails .connectionRefused)), .turn, .turn,
        .happen (.complete 1 .ok), .turn], [], []⟩
    l.Started ∧ l.kernel.closeUnregisters = true ∧ l.kernel.injections = [] ∧
      Course (fun h => ∀ i, h ≠ .inject i) ⟨l, [], []⟩ ⟨l, [], []⟩ ∧
      l.request (.connect default {} { policy := .immediate }) = (.connected (.ok 0), l₁) ∧
      Course (fun h => ∀ i, h ≠ .inject i) ⟨l₁, [], []⟩ m ∧
      m.loop.journal.callbacks.toList.map (·.heard) = [.state .connecting, .state .connected] ∧
      (m.loop.connections.get? 0).map (·.socket) = some (some 1) ∧ m.loop.Genuine 0 default := by
  intro l l₁ m
  have hstarted : l.Started := ⟨{}, l.kernel, ⟨rfl, rfl, rfl⟩, rfl⟩
  have hm : Course (fun h => ∀ i, h ≠ .inject i) ⟨l₁, [], []⟩ m :=
    course_after l₁ _ fun h hmem i heq => by
      subst heq
      simp at hmem
  have ⟨hgenuine, _⟩ := hstarted.genuine rfl rfl .refl rfl hm
  exact ⟨hstarted, rfl, rfl, .refl, rfl, hm, by decide +kernel, by decide +kernel, hgenuine⟩

end TextLink.Loop
