import TextLink.Proofs.Connection.Forwarding
import TextLink.Proofs.Loop.Draining
import TextLink.Proofs.Loop.Rearming

/-!
# Loops whose connections forward

The output of a connection goes to its outlet (`Outlet`): through its socket, and in all it comes to
what is out there already, followed by what waits. If every connection forwards to an outlet of its
own, then none meets a failure in a round of draining and none is lost, so after it they forward to
the same outlets (`Forwards`). As long as a message waits, a round has something to report: the
connection is watched for taking more, and its socket always does.

## Main results

* `Forwards.handle`, `Forwards.rearmSlot`, `Forwards.fireRetries` — what the parts of a round keep.
* `Forwards.pendingReports_ne_nil` — a message that waits has a wait report something.
* `Forwards.round` — a round goes through, takes no time, and uses something up.
-/

namespace TextLink

/-- Where the output of connection number `id` goes, and what it comes to. -/
structure Outlet where
  id : Nat
  socket : SocketId
  output : Bytes

/-- The socket under the descriptor of an open one. -/
theorem Kernel.Sound.holder?_eq {k : Kernel} (hk : k.Sound) {s : SocketId} (hs : k.Open s) :
    k.holder? (k.descriptor s) = some s := by
  obtain ⟨sock, hsock, hopen⟩ := id hs
  have hholds : (sock.isOpen && sock.descriptor == k.descriptor s) = true := by
    rw [hopen, Kernel.descriptor, hsock]
    exact beq_self_eq_true _
  have hsome : (k.holder? (k.descriptor s)).isSome = true := by
    rw [Kernel.holder?, List.findIdx?_isSome, List.any_eq_true]
    exact ⟨sock, List.mem_of_getElem? hsock, hholds⟩
  obtain ⟨s', hs'⟩ := Option.isSome_iff_exists.1 hsome
  obtain ⟨hopen', hd⟩ := Loop.open_of_holder? hs'
  rw [hs', hk.distinct s' s hopen' hs hd]

namespace Loop

open Link (Steps Occasion)

variable {l l' : Loop} {outlets : Nat → Option Outlet} {t id : Nat} {c : Connection} {k : Link}
  {why : Occasion} {deadline : Instant}

/-- Every connection forwards to the outlet of its slot, and nothing is reported out of nowhere. -/
structure Forwards (outlets : Nat → Option Outlet) (l : Loop) : Prop where
  sound : l.Sound
  worded : l.Worded
  quiet : l.kernel.injections = []
  /-- Nobody lives under the token of the waker. -/
  unwoken : outlets wakerToken = none
  vacant : ∀ t, outlets t = none → l.connections.get? t = none
  forwards : ∀ t o, outlets t = some o →
    ∃ c, l.connections.get? t = some c ∧ c.id = o.id ∧ (l.link c).Forwards o.socket o.output

namespace Forwards

theorem outlet (h : l.Forwards outlets) (hc : l.connections.get? t = some c) :
    ∃ o, outlets t = some o ∧ c.id = o.id ∧ (l.link c).Forwards o.socket o.output := by
  rcases ho : outlets t with _ | o
  · cases (h.vacant t ho).symm.trans hc
  · obtain ⟨c', hc', hid, hforwards⟩ := h.forwards t o ho
    obtain rfl := Option.some.inj (hc.symm.trans hc')
    exact ⟨o, rfl, hid, hforwards⟩

/-! ## What may change -/

theorem note (h : l.Forwards outlets) (rs : List LogRecord) : (l.note rs).Forwards outlets :=
  { h with
    sound := h.sound.note rs
    forwards := fun t o ho => by
      obtain ⟨c, hc, hid, hforwards⟩ := h.forwards t o ho
      exact ⟨c, hc, hid, hforwards.congr rfl rfl rfl fun _ => fun hclear => hclear⟩ }

theorem appoint (h : l.Forwards outlets) (agenda : Agenda) :
    Forwards outlets { l with agenda } :=
  { h with sound := h.sound.appoint agenda }

/-- A wait changes no socket. -/
theorem kernel (h : l.Forwards outlets) {k : Kernel} (hl : Sound { l with kernel := k })
    (hsockets : k.sockets = l.kernel.sockets) (hverdicts : k.verdicts = l.kernel.verdicts)
    (hquiet : k.injections = []) : Forwards outlets { l with kernel := k } where
  sound := hl
  worded := h.worded
  quiet := hquiet
  unwoken := h.unwoken
  vacant := h.vacant
  forwards t o ho := by
    obtain ⟨c, hc, hid, hforwards⟩ := h.forwards t o ho
    exact ⟨c, hc, hid, hforwards.congr rfl rfl rfl fun _ hclear =>
      hclear.congr (congrArg (·[o.socket]?) hsockets) (hverdicts.trans hclear.verdicts)⟩

/-- A connection that has acted forwards still, and so do the others. -/
theorem absorb (h : l.Forwards outlets) (hc : l.connections.get? t = some c)
    (hk : Steps why (l.link c) k)
    (hkeeps : ∀ s out, (l.link c).Forwards s out → k.Forwards s out)
    (hsound : (l.absorb t k).Sound) : (l.absorb t k).Forwards outlets where
  sound := hsound
  worded := h.worded.set (hk.keeps_queue SendQueue.invariant_worded (h.worded.queue c.id)) rfl
  quiet := hk.keeps.injections h.quiet
  unwoken := h.unwoken
  vacant t' ht' := by
    rw [get?_absorb hc, if_neg]
    · exact h.vacant t' ht'
    · rintro rfl
      cases (h.vacant t' ht').symm.trans hc
  forwards t' o ho := by
    have hleads := h.sound.coherent.leads hc hk
    obtain ⟨c', hc', hid, hforwards⟩ := h.forwards t' o ho
    by_cases ht : t' = t
    · subst ht
      obtain rfl := Option.some.inj (hc.symm.trans hc')
      refine ⟨k.conn, get?_absorb_self hc, (id_eq hleads).trans hid, ?_⟩
      rw [h.sound.coherent.link_self hc hleads]
      exact hkeeps _ _ hforwards
    · refine ⟨c', by rw [get?_absorb hc, if_neg ht]; exact hc', hid, ?_⟩
      have hqueue := h.sound.coherent.queue_other hc hleads hc' ht
      refine hforwards.congr rfl rfl (congrArg SendQueue.pending hqueue) fun _ hclear =>
        hclear.congr ?_ ?_
      · exact socket_eq_of_act h.sound.coherent hc hk hc' ht
          (Link.holds_iff.2 (.inl hforwards.socket))
      · obtain ⟨_, _, _, hown⟩ := h.outlet hc
        obtain ⟨_, hclear, _⟩ := (hkeeps _ _ hown).kernel
        exact hclear.verdicts

/-! ## Events -/

/-- An event that is no hang-up is handled. -/
theorem handle (h : l.Forwards outlets) {event : Event} (hevent : event.hangup = false) :
    (l.handle event).1 = .ok () ∧ (l.handle event).2.Forwards outlets := by
  have hstands := h.sound.handle event
  unfold Loop.handle at hstands ⊢
  rcases hc : l.connections.get? event.token with _ | c
  · exact ⟨rfl, h⟩
  · have hserved (s : SocketId) (out : Bytes) (hforwards : (l.link c).Forwards s out) :=
      hforwards.handleEvent (h.sound.coherent.lives hc).link (h.sound.shape _ c hc)
        (h.worded.queue c.id) hevent
    obtain ⟨o, _, _, hforwards⟩ := h.outlet hc
    have hok := (hserved _ _ hforwards).1
    have hkeeps (s : SocketId) (out : Bytes) (hforwards : (l.link c).Forwards s out) :=
      (hserved s out hforwards).2
    have hsteps := Steps.handleEvent (l.link c) event
    simp only [hc] at hstands ⊢
    generalize (l.link c).handleEvent event = r at hstands hok hkeeps hsteps ⊢
    rcases r with ⟨e | progress, k⟩
    · cases hok
    · cases hok
      exact ⟨rfl, h.absorb hc hsteps hkeeps hstands⟩

theorem dispatch (h : l.Forwards outlets) {events : List Event}
    (hevents : ∀ event ∈ events, event.hangup = false) :
    (l.dispatch events).1 = .ok () ∧ (l.dispatch events).2.Forwards outlets := by
  induction events generalizing l with
  | nil => exact ⟨rfl, h⟩
  | cons event later ih =>
      have ⟨hok, hafter⟩ := h.handle (hevents event List.mem_cons_self)
      unfold Loop.dispatch
      generalize l.handle event = r at hok hafter ⊢
      rcases r with ⟨fault | _, l'⟩
      · cases hok
      · exact ih hafter fun event hmem => hevents event (List.mem_cons_of_mem _ hmem)

/-! ## Before the wait -/

theorem link_rearm (h : l.Forwards outlets) (hc : l.connections.get? t = some c) {s : SocketId}
    {out : Bytes} (hforwards : (l.link c).Forwards s out) :
    (l.link c).rearm.1 = .ok () ∧ (l.link c).rearm.2.Forwards s out := by
  obtain ⟨i, hi⟩ := (h.sound.shape t c hc).exists_registered hforwards.socket
  exact hforwards.rearm (h.sound.coherent.lives hc).link.watched hi

theorem rearmSlot (h : l.Forwards outlets) (t : Nat) : (l.rearmSlot t).Forwards outlets := by
  unfold Loop.rearmSlot
  rcases hc : l.connections.get? t with _ | c
  · exact h
  · have hsteps : Steps .called (l.link c) (l.link c).rearm.2 := .rearm .refl
    have hsound : (l.absorb t (l.link c).rearm.2).Sound :=
      (h.sound.except t).acts (h.sound.acts_rearm hc)
    exact (h.absorb hc hsteps (fun s out hforwards => (h.link_rearm hc hforwards).2) hsound).note _

theorem rearmAll (h : l.Forwards outlets) (tokens : List Nat) :
    (tokens.foldl Loop.rearmSlot l).Forwards outlets := by
  induction tokens generalizing l with
  | nil => exact h
  | cons token later ih => exact ih (h.rearmSlot token)

/-- Whoever was looked after is watched for what is needed. -/
theorem armed_rearmSlot (h : l.Forwards outlets) {t' : Nat}
    (harmed : t' ≠ t → Holds Connection.Armed t id l) :
    Holds Connection.Armed t id (l.rearmSlot t') := by
  unfold Loop.rearmSlot
  rcases hc : l.connections.get? t' with _ | c
  · by_cases ht : t' = t
    · intro c hc'
      cases (ht ▸ hc).symm.trans hc'
    · exact harmed ht
  · refine (Holds.acts harmed h.sound.coherent (h.sound.acts_rearm hc) fun _ _ => ?_).note _
    obtain ⟨o, _, _, hforwards⟩ := h.outlet hc
    exact Link.attends_of_rearm (fun _ => ⟨_, hforwards.socket⟩) (h.link_rearm hc hforwards).1

theorem armed_rearmAll (h : l.Forwards outlets) (tokens : List Nat)
    (harmed : t ∉ tokens → Holds Connection.Armed t id l) :
    Holds Connection.Armed t id (tokens.foldl Loop.rearmSlot l) := by
  induction tokens generalizing l with
  | nil => exact harmed List.not_mem_nil
  | cons token later ih =>
      refine ih (h.rearmSlot token) fun hlater => h.armed_rearmSlot fun hne => harmed fun hmem => ?_
      exact (List.mem_cons.1 hmem).elim (fun heq => hne heq.symm) hlater

/-- No connection waits to connect again. -/
theorem retryAll (h : l.Forwards outlets) (due : List Appointment) :
    l.retryAll due = (.ok (), l) := by
  induction due with
  | nil => rfl
  | cons a later ih =>
      have hretry : l.retry a = (.ok (), l) := by
        unfold Loop.retry
        rcases hc : l.connections.get? a.token with _ | c
        · rfl
        · have hnone : c.retryAt = none := by
            obtain ⟨o, _, _, hforwards⟩ := h.outlet hc
            cases h.sound.shape _ c hc with
            | connected _ _ _ _ hretry _ _ | inFlight _ _ _ hretry _ _ => exact hretry
            | waiting _ hs _ _ _ _ => cases hs.symm.trans hforwards.socket
          simp only [hnone]
          rfl
      rw [Loop.retryAll, hretry]
      exact ih

theorem fireRetries (h : l.Forwards outlets) :
    l.fireRetries = (.ok (), { l with agenda := (l.agenda.takeDue l.now).2 }) :=
  (h.appoint _).retryAll _

end Forwards

theorem queue_rearmSlot (hl : l.Sound) (t id : Nat) : (l.rearmSlot t).queue id = l.queue id := by
  unfold rearmSlot
  rcases hc : l.connections.get? t with _ | c
  · rfl
  · have hleads := (hl.acts_rearm hc).leads
    have hlt : (l.link c).rearm.2.conn.id < l.queues.length :=
      id_eq hleads ▸ (hl.coherent.lives hc).id_lt
    refine (queue_absorb (t := t) hlt).trans ?_
    by_cases hid : id = (l.link c).rearm.2.conn.id
    · rw [if_pos hid, hid, id_eq hleads]
      exact Link.queue_rearm (l.link c)
    · rw [if_neg hid]

theorem queue_rearmAll (hl : l.Sound) (tokens : List Nat) (id : Nat) :
    (tokens.foldl rearmSlot l).queue id = l.queue id := by
  induction tokens generalizing l with
  | nil => rfl
  | cons token later ih => exact (ih (hl.rearmSlot token)).trans (queue_rearmSlot hl token id)

namespace Forwards

/-! ## Waiting -/

/-- **A message that waits has a wait report something**, since its connection is watched
for taking more. -/
theorem pendingReports_ne_nil (h : l.Forwards outlets) (hc : l.connections.get? t = some c)
    (hpending : (l.queue c.id).hasPending = true) (harmed : c.Armed (l.queue c.id)) {capacity : Nat}
    (hcapacity : 0 < capacity) : l.kernel.pendingReports capacity ≠ [] := by
  obtain ⟨o, _, _, hforwards⟩ := h.outlet hc
  have ⟨i, hi, hwrite⟩ : ∃ i, c.registered = some i ∧ i.write = true := by
    cases h.sound.shape t c hc with
    | connected hstate _ _ _ _ _ _ => exact harmed hstate hpending
    | inFlight _ _ hr _ _ _ => exact ⟨_, hr, rfl⟩
    | waiting _ hs _ _ _ _ => cases hs.symm.trans hforwards.socket
  have hlink := (h.sound.coherent.lives hc).link
  obtain ⟨s, hs, hregistered⟩ := hlink.watched.mem_watches i hi
  obtain rfl := Option.some.inj (hforwards.socket.symm.trans hs)
  obtain ⟨_, hclear, _⟩ := hforwards.kernel
  obtain ⟨sock, hsock, hup, _⟩ := hclear.lookup
  have hholder := hlink.kernel.holder?_eq (hlink.open_of_holds _ (Link.holds_iff.2 (.inl hs)))
  have hany : (sock.readiness.through (.ofInterest i)).any = true := by
    rw [hup.readiness_eq]
    simp [Flags.through, Flags.any, Flags.ofInterest, hwrite]
  have hready : Report.mk (.socket o.socket c.token) (sock.readiness.through (.ofInterest i)) ∈
      l.kernel.readyReports := by
    refine List.mem_filterMap.2 ⟨_, (Kernel.mem_watches.1 hregistered).1, ?_⟩
    refine Option.bind_eq_some_iff.2 ⟨_, hholder, Option.bind_eq_some_iff.2 ⟨_, hsock, ?_⟩⟩
    exact if_pos hany
  intro hnone
  unfold Kernel.pendingReports at hnone
  rcases List.take_eq_nil_iff.1 hnone with hzero | hnil
  · exact Nat.ne_of_gt hcapacity hzero
  · rw [List.append_eq_nil_iff, List.append_eq_nil_iff] at hnil
    rw [hnil.1.2] at hready
    cases hready

/-- No connection is told that its peer hung up. -/
theorem hangup_of_pending (h : l.Forwards outlets) {capacity : Nat} {event : Event}
    (hevent : event ∈ (l.kernel.pendingReports capacity).filterMap Report.event?) :
    event.hangup = false := by
  obtain ⟨report, hreport, hevent⟩ := List.mem_filterMap.1 hevent
  rcases told_of_pending h.sound h.quiet hreport with ⟨_, rfl⟩ | ⟨t, htold⟩
  · -- The waker's report is no event.
    cases hevent
  · cases htold with
    | @intro c s interest sock hc hs _ hsock _ =>
        obtain ⟨o, _, _, hforwards⟩ := h.outlet hc
        obtain rfl := Option.some.inj (hforwards.socket.symm.trans hs)
        obtain ⟨_, hclear, _⟩ := hforwards.kernel
        obtain ⟨sock', hsock', hup, _⟩ := hclear.lookup
        obtain rfl := Option.some.inj (hsock.symm.trans hsock')
        rw [hup.readiness_eq] at hevent
        unfold Report.event? at hevent
        split at hevent
        · cases hevent
        · rw [← Option.some.inj hevent]
          rfl

theorem servable (h : l.Forwards outlets) : l.Servable where
  sound := h.sound
  worded := h.worded
  quiet := h.quiet
  up t c hc _ s hs := by
    obtain ⟨o, _, _, hforwards⟩ := h.outlet hc
    obtain rfl := Option.some.inj (hforwards.socket.symm.trans hs)
    obtain ⟨_, hclear, _⟩ := hforwards.kernel
    obtain ⟨sock, hsock, hup, _⟩ := hclear.lookup
    exact ⟨sock, hsock, hup.up⟩
  vacant := h.vacant wakerToken h.unwoken

/-- A wait that reports something goes through, and takes no time. -/
theorem waitAndDispatch (h : l.Forwards outlets) (hverdicts : l.kernel.verdicts = [])
    (hreports : l.kernel.pendingReports l.config.capacity ≠ []) (timeout : Duration) :
    (l.waitAndDispatch timeout).1 = .ok () ∧ (l.waitAndDispatch timeout).2.Forwards outlets ∧
      (l.waitAndDispatch timeout).2.now = l.now := by
  have hbegins : l.kernel.beginWait (some (timeoutMillis timeout)) = (.ok, l.kernel) := by
    unfold Kernel.beginWait Kernel.takeVerdict
    rw [hverdicts]
    simp only [Kernel.splitVerdict]
    rw [← hverdicts]
  have hwaited := l.waited timeout
  generalize l.waitAndDispatch timeout = r at hwaited ⊢
  cases hwaited with
  | idle hbegin hnone =>
      obtain rfl := (Prod.mk.inj (hbegins.symm.trans hbegin)).2
      exact absurd hnone hreports
  | interrupted hbegin | failed hbegin => cases hbegins.symm.trans hbegin
  | @reported k report later hbegin hreports =>
      obtain rfl := (Prod.mk.inj (hbegins.symm.trans hbegin)).2
      have hnext : Next (fun _ => True) ⟨l, [], []⟩
          ⟨l.answered (some (timeoutMillis timeout)) (report :: later), [], _⟩ :=
        .answer l (some (timeoutMillis timeout)) hreports
      have hsound : (l.answered (some (timeoutMillis timeout)) (report :: later)).Sound :=
        Sound.next (m := ⟨l, [], []⟩) h.sound hnext
      have hanswered : (l.answered (some (timeoutMillis timeout)) (report :: later)).Forwards
        outlets := by
        refine h.kernel hsound rfl rfl ?_
        show l.kernel.injections.drop _ = []
        rw [h.quiet, List.drop_nil]
      have hevents : ∀ event ∈ (report :: later).filterMap Report.event?, event.hangup = false := by
        rw [← hreports]
        exact fun event hevent => h.hangup_of_pending hevent
      obtain ⟨hok, hafter⟩ := hanswered.dispatch hevents
      exact ⟨hok, hafter, (spends_dispatch hsound _).now_eq⟩

/-! ## Rounds -/

/-- A message waits for a connection. -/
theorem exists_pending (hpending : l.pendingOutput ≠ 0) :
    ∃ t c, l.connections.get? t = some c ∧ (l.queue c.id).hasPending = true := by
  obtain ⟨c, hc⟩ := List.exists_mem_of_length_pos (Nat.pos_of_ne_zero hpending)
  have ⟨hmem, hoccupied⟩ := List.mem_filter.1 hc
  obtain ⟨t, ht⟩ := SlotTable.mem_values_iff.1 hmem
  exact ⟨t, c, ht, (Bool.and_eq_true_iff.1 hoccupied).2⟩

/-- **A round goes through**, takes no time, and uses something up. -/
theorem round (h : l.Forwards outlets) (hlast : deadline ≤ Instant.lastDeadline)
    {r : Except Fault Unit × Loop} (hround : Round deadline l r) :
    r.1 = .ok () ∧ r.2.Forwards outlets ∧ r.2.now = l.now ∧
      left deadline r.2 < left deadline l := by
  cases hround with
  | @intro l₁ hpending hnow hfire hwait =>
      have hrearmed := h.rearmAll l.connections.keys
      have hspends := spends_rearmAll h.sound l.connections.keys
      have hqueue := queue_rearmAll h.sound l.connections.keys
      obtain ⟨t, c, hc, hpending⟩ := exists_pending hpending
      have harmed : Holds Connection.Armed t c.id (l.connections.keys.foldl Loop.rearmSlot l) :=
        h.armed_rearmAll _ fun hnone => absurd (SlotTable.mem_keys_iff.2 ⟨c, hc⟩) hnone
      obtain ⟨o, ho, hid, _⟩ := h.outlet hc
      generalize l.connections.keys.foldl Loop.rearmSlot l =
        l₀ at hrearmed hspends hqueue harmed hfire
      rw [hrearmed.fireRetries] at hfire
      obtain rfl := (Prod.mk.inj hfire).2
      have hl₁ := hrearmed.appoint (l₀.agenda.takeDue l₀.now).2
      -- The connection still lives in its slot, with its message waiting, and is watched now.
      obtain ⟨c', hc', hid', hforwards⟩ := hrearmed.forwards t o ho
      have hid' : c'.id = c.id := hid'.trans hid.symm
      have hpending' : (l₀.queue c'.id).hasPending = true := by
        rw [hqueue, hid']
        exact hpending
      have hverdicts : l₀.kernel.verdicts = [] := by
        obtain ⟨_, hclear, _⟩ := hforwards.kernel
        exact hclear.verdicts
      have hreports := hl₁.pendingReports_ne_nil hc' hpending' (harmed c' hc' hid')
        (Nat.lt_of_lt_of_le Nat.one_pos (Nat.le_max_left 1 l₀.config.eventCapacity))
      have hspends₁ : Spends l { l₀ with agenda := (l₀.agenda.takeDue l₀.now).2 } :=
        hspends.trans ⟨Nat.le_refl _, rfl, .of_eq rfl⟩
      generalize min (waitTimeout _) (deadline.since _) = timeout at hwait
      subst hwait
      have ⟨hok, hafter, hstill⟩ := hl₁.waitAndDispatch hverdicts hreports timeout
      have hwaits := (hl₁.servable.waits timeout).of_spends hspends₁
      exact ⟨hok, hafter, hstill.trans hspends₁.now_eq, hwaits.left_lt hnow hlast⟩

end Forwards

end Loop

end TextLink
