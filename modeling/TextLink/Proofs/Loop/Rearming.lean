import TextLink.Proofs.Connection.Rearming
import TextLink.Proofs.Loop.Deeds
import TextLink.Proofs.Loop.Lasting

/-!
# When output comes to be watched for again

An established connection with messages waiting may be left with a registration that does not ask
for writing, since a call that was to change it failed. It stays so until somebody looks after the
registration. In a turn there are two occasions: a request to flush is taken, or an event of the
connection is handled. A producer makes that request only when the first message comes to wait, so
sending more behind the others is no occasion (`channel_sendBytes`), and a turn that has none of its
own leaves the connection as it is.

What is said here of the connection in a slot is a property of it and its queue, under the condition
that the connection still is the one with a certain number (`Holds`). It concerns what acts in that
slot and nothing else.

## Main results

* `Holds.obey`, `Holds.retry`, `Holds.handle` — what a deed has to keep.
* `Does.armed`, `Does.unchanged` — turns with an occasion, and without.
* `Started.armed_after_turn_iff` — when a turn after a send restores the registration.
-/

namespace TextLink

/-- The registration asks for writing if messages wait on an established connection. -/
def Connection.Armed (c : Connection) (q : SendQueue) : Prop :=
  c.state = .connected → q.hasPending = true → ∃ i, c.registered = some i ∧ i.write = true

namespace Loop

open Link (Leads)
open Kernel (Succeeds)

variable {l l' : Loop} {t t' id : Nat} {c : Connection} {k : Link} {progress : Progress}
  {P : Connection → SendQueue → Prop}

/-- If connection number `id` is in slot `t`, then `P` is true of it and its queue. -/
def Holds (P : Connection → SendQueue → Prop) (t id : Nat) (l : Loop) : Prop :=
  ∀ c, l.connections.get? t = some c → c.id = id → P c (l.queue c.id)

/-! ## What a deed has to keep -/

namespace Holds

theorem change (h : Holds P t id l) (hconnections : l'.connections = l.connections)
    (hqueues : l'.queues = l.queues) : Holds P t id l' := by
  intro c hc hid
  rw [queue, hqueues]
  exact h c (hconnections ▸ hc) hid

/-- A connection acts, in slot `t` or in another one. -/
theorem absorb (h : t' ≠ t → Holds P t id l) (hl : l.Coherent) (hc : l.connections.get? t' = some c)
    (hk : Leads (l.link c) k) (hself : t' = t → c.id = id → P k.conn k.queue) :
    Holds P t id (l.absorb t' k) := by
  intro c' hc' hid
  rcases slot_absorb hc hc' with ⟨ht, rfl⟩ | ⟨hne, hc'⟩
  · rw [hl.queue_self hc hk]
    exact hself ht.symm ((id_eq hk).symm.trans hid)
  · rw [hl.queue_other hc hk hc' hne]
    exact h hne.symm c' hc' hid

theorem note (h : Holds P t id l) (rs : List LogRecord) : Holds P t id (l.note rs) :=
  h.change rfl rfl

theorem apply (h : Holds P t id l) (t' : Nat) (progress : Progress) :
    Holds P t id (l.apply t' progress) := by
  cases progress with
  | ongoing | retry deadline => exact h.change rfl rfl
  | closed =>
      intro c hc hid
      exact h c (slot_remove hc).2 hid

/-- A connection acts and stays, in slot `t` or in another one. -/
theorem acts (h : t' ≠ t → Holds P t id l) (hl : l.Coherent) (hacts : Acts l t' c progress k)
    (hself : t' = t → c.id = id → P k.conn k.queue) :
    Holds P t id ((l.absorb t' k).apply t' progress) :=
  (absorb h hl hacts.slot hacts.leads hself).apply t' progress

/-- A connection is closed, and leaves its slot. -/
theorem close (h : Holds P t id l) (hl : l.Coherent) (hacts : Acts l t' c .closed k) :
    Holds P t id ((l.absorb t' k).apply t' .closed) := by
  intro c' hc' hid
  have ⟨hne, hc'⟩ := slot_remove hc'
  rcases slot_absorb hacts.slot hc' with ⟨ht, _⟩ | ⟨_, hc'⟩
  · exact absurd ht hne
  · show P c' ((l.absorb t' k).queue c'.id)
    rw [hl.queue_other hacts.slot hacts.leads hc' hne]
    exact h c' hc' hid

theorem attempts (h : Holds P t id l) (hl : l.Coherent)
    (hattempts : Attempts l t' c (.ok (), l'))
    (hself : t' = t → c.id = id → P (l.link c).connect.2.conn (l.link c).connect.2.queue) :
    Holds P t id l' := by
  cases hattempts with
  | made hacts _ hconnect =>
      rw [hconnect] at hself
      exact acts (fun _ => h) hl hacts hself

/-- A command is taken. A request of `id` itself makes a connection that is new, and has it
attempt to connect; a request to flush it looks after its registration. -/
theorem obey (h : Holds P t id l) (hl : l.Sound) {command : Command} {later : List Command}
    (hchannel : l.channel = command :: later)
    (hok : { l with channel := later }.obey command = (.ok (), l'))
    (hnew : id ∈ requestedIds l.channel → ∀ k : Link,
      (k.conn.state = .disconnected → P k.conn k.queue) ∧ P k.connect.2.conn k.connect.2.queue)
    (hflush : command = .flush id → ∀ c, l.connections.get? t = some c → c.id = id →
      P (l.link c).rearm.2.conn (l.link c).rearm.2.queue) : Holds P t id l' := by
  have htaken := (hl.take hchannel).coherent
  have h' : Holds P t id { l with channel := later } := h.change rfl rfl
  have hobeys := hl.obeys hchannel
  rw [hok] at hobeys
  cases hobeys with
  | @connect id' address handler options _ hattempts =>
      have ⟨hunowned, hawaits, _, _⟩ := hl.coherent.awaits hchannel
      let make := requested id' address handler options
      let taken : Loop := { l with channel := later }
      have hmem : id' ∈ requestedIds l.channel := by
        rw [hchannel]
        exact List.mem_cons_self
      have henrolled : Holds P t id (taken.enrol id' make) := by
        intro c hc hid
        rcases slot_enrol (l := taken) htaken.table hc with ⟨_, rfl⟩ | ⟨_, hc⟩
        · have hid : id' = id := hid
          subst hid
          exact (hnew hmem ((taken.enrol id' make).link (make t))).1 rfl
        · rw [queue_enrol_other (l := taken) hawaits.id_lt hunowned make hc]
          exact h' c hc hid
      refine henrolled.attempts (hl.enrol_requested hchannel).coherent hattempts fun _ hid => ?_
      have hid : id' = id := hid
      subst hid
      exact (hnew hmem _).2
  | @flush id' t' c hid' hacts rs =>
      refine (acts (fun _ => h') htaken hacts fun ht hid => ?_).note rs
      subst ht
      exact hflush (by rw [← hid', hid]) c hacts.slot hid
  | close _ hacts => exact h'.close htaken hacts
  | flushNobody _ | closeNobody _ | shutdown => exact h'

theorem retry (h : Holds P t id l) (hl : l.Sound) {due : Appointment}
    (hok : l.retry due = (.ok (), l'))
    (hself : ∀ c, l.connections.get? t = some c → c.id = id → c.retryAt = some due.deadline →
      P (l.link c).connect.2.conn (l.link c).connect.2.queue) : Holds P t id l' := by
  have hretries := hl.retries due
  rw [hok] at hretries
  cases hretries with
  | attempt hdue hattempts =>
      refine h.attempts hl.coherent hattempts fun ht hid => ?_
      cases hattempts with
      | made hacts _ _ => exact hself _ (ht ▸ hacts.slot) hid hdue
  | outdated _ => exact h

/-- An event is handled. If it is one of slot `t`, nothing need have been true before. -/
theorem handle {event : Event} (h : event.token ≠ t → Holds P t id l) (hl : l.Sound)
    (hok : l.handle event = (.ok (), l'))
    (hself : event.token = t → ∀ c, l.connections.get? t = some c → c.id = id →
      (∀ fault, ((l.link c).handleEvent event).1 ≠ .error (.fault fault)) →
      l'.kernel = ((l.link c).handleEvent event).2.kernel →
      P ((l.link c).handleEvent event).2.conn ((l.link c).handleEvent event).2.queue) :
    Holds P t id l' := by
  have hhandles := hl.handles event
  rw [hok] at hhandles
  cases hhandles with
  | nobody hc =>
      by_cases ht : event.token = t
      · intro c hc' _
        rw [ht] at hc
        cases hc.symm.trans hc'
      · exact h ht
  | @served c progress k hacts hr =>
      refine acts h hl.coherent hacts fun ht hid => ?_
      have hself := hself ht c (ht ▸ hacts.slot) hid
      rw [hr] at hself
      refine hself nofun ?_
      cases progress <;> rfl
  | @skipped c e k hacts hr rs =>
      refine (acts h hl.coherent hacts fun ht hid => ?_).note rs
      have hself := hself ht c (ht ▸ hacts.slot) hid
      rw [hr] at hself
      exact hself nofun rfl

end Holds

/-! ## Turns with an occasion to look after the registration -/

/-- A request to flush is taken, and no call fails. -/
theorem armed_flush (hl : l.Sound) {later : List Command}
    (hchannel : l.channel = .flush id :: later)
    (hobey : { l with channel := later }.obey (.flush id) = (.ok (), l'))
    (hok : Succeeds l.kernel l'.kernel) : Holds Connection.Armed t id l' := by
  have htaken := hl.take hchannel
  have hobeys := hl.obeys hchannel
  rw [hobey] at hobeys
  cases hobeys with
  | flushNobody hunowned => exact fun c hc hid => absurd hid (hunowned t c hc)
  | @flush _ t' c hid hacts rs =>
      refine (Holds.acts (fun hne => ?_) htaken.coherent hacts fun _ _ => ?_).note rs
      · -- Connection number `id` is in another slot, so there is nothing to show of slot `t`.
        intro c' hc' hid'
        exact absurd (htaken.coherent.slot_eq hacts.slot hc' (hid.trans hid'.symm)) hne
      · exact (Link.rearm_attends (htaken.shape t' c hacts.slot).exists_socket hok.heeded).2

theorem armed_obey (h : Holds Connection.Armed t id l) (hl : l.Sound) {command : Command}
    {later : List Command} (hchannel : l.channel = command :: later)
    (hobey : { l with channel := later }.obey command = (.ok (), l'))
    (hok : Succeeds l.kernel l'.kernel) : Holds Connection.Armed t id l' := by
  by_cases hflush : command = .flush id
  · subst hflush
    exact armed_flush hl hchannel hobey hok
  · refine h.obey hl hchannel hobey (fun _ k => ⟨fun hstate => ?_, ?_⟩) fun heq => absurd heq hflush
    · exact Link.attends_of_state_ne (by rw [hstate]; decide)
    · exact Link.attends_connect k

theorem armed_retry (h : Holds Connection.Armed t id l) (hl : l.Sound) {due : Appointment}
    (hretry : l.retry due = (.ok (), l')) : Holds Connection.Armed t id l' :=
  h.retry hl hretry fun c _ _ _ => Link.attends_connect (l.link c)

/-- An event of slot `t` is handled and no call fails, or an event of another slot is. -/
theorem armed_handle {event : Event} (h : event.token ≠ t → Holds Connection.Armed t id l)
    (hl : l.Sound) (hhandle : l.handle event = (.ok (), l')) (hok : Succeeds l.kernel l'.kernel) :
    Holds Connection.Armed t id l' := by
  refine Holds.handle h hl hhandle fun _ c hc _ hfault hkernel => ?_
  exact Link.handleEvent_attends_of_succeeds (hl.coherent.lives hc).link (hl.shape t c hc) event
    (hkernel ▸ hok) hfault

/-- If there is an occasion to look after the registration and no call fails, it asks in the end for
what is needed; and it does so anyway, if it did before. -/
theorem Does.armed {deeds : List Deed} (h : Does deeds l l') (hl : l.Sound)
    (hok : Succeeds l.kernel l'.kernel)
    (hoccasion : Holds Connection.Armed t id l ∨ .take (.flush id) ∈ deeds ∨
      ∃ event, .handle event ∈ deeds ∧ event.token = t) : Holds Connection.Armed t id l' := by
  induction h with
  | nothing l =>
      rcases hoccasion with hbefore | hmem | ⟨_, hmem, _⟩
      · exact hbefore
      · exact absurd hmem List.not_mem_nil
      · exact absurd hmem List.not_mem_nil
  | @take l l₁ l' command later deeds hchannel hobey hrest ih =>
      have hl₁ := (hl.obey hchannel).sound hobey
      have hfollows := follows_obey hl hchannel hobey
      have hcalls := hfollows.calls_prefix
      have hok₁ := hok.before hcalls (hrest.calls_prefix hl₁)
      refine ih hl₁ (hok.after hcalls) ?_
      rcases hoccasion with hbefore | hmem | ⟨event, hmem, ht⟩
      · exact .inl (armed_obey hbefore hl hchannel hobey hok₁)
      · rcases List.mem_cons.1 hmem with heq | hmem
        · cases heq
          exact .inl (armed_flush hl hchannel hobey hok₁)
        · exact .inr (.inl hmem)
      · exact .inr (.inr ⟨event, (List.mem_cons.1 hmem).resolve_left nofun, ht⟩)
  | @retry l l₁ l' due deeds hretry hrest ih =>
      have hfollows := follows_retry hl hretry
      have hcalls := hfollows.calls_prefix
      refine ih ((hl.retry due).sound hretry) (hok.after hcalls) ?_
      rcases hoccasion with hbefore | hmem | ⟨event, hmem, ht⟩
      · exact .inl (armed_retry hbefore hl hretry)
      · exact .inr (.inl ((List.mem_cons.1 hmem).resolve_left nofun))
      · exact .inr (.inr ⟨event, (List.mem_cons.1 hmem).resolve_left nofun, ht⟩)
  | @handle l l₁ l' event deeds hhandle hrest ih =>
      have hl₁ := (hl.handle event).sound hhandle
      have hfollows := follows_handle hl hhandle
      have hcalls := hfollows.calls_prefix
      have hok₁ := hok.before hcalls (hrest.calls_prefix hl₁)
      refine ih hl₁ (hok.after hcalls) ?_
      rcases hoccasion with hbefore | hmem | ⟨event', hmem, ht⟩
      · exact .inl (armed_handle (fun _ => hbefore) hl hhandle hok₁)
      · exact .inr (.inl ((List.mem_cons.1 hmem).resolve_left nofun))
      · rcases List.mem_cons.1 hmem with heq | hmem
        · cases heq
          exact .inl (armed_handle (fun hne => absurd ht hne) hl hhandle hok₁)
        · exact .inr (.inr ⟨event', hmem, ht⟩)
  | pause agenda journal hidles _ ih =>
      refine ih (hl.pause hidles agenda journal) (hok.after hidles.calls_prefix) ?_
      exact hoccasion.imp_left fun hbefore => hbefore.change rfl rfl

/-! ## Turns without -/

/-- If there is no occasion to look after the registration of an established connection, it stays as
it is, with its queue. -/
theorem Does.unchanged {deeds : List Deed} (h : Does deeds l l') (hl : l.Sound)
    (hretry : c.retryAt = none) {q : SendQueue} (hnot : c.id ∉ requestedIds l.channel)
    (hflush : .take (.flush c.id) ∉ deeds)
    (hevent : ∀ event, .handle event ∈ deeds → event.token ≠ t)
    (hbefore : Holds (fun c' q' => c' = c ∧ q' = q) t c.id l) :
    Holds (fun c' q' => c' = c ∧ q' = q) t c.id l' := by
  induction h with
  | nothing l => exact hbefore
  | @take l l₁ l' command later deeds hchannel hobey hrest ih =>
      have hnot₁ : c.id ∉ requestedIds l₁.channel := by
        have hkept := (keeps_obey { l with channel := later } command).channel_eq
        rw [hobey] at hkept
        rw [hkept]
        exact fun hmem => hnot (hchannel ▸ (requestedIds_sublist command later).subset hmem)
      refine ih ((hl.obey hchannel).sound hobey) hnot₁
        (fun hmem => hflush (List.mem_cons_of_mem _ hmem))
        (fun event hmem => hevent event (List.mem_cons_of_mem _ hmem)) ?_
      refine hbefore.obey hl hchannel hobey (fun hmem => absurd hmem hnot) fun heq => ?_
      exact absurd (heq ▸ List.mem_cons_self) hflush
  | @retry l l₁ l' due deeds hok hrest ih =>
      have hnot₁ : c.id ∉ requestedIds l₁.channel := by
        have hkept := (keeps_retry l due).channel_eq
        rw [hok] at hkept
        rw [hkept]
        exact hnot
      refine ih ((hl.retry due).sound hok) hnot₁ (fun hmem => hflush (List.mem_cons_of_mem _ hmem))
        (fun event hmem => hevent event (List.mem_cons_of_mem _ hmem)) ?_
      refine hbefore.retry hl hok fun c' hc' hid hdue => ?_
      -- An established connection waits for no retry.
      rw [(hbefore c' hc' hid).1, hretry] at hdue
      cases hdue
  | @handle l l₁ l' event deeds hok hrest ih =>
      have hnot₁ : c.id ∉ requestedIds l₁.channel := by
        have hkept := (keeps_handle l event).channel_eq
        rw [hok] at hkept
        rw [hkept]
        exact hnot
      refine ih ((hl.handle event).sound hok) hnot₁
        (fun hmem => hflush (List.mem_cons_of_mem _ hmem))
        (fun event hmem => hevent event (List.mem_cons_of_mem _ hmem)) ?_
      exact Holds.handle (fun _ => hbefore) hl hok fun ht => absurd ht
        (hevent event List.mem_cons_self)
  | pause agenda journal hidles _ ih =>
      exact ih (hl.pause hidles agenda journal) hnot hflush hevent (hbefore.change rfl rfl)

/-! ## Turns after a send -/

/-- What is sent behind waiting messages makes no request, and concerns the queue alone. -/
theorem channel_sendBytes (hpending : (l.queue id).pending ≠ []) (bytes : Bytes) :
    (l.sendBytes id bytes).2.channel = l.channel := by
  have hpushes := SendQueue.pushes (l.queue id) l.kernel bytes
  unfold sendBytes
  generalize (l.queue id).push l.kernel bytes = r at hpushes ⊢
  cases hpushes with
  | refused _ | empty _ _ => rfl
  | queued _ _ _ =>
      have hempty : (l.queue id).pending.isEmpty = false := List.isEmpty_eq_false_iff.2 hpending
      rw [hempty, Bool.and_false]
  | whole _ _ _ _ hnone _ | part _ _ _ _ hnone _ _ | failed _ _ _ _ hnone _ =>
      exact absurd hnone hpending

/--
**When output comes to be watched for again.** After any history of a new loop, consider an
established connection with messages waiting whose registration does not ask for writing. Whatever
is sent on it then, and if no call fails in the turn that follows: if the connection is still
established then, and messages still wait, its registration asks for writing just when a request to
flush was in the channel already or the turn was told of an event of the connection.
-/
theorem Started.armed_after_turn_iff (h : l.Started) (actions : List Action)
    (hc : (l.after actions).connections.get? t = some c) (hstate : c.state = .connected)
    (hpending : ((l.after actions).queue c.id).pending ≠ [])
    (hunarmed : ∀ i, c.registered = some i → i.write = false) (bytes : Bytes)
    (hturn : ((l.after actions).sendBytes c.id bytes).2.turn = (.again, l'))
    (hok : Succeeds ((l.after actions).sendBytes c.id bytes).2.kernel l'.kernel) {c' : Connection}
    (hc' : l'.connections.get? t = some c') (hid : c'.id = c.id) (hstate' : c'.state = .connected)
    (hpending' : (l'.queue c.id).pending ≠ []) :
    (∃ i, c'.registered = some i ∧ i.write = true) ↔
      .flush c.id ∈ (l.after actions).channel ∨
        ∃ event ∈ ((l.after actions).sendBytes c.id bytes).2.turnEvents, event.token = t := by
  have hsound := h.sound_after actions
  have hsound₁ := hsound.sendBytes c.id bytes
  have hchannel := channel_sendBytes hpending bytes
  have hconnections := (sameSlots_sendBytes (l.after actions) c.id bytes).1
  generalize ((l.after actions).sendBytes c.id bytes).2 = l₁ at *
  have ⟨due, hdoes⟩ := does_turn hturn
  constructor
  · rintro ⟨i, hi, hwrite⟩
    by_contra hnone
    have ⟨hflush, hevent⟩ := not_or.1 hnone
    have hretry : c.retryAt = none := by
      cases hsound.shape t c hc with
      | connected _ _ _ _ hretry _ _ => exact hretry
      | inFlight hne _ _ _ _ _ | waiting hne _ _ _ _ _ => cases hne.symm.trans hstate
    have hnot : c.id ∉ requestedIds l₁.channel := by
      rw [hchannel]
      exact fun hmem => hsound.coherent.unowned_of_requested hmem t c hc rfl
    have hunchanged := hdoes.unchanged hsound₁ (t := t) (q := l₁.queue c.id) hretry hnot
      (by simpa [hchannel] using hflush) (by simpa using hevent) ?_
    · rw [(hunchanged c' hc' hid).1] at hi
      cases (hunarmed i hi).symm.trans hwrite
    · intro c'' hc'' _
      cases hc.symm.trans (hconnections ▸ hc'')
      exact ⟨rfl, rfl⟩
  · intro hoccasion
    have harmed : Holds Connection.Armed t c.id l' := hdoes.armed hsound₁ hok (.inr ?_)
    · refine harmed c' hc' hid hstate' ?_
      rw [hid, SendQueue.hasPending, Bool.not_eq_true', List.isEmpty_eq_false_iff]
      exact hpending'
    · simpa [hchannel] using hoccasion

/-- The registration fails to be changed for the first message that waits. After the second one, an
event makes up for it. -/
theorem Started.armed_after_turn_of_event :
    let l : Loop := { kernel := { plans := [{ connect := .ok, room := some 0 }] } }
    let actions : List Action :=
      [.request (.connect default {} {}), .turn, .request (.send 0 [1]),
        .happen (.script .epollCtl [.fails .ioFault]), .turn, .happen (.arrive 0 [.data [2]])]
    let l₁ := ((l.after actions).sendBytes 0 [3]).2
    l.Started ∧ .flush 0 ∉ (l.after actions).channel ∧ l₁.turn.1 = .again ∧
      Succeeds l₁.kernel l₁.turn.2.kernel ∧ ∃ c', l₁.turn.2.connections.get? 0 = some c' ∧
        ∃ i, c'.registered = some i ∧ i.write = true := by
  intro l actions l₁
  have hstarted : l.Started := ⟨{}, l.kernel, ⟨rfl, rfl, rfl⟩, rfl⟩
  let fields (c : Connection) := (c.id, c.state, c.registered)
  have hslot : ((l.after actions).connections.get? 0).map fields =
      some (0, .connected, some .reading) := by
    decide +kernel
  have hslot' : (l₁.turn.2.connections.get? 0).map (fun c => (c.id, c.state)) =
      some (0, .connected) := by
    decide +kernel
  have ⟨c, hc, hfields⟩ := Option.map_eq_some_iff.1 hslot
  have ⟨c', hc', hfields'⟩ := Option.map_eq_some_iff.1 hslot'
  have hid : c.id = 0 := congrArg (·.1) hfields
  have hstate : c.state = .connected := congrArg (·.2.1) hfields
  have hreading : c.registered = some .reading := congrArg (·.2.2) hfields
  have hid' : c'.id = 0 := congrArg (·.1) hfields'
  have hstate' : c'.state = .connected := congrArg (·.2) hfields'
  have hpending : ((l.after actions).queue 0).pending ≠ [] := by decide +kernel
  have hpending' : (l₁.turn.2.queue 0).pending ≠ [] := by decide +kernel
  have hflush : .flush 0 ∉ (l.after actions).channel := by decide +kernel
  have hagain : l₁.turn.1 = .again := by decide +kernel
  have hturn : l₁.turn = (.again, l₁.turn.2) := by rw [← hagain]
  have hok : Succeeds l₁.kernel l₁.turn.2.kernel := by
    unfold Succeeds
    decide +kernel
  have hevent : ∃ event ∈ l₁.turnEvents, event.token = 0 := by decide +kernel
  have hunarmed : ∀ i, c.registered = some i → i.write = false := by
    rintro i hi
    cases hreading.symm.trans hi
    rfl
  have hsent : ((l.after actions).sendBytes c.id [3]).2 = l₁ := by rw [hid]
  rw [← hid] at hpending hpending'
  clear_value l₁
  subst hsent
  have harmed :=
    (hstarted.armed_after_turn_iff actions hc hstate hpending hunarmed [3] hturn hok hc'
      (hid'.trans hid.symm) hstate' hpending').2 (.inr hevent)
  exact ⟨hstarted, hflush, hagain, hok, c', hc', harmed⟩

/-- Without an event, nothing makes up for it: the second message was accepted, no call failed
since, and still nobody watches for the socket to take bytes. -/
theorem Started.unarmed_after_turn :
    let l : Loop := { kernel := { plans := [{ connect := .ok, room := some 0 }] } }
    let actions : List Action :=
      [.request (.connect default {} {}), .turn, .request (.send 0 [1]),
        .happen (.script .epollCtl [.fails .ioFault]), .turn]
    let sent := (l.after actions).sendBytes 0 [3]
    l.Started ∧ ((l.after actions).connections.get? 0).map (·.state) = some .connected ∧
      ((l.after actions).queue 0).pending = [[1]] ∧
      (∃ call ∈ (l.after actions).kernel.calls.toList, Kernel.isRefusal call = true) ∧
      sent.1 = .ok .queued ∧ sent.2.turn.1 = .again ∧
      Succeeds sent.2.kernel sent.2.turn.2.kernel ∧
      (sent.2.turn.2.connections.get? 0).map (fun c => (c.state, c.registered)) =
        some (.connected, some .reading) ∧
      (sent.2.turn.2.queue 0).pending = [[1], [3]] := by
  intro l actions sent
  have hok : Succeeds sent.2.kernel sent.2.turn.2.kernel := by
    unfold Succeeds
    decide +kernel
  refine ⟨⟨{}, l.kernel, ⟨rfl, rfl, rfl⟩, rfl⟩, ?_⟩
  refine ⟨by decide +kernel, by decide +kernel, by decide +kernel, by decide +kernel,
    by decide +kernel, hok, by decide +kernel, by decide +kernel⟩

end Loop

end TextLink
