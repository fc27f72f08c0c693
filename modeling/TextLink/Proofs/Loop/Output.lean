import TextLink.Proofs.Connection.Watching
import TextLink.Proofs.Loop.Preservation

/-!
# No output is stranded

A message that waits on an established connection goes out when the socket takes more bytes and the
loop is told so. Either the registration asks for that, or a producer has asked for it to do so and
the request is still in the channel (`Minds`). Producers ask only when the first message comes to
wait; every move of the loop has to leave the rest of the queue minded.

A call that was to change what is watched may fail, and then nobody minds. Failures of all other
calls change nothing.

## Main results

* `Follows` — what every move keeps, with one lemma for each kind of move (`follows_move`).
* `Started.output_minded_after` — after every history of a new loop, no output is stranded.
-/

namespace TextLink.Loop

open Link (Leads)

variable {l l' l'' : Loop} {t id : Nat} {c : Connection} {k : Link} {progress : Progress}

/-- Messages that wait for connection `c` are watched for, or are yet to be. -/
def Minds (l : Loop) (c : Connection) : Prop := (l.link c).Attends ∨ .flush c.id ∈ l.channel

/-- Messages that wait are minded, whichever connection they wait for. -/
def Attentive (l : Loop) : Prop := ∀ t c, l.connections.get? t = some c → l.Minds c

/-- `l'` comes from `l` by making more calls, and is attentive if `l` is and no call was refused. -/
structure Follows (l l' : Loop) : Prop where
  calls_prefix : l.kernel.calls.toList <+: l'.kernel.calls.toList
  attentive : l'.kernel.Obeyed → l.Attentive → l'.Attentive

theorem Vacant.attentive (h : l.Vacant) : l.Attentive := fun t c hc => by
  rw [h t] at hc
  cases hc

theorem Minds.congr (h : l.Minds c) (hq : l'.queue c.id = l.queue c.id)
    (hchannel : .flush c.id ∈ l.channel → .flush c.id ∈ l'.channel) : l'.Minds c := by
  refine h.imp (fun hattends => ?_) hchannel
  intro hstate hp
  have hp : (l'.queue c.id).hasPending = true := hp
  rw [hq] at hp
  exact hattends hstate hp

namespace Follows

theorem trans (h : Follows l l') (h' : Follows l' l'') : Follows l l'' where
  calls_prefix := h.calls_prefix.trans h'.calls_prefix
  attentive hobeyed hl := h'.attentive hobeyed (h.attentive (hobeyed.of_prefix h'.calls_prefix) hl)

/-- A change that concerns neither connections nor what waits for them. -/
theorem of_change (hcalls : l.kernel.calls.toList <+: l'.kernel.calls.toList)
    (hconnections : l'.connections = l.connections) (hqueues : l'.queues = l.queues)
    (hchannel : ∀ id, .flush id ∈ l.channel → .flush id ∈ l'.channel) : Follows l l' where
  calls_prefix := hcalls
  attentive _ hl t c hc := by
    refine (hl t c (hconnections ▸ hc)).congr ?_ (hchannel c.id)
    rw [queue, queue, hqueues]

theorem refl (l : Loop) : Follows l l := of_change (List.prefix_refl _) rfl rfl fun _ => id

theorem note (h : Follows l l') (rs : List LogRecord) : Follows l (l'.note rs) :=
  h.trans (of_change (List.prefix_refl _) rfl rfl fun _ => id)

theorem apply (h : Follows l l') (t : Nat) (progress : Progress) :
    Follows l (l'.apply t progress) := by
  apply h.trans
  cases progress with
  | ongoing => exact .refl l'
  | retry deadline => exact of_change (List.prefix_refl _) rfl rfl fun _ => id
  | closed =>
      constructor
      · exact List.prefix_refl _
      · intro _ hl t' c hc
        have hc : (l'.connections.remove t).2.get? t' = some c := hc
        rw [SlotTable.get?_remove] at hc
        by_cases ht : t' = t
        · rw [if_pos ht] at hc
          cases hc
        · rw [if_neg ht] at hc
          exact hl t' c hc

end Follows

/-! ## What becomes of a connection -/

/-- A connection whose output is minded after it has acted, among others whose output is. -/
theorem attentive_absorb (h : l.Coherent) (hc : l.connections.get? t = some c)
    (hk : Leads (l.link c) k)
    (hothers : ∀ t' c', t' ≠ t → l.connections.get? t' = some c' → l.Minds c')
    (hself : k.Attends ∨ .flush c.id ∈ l.channel) : (l.absorb t k).Attentive := by
  intro t' c' hc'
  rcases slot_absorb hc hc' with ⟨_, rfl⟩ | ⟨hne, hc'⟩
  · unfold Minds
    rw [h.link_self hc hk, id_eq hk]
    exact hself
  · exact (hothers t' c' hne hc').congr (h.queue_other hc hk hc' hne) id

/-- A connection that acts, and either minds its output then or needs no more than before. -/
theorem Follows.acts (h : l.Coherent) (hacts : Acts l t c progress k)
    (hself : k.kernel.Obeyed → k.Attends ∨ Link.Lets (l.link c) k) :
    Follows l ((l.absorb t k).apply t progress) := by
  refine Follows.apply ⟨hacts.leads.touches.calls_prefix, fun hobeyed hl => ?_⟩ t progress
  refine attentive_absorb h hacts.slot hacts.leads (fun t' c' _ hc' => hl t' c' hc') ?_
  rcases hself hobeyed with hattends | hlets
  · exact .inl hattends
  · exact (hl t c hacts.slot).imp_left hlets.attends

/-- An attempt to connect. -/
theorem follows_attempts (h : l.Coherent) (hattempts : Attempts l t c (.ok (), l')) :
    Follows l l' := by
  cases hattempts with
  | made hacts _ hconnect =>
      have hattends := Link.attends_connect (l.link c)
      rw [hconnect] at hattends
      exact .acts h hacts fun _ => .inl hattends

/-! ## Requests -/

theorem follows_told (l : Loop) (command : Command) : Follows l (l.told command) :=
  .of_change (List.prefix_refl _) rfl rfl fun _ => List.mem_append_left _

theorem follows_joined (h : l.Coherent) (address : Address) (handler : Handler)
    (options : ConnectOptions) : Follows l (l.joined address handler options) where
  calls_prefix := List.prefix_refl _
  attentive _ hl t c hc := by
    have hne : c.id ≠ l.queues.length := Nat.ne_of_lt (h.lives hc).id_lt
    have hqueue := (queue_joined l address handler options c.id).trans (if_neg hne)
    exact (hl t c hc).congr hqueue (List.mem_append_left _)

/-- A queue that grows is minded if the loop is asked to, or if messages waited in it before. -/
theorem follows_queue (hcalls : l.kernel.calls.toList <+: l'.kernel.calls.toList)
    (hconnections : l'.connections = l.connections)
    (hothers : ∀ id', id' ≠ id → l'.queue id' = l.queue id')
    (hchannel : ∀ id', .flush id' ∈ l.channel → .flush id' ∈ l'.channel)
    (hself : ∀ t c, l.connections.get? t = some c → c.id = id → .flush id ∈ l'.channel ∨
      (c.state = .connected → (l'.queue id).hasPending = true → (l.queue id).hasPending = true)) :
    Follows l l' where
  calls_prefix := hcalls
  attentive _ hl t c hc := by
    have hc := hconnections ▸ hc
    by_cases hid : c.id = id
    · subst hid
      rcases hself t c hc rfl with hflush | hpending
      · exact .inr hflush
      · rcases hl t c hc with hattends | hflush
        · left
          intro hstate hp
          exact hattends hstate (hpending hstate hp)
        · exact .inr (hchannel c.id hflush)
    · exact (hl t c hc).congr (hothers c.id hid) (hchannel c.id)

theorem calls_prefix_offered (l : Loop) (id : Nat) (bytes : Bytes) :
    l.kernel.calls.toList <+: (l.offered id bytes).kernel.calls.toList :=
  have ⟨_, hserves⟩ := Kernel.serves_push (l.queue id) l.kernel bytes
  hserves.calls_prefix

theorem queue_offered_of_ne {id' : Nat} (hid : id' ≠ id) (bytes : Bytes) :
    (l.offered id bytes).queue id' = l.queue id' := by
  rw [queue_offered, if_neg fun hboth => hid hboth.1]

/-- Unless a flush is called for, messages waited before if any wait on an
established connection. -/
theorem follows_offered (h : l.Sound) (bytes : Bytes)
    (hquiet : ((l.queue id).push l.kernel bytes).1 ≠ .ok (.queued true)) :
    Follows l (l.offered id bytes) := by
  have hedge := (SendQueue.pushes (l.queue id) l.kernel bytes).edge.resolve_left hquiet
  refine follows_queue (calls_prefix_offered l id bytes) rfl
    (fun _ hid => queue_offered_of_ne hid bytes) (fun _ hmem => hmem) fun t c hc hid => ?_
  right
  intro hstate hp
  rw [queue_offered, if_pos ⟨rfl, hid ▸ (h.coherent.lives hc).id_lt⟩] at hp
  have hqueue : (l.queue id).state = .connected := by
    cases h.shape t c hc with
    | connected _ _ _ _ _ _ hqueue => exact hid ▸ hqueue
    | inFlight hne _ _ _ _ _ | waiting hne _ _ _ _ _ => cases hne.symm.trans hstate
  exact hedge hqueue hp

/-- A flush that is called for minds whatever waits then. -/
theorem follows_armed (l : Loop) (id : Nat) (bytes : Bytes) :
    Follows l ((l.offered id bytes).told (.flush id)) :=
  follows_queue (calls_prefix_offered l id bytes) rfl
    (fun _ hid => queue_offered_of_ne hid bytes) (fun _ => List.mem_append_left _)
    fun _ _ _ _ => .inl (List.mem_append_right _ (List.mem_singleton_self _))

theorem follows_request (h : l.Sound) (r : Request) : Follows l (l.request r).2 := by
  have hasked := asked l r
  generalize (l.request r).2 = l' at hasked ⊢
  cases hasked with
  | refused => exact .refl l
  | told => exact follows_told l _
  | joined address handler options => exact follows_joined h.coherent address handler options
  | offered id bytes hquiet => exact follows_offered h bytes hquiet
  | armed id bytes => exact follows_armed l id bytes
  | stranded id bytes hended =>
      -- Nobody flushes for a loop that is gone, and it has no connections.
      have hvacant : Follows l (l.offered id bytes) :=
        ⟨calls_prefix_offered l id bytes, fun _ _ => Vacant.attentive (h.coherent.ended hended).1⟩
      exact hvacant.note _

/-! ## Commands -/

/-- A command that is no request to flush may be taken. -/
theorem follows_take {command : Command} {later : List Command}
    (hchannel : l.channel = command :: later) (hno : ∀ id, command ≠ .flush id) :
    Follows l { l with channel := later } := by
  refine .of_change (List.prefix_refl _) rfl rfl ?_
  intro id hmem
  rw [hchannel] at hmem
  exact (List.mem_cons.1 hmem).resolve_left (hno id).symm

/-- Taking a request to flush concerns that queue alone. -/
theorem minds_taken {later : List Command} (hchannel : l.channel = .flush id :: later)
    (hne : c.id ≠ id) (h : l.Minds c) : Minds { l with channel := later } c := by
  refine h.congr rfl fun hmem => ?_
  rw [hchannel] at hmem
  rcases List.mem_cons.1 hmem with heq | hmem
  · cases heq
    exact absurd rfl hne
  · exact hmem

/-- A connection that is new has no output. -/
theorem follows_enrol (h : l.Coherent) (hlt : id < l.queues.length) (hid : l.Unowned id)
    {make : Nat → Connection} (hmake : Newborn id make) : Follows l (l.enrol id make) := by
  constructor
  · exact List.prefix_refl _
  · intro _ hl t c hc
    rcases slot_enrol h.table hc with ⟨_, rfl⟩ | ⟨_, hc⟩
    · left
      apply Link.attends_of_state_ne
      intro hstate
      cases (hmake.state t).symm.trans hstate
    · exact (hl t c hc).congr (queue_enrol_other hlt hid make hc) fun hmem => hmem

/-- Every command that is obeyed. A request to flush is gone then, but it was followed. -/
theorem follows_obey (h : l.Sound) {command : Command} {later : List Command}
    (hchannel : l.channel = command :: later)
    (hok : { l with channel := later }.obey command = (.ok (), l')) : Follows l l' := by
  have htaken := h.take hchannel
  have hobeys := h.obeys hchannel
  rw [hok] at hobeys
  have htake (hno : ∀ id, command ≠ .flush id) : Follows l { l with channel := later } :=
    follows_take hchannel hno
  cases hobeys with
  | @connect id address handler options _ hattempts =>
      have ⟨hunowned, hawaits, _, _⟩ := h.coherent.awaits hchannel
      have henrol : Follows { l with channel := later } _ :=
        follows_enrol htaken.coherent hawaits.id_lt hunowned
          (newborn_requested id address handler options)
      have hcoherent := (h.enrol_requested hchannel).coherent
      exact ((htake fun _ => nofun).trans henrol).trans (follows_attempts hcoherent hattempts)
  | @flush id t c hid hacts rs =>
      refine Follows.note ⟨hacts.leads.touches.calls_prefix, fun hobeyed hl => ?_⟩ rs
      have hshape := htaken.shape t c hacts.slot
      refine attentive_absorb htaken.coherent hacts.slot hacts.leads (fun t' c' hne hc' => ?_) ?_
      · refine minds_taken hchannel (fun heq => ?_) (hl t' c' hc')
        exact hne (htaken.coherent.slot_eq hc' hacts.slot (heq.trans hid.symm))
      · exact .inl (Link.rearm_attends hshape.exists_socket (hobeyed.heeded _)).2
  | flushNobody hunowned =>
      refine ⟨List.prefix_refl _, fun _ hl t c hc => ?_⟩
      exact minds_taken hchannel (hunowned t c hc) (hl t c hc)
  | close _ hacts =>
      have hclosed := Follows.acts htaken.coherent hacts fun _ => .inl (Link.attends_close _)
      exact (htake fun _ => nofun).trans hclosed
  | closeNobody _ | shutdown => exact htake fun _ => nofun

/-! ## Retries, events and registrations -/

theorem follows_retry (h : l.Sound) {due : Appointment} (hok : l.retry due = (.ok (), l')) :
    Follows l l' := by
  have hretries := h.retries due
  rw [hok] at hretries
  cases hretries with
  | attempt _ hattempts => exact follows_attempts h.coherent hattempts
  | outdated _ => exact .refl l

theorem follows_handle (h : l.Sound) {event : Event} (hok : l.handle event = (.ok (), l')) :
    Follows l l' := by
  have hattends {c : Connection} (hc : l.connections.get? event.token = some c) :=
    Link.handleEvent_attends (l := l.link c) (h.shape event.token c hc) event
  have hhandles := h.handles event
  rw [hok] at hhandles
  cases hhandles with
  | nobody _ => exact .refl l
  | served hacts hr =>
      have hattends := hattends hacts.slot
      rw [hr] at hattends
      exact .acts h.coherent hacts hattends
  | skipped hacts hr rs =>
      have hattends := hattends hacts.slot
      rw [hr] at hattends
      exact (Follows.acts h.coherent hacts hattends).note rs

theorem follows_rearmSlot (h : l.Sound) (t : Nat) : Follows l (l.rearmSlot t) := by
  rcases h.rearms t with heq | ⟨c, rs, hacts, heq⟩ <;> rw [heq]
  · exact .refl l
  · refine (Follows.acts h.coherent hacts fun hobeyed => .inl ?_).note rs
    exact (Link.rearm_attends (h.shape t c hacts.slot).exists_socket (hobeyed.heeded _)).2

/-! ## Moves and histories -/

/-- Every move leaves output minded, or no connection at all. -/
theorem follows_move {m m' : Moment} (h : m.loop.Sound) (hmove : Move m m') :
    m'.loop.Vacant ∨ Follows m.loop m'.loop := by
  cases hmove with
  | request l r later => exact .inr (follows_request h r)
  | happen l happening later =>
      have hcalls := Kernel.calls_happen l.kernel happening
      exact .inr (.of_change (hcalls ▸ List.prefix_refl _) rfl rfl fun _ hmem => hmem)
  | obey hchannel hok => exact .inr (follows_obey h hchannel hok)
  | takeDue l => exact .inr (.of_change (List.prefix_refl _) rfl rfl fun _ hmem => hmem)
  | retry later hok => exact .inr (follows_retry h hok)
  | handle hok => exact .inr (follows_handle h hok)
  | rearm l token => exact .inr (follows_rearmSlot h token)
  | idle l hidle => exact .inr (.of_change hidle.calls_prefix rfl rfl fun _ hmem => hmem)
  | note l rs => exact .inr ((Follows.refl l).note rs)
  | fault later hfault => exact .inl (hfault.ending h).drop.2
  | finish l => exact .inl h.ending.closeAll.2
  | drop l => exact .inl h.ending.drop.2

/-- Any number of moves leaves output minded, if no call was refused. -/
theorem attentive_moves {m m' : Moment} (h : m.loop.Sound) (hl : m.loop.Attentive)
    (hmoves : Moves m m') (hobeyed : m'.loop.kernel.Obeyed) : m'.loop.Attentive := by
  induction hmoves with
  | refl => exact hl
  | tail hbefore hmove ih =>
      rcases follows_move (h.moves hbefore) hmove with hvacant | hfollows
      · exact hvacant.attentive
      · exact hfollows.attentive hobeyed (ih (hobeyed.of_prefix hfollows.calls_prefix))

/-- The kernel tells when the socket of connection `c` in slot `t` takes bytes. -/
def WatchesWrites (l : Loop) (t : Nat) (c : Connection) : Prop :=
  ∃ s r, c.socket = some s ∧ l.kernel.Open s ∧ r ∈ l.kernel.registrations ∧
    r.descriptor = l.kernel.descriptor s ∧ r.token = t ∧ r.interest.write = true

theorem Coherent.watchesWrites (h : l.Coherent) (hc : l.connections.get? t = some c)
    {i : Interest} (hr : c.registered = some i) (hi : i.write = true) : l.WatchesWrites t c := by
  have hsound := (h.lives hc).link
  have ⟨s, hs, hmem⟩ := hsound.watched.mem_watches i hr
  have ⟨hregistered, hd⟩ := Kernel.mem_watches.1 hmem
  refine ⟨s, _, hs, hsound.open_of_holds s (Link.holds_iff.2 (.inl hs)), hregistered, hd, ?_, hi⟩
  exact (h.lives hc).token_eq

/--
**No output is stranded.** After every history of a new loop, if no call that was to change what is
watched has failed, a message that waits on an established connection goes out once the socket takes
bytes, or once the loop takes the commands in its channel.
-/
theorem Started.output_minded_after (h : l.Started) (actions : List Action)
    (hobeyed : (l.after actions).kernel.Obeyed)
    (hc : (l.after actions).connections.get? t = some c) (hstate : c.state = .connected)
    (hpending : ((l.after actions).queue c.id).pending ≠ []) :
    (l.after actions).WatchesWrites t c ∨ .flush c.id ∈ (l.after actions).channel := by
  have hsound := h.sound_after actions
  have hattentive : (l.after actions).Attentive :=
    attentive_moves (m := ⟨l, []⟩) h.sound h.vacant.attentive (moves_after l actions) hobeyed
  have hp : ((l.after actions).queue c.id).hasPending = true := by
    rw [SendQueue.hasPending, Bool.not_eq_true', List.isEmpty_eq_false_iff]
    exact hpending
  rcases hattentive t c hc with hattends | hflush
  · obtain ⟨i, hr, hi⟩ := hattends hstate hp
    exact .inl (hsound.coherent.watchesWrites hc hr hi)
  · exact .inr hflush

/-- A peer that takes three bytes of five: the rest is watched for after the next turn. -/
theorem Started.output_minded_after_short_write :
    let l : Loop := { kernel := { plans := [{ connect := .ok, room := some 3 }] } }
    let actions : List Action :=
      [.request (.connect default {} {}), .turn, .request (.send 0 [1, 2, 3, 4, 5]), .turn]
    l.Started ∧ (l.after actions).kernel.Obeyed ∧
      ∃ c, (l.after actions).connections.get? 0 = some c ∧
      c.state = .connected ∧ ((l.after actions).queue c.id).pending ≠ [] ∧
      (l.after actions).WatchesWrites 0 c := by
  intro l actions
  have hstarted : l.Started := ⟨{}, l.kernel, ⟨rfl, rfl, rfl⟩, rfl⟩
  have hobeyed : ∀ c ∈ (l.after actions).kernel.calls.toList, Kernel.isRefusal c = false := by
    decide +kernel
  have hslot : ((l.after actions).connections.get? 0).map (fun c => (c.id, c.state)) =
      some (0, .connected) := by
    decide +kernel
  have ⟨c, hc, hfields⟩ := Option.map_eq_some_iff.1 hslot
  have hid : c.id = 0 := congrArg Prod.fst hfields
  have hstate : c.state = .connected := congrArg Prod.snd hfields
  have hpending : ((l.after actions).queue c.id).pending ≠ [] := by
    rw [hid]
    decide +kernel
  have hchannel : (l.after actions).channel = [] := by
    decide +kernel
  refine ⟨hstarted, hobeyed, c, hc, hstate, hpending, ?_⟩
  refine (hstarted.output_minded_after actions hobeyed hc hstate hpending).resolve_right ?_
  rw [hchannel]
  exact List.not_mem_nil

end TextLink.Loop
