import TextLink.Proofs.Loop.Lasting
import TextLink.Proofs.Loop.Preservation

/-!
# Every requested connection is accounted for

A connection that was requested is waiting for its request to be taken, or lives in a slot, or is
over. These are its fates (`Fate`), and while the loop lasts it has exactly one of them.

A queue knows of its end only that it is closed, and being connected again would open it. That this
never happens is a matter of the whole loop: the only ones to connect a queue are a connection in
the table, which owns it, and a request in the channel, and what is over has neither (`Over`). So a
step is to be looked at in two ways (`Passes`): what is over stays so, and what it takes from a fate
it gives another one. Being dropped is the one step that may leave a request without a fate.

## Main results

* `Over.moves`, `Over.sendBytes` — what is over stays over, and takes no message.
* `Started.existsUnique_fate` — every requested connection has exactly one fate.
-/

namespace TextLink.Loop

open Link (Leads)

variable {l l' l'' : Loop} {t t' id : Nat} {c : Connection} {k : Link} {progress : Progress}

/-! ## Connections that are over -/

/-- Connection number `id` is over: nobody has it, and its queue is closed. -/
structure Over (l : Loop) (id : Nat) : Prop where
  state : (l.queue id).state = .closed
  pending : (l.queue id).pending = []
  writer : (l.queue id).writer = none
  unowned : l.Unowned id

theorem Over.id_lt (h : l.Over id) : id < l.queues.length := by
  rcases Nat.lt_or_ge id l.queues.length with hlt | hge
  · exact hlt
  · have hstate := h.state
    rw [queue, List.getElem?_eq_none hge] at hstate
    cases hstate

theorem Over.congr (h : l.Over id) (hqueue : l'.queue id = l.queue id)
    (hconnections : ∀ t c, l'.connections.get? t = some c → c.id = id →
      ∃ t c, l.connections.get? t = some c ∧ c.id = id) : l'.Over id where
  state := hqueue ▸ h.state
  pending := hqueue ▸ h.pending
  writer := hqueue ▸ h.writer
  unowned t c hc hid := by
    have ⟨t', c', hc', hid'⟩ := hconnections t c hc hid
    exact h.unowned t' c' hc' hid'

theorem Over.refusal (h : l.Over id) : (l.queue id).refusal = some .notConnected := by
  rw [SendQueue.refusal, if_pos h.state]

/-- What is sent on a connection that is over is refused. -/
theorem Over.sendBytes (h : l.Over id) (bytes : Bytes) :
    l.sendBytes id bytes = (.error .notConnected, l) := by
  have hset : l.queues.set id (l.queue id) = l.queues := by
    rw [queue, List.getElem?_eq_getElem h.id_lt]
    exact List.set_getElem_self h.id_lt
  unfold Loop.sendBytes
  rw [SendQueue.push_of_refusal l.kernel bytes h.refusal]
  simp only [hset]

/-! ## Steps that lose no connection -/

/-- Every requested connection waits for its request to be taken, or has a slot, or is over. -/
def Accounted (l : Loop) : Prop :=
  ∀ id < l.queues.length, id ∈ requestedIds l.channel ∨ ¬ l.Unowned id ∨ l.Over id

/-- What becomes of connections on the way from `l` to `l'`. -/
structure Passes (l l' : Loop) : Prop where
  length_le : l.queues.length ≤ l'.queues.length
  stays_over : ∀ id, l.Over id → l'.Over id
  accounted : l.Accounted → l'.Accounted

theorem Passes.refl (l : Loop) : Passes l l := ⟨Nat.le_refl _, fun _ h => h, id⟩

theorem Passes.trans (h : Passes l l') (h' : Passes l' l'') : Passes l l'' :=
  ⟨Nat.le_trans h.length_le h'.length_le, fun id hover => h'.stays_over id (h.stays_over id hover),
    fun hl => h'.accounted (h.accounted hl)⟩

/-- The connections stay, and no request is taken. -/
theorem Passes.of_kept (hconnections : l'.connections = l.connections)
    (hlen : l'.queues.length = l.queues.length)
    (hids : requestedIds l.channel ⊆ requestedIds l'.channel)
    (hqueue : ∀ id, l.Over id → l'.queue id = l.queue id) : Passes l l' := by
  have hover : ∀ id, l.Over id → l'.Over id := fun id h =>
    h.congr (hqueue id h) fun t c hc hid => ⟨t, c, hconnections ▸ hc, hid⟩
  refine ⟨Nat.le_of_eq hlen.symm, hover, fun h id hlt => ?_⟩
  rcases h id (hlen ▸ hlt) with hrequested | howned | h
  · exact .inl (hids hrequested)
  · exact .inr (.inl fun hid => howned fun t c hc => hid t c (hconnections ▸ hc))
  · exact .inr (.inr (hover id h))

/-- What no connection and no queue is concerned with changes. -/
theorem Passes.of_change (hconnections : l'.connections = l.connections)
    (hqueues : l'.queues = l.queues)
    (hids : requestedIds l.channel ⊆ requestedIds l'.channel) : Passes l l' :=
  .of_kept hconnections (congrArg List.length hqueues) hids fun id _ => by
    rw [queue, queue, hqueues]

/-! ## Requests -/

theorem Passes.note (h : Passes l l') (rs : List LogRecord) : Passes l (l'.note rs) :=
  h.trans (.of_change rfl rfl (List.Subset.refl _))

/-- A command more loses nobody. -/
theorem passes_told (l : Loop) (command : Command) : Passes l (l.told command) := by
  refine .of_change rfl rfl ?_
  show requestedIds l.channel ⊆ requestedIds (l.channel ++ [command])
  rw [requestedIds_append]
  exact List.subset_append_left _ _

theorem passes_joined (l : Loop) (address : Address) (handler : Handler)
    (options : ConnectOptions) : Passes l (l.joined address handler options) := by
  have hlen := length_joined l address handler options
  have hids : requestedIds (l.joined address handler options).channel =
      requestedIds l.channel ++ [l.queues.length] := requestedIds_append _ _
  have hover (id : Nat) (h : l.Over id) : (l.joined address handler options).Over id := by
    refine h.congr ?_ fun t c hc hid => ⟨t, c, hc, hid⟩
    exact (queue_joined l address handler options id).trans (if_neg (Nat.ne_of_lt h.id_lt))
  refine ⟨hlen ▸ Nat.le_succ _, hover, fun h id hlt => ?_⟩
  rw [hlen] at hlt
  rw [hids]
  rcases Nat.lt_or_eq_of_le (Nat.le_of_lt_succ hlt) with hlt | rfl
  · rcases h id hlt with hrequested | howned | h
    · exact .inl (List.mem_append_left _ hrequested)
    · exact .inr (.inl howned)
    · exact .inr (.inr (hover id h))
  · exact .inl (List.mem_append_right _ List.mem_cons_self)

theorem passes_offered (l : Loop) (id : Nat) (bytes : Bytes) : Passes l (l.offered id bytes) := by
  refine .of_kept rfl List.length_set (List.Subset.refl _) fun id' h' => ?_
  rw [queue_offered]
  split
  · -- What is over refuses what it is offered.
    next heq => rw [← heq.1, SendQueue.push_of_refusal l.kernel bytes h'.refusal]
  · rfl

theorem passes_request (l : Loop) (r : Request) : Passes l (l.request r).2 := by
  have hasked := asked l r
  generalize (l.request r).2 = l' at hasked ⊢
  cases hasked with
  | refused => exact .refl l
  | told => exact passes_told l _
  | joined address handler options => exact passes_joined l address handler options
  | offered id bytes => exact passes_offered l id bytes
  | armed id bytes => exact (passes_offered l id bytes).trans (passes_told _ _)
  | stranded id bytes => exact (passes_offered l id bytes).note _

/-! ## What becomes of a connection -/

/-- A connection acts. What is over is none of its business. -/
theorem passes_absorb (h : l.Coherent) (hc : l.connections.get? t = some c)
    (hk : Leads (l.link c) k) : Passes l (l.absorb t k) := by
  have hover (id : Nat) (hid : l.Over id) : (l.absorb t k).Over id := by
    refine hid.congr (h.queue_unowned hc hk hid.unowned) fun t' c' hc' heq => ?_
    rcases slot_absorb hc hc' with ⟨_, rfl⟩ | ⟨_, hc'⟩
    · exact ⟨t, c, hc, (id_eq hk).symm.trans heq⟩
    · exact ⟨t', c', hc', heq⟩
  have hlen : (l.absorb t k).queues.length = l.queues.length := List.length_set
  refine ⟨Nat.le_of_eq hlen.symm, hover, fun hl id hlt => ?_⟩
  rcases hl id (hlen ▸ hlt) with hrequested | howned | hid
  · exact .inl hrequested
  · exact .inr (.inl fun hid => howned (Coherent.unowned_of_absorb hc hk hid))
  · exact .inr (.inr (hover id hid))

/-- A connection that leaves its slot is over, if its queue is closed. -/
theorem passes_remove (h : l.Coherent) (hc : l.connections.get? t = some c)
    (hstate : (l.queue c.id).state = .closed) (hpending : (l.queue c.id).pending = [])
    (hwriter : (l.queue c.id).writer = none) : Passes l (l.apply t .closed) := by
  have hover (id : Nat) (hid : l.Over id) : (l.apply t .closed).Over id :=
    hid.congr rfl fun t' c' hc' heq => ⟨t', c', (slot_remove hc').2, heq⟩
  refine ⟨Nat.le_refl _, hover, fun hl id hlt => ?_⟩
  rcases hl id hlt with hrequested | howned | hid
  · exact .inl hrequested
  · by_cases heq : c.id = id
    · subst heq
      refine .inr (.inr ⟨hstate, hpending, hwriter, fun t' c' hc' heq => ?_⟩)
      have ⟨hne, hc'⟩ := slot_remove hc'
      exact hne (h.slot_eq hc' hc heq)
    · refine .inr (.inl fun hid => howned fun t' c' hc' heq' => ?_)
      refine hid t' c' ?_ heq'
      show (l.connections.remove t).2.get? t' = some c'
      rw [SlotTable.get?_remove, if_neg]
      · exact hc'
      · intro ht
        subst ht
        cases hc.symm.trans hc'
        exact heq heq'
  · exact .inr (.inr (hover id hid))

/-- A connection acts, and leaves its slot with a closed queue. -/
theorem passes_absorb_remove (h : l.Coherent) (hc : l.connections.get? t = some c)
    (hk : Leads (l.link c) k) (hstate : k.queue.state = .closed) (hpending : k.queue.pending = [])
    (hwriter : k.queue.writer = none) : Passes l ((l.absorb t k).apply t .closed) := by
  have hself : (l.absorb t k).connections.get? t = some k.conn :=
    get?_absorb_self hc
  have hqueue := h.queue_self hc hk
  refine (passes_absorb h hc hk).trans (passes_remove (h.absorb hc hk) hself ?_ ?_ ?_)
  · rw [hqueue, hstate]
  · rw [hqueue, hpending]
  · rw [hqueue, hwriter]

theorem passes_acts (h : l.Coherent) (hacts : Acts l t c progress k) :
    Passes l ((l.absorb t k).apply t progress) := by
  have habsorb := passes_absorb h hacts.slot hacts.leads
  have hsettled := hacts.settled
  cases progress with
  | ongoing => exact habsorb
  | retry deadline => exact habsorb.trans (.of_change rfl rfl (List.Subset.refl _))
  | closed =>
      exact passes_absorb_remove h hacts.slot hacts.leads hsettled.queue hsettled.pending
        hsettled.writer

/-- An attempt to connect, also one that ends in a fault. -/
theorem passes_attempts (h : l.Coherent) {r : Except Fault Unit × Loop}
    (hattempts : Attempts l t c r) : Passes l r.2 := by
  cases hattempts with
  | made hacts _ _ => exact passes_acts h hacts
  | broken hbreaks => exact passes_absorb h hbreaks.slot hbreaks.leads

theorem passes_close (h : l.Coherent) (hc : l.connections.get? t = some c)
    (hstate : c.state ≠ .closed) : Passes l ((l.absorb t (l.link c).close).apply t .closed) := by
  have hleads := (Link.Leaves.refl (h.lives hc).link).close
  have hqueue : (l.link c).close.queue = (l.queue c.id).close.2 := Link.queue_close hstate
  apply passes_absorb_remove h hc hleads
  all_goals
    rw [hqueue]
    rfl

/-! ## Commands -/

/-- A request is taken, and the connection gets a slot. -/
theorem passes_enrol (h : l.Sound) {later : List Command} {address : Address} {handler : Handler}
    {options : ConnectOptions}
    (hchannel : l.channel = .connect id address handler options :: later) :
    Passes l
      (Loop.enrol { l with channel := later } id (requested id address handler options)) := by
  have ⟨_, hawaits, _, _⟩ := h.coherent.awaits hchannel
  have htable := h.coherent.table
  let make := requested id address handler options
  let taken : Loop := { l with channel := later }
  have hover (id' : Nat) (hid : l.Over id') : (taken.enrol id make).Over id' := by
    have hne : id' ≠ id := by
      rintro rfl
      cases hawaits.state.symm.trans hid.state
    have hqueue : (taken.enrol id make).queue id' = l.queue id' :=
      (queue_enrol (l := taken) hawaits.id_lt make).trans (if_neg hne)
    refine hid.congr hqueue fun t c hc heq => ?_
    rcases slot_enrol (l := taken) htable hc with ⟨_, rfl⟩ | ⟨_, hc⟩
    · exact absurd heq.symm hne
    · exact ⟨t, c, hc, heq⟩
  have hlen : (taken.enrol id make).queues.length = l.queues.length := List.length_modify _ _ _
  refine ⟨Nat.le_of_eq hlen.symm, hover, fun hl id' hlt => ?_⟩
  rcases hl id' (hlen ▸ hlt) with hrequested | howned | hid
  · have hids : requestedIds l.channel = id :: requestedIds later := by
      rw [hchannel]
      rfl
    rw [hids] at hrequested
    rcases List.mem_cons.1 hrequested with rfl | hrequested
    · exact .inr (.inl fun hid => hid _ _ (get?_enrol_self (l := taken) htable id' make) rfl)
    · exact .inl hrequested
  · refine .inr (.inl fun hid => howned fun t c hc => ?_)
    exact hid t c (get?_enrol_other (l := taken) htable hc)
  · exact .inr (.inr (hover id' hid))

/-- A command that is no request for a connection is taken. -/
theorem passes_take {command : Command} {later : List Command}
    (hchannel : l.channel = command :: later) (hnone : requestedIds [command] = []) :
    Passes l { l with channel := later } := by
  refine .of_change rfl rfl ?_
  show requestedIds l.channel ⊆ requestedIds later
  rw [hchannel, ← List.singleton_append, requestedIds_append, hnone]
  exact List.Subset.refl _

/-- What comes of a command. Only a request without a buffer for its connection loses it. -/
theorem passes_obeys (h : l.Sound) {command : Command} {later : List Command}
    (hchannel : l.channel = command :: later) {r : Except Fault Unit × Loop}
    (hobeys : Obeys { l with channel := later } command r) :
    Passes l r.2 ∨ r = (.error .memory, { l with channel := later }) := by
  have htaken := (h.take hchannel).coherent
  cases hobeys with
  | connect hattempts =>
      have hcoherent := (h.enrol_requested hchannel).coherent
      exact .inl ((passes_enrol h hchannel).trans (passes_attempts hcoherent hattempts))
  | refused => exact .inr rfl
  | flush _ hacts rs =>
      exact .inl (((passes_take hchannel rfl).trans (passes_acts htaken hacts)).note rs)
  | close _ hacts => exact .inl ((passes_take hchannel rfl).trans (passes_acts htaken hacts))
  | flushNobody _ | closeNobody _ | shutdown => exact .inl (passes_take hchannel rfl)

/-! ## Retries, events and registrations -/

theorem passes_retry (h : l.Sound) (due : Appointment) : Passes l (l.retry due).2 := by
  have hretries := h.retries due
  generalize l.retry due = r at hretries ⊢
  cases hretries with
  | attempt _ hattempts => exact passes_attempts h.coherent hattempts
  | outdated _ => exact .refl l

theorem passes_handle (h : l.Sound) (event : Event) : Passes l (l.handle event).2 := by
  have hhandles := h.handles event
  generalize l.handle event = r at hhandles ⊢
  cases hhandles with
  | nobody _ => exact .refl l
  | served hacts _ => exact passes_acts h.coherent hacts
  | skipped hacts _ rs => exact (passes_acts h.coherent hacts).note rs
  | broken hbreaks => exact passes_absorb h.coherent hbreaks.slot hbreaks.leads

theorem passes_rearmSlot (h : l.Sound) (t : Nat) : Passes l (l.rearmSlot t) := by
  rcases h.rearms t with heq | ⟨c, rs, hacts, heq⟩ <;> rw [heq]
  · exact .refl l
  · exact (passes_acts h.coherent hacts).note rs

/-- A fault opens nothing that is over. -/
theorem Over.faults (h : l.Over id) (hl : l.Sound) (hfault : Faults l l') : l'.Over id := by
  cases hfault with
  | @obey command later fault hchannel heq =>
      have hobeys := hl.obeys hchannel
      rw [heq] at hobeys
      rcases passes_obeys hl hchannel hobeys with hpasses | hrefused
      · exact hpasses.stays_over id h
      · cases hrefused
        exact h.congr rfl fun t c hc hid => ⟨t, c, hc, hid⟩
  | @retry due fault heq =>
      have hpasses := passes_retry hl due
      rw [heq] at hpasses
      exact hpasses.stays_over id h
  | @handle event fault heq =>
      have hpasses := passes_handle hl event
      rw [heq] at hpasses
      exact hpasses.stays_over id h

/-! ## Ending -/

theorem passes_closeSlots (h : l.Ending) (tokens : List Nat) :
    Passes l (tokens.foldl Loop.closeSlot l) := by
  induction tokens generalizing l with
  | nil => exact .refl l
  | cons token later ih =>
      refine Passes.trans ?_ (ih (h.closeSlot token))
      rcases hc : l.connections.get? token with _ | c
      · unfold Loop.closeSlot
        rw [hc]
        exact .refl l
      · rw [closeSlot_eq hc]
        exact passes_close h.coherent hc (h.alive token c hc).ne_closed

/-- Refusing closes the queues of those requested. -/
theorem queue_refuseAll (commands : List Command) (l : Loop) (id : Nat) :
    (commands.foldl refuse l).queue id =
      if id ∈ requestedIds commands ∧ id < l.queues.length then (l.queue id).close.2
      else l.queue id := by
  induction commands generalizing l with
  | nil => exact (if_neg fun h => List.not_mem_nil h.1).symm
  | cons c later ih =>
      rw [List.foldl_cons, ih]
      cases c with
      | flush | close | shutdown => rfl
      | connect id' address handler options =>
          have hids : requestedIds (.connect id' address handler options :: later) =
            id' :: requestedIds later := rfl
          have hqueue : (l.refuse (.connect id' address handler options)).queue id =
              if id = id' ∧ id' < l.queues.length then (l.queue id').close.2 else l.queue id :=
            queue_modify l fun q => q.close.2
          have hlen : (l.refuse (.connect id' address handler options)).queues.length =
            l.queues.length := List.length_modify _ _ _
          rw [hids, hqueue, hlen]
          by_cases heq : id = id'
          · subst heq
            by_cases hlt : id < l.queues.length
            · simp [hlt, SendQueue.close]
            · simp [hlt]
          · simp [heq]

/-- Without connections, refusing what is in the channel leaves none waiting. -/
theorem Vacant.passes_refuseAll (h : l.Vacant) :
    Passes l { l.channel.foldl refuse l with channel := [] } := by
  obtain ⟨queues, hlen, hrefused⟩ := exists_refuseAll l l.channel
  have hunowned (id : Nat) : Unowned { l.channel.foldl refuse l with channel := [] } id := by
    rw [hrefused]
    exact fun t => h.unowned id t
  have hqueue (id : Nat) : queue { l.channel.foldl refuse l with channel := [] } id =
      if id ∈ requestedIds l.channel ∧ id < l.queues.length then (l.queue id).close.2
      else l.queue id := queue_refuseAll l.channel l id
  have hover (id : Nat) (hid : l.Over id) :
      Over { l.channel.foldl refuse l with channel := [] } id := by
    refine ⟨?_, ?_, ?_, hunowned id⟩ <;> rw [hqueue] <;> split
    · rfl
    · exact hid.state
    · rfl
    · exact hid.pending
    · rfl
    · exact hid.writer
  have hlen : (l.channel.foldl refuse l).queues.length = l.queues.length := by
    rw [hrefused]
    exact hlen
  refine ⟨Nat.le_of_eq hlen.symm, hover, fun hl id hlt => ?_⟩
  have hlt : id < l.queues.length := Nat.lt_of_lt_of_eq hlt hlen
  rcases hl id hlt with hrequested | howned | hid
  · refine .inr (.inr ⟨?_, ?_, ?_, hunowned id⟩) <;> rw [hqueue, if_pos ⟨hrequested, hlt⟩] <;> rfl
  · exact absurd (h.unowned id) howned
  · exact .inr (.inr (hover id hid))

theorem passes_closeAll (h : l.Ending) : Passes l l.closeAll := by
  have hslots := passes_closeSlots h l.connections.keys
  have hvacant := vacant_closeSlots l
  unfold closeAll
  simp only
  generalize l.connections.keys.foldl Loop.closeSlot l = l₁ at hslots hvacant ⊢
  have hagenda : Passes l₁ { l₁ with agenda := .empty } := .of_change rfl rfl (List.Subset.refl _)
  have hvacant' : Vacant { l₁ with agenda := .empty } := hvacant
  exact (hslots.trans hagenda).trans hvacant'.passes_refuseAll

/-- Where nobody has a slot and nobody waits for one, everybody is over. -/
theorem Accounted.over (h : l.Accounted) (hvacant : l.Vacant) (hnone : requestedIds l.channel = [])
    (hlt : id < l.queues.length) : l.Over id := by
  rcases h id hlt with hrequested | howned | hid
  · rw [hnone] at hrequested
    cases hrequested
  · exact absurd (hvacant.unowned id) howned
  · exact hid

theorem Over.finish (h : l.Over id) : l.finish.Over id :=
  h.congr rfl fun t c hc hid => ⟨t, c, hc, hid⟩

theorem Over.drop (h : l.Over id) (hl : l.Ending) : l.drop.Over id := by
  unfold Loop.drop
  by_cases hempty : l.connections.isEmpty
  · rw [if_pos hempty]
    exact h.finish
  · rw [if_neg hempty]
    exact ((passes_closeAll hl).stays_over id h).finish

/-! ## Moves -/

/-- Every move loses no connection, or ends the loop and opens nothing that is over. -/
theorem passes_move {m m' : Moment} (hl : m.loop.Sound) (hmove : Move m m') :
    Passes m.loop m'.loop ∨
      m'.loop.ended = true ∧ ∀ id, m.loop.Over id → m'.loop.Over id := by
  cases hmove with
  | request l r later => exact .inl (passes_request l r)
  | happen | takeDue | idle | note => exact .inl (.of_change rfl rfl (List.Subset.refl _))
  | obey hchannel hok =>
      have hobeys := hl.obeys hchannel
      rw [hok] at hobeys
      exact .inl ((passes_obeys hl hchannel hobeys).resolve_right nofun)
  | @retry l l' due later hok =>
      have hpasses := passes_retry hl due
      rw [hok] at hpasses
      exact .inl hpasses
  | @handle l l' event hok =>
      have hpasses := passes_handle hl event
      rw [hok] at hpasses
      exact .inl hpasses
  | rearm l token => exact .inl (passes_rearmSlot hl token)
  | fault later hfault =>
      exact .inr ⟨rfl, fun id h => (h.faults hl hfault).drop (hfault.ending hl)⟩
  | finish l => exact .inr ⟨rfl, fun id h => ((passes_closeAll hl.ending).stays_over id h).finish⟩
  | drop l => exact .inr ⟨rfl, fun id h => h.drop hl.ending⟩

/-- What is over stays over. -/
theorem Over.moves {m m' : Moment} (h : m.loop.Over id) (hl : m.loop.Sound)
    (hmoves : Moves m m') : m'.loop.Over id := by
  induction hmoves with
  | refl => exact h
  | tail hbefore hmove ih =>
      rcases passes_move (hl.moves hbefore) hmove with hpasses | ⟨_, hover⟩
      · exact hpasses.stays_over id ih
      · exact hover id ih

/-- A loop that lasts loses no connection. -/
theorem passes_moves {m m' : Moment} (hl : m.loop.Sound) (hmoves : Moves m m')
    (hlive : m'.loop.ended = false) : Passes m.loop m'.loop := by
  induction hmoves with
  | refl => exact .refl _
  | @tail m₁ m₂ hbefore hmove ih =>
      -- What is gone stays gone, so the loop lasted before as well.
      have hlive₁ : m₁.loop.ended = false := by
        rw [← Bool.not_eq_true]
        intro hended
        cases (ended_move hmove hended).symm.trans hlive
      rcases passes_move (hl.moves hbefore) hmove with hpasses | ⟨hended, _⟩
      · exact (ih hlive₁).trans hpasses
      · cases hended.symm.trans hlive

theorem Started.accounted (h : l.Started) : l.Accounted := by
  have ⟨config, kernel, _, hl⟩ := h.eq
  intro id hlt
  rw [hl] at hlt
  cases hlt

/-! ## Fates -/

/-- What can become of a requested connection. -/
inductive Fate where
  /-- Its request waits in the channel. -/
  | requested
  /-- It lives in a slot. -/
  | served
  /-- It is over. -/
  | over
deriving DecidableEq, Repr

/-- What the loop says of connection number `id` under each fate. -/
def Fate.Fits (l : Loop) (id : Nat) : Fate → Prop
  | .requested =>
    id ∈ requestedIds l.channel ∧ (l.queue id).state = .disconnected ∧ (l.queue id).token = none
  | .served =>
    ∃ t c, (l.connections.get? t = some c ∧ c.id = id) ∧
      (∀ t' c', l.connections.get? t' = some c' → c'.id = id → t' = t) ∧
      c.token = t ∧ (l.queue id).token = some t ∧ (l.queue id).state = c.state ∧
      (c.state = .connecting ∨ c.state = .connected)
  | .over => l.Over id

/-- No two fates fit the same connection. -/
theorem Fate.Fits.unique {fate fate' : Fate} (h : fate.Fits l id) (h' : fate'.Fits l id) :
    fate = fate' := by
  have hrequested_served (h : Fate.requested.Fits l id) (h' : Fate.served.Fits l id) : False := by
    have ⟨_, _, _, _, _, htoken, _⟩ := h'
    cases h.2.2.symm.trans htoken
  have hrequested_over (h : Fate.requested.Fits l id) (h' : Fate.over.Fits l id) : False := by
    cases h.2.1.symm.trans h'.state
  have hserved_over (h : Fate.served.Fits l id) (h' : Fate.over.Fits l id) : False := by
    have ⟨t, c, ⟨hc, hid⟩, _⟩ := h
    exact h'.unowned t c hc hid
  cases fate <;> cases fate'
  case requested.requested | served.served | over.over => rfl
  case requested.served => exact (hrequested_served h h').elim
  case served.requested => exact (hrequested_served h' h).elim
  case requested.over => exact (hrequested_over h h').elim
  case over.requested => exact (hrequested_over h' h).elim
  case served.over => exact (hserved_over h h').elim
  case over.served => exact (hserved_over h' h).elim

theorem Sound.exists_fate (h : l.Sound) (haccounted : l.Accounted) (hlt : id < l.queues.length) :
    ∃ fate : Fate, fate.Fits l id := by
  rcases haccounted id hlt with hrequested | howned | hover
  · have hawaits := h.coherent.requested id hrequested
    exact ⟨.requested, hrequested, hawaits.state, hawaits.token⟩
  · have ⟨t, c, hc, hid⟩ : ∃ t c, l.connections.get? t = some c ∧ c.id = id := by
      simpa [Unowned] using howned
    have hlives := h.coherent.lives hc
    have hbound := hlives.bound
    have ⟨hstate, hkind⟩ := (h.shape t c hc).state_eq
    rw [hid] at hbound hstate
    refine ⟨.served, t, c, ⟨hc, hid⟩, fun t' c' hc' hid' => ?_, hlives.token_eq, hbound, hstate,
      hkind⟩
    exact h.coherent.slot_eq hc' hc (hid'.trans hid.symm)
  · exact ⟨.over, hover⟩

/-- A connection that was requested has a queue. -/
theorem id_lt_of_connected {address : Address} {handler : Handler} {options : ConnectOptions}
    (hconnect : (l.request (.connect address handler options)).1 = .connected (.ok id)) :
    id < (l.request (.connect address handler options)).2.queues.length := by
  have ⟨_, hid, hjoined⟩ := joined_of_connected hconnect
  rw [hjoined, length_joined, hid]
  exact Nat.lt_succ_self _

/--
**Every requested connection is accounted for.** At every moment after a connection was requested,
while the loop lasts, it has exactly one fate: its request waits in the channel; or it lives in a
slot, in the state of its queue, and nowhere else; or it is over, with nothing waiting and nothing
to write to. Once it is over it is so forever, even when the loop is gone, and takes no message.
-/
theorem Started.existsUnique_fate (h : l.Started) {m₀ : Moment} (hbefore : Moves ⟨l, []⟩ m₀)
    {address : Address} {handler : Handler} {options : ConnectOptions}
    (hconnect : (m₀.loop.request (.connect address handler options)).1 = .connected (.ok id))
    {m : Moment}
    (hm : Moves ⟨(m₀.loop.request (.connect address handler options)).2, m₀.due⟩ m) :
    (m.loop.ended = false → ∃! fate : Fate, fate.Fits m.loop id) ∧
      (m.loop.Over id → ∀ m', Moves m m' → m'.loop.Over id ∧
        ∀ bytes, m'.loop.sendBytes id bytes = (.error .notConnected, m'.loop)) := by
  have hrequest : Moves ⟨l, []⟩ ⟨(m₀.loop.request (.connect address handler options)).2, m₀.due⟩ :=
    hbefore.tail (.request m₀.loop (.connect address handler options) m₀.due)
  have hl := h.sound.moves (hrequest.trans hm)
  constructor
  · intro hlive
    have hlen := (passes_moves (h.sound.moves hrequest) hm hlive).length_le
    have hlt : id < m.loop.queues.length := Nat.lt_of_lt_of_le (id_lt_of_connected hconnect) hlen
    have haccounted := (passes_moves h.sound (hrequest.trans hm) hlive).accounted h.accounted
    have ⟨fate, hfits⟩ := hl.exists_fate haccounted hlt
    exact ⟨fate, hfits, fun fate' hfits' => hfits'.unique hfits⟩
  · intro hover m' hmoves
    have hover' := hover.moves hl hmoves
    exact ⟨hover', hover'.sendBytes⟩

/-- A connection that is established and then closed has exactly one fate, and sends nothing
more. -/
theorem Started.existsUnique_fate_of_closed :
    let l : Loop := { kernel := { plans := [{ connect := .ok }] } }
    let requested := (l.request (.connect default {} {})).2
    let m : Moment := ⟨requested.after [.turn, .request (.close 0), .turn], []⟩
    l.Started ∧ m.loop.ended = false ∧ (∃! fate : Fate, fate.Fits m.loop 0) ∧ m.loop.Over 0 ∧
      ∀ bytes, m.loop.sendBytes 0 bytes = (.error .notConnected, m.loop) := by
  intro l requested m
  have hstarted : l.Started := ⟨{}, l.kernel, ⟨rfl, rfl, rfl⟩, rfl⟩
  have hm : Moves ⟨requested, []⟩ m := moves_after requested _
  have hlive : m.loop.ended = false := by decide +kernel
  have hover : m.loop.Over 0 := by
    refine ⟨by decide +kernel, by decide +kernel, by decide +kernel, fun t c hc _ => ?_⟩
    have hmoves : Moves ⟨l, []⟩ m := (moves_after l [.request (.connect default {} {})]).trans hm
    have htable := (hstarted.sound.moves hmoves).coherent.table
    have hempty : m.loop.connections.isEmpty = true := by decide +kernel
    cases ((SlotTable.isEmpty_iff htable).1 hempty t).symm.trans hc
  have hconnected : (l.request (.connect default {} {})).1 = .connected (.ok 0) := rfl
  have ⟨hfate, hrefused⟩ := hstarted.existsUnique_fate .refl hconnected hm
  exact ⟨hstarted, hlive, hfate hlive, hover, (hrefused hover m .refl).2⟩

end TextLink.Loop
