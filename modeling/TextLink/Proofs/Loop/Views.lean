import TextLink.Proofs.Loop.Callbacks
import TextLink.Proofs.Loop.Lasting

/-!
# The two views of a connection's state

Producers see the state of a connection on its queue, its handler is told of it. The two are changed
at different places, but between two scenes they agree (`Agrees`): a connection in the table is in
the state of its queue, and one that is gone has told of its end before it left.

The one exception are requests that are still in the channel when everything is closed. Their queues
are closed, but nobody ever made a connection for them which could tell the handler (`Discarded`,
`Started.not_agrees_of_late_request`).

## Main results

* `Started.agrees_iff` — when the two views agree.
-/

namespace TextLink

/-- The state told of, if it is a state. -/
def Heard.state? : Heard → Option ConnectionState
  | .text _ => none
  | .state s => some s

/-- The last state told of. -/
def lastState (heard : List Heard) : Option ConnectionState :=
  (heard.filterMap Heard.state?).getLast?

/-- Texts are no states. -/
theorem filterMap_state?_texts (texts : List String) :
    (texts.map Heard.text).filterMap Heard.state? = [] := by
  rw [List.filterMap_map]
  exact List.filterMap_eq_nil_iff.2 fun _ _ => rfl

/-- The state of the connection was told last, once it was begun. -/
theorem StorySoFar.lastState_eq {state : ConnectionState} {heard : List Heard}
    (h : StorySoFar state heard) :
    lastState heard = if state = .disconnected then none else some state := by
  unfold lastState
  cases h with
  | nothing | connecting => rfl
  | connected texts =>
      show (.connecting :: .connected :: (texts.map Heard.text).filterMap Heard.state?).getLast? = _
      rw [filterMap_state?_texts]
      rfl
  | closed h =>
      cases h with
      | neverConnected => rfl
      | connected texts =>
          show (ConnectionState.connecting :: .connected ::
            (texts.map Heard.text ++ [Heard.state .closed]).filterMap Heard.state?).getLast? = _
          rw [List.filterMap_append, filterMap_state?_texts]
          rfl

namespace Loop

open Link (Leads)

variable {allowed : Happening → Prop} {l l' : Loop} {t id : Nat} {c : Connection} {k : Link}

/-- The handler of connection number `id` was told last of the state the producers see, or of none
if it was not begun. -/
def Agrees (l : Loop) (id : Nat) : Prop :=
  ((l.queue id).state = .disconnected → lastState (l.heardBy id) = none) ∧
    ((l.queue id).state ≠ .disconnected → lastState (l.heardBy id) = some (l.queue id).state)

/-- Connection number `id` was closed before there was anything to it but its queue. -/
def Discarded (l : Loop) (id : Nat) : Prop :=
  (l.queue id).state = .closed ∧ (l.queue id).token = none

instance (l : Loop) (id : Nat) : Decidable (l.Discarded id) := inferInstanceAs (Decidable (_ ∧ _))

/-! ## Where the views agree -/

theorem agrees_of_storySoFar {state : ConnectionState} (h : StorySoFar state (l.heardBy id))
    (hstate : (l.queue id).state = state) : l.Agrees id := by
  have hlast := h.lastState_eq
  subst hstate
  constructor
  · intro hnone
    rw [hlast, if_pos hnone]
  · intro hsome
    rw [hlast, if_neg hsome]

theorem Hears.agrees_iff_not_discarded (h : l.Hears id) (hl : l.Sound) :
    l.Agrees id ↔ ¬ l.Discarded id := by
  constructor
  · rintro hagrees ⟨hclosed, hunbound⟩
    have hlast := hagrees.2 (by rw [hclosed]; decide)
    rw [(h.unbound hunbound).1] at hlast
    cases hlast
  · intro hnot
    by_cases hunowned : l.Unowned id
    · by_cases hunbound : (l.queue id).token = none
      · have ⟨hnothing, hstate⟩ := h.unbound hunbound
        refine agrees_of_storySoFar (hnothing ▸ .nothing) (hstate.resolve_right fun hclosed => ?_)
        exact hnot ⟨hclosed, hunbound⟩
      · have ⟨hclosed, hstory⟩ := h.gone hunowned hunbound
        exact agrees_of_storySoFar hstory hclosed
    · obtain ⟨t, c, hc, hid⟩ : ∃ t c, l.connections.get? t = some c ∧ c.id = id := by
        simpa [Unowned] using hunowned
      have hstate := (hl.shape t c hc).state_eq.1
      rw [hid] at hstate
      exact agrees_of_storySoFar (h.here t c hc hid) hstate

/-! ## Who is discarded -/

/-- A connection that acts has a bound queue, and changes no other. -/
theorem Coherent.queue_unbound (h : l.Coherent) (hc : l.connections.get? t = some c)
    (hk : Leads (l.link c) k) (hunbound : ((l.absorb t k).queue id).token = none) :
    (l.absorb t k).queue id = l.queue id := by
  have hqueue : (l.absorb t k).queue id = _ := queue_absorb (id_eq hk ▸ (h.lives hc).id_lt)
  rw [hqueue, if_neg fun heq => ?_]
  have hself : (l.absorb t k).connections.get? t = some k.conn := get?_absorb_self hc
  have hbound := ((h.absorb hc hk).lives hself).bound
  rw [← heq, hunbound] at hbound
  cases hbound

/-- A connection that acts, and what is done about it, discard nobody. -/
theorem Coherent.discarded_of_acts (h : l.Coherent) {progress : Progress}
    (hacts : Acts l t c progress k)
    (hdiscarded : ((l.absorb t k).apply t progress).Discarded id) : l.Discarded id := by
  have happly : ((l.absorb t k).apply t progress).queue id = (l.absorb t k).queue id := by
    cases progress <;> rfl
  rw [Discarded, happly] at hdiscarded
  have hqueue := h.queue_unbound hacts.slot hacts.leads hdiscarded.2
  rwa [hqueue] at hdiscarded

theorem Coherent.discarded_of_attempts (h : l.Coherent) (hattempts : Attempts l t c (.ok (), l'))
    (hdiscarded : l'.Discarded id) : l.Discarded id := by
  cases hattempts with
  | made hacts _ _ => exact h.discarded_of_acts hacts hdiscarded

/-- Obeying discards nobody: who is taken up gets a slot. -/
theorem Sound.discarded_of_obey (h : l.Sound) {command : Command} {later : List Command}
    (hchannel : l.channel = command :: later)
    (hobey : { l with channel := later }.obey command = (.ok (), l'))
    (hdiscarded : l'.Discarded id) : l.Discarded id := by
  have hobeys := h.obeys hchannel
  have htaken := h.take hchannel
  rw [hobey] at hobeys
  generalize hr : (Except.ok () : Except Fault Unit) = r at hobeys
  cases hobeys with
  | @connect id' address handler options _ hattempts =>
      subst hr
      have ⟨hunowned, hawaits, hnot, hended⟩ := h.coherent.awaits hchannel
      have hcoherent := (h.enrol_requested hchannel).coherent
      have ⟨hclosed, hunbound⟩ := hcoherent.discarded_of_attempts hattempts hdiscarded
      have hqueue : (Loop.enrol { l with channel := later } id'
          (requested id' address handler options)).queue id = _ :=
        queue_enrol (l := { l with channel := later }) hawaits.id_lt _
      by_cases hid : id = id'
      · have hbound := congrArg SendQueue.state hqueue
        rw [if_pos hid, hclosed] at hbound
        cases hbound.trans hawaits.state
      · rw [if_neg hid] at hqueue
        rw [hqueue] at hclosed hunbound
        exact ⟨hclosed, hunbound⟩
  | flush _ hacts rs =>
      exact htaken.coherent.discarded_of_acts hacts hdiscarded
  | close _ hacts => exact htaken.coherent.discarded_of_acts hacts hdiscarded
  | flushNobody | closeNobody | shutdown => exact hdiscarded
  | refused => cases hr

/-- Only the end of the loop discards anybody. -/
theorem Next.discards {m m' : Scene} (h : Next allowed m m') (hl : m.loop.Sound)
    (hdiscarded : m'.loop.Discarded id) : m.loop.Discarded id ∨ m'.loop.ended = true := by
  cases h with
  | request l r =>
      have ⟨htoken, hstate⟩ := standing_request l r id
      exact .inl ⟨hstate ▸ hdiscarded.1, htoken ▸ hdiscarded.2⟩
  | happen | takeDue | beginWait | pass | answer | note => exact .inl hdiscarded
  | obey hchannel h => exact .inl (hl.discarded_of_obey hchannel h hdiscarded)
  | @retry l l' due later h =>
      have hretries := hl.retries due
      rw [h] at hretries
      cases hretries with
      | attempt _ hattempts => exact .inl (hl.coherent.discarded_of_attempts hattempts hdiscarded)
      | outdated _ => exact .inl hdiscarded
  | rearm l token =>
      rcases hl.rearms token with hsame | ⟨c, rs, hacts, heq⟩
      · exact .inl (hsame ▸ hdiscarded)
      · rw [heq] at hdiscarded
        exact .inl (hl.coherent.discarded_of_acts hacts hdiscarded)
  | @handle l l' event later h =>
      have hhandles := hl.handles event
      rw [h] at hhandles
      generalize hr : (Except.ok () : Except Fault Unit) = r at hhandles
      cases hhandles with
      | nobody _ => exact .inl hdiscarded
      | served hacts _ => exact .inl (hl.coherent.discarded_of_acts hacts hdiscarded)
      | skipped hacts _ _ => exact .inl (hl.coherent.discarded_of_acts hacts hdiscarded)
      | broken => cases hr
  | obeyFault | retryFault | handleFault | finish | drop => exact .inr rfl

theorem Started.ended_of_discarded (h : l.Started) {m : Scene} (hm : Course allowed ⟨l, [], []⟩ m)
    (hdiscarded : m.loop.Discarded id) : m.loop.ended = true := by
  induction hm with
  | refl =>
      obtain ⟨config, kernel, _, rfl⟩ := h.eq
      cases hdiscarded.1
  | @tail m₁ m₂ hbefore hnext ih =>
      rcases hnext.discards (h.sound.course (m := ⟨l, [], []⟩) hbefore) hdiscarded with
        hold | hended
      · exact ended_move hnext.move (ih hold)
      · exact hended

/--
**The two views of a state agree.** In every scene of a run, whatever was requested, happened or
failed, also after a fault and when the loop is gone: the state producers see is the one the handler
was told last, and none was told while it is disconnected. The exception are exactly the requests
that were discarded: their queue was closed though they never got a slot, which happens only as the
loop ends, and their handler is told nothing.
-/
theorem Started.agrees_iff (h : l.Started) {m : Scene} (hm : Course allowed ⟨l, [], []⟩ m)
    (id : Nat) :
    (m.loop.Agrees id ↔ ¬ m.loop.Discarded id) ∧
      (m.loop.Discarded id → m.loop.heardBy id = [] ∧ m.loop.ended = true) := by
  have hsound : m.loop.Sound := h.sound.course (m := ⟨l, [], []⟩) hm
  have hhears := h.hears hm id
  exact ⟨hhears.agrees_iff_not_discarded hsound, fun hdiscarded =>
    ⟨(hhears.unbound hdiscarded.2).1, h.ended_of_discarded hm hdiscarded⟩⟩

/-- A connection is established, and closed by a shutdown. -/
theorem Started.agrees_iff_of_shutdown :
    let l : Loop := { kernel := { plans := [{ connect := .ok }] } }
    let l₁ := l.after [.request (.connect default {} {}), .turn, .request .shutdown]
    l.Started ∧ (l₁.queue 0).state = .connected ∧ l₁.Agrees 0 ∧
      ∃ l', l₁.run = some (.ok (), l') ∧ Course (fun _ => True) ⟨l, [], []⟩ ⟨l', [], []⟩ ∧
        (l'.queue 0).state = .closed ∧ (l'.Agrees 0 ↔ ¬ l'.Discarded 0) ∧ l'.Agrees 0 := by
  intro l l₁
  have hstarted : l.Started := ⟨{}, l.kernel, ⟨rfl, rfl, rfl⟩, rfl⟩
  have hiff (l' : Loop) (hl' : Course (fun _ => True) ⟨l, [], []⟩ ⟨l', [], []⟩) :
      l'.Agrees 0 ↔ ¬ l'.Discarded 0 := (hstarted.agrees_iff hl' 0).1
  have hl₁ : Course (fun _ => True) ⟨l, [], []⟩ ⟨l₁, [], []⟩ := course_after l _ fun _ _ => trivial
  have hturn : l₁.turn.1 = .shutdown := by decide +kernel
  have hend : l₁.turn.2.shutDown.all fun r =>
      r.1.isOk ∧ (r.2.queue 0).state = .closed ∧ ¬ r.2.Discarded 0 := by
    decide +kernel
  have hsome : l₁.turn.2.shutDown.isSome = true := by decide +kernel
  rw [← run_of_shutdown hturn] at hend hsome
  obtain ⟨⟨outcome, l'⟩, hrun⟩ := Option.isSome_iff_exists.1 hsome
  rw [hrun, Option.all_some, decide_eq_true_eq] at hend
  obtain ⟨hok, hclosed, hnot⟩ := hend
  rcases outcome with fault | _
  · cases hok
  · have hl' := hl₁.trans (course_run hrun)
    exact ⟨hstarted, by decide +kernel, (hiff l₁ hl₁).2 (by decide +kernel), l', hrun, hl', hclosed,
      hiff l' hl', (hiff l' hl').2 hnot⟩

/-- A connection is requested after the shutdown: its queue is closed, and its
handler hears nothing. -/
theorem Started.not_agrees_of_late_request :
    let l : Loop := {}
    let l₁ := l.after [.request .shutdown]
    let l₂ := (l₁.request (.connect default {} {})).2
    l.Started ∧ l₁.request (.connect default {} {}) = (.connected (.ok 0), l₂) ∧
      ∃ l', l₂.run = some (.ok (), l') ∧ (l'.queue 0).state = .closed ∧ l'.heardBy 0 = [] ∧
        ¬ l'.Agrees 0 := by
  intro l l₁ l₂
  have hturn : l₂.turn.1 = .shutdown := by decide +kernel
  have hend : l₂.turn.2.shutDown.all fun r =>
      r.1.isOk ∧ (r.2.queue 0).state = .closed ∧ r.2.heardBy 0 = [] := by
    decide +kernel
  have hsome : l₂.turn.2.shutDown.isSome = true := by decide +kernel
  rw [← run_of_shutdown hturn] at hend hsome
  obtain ⟨⟨outcome, l'⟩, hrun⟩ := Option.isSome_iff_exists.1 hsome
  rw [hrun, Option.all_some, decide_eq_true_eq] at hend
  obtain ⟨hok, hclosed, hnothing⟩ := hend
  rcases outcome with fault | _
  · cases hok
  · refine ⟨⟨{}, {}, ⟨rfl, rfl, rfl⟩, rfl⟩, rfl, l', hrun, hclosed, hnothing, fun hagrees => ?_⟩
    have hlast := hagrees.2 (by rw [hclosed]; decide)
    rw [hnothing] at hlast
    cases hlast

end Loop

end TextLink
