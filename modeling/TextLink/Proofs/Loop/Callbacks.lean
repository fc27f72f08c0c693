import TextLink.Proofs.Loop.Established

/-!
# What a handler is told, from the first to the last

A handler is told of states and of text, in an order that does not depend on what happens: first
that a connect was begun; then, if one succeeds, that it is connected, and any number of texts; and
last that it is closed (`Story`). The state of the connection tells how far the story has come
(`StorySoFar`), so it goes on in one way only wherever the loop has the connection act: every step
that tells something enters the next state, or is made in the connected one.

A connection that is gone has its state no more, but its queue knows whether there was one: it is
bound to the slot from the first attempt on. A queue that was never bound belongs to a handler that
was told nothing (`Hears`).

## Main results

* `Steps.goesOn` — what a connection tells while it acts goes on with the story.
* `Started.story` — whatever happens, a handler hears a story from its beginning.
-/

namespace TextLink

open Relation (ReflTransGen)

/-- All that the handler of connection number `id` has been told. -/
def Journal.heardBy (j : Journal) (id : Nat) : List Heard :=
  j.callbacks.toList.filterMap fun b => if b.handler.conn = id then some b.heard else none

/-- All that a handler may be told, from the first to the last. -/
inductive Story : List Heard → Prop where
  | neverConnected : Story [.state .connecting, .state .closed]
  | connected (texts : List String) :
      Story (.state .connecting :: .state .connected :: (texts.map .text ++ [.state .closed]))

/-- What a handler has been told whose connection is in this state. -/
inductive StorySoFar : ConnectionState → List Heard → Prop where
  | nothing : StorySoFar .disconnected []
  | connecting : StorySoFar .connecting [.state .connecting]
  | connected (texts : List String) :
      StorySoFar .connected (.state .connecting :: .state .connected :: texts.map .text)
  | closed {heard : List Heard} (h : Story heard) : StorySoFar .closed heard

namespace StorySoFar

variable {state : ConnectionState} {heard : List Heard}

/-- Whatever was told is the beginning of a story. -/
theorem exists_story (h : StorySoFar state heard) : ∃ story, Story story ∧ heard <+: story := by
  cases h with
  | nothing => exact ⟨_, .neverConnected, List.nil_prefix⟩
  | connecting => exact ⟨_, .neverConnected, [.state .closed], rfl⟩
  | connected texts => exact ⟨_, .connected texts, [.state .closed], rfl⟩
  | closed h => exact ⟨heard, h, List.prefix_refl _⟩

theorem connect (h : StorySoFar .disconnected heard) :
    StorySoFar .connecting (heard ++ [.state .connecting]) := by
  cases h
  exact .connecting

theorem establish (h : StorySoFar .connecting heard) :
    StorySoFar .connected (heard ++ [.state .connected]) := by
  cases h
  exact .connected []

theorem tell (h : StorySoFar .connected heard) (text : String) :
    StorySoFar .connected (heard ++ [.text text]) := by
  cases h with
  | connected texts =>
      have happend :
          (Heard.state .connecting :: .state .connected :: texts.map .text) ++ [.text text] =
          .state .connecting :: .state .connected :: (texts ++ [text]).map .text := by
        rw [List.map_append]
        rfl
      rw [happend]
      exact .connected (texts ++ [text])

/-- A story ends where the connection was alive. -/
theorem close (h : StorySoFar state heard) (halive : state.Alive) :
    StorySoFar .closed (heard ++ [.state .closed]) := by
  cases h with
  | nothing => exact absurd rfl halive.ne_disconnected
  | connecting => exact .closed .neverConnected
  | connected texts => exact .closed (.connected texts)
  | closed => exact absurd rfl halive.ne_closed

end StorySoFar

/-! ## Connections -/

namespace Link

variable {l l' : Link} {why : Occasion} {id : Nat}

theorem heardBy_push {j j' : Journal} {handler : Handler} {heard : Heard}
    (h : j'.callbacks = j.callbacks.push ⟨handler, heard⟩) :
    j'.heardBy id = j.heardBy id ++ if handler.conn = id then [heard] else [] := by
  unfold Journal.heardBy
  rw [h, Array.toList_push, List.filterMap_append]
  by_cases hid : handler.conn = id <;> simp [hid]

/-- A step tells what comes next. -/
theorem Speaks.goesOn (h : Speaks why l l')
    (hfirst : l.conn.state = .disconnected → why = .attempting)
    (hf : StorySoFar l.conn.state (l.journal.heardBy l.conn.handler.conn)) :
    StorySoFar l'.conn.state (l'.journal.heardBy l.conn.handler.conn) := by
  cases h with
  | silent hstate hcallbacks =>
      rw [hstate, Journal.heardBy, hcallbacks]
      exact hf
  | enters hstate henters hcallbacks =>
      rw [hstate, heardBy_push hcallbacks, if_pos rfl]
      cases henters with
      | connecting _ hold => exact (hold ▸ hf).connect
      | connected _ hold _ _ => exact (hold ▸ hf).establish
      | closed hne hconnect =>
          refine hf.close ?_
          rcases hold : l.conn.state with _ | _ | _ | _
          · have hwhy := hfirst hold
            cases hold.symm.trans (hconnect (hwhy ▸ rfl))
          · exact .inl rfl
          · exact .inr rfl
          · exact absurd hold hne
  | @tells text _ hold hstate hcallbacks =>
      rw [hstate, hold, heardBy_push hcallbacks, if_pos rfl]
      exact (hold ▸ hf).tell text

/-- Nobody else is told. -/
theorem Speaks.heardBy_other (h : Speaks why l l') (hid : l.conn.handler.conn ≠ id) :
    l'.journal.heardBy id = l.journal.heardBy id := by
  cases h with
  | silent _ hcallbacks => rw [Journal.heardBy, hcallbacks, Journal.heardBy]
  | enters _ _ hcallbacks | tells _ _ _ hcallbacks =>
      rw [heardBy_push hcallbacks, if_neg hid, List.append_nil]

/-- Nothing leads back before the first attempt. -/
theorem Speaks.state_ne (h : Speaks why l l') (hstate : l.conn.state ≠ .disconnected) :
    l'.conn.state ≠ .disconnected := by
  cases h with
  | silent hsame _ | tells _ _ hsame _ => exact hsame ▸ hstate
  | enters hentered henters _ =>
      rw [hentered]
      cases henters <;> decide

/-- What a connection tells while it acts goes on with the story. -/
theorem Steps.goesOn (h : Steps why l l')
    (hfirst : l.conn.state = .disconnected → why = .attempting)
    (hf : StorySoFar l.conn.state (l.journal.heardBy l.conn.handler.conn)) :
    StorySoFar l'.conn.state (l'.journal.heardBy l.conn.handler.conn) := by
  have hstory : (l'.conn.state = .disconnected → why = .attempting) ∧
      StorySoFar l'.conn.state (l'.journal.heardBy l.conn.handler.conn) := by
    induction h with
    | refl => exact ⟨hfirst, hf⟩
    | @tail l₁ l₂ hbefore hstep ih =>
        have hspeaks := hstep.speaks
        have hhandler := (Steps.told hbefore).1
        refine ⟨fun hstate => ih.1 ?_, hhandler ▸ hspeaks.goesOn ih.1 (hhandler ▸ ih.2)⟩
        by_contra hne
        exact hspeaks.state_ne hne hstate
  exact hstory.2

theorem Steps.heardBy_other (h : Steps why l l') (hid : l.conn.handler.conn ≠ id) :
    l'.journal.heardBy id = l.journal.heardBy id := by
  induction h with
  | refl => rfl
  | tail hbefore hstep ih =>
      exact (hstep.speaks.heardBy_other ((Steps.told hbefore).1 ▸ hid)).trans ih

end Link

/-! ## Loops -/

namespace Loop

open Link (Occasion Steps)

variable {allowed : Happening → Prop} {may : Occasion → Loop → Nat → Prop} {l l' : Loop}
  {t id : Nat} {c : Connection} {k : Link} {why : Occasion}

/-- All that the handler of connection number `id` has been told. -/
abbrev heardBy (l : Loop) (id : Nat) : List Heard := l.journal.heardBy id

/-- What the handler of connection number `id` has been told goes with what became of
the connection. -/
structure Hears (l : Loop) (id : Nat) : Prop where
  here : ∀ t c, l.connections.get? t = some c → c.id = id → StorySoFar c.state (l.heardBy id)
  gone : l.Unowned id → (l.queue id).token ≠ none →
    (l.queue id).state = .closed ∧ StorySoFar .closed (l.heardBy id)
  unbound : (l.queue id).token = none → l.heardBy id = [] ∧
    ((l.queue id).state = .disconnected ∨ (l.queue id).state = .closed)

namespace Hears

/-- Nothing changes that is told or bound. -/
theorem congr (h : l.Hears id) (hconnections : l'.connections = l.connections)
    (hcallbacks : l'.journal.callbacks = l.journal.callbacks)
    (htoken : (l'.queue id).token = (l.queue id).token)
    (hstate : (l'.queue id).state = (l.queue id).state) : l'.Hears id := by
  have hheard : l'.heardBy id = l.heardBy id := by
    rw [heardBy, heardBy, Journal.heardBy, hcallbacks, Journal.heardBy]
  refine ⟨fun t c hc hid => ?_, fun hunowned hbound => ?_, fun hunbound => ?_⟩
  · rw [hheard]
    exact h.here t c (hconnections ▸ hc) hid
  · rw [hheard, hstate]
    exact h.gone (fun t c hc => hunowned t c (hconnections ▸ hc)) (htoken ▸ hbound)
  · rw [hheard, hstate]
    exact h.unbound (htoken ▸ hunbound)

/-- What is told before and after is what follows. -/
theorem absorb (h : l.Hears id) (hl : l.Coherent) (hown : l.Addressed)
    (hc : l.connections.get? t = some c) (hk : Steps why (l.link c) k)
    (hfirst : c.state = .disconnected → why = .attempting) : (l.absorb t k).Hears id := by
  have hleads := hl.leads hc hk
  have hhandler : (l.link c).conn.handler.conn = c.id := hown.own t c hc
  by_cases hid : c.id = id
  · subst hid
    have hself : (l.absorb t k).connections.get? t = some k.conn := get?_absorb_self hc
    have hbound : ((l.absorb t k).queue c.id).token ≠ none := by
      have hbound := ((hl.absorb hc hleads).lives hself).bound
      rw [id_eq hleads] at hbound
      rw [hbound]
      exact nofun
    refine ⟨fun t' c' hc' hid => ?_, fun hunowned => ?_, fun hunbound => absurd hunbound hbound⟩
    · rcases slot_absorb hc hc' with ⟨_, rfl⟩ | ⟨hne, hold⟩
      · have hstory := hk.goesOn hfirst (hhandler ▸ h.here t c hc rfl)
        rwa [hhandler] at hstory
      · exact absurd (hl.slot_eq hold hc hid) hne
    · exact absurd (id_eq hleads) (hunowned t k.conn hself)
  · have hheard : (l.absorb t k).heardBy id = l.heardBy id :=
      hk.heardBy_other (hhandler ▸ hid)
    have hqueue : (l.absorb t k).queue id = l.queue id := by
      rw [queue_absorb (id_eq hleads ▸ (hl.lives hc).id_lt), if_neg]
      exact fun heq => hid ((id_eq hleads).symm.trans heq.symm)
    refine ⟨fun t' c' hc' hid' => ?_, fun hunowned hbound => ?_, fun hunbound => ?_⟩
    · rcases slot_absorb hc hc' with ⟨_, rfl⟩ | ⟨_, hold⟩
      · exact absurd ((id_eq hleads).symm.trans hid') hid
      · rw [hheard]
        exact h.here t' c' hold hid'
    · rw [hheard, hqueue]
      exact h.gone (Coherent.unowned_of_absorb hc hleads hunowned) (hqueue ▸ hbound)
    · rw [hheard, hqueue]
      exact h.unbound (hqueue ▸ hunbound)

/-- A slot is emptied: the connection in it is closed, and its queue is. -/
theorem remove (h : l.Hears id) (hc : l.connections.get? t = some c) (hstate : c.state = .closed)
    (hqueue : (l.queue c.id).state = .closed) :
    Hears { l with connections := (l.connections.remove t).2 } id := by
  refine ⟨fun t' c' hc' => h.here t' c' (slot_remove hc').2, fun hunowned hbound => ?_, h.unbound⟩
  by_cases hid : c.id = id
  · subst hid
    exact ⟨hqueue, hstate ▸ h.here t c hc rfl⟩
  · refine h.gone (fun t' c' hc' hid' => ?_) hbound
    by_cases ht : t' = t
    · subst ht
      exact hid (Option.some.inj (hc.symm.trans hc') ▸ hid')
    · refine hunowned t' c' ?_ hid'
      show (l.connections.remove t).2.get? t' = some c'
      rw [SlotTable.get?_remove, if_neg ht]
      exact hc'

/-- A requested connection gets a slot: its handler was told nothing yet. -/
theorem enrol {id' : Nat} {address : Address} {handler : Handler} {options : ConnectOptions}
    {later : List Command} (h : l.Hears id) (hl : l.Coherent)
    (hchannel : l.channel = .connect id' address handler options :: later) :
    (Loop.enrol { l with channel := later } id'
      (requested id' address handler options)).Hears id := by
  obtain ⟨hunowned', hawaits, _, _⟩ := hl.awaits hchannel
  have hqueue : (Loop.enrol { l with channel := later } id'
      (requested id' address handler options)).queue id = _ :=
    queue_enrol (l := { l with channel := later }) hawaits.id_lt _
  have hslot := get?_enrol_self (l := { l with channel := later }) hl.table id'
    (requested id' address handler options)
  by_cases hid : id = id'
  · subst hid
    have hnothing := (h.unbound hawaits.token).1
    rw [if_pos rfl] at hqueue
    refine ⟨fun t c hc hid => ?_, fun hunowned => absurd rfl (hunowned _ _ hslot),
      fun hunbound => ?_⟩
    · rcases slot_enrol (l := { l with channel := later }) hl.table hc with ⟨_, rfl⟩ | ⟨_, hold⟩
      · show StorySoFar .disconnected (l.heardBy id)
        rw [hnothing]
        exact .nothing
      · exact absurd hid (hunowned' t c hold)
    · have htoken := congrArg SendQueue.token hqueue
      rw [hunbound] at htoken
      have hnone : (queue { l with channel := later } id).token = none := hawaits.token
      rw [SendQueue.bind, hnone] at htoken
      cases htoken
  · rw [if_neg hid] at hqueue
    refine ⟨fun t c hc hid' => ?_, fun hunowned hbound => ?_, fun hunbound => ?_⟩
    · rcases slot_enrol (l := { l with channel := later }) hl.table hc with ⟨_, rfl⟩ | ⟨_, hold⟩
      · exact absurd hid'.symm hid
      · exact h.here t c hold hid'
    · rw [hqueue] at hbound ⊢
      exact h.gone (fun t c hc => hunowned t c
        (get?_enrol_other (l := { l with channel := later }) hl.table hc)) hbound
    · rw [hqueue] at hunbound ⊢
      exact h.unbound hunbound

/-- A queue that is closed without a connection is one that was never bound. -/
theorem refuse (h : l.Hears id) (command : Command) : (l.refuse command).Hears id := by
  cases command with
  | flush | close | shutdown => exact h.congr rfl rfl rfl rfl
  | connect id' address handler options =>
      have hqueue : (l.refuse (.connect id' address handler options)).queue id = _ :=
        queue_modify l fun q => q.close.2
      have hclosed : ((l.refuse (.connect id' address handler options)).queue id).token =
            (l.queue id).token ∧
          (((l.refuse (.connect id' address handler options)).queue id).state = (l.queue id).state ∨
            ((l.refuse (.connect id' address handler options)).queue id).state = .closed) := by
        rw [hqueue]
        split
        · next heq => exact ⟨by rw [heq.1]; rfl, .inr rfl⟩
        · exact ⟨rfl, .inl rfl⟩
      obtain ⟨htoken, hstate⟩ := hclosed
      refine ⟨h.here, fun hunowned hbound => ?_, fun hunbound => ?_⟩
      · obtain ⟨hold, hstory⟩ := h.gone hunowned (htoken ▸ hbound)
        exact ⟨hstate.elim (·.trans hold) fun hclosed => hclosed, hstory⟩
      · obtain ⟨hnothing, hold⟩ := h.unbound (htoken ▸ hunbound)
        refine ⟨hnothing, ?_⟩
        rcases hstate with hsame | hclosed
        · rw [hsame]
          exact hold
        · exact .inr hclosed

theorem stroke (h : l.Hears id) (hl : l.Coherent) (hown : l.Addressed) (hstroke : Stroke may l l') :
    l'.Hears id := by
  cases hstroke with
  | act hc hk hfirst _ => exact h.absorb hl hown hc hk hfirst
  | remove hc hstate _ hqueue => exact h.remove hc hstate hqueue.1
  | enrol hchannel => exact h.enrol hl hchannel
  | refuse command _ _ => exact h.refuse command
  | skip | appoint | note | clear => exact h.congr rfl rfl rfl rfl

end Hears

/-! ## Requests -/

/-- A request binds no queue and closes none; a new queue is neither bound nor closed. -/
theorem standing_request (l : Loop) (r : Request) (id : Nat) :
    ((l.request r).2.queue id).token = (l.queue id).token ∧
      ((l.request r).2.queue id).state = (l.queue id).state := by
  have hoffered (id' : Nat) (bytes : Bytes) : ((l.offered id' bytes).queue id).token =
      (l.queue id).token ∧ ((l.offered id' bytes).queue id).state = (l.queue id).state := by
    obtain ⟨pending, headSent, hqueue⟩ := exists_queue_offered l id' bytes id
    rw [hqueue]
    exact ⟨rfl, rfl⟩
  have hasked := asked l r
  generalize (l.request r).2 = l' at hasked ⊢
  cases hasked with
  | refused | told => exact ⟨rfl, rfl⟩
  | joined address handler options =>
      rw [queue_joined]
      split
      · next hid =>
          rw [queue, hid, List.getElem?_eq_none (Nat.le_refl _)]
          exact ⟨rfl, rfl⟩
      · exact ⟨rfl, rfl⟩
  | offered id' bytes | armed id' bytes | stranded id' bytes => exact hoffered id' bytes

namespace Hears

theorem advance (h : l.Hears id) (hl : l.Coherent) (hown : l.Addressed)
    (hadvance : Advance allowed may l l') : l'.Hears id := by
  cases hadvance with
  | request r =>
      have hasks := asks_request l r
      have ⟨htoken, hstate⟩ := standing_request l r id
      exact h.congr hasks.connections_eq hasks.callbacks_eq htoken hstate
  | happen | beginWait | pass | answer => exact h.congr rfl rfl rfl rfl
  | strokes hstrokes =>
      have hkeep : l'.Addressed ∧ l'.Hears id := by
        refine hstrokes.keeps hl (P := fun l => l.Addressed ∧ l.Hears id) ?_ ⟨hown, h⟩
        exact fun hl hstroke h => ⟨h.1.stroke hl hstroke, h.2.stroke hl h.1 hstroke⟩
      exact hkeep.2

end Hears

theorem Started.hears (h : l.Started) {m : Scene} (hm : Course allowed ⟨l, [], []⟩ m) (id : Nat) :
    m.loop.Hears id := by
  have hnew : l.Addressed ∧ l.Hears id := by
    refine ⟨h.addressed, ?_⟩
    have hvacant := h.vacant
    obtain ⟨config, kernel, _, rfl⟩ := h.eq
    refine ⟨fun t c hc => ?_, fun _ hbound => absurd rfl hbound, fun _ => ⟨rfl, .inl rfl⟩⟩
    cases (hvacant t).symm.trans hc
  have hhears : m.loop.Addressed ∧ m.loop.Hears id :=
    h.sound.keeps (m := ⟨l, [], []⟩) hm (P := fun l => l.Addressed ∧ l.Hears id)
      (fun hsound hadvance h => ⟨h.1.advance hsound.coherent hadvance,
        h.2.advance hsound.coherent h.1 hadvance⟩) hnew
  exact hhears.2

/-- What is told goes with what became of the connection, whatever that is. -/
theorem Hears.exists_storySoFar (h : l.Hears id) : ∃ state, StorySoFar state (l.heardBy id) := by
  by_cases hunowned : l.Unowned id
  · by_cases hbound : (l.queue id).token = none
    · exact ⟨.disconnected, (h.unbound hbound).1 ▸ .nothing⟩
    · exact ⟨.closed, (h.gone hunowned hbound).2⟩
  · obtain ⟨t, c, hc, hid⟩ : ∃ t c, l.connections.get? t = some c ∧ c.id = id := by
      simpa [Unowned] using hunowned
    exact ⟨c.state, h.here t c hc hid⟩

/-- Nothing that was told is taken back. -/
theorem heardBy_prefix {m m' : Scene} (hl : m.loop.Sound) (h : Next allowed m m') (id : Nat) :
    m.loop.heardBy id <+: m'.loop.heardBy id := by
  obtain ⟨new, hcallbacks, _⟩ := h.announces hl
  refine ⟨new.filterMap fun b => if b.handler.conn = id then some b.heard else none, ?_⟩
  rw [heardBy, heardBy, Journal.heardBy, Journal.heardBy, hcallbacks, List.filterMap_append]

/--
**A handler hears a story from its beginning.** In every scene of a run, whatever was requested,
happened or failed, also after a fault and when the loop is gone: what the handler of a connection
was told so far is the beginning of a story, in which a connect is begun, perhaps succeeds and is
followed by text, and the end is told last. Whatever comes next goes on from there.
-/
theorem Started.story (h : l.Started) {m : Scene} (hm : Course allowed ⟨l, [], []⟩ m) (id : Nat) :
    (∃ story, Story story ∧ m.loop.heardBy id <+: story) ∧
      ∀ m', Next allowed m m' → m.loop.heardBy id <+: m'.loop.heardBy id := by
  have ⟨_, hstory⟩ := (h.hears hm id).exists_storySoFar
  have hsound : m.loop.Sound := h.sound.course (m := ⟨l, [], []⟩) hm
  exact ⟨hstory.exists_story, fun m' hnext => heardBy_prefix hsound hnext id⟩

/-- The first connect fails, the second succeeds; text comes, and then the peer is gone. -/
theorem Started.story_of_retry :
    let l : Loop := { kernel := { plans := [{}, {}] } }
    let m : Scene := ⟨l.after [.request (.connect default {} { policy := .immediate }), .turn,
      .happen (.complete 0 (.fails .connectionRefused)), .turn, .turn, .happen (.complete 1 .ok),
      .turn, .happen (.arrive 1 [.data [104, 105], .ending]), .turn], [], []⟩
    l.Started ∧ Course (fun _ => True) ⟨l, [], []⟩ m ∧
      m.loop.heardBy 0 = [.state .connecting, .state .connected, .text "hi", .state .closed] ∧
      (∃ story, Story story ∧ m.loop.heardBy 0 <+: story) ∧
      ∀ m', Next (fun _ => True) m m' → m.loop.heardBy 0 <+: m'.loop.heardBy 0 := by
  intro l m
  have hstarted : l.Started := ⟨{}, l.kernel, ⟨rfl, rfl, rfl⟩, rfl⟩
  have hm : Course (fun _ => True) ⟨l, [], []⟩ m := course_after l _ fun _ _ => trivial
  have ⟨hstory, hnext⟩ := hstarted.story hm 0
  exact ⟨hstarted, hm, by decide +kernel, hstory, hnext⟩

end Loop

end TextLink
