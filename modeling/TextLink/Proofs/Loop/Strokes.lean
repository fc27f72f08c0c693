import TextLink.Proofs.Connection.Steps
import TextLink.Proofs.Loop.Preservation

/-!
# The strokes of a turn

Between two scenes of a run the loop may do a good deal: it gives a connection a slot and has it
connect, it looks after what came of an event, it closes everything and is gone. All of this is made
up of a few strokes (`Stroke`), of which one matters to everything below: a connection acts, by the
elementary steps of its link. The others change what the loop itself keeps.

So an invariant of runs is shown for what comes from outside, for the calls of a wait, and for every
stroke (`Advance`). The loop is coherent after each stroke, though a connection in its table may be
in no shape until the next one. Which connections may act at a stroke, and on which occasion, is a
parameter (`may`): of an event a run says more than that it has come, and closing takes no attempts.

## Main results

* `Stroke.coherent` — every stroke leaves a coherent loop coherent.
* `Next.advances` — what comes between two scenes.
* `Sound.keeps` — what every advance keeps is kept by a course.
-/

namespace TextLink.Loop

open Relation (ReflTransGen)
open Link (Leads Occasion Steps)

/-- One thing a loop does by itself. -/
inductive Stroke (may : Occasion → Loop → Nat → Prop) : Loop → Loop → Prop where
  /-- The connection in slot `t` acts; the first it does is to attempt to connect. -/
  | act {l : Loop} {t : Nat} {c : Connection} {k : Link} {why : Occasion}
      (hc : l.connections.get? t = some c) (hk : Steps why (l.link c) k)
      (hfirst : c.state = .disconnected → why = .attempting) (hmay : may why l t) :
      Stroke may l (l.absorb t k)
  | remove {l : Loop} {t : Nat} {c : Connection} (hc : l.connections.get? t = some c)
      (hstate : c.state = .closed) (hsocket : c.socket = none)
      (hqueue : (l.queue c.id).state = .closed ∧ (l.queue c.id).writer = none) :
      Stroke may l { l with connections := (l.connections.remove t).2 }
  /-- A requested connection gets a slot. -/
  | enrol {l : Loop} {id : Nat} {address : Address} {handler : Handler} {options : ConnectOptions}
      {later : List Command}
      (hchannel : l.channel = .connect id address handler options :: later) :
      Stroke may l
        (Loop.enrol { l with channel := later } id (requested id address handler options))
  | skip {l : Loop} {c : Command} {later : List Command} (hchannel : l.channel = c :: later) :
      Stroke may l { l with channel := later }
  | refuse {l : Loop} (c : Command) (hvacant : l.Vacant) (hchannel : l.channel = []) :
      Stroke may l (l.refuse c)
  | appoint (l : Loop) (agenda : Agenda) : Stroke may l { l with agenda }
  | note (l : Loop) (rs : List LogRecord) : Stroke may l (l.note rs)
  | clear {l : Loop} (ended : Bool) (hvacant : l.Vacant) :
      Stroke may l { l with channel := [], ended }

/-- Any number of strokes. -/
abbrev Strokes (may : Occasion → Loop → Nat → Prop) : Loop → Loop → Prop :=
  ReflTransGen (Stroke may)

variable {may : Occasion → Loop → Nat → Prop} {allowed : Happening → Prop} {l l' l'' : Loop}
  {t id : Nat} {c : Connection} {k : Link} {why : Occasion} {progress : Progress}

/-! ## Coherence -/

theorem Coherent.leads (h : l.Coherent) (hc : l.connections.get? t = some c)
    (hk : Steps why (l.link c) k) : Leads (l.link c) k :=
  hk.leads (h.lives hc).link

theorem Stroke.coherent (hstroke : Stroke may l l') (h : l.Coherent) : l'.Coherent := by
  cases hstroke with
  | act hc hk _ _ => exact h.absorb hc (h.leads hc hk)
  | remove hc _ hsocket hqueue => exact h.remove hc hsocket hqueue.2
  | enrol hchannel =>
      have ⟨hunowned, ⟨hlt, hstate, htoken⟩, hnot, hended⟩ := h.awaits hchannel
      exact (h.take hchannel).enrol hunowned ⟨hlt, hstate, htoken⟩ (newborn_requested _ _ _ _) hnot
        hended
  | skip hchannel => exact h.take hchannel
  | refuse c hvacant hchannel => exact h.refuse hvacant hchannel c
  | appoint agenda => exact h.change rfl rfl (.refl _) (List.Sublist.refl _) h.ended
  | note rs => exact h.change rfl rfl (.refl _) (List.Sublist.refl _) h.ended
  | clear ended hvacant =>
      exact h.change rfl rfl (.refl _) (List.nil_sublist _) fun _ => ⟨hvacant, rfl⟩

theorem Strokes.coherent (hstrokes : Strokes may l l') (h : l.Coherent) : l'.Coherent := by
  induction hstrokes with
  | refl => exact h
  | tail _ hstroke ih => exact hstroke.coherent ih

/-- What every stroke keeps is kept by any number of them. -/
theorem Strokes.keeps {P : Loop → Prop} (hstrokes : Strokes may l l') (h : l.Coherent)
    (hkeep : ∀ {l l'}, l.Coherent → Stroke may l l' → P l → P l') (hp : P l) : P l' := by
  induction hstrokes with
  | refl => exact hp
  | tail hbefore hstroke ih => exact hkeep (Strokes.coherent hbefore h) hstroke ih

namespace Strokes

theorem stroke (h : Strokes may l l') (hstroke : Stroke may l' l'') : Strokes may l l'' :=
  ReflTransGen.tail h hstroke

/-! ## Connections that act -/

/-- What is left to do about a connection that has acted. -/
theorem settle (h : l.Coherent) (hc : l.connections.get? t = some c)
    (hk : Steps why (l.link c) k) (hfirst : c.state = .disconnected → why = .attempting)
    (hmay : may why l t) {due : Option Instant} (hsettled : Settled due progress k) :
    Strokes may l ((l.absorb t k).apply t progress) := by
  have hact : Strokes may l (l.absorb t k) := ReflTransGen.single (.act hc hk hfirst hmay)
  cases progress with
  | ongoing => exact hact
  | retry deadline => exact hact.stroke (.appoint _ _)
  | closed =>
      have hself : (l.absorb t k).connections.get? t = some k.conn :=
        get?_absorb_self hc
      refine hact.stroke (.remove hself hsettled.state hsettled.socket ?_)
      rw [h.queue_self hc (h.leads hc hk)]
      exact ⟨hsettled.queue, hsettled.writer⟩

/-- An attempt by a connection that has no socket. -/
theorem attempt (h : l.Coherent) (hc : l.connections.get? t = some c)
    (hstate : c.state = .disconnected ∨ c.state = .connecting) (hsocket : c.socket = none)
    (hr : c.registered = none) (hqueue : (l.queue c.id).state ≠ .closed)
    (hattempt : ∀ l t, may .attempting l t) : Strokes may l (l.attempt t).2 := by
  have hsteps : Steps .attempting (l.link c) (l.link c).connect.2 := Steps.connect hstate hsocket hr
  unfold Loop.attempt
  simp only [hc]
  rcases hconnect : (l.link c).connect with ⟨fault | progress, k⟩ <;> rw [hconnect] at hsteps
  · exact ReflTransGen.single (.act hc hsteps (fun _ => rfl) (hattempt _ _))
  · have hne : (l.link c).conn.state ≠ .closed := by
      rcases hstate with hstate | hstate <;> exact fun hclosed => by cases hstate.symm.trans hclosed
    exact settle h hc hsteps (fun _ => rfl) (hattempt _ _)
      (Link.settled_connect hne hqueue hr hconnect)

/-! ## The parts of a turn -/

/-- A connection of a sound loop has made its first attempt. -/
theorem begun (h : l.Sound) (hc : l.connections.get? t = some c) :
    c.state = .disconnected → why = .attempting :=
  fun hstate => absurd hstate (h.shape t c hc).alive.ne_disconnected

theorem rearmFor (h : l.Sound) (id : Nat) (hcalled : ∀ l t, may .called l t) :
    Strokes may l (l.rearmFor id) := by
  unfold Loop.rearmFor
  rcases hfind : l.find? id with _ | ⟨t, c⟩
  · exact ReflTransGen.refl
  · have hc := Coherent.get?_of_find? hfind
    have hrearm : Steps .called (l.link c) (l.link c).rearm.2 := Steps.rearm ReflTransGen.refl
    have hact : Strokes may l (l.absorb t (l.link c).rearm.2) :=
      ReflTransGen.single (.act hc hrearm (begun h hc) (hcalled _ _))
    exact hact.stroke (.note _ _)

theorem closeFor (h : l.Sound) (id : Nat) (hcalled : ∀ l t, may .called l t) :
    Strokes may l (l.closeFor id) := by
  unfold Loop.closeFor
  rcases hfind : l.find? id with _ | ⟨t, c⟩
  · exact ReflTransGen.refl
  · have hacts := h.acts_close (Coherent.get?_of_find? hfind)
    have hclose : Steps .called (l.link c) (l.link c).close := Steps.close ReflTransGen.refl nofun
    exact settle h.coherent hacts.slot hclose (begun h hacts.slot) (hcalled _ _) hacts.settled

theorem obey (h : l.Sound) {command : Command} {later : List Command}
    (hchannel : l.channel = command :: later) (hattempt : ∀ l t, may .attempting l t)
    (hcalled : ∀ l t, may .called l t) :
    Strokes may l ({ l with channel := later }.obey command).2 := by
  have hskip : Strokes may l { l with channel := later } := ReflTransGen.single (.skip hchannel)
  cases command with
  | connect id address handler options =>
      have ⟨_, ⟨hlt, hstate, _⟩, _, _⟩ := h.coherent.awaits hchannel
      have henrol : Stroke may l (Loop.enrol { l with channel := later } id
        (requested id address handler options)) := .enrol hchannel
      show Strokes may l (takeUp _ id address handler options).2
      unfold takeUp
      split
      · have hslot := get?_enrol_self (l := { l with channel := later }) h.coherent.table id
          (requested id address handler options)
        refine ReflTransGen.head henrol
          (attempt (henrol.coherent h.coherent) hslot (.inl rfl) rfl rfl (fun hclosed => ?_)
            hattempt)
        have hqueue := state_queue_enrol (l := { l with channel := later }) hlt
          (requested id address handler options)
        cases (hqueue.trans hstate).symm.trans hclosed
      · exact hskip
  | flush id => exact ReflTransGen.trans hskip (rearmFor (h.take hchannel) id hcalled)
  | close id => exact ReflTransGen.trans hskip (closeFor (h.take hchannel) id hcalled)
  | shutdown => exact hskip

theorem retry (h : l.Sound) (due : Appointment) (hattempt : ∀ l t, may .attempting l t) :
    Strokes may l (l.retry due).2 := by
  unfold Loop.retry
  rcases hc : l.connections.get? due.token with _ | c
  · exact ReflTransGen.refl
  · by_cases hdue : c.retryAt = some due.deadline
    · simp only [if_pos hdue]
      -- Only a connection that waits has a retry due.
      cases h.shape due.token c hc with
      | connected _ _ _ _ hretry _ _ | inFlight _ _ _ hretry _ _ => cases hretry.symm.trans hdue
      | waiting hstate hsocket hr _ _ hqueue =>
          exact attempt h.coherent hc (.inr hstate) hsocket hr
            (fun hclosed => by cases hqueue.symm.trans hclosed) hattempt
    · simp only [if_neg hdue]
      exact ReflTransGen.refl

theorem handle (h : l.Sound) (event : Event)
    (hmay : ∀ why, why.isEvent = true → may why l event.token) :
    Strokes may l (l.handle event).2 := by
  unfold Loop.handle
  rcases hc : l.connections.get? event.token with _ | c
  · exact ReflTransGen.refl
  · have hsteps := Steps.handleEvent (l.link c) event
    have hmay := hmay _ (Occasion.isEvent_ofEvent (l.link c).conn.state)
    have hsettled := Link.settled_handleEvent (l := l.link c) (h.shape event.token c hc) event
    simp only
    rcases hr : (l.link c).handleEvent event with ⟨(e | fault) | progress, k⟩ <;>
      rw [hr] at hsteps hsettled
    · exact (ReflTransGen.single (.act hc hsteps (begun h hc) hmay)).tail (.note _ _)
    · exact ReflTransGen.single (.act hc hsteps (begun h hc) hmay)
    · exact settle h.coherent hc hsteps (begun h hc) hmay hsettled

theorem rearmSlot (h : l.Sound) (t : Nat) (hcalled : ∀ l t, may .called l t) :
    Strokes may l (l.rearmSlot t) := by
  unfold Loop.rearmSlot
  rcases hc : l.connections.get? t with _ | c
  · exact ReflTransGen.refl
  · have hrearm : Steps .called (l.link c) (l.link c).rearm.2 := Steps.rearm ReflTransGen.refl
    have hact : Strokes may l (l.absorb t (l.link c).rearm.2) :=
      ReflTransGen.single (.act hc hrearm (begun h hc) (hcalled _ _))
    exact hact.stroke (.note _ _)

/-! ## Ending -/

theorem closeSlot (h : l.Ending) (t : Nat) (hcalled : ∀ l t, may .called l t) :
    Strokes may l (l.closeSlot t) := by
  rcases hc : l.connections.get? t with _ | c
  · unfold Loop.closeSlot
    rw [hc]
  · have hsteps : Steps .called (l.link c) (l.link c).close := Steps.close ReflTransGen.refl nofun
    have halive := h.alive t c hc
    have ⟨hsocket, hwriter⟩ := Link.holdsNone_close (l := l.link c) halive.ne_closed
    have hself : (l.absorb t (l.link c).close).connections.get? t = some (l.link c).close.conn :=
      get?_absorb_self hc
    have hact : Strokes may l (l.absorb t (l.link c).close) :=
      ReflTransGen.single (.act hc hsteps (fun hstate => absurd hstate halive.ne_disconnected)
        (hcalled _ _))
    rw [closeSlot_eq hc]
    refine hact.stroke (.remove hself (Link.state_close _) hsocket ?_)
    rw [h.coherent.queue_self hc (h.coherent.leads hc hsteps)]
    refine ⟨?_, hwriter⟩
    rw [Link.queue_close halive.ne_closed]
    rfl

theorem closeSlots (h : l.Ending) (tokens : List Nat) (hcalled : ∀ l t, may .called l t) :
    Strokes may l (tokens.foldl Loop.closeSlot l) := by
  induction tokens generalizing l with
  | nil => exact ReflTransGen.refl
  | cons token later ih =>
      exact ReflTransGen.trans (closeSlot h token hcalled) (ih (h.closeSlot token))

theorem refuseAll (hvacant : l.Vacant) (hchannel : l.channel = []) (commands : List Command) :
    Strokes may l (commands.foldl Loop.refuse l) := by
  induction commands generalizing l with
  | nil => exact ReflTransGen.refl
  | cons c later ih =>
      refine ReflTransGen.head (.refuse c hvacant hchannel)
        (ih (fun t => ?_) ((channel_refuse l c).trans hchannel))
      rw [connections_refuse]
      exact hvacant t

theorem closeAll (h : l.Ending) (hcalled : ∀ l t, may .called l t) : Strokes may l l.closeAll := by
  have hslots : Strokes may l (l.connections.keys.foldl Loop.closeSlot l) := closeSlots h _ hcalled
  have hvacant := vacant_closeSlots l
  unfold Loop.closeAll
  simp only
  generalize l.connections.keys.foldl Loop.closeSlot l = l₁ at hslots hvacant ⊢
  rw [refuseAll_channel]
  have hclear : Strokes may l { l₁ with agenda := .empty, channel := [] } :=
    (hslots.stroke (.appoint l₁ .empty)).stroke (.clear l₁.ended hvacant)
  exact ReflTransGen.trans hclear
    (refuseAll (l := { l₁ with agenda := .empty, channel := [] }) hvacant rfl l₁.channel)

theorem finish (hvacant : l.Vacant) : Strokes may l l.finish :=
  ReflTransGen.single (.clear true hvacant)

theorem drop (h : l.Ending) (hcalled : ∀ l t, may .called l t) : Strokes may l l.drop := by
  unfold Loop.drop
  by_cases hempty : l.connections.isEmpty
  · rw [if_pos hempty]
    exact finish ((SlotTable.isEmpty_iff h.coherent.table).1 hempty)
  · rw [if_neg hempty]
    exact ReflTransGen.trans (closeAll h hcalled) (finish h.closeAll.2)

end Strokes

/-! ## Between two scenes -/

/-- What comes between two scenes: something from outside, a call of a wait, or
strokes of the loop. -/
inductive Advance (allowed : Happening → Prop) (may : Occasion → Loop → Nat → Prop) :
    Loop → Loop → Prop where
  | request (l : Loop) (r : Request) : Advance allowed may l (l.request r).2
  | happen (l : Loop) {h : Happening} (hallowed : allowed h) : Advance allowed may l (l.happen h)
  | beginWait (l : Loop) (millis : Option Nat) :
      Advance allowed may l { l with kernel := (l.kernel.beginWait millis).2 }
  | pass (l : Loop) (t : Instant) :
      Advance allowed may l { l with kernel := { l.kernel with clock := t } }
  | answer (l : Loop) (millis : Option Nat) (reports : List Report) :
      Advance allowed may l
        { l with kernel := ((l.kernel.answerWait millis reports).collect (.ok reports)).2 }
  | strokes {l l' : Loop} (h : Strokes may l l') : Advance allowed may l l'

/-- What comes between two scenes, if the connection whose event is handled may handle it. -/
theorem Next.advances {m m' : Scene} (h : Next allowed m m') (hl : m.loop.Sound)
    (hcalls : ∀ why l t, why.isEvent = false → may why l t)
    (hmay : ∀ event later, m.events = event :: later →
      ∀ why, why.isEvent = true → may why m.loop event.token) :
    Advance allowed may m.loop m'.loop := by
  have hattempt (l : Loop) (t : Nat) : may .attempting l t := hcalls _ l t rfl
  have hcalled (l : Loop) (t : Nat) : may .called l t := hcalls _ l t rfl
  cases h with
  | request l r due events => exact .request l r
  | happen l hallowed due events => exact .happen l hallowed
  | beginWait l millis => exact .beginWait l millis
  | pass l t => exact .pass l t
  | answer l millis _ => exact .answer l millis _
  | obey hchannel h =>
      have hobey : Strokes may _ _ := Strokes.obey hl hchannel hattempt hcalled
      rw [h] at hobey
      exact .strokes hobey
  | obeyFault hchannel h =>
      have hobey : Strokes may _ _ := Strokes.obey hl hchannel hattempt hcalled
      rw [h] at hobey
      exact .strokes
        (ReflTransGen.trans hobey (Strokes.drop ((hl.obey hchannel).ending h) hcalled))
  | takeDue l => exact .strokes (.single (.appoint l _))
  | @retry l l' due later h =>
      have hretry : Strokes may l (l.retry due).2 := Strokes.retry hl due hattempt
      rw [h] at hretry
      exact .strokes hretry
  | @retryFault l l' due fault later h =>
      have hretry : Strokes may l (l.retry due).2 := Strokes.retry hl due hattempt
      rw [h] at hretry
      exact .strokes (ReflTransGen.trans hretry (Strokes.drop ((hl.retry due).ending h) hcalled))
  | rearm l token => exact .strokes (.rearmSlot hl token hcalled)
  | @handle l l' event later h =>
      have hhandle := Strokes.handle hl event (hmay event later rfl)
      rw [h] at hhandle
      exact .strokes hhandle
  | @handleFault l l' event fault later h =>
      have hhandle := Strokes.handle hl event (hmay event later rfl)
      rw [h] at hhandle
      exact .strokes (ReflTransGen.trans hhandle
        (Strokes.drop ((hl.handle event).ending h) hcalled))
  | note l rs => exact .strokes (.single (.note l rs))
  | finish l =>
      have hclose : Strokes may l l.closeAll := Strokes.closeAll hl.ending hcalled
      exact .strokes (ReflTransGen.trans hclose (Strokes.finish hl.ending.closeAll.2))
  | drop l => exact .strokes (.drop hl.ending hcalled)

theorem Sound.next {m m' : Scene} (hl : m.loop.Sound) (h : Next allowed m m') : m'.loop.Sound :=
  Sound.move (m := m.moment) hl h.move

theorem Sound.course {m m' : Scene} (hl : m.loop.Sound) (h : Course allowed m m') : m'.loop.Sound :=
  Sound.moves (m := m.moment) hl (Course.moves h)

/-! ## Requests -/

/-- `k'` is `k`, or its waker was signalled. -/
def Woken (k k' : Kernel) : Prop := k' = k ∨ k' = k.wake

/-- A request makes no call but those of a queue that writes to its socket; it may wake the loop. -/
theorem kernel_request (l : Loop) (r : Request) : ∃ k : Kernel,
    (k = l.kernel ∨ ∃ id w, (l.queue id).writer = some w ∧ Kernel.Sends w l.kernel k) ∧
      Woken k (l.request r).2.kernel := by
  have hoffered (id : Nat) (bytes : Bytes) : (l.offered id bytes).kernel = l.kernel ∨
      ∃ id' w, (l.queue id').writer = some w ∧
        Kernel.Sends w l.kernel (l.offered id bytes).kernel :=
    (Kernel.sends_push (l.queue id) l.kernel bytes).imp_right fun ⟨w, hw, hsends⟩ =>
      ⟨id, w, hw, hsends⟩
  have hasked := asked l r
  generalize (l.request r).2 = l' at hasked ⊢
  cases hasked with
  | refused => exact ⟨l.kernel, .inl rfl, .inl rfl⟩
  | told | joined => exact ⟨l.kernel, .inl rfl, .inr rfl⟩
  | offered id bytes | stranded id bytes => exact ⟨_, hoffered id bytes, .inl rfl⟩
  | armed id bytes => exact ⟨_, hoffered id bytes, .inr rfl⟩

/-- What every advance keeps is kept by a course, whatever its events. -/
theorem Sound.keeps {P : Loop → Prop} {m m' : Scene} (hl : m.loop.Sound) (h : Course allowed m m')
    (hkeep : ∀ {l l'}, l.Sound → Advance allowed (fun _ _ _ => True) l l' → P l → P l')
    (hp : P m.loop) : P m'.loop := by
  induction h with
  | refl => exact hp
  | tail hbefore hnext ih =>
      have hsound := hl.course hbefore
      exact hkeep hsound
        (hnext.advances hsound (fun _ _ _ _ => trivial) fun _ _ _ _ _ => trivial) ih

end TextLink.Loop
