import TextLink.Proofs.Connection.Establishing
import TextLink.Proofs.Loop.Mirror
import TextLink.Proofs.Loop.Requested

/-!
# No event comes too early

A loop tells connections by slots, and an event names a slot only. Where nothing is reported out of
nowhere, though, an event is told of a socket whose connect has ended, and which the connection in
the slot holds; and until the event is handled the connection may lose that socket but take no other
(`Ready`). So whoever handles an event has ended its connect, and every connection of the loop is
truthful, in every scene of a run (`Foretold`).

## Main results

* `ready_of_pending` — what a wait reports.
* `Stroke.truthful` — what the loop does keeps its connections truthful.
* `Foretold.next` — and its events come in time.
-/

namespace TextLink.Loop

open Relation (ReflTransGen)
open Link (Occasion Steps)

variable {allowed : Happening → Prop} {l l' : Loop} {t t' : Nat} {c : Connection}

/-! ## Truthful loops -/

/-- The connections say the truth, and the kernel reports nothing else. -/
structure Truthful (l : Loop) : Prop where
  closes : l.kernel.closeUnregisters = true
  injections : l.kernel.injections = []
  links : ∀ t c, l.connections.get? t = some c → (l.link c).Truthful

/-- The connect of the socket in slot `t`, if there is one, has ended. -/
def Ready (l : Loop) (t : Nat) : Prop :=
  ∀ c s, l.connections.get? t = some c → c.socket = some s → l.kernel.IsOver s

/-- Only connections whose connect has ended act for an event. -/
def InTime (why : Occasion) (l : Loop) (t : Nat) : Prop := why.isEvent = true → l.Ready t

theorem InTime.prompted {why : Occasion} (h : InTime why l t) (hc : l.connections.get? t = some c) :
    (l.link c).Prompted why :=
  fun hevent s hs => h hevent c s hc hs

/-- A queue writes only for an established connection. -/
theorem writer_up {q : SendQueue} (h : Shape c q) {w : SocketId} (hw : q.writer = some w) :
    c.state = .connected ∧ c.socket = some w := by
  cases h with
  | connected hstate hs _ _ _ hwriter _ => exact ⟨hstate, by rw [hs, ← hwriter, hw]⟩
  | inFlight _ _ _ _ hwriter _ | waiting _ _ _ _ hwriter _ => cases hwriter.symm.trans hw

/-- The connections stay, and the kernel goes on by itself. -/
theorem Truthful.proceeds (h : l.Truthful) (hl : l'.Sound)
    (hconnections : l'.connections = l.connections)
    (hk : l.kernel.Proceeds l'.kernel) : l'.Truthful where
  closes := hk.closeUnregisters_eq.trans h.closes
  injections := hk.injections h.injections
  links t c hc := by
    have hlink := h.links t c (hconnections ▸ hc)
    have hup (hstate : c.state = .connected) (s : SocketId) (hs : c.socket = some s) :
        l'.kernel.IsUp s := hk.up s (hlink.up hstate s hs)
    refine ⟨fun s hs => hk.tried (hlink.tried s hs), hup, fun w hw => ?_⟩
    have ⟨hstate, hs⟩ := writer_up (hl.shape t c hc) hw
    exact hup hstate w hs

theorem Ready.proceeds (h : l.Ready t) (hconnections : l'.connections = l.connections)
    (hk : l.kernel.Proceeds l'.kernel) : l'.Ready t :=
  fun c s hc hs => hk.isOver (h c s (hconnections ▸ hc) hs)

/-! ## What the loop does -/

/-- What others hold is as it was after a connection has acted. -/
theorem socket_eq_of_act {why : Occasion} {k : Link} (hl : l.Coherent)
    (hc : l.connections.get? t = some c) (hk : Steps why (l.link c) k) {c' : Connection}
    (hc' : l.connections.get? t' = some c') (hne : t' ≠ t) {s : SocketId}
    (hs : (l.link c').holds s) : k.kernel.sockets[s]? = l.kernel.sockets[s]? :=
  (hl.leads hc hk).touches.socket_eq s ((hl.lives hc').link.open_of_holds s hs).lt_length
    (hl.not_holds hc hc' hne hs)

theorem Truthful.absorb (h : l.Truthful) (hl : l.Coherent) (hc : l.connections.get? t = some c)
    {why : Occasion} {k : Link} (hk : Steps why (l.link c) k) (hmay : InTime why l t) :
    (l.absorb t k).Truthful := by
  have hkeeps := hk.keeps
  have ⟨htruthful, _⟩ := hk.truthful (hl.lives hc).link (h.links t c hc) (hmay.prompted hc)
  refine ⟨hkeeps.closeUnregisters_eq.trans h.closes, hkeeps.injections h.injections,
    fun t' c' hc' => ?_⟩
  rcases slot_absorb hc hc' with ⟨_, rfl⟩ | ⟨hne, hc'⟩
  · rw [hl.link_self hc (hl.leads hc hk)]
    exact htruthful
  · have hold := h.links t' c' hc'
    have hqueue := hl.queue_other hc (hl.leads hc hk) hc' hne
    refine ⟨fun s hs => ?_, fun hstate s hs => hkeeps.up s (hold.up hstate s hs), fun w hw => ?_⟩
    · obtain ⟨⟨sock, hsock, hstarted⟩, v, hv⟩ := hold.tried s hs
      have hsame := socket_eq_of_act hl hc hk hc' hne (Link.holds_iff.2 (.inl hs))
      exact ⟨⟨sock, hsame.trans hsock, hstarted⟩, v, hkeeps.calls_prefix.subset hv⟩
    · refine hkeeps.up w (hold.writer w ?_)
      have hw : ((l.absorb t k).queue c'.id).writer = some w := hw
      rwa [hqueue] at hw

/-- Nothing changes that is said of sockets. -/
theorem Truthful.congr (h : l.Truthful) (hk : l'.kernel = l.kernel)
    (hlinks : ∀ t c, l'.connections.get? t = some c → l.connections.get? t = some c ∧
      (l'.queue c.id).writer = (l.queue c.id).writer) : l'.Truthful where
  closes := hk ▸ h.closes
  injections := hk ▸ h.injections
  links t c hc := by
    have ⟨hc, hwriter⟩ := hlinks t c hc
    have hlink := h.links t c hc
    have heq : (l'.link c).kernel = (l.link c).kernel := hk
    constructor
    · rw [heq]
      exact hlink.tried
    · rw [heq]
      exact hlink.up
    · intro w hw
      rw [heq]
      exact hlink.writer w (hwriter.symm.trans hw)

theorem Stroke.keeps_kernel {may : Occasion → Loop → Nat → Prop} (h : Stroke may l l') :
    l.kernel.Keeps l'.kernel := by
  cases h with
  | act _ hk _ _ => exact hk.keeps
  | remove | enrol | skip | appoint | note | clear => exact .refl _
  | refuse command _ _ => cases command <;> exact .refl _

theorem Strokes.keeps_kernel {may : Occasion → Loop → Nat → Prop} (h : Strokes may l l') :
    l.kernel.Keeps l'.kernel := by
  induction h with
  | refl => exact .refl _
  | tail _ hstroke ih => exact ih.trans hstroke.keeps_kernel

theorem Stroke.truthful (hstroke : Stroke InTime l l') (hl : l.Coherent) (h : l.Truthful) :
    l'.Truthful := by
  cases hstroke with
  | act hc hk _ hmay => exact h.absorb hl hc hk hmay
  | remove _ _ _ _ => exact h.congr rfl fun t c hc => ⟨(slot_remove hc).2, rfl⟩
  | @enrol id address handler options later hchannel =>
      have ⟨hunowned, hawaits, _, _⟩ := hl.awaits hchannel
      refine ⟨h.closes, h.injections, fun t c hc => ?_⟩
      rcases slot_enrol (l := { l with channel := later }) hl.table hc with ⟨_, rfl⟩ | ⟨_, hc⟩
      · -- The new connection has no socket, and its queue writes to none.
        refine ⟨fun s hs => (by cases hs), fun hstate => (by cases hstate), fun w hw => ?_⟩
        have hw : ((Loop.enrol { l with channel := later } id
          (requested id address handler options)).queue id).writer = some w := hw
        rw [queue_enrol (l := { l with channel := later }) hawaits.id_lt, if_pos rfl] at hw
        cases (hl.idle id hunowned).symm.trans hw
      · have hlink := h.links t c hc
        have hqueue := queue_enrol_other (l := { l with channel := later }) hawaits.id_lt hunowned
          (requested id address handler options) hc
        refine ⟨hlink.tried, hlink.up, fun w hw => hlink.writer w ?_⟩
        exact (congrArg SendQueue.writer hqueue).symm.trans hw
  | skip | appoint | note | clear => exact h.congr rfl fun _ _ hc => ⟨hc, rfl⟩
  | refuse command hvacant _ =>
      have hnone {t : Nat} {c : Connection} (hc : (l.refuse command).connections.get? t = some c) :
          False := by
        rw [connections_refuse, hvacant t] at hc
        cases hc
      have hkernel : (l.refuse command).kernel = l.kernel := by cases command <;> rfl
      exact h.congr hkernel fun t c hc => (hnone hc).elim

theorem Strokes.truthful (hstrokes : Strokes InTime l l') (hl : l.Coherent) (h : l.Truthful) :
    l'.Truthful :=
  hstrokes.keeps hl (fun hl hstroke h => hstroke.truthful hl h) h

/-! ## Events -/

theorem open_of_holder? {k : Kernel} {s : SocketId} {d : Nat} (h : k.holder? d = some s) :
    k.Open s ∧ k.descriptor s = d := by
  obtain ⟨hlt, hholds, _⟩ := List.findIdx?_eq_some_iff_getElem.1 h
  rw [Bool.and_eq_true, beq_iff_eq] at hholds
  have hlook : k.sockets[s]? = some k.sockets[s] := List.getElem?_eq_getElem hlt
  refine ⟨⟨_, hlook, hholds.1⟩, ?_⟩
  rw [Kernel.descriptor, hlook]
  exact hholds.2

theorem any_through_empty (mask : Flags) : (Flags.through {} mask).any = false := rfl

/-- A report says what the socket of the connection in slot `t` is ready for. -/
inductive Told (l : Loop) (t : Nat) : Report → Prop where
  | intro {c : Connection} {s : SocketId} {interest : Interest} {sock : Socket}
      (slot : l.connections.get? t = some c) (socket : c.socket = some s)
      (registered : c.registered = some interest) (lookup : l.kernel.sockets[s]? = some sock)
      (any : (sock.readiness.through (.ofInterest interest)).any = true) :
      Told l t ⟨.socket s t, sock.readiness.through (.ofInterest interest)⟩

theorem Told.token_eq {report : Report} (h : Told l t report) : report.token = t := by
  cases h
  rfl

/-- What is reported of a registration is told of the connection it was made for. -/
theorem told_of_readyReports (hl : l.Sound) {report : Report}
    (hreport : report ∈ l.kernel.readyReports) : ∃ t, l.Told t report := by
  obtain ⟨r, hr, hready⟩ := List.mem_filterMap.1 hreport
  obtain ⟨s, hholder, hready⟩ := Option.bind_eq_some_iff.1 hready
  obtain ⟨sock, hsock, hready⟩ := Option.bind_eq_some_iff.1 hready
  have ⟨hopen, hd⟩ := open_of_holder? hholder
  -- The open socket is held by a connection, which has registered it once.
  obtain ⟨t, c, hc, hheld⟩ := hl.coherent.kept s hopen
  have hshape := hl.shape t c hc
  have hs : c.socket = some s := (Shape.holds_iff (l := l.link c) hshape).1 hheld
  obtain ⟨i, hi⟩ := hshape.exists_registered hs
  obtain ⟨s', hs', hwatches⟩ := (hl.coherent.lives hc).link.watched.watches_single i hi
  obtain rfl := Option.some.inj (hs.symm.trans hs')
  have hmem : r ∈ l.kernel.watches (l.kernel.descriptor s) := Kernel.mem_watches.2 ⟨hr, hd.symm⟩
  have hwatches : l.kernel.watches (l.kernel.descriptor s) =
    [⟨l.kernel.descriptor s, c.token, i⟩] := hwatches
  rw [hwatches, List.mem_singleton] at hmem
  have htoken : r.token = t := by
    rw [hmem]
    exact (hl.coherent.lives hc).token_eq
  have hinterest : r.interest = i := by rw [hmem]
  have hany : (sock.readiness.through (.ofInterest r.interest)).any = true := by
    by_contra hany
    rw [if_neg hany] at hready
    cases hready
  rw [if_pos hany, hinterest, htoken] at hready
  rw [hinterest] at hany
  rw [← Option.some.inj hready]
  exact ⟨t, .intro hc hs hi hsock hany⟩

/-- Whoever is told of is connected by a connect that has ended. -/
theorem Told.ready {report : Report} (h : Told l t report) (hl : l.Truthful) : l.Ready t := by
  cases h with
  | @intro c s interest sock hc hs hi hsock hany =>
      obtain ⟨⟨sock', hsock', hstarted⟩, _⟩ := (hl.links t c hc).tried s hs
      obtain rfl := Option.some.inj (hsock.symm.trans hsock')
      intro c' s' hc' hs'
      obtain rfl := Option.some.inj (hc.symm.trans hc')
      obtain rfl := Option.some.inj (hs.symm.trans hs')
      refine ⟨sock, hsock, Socket.isOver_of_readiness hstarted fun hnone => ?_⟩
      rw [hnone, any_through_empty] at hany
      cases hany

/-- What a wait reports besides the waker is told of connections. -/
theorem told_of_pending (hl : l.Sound) (hquiet : l.kernel.injections = []) {capacity : Nat}
    {report : Report}
    (hreport : report ∈ l.kernel.pendingReports capacity) :
    l.kernel.signalled = true ∧ report = ⟨.waker, {}⟩ ∨ ∃ t, l.Told t report := by
  have hmem := List.mem_of_mem_take hreport
  rw [hquiet, List.map_nil, List.append_nil] at hmem
  rcases List.mem_append.1 hmem with hwoken | hready
  · split at hwoken
    · next hsignalled => exact .inl ⟨hsignalled, List.mem_singleton.1 hwoken⟩
    · cases hwoken
  · exact .inr (told_of_readyReports hl hready)

theorem token_of_event? {report : Report} {event : Event} (h : report.event? = some event) :
    event.token = report.token := by
  unfold Report.event? at h
  split at h
  · cases h
  · rw [← Option.some.inj h]

/-- What a wait reports is told of connections whose connect has ended. -/
theorem ready_of_pending (hl : l.Sound) (h : l.Truthful) {capacity : Nat} {event : Event}
    (hevent : event ∈ (l.kernel.pendingReports capacity).filterMap Report.event?) :
    l.Ready event.token := by
  obtain ⟨report, hreport, hevent⟩ := List.mem_filterMap.1 hevent
  rw [token_of_event? hevent]
  rcases told_of_pending hl h.injections hreport with ⟨_, rfl⟩ | ⟨t, htold⟩
  · -- The waker's report is no event.
    cases hevent
  · rw [htold.token_eq]
    exact htold.ready h

/-- An event leaves slots ready: none takes another socket for it, and those of others
are as they were. -/
theorem Ready.handle (h : l.Ready t) (hl : l.Sound) (ht : l.Truthful) {event : Event}
    (hevent : l.Ready event.token) : (l.handle event).2.Ready t := by
  unfold Loop.handle
  rcases hc : l.connections.get? event.token with _ | c
  · exact h
  · have hsteps := Steps.handleEvent (l.link c) event
    have hisEvent := Occasion.isEvent_ofEvent (l.link c).conn.state
    have ⟨_, hprompted⟩ := hsteps.truthful (hl.coherent.lives hc).link (ht.links _ c hc)
      fun _ s hs => hevent c s hc hs
    have habsorb : (l.absorb event.token ((l.link c).handleEvent event).2).Ready t := by
      intro c' s hc' hs
      rcases slot_absorb hc hc' with ⟨_, rfl⟩ | ⟨hne, hc'⟩
      · exact hprompted hisEvent s hs
      · obtain ⟨sock, hsock, hover⟩ := h c' s hc' hs
        have hsame := socket_eq_of_act hl.coherent hc hsteps hc' hne (Link.holds_iff.2 (.inl hs))
        exact ⟨sock, hsame.trans hsock, hover⟩
    simp only
    generalize (l.link c).handleEvent event = r at habsorb ⊢
    rcases r with ⟨(e | fault) | progress, k⟩
    · exact habsorb
    · exact habsorb
    · cases progress with
      | ongoing | retry _ => exact habsorb
      | closed => exact fun c' s hc' hs => habsorb c' s (slot_remove hc').2 hs

/-! ## Runs -/

theorem proceeds_request (l : Loop) (r : Request) : l.kernel.Proceeds (l.request r).2.kernel := by
  obtain ⟨k, hk, hkernel⟩ := kernel_request l r
  have hproceeds : l.kernel.Proceeds k := by
    rcases hk with rfl | ⟨_, w, _, hsends⟩
    · exact .refl _
    · exact hsends.proceeds
  rcases hkernel with heq | heq <;> rw [heq]
  · exact hproceeds
  · exact hproceeds.trans (.of_sockets_eq rfl (List.prefix_refl _) rfl (List.suffix_refl _))

/-- What comes between two scenes concerns no connection, and the kernel goes on by itself, or
the loop does it. -/
theorem Advance.proceeds_or_strokes {may : Occasion → Loop → Nat → Prop}
    (hallowed : ∀ h, allowed h → ∀ i, h ≠ .inject i) (h : Advance allowed may l l') :
    l'.connections = l.connections ∧ l.kernel.Proceeds l'.kernel ∨ Strokes may l l' := by
  cases h with
  | request r => exact .inl ⟨(asks_request l r).connections_eq, proceeds_request l r⟩
  | @happen happening hhappens =>
      exact .inl ⟨rfl, Kernel.proceeds_happen l.kernel (hallowed happening hhappens)⟩
  | beginWait millis => exact .inl ⟨rfl, Kernel.proceeds_beginWait l.kernel millis⟩
  | pass t =>
      exact .inl ⟨rfl, .of_sockets_eq rfl (List.prefix_refl _) rfl (List.suffix_refl _)⟩
  | answer millis reports => exact .inl ⟨rfl, Kernel.proceeds_answer l.kernel millis reports⟩
  | strokes hstrokes => exact .inr hstrokes

/-- What has come about in the kernel stays so. -/
theorem Advance.keeps_kernel {may : Occasion → Loop → Nat → Prop}
    (hallowed : ∀ h, allowed h → ∀ i, h ≠ .inject i) (h : Advance allowed may l l') :
    l.kernel.Keeps l'.kernel := by
  rcases h.proceeds_or_strokes hallowed with ⟨_, hproceeds⟩ | hstrokes
  · exact hproceeds.toKeeps
  · exact hstrokes.keeps_kernel

/-- The loop is truthful, and the events still to be handled are told of connects
that have ended. -/
structure Foretold (m : Scene) : Prop where
  truthful : m.loop.Truthful
  ready : ∀ event ∈ m.events, m.loop.Ready event.token

theorem Foretold.advances {m m' : Scene} (h : Foretold m) (hl : m.loop.Sound)
    (hnext : Next allowed m m') : Advance allowed InTime m.loop m'.loop := by
  refine hnext.advances hl (fun why l t hwhy hevent => ?_) fun event later hevents why _ _ => ?_
  · cases hwhy.symm.trans hevent
  · exact h.ready event (hevents ▸ List.mem_cons_self)

theorem Foretold.next {m m' : Scene} (h : Foretold m) (hl : m.loop.Sound)
    (hallowed : ∀ h, allowed h → ∀ i, h ≠ .inject i) (hnext : Next allowed m m') : Foretold m' := by
  have hl' := hl.next hnext
  have hor := (h.advances hl hnext).proceeds_or_strokes hallowed
  have htruthful : m'.loop.Truthful := by
    rcases hor with ⟨hconnections, hproceeds⟩ | hstrokes
    · exact h.truthful.proceeds hl' hconnections hproceeds
    · exact hstrokes.truthful hl.coherent h.truthful
  have hnone {l : Loop} {due : List Appointment} (hl : l.Truthful) : Foretold ⟨l, due, []⟩ :=
    ⟨hl, fun _ hevent => absurd hevent List.not_mem_nil⟩
  cases hnext with
  | request l r due events =>
      exact ⟨htruthful, fun event hevent => (h.ready event hevent).proceeds
        (asks_request l r).connections_eq (proceeds_request l r)⟩
  | happen l hhappens due events =>
      exact ⟨htruthful, fun event hevent =>
        (h.ready event hevent).proceeds rfl (Kernel.proceeds_happen _ (hallowed _ hhappens))⟩
  | answer l millis hreports =>
      refine ⟨htruthful, fun event hevent => ?_⟩
      subst hreports
      exact (ready_of_pending hl h.truthful hevent).proceeds rfl (Kernel.proceeds_answer _ _ _)
  | @handle l l' event later hhandle =>
      refine ⟨htruthful, fun event' hevent' => ?_⟩
      have hready := (h.ready event' (List.mem_cons_of_mem _ hevent')).handle hl h.truthful
        (h.ready event List.mem_cons_self)
      rwa [hhandle] at hready
  | obey | obeyFault | takeDue | retry | retryFault | rearm | beginWait | pass | handleFault
  | note | finish | drop => exact hnone htruthful

end TextLink.Loop
