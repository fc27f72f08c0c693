import TextLink.Proofs.Connection.Setbacks
import TextLink.Proofs.Loop.Fortunes

/-!
# What an established connection withstands

A call can fail in many ways that pass by: a receive, a send or a change of what is watched is
refused with an error that says nothing about the peer. An event that meets such an error is cut
short, and costs the connection nothing but the rest of the event (`CutShort`). Whatever else there
is in the loop does not notice.

So an established connection stays established, on the same socket, until a call tells that the
stream is over or that the peer is gone, or a command closes it, or the loop is over (`TakesAway`).

## Main results

* `Sound.cutShort` — an event that fails.
* `Sound.stays_or_taken` — what comes next for an established connection.
* `Started.withstands` — both, over every run.
-/

namespace TextLink

namespace Loop

open Relation (ReflTransGen)
open Kernel (Lost)

variable {allowed : Happening → Prop} {l l' : Loop} {t id : Nat} {c : Connection} {s : SocketId}
  {event : Event} {e : IoError} {k : Link}

/-! ## An event that fails -/

/-- An event was cut short on connection `c` in slot `t`, whose socket is `s`: the connection and
all others are as they were but for what was decoded and written by then. -/
structure CutShort (l : Loop) (t : Nat) (c : Connection) (s : SocketId) (l' : Loop) : Prop where
  slot : ∃ decoder stalled, l'.connections.get? t = some { c with decoder, stalled }
  slot_other : ∀ t', t' ≠ t → l'.connections.get? t' = l.connections.get? t'
  queue_other : ∀ id, id ≠ c.id → l'.queue id = l.queue id
  agenda_eq : l'.agenda = l.agenda
  channel_eq : l'.channel = l.channel
  registrations_eq : l'.kernel.registrations = l.kernel.registrations
  /-- What was written is gone from the queue, and on the wire of the socket. -/
  output : ∃ written, (l.queue c.id).Progressed written (l'.queue c.id) ∧
    l'.kernel.wires = l.kernel.wires.modify s (· ++ written)

/-- An established connection has a socket, to which its queue writes. -/
theorem Sound.connected (h : l.Sound) (hc : l.connections.get? t = some c)
    (hstate : c.state = .connected) :
    ∃ s, c.socket = some s ∧ c.retryAt = none ∧ (l.queue c.id).writer = some s :=
  (h.shape t c hc).exists_writer hstate

/-- What comes of an event of an established connection. -/
theorem Sound.endures (h : l.Sound) (hc : l.connections.get? t = some c)
    (hstate : c.state = .connected) (hs : c.socket = some s) (event : Event) :
    Link.Endures s (l.link c) ((l.link c).handleEvent event) := by
  obtain ⟨s', hs', _, hw⟩ := h.connected hc hstate
  cases hs.symm.trans hs'
  rw [Link.handleEvent_of_connected hstate]
  exact Link.endures_serve (h.coherent.lives hc).link hs hw event

theorem Sound.cutShort (h : l.Sound) (hc : l.connections.get? event.token = some c)
    (hstate : c.state = .connected) (hs : c.socket = some s)
    (hfails : (l.link c).handleEvent event = (.error (.failed e), k)) :
    (l.handle event).1 = .ok () ∧ CutShort l event.token c s (l.handle event).2 := by
  have hweathers : Link.Weathers s (l.link c) k := by
    have hendures := h.endures hc hstate hs event
    rwa [hfails] at hendures
  obtain ⟨decoder, stalled, hconn⟩ : ∃ decoder stalled, k.conn = { c with decoder, stalled } :=
    hweathers.conn
  have hid : k.conn.id = c.id := by rw [hconn]
  have hlt : k.conn.id < l.queues.length := hid ▸ (h.coherent.lives hc).id_lt
  have hhandle : l.handle event = l.settleEvent event.token (.error (.failed e), k) := by
    rw [handle_of_slot hc, hfails]
  have hslot := get?_settleEvent (r := (.error (.failed e), k)) hc
  have hqueue (id : Nat) : (l.settleEvent event.token (.error (.failed e), k)).2.queue id =
      if id = c.id then k.queue else l.queue id := by
    rw [queue_settleEvent, queue_absorb hlt, hid]
  obtain ⟨written, hprogressed, hwires⟩ := hweathers.output
  rw [hhandle]
  refine ⟨rfl, ?_⟩
  constructor
  · refine ⟨decoder, stalled, ?_⟩
    rw [hslot, if_pos rfl, ← hconn]
    exact if_neg nofun
  · intro t' hne
    rw [hslot, if_neg hne]
  · intro id hne
    rw [hqueue, if_neg hne]
  · rfl
  · rfl
  · exact hweathers.table.registrations_eq
  · refine ⟨written, ?_, hwires⟩
    rw [hqueue, if_pos rfl]
    exact hprogressed

/-- After an event an established connection is as it was, but for what it has decoded and how it is
watched; or a call has told that its socket is of no more use, and it is gone. -/
theorem Sound.weathers_or_lost (h : l.Sound) (hc : l.connections.get? event.token = some c)
    (hstate : c.state = .connected) (hs : c.socket = some s)
    (hhandle : l.handle event = (.ok (), l')) :
    (∃ decoder stalled registered,
      l'.connections.get? event.token = some { c with decoder, stalled, registered }) ∨
      l'.connections.get? event.token = none ∧ Lost s l.kernel l'.kernel := by
  have hendures := h.endures hc hstate hs event
  have hslot := get?_settleEvent (r := (l.link c).handleEvent event) hc event.token
  have hkernel : (l.settleEvent event.token ((l.link c).handleEvent event)).2.kernel = _ :=
    kernel_settleEvent
  rw [if_pos rfl] at hslot
  rw [handle_of_slot hc] at hhandle
  rw [hhandle] at hslot hkernel
  generalize (l.link c).handleEvent event = r at hendures hslot hkernel hhandle
  rcases r with ⟨(e | fault) | (_ | deadline | _), k⟩
  · obtain ⟨decoder, stalled, hconn⟩ := Link.Weathers.conn hendures
    exact .inl ⟨decoder, stalled, c.registered, hslot.trans (congrArg some hconn)⟩
  · cases hhandle
  · obtain ⟨decoder, stalled, registered, hconn⟩ := hendures
    exact .inl ⟨decoder, stalled, registered, hslot.trans (congrArg some hconn)⟩
  · cases hendures
  · have hlost : Lost s l.kernel l'.kernel := hkernel ▸ hendures
    exact .inr ⟨hslot, hlost⟩

/-! ## Staying established -/

/-- Connection number `id` is established in slot `t`, on socket `s`. -/
def StaysUp (t id : Nat) (s : SocketId) (l : Loop) : Prop :=
  ∃ c, l.connections.get? t = some c ∧ c.id = id ∧ c.state = .connected ∧ c.socket = some s

/-- What can take an established connection away, number `id` in slot `t` with socket `s`. -/
inductive TakesAway (t id : Nat) (s : SocketId) : Scene → Scene → Prop where
  | closed {l l' : Loop} {later : List Command} (hchannel : l.channel = .close id :: later)
      (hobey : { l with channel := later }.obey (.close id) = (.ok (), l')) :
      TakesAway t id s ⟨l, [], []⟩ ⟨l', [], []⟩
  /-- While it handled an event, a call told that the stream is over or that the peer is gone. -/
  | lost {l l' : Loop} {event : Event} {later : List Event} (htoken : event.token = t)
      (hhandle : l.handle event = (.ok (), l')) (hlost : Lost s l.kernel l'.kernel) :
      TakesAway t id s ⟨l, [], event :: later⟩ ⟨l', [], later⟩
  | ended {m m' : Scene} (hended : m'.loop.ended = true) : TakesAway t id s m m'

theorem Sound.stays_or_taken {m m' : Scene} (h : m.loop.Sound) (hup : StaysUp t id s m.loop)
    (hnext : Next allowed m m') : StaysUp t id s m'.loop ∨ TakesAway t id s m m' := by
  obtain ⟨c, hc, rfl, hstate, hs⟩ := hup
  cases h.coherent.fares hnext hc with
  | rests hslot => exact .inl ⟨c, hslot, rfl, hstate, hs⟩
  | watched hslot =>
      obtain ⟨registered, hconn⟩ := (m.loop.link c).conn_rearm
      rw [hconn] at hslot
      exact .inl ⟨_, hslot, rfl, hstate, hs⟩
  | closed hchannel hobey => exact .inr (.closed hchannel hobey)
  | retried _ hdue _ =>
      -- Only a connection that waits has a retry due.
      obtain ⟨_, _, hretry, _⟩ := h.connected hc hstate
      cases hretry.symm.trans hdue
  | ended hended => exact .inr (.ended hended)
  | @handled l l' event later htoken hhandle =>
      subst htoken
      rcases h.weathers_or_lost hc hstate hs hhandle with ⟨_, _, _, hslot⟩ | ⟨_, hlost⟩
      · exact .inl ⟨_, hslot, rfl, hstate, hs⟩
      · exact .inr (.lost rfl hhandle hlost)

/--
**A passing failure costs only the event.** In every scene of a run, an event of an established
connection that ends in an error leaves the connection established, on its socket and watched as
before. Its queue lacks the messages written out during the event, and the first one if that was
partly out before and could not be written on, which is counted as given up; of the next message
just the bytes are missing that were written.

An established connection stays so through the rest of the run, unless at some point a receive tells
the end of the stream, or a receive or a send tells that the peer is gone; or a command closes it;
or the loop is over. No other failure of any call takes it away.
-/
theorem Started.withstands (h : l.Started) {m : Scene} (hm : Course allowed ⟨l, [], []⟩ m)
    (hc : m.loop.connections.get? t = some c) (hstate : c.state = .connected) :
    ∃ s, c.socket = some s ∧
      (∀ event e k, event.token = t →
        (m.loop.link c).handleEvent event = (.error (.failed e), k) →
          (m.loop.handle event).1 = .ok () ∧ CutShort m.loop t c s (m.loop.handle event).2) ∧
      ∀ m', Course allowed m m' → StaysUp t c.id s m'.loop ∨
        ∃ m₁ m₂, Course allowed m m₁ ∧ StaysUp t c.id s m₁.loop ∧ Next allowed m₁ m₂ ∧
          TakesAway t c.id s m₁ m₂ ∧ Course allowed m₂ m' := by
  have hsound : m.loop.Sound := h.sound.course (m := ⟨l, [], []⟩) hm
  obtain ⟨s, hs, _, _⟩ := hsound.connected hc hstate
  refine ⟨s, hs, ?_, fun m' hm' => ?_⟩
  · rintro event e k rfl hfails
    exact hsound.cutShort hc hstate hs hfails
  · induction hm' with
    | refl => exact .inl ⟨c, hc, rfl, hstate, hs⟩
    | @tail m₁ m₂ hbefore hnext ih =>
        rcases ih with hup | ⟨m₃, m₄, hcourse, hup, hnext', htaken, hlater⟩
        · rcases (hsound.course hbefore).stays_or_taken hup hnext with hup' | htaken
          · exact .inl hup'
          · exact .inr ⟨m₁, m₂, hbefore, hup, hnext, htaken, .refl⟩
        · exact .inr ⟨m₃, m₄, hcourse, hup, hnext', htaken, hlater.tail hnext⟩

/-- A message is half out when the next send fails with an error that says nothing about the peer.
The message is given up, and the one behind it still waits. -/
theorem Started.withstands_of_failed_send :
    let l : Loop := { kernel := { plans := [{ connect := .ok, room := some 1 }] } }
    let m := l.after [.request (.connect default {} {}), .turn, .request (.send 0 [104, 105]),
      .request (.send 0 [33]), .happen (.failSends 0 [.noBuffers])]
    let event : Event := ⟨0, true, true, false⟩
    l.Started ∧ Course (fun _ => True) ⟨l, [], []⟩ ⟨m, [], []⟩ ∧
      ∃ c k, m.connections.get? 0 = some c ∧ c.state = .connected ∧
        (m.link c).handleEvent event = (.error (.failed (.os .noBuffers)), k) ∧
        CutShort m 0 c 0 (m.handle event).2 ∧
        (m.queue 0).pending = [[105], [33]] ∧ ((m.handle event).2.queue 0).pending = [[33]] ∧
        ((m.handle event).2.queue 0).discarded = 1 := by
  intro l m event
  have hstarted : l.Started := ⟨{}, l.kernel, ⟨rfl, rfl, rfl⟩, rfl⟩
  have hm : Course (fun _ => True) ⟨l, [], []⟩ ⟨m, [], []⟩ := course_after l _ fun _ _ => trivial
  have hslot : ∃ c, m.connections.get? 0 = some c := Option.isSome_iff_exists.1 (by decide +kernel)
  have hfacts : (m.connections.get? 0).all fun c => c.state = .connected ∧ c.socket = some 0 ∧
      ((m.link c).handleEvent event).1 = .error (.failed (.os .noBuffers)) := by decide +kernel
  have hpending : (m.queue 0).pending = [[105], [33]] := by decide +kernel
  have hleft : ((m.handle event).2.queue 0).pending = [[33]] := by decide +kernel
  have hdiscarded : ((m.handle event).2.queue 0).discarded = 1 := by decide +kernel
  clear_value m
  obtain ⟨c, hc⟩ := hslot
  rw [hc] at hfacts
  obtain ⟨hstate, hs, herror⟩ := of_decide_eq_true hfacts
  have hfails : (m.link c).handleEvent event =
      (.error (.failed (.os .noBuffers)), ((m.link c).handleEvent event).2) := Prod.ext herror rfl
  obtain ⟨s, hs', hcut, _⟩ := hstarted.withstands hm hc hstate
  cases hs.symm.trans hs'
  exact ⟨hstarted, hm, c, _, hc, hstate, hfails, (hcut event _ _ rfl hfails).2, hpending, hleft,
    hdiscarded⟩

end Loop

end TextLink
