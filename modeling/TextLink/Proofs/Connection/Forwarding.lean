import TextLink.Proofs.Connection.Faults
import TextLink.Proofs.Kernel.Clear

/-!
# Connections that forward all they are given

A connection that holds a clear socket forwards what is sent on it (`Forwards`): nothing it does
fails, an event leaves it in its slot, and what is out on the socket together with what still waits
is always the same. That is so while its connect is still to be noticed as well as when it is
served.

The handler must stand what it is told, since a fault is the end of the whole loop. And an
event must not say that the peer hung up, which for a connect that was not noticed yet would
count as a failure.

## Main results

* `Forwards.flush` — what waits goes out.
* `Forwards.handleEvent` — every event that is no hang-up is served.
-/

namespace TextLink.Link

open Kernel (Clear)

variable {l l' : Link} {s : SocketId} {out : Bytes} {i : Interest}

/-- Through the clear socket `s`, what was sent and what waits come to `out`. -/
structure Forwards (s : SocketId) (out : Bytes) (l : Link) : Prop where
  socket : l.conn.socket = some s
  stands : l.conn.handler.faultsOn = none
  chunk : 0 < l.conn.chunk
  kernel : ∃ wire, Clear s wire l.kernel ∧ wire ++ l.queue.pending.flatten = out

namespace Forwards

/-- Of the connection only its socket and what it was requested with matter, of the
queue what waits. -/
theorem congr (h : l.Forwards s out) (hsocket : l'.conn.socket = l.conn.socket)
    (hid : l'.conn.identity = l.conn.identity) (hpending : l'.queue.pending = l.queue.pending)
    (hkernel : ∀ wire, Clear s wire l.kernel → Clear s wire l'.kernel) : l'.Forwards s out where
  socket := hsocket.trans h.socket
  stands := by
    have hhandler : l'.conn.handler = l.conn.handler := congrArg (·.2.2.2.1) hid
    rw [hhandler]
    exact h.stands
  chunk := by
    have hchunk : l'.conn.chunk = l.conn.chunk := congrArg (·.2.2.2.2.2) hid
    rw [hchunk]
    exact h.chunk
  kernel := by
    obtain ⟨wire, hclear, hout⟩ := h.kernel
    exact ⟨wire, hkernel wire hclear, hpending ▸ hout⟩

/-! ## What a connection does -/

/-- Registering goes through. -/
theorem arm (h : l.Forwards s out) (hwatched : Watched l.conn l.kernel)
    (hr : l.conn.registered = some i) (interest : Interest) :
    (l.arm interest).1 = .ok () ∧ (l.arm interest).2.Forwards s out := by
  unfold Link.arm
  simp only [h.socket]
  by_cases hsame : l.conn.registered = some interest
  · rw [if_pos hsame]
    exact ⟨rfl, h⟩
  · obtain ⟨s', hs', hsingle⟩ := hwatched.watches_single i hr
    obtain rfl := Option.some.inj (h.socket.symm.trans hs')
    have hwatches : l.kernel.watches (l.kernel.descriptor s) ≠ [] := by
      rw [hsingle]
      exact List.cons_ne_nil _ _
    obtain ⟨wire, hclear, hout⟩ := h.kernel
    obtain ⟨k, hreregister, hafter⟩ := hclear.reregister hwatches l.conn.token interest
    have hsome : l.conn.registered.isSome = true := by
      rw [hr]
      rfl
    rw [if_neg hsame, if_pos hsome, hreregister]
    exact ⟨rfl, ⟨rfl, h.stands, h.chunk, wire, hafter, hout⟩⟩

theorem rearm (h : l.Forwards s out) (hwatched : Watched l.conn l.kernel)
    (hr : l.conn.registered = some i) : l.rearm.1 = .ok () ∧ l.rearm.2.Forwards s out := by
  unfold Link.rearm
  split
  · exact h.arm hwatched hr _
  · exact ⟨rfl, h⟩

theorem takeIn (h : l.Forwards s out) (bytes : Bytes) : (l.takeIn bytes).2.Forwards s out := by
  have ⟨⟨decoder, stalled, hconn⟩, hqueue⟩ := takeIn_keeps l bytes
  refine h.congr ?_ ?_ (congrArg SendQueue.pending hqueue) fun wire hclear => ?_
  · rw [hconn]
  · rw [hconn]
    rfl
  · rw [kernel_takeIn]
    exact hclear

/-- Reading comes to no end of the stream. -/
theorem readFrom (h : l.Forwards s out) :
    (l.readFrom s).1 = .ok true ∧ (l.readFrom s).2.Forwards s out := by
  -- What is received has bytes, or nothing has arrived.
  have hreceive {l : Link} (h : l.Forwards s out) {r : Except Errno Bytes} {k : Kernel}
      (hk : l.kernel.receive s l.conn.chunk = (r, k)) :
      Forwards s out { l with kernel := k } ∧
      (r = .error .tryAgain ∨ ∃ b bs, r = .ok (b :: bs)) := by
    obtain ⟨wire, hclear, hout⟩ := h.kernel
    obtain ⟨k', hafter, hcases⟩ := hclear.receive h.chunk
    rw [hk] at hcases
    have hforwards : Forwards s out { l with kernel := k' } :=
      ⟨h.socket, h.stands, h.chunk, wire, hafter, hout⟩
    rcases hcases with heq | ⟨b, bs, heq⟩ <;> cases heq
    · exact ⟨hforwards, .inl rfl⟩
    · exact ⟨hforwards, .inr ⟨b, bs, rfl⟩⟩
  fun_induction Link.readFrom l s with
  | case1 l k hk => rcases (hreceive h hk).2 with heq | ⟨_, _, heq⟩ <;> cases heq
  | case2 l b bs k hk told ht ih =>
      have htold := (hreceive h hk).1.takeIn (b :: bs)
      rw [ht] at htold
      exact ih htold
  | case3 l b bs k hk told ht =>
      have hstands := takeIn_stands (l := { l with kernel := k }) h.stands (b :: bs)
      rw [ht] at hstands
      cases hstands
  | case4 l k hk => exact ⟨rfl, (hreceive h hk).1⟩
  | case5 l k hk hne ih => rcases (hreceive h hk).2 with heq | ⟨_, _, heq⟩ <;> cases heq
  | case6 l e k hk hne hn hd | case7 l e k hk hne hn hd =>
      rcases (hreceive h hk).2 with heq | ⟨_, _, heq⟩
      · exact absurd (Except.error.inj heq) hne
      · cases heq

theorem read (h : l.Forwards s out) : l.read.1 = .ok true ∧ l.read.2.Forwards s out := by
  unfold Link.read
  simp only [h.socket]
  exact h.readFrom

/-- **What waits goes out.** -/
theorem flush (h : l.Forwards s out) (hworded : [] ∉ l.queue.pending)
    (hw : l.queue.writer = some s) : l.flush.1 = .ok () ∧ l.flush.2.Forwards s out := by
  obtain ⟨wire, hclear, hout⟩ := h.kernel
  obtain ⟨q, k, hflush, hnone, hafter⟩ := hclear.flush hworded hw
  unfold Link.flush
  rw [hflush]
  refine ⟨rfl, ⟨h.socket, h.stands, h.chunk, _, hafter, ?_⟩⟩
  show wire ++ l.queue.pending.flatten ++ q.pending.flatten = out
  rw [hnone, List.flatten_nil, List.append_nil, hout]

/-! ## Events -/

theorem concludeService (h : l.Forwards s out) (hwatched : Watched l.conn l.kernel)
    (hr : l.conn.registered = some i) :
    l.concludeService.1 = .ok .ongoing ∧ l.concludeService.2.Forwards s out := by
  have ⟨hok, hafter⟩ := h.rearm hwatched hr
  unfold Link.concludeService
  generalize l.rearm = r at hok hafter ⊢
  rcases r with ⟨e | _, l'⟩
  · cases hok
  · exact ⟨rfl, hafter⟩

theorem serveWriting (h : l.Forwards s out) (hl : l.Sound) (hstate : l.conn.state = .connected)
    (hr : l.conn.registered = some i) (hw : l.queue.writer = some s)
    (hworded : [] ∉ l.queue.pending) (event : Event) :
    (l.serveWriting event).1 = .ok .ongoing ∧ (l.serveWriting event).2.Forwards s out := by
  unfold Link.serveWriting
  split
  · have hsteps : Steps .serving l l.flush.2 := Steps.flush .refl hstate
    have hwatched := (hsteps.leads hl).sound.watched
    have hconn := conn_flush l
    have ⟨hok, hafter⟩ := h.flush hworded hw
    generalize l.flush = r at hwatched hconn hok hafter ⊢
    rcases r with ⟨e | _, l'⟩
    · cases hok
    · exact hafter.concludeService hwatched ((congrArg Connection.registered hconn).trans hr)
  · exact h.concludeService hl.watched hr

theorem serve (h : l.Forwards s out) (hl : l.Sound) (hstate : l.conn.state = .connected)
    (hr : l.conn.registered = some i) (hw : l.queue.writer = some s)
    (hworded : [] ∉ l.queue.pending)
    (event : Event) : (l.serve event).1 = .ok .ongoing ∧ (l.serve event).2.Forwards s out := by
  unfold Link.serve
  split
  · have hsound := ((Steps.read hstate).leads hl).sound
    have ⟨⟨decoder, stalled, hconn⟩, hqueue⟩ := read_keeps l
    have ⟨hok, hafter⟩ := h.read
    generalize l.read = r at hsound hconn hqueue hok hafter ⊢
    rcases r with ⟨e | (_ | _), l'⟩
    · cases hok
    · cases hok
    · have hqueue : l'.queue = l.queue := hqueue
      refine hafter.serveWriting hsound ((congrArg Connection.state hconn).trans hstate)
        ((congrArg Connection.registered hconn).trans hr) ?_ ?_ event <;> rw [hqueue]
      · exact hw
      · exact hworded
  · exact h.serveWriting hl hstate hr hw hworded event

/-- A connect that has succeeded is noticed. -/
theorem establish (h : l.Forwards s out) (hwatched : Watched l.conn l.kernel)
    (hr : l.conn.registered = some i) (hw : l.queue.writer = none) :
    l.establish.1 = .ok () ∧ l.establish.2.Forwards s out := by
  have hput : Forwards s out { l with queue := l.queue.connected s } :=
    h.congr rfl rfl rfl fun _ => id
  have ⟨hok, hafter⟩ := hput.arm hwatched hr (.serving (l.queue.connected s).hasPending)
  have hheld : letGo { l with queue := l.queue.connected s } l.queue.writer =
      { l with queue := l.queue.connected s } := by
    rw [hw]
    rfl
  unfold Link.establish
  simp only [h.socket, hheld]
  generalize Link.arm _ _ = r at hok hafter ⊢
  rcases r with ⟨e | _, l'⟩
  · cases hok
  · refine ⟨rfl, hafter.congr ?_ ?_ (congrArg SendQueue.pending (queue_setState _ _))
      fun wire => ?_⟩
    · rw [conn_setState]
    · rw [conn_setState]
      rfl
    · rw [kernel_setState]
      exact id

/-- The pending error tells of no failure. -/
theorem finishConnect (h : l.Forwards s out) (hwatched : Watched l.conn l.kernel)
    (hr : l.conn.registered = some i) (hw : l.queue.writer = none) {event : Event}
    (hevent : event.hangup = false) :
    (l.finishConnect event).1 = .ok .ongoing ∧ (l.finishConnect event).2.Forwards s out := by
  obtain ⟨wire, hclear, hout⟩ := h.kernel
  obtain ⟨k, htake, hafter⟩ := hclear.takeError
  have houtcome : l.connectOutcome s event = (.ok (), { l with kernel := k }) := by
    unfold connectOutcome
    simp only [htake, hevent, Bool.false_and, Bool.false_eq_true, if_false]
  have hserves := Kernel.serves_of_takeError htake
  have hforwards : Forwards s out { l with kernel := k } :=
    ⟨h.socket, h.stands, h.chunk, wire, hafter, hout⟩
  have ⟨hok, hestablished⟩ := hforwards.establish (hwatched.sameTable hserves.table) hr hw
  unfold Link.finishConnect
  simp only [h.socket, houtcome]
  generalize Link.establish _ = r at hok hestablished ⊢
  rcases r with ⟨e | _, l'⟩
  · cases hok
  · exact ⟨rfl, hestablished⟩

/-- **Every event is served** that is no hang-up. -/
theorem handleEvent (h : l.Forwards s out) (hl : l.Sound) (hshape : Shape l.conn l.queue)
    (hworded : [] ∉ l.queue.pending) {event : Event} (hevent : event.hangup = false) :
    (l.handleEvent event).1 = .ok .ongoing ∧ (l.handleEvent event).2.Forwards s out := by
  unfold Link.handleEvent
  cases hshape with
  | @connected s' i hstate hs hr _ _ hw _ =>
      obtain rfl := Option.some.inj (h.socket.symm.trans hs)
      simp only [hstate]
      exact h.serve hl hstate hr hw hworded event
  | inFlight hstate hs hr _ hw _ =>
      have ⟨hok, hafter⟩ := h.finishConnect hl.watched hr hw hevent
      simp only [hstate]
      generalize l.finishConnect event = r at hok hafter ⊢
      rcases r with ⟨fault | progress, l'⟩
      · cases hok
      · cases hok
        exact ⟨rfl, hafter⟩
  | waiting _ hs _ _ _ _ => cases hs.symm.trans h.socket

end Forwards

/-! ## Closing -/

theorem wires_letGo (l : Link) (o : Option SocketId) :
    (l.letGo o).kernel.wires = l.kernel.wires := by
  unfold letGo
  split
  · rfl
  · split
    · rfl
    · exact Kernel.wires_close _ _

theorem wires_release (l : Link) : l.release.kernel.wires = l.kernel.wires := by
  unfold release
  split
  · rfl
  · next s _ =>
    refine (wires_letGo _ _).trans ?_
    show Kernel.wires (if l.conn.registered.isSome then _ else _) = _
    split
    · exact Kernel.wires_deregister l.kernel s
    · rfl

/-- Closing a connection sends nothing. -/
theorem wires_close (l : Link) : l.close.kernel.wires = l.kernel.wires := by
  by_cases hclosed : l.conn.state = .closed
  · unfold close
    rw [if_pos hclosed]
  · obtain ⟨rs, hclose⟩ := close_eq hclosed
    rw [hclose, kernel_setState]
    exact (wires_letGo _ _).trans (wires_release l)

end TextLink.Link
