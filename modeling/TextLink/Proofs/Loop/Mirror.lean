import Mathlib.Data.List.Nodup
import TextLink.Proofs.Kernel.Replay
import TextLink.Proofs.Loop.Strokes

/-!
# The kernel mirrors the loop

What the loop holds and what the kernel has are kept apart: a connection notes its socket and how
that is registered, and the kernel has its own table of sockets and its own list of registrations.
Where closing a socket ends its registration, the two never differ (`Mirrored`), whatever call
fails: a connection has given up its socket whenever the kernel has closed it, and its note of the
registration changes only with a call that goes through.

It follows that no call on registrations is ever out of order, which is a statement about the record
of calls: replayed, it tells at each call whether the socket was watched (`Orderly`).

## Main results

* `Started.mirrored` — the kernel mirrors the loop in every scene of a run, and the
  calls were in order.
-/

namespace TextLink

/-! ## What a connection holds -/

/-- A queue writes to the socket of its connection, if at all. -/
theorem Shape.writer_eq {c : Connection} {q : SendQueue} (h : Shape c q) {s : SocketId}
    (hw : q.writer = some s) : c.socket = some s := by
  cases h with
  | connected _ hs _ _ _ hwriter _ => rw [hs, ← hwriter, hw]
  | inFlight _ _ _ _ hwriter _ | waiting _ _ _ _ hwriter _ => cases hwriter.symm.trans hw

theorem Shape.holds_iff {l : Link} (h : Shape l.conn l.queue) {s : SocketId} :
    l.holds s ↔ l.conn.socket = some s := by
  rw [Link.holds_iff]
  exact ⟨fun hs => hs.elim id h.writer_eq, .inl⟩

/-! ## The calls of a connection -/

namespace Watched

variable {c : Connection} {k : Kernel} {s : SocketId}

/-- Where closing ends registrations, a socket is registered if the connection says so. -/
theorem isRegistered_eq (h : Watched c k) (hc : k.closeUnregisters = true)
    (hs : c.socket = some s) : k.isRegistered s = c.registered.isSome := by
  rw [Bool.eq_iff_iff, Kernel.isRegistered_iff, h.watches_eq hc s hs]
  rcases c.registered with _ | i
  · simp
  · simp

end Watched

namespace Link

open Kernel (Tracked)

variable {l l' : Link} {s : SocketId} {base : Kernel} {why : Occasion}

theorem tracked_letGo (h : Tracked base l.kernel) (hk : l.kernel.Sound) (o : Option SocketId) :
    Tracked base (l.letGo o).kernel := by
  unfold letGo
  split
  · exact h
  · split
    · exact h
    · exact h.close hk _

theorem tracked_arm (h : Tracked base l.kernel) (hl : l.Sound)
    (hc : l.kernel.closeUnregisters = true) (interest : Interest) :
    Tracked base (l.arm interest).2.kernel := by
  unfold arm
  rcases hs : l.conn.socket with _ | s
  · exact h
  · have hopen := hl.open_of_holds s (holds_iff.2 (.inl hs))
    have hwatched := hl.watched.isRegistered_eq hc hs
    simp only
    split
    · exact h
    · rcases hr : l.conn.registered with _ | i <;> rw [hr] at hwatched
      · have hcall := h.register hl.kernel hopen hwatched l.conn.token interest
        simp only [Option.isSome_none, Bool.false_eq_true, if_false]
        generalize l.kernel.register s l.conn.token interest = r at hcall ⊢
        rcases r with ⟨_ | e, k⟩ <;> exact hcall
      · have hcall := h.reregister hl.kernel hopen hwatched l.conn.token interest
        simp only [Option.isSome_some, if_true]
        generalize l.kernel.reregister s l.conn.token interest = r at hcall ⊢
        rcases r with ⟨_ | e, k⟩ <;> exact hcall

theorem tracked_release (h : Tracked base l.kernel) (hl : l.Sound)
    (hc : l.kernel.closeUnregisters = true) : Tracked base l.release.kernel := by
  unfold release
  rcases hs : l.conn.socket with _ | s
  · exact h
  · have hopen := hl.open_of_holds s (holds_iff.2 (.inl hs))
    have hwatched := hl.watched.isRegistered_eq hc hs
    simp only
    split
    · next hr =>
      have hcall := h.deregister hl.kernel hopen (hwatched.trans hr)
      have htouches : Kernel.Touches (· = s) l.kernel (l.kernel.deregister s).2 :=
        Kernel.touches_deregister hl.kernel hopen rfl
      exact tracked_letGo (l := { l with
        kernel := (l.kernel.deregister s).2
        conn := { l.conn with socket := none, registered := none } }) hcall htouches.sound (some s)
    · exact tracked_letGo (l := { l with
        conn := { l.conn with socket := none, registered := none } }) h hl.kernel (some s)

/-- No step of a connection makes a call out of order. -/
theorem Step.tracked (h : Step why l l') (hl : l.Sound)
    (hc : l.kernel.closeUnregisters = true) (ht : Tracked base l.kernel) :
    Tracked base l'.kernel := by
  cases h with
  | note | plan => exact ht
  | suspend => exact tracked_letGo (l := { l with queue := l.queue.connecting.2 }) ht hl.kernel _
  | closeQueue => exact tracked_letGo (l := { l with queue := l.queue.close.2 }) ht hl.kernel _
  | @put _ _ s _ _ _ _ =>
      exact tracked_letGo (l := { l with queue := l.queue.connected s }) ht hl.kernel _
  | release => exact tracked_release ht hl hc
  | arm _ interest => exact tracked_arm ht hl hc interest
  | begin _ | establish _ _ _ _ | shut _ _ _ _ _ =>
      rw [kernel_setState]
      exact ht
  | unmade h =>
      have hopen := ht.openStream hl.kernel hc l.conn.address
      rwa [h] at hopen
  | made _ _ _ h =>
      have hopen := ht.openStream hl.kernel hc l.conn.address
      rwa [h] at hopen
  | cleared _ _ h =>
      exact ht.sameTable (Kernel.adds_of_takeError h) (by decide)
        (Kernel.serves_of_takeError h).table
  | @refused _ s r k _ hsocket h _ =>
      have hserves := Kernel.serves_of_takeError h
      have hsound := ((Leaves.refl hl).serves hsocket hserves).sound
      exact tracked_release (l := { l with kernel := k })
        (ht.sameTable (Kernel.adds_of_takeError h) (by decide) hserves.table) hsound
        (hserves.table.closeUnregisters_eq.trans hc)
  | miss _ _ h _ =>
      exact ht.sameTable (Kernel.adds_of_receive h) (by decide) (Kernel.serves_of_receive h).table
  | take _ _ h =>
      rw [kernel_takeIn]
      exact ht.sameTable (Kernel.adds_of_receive h) (by decide) (Kernel.serves_of_receive h).table
  | flush _ =>
      rcases hw : l.queue.writer with _ | w
      · rw [SendQueue.flush_of_no_writer _ hw]
        exact ht
      · have hsends := Kernel.sends_flush l.kernel hw
        exact ht.sameTable hsends.adds (by decide) hsends.serves.table

end Link

/-! ## The calls of a run -/

namespace Loop

open Kernel (Tracked)

variable {allowed : Happening → Prop} {may : Link.Occasion → Loop → Nat → Prop} {l l' : Loop}
  {base : Kernel}

/-- Closing ends registrations, and the calls made since `base` say what is registered. -/
def Tracks (base : Kernel) (l : Loop) : Prop :=
  l.kernel.closeUnregisters = true ∧ Tracked base l.kernel

theorem Stroke.tracks (h : Stroke may l l') (hl : l.Coherent) (ht : Tracks base l) :
    Tracks base l' := by
  cases h with
  | @act t c k why hc hk _ _ =>
      have hlink := (hl.lives hc).link
      clear hc
      show Tracks base { l with kernel := k.kernel }
      -- The kernel is that of the link, so it is enough to follow the steps.
      induction hk with
      | refl => exact ht
      | tail hbefore hstep ih =>
          have hleads := Link.Steps.leads hbefore hlink
          have hnext := hstep.leads hleads.sound
          exact ⟨hnext.touches.closeUnregisters_eq.trans ih.1,
            hstep.tracked hleads.sound ih.1 ih.2⟩
  | refuse c _ _ => cases c <;> exact ht
  | remove | enrol | skip | appoint | note | clear => exact ht

theorem Tracks.sameTable (ht : Tracks base l) {k : Kernel} {t : Topic}
    (hadds : Kernel.Adds t l.kernel k) (htopic : t ≠ .watching) (hk : l.kernel.SameTable k) :
    Tracks base { l with kernel := k } :=
  ⟨hk.closeUnregisters_eq.trans ht.1, ht.2.sameTable hadds htopic hk⟩

theorem Advance.tracks (h : Advance allowed may l l') (hl : l.Sound) (ht : Tracks base l) :
    Tracks base l' := by
  cases h with
  | request r =>
      obtain ⟨k, hk, hkernel⟩ := kernel_request l r
      have htracks : Tracks base { l with kernel := k } := by
        rcases hk with rfl | ⟨_, w, _, hsends⟩
        · exact ht
        · exact ht.sameTable hsends.adds (by decide) hsends.serves.table
      have hwake : Tracks base { l with kernel := k.wake } :=
        htracks.sameTable (t := .waiting) (.of_calls_eq rfl) (by decide) (Kernel.idles_wake k).table
      unfold Tracks
      rcases hkernel with heq | heq <;> rw [heq]
      · exact htracks
      · exact hwake
  | @happen h _ =>
      exact ht.sameTable (t := .waiting) (.of_calls_eq (Kernel.calls_happen l.kernel h)) (by decide)
        (Kernel.sameTable_happen l.kernel h)
  | beginWait millis =>
      exact ht.sameTable (Kernel.adds_beginWait l.kernel millis) (by decide)
        (Kernel.idles_beginWait l.kernel millis).table
  | pass t =>
      exact ht.sameTable (t := .waiting) (.of_calls_eq rfl) (by decide)
        (Kernel.idles_clock l.kernel t).table
  | answer millis reports =>
      exact ht.sameTable (Kernel.adds_answer l.kernel millis reports) (by decide)
        ((Kernel.idles_answerWait l.kernel millis reports).trans (Kernel.idles_collect _ _)).table
  | strokes hstrokes =>
      exact hstrokes.keeps hl.coherent (fun hcoherent hstroke => hstroke.tracks hcoherent) ht

/-! ## The mirror -/

/--
The sockets and registrations of the kernel are those of the connections.

A registration asks for what the interest says, and for the peer's hanging up.
-/
structure Mirrored (l : Loop) : Prop where
  /-- The open sockets are those of the connections. -/
  open_iff : ∀ s, l.kernel.Open s ↔ ∃ t c, l.connections.get? t = some c ∧ c.socket = some s
  /-- No two connections have the same one. -/
  apart : ∀ t t' c c' s, l.connections.get? t = some c → l.connections.get? t' = some c' →
    c.socket = some s → c'.socket = some s → t = t'
  /-- A queue writes to nothing but the socket of its connection. -/
  writer : ∀ id s, (l.queue id).writer = some s →
    ∃ t c, l.connections.get? t = some c ∧ c.id = id ∧ c.socket = some s
  /-- The registrations are those the connections note, under their tokens. -/
  mem_registrations_iff : ∀ r, r ∈ l.kernel.registrations ↔
    ∃ t c s i, l.connections.get? t = some c ∧ c.socket = some s ∧ c.registered = some i ∧
      r.descriptor = l.kernel.descriptor s ∧ r.token = c.token ∧
      Flags.ofInterest r.interest = { input := i.read, output := i.write, readHangup := true }
  /-- Each socket is registered once. -/
  nodup : (l.kernel.registrations.map (·.descriptor)).Nodup

theorem ofInterest_injective {i j : Interest} (h : Flags.ofInterest i = Flags.ofInterest j) :
    i = j := by
  cases i
  cases j
  injection h with hread hwrite
  exact congr (congrArg Interest.mk hread) hwrite

section Sound

variable {t : Nat} {c : Connection} {s : SocketId} {r : Registration}

theorem Sound.holds_iff (h : l.Sound) (hc : l.connections.get? t = some c) :
    (l.link c).holds s ↔ c.socket = some s :=
  Shape.holds_iff (l := l.link c) (h.shape t c hc)

theorem Sound.open_of_socket (h : l.Sound) (hc : l.connections.get? t = some c)
    (hs : c.socket = some s) : l.kernel.Open s :=
  (h.coherent.lives hc).link.open_of_holds s ((h.holds_iff hc).2 hs)

theorem Sound.exists_of_open (h : l.Sound) (hopen : l.kernel.Open s) :
    ∃ t c, l.connections.get? t = some c ∧ c.socket = some s := by
  obtain ⟨t, c, hc, hheld⟩ := h.coherent.kept s hopen
  exact ⟨t, c, hc, (h.holds_iff hc).1 hheld⟩

theorem Sound.open_iff (h : l.Sound) (s : SocketId) :
    l.kernel.Open s ↔ ∃ t c, l.connections.get? t = some c ∧ c.socket = some s := by
  constructor
  · exact h.exists_of_open
  · rintro ⟨t, c, hc, hs⟩
    exact h.open_of_socket hc hs

theorem Sound.eq_of_socket (h : l.Sound) {t' : Nat} {c' : Connection}
    (hc : l.connections.get? t = some c) (hc' : l.connections.get? t' = some c')
    (hs : c.socket = some s) (hs' : c'.socket = some s) : t = t' :=
  h.coherent.apart t t' c c' s hc hc' ((h.holds_iff hc).2 hs) ((h.holds_iff hc').2 hs')

theorem Sound.exists_of_writer (h : l.Sound) {id : Nat} (hw : (l.queue id).writer = some s) :
    ∃ t c, l.connections.get? t = some c ∧ c.id = id ∧ c.socket = some s := by
  by_contra hnone
  have hidle := h.coherent.idle id fun t c hc hid => hnone ⟨t, c, hc, hid, ?_⟩
  · cases hidle.symm.trans hw
  · exact (h.shape t c hc).writer_eq (hid ▸ hw)

/-- Where closing ends registrations, those of a socket are what its connection notes. -/
theorem Sound.watches_eq (h : l.Sound) (hcloses : l.kernel.closeUnregisters = true)
    (hc : l.connections.get? t = some c) (hs : c.socket = some s) :
    l.kernel.watches (l.kernel.descriptor s) =
      (c.registered.map (⟨l.kernel.descriptor s, c.token, ·⟩)).toList :=
  (h.coherent.lives hc).link.watched.watches_eq hcloses s hs

/-- Every registration is that of a connection's socket. -/
theorem Sound.exists_of_registration (h : l.Sound) (hcloses : l.kernel.closeUnregisters = true)
    (hr : r ∈ l.kernel.registrations) : ∃ t c s,
      l.connections.get? t = some c ∧ c.socket = some s ∧ l.kernel.descriptor s = r.descriptor := by
  obtain ⟨s, hopen, hd⟩ := h.coherent.kernel.owned hcloses r hr
  obtain ⟨t, c, hc, hs⟩ := h.exists_of_open hopen
  exact ⟨t, c, s, hc, hs, hd⟩

theorem Sound.mem_registrations_iff (h : l.Sound) (hcloses : l.kernel.closeUnregisters = true)
    (r : Registration) : r ∈ l.kernel.registrations ↔
      ∃ t c s i, l.connections.get? t = some c ∧ c.socket = some s ∧ c.registered = some i ∧
        r = ⟨l.kernel.descriptor s, c.token, i⟩ := by
  constructor
  · intro hr
    obtain ⟨t, c, s, hc, hs, hd⟩ := h.exists_of_registration hcloses hr
    have hmem : r ∈ l.kernel.watches (l.kernel.descriptor s) := Kernel.mem_watches.2 ⟨hr, hd.symm⟩
    rw [h.watches_eq hcloses hc hs, Option.mem_toList, Option.map_eq_some_iff] at hmem
    obtain ⟨i, hi, hr⟩ := hmem
    exact ⟨t, c, s, i, hc, hs, hi, hr.symm⟩
  · rintro ⟨t, c, s, i, hc, hs, hi, hr⟩
    have hmem : r ∈ l.kernel.watches (l.kernel.descriptor s) := by
      rw [h.watches_eq hcloses hc hs, hi, hr]
      exact List.mem_singleton_self _
    exact (Kernel.mem_watches.1 hmem).1

theorem Sound.nodup_registrations (h : l.Sound) (hcloses : l.kernel.closeUnregisters = true) :
    (l.kernel.registrations.map (·.descriptor)).Nodup := by
  refine List.nodup_iff_count_le_one.2 fun d => ?_
  by_cases hd : d ∈ l.kernel.registrations.map (·.descriptor)
  · obtain ⟨r, hr, rfl⟩ := List.mem_map.1 hd
    obtain ⟨t, c, s, hc, hs, hd⟩ := h.exists_of_registration hcloses hr
    have hlen := congrArg List.length (h.watches_eq hcloses hc hs)
    rw [hd, Kernel.watches] at hlen
    rw [List.count_eq_countP, List.countP_map, List.countP_eq_length_filter]
    refine Nat.le_trans (Nat.le_of_eq hlen) ?_
    rcases c.registered with _ | i <;> simp
  · rw [List.count_eq_zero_of_not_mem hd]
    exact Nat.zero_le 1

end Sound

/-- Where closing ends registrations, the kernel of a sound loop mirrors it. -/
theorem Sound.keeps_mirror (h : l.Sound) (hc : l.kernel.closeUnregisters = true) :
    l.Mirrored where
  open_iff := h.open_iff
  apart _ _ _ _ _ := h.eq_of_socket
  writer _ _ := h.exists_of_writer
  mem_registrations_iff r := by
    rw [h.mem_registrations_iff hc r]
    constructor
    · rintro ⟨t, c, s, i, hslot, hs, hi, rfl⟩
      exact ⟨t, c, s, i, hslot, hs, hi, rfl, rfl, rfl⟩
    · rintro ⟨t, c, s, i, hslot, hs, hi, hd, ht, hflags⟩
      refine ⟨t, c, s, i, hslot, hs, hi, ?_⟩
      rw [← hd, ← ht, ← ofInterest_injective hflags]
  nodup := h.nodup_registrations hc

/--
**The kernel mirrors the loop.** In every scene of a run over a kernel where closing ends
registrations, whichever calls have failed: the open sockets are exactly those of the connections,
one each, and the registrations are exactly those the connections note. No call since the start was
out of order: none added a socket that was registered, and none changed or removed one that was not;
and the calls, replayed, say of every open socket whether it is registered.
-/
theorem Started.mirrored (h : l.Started) (hcloses : l.kernel.closeUnregisters = true) {m : Scene}
    (hm : Course allowed ⟨l, [], []⟩ m) :
    m.loop.Mirrored ∧ Orderly (Kernel.newCalls l.kernel m.loop.kernel) ∧
      ∀ s, m.loop.kernel.Open s →
        watchedAfter (Kernel.newCalls l.kernel m.loop.kernel) s = m.loop.kernel.isRegistered s := by
  have hstart : Tracks l.kernel l := by
    obtain ⟨config, kernel, hfresh, hl⟩ := h.eq
    have hkernel : l.kernel = kernel := by rw [hl]
    exact ⟨hcloses, hkernel ▸ hfresh.tracked⟩
  have htracks : Tracks l.kernel m.loop :=
    h.sound.keeps (m := ⟨l, [], []⟩) hm (fun hsound hadvance => hadvance.tracks hsound) hstart
  have hreplays := htracks.2.newCalls
  exact ⟨(h.sound.course (m := ⟨l, [], []⟩) hm).keeps_mirror htracks.1, hreplays.orderly,
    hreplays.watched_eq⟩

/-- A registration that fails costs the attempt its socket; the retry takes another one under the
same descriptor, which is registered. -/
theorem Started.mirrored_of_failed_registration :
    let l : Loop := { kernel := { plans := [{ connect := .ok }, { connect := .ok }] } }
    let m : Scene := ⟨l.after [.happen (.script .epollCtl [.fails .ioFault]),
      .request (.connect default {} {}), .turn, .turn, .turn], [], []⟩
    l.Started ∧ l.kernel.closeUnregisters = true ∧
      m.loop.kernel.sockets.map (fun sock => (sock.descriptor, sock.isOpen)) =
        [(0, false), (0, true)] ∧
      m.loop.kernel.registrations = [⟨0, 0, .reading⟩] ∧
      m.loop.Mirrored ∧ Orderly (Kernel.newCalls l.kernel m.loop.kernel) := by
  intro l m
  have hstarted : l.Started := ⟨{}, l.kernel, ⟨rfl, rfl, rfl⟩, rfl⟩
  have hm : Course (fun _ => True) ⟨l, [], []⟩ m := course_after l _ fun _ _ => trivial
  have ⟨hmirrored, horderly, _⟩ := hstarted.mirrored rfl hm
  exact ⟨hstarted, rfl, by decide +kernel, by decide +kernel, hmirrored, horderly⟩

end Loop

end TextLink
