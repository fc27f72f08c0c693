import TextLink.Connection.Serving
import TextLink.Proofs.Kernel.Changes

/-!
# The sockets of a connection

A connection acts through its link, and so on the sockets that it or its queue holds, on new ones,
and on nothing else. `Leads` says this of the link before and after: the sockets held by others and
their registrations are as they were, no socket that was not held has come to be held, and an open
socket that is held no more is closed.

Two facts about the link itself go along (`Sound`): what is held is open, and the connection's note
of how its socket is registered is what the kernel has registered.

A socket is let go in two moves, of which the second closes it if nobody else holds it. In between
it is loose (`Leaves`).

## Main results

* `Leaves.letGo` — the second move.
* `Leaves.arm`, `Leaves.release` — registering a socket, and giving it up.
-/

namespace TextLink

/-- What does not change about a connection. -/
def Connection.identity (c : Connection) : Nat × Nat × Address × Handler × ConnectPolicy × Nat :=
  (c.id, c.token, c.address, c.handler, c.policy, c.chunk)

/-- What acting does not change about a queue. -/
def SendQueue.identity (q : SendQueue) : Option Nat × Option Nat := (q.token, q.limit)

/-- The kernel has registered the socket of `c` as `c` says. -/
structure Watched (c : Connection) (k : Kernel) : Prop where
  watches_single : ∀ i, c.registered = some i → ∃ s, c.socket = some s ∧
    k.watches (k.descriptor s) = [⟨k.descriptor s, c.token, i⟩]
  /-- Where closing ends registrations, it has registered nothing else. -/
  watches_eq : k.closeUnregisters = true → ∀ s, c.socket = some s →
    k.watches (k.descriptor s) = (c.registered.map (⟨k.descriptor s, c.token, ·⟩)).toList

namespace Watched

variable {c c' : Connection} {k k' : Kernel}

theorem mem_watches (h : Watched c k) (i : Interest) (hi : c.registered = some i) :
    ∃ s, c.socket = some s ∧ ⟨k.descriptor s, c.token, i⟩ ∈ k.watches (k.descriptor s) := by
  have ⟨s, hs, hw⟩ := h.watches_single i hi
  exact ⟨s, hs, hw ▸ List.mem_singleton_self _⟩

/-- Only the socket, its registration and the slot matter of a connection. -/
theorem congr (h : Watched c k) (hs : c'.socket = c.socket) (hr : c'.registered = c.registered)
    (ht : c'.token = c.token) : Watched c' k where
  watches_single := by
    rw [hs, hr, ht]
    exact h.watches_single
  watches_eq := by
    rw [hs, hr, ht]
    exact h.watches_eq

/-- Only what is said of the socket matters of a kernel. -/
theorem of_kernel (h : Watched c k) (hc : k'.closeUnregisters = k.closeUnregisters)
    (hd : ∀ s, c.socket = some s → k'.descriptor s = k.descriptor s ∧
      k'.watches (k.descriptor s) = k.watches (k.descriptor s)) : Watched c k' where
  watches_single i hi := by
    have ⟨s, hs, hw⟩ := h.watches_single i hi
    refine ⟨s, hs, ?_⟩
    rw [(hd s hs).1, (hd s hs).2]
    exact hw
  watches_eq hcu s hs := by
    rw [(hd s hs).1, (hd s hs).2]
    exact h.watches_eq (hc.symm.trans hcu) s hs

theorem sameTable (h : Watched c k) (hk : k.SameTable k') : Watched c k' :=
  h.of_kernel hk.closeUnregisters_eq fun s _ => ⟨hk.descriptor_eq s, hk.watches_eq _⟩

/-- A connection without a socket has nothing watched. -/
theorem of_none (hs : c.socket = none) (hr : c.registered = none) : Watched c k where
  watches_single i hi := by
    rw [hr] at hi
    cases hi
  watches_eq _ s hs' := by
    rw [hs] at hs'
    cases hs'

/-- A socket registered once. -/
theorem of_single {s : SocketId} {i : Interest} (hs : c.socket = some s)
    (hr : c.registered = some i)
    (hw : k.watches (k.descriptor s) = [⟨k.descriptor s, c.token, i⟩]) : Watched c k where
  watches_single i' hi := by
    rw [hr] at hi
    exact ⟨s, hs, Option.some.inj hi ▸ hw⟩
  watches_eq _ s' hs' := by
    rw [hs] at hs'
    rw [← Option.some.inj hs', hw, hr]
    rfl

/-- A socket whose registrations were replaced. -/
theorem replace {s : SocketId} {i i' : Interest} (h : Watched c k) (hs : c.socket = some s)
    (hr : c.registered = some i)
    (hw : k'.watches (k.descriptor s) =
      (k.watches (k.descriptor s)).map fun r => { r with token := c.token, interest := i' })
    (hd : k'.descriptor s = k.descriptor s) (hc : k'.closeUnregisters = k.closeUnregisters) :
    Watched { c with registered := some i' } k' where
  watches_single j hj := by
    have ⟨a, ha, hsingle⟩ := h.watches_single i hr
    have has : a = s := Option.some.inj (ha.symm.trans hs)
    subst has
    refine ⟨a, hs, ?_⟩
    rw [hd, hw, hsingle, ← Option.some.inj hj]
    rfl
  watches_eq hcu a ha := by
    have has : s = a := Option.some.inj (hs.symm.trans ha)
    subst has
    rw [hd, hw, h.watches_eq (hc.symm.trans hcu) s hs, hr]
    rfl

end Watched

namespace Link

open Kernel (Touches Serves Makes Fails)

variable {l l' l'' : Link} {s : SocketId} {loose : Option SocketId}

/-- What is held is open, and registered as noted. -/
structure Sound (l : Link) : Prop where
  kernel : l.kernel.Sound
  open_of_holds : ∀ s, l.holds s → l.kernel.Open s
  watched : Watched l.conn l.kernel

/--
`l'` comes from `l` by acting for the connection of `l`.

Socket `loose`, if any, was held, may be held no more, and may still be open.
-/
structure Leaves (loose : Option SocketId) (l l' : Link) : Prop where
  sound : l'.Sound
  touches : Touches (l.holds ·) l.kernel l'.kernel
  held : ∀ s, l'.holds s → l.holds s ∨ l.kernel.sockets.length ≤ s
  kept : ∀ s, l'.kernel.Open s → l'.holds s ∨ loose = some s ∨ l.kernel.Open s ∧ ¬ l.holds s
  loose_held : ∀ s, loose = some s → l.holds s
  identity_eq : l'.conn.identity = l.conn.identity
  queue_identity_eq : l'.queue.identity = l.queue.identity

/-- `l'` comes from `l` by acting for the connection of `l`, and every socket let go is closed. -/
abbrev Leads : Link → Link → Prop := Leaves none

theorem holds_iff : l.holds s ↔ l.conn.socket = some s ∨ l.queue.writer = some s := by
  rw [holds, Bool.or_eq_true, beq_iff_eq, beq_iff_eq]

theorem holds_cases (l : Link) (s : SocketId) :
    l.conn.socket = some s ∨ l.queue.writer = some s ∨ ¬ l.holds s := by
  by_cases h : l.holds s
  · exact (holds_iff.1 h).imp_right .inl
  · exact .inr (.inr h)

namespace Leaves

theorem refl (h : l.Sound) : Leads l l where
  sound := h
  touches := .refl h.kernel
  held _ := .inl
  kept s hs := by
    by_cases hheld : l.holds s
    · exact .inl hheld
    · exact .inr (.inr ⟨hs, hheld⟩)
  loose_held _ := nofun
  identity_eq := rfl
  queue_identity_eq := rfl

theorem trans (h : Leads l l') (h' : Leads l' l'') : Leads l l'' where
  sound := h'.sound
  touches := h.touches.trans h'.touches fun s hs hheld =>
    (h.held s hheld).resolve_right (Nat.not_le_of_lt hs)
  held s hs := by
    rcases h'.held s hs with hs | hs
    · exact h.held s hs
    · exact .inr (Nat.le_trans h.touches.length_le hs)
  kept s hs := by
    rcases h'.kept s hs with hheld | hnone | ⟨hopen, hheld⟩
    · exact .inl hheld
    · cases hnone
    · exact .inr ((h.kept s hopen).resolve_left hheld)
  loose_held _ := nofun
  identity_eq := h'.identity_eq.trans h.identity_eq
  queue_identity_eq := h'.queue_identity_eq.trans h.queue_identity_eq

end Leaves

/-! ## Steps that close nothing -/

theorem Sound.sameTable (h : l.Sound) (hk : l.kernel.SameTable l'.kernel)
    (hconn : l'.conn = l.conn) (hw : l'.queue.writer = l.queue.writer) : l'.Sound where
  kernel := hk.sound h.kernel
  open_of_holds s hs := by
    rw [holds, hconn, hw] at hs
    exact (hk.open_iff s).2 (h.open_of_holds s hs)
  watched := by
    rw [hconn]
    exact h.watched.sameTable hk

/-- Calls on sockets of others. -/
theorem Sound.of_touches (h : l.Sound) {mine : SocketId → Prop}
    (ht : Touches mine l.kernel l'.kernel) (hfar : ∀ s, l.holds s → ¬ mine s)
    (hconn : l'.conn = l.conn) (hw : l'.queue.writer = l.queue.writer) : l'.Sound where
  kernel := ht.sound
  open_of_holds s hs := by
    rw [holds, hconn, hw] at hs
    have hopen := h.open_of_holds s hs
    exact (ht.open_iff hopen.lt_length (hfar s hs)).2 hopen
  watched := by
    rw [hconn]
    apply h.watched.of_kernel ht.closeUnregisters_eq
    intro s hs
    have hheld : l.holds s := holds_iff.2 (.inl hs)
    have hopen := h.open_of_holds s hheld
    exact ⟨ht.descriptor_eq hopen.lt_length (hfar s hheld), ht.watches_eq s hopen (hfar s hheld)⟩

theorem holds_congr (hs : l'.conn.socket = l.conn.socket) (hw : l'.queue.writer = l.queue.writer) :
    l'.holds s = l.holds s := by
  rw [holds, holds, hs, hw]

/-- A step by which sockets neither open nor close, nor change hands. -/
theorem leads_of_touches (h : l.Sound) (ht : Touches (l.holds ·) l.kernel l'.kernel)
    (hopen : ∀ s, l'.kernel.Open s ↔ l.kernel.Open s) (hs : l'.conn.socket = l.conn.socket)
    (hw : l'.queue.writer = l.queue.writer) (hid : l'.conn.identity = l.conn.identity)
    (hq : l'.queue.identity = l.queue.identity) (hwatched : Watched l'.conn l'.kernel) :
    Leads l l' where
  sound :=
    { kernel := ht.sound
      open_of_holds := fun s hheld => by
        rw [holds_congr hs hw] at hheld
        exact (hopen s).2 (h.open_of_holds s hheld)
      watched := hwatched }
  touches := ht
  held s hheld := by
    rw [holds_congr hs hw] at hheld
    exact .inl hheld
  kept s ho := by
    rw [holds_congr hs hw]
    by_cases hheld : l.holds s
    · exact .inl hheld
    · exact .inr (.inr ⟨(hopen s).1 ho, hheld⟩)
  loose_held _ := nofun
  identity_eq := hid
  queue_identity_eq := hq

/-- A step of which the kernel notices nothing. -/
theorem leads_of_eq (h : l.Sound) (hk : l'.kernel = l.kernel) (hs : l'.conn.socket = l.conn.socket)
    (hr : l'.conn.registered = l.conn.registered) (hw : l'.queue.writer = l.queue.writer)
    (hid : l'.conn.identity = l.conn.identity) (hq : l'.queue.identity = l.queue.identity) :
    Leads l l' := by
  refine leads_of_touches h ?_ ?_ hs hw hid hq ?_
  · rw [hk]
    exact .refl h.kernel
  · intro s
    rw [hk]
  · rw [hk]
    exact h.watched.congr hs hr (congrArg (·.2.1) hid)

/-- Calls on a socket held, by which its registration stays. -/
theorem leads_of_serves (h : l.Sound) (hheld : l.holds s) (hk : Serves s l.kernel l'.kernel)
    (hs : l'.conn.socket = l.conn.socket) (hr : l'.conn.registered = l.conn.registered)
    (hw : l'.queue.writer = l.queue.writer) (hid : l'.conn.identity = l.conn.identity)
    (hq : l'.queue.identity = l.queue.identity) : Leads l l' := by
  refine leads_of_touches h (hk.touches h.kernel hheld) hk.table.open_iff hs hw hid hq ?_
  exact (h.watched.sameTable hk.table).congr hs hr (congrArg (·.2.1) hid)

/-- Calls that make no socket of those known. -/
theorem leads_of_fails (h : l.Sound) {k : Kernel} (hk : Fails l.kernel k) :
    Leads l { l with kernel := k } := by
  refine leads_of_touches h (hk.touches.mono fun _ hf => hf.elim) hk.open_iff rfl rfl rfl rfl ?_
  apply h.watched.of_kernel hk.touches.closeUnregisters_eq
  intro s hs
  have hopen := h.open_of_holds s (holds_iff.2 (.inl hs))
  exact ⟨hk.touches.descriptor_eq hopen.lt_length id, hk.touches.watches_eq s hopen id⟩

/-! ## Letting go -/

/-- A socket let go by one holder is closed, or held by the other one. -/
theorem Leaves.letGo {o : Option SocketId} (h : Leaves o l l') : Leads l (l'.letGo o) := by
  rcases o with _ | s
  · exact h
  · have hnone : ∀ s', none = some s' → l.holds s' := fun s' heq =>
      absurd heq.symm (Option.some_ne_none s')
    by_cases hheld : l'.holds s
    · have hkept : ∀ s', l'.kernel.Open s' →
          l'.holds s' ∨ none = some s' ∨ l.kernel.Open s' ∧ ¬ l.holds s' := by
        intro s' hs'
        rcases h.kept s' hs' with hh | heq | hother
        · exact .inl hh
        · exact .inl (Option.some.inj heq ▸ hheld)
        · exact .inr (.inr hother)
      rw [letGo_of_holds hheld]
      exact { h with kept := hkept, loose_held := hnone }
    · have hletGo : l'.letGo (some s) = { l' with kernel := l'.kernel.close s } := by
        simp [Link.letGo, hheld]
      have hne : ∀ s', l'.holds s' → s' ≠ s := fun s' hs' heq => hheld (heq ▸ hs')
      have hclose : Touches (· = s) l'.kernel (l'.kernel.close s) :=
        Kernel.touches_close h.sound.kernel rfl
      rw [hletGo]
      constructor
      · exact h.sound.of_touches hclose hne rfl rfl
      · exact h.touches.trans hclose fun s' _ heq => heq ▸ h.loose_held s rfl
      · exact h.held
      · intro s' hs'
        obtain ⟨hopen, hs'⟩ := Kernel.open_close.1 hs'
        rcases h.kept s' hopen with hh | heq | hother
        · exact .inl hh
        · exact absurd (Option.some.inj heq).symm hs'
        · exact .inr (.inr hother)
      · exact hnone
      · exact h.identity_eq
      · exact h.queue_identity_eq

/-- The queue writes elsewhere, to a socket that is held anyway, or nowhere. -/
theorem leaves_queue (h : l.Sound) {queue : SendQueue}
    (hw : ∀ s, queue.writer = some s → l.holds s) (hq : queue.identity = l.queue.identity) :
    Leaves l.queue.writer l { l with queue } where
  sound :=
    { kernel := h.kernel
      open_of_holds := fun s hs => by
        rcases holds_iff.1 hs with hs | hs
        · exact h.open_of_holds s (holds_iff.2 (.inl hs))
        · exact h.open_of_holds s (hw s hs)
      watched := h.watched }
  touches := .refl h.kernel
  held s hs := by
    rcases holds_iff.1 hs with hs | hs
    · exact .inl (holds_iff.2 (.inl hs))
    · exact .inl (hw s hs)
  kept s hs := by
    rcases holds_cases l s with hsocket | hwriter | hnot
    · exact .inl (holds_iff.2 (.inl hsocket))
    · exact .inr (.inl hwriter)
    · exact .inr (.inr ⟨hs, hnot⟩)
  loose_held s hs := holds_iff.2 (.inr hs)
  identity_eq := rfl
  queue_identity_eq := hq

/-- The connection gives up its socket, which it has had unregistered. -/
theorem leaves_socket (h : l.Sound) {k : Kernel} (hk : Touches (l.holds ·) l.kernel k)
    (hopen : ∀ s, k.Open s ↔ l.kernel.Open s) :
    Leaves l.conn.socket l
      { l with kernel := k, conn := { l.conn with socket := none, registered := none } } where
  sound :=
    { kernel := hk.sound
      open_of_holds := fun s hs => by
        rcases holds_iff.1 hs with hs | hs
        · cases hs
        · exact (hopen s).2 (h.open_of_holds s (holds_iff.2 (.inr hs)))
      watched := .of_none rfl rfl }
  touches := hk
  held s hs := by
    rcases holds_iff.1 hs with hs | hs
    · cases hs
    · exact .inl (holds_iff.2 (.inr hs))
  kept s hs := by
    rcases holds_cases l s with hsocket | hwriter | hnot
    · exact .inr (.inl hsocket)
    · exact .inl (holds_iff.2 (.inr hwriter))
    · exact .inr (.inr ⟨(hopen s).1 hs, hnot⟩)
  loose_held s hs := holds_iff.2 (.inl hs)
  identity_eq := rfl
  queue_identity_eq := rfl

/-- The connection takes a new socket in place of its own, which is not registered. -/
theorem leaves_adopt (h : l.Sound) (hr : l.conn.registered = none) {k : Kernel}
    (hk : Makes s l.kernel k) :
    Leaves l.conn.socket l { l with kernel := k, conn := { l.conn with socket := some s } } where
  sound :=
    { kernel := hk.touches.sound
      open_of_holds := fun s' hs' => by
        rcases holds_iff.1 hs' with hs' | hs'
        · exact (hk.open_iff s').2 (.inr (Option.some.inj hs').symm)
        · exact (hk.open_iff s').2 (.inl (h.open_of_holds s' (holds_iff.2 (.inr hs'))))
      watched :=
        { watches_single := fun i hi => by
            rw [show l.conn.registered = some i from hi] at hr
            cases hr
          watches_eq := fun hc s' hs' => by
            rw [← Option.some.inj hs']
            show k.watches (k.descriptor s) = (l.conn.registered.map _).toList
            rw [hr]
            exact hk.unwatched (hk.touches.closeUnregisters_eq.symm.trans hc) } }
  touches := hk.touches.mono fun _ hf => hf.elim
  held s' hs' := by
    rcases holds_iff.1 hs' with hs' | hs'
    · exact .inr (Nat.le_of_eq (hk.fresh.symm.trans (Option.some.inj hs')))
    · exact .inl (holds_iff.2 (.inr hs'))
  kept s' hs' := by
    rcases (hk.open_iff s').1 hs' with hs' | hs'
    · rcases holds_cases l s' with hsocket | hwriter | hnot
      · exact .inr (.inl hsocket)
      · exact .inl (holds_iff.2 (.inr hwriter))
      · exact .inr (.inr ⟨hs', hnot⟩)
    · exact .inl (holds_iff.2 (.inl (congrArg some hs'.symm)))
  loose_held s' hs' := holds_iff.2 (.inl hs')
  identity_eq := rfl
  queue_identity_eq := rfl

/-! ## Registering and releasing -/

theorem Leaves.note (h : Leads l l') (rs : List LogRecord) : Leads l (l'.note rs) :=
  h.trans (leads_of_eq h.sound rfl rfl rfl rfl rfl rfl)

theorem Leaves.setState (h : Leads l l') (state : ConnectionState) :
    Leads l (l'.setState state) := by
  apply h.trans
  unfold Link.setState
  split
  · exact .refl h.sound
  · exact leads_of_eq h.sound rfl rfl rfl rfl rfl rfl

private theorem leads_arm (h : l.Sound) (interest : Interest) : Leads l (l.arm interest).2 := by
  unfold arm
  rcases hs : l.conn.socket with _ | s
  · exact .refl h
  by_cases hsame : l.conn.registered = some interest
  · simp only [if_pos hsame]
    exact .refl h
  have hheld : l.holds s := holds_iff.2 (.inl hs)
  have hopen := h.open_of_holds s hheld
  -- A call that fails changes nothing that is watched.
  have hfailed (vs : List (CallName × Verdict)) (c : Call) :
      Leads l { l with kernel := l.kernel.registered vs l.kernel.registrations c } :=
    leads_of_touches h (Kernel.touches_failed h.kernel vs c) (fun _ => Iff.rfl) rfl rfl rfl rfl
      (h.watched.of_kernel rfl fun _ _ => ⟨rfl, rfl⟩)
  simp only [if_neg hsame]
  rcases hr : l.conn.registered with _ | i
  · have htouches : Touches (l.holds ·) l.kernel (l.kernel.register s l.conn.token interest).2 :=
      Kernel.touches_register h.kernel hopen hheld _ _
    rcases Kernel.register_cases l.kernel s l.conn.token interest with ⟨vs, hnone, hk⟩ | ⟨e, vs, hk⟩
    · rw [hk] at htouches
      simp only [Option.isSome_none, Bool.false_eq_true, if_false, hk]
      refine leads_of_touches h htouches (fun _ => Iff.rfl) rfl rfl rfl rfl ?_
      exact .of_single hs rfl (Kernel.watches_register vs _ _ _ hnone)
    · simp only [Option.isSome_none, Bool.false_eq_true, if_false, hk]
      exact hfailed vs _
  · have htouches : Touches (l.holds ·) l.kernel (l.kernel.reregister s l.conn.token interest).2 :=
      Kernel.touches_reregister h.kernel hopen hheld _ _
    rcases Kernel.reregister_cases l.kernel s l.conn.token interest with ⟨vs, _, hk⟩ | ⟨e, vs, hk⟩
    · rw [hk] at htouches
      simp only [Option.isSome_some, if_true, hk]
      refine leads_of_touches h htouches (fun _ => Iff.rfl) rfl rfl rfl rfl ?_
      have hwatches := Kernel.watches_reregister l.kernel vs
        (.reregister s l.conn.token interest .ok) s l.conn.token interest
      exact h.watched.replace hs hr hwatches rfl rfl
    · simp only [Option.isSome_some, if_true, hk]
      exact hfailed vs _

theorem Leaves.arm (h : Leads l l') (interest : Interest) : Leads l (l'.arm interest).2 :=
  h.trans (leads_arm h.sound interest)

theorem Leaves.rearm (h : Leads l l') : Leads l l'.rearm.2 := by
  unfold Link.rearm
  split
  · exact h.arm _
  · exact h

theorem Leaves.release (h : Leads l l') : Leads l l'.release := by
  apply h.trans
  unfold Link.release
  rcases hs : l'.conn.socket with _ | s
  · exact .refl h.sound
  · have hheld : l'.holds s := holds_iff.2 (.inl hs)
    have hopen := h.sound.open_of_holds s hheld
    by_cases hr : l'.conn.registered.isSome
    · simp only [if_pos hr]
      have hleave := leaves_socket h.sound
        (Kernel.touches_deregister h.sound.kernel hopen hheld) fun _ => Kernel.open_deregister
      rw [hs] at hleave
      exact hleave.letGo
    · simp only [if_neg hr]
      have hleave := leaves_socket h.sound (.refl h.sound.kernel) fun _ => Iff.rfl
      rw [hs] at hleave
      exact hleave.letGo

end Link

end TextLink
