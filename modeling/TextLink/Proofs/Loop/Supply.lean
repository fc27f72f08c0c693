import Mathlib.Data.List.Perm.Subperm
import TextLink.Proofs.Connection.Supply
import TextLink.Proofs.Loop.Messages
import TextLink.Proofs.Loop.Established

/-!
# What a loop has left to do

What is left to do is counted over a whole loop (`Loop.supply`): what the kernel may still report,
whether the loop is to be woken, the messages that wait, and the chores of the connections. As long
as no command is taken, whatever the loop does by itself adds nothing to it and takes no time
(`Spends`).

A wait either uses some of it up, or finds nothing to report and lasts its time (`Waits`). So a loop
cannot go on forever without time passing.

## Main results

* `Strokes.spends` — a loop that takes no command does not make work for itself.
* `Servable.waits` — what a wait comes to.
* `supply_lt_prospects` — the bound on rounds allows for all there is to do.
-/

namespace TextLink.Loop

open Relation (ReflTransGen)
open Link (Occasion Steps Uses)

variable {allowed : Happening → Prop} {may : Occasion → Loop → Nat → Prop} {l l' l'' : Loop}
  {t : Nat} {c : Connection} {k : Link} {why : Occasion}

/-! ## Counting -/

/-- The chores of the connection in a slot. -/
def owed (l : Loop) : Option Connection → Nat
  | none => 0
  | some c => Link.chores c (l.queue c.id)

/-- How much there is to do before nothing is left to report. -/
def supply (l : Loop) : Nat :=
  l.kernel.supply + (if l.kernel.signalled then 1 else 0) +
    total (fun q => q.pending.length) l.queues + total l.owed l.connections.slots

/-- What a connection that acts leaves less to do, the loop has less to do. -/
theorem supply_absorb (h : l.Coherent) (hc : l.connections.get? t = some c)
    (hk : Steps why (l.link c) k) :
    (l.absorb t k).supply + (l.kernel.supply + (l.link c).errands) =
      l.supply + (k.kernel.supply + k.errands) := by
  have hleads := h.leads hc hk
  have hsignalled : k.kernel.signalled = l.kernel.signalled := hk.spends.signalled_eq
  have hqueues : total (fun q => q.pending.length) (l.queues.set k.conn.id k.queue) +
      (l.queue c.id).pending.length =
      total (fun q => q.pending.length) l.queues + k.queue.pending.length := by
    refine total_set ?_ fun _ _ _ _ => rfl
    have hlt := (h.lives hc).id_lt
    rw [id_eq hleads, queue, List.getElem?_eq_getElem hlt]
    rfl
  have hslots : total (l.absorb t k).owed (l.connections.slots.set t (some k.conn)) +
      l.owed (some c) = total l.owed l.connections.slots + (l.absorb t k).owed (some k.conn) := by
    refine total_set (SlotTable.get?_eq_some_iff.1 hc) fun t' slot hne hslot => ?_
    rcases slot with _ | c'
    · rfl
    · exact congrArg (Link.chores c')
        (h.queue_other hc hleads (SlotTable.get?_eq_some_iff.2 hslot) hne)
  have hself : (l.absorb t k).owed (some k.conn) = Link.chores k.conn k.queue :=
    congrArg (Link.chores k.conn) (h.queue_self hc hleads)
  have hlink : (l.link c).errands = (l.queue c.id).pending.length + l.owed (some c) := rfl
  have hset : (l.absorb t k).connections.slots = l.connections.slots.set t (some k.conn) := by
    show (l.connections.set t k.conn).slots = _
    rw [SlotTable.set, if_pos (by rw [hc]; rfl)]
  have hafter : (l.absorb t k).supply = k.kernel.supply + (if k.kernel.signalled then 1 else 0) +
      total (fun q => q.pending.length) (l.queues.set k.conn.id k.queue) +
      total (l.absorb t k).owed (l.connections.slots.set t (some k.conn)) := by
    rw [← hset]
    rfl
  have hown : k.errands = k.queue.pending.length + Link.chores k.conn k.queue := rfl
  rw [hafter, hsignalled, supply, hlink, hown, ← hself]
  omega

theorem supply_absorb_lt (h : l.Coherent) (hc : l.connections.get? t = some c)
    (hk : Steps why (l.link c) k) (huses : Uses (l.link c) k) :
    (l.absorb t k).supply < l.supply := by
  have heq := supply_absorb h hc hk
  have hkernel : k.kernel.supply ≤ l.kernel.supply := hk.spends.supply_le
  have herrands := hk.errands_le
  rcases huses with hlt | hlt
  · have hlt : k.kernel.supply < l.kernel.supply := hlt
    omega
  · omega

/-! ## What a loop does by itself -/

/-- Whoever is at `l'` was at `l` already, in the same slot. -/
def Stays (l l' : Loop) : Prop :=
  ∀ t c', l'.connections.get? t = some c' →
    ∃ c, l.connections.get? t = some c ∧ c'.identity = c.identity

namespace Stays

theorem of_eq (h : l'.connections = l.connections) : Stays l l' :=
  fun _ c' hc' => ⟨c', h ▸ hc', rfl⟩

theorem trans (h : Stays l l') (h' : Stays l' l'') : Stays l l'' := by
  intro t c'' hc''
  obtain ⟨c', hc', hid'⟩ := h' t c'' hc''
  obtain ⟨c, hc, hid⟩ := h t c' hc'
  exact ⟨c, hc, hid'.trans hid⟩

theorem vacant (h : Stays l l') (ht : l.connections.get? t = none) :
    l'.connections.get? t = none := by
  rcases hc' : l'.connections.get? t with _ | c'
  · rfl
  · obtain ⟨c, hc, _⟩ := h t c' hc'
    cases ht.symm.trans hc

end Stays

/-- There is no more to do at `l'` than at `l`, no time has passed, and nobody came. -/
structure Spends (l l' : Loop) : Prop where
  supply_le : l'.supply ≤ l.supply
  now_eq : l'.now = l.now
  stays : Stays l l'

namespace Spends

theorem refl (l : Loop) : Spends l l := ⟨Nat.le_refl _, rfl, .of_eq rfl⟩

theorem trans (h : Spends l l') (h' : Spends l' l'') : Spends l l'' where
  supply_le := Nat.le_trans h'.supply_le h.supply_le
  now_eq := h'.now_eq.trans h.now_eq
  stays := h.stays.trans h'.stays

end Spends

theorem supply_remove_le (l : Loop) (t : Nat) :
    supply { l with connections := (l.connections.remove t).2 } ≤ l.supply := by
  rcases hc : l.connections.get? t with _ | c
  · exact Nat.le_of_eq (by rw [SlotTable.remove, hc])
  · have hslots : total l.owed (l.connections.slots.set t none) + l.owed (some c) =
        total l.owed l.connections.slots + l.owed none :=
      total_set (SlotTable.get?_eq_some_iff.1 hc) fun _ _ _ _ => rfl
    have hle : total l.owed (l.connections.slots.set t none) ≤
      total l.owed l.connections.slots := by
      have hnone : l.owed none = 0 := rfl
      omega
    rw [SlotTable.remove, hc]
    exact Nat.add_le_add_left hle _

/-- A request that is refused leaves no message, and concerns no slot. -/
theorem supply_refuse_le (hvacant : l.Vacant) (command : Command) :
    (l.refuse command).supply ≤ l.supply := by
  cases command with
  | connect id address handler options =>
      have hqueues : total (fun q => q.pending.length) (l.queues.modify id fun q => q.close.2) ≤
          total (fun q => q.pending.length) l.queues :=
        total_modify_le (f := fun q : SendQueue => q.pending.length) (g := fun q => q.close.2)
          (fun _ => Nat.zero_le _) id
      have hslots :
          total (l.refuse (.connect id address handler options)).owed l.connections.slots =
            total l.owed l.connections.slots := by
        refine total_congr fun slot hslot => ?_
        obtain ⟨t, ht⟩ := List.mem_iff_getElem?.1 hslot
        rcases slot with _ | c
        · rfl
        · cases (hvacant t).symm.trans (SlotTable.get?_eq_some_iff.2 ht)
      exact Nat.add_le_add (Nat.add_le_add_left hqueues _) (Nat.le_of_eq hslots)
  | flush | close | shutdown => exact Nat.le_refl _

theorem Stroke.length_channel_le (h : Stroke may l l') : l'.channel.length ≤ l.channel.length := by
  cases h with
  | act | remove | appoint | note => exact Nat.le_refl _
  | enrol hchannel | skip hchannel => exact hchannel ▸ Nat.le_succ _
  | refuse c => cases c <;> exact Nat.le_refl _
  | clear => exact Nat.zero_le _

theorem Strokes.length_channel_le (h : Strokes may l l') :
    l'.channel.length ≤ l.channel.length := by
  induction h with
  | refl => exact Nat.le_refl _
  | tail _ hstroke ih => exact Nat.le_trans hstroke.length_channel_le ih

/-- A loop that takes no command does not make work for itself. -/
theorem Stroke.spends (h : Stroke may l l') (hl : l.Coherent)
    (hchannel : l.channel.length ≤ l'.channel.length) : Spends l l' := by
  have htaken {c : Command} {later : List Command} (hc : l.channel = c :: later)
      (hle : l.channel.length ≤ later.length) : False := by
    rw [hc] at hle
    exact Nat.not_succ_le_self _ hle
  cases h with
  | @act t c k why hc hk _ _ =>
      refine ⟨?_, hk.spends.clock_eq, fun t' c' hc' => ?_⟩
      · have heq := supply_absorb hl hc hk
        have hkernel : k.kernel.supply ≤ l.kernel.supply := hk.spends.supply_le
        have herrands := hk.errands_le
        omega
      · rcases slot_absorb hc hc' with ⟨rfl, rfl⟩ | ⟨_, hold⟩
        · exact ⟨c, hc, (hl.leads hc hk).identity_eq⟩
        · exact ⟨c', hold, rfl⟩
  | @remove t c hc _ _ _ =>
      exact ⟨supply_remove_le l t, rfl, fun t' c' hc' => ⟨c', (slot_remove hc').2, rfl⟩⟩
  | enrol hc | skip hc => exact (htaken hc hchannel).elim
  | @refuse command hvacant _ =>
      refine ⟨supply_refuse_le hvacant command, ?_, .of_eq (connections_refuse l command)⟩
      cases command <;> rfl
  | appoint | note | clear => exact ⟨Nat.le_refl _, rfl, .of_eq rfl⟩

theorem Strokes.spends (h : Strokes may l l') (hl : l.Coherent)
    (hchannel : l.channel.length ≤ l'.channel.length) : Spends l l' := by
  induction h with
  | refl => exact .refl l
  | tail hbefore hstroke ih =>
      have hbefore_le := Strokes.length_channel_le hbefore
      have hstroke_le := hstroke.length_channel_le
      exact (ih (Nat.le_trans hchannel hstroke_le)).trans
        (hstroke.spends (Strokes.coherent hbefore hl) (Nat.le_trans hbefore_le hchannel))

/-! ## The parts of a round -/

theorem spends_rearmSlot (h : l.Sound) (t : Nat) : Spends l (l.rearmSlot t) := by
  have hstrokes : Strokes (fun _ _ _ => True) l (l.rearmSlot t) := .rearmSlot h t fun _ _ => trivial
  exact hstrokes.spends h.coherent (Nat.le_of_eq (by rw [(keeps_rearmSlot l t).channel_eq]))

theorem spends_retry (h : l.Sound) (due : Appointment) : Spends l (l.retry due).2 := by
  have hstrokes : Strokes (fun _ _ _ => True) l (l.retry due).2 := .retry h due fun _ _ => trivial
  exact hstrokes.spends h.coherent (Nat.le_of_eq (by rw [(keeps_retry l due).channel_eq]))

theorem spends_handle (h : l.Sound) (event : Event) : Spends l (l.handle event).2 := by
  have hstrokes : Strokes (fun _ _ _ => True) l (l.handle event).2 :=
    .handle h event fun _ _ => trivial
  exact hstrokes.spends h.coherent (Nat.le_of_eq (by rw [(keeps_handle l event).channel_eq]))

theorem spends_rearmAll (h : l.Sound) (tokens : List Nat) :
    Spends l (tokens.foldl rearmSlot l) := by
  induction tokens generalizing l with
  | nil => exact .refl l
  | cons token later ih =>
      have hnext : Next (fun _ => True) ⟨l, [], []⟩ ⟨l.rearmSlot token, [], []⟩ := .rearm l token
      exact (spends_rearmSlot h token).trans (ih (Sound.next (m := ⟨l, [], []⟩) h hnext))

theorem spends_retryAll (h : l.Sound) (due : List Appointment) : Spends l (l.retryAll due).2 := by
  induction due generalizing l with
  | nil => exact .refl l
  | cons a later ih =>
      have hretry := spends_retry h a
      unfold retryAll
      rcases hr : l.retry a with ⟨fault | _, l'⟩ <;> rw [hr] at hretry
      · exact hretry
      · have hnext : Next (fun _ => True) ⟨l, a :: later, []⟩ ⟨l', later, []⟩ := .retry later hr
        exact hretry.trans (ih (Sound.next (m := ⟨l, a :: later, []⟩) h hnext))

theorem spends_dispatch (h : l.Sound) (events : List Event) : Spends l (l.dispatch events).2 := by
  induction events generalizing l with
  | nil => exact .refl l
  | cons event later ih =>
      have hhandle := spends_handle h event
      unfold dispatch
      rcases hr : l.handle event with ⟨fault | _, l'⟩ <;> rw [hr] at hhandle
      · exact hhandle
      · have hnext : Next (fun _ => True) ⟨l, [], event :: later⟩ ⟨l', [], later⟩ :=
          .handle later hr
        exact hhandle.trans (ih (Sound.next (m := ⟨l, [], event :: later⟩) h hnext))

/-- Rearming everything and firing the retries make no work, and take no time. -/
theorem spends_rearmAndFire (h : l.Sound) :
    Spends l (l.connections.keys.foldl rearmSlot l).fireRetries.2 := by
  have hrearm := spends_rearmAll h l.connections.keys
  have hcourse : Course (fun _ => True) ⟨l, [], []⟩
    ⟨l.connections.keys.foldl rearmSlot l, [], []⟩ :=
    course_rearmAll l.connections.keys
  have hsound : (l.connections.keys.foldl rearmSlot l).Sound :=
    Sound.course (m := ⟨l, [], []⟩) h hcourse
  generalize l.connections.keys.foldl rearmSlot l = l₁ at hrearm hsound ⊢
  have htaken : Spends l₁ { l₁ with agenda := (l₁.agenda.takeDue l₁.now).2 } :=
    ⟨Nat.le_refl _, rfl, .of_eq rfl⟩
  exact (hrearm.trans htaken).trans (spends_retryAll (hsound.appoint _) _)

/-! ## Waiting -/

/-- What is needed for a loop to be served by its events: nothing is reported out of nowhere,
whoever reads and writes is connected, and no connection lives under the token of the waker. -/
structure Servable (l : Loop) : Prop where
  sound : l.Sound
  worded : l.Worded
  quiet : l.kernel.injections = []
  up : ∀ t c, l.connections.get? t = some c → c.state = .connected →
    ∀ s, c.socket = some s → l.kernel.IsUp s
  vacant : l.connections.get? wakerToken = none

theorem Truthful.servable (h : l.Truthful) (hl : l.Sound) (hworded : l.Worded)
    (hvacant : l.connections.get? wakerToken = none) : l.Servable where
  sound := hl
  worded := hworded
  quiet := h.injections
  up t c hc hstate s hs := (h.links t c hc).up hstate s hs
  vacant := hvacant

namespace Servable

/-- A wait changes no socket. -/
theorem kernel (h : l.Servable) {k : Kernel} (hl : Sound { l with kernel := k })
    (hsockets : k.sockets = l.kernel.sockets) (hquiet : k.injections = []) :
    Servable { l with kernel := k } where
  sound := hl
  worded := h.worded
  quiet := hquiet
  up t c hc hstate s hs := by
    obtain ⟨sock, hsock, hup⟩ := h.up t c hc hstate s hs
    exact ⟨sock, (congrArg (·[s]?) hsockets).trans hsock, hup⟩
  vacant := h.vacant

/-- An event that was reported leaves less to do. -/
theorem supply_handle_lt (h : l.Servable) {report : Report} {event : Event}
    (htold : l.Told t report) (hevent : report.event? = some event) :
    (l.handle event).2.supply < l.supply := by
  have htoken := (token_of_event? hevent).trans htold.token_eq
  cases htold with
  | @intro c s interest sock hc hs hi hsock hany =>
      have huses : Uses (l.link c) ((l.link c).handleEvent event).2 := by
        refine Link.uses_handleEvent (h.sound.coherent.lives hc).link (h.sound.shape t c hc)
          (h.worded.queue c.id) hs hi hsock (fun hstate => ?_) (occurs_of_report hany hevent)
        obtain ⟨sock', hsock', hup⟩ := h.up t c hc hstate s hs
        obtain rfl := Option.some.inj (hsock.symm.trans hsock')
        exact hup
      have hlt := supply_absorb_lt h.sound.coherent hc (Steps.handleEvent (l.link c) event) huses
      unfold Loop.handle
      rw [htoken, hc]
      simp only
      generalize (l.link c).handleEvent event = r at hlt ⊢
      rcases r with ⟨(e | fault) | progress, k⟩
      · exact hlt
      · exact hlt
      · cases progress with
        | ongoing | retry _ => exact hlt
        | closed => exact Nat.lt_of_le_of_lt (supply_remove_le _ t) hlt

theorem supply_dispatch_lt (h : l.Servable) {report : Report} {event : Event}
    (htold : l.Told t report) (hevent : report.event? = some event) (later : List Event) :
    (l.dispatch (event :: later)).2.supply < l.supply := by
  have hlt := h.supply_handle_lt htold hevent
  unfold dispatch
  rcases hr : l.handle event with ⟨fault | _, l'⟩ <;> rw [hr] at hlt
  · exact hlt
  · have hnext : Next (fun _ => True) ⟨l, [], event :: later⟩ ⟨l', [], later⟩ := .handle later hr
    have hsound : l'.Sound := Sound.next (m := ⟨l, [], event :: later⟩) h.sound hnext
    exact Nat.lt_of_le_of_lt (spends_dispatch hsound later).supply_le hlt

end Servable

/-- Another kernel. -/
theorem supply_kernel (l : Loop) (k : Kernel) : supply { l with kernel := k } +
    (l.kernel.supply + if l.kernel.signalled then 1 else 0) =
      l.supply + (k.supply + if k.signalled then 1 else 0) := by
  have hafter : supply { l with kernel := k } = k.supply + (if k.signalled then 1 else 0) +
    total (fun q => q.pending.length) l.queues + total l.owed l.connections.slots := rfl
  rw [hafter, supply]
  omega

theorem supply_kernel_le {k : Kernel} (hle : k.supply ≤ l.kernel.supply)
    (hsignalled : k.signalled = true → l.kernel.signalled = true) :
    supply { l with kernel := k } ≤ l.supply := by
  have heq := supply_kernel l k
  have hwaker : (if k.signalled then 1 else 0) ≤ if l.kernel.signalled then 1 else 0 := by
    by_cases h : k.signalled = true
    · exact Nat.le_of_eq (by rw [if_pos h, if_pos (hsignalled h)])
    · rw [if_neg h]
      exact Nat.zero_le _
  omega

/-- A wait comes to something that is used up, or it lasts its time. -/
structure Waits (l : Loop) (timeout : Duration) (l' : Loop) : Prop where
  stays : Stays l l'
  outcome : l'.supply < l.supply ∧ l'.now = l.now ∨
    l'.supply ≤ l.supply ∧ l'.now = waitEnd l.now (timeoutMillis timeout)

/-- Whatever is done after something was used up makes no work. -/
theorem Waits.of_uses {l₁ : Loop} {timeout : Duration} (hlt : l₁.supply < l.supply)
    (hnow : l₁.now = l.now) (hconnections : l₁.connections = l.connections) (h : Spends l₁ l') :
    Waits l timeout l' where
  stays := Stays.trans (.of_eq hconnections) h.stays
  outcome := .inl ⟨Nat.lt_of_le_of_lt h.supply_le hlt, h.now_eq.trans hnow⟩

theorem supply_answered_le (l : Loop) (millis : Option Nat) (reports : List Report) :
    (l.answered millis reports).supply ≤ l.supply :=
  supply_kernel_le (Nat.le_refl l.kernel.supply) fun h => (Bool.and_eq_true_iff.1 h).1

/-- A wait that reports nothing moves the clock, and nothing else. -/
theorem answered_clock (l : Loop) (k : Kernel) (t : Instant) (millis : Option Nat) :
    supply (answered { l with kernel := { k with clock := t } } millis []) ≤
        supply { l with kernel := k } ∧
      now (answered { l with kernel := { k with clock := t } } millis []) = t ∧
      (answered { l with kernel := { k with clock := t } } millis []).connections =
        l.connections := by
  refine ⟨Nat.le_trans (supply_answered_le _ _ _) ?_, rfl, rfl⟩
  exact supply_kernel_le (l := { l with kernel := k }) (Nat.le_of_eq (k.supply_clock t)) id

/-- The waker is reported once. -/
theorem supply_answered_lt (hsignalled : l.kernel.signalled = true) (millis : Option Nat)
    (later : List Report) : (l.answered millis (⟨.waker, {}⟩ :: later)).supply < l.supply := by
  have heq := supply_kernel l
    ((l.kernel.answerWait millis (⟨.waker, {}⟩ :: later)).collect (.ok (⟨.waker, {}⟩ :: later))).2
  have hkernel : ((l.kernel.answerWait millis (⟨.waker, {}⟩ :: later)).collect
      (.ok (⟨.waker, {}⟩ :: later))).2.supply = l.kernel.supply := rfl
  have hread : ((l.kernel.answerWait millis (⟨.waker, {}⟩ :: later)).collect
      (.ok (⟨.waker, {}⟩ :: later))).2.signalled = (l.kernel.signalled && false) := rfl
  show supply { l with kernel := _ } < l.supply
  rw [hkernel, hread, hsignalled] at heq
  simp only [Bool.and_false, Bool.false_eq_true, if_false, if_true] at heq
  omega

/-- A wait begins, or something is used up. -/
theorem beginWait_eq (l : Loop) (millis : Option Nat) :
    (supply { l with kernel := (l.kernel.beginWait millis).2 } ≤ l.supply ∧
      now { l with kernel := (l.kernel.beginWait millis).2 } = l.now) ∧
    ((l.kernel.beginWait millis).1 ≠ .ok →
      supply { l with kernel := (l.kernel.beginWait millis).2 } < l.supply) := by
  have heq := supply_kernel l (l.kernel.beginWait millis).2
  rcases l.kernel.beginWait_eq millis with ⟨vs, hle, hbegin⟩ | ⟨e, vs, hlt, hbegin⟩
  · have hsupply : (l.kernel.beginWait millis).2.supply ≤ l.kernel.supply := by
      rw [hbegin]
      exact Nat.add_le_add_right (Nat.add_le_add_right hle _) _
    have hsignalled : (l.kernel.beginWait millis).2.signalled = l.kernel.signalled := by
      rw [hbegin]
    refine ⟨⟨supply_kernel_le hsupply fun h => hsignalled ▸ h, ?_⟩, fun hne => ?_⟩
    · rw [hbegin]
      rfl
    · rw [hbegin] at hne
      exact absurd rfl hne
  · have hsupply : (l.kernel.beginWait millis).2.supply < l.kernel.supply := by
      rw [hbegin]
      exact Nat.add_lt_add_right (Nat.add_lt_add_right hlt _) _
    have hsignalled : (l.kernel.beginWait millis).2.signalled = l.kernel.signalled := by
      rw [hbegin]
      rfl
    rw [hsignalled] at heq
    have hless : supply { l with kernel := (l.kernel.beginWait millis).2 } < l.supply := by
      omega
    refine ⟨⟨Nat.le_of_lt hless, ?_⟩, fun _ => hless⟩
    rw [hbegin]
    rfl

namespace Servable

/-- What a wait reports is used up. -/
theorem uses_answer (h : l.Servable) (timeout : Duration) (millis : Option Nat) {report : Report}
    {later : List Report} (hreports : l.kernel.pendingReports l.config.capacity = report :: later) :
    Waits l timeout ((l.answered millis (report :: later)).dispatch
      ((report :: later).filterMap Report.event?)).2 := by
  have hnext : Next (fun _ => True) ⟨l, [], []⟩
      ⟨l.answered millis (report :: later), [], (report :: later).filterMap Report.event?⟩ :=
    .answer l millis hreports
  have hsound : (l.answered millis (report :: later)).Sound :=
    Sound.next (m := ⟨l, [], []⟩) h.sound hnext
  have hanswered : (l.answered millis (report :: later)).Servable := by
    refine h.kernel hsound rfl ?_
    show l.kernel.injections.drop _ = []
    rw [h.quiet, List.drop_nil]
  have hmem : report ∈ l.kernel.pendingReports l.config.capacity := hreports ▸ List.mem_cons_self
  rcases told_of_pending h.sound h.quiet hmem with ⟨hsignalled, rfl⟩ | ⟨t, htold⟩
  · exact .of_uses (supply_answered_lt hsignalled millis later) rfl rfl
      (spends_dispatch hanswered.sound _)
  · have htoken : report.token ≠ wakerToken := by
      rw [htold.token_eq]
      rintro rfl
      cases htold with
      | intro hc _ _ _ _ => cases h.vacant.symm.trans hc
    have ⟨event, hevent⟩ : ∃ event, report.event? = some event := by
      unfold Report.event?
      rw [if_neg htoken]
      exact ⟨_, rfl⟩
    have htold : (l.answered millis (report :: later)).Told t report := by
      cases htold with
      | intro hc hs hi hsock hany => exact .intro hc hs hi hsock hany
    rw [List.filterMap_cons_some hevent]
    have hlt := hanswered.supply_dispatch_lt htold hevent (later.filterMap Report.event?)
    have hspends := spends_dispatch hanswered.sound (event :: later.filterMap Report.event?)
    exact ⟨hspends.stays, .inl ⟨Nat.lt_of_lt_of_le hlt (supply_answered_le l _ _), hspends.now_eq⟩⟩

/-- **A wait uses something up, or time passes.** -/
theorem waits (h : l.Servable) (timeout : Duration) :
    Waits l timeout (l.waitAndDispatch timeout).2 := by
  have hwaited := l.waited timeout
  have hnext : Next (fun _ => True) ⟨l, [], []⟩ _ := .beginWait l (some (timeoutMillis timeout))
  have hbegun := beginWait_eq l (some (timeoutMillis timeout))
  generalize l.waitAndDispatch timeout = r at hwaited ⊢
  cases hwaited with
  | @idle k hbegin hnone =>
      rw [hbegin] at hbegun
      have ⟨hle, hnow⟩ := hbegun.1
      have hanswered := answered_clock l k (waitEnd k.clock (timeoutMillis timeout))
        (some (timeoutMillis timeout))
      rw [Kernel.passTimeout]
      generalize answered _ _ [] = l₁ at hanswered ⊢
      obtain ⟨hpass, hclock, hconnections⟩ := hanswered
      have hnow : k.clock = l.now := hnow
      exact ⟨.of_eq hconnections, .inr ⟨Nat.le_trans hpass hle, hnow ▸ hclock⟩⟩
  | @reported k report later hbegin hreports =>
      rw [hbegin] at hnext hbegun
      have ⟨hle, hnow⟩ := hbegun.1
      have hsound : Sound { l with kernel := k } := Sound.next (m := ⟨l, [], []⟩) h.sound hnext
      have hservable : Servable { l with kernel := k } := by
        rcases l.kernel.beginWait_eq (some (timeoutMillis timeout)) with
          ⟨vs, _, heq⟩ | ⟨_, _, _, heq⟩
        · obtain rfl : k = { l.kernel with verdicts := vs } :=
            (Prod.mk.inj (hbegin.symm.trans heq)).2
          exact h.kernel hsound rfl h.quiet
        · cases hbegin.symm.trans heq
      have hwaits := hservable.uses_answer timeout (some (timeoutMillis timeout)) hreports
      refine ⟨hwaits.stays, hwaits.outcome.imp (fun hless => ?_) fun hlasts => ?_⟩
      · exact ⟨Nat.lt_of_lt_of_le hless.1 hle, hless.2.trans hnow⟩
      · exact ⟨Nat.le_trans hlasts.1 hle, hnow ▸ hlasts.2⟩
  | interrupted hbegin =>
      rw [hbegin] at hbegun
      exact .of_uses (hbegun.2 nofun) hbegun.1.2 rfl (.refl _)
  | failed hbegin =>
      rw [hbegin] at hbegun
      exact .of_uses (hbegun.2 nofun) hbegun.1.2 rfl ⟨Nat.le_refl _, rfl, .of_eq rfl⟩

end Servable

/-! ## The bound on rounds -/

/-- Every connection has a queue of its own. -/
theorem Coherent.length_values_le (h : l.Coherent) :
    l.connections.values.length ≤ l.queues.length := by
  have hnodup : (l.connections.values.map Connection.id).Nodup := by
    rw [List.Nodup, List.pairwise_map, SlotTable.values, List.pairwise_filterMap,
      List.pairwise_iff_getElem]
    intro i j hi hj hlt c hc c' hc' hid
    have hslot : l.connections.get? i = some c :=
      SlotTable.get?_eq_some_iff.2 (List.getElem?_eq_some_iff.2 ⟨hi, hc⟩)
    have hslot' : l.connections.get? j = some c' :=
      SlotTable.get?_eq_some_iff.2 (List.getElem?_eq_some_iff.2 ⟨hj, hc'⟩)
    exact Nat.ne_of_lt hlt (h.slot_eq hslot hslot' hid)
  have hsubset : l.connections.values.map Connection.id ⊆ List.range l.queues.length := by
    intro id hid
    obtain ⟨c, hc, rfl⟩ := List.mem_map.1 hid
    obtain ⟨t, ht⟩ := SlotTable.mem_values_iff.1 hc
    exact List.mem_range.2 (h.lives ht).id_lt
  have hle := (hnodup.subperm hsubset).length_le
  rwa [List.length_map, List.length_range] at hle

theorem total_owed_le (l : Loop) (slots : List (Option Connection)) :
    total l.owed slots ≤ (slots.filterMap id).length := by
  induction slots with
  | nil => exact Nat.le_refl 0
  | cons slot slots ih =>
      show l.owed slot + total l.owed slots ≤ _
      rcases slot with _ | c
      · exact Nat.le_trans (Nat.le_of_eq (Nat.zero_add _)) ih
      · rw [Nat.add_comm]
        exact Nat.add_le_add ih (Link.chores_le_one c (l.queue c.id))

/-- The bound on rounds allows for all there is to do. -/
theorem supply_lt_prospects (h : l.Coherent) : l.supply < l.prospects := by
  have hkernel : l.kernel.supply ≤ l.kernel.prospects := l.kernel.supply_le_prospects
  have hmessages : total (fun q => q.pending.length) l.queues + l.queues.length * 1 ≤
      total (fun q => q.pending.flatten.length + q.pending.length + 1) l.queues :=
    total_add_le fun q => Nat.add_le_add_right (Nat.le_add_left _ _) 1
  have howed : total l.owed l.connections.slots ≤ l.queues.length :=
    Nat.le_trans (total_owed_le l _) h.length_values_le
  have hwaker : (if l.kernel.signalled then 1 else 0) ≤ 1 := by
    split <;> decide
  have hprospects : l.prospects = l.kernel.prospects + 8 * l.channel.length +
      total (fun q => q.pending.flatten.length + q.pending.length + 1) l.queues + 8 := rfl
  rw [hprospects, supply]
  omega

end TextLink.Loop
