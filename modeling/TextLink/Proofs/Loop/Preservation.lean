import TextLink.Proofs.Loop.Requests
import TextLink.Proofs.Loop.Steps

/-!
# Every history keeps a loop sound

Every request, everything that happens outside, and every move of the loop itself keeps a sound loop
sound. What the loop itself does is shown over what its parts come to (`Sound.obeys` and its like).
A fault may leave a connection out of shape; it is not closed then, and dropping the loop closes it.

## Main results

* `Sound.move` — every move keeps a loop sound.
* `Started.sound_after` — every history of a new loop leaves it sound.
-/

namespace TextLink.Loop

variable {l l' : Loop} {t id : Nat} {c : Connection} {k : Link} {progress : Progress}

/-! ## Requests -/

theorem requestedIds_append (commands commands' : List Command) :
    requestedIds (commands ++ commands') = requestedIds commands ++ requestedIds commands' :=
  List.filterMap_append

/-- A command that requests no connection. -/
theorem requestedIds_singleton {command : Command}
    (hnone : ∀ id address handler options, command ≠ .connect id address handler options) :
    requestedIds [command] = [] := by
  cases command with
  | connect id address handler options => exact absurd rfl (hnone id address handler options)
  | flush | close | shutdown => rfl

theorem Sound.told (h : l.Sound) (hlive : l.ended = false) {command : Command}
    (hnone : ∀ id address handler options, command ≠ .connect id address handler options) :
    (l.told command).Sound := by
  have hids : requestedIds (l.channel ++ [command]) = requestedIds l.channel := by
    rw [requestedIds_append, requestedIds_singleton hnone, List.append_nil]
  exact h.change rfl rfl (Kernel.idles_wake l.kernel).table (hids ▸ List.Sublist.refl _)
    fun hended => Bool.noConfusion (hlive.symm.trans hended)

theorem Sound.joined (h : l.Sound) (hlive : l.ended = false) (address : Address) (handler : Handler)
    (options : ConnectOptions) : (l.joined address handler options).Sound := by
  have hqueue := queue_joined l address handler options
  refine ⟨h.coherent.request rfl (length_joined l _ _ _) hqueue (Kernel.idles_wake l.kernel).table
    (requestedIds_append _ _) hlive, fun t c hc => ?_⟩
  rw [hqueue, if_neg (Nat.ne_of_lt (h.coherent.lives hc).id_lt)]
  exact h.shape t c hc

/-- Offering bytes to a queue, with what it writes. -/
theorem Sound.offered (h : l.Sound) (id : Nat) (bytes : Bytes) : (l.offered id bytes).Sound := by
  have ⟨w, hserves⟩ := Kernel.serves_push (l.queue id) l.kernel bytes
  have hkept {α : Type} (f : SendQueue → α)
      (hf : ∀ q pending headSent, f { q with pending := pending, headSent := headSent } = f q)
      (id' : Nat) : f ((l.offered id bytes).queue id') = f (l.queue id') := by
    obtain ⟨_, _, hqueue⟩ := exists_queue_offered l id bytes id'
    rw [hqueue, hf]
  have htoken := hkept SendQueue.token fun _ _ _ => rfl
  have hwriter := hkept SendQueue.writer fun _ _ _ => rfl
  have hstate := hkept SendQueue.state fun _ _ _ => rfl
  have hlen : l.queues.length ≤ (l.offered id bytes).queues.length :=
    Nat.le_of_eq List.length_set.symm
  constructor
  · exact h.coherent.frame rfl hlen hserves.table (fun id' _ => htoken id') hwriter
      h.coherent.requested_nodup
      (fun id' hid => (h.coherent.requested id' hid).congr hlen (hstate id') (htoken id'))
      h.coherent.ended
  · intro t c hc
    exact (h.shape t c hc).congr rfl rfl rfl rfl (hwriter c.id) (hstate c.id)

theorem Sound.request (h : l.Sound) (r : Request) : (l.request r).2.Sound := by
  have hasked := asked l r
  generalize (l.request r).2 = l' at hasked ⊢
  cases hasked with
  | refused => exact h
  | told hlive hnone => exact h.told hlive hnone
  | joined address handler options hlive => exact h.joined hlive address handler options
  | offered id bytes => exact h.offered id bytes
  | armed id bytes hlive => exact (h.offered id bytes).told hlive nofun
  | stranded id bytes => exact (h.offered id bytes).note _

theorem Sound.sendBytes (h : l.Sound) (id : Nat) (bytes : Bytes) :
    (l.sendBytes id bytes).2.Sound := h.request (.send id bytes)

/-! ## What a part of a turn leaves behind -/

/-- A part of a turn leaves a sound loop, or after a fault one that can end. -/
def Stands : Except Fault Unit × Loop → Prop
  | (.ok (), l) => l.Sound
  | (.error _, l) => l.Ending

theorem Stands.sound {r : Except Fault Unit × Loop} (h : Stands r) (hr : r = (.ok (), l')) :
    l'.Sound := by
  rw [hr] at h
  exact h

theorem Stands.ending {r : Except Fault Unit × Loop} {fault : Fault} (h : Stands r)
    (hr : r = (.error fault, l')) : l'.Ending := by
  rw [hr] at h
  exact h

/-- A connection that acts leaves the loop sound. -/
theorem SoundExcept.acts (h : l.SoundExcept t) (hacts : Acts l t c progress k) :
    ((l.absorb t k).apply t progress).Sound :=
  h.settle hacts.slot hacts.leads hacts.settled

theorem SoundExcept.breaks (h : l.SoundExcept t) (hbreaks : Breaks l t c k) :
    (l.absorb t k).Ending :=
  h.ending_absorb hbreaks.slot hbreaks.leads hbreaks.alive

/-- An attempt to connect, by a connection that may not be in shape yet. -/
theorem SoundExcept.attempt (h : l.SoundExcept t) {r : Except Fault Unit × Loop}
    (hattempts : Attempts l t c r) : Stands r := by
  cases hattempts with
  | made hacts _ _ => exact h.acts hacts
  | broken hbreaks => exact h.breaks hbreaks

theorem Sound.obey (h : l.Sound) {command : Command} {later : List Command}
    (hchannel : l.channel = command :: later) :
    Stands ({ l with channel := later }.obey command) := by
  have htaken := h.take hchannel
  have hobeys := h.obeys hchannel
  generalize Loop.obey { l with channel := later } command = r at hobeys ⊢
  cases hobeys with
  | connect hattempts => exact (h.enrol_requested hchannel).attempt hattempts
  | refused => exact htaken.ending
  | flush _ hacts rs => exact ((htaken.except _).acts hacts).note rs
  | close _ hacts => exact (htaken.except _).acts hacts
  | flushNobody _ | closeNobody _ | shutdown => exact htaken

theorem Sound.retry (h : l.Sound) (due : Appointment) : Stands (l.retry due) := by
  have hretries := h.retries due
  generalize l.retry due = r at hretries ⊢
  cases hretries with
  | attempt _ hattempts => exact (h.except due.token).attempt hattempts
  | outdated _ => exact h

theorem Sound.handle (h : l.Sound) (event : Event) : Stands (l.handle event) := by
  have hexcept := h.except event.token
  have hhandles := h.handles event
  generalize l.handle event = r at hhandles ⊢
  cases hhandles with
  | nobody _ => exact h
  | served hacts _ => exact hexcept.acts hacts
  | skipped hacts _ rs => exact (hexcept.acts hacts).note rs
  | broken hbreaks => exact hexcept.breaks hbreaks

theorem Sound.rearmSlot (h : l.Sound) (t : Nat) : (l.rearmSlot t).Sound := by
  rcases h.rearms t with heq | ⟨c, rs, hacts, heq⟩ <;> rw [heq]
  · exact h
  · exact ((h.except t).acts hacts).note rs

/-! ## Moves and histories -/

theorem Faults.ending (h : Faults l l') (hl : l.Sound) : l'.Ending := by
  cases h with
  | obey hchannel heq => exact (hl.obey hchannel).ending heq
  | retry heq => exact (hl.retry _).ending heq
  | handle heq => exact (hl.handle _).ending heq

/-- Every move keeps a loop sound. -/
theorem Sound.move {m m' : Moment} (hl : m.loop.Sound) (h : Move m m') : m'.loop.Sound := by
  cases h with
  | request l r later => exact hl.request r
  | happen l happening later =>
      exact hl.change rfl rfl (Kernel.sameTable_happen l.kernel happening) (List.Sublist.refl _)
        hl.coherent.ended
  | obey hchannel heq => exact (hl.obey hchannel).sound heq
  | takeDue l => exact hl.change rfl rfl (.refl _) (List.Sublist.refl _) hl.coherent.ended
  | retry later heq => exact (hl.retry _).sound heq
  | handle heq => exact (hl.handle _).sound heq
  | rearm l token => exact hl.rearmSlot token
  | idle l hidle => exact hl.change rfl rfl hidle.table (List.Sublist.refl _) hl.coherent.ended
  | note l rs => exact hl.note rs
  | fault later hfault => exact (hfault.ending hl).sound_drop
  | finish l =>
      have ⟨hcoherent, hvacant⟩ := hl.ending.closeAll
      exact (hcoherent.finish hvacant).sound hvacant
  | drop l => exact hl.ending.sound_drop

theorem Sound.moves {m m' : Moment} (hl : m.loop.Sound) (h : Moves m m') : m'.loop.Sound := by
  induction h with
  | refl => exact hl
  | tail _ hmove ih => exact ih.move hmove

/-! ## New loops -/

/-- `l` is a new loop, over a kernel with no socket yet. -/
def Started (l : Loop) : Prop :=
  ∃ config kernel, Kernel.Fresh kernel ∧ create config kernel = .ok l

theorem Started.eq (h : l.Started) :
    ∃ config kernel, Kernel.Fresh kernel ∧ l = { config, kernel } := by
  have ⟨config, kernel, hfresh, hcreate⟩ := h
  have hserves := Kernel.serves_takeVerdicts kernel 0 [.epollCreate, .eventfd, .epollCtl]
  unfold create Kernel.openPoller at hcreate
  generalize kernel.takeVerdicts [.epollCreate, .eventfd, .epollCtl] = r at hserves hcreate
  rcases r with ⟨_ | e, kernel'⟩
  · cases hcreate
    exact ⟨config, kernel', hfresh.sameTable hserves.table, rfl⟩
  · cases hcreate

theorem Started.vacant (h : l.Started) : l.Vacant := by
  have ⟨config, kernel, _, hl⟩ := h.eq
  rw [hl]
  exact fun t => SlotTable.get?_ofSize 16

theorem Started.sound (h : l.Started) : l.Sound := by
  have hvacant := h.vacant
  have ⟨config, kernel, hfresh, hl⟩ := h.eq
  have hno {t : Nat} {c : Connection} {p : Prop} (hc : l.connections.get? t = some c) : p := by
    rw [hvacant t] at hc
    cases hc
  have hids : requestedIds l.channel = [] := by
    rw [hl]
    rfl
  have hrequested {id : Nat} {p : Prop} (hid : id ∈ requestedIds l.channel) : p := by
    rw [hids] at hid
    cases hid
  have hkernel : l.kernel = kernel := by rw [hl]
  refine Coherent.sound ?_ hvacant
  refine
    { table := ?_
      lives := fun hc => hno hc
      requested_nodup := ?_
      requested := fun id hid => hrequested hid
      kernel := hkernel ▸ hfresh.sound
      apart := fun t t' c c' s hc => hno hc
      kept := fun s hs => ?_
      idle := fun id _ => ?_
      ended := fun hended => ?_ }
  · rw [hl]
    exact SlotTable.sound_ofSize 16
  · rw [hids]
    exact List.nodup_nil
  · exact absurd (hkernel ▸ hs) (hfresh.not_open s)
  · rw [hl]
    rfl
  · rw [hl] at hended
    cases hended

/-- Every history of a new loop leaves it sound. -/
theorem Started.sound_after (h : l.Started) (actions : List Action) : (l.after actions).Sound :=
  Sound.moves (m := ⟨l, []⟩) h.sound (moves_after l actions)

end TextLink.Loop
