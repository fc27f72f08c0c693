import TextLink.Proofs.Loop.Ending
import TextLink.Proofs.Loop.Moves

/-!
# A sound loop

A loop is sound if it is coherent and every connection in it is in one of its shapes. What becomes
of a connection that has acted is taken over under the hypothesis that all others are in shape,
since one that was only just requested is in none (`SoundExcept`).

## Main results

* `SoundExcept.settle` — taking over a connection that has settled.
* `Ending.sound_drop` — dropping the loop.
-/

namespace TextLink.Loop

open Link (Leads)

variable {l l' : Loop} {t t' id : Nat} {c : Connection} {k : Link}

/-- A coherent loop whose connections are in shape. -/
structure Sound (l : Loop) : Prop where
  coherent : l.Coherent
  shape : ∀ t c, l.connections.get? t = some c → Shape c (l.queue c.id)

/-- A coherent loop whose connections are in shape, except for the one in slot `t`. -/
structure SoundExcept (t : Nat) (l : Loop) : Prop where
  coherent : l.Coherent
  shape : ∀ t' c, t' ≠ t → l.connections.get? t' = some c → Shape c (l.queue c.id)

theorem Sound.except (h : l.Sound) (t : Nat) : l.SoundExcept t :=
  ⟨h.coherent, fun t' c _ hc => h.shape t' c hc⟩

theorem Sound.ending (h : l.Sound) : l.Ending :=
  ⟨h.coherent, fun t c hc => (h.shape t c hc).alive⟩

/-! ## Changes that concern no connection -/

theorem Sound.change (h : l.Sound) (hconnections : l'.connections = l.connections)
    (hqueues : l'.queues = l.queues) (hk : l.kernel.SameTable l'.kernel)
    (hsub : (requestedIds l'.channel).Sublist (requestedIds l.channel))
    (hended : l'.ended = true → (∀ t, l'.connections.get? t = none) ∧ l'.channel = []) :
    l'.Sound where
  coherent := h.coherent.change hconnections hqueues hk hsub hended
  shape t c hc := by
    rw [queue, hqueues]
    exact h.shape t c (hconnections ▸ hc)

theorem Sound.note (h : l.Sound) (rs : List LogRecord) : (l.note rs).Sound :=
  h.change rfl rfl (.refl _) (List.Sublist.refl _) h.coherent.ended

theorem Sound.appoint (h : l.Sound) (agenda : Agenda) : Sound { l with agenda } :=
  h.change rfl rfl (.refl _) (List.Sublist.refl _) h.coherent.ended

/-! ## What becomes of a connection -/

namespace SoundExcept

theorem shape_absorb (h : l.SoundExcept t) (hc : l.connections.get? t = some c)
    (hk : Leads (l.link c) k) (hne : t' ≠ t) {c' : Connection}
    (hc' : l.connections.get? t' = some c') : Shape c' ((l.absorb t k).queue c'.id) := by
  rw [h.coherent.queue_other hc hk hc' hne]
  exact h.shape t' c' hne hc'

/-- A connection that keeps its shape leaves the loop sound. -/
theorem absorb (h : l.SoundExcept t) (hc : l.connections.get? t = some c)
    (hk : Leads (l.link c) k) (hs : Shape k.conn k.queue) : (l.absorb t k).Sound := by
  constructor
  · exact h.coherent.absorb hc hk
  · intro t' c' hc'
    rcases slot_absorb hc hc' with ⟨_, rfl⟩ | ⟨hne, hc'⟩
    · rw [h.coherent.queue_self hc hk]
      exact hs
    · exact h.shape_absorb hc hk hne hc'

/-- A connection that is gone leaves its slot. -/
theorem remove (h : l.SoundExcept t) (hc : l.connections.get? t = some c)
    (hk : Leads (l.link c) k) (hs : Gone k.conn k.queue) :
    ((l.absorb t k).apply t .closed).Sound := by
  have hself : (l.absorb t k).connections.get? t = some k.conn :=
    get?_absorb_self hc
  have hwriter : ((l.absorb t k).queue k.conn.id).writer = none := by
    rw [h.coherent.queue_self hc hk]
    exact hs.writer
  constructor
  · exact (h.coherent.absorb hc hk).remove hself hs.socket hwriter
  · intro t' c' hc'
    have ⟨hne, hc'⟩ := slot_remove hc'
    rcases slot_absorb hc hc' with ⟨ht, _⟩ | ⟨_, hc'⟩
    · exact absurd ht hne
    · exact h.shape_absorb hc hk hne hc'

/-- A connection that has settled leaves the loop sound. -/
theorem settle (h : l.SoundExcept t) (hc : l.connections.get? t = some c)
    (hk : Leads (l.link c) k) {due : Option Instant} {progress : Progress}
    (hs : Settled due progress k) : ((l.absorb t k).apply t progress).Sound := by
  cases progress with
  | ongoing => exact h.absorb hc hk hs.1
  | retry deadline => exact (h.absorb hc hk hs.1).appoint _
  | closed => exact h.remove hc hk hs

/-- A connection that is not closed lets the loop end. -/
theorem ending_absorb (h : l.SoundExcept t) (hc : l.connections.get? t = some c)
    (hk : Leads (l.link c) k) (hstate : k.conn.state.Alive) : (l.absorb t k).Ending := by
  constructor
  · exact h.coherent.absorb hc hk
  · intro t' c' hc'
    rcases slot_absorb hc hc' with ⟨_, rfl⟩ | ⟨hne, hc'⟩
    · exact hstate
    · exact (h.shape t' c' hne hc').alive

end SoundExcept

/-! ## Ending -/

/-- A loop without connections is sound if it is coherent. -/
theorem Coherent.sound (h : l.Coherent) (hvacant : l.Vacant) : l.Sound :=
  ⟨h, fun t c hc => by
    rw [hvacant t] at hc
    cases hc⟩

theorem Ending.sound_drop (h : l.Ending) : l.drop.Sound := by
  have ⟨hcoherent, hvacant⟩ := h.drop
  exact hcoherent.sound hvacant

end TextLink.Loop
