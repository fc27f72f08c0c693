import TextLink.Proofs.Agenda.Order
import TextLink.Proofs.Loop.Lasting
import TextLink.Proofs.Loop.Preservation

/-!
# The agenda of a loop is a heap

Whatever a loop does, it leaves its agenda as it is, adds one appointment, takes out what is due, or
clears it (`Books`). Each of these keeps it a heap, so it is one at every moment.

## Main results

* `Started.agenda_ordered` — the agenda of a loop is a heap at every moment.
-/

namespace TextLink.Loop

variable {l l' : Loop}

/-! ## Booking an appointment -/

/-- `l'` has the agenda of `l`, or one appointment more. -/
def Books (l l' : Loop) : Prop := l'.agenda = l.agenda ∨ ∃ a, l'.agenda = l.agenda.push a

theorem Books.ordered (h : Books l l') (hl : l.agenda.Ordered) : l'.agenda.Ordered := by
  rcases h with heq | ⟨a, heq⟩ <;> rw [heq]
  · exact hl
  · exact hl.push a

theorem books_settle (l : Loop) (t : Nat) (k : Link) (progress : Progress) :
    Books l ((l.absorb t k).apply t progress) := by
  cases progress with
  | ongoing | closed => exact .inl rfl
  | retry deadline => exact .inr ⟨_, rfl⟩

theorem books_attempt (l : Loop) (t : Nat) : Books l (l.attempt t).2 := by
  unfold attempt
  split
  · exact .inl rfl
  · unfold settleAttempt
    split
    · exact books_settle l _ _ _
    · exact .inl rfl

theorem books_obey (l : Loop) (command : Command) : Books l (l.obey command).2 := by
  cases command with
  | connect id address handler options =>
      show Books l (l.takeUp id address handler options).2
      unfold takeUp
      split
      · exact books_attempt { l with
          connections := (l.connections.insertWith fun token =>
            Connection.ofRequest id token address handler options).2
          queues := l.queues.modify id (·.bind _) } _
      · exact .inl rfl
  | flush id =>
      show Books l (l.rearmFor id)
      unfold rearmFor
      split <;> exact .inl rfl
  | close id =>
      show Books l (l.closeFor id)
      unfold closeFor
      split <;> exact .inl rfl
  | shutdown => exact .inl rfl

theorem books_retry (l : Loop) (a : Appointment) : Books l (l.retry a).2 := by
  unfold Loop.retry
  split
  · exact .inl rfl
  · split
    · exact books_attempt l a.token
    · exact .inl rfl

theorem books_handle (l : Loop) (event : Event) : Books l (l.handle event).2 := by
  unfold Loop.handle
  split
  · exact .inl rfl
  · split
    · exact books_settle l _ _ _
    · exact .inl rfl
    · exact .inl rfl

/-- No appointment outlives a loop that closes what it has. -/
theorem agenda_closeAll (l : Loop) : l.closeAll.agenda = .empty := by
  obtain ⟨queues, hclosed⟩ := exists_closeAll l
  rw [hclosed]

theorem ordered_drop (h : l.agenda.Ordered) : l.drop.agenda.Ordered := by
  show (if l.connections.isEmpty then l else l.closeAll).agenda.Ordered
  split
  · exact h
  · rw [agenda_closeAll]
    trivial

theorem Faults.books (h : Faults l l') : Books l l' := by
  cases h with
  | @obey command commands fault _ heq =>
      have hbooks := books_obey { l with channel := commands } command
      rw [heq] at hbooks
      exact hbooks
  | @retry a fault heq =>
      have hbooks := books_retry l a
      rw [heq] at hbooks
      exact hbooks
  | @handle event fault heq =>
      have hbooks := books_handle l event
      rw [heq] at hbooks
      exact hbooks

/-! ## Moves -/

theorem ordered_move {m m' : Moment} (h : m.loop.agenda.Ordered) (hmove : Move m m') :
    m'.loop.agenda.Ordered := by
  cases hmove with
  | request l r later => exact (sameSlots_request l r).2.1 ▸ h
  | happen | idle | note => exact h
  | @obey l l' command commands hchannel hok =>
      have hbooks := books_obey { l with channel := commands } command
      rw [hok] at hbooks
      exact hbooks.ordered h
  | takeDue l => exact (h.takeDue l.now).1
  | @retry l l' a later hok =>
      have hbooks := books_retry l a
      rw [hok] at hbooks
      exact hbooks.ordered h
  | @handle l l' event hok =>
      have hbooks := books_handle l event
      rw [hok] at hbooks
      exact hbooks.ordered h
  | rearm l token =>
      show (l.rearmSlot token).agenda.Ordered
      unfold rearmSlot
      split <;> exact h
  | fault later hfault => exact ordered_drop (hfault.books.ordered h)
  | finish l =>
      show l.closeAll.agenda.Ordered
      rw [agenda_closeAll]
      trivial
  | drop l => exact ordered_drop h

/-- The agenda of a loop is a heap at every moment. -/
theorem Started.agenda_ordered (h : l.Started) {m : Moment} (hm : Moves ⟨l, []⟩ m) :
    m.loop.agenda.Ordered := by
  have hempty : l.agenda = .empty := by
    have ⟨_, _, _, hl⟩ := h.eq
    rw [hl]
  induction hm with
  | refl =>
      show l.agenda.Ordered
      rw [hempty]
      trivial
  | tail _ hmove ih => exact ordered_move ih hmove

end TextLink.Loop
