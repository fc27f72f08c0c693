import TextLink.Proofs.Loop.Moves
import TextLink.Proofs.Loop.Requests

/-!
# A loop lasts until it is dropped

No part of a turn or of a draining ends the loop, not even by a fault; only dropping or finishing it
does, and what is gone stays gone.

## Main results

* `ended_moves` — a loop that is gone stays gone.
* `ended_prepareTurn`, `ended_drain` — a loop that turns or drains lasts.
-/

namespace TextLink.Loop

variable {l l' : Loop}

/-! ## Requests and moves -/

/-- `l'` has the connections and the agenda of `l`, and is gone if `l` is. -/
def SameSlots (l l' : Loop) : Prop :=
  l'.connections = l.connections ∧ l'.agenda = l.agenda ∧ l'.ended = l.ended

/-- Producers reach neither the connections nor the agenda, and end no loop. -/
theorem sameSlots_request (l : Loop) (r : Request) : SameSlots l (l.request r).2 := by
  have hasked := asked l r
  generalize (l.request r).2 = l' at hasked ⊢
  cases hasked <;> exact ⟨rfl, rfl, rfl⟩

theorem sameSlots_sendBytes (l : Loop) (id : Nat) (bytes : Bytes) :
    SameSlots l (l.sendBytes id bytes).2 := sameSlots_request l (.send id bytes)

/-- A loop that is gone stays gone. -/
theorem ended_move {m m' : Moment} (h : Move m m') (hended : m.loop.ended = true) :
    m'.loop.ended = true := by
  cases h with
  | request l r later => exact (sameSlots_request l r).2.2.trans hended
  | happen | takeDue | idle | note => exact hended
  | @obey l l' c later hchannel hok =>
      have hkept := (keeps_obey { l with channel := later } c).ended_eq
      rw [hok] at hkept
      exact hkept.trans hended
  | @retry l l' due later hok =>
      have hkept := (keeps_retry l due).ended_eq
      rw [hok] at hkept
      exact hkept.trans hended
  | @handle l l' event hok =>
      have hkept := (keeps_handle l event).ended_eq
      rw [hok] at hkept
      exact hkept.trans hended
  | rearm l token => exact (keeps_rearmSlot l token).ended_eq.trans hended
  | fault | finish | drop => rfl

theorem ended_moves {m m' : Moment} (h : Moves m m') (hended : m.loop.ended = true) :
    m'.loop.ended = true := by
  induction h with
  | refl => exact hended
  | tail _ hmove ih => exact ended_move hmove ih

/-! ## Turning and draining -/

theorem ended_takeFrom (commands : List Command) : (l.takeFrom commands).2.ended = l.ended := by
  induction commands generalizing l with
  | nil => rfl
  | cons c later ih =>
      have hobey := (keeps_obey { l with channel := later } c).ended_eq
      cases c with
      | shutdown => rfl
      | connect | flush | close =>
          unfold takeFrom
          generalize obey { l with channel := later } _ = r at hobey ⊢
          rcases r with ⟨fault | _, l'⟩
          · exact hobey
          · exact ih.trans hobey

theorem ended_retryAll (due : List Appointment) : (l.retryAll due).2.ended = l.ended := by
  induction due generalizing l with
  | nil => rfl
  | cons a later ih =>
      have hretry := (keeps_retry l a).ended_eq
      unfold retryAll
      generalize l.retry a = r at hretry ⊢
      rcases r with ⟨fault | _, l'⟩
      · exact hretry
      · exact ih.trans hretry

theorem ended_dispatch (events : List Event) : (l.dispatch events).2.ended = l.ended := by
  induction events generalizing l with
  | nil => rfl
  | cons event later ih =>
      have hhandle := (keeps_handle l event).ended_eq
      unfold dispatch
      generalize l.handle event = r at hhandle ⊢
      rcases r with ⟨fault | _, l'⟩
      · exact hhandle
      · exact ih.trans hhandle

theorem ended_fireRetries (l : Loop) : l.fireRetries.2.ended = l.ended := ended_retryAll _

theorem ended_prepareTurn (l : Loop) : l.prepareTurn.2.ended = l.ended := by
  have htake : l.takeCommands.2.ended = l.ended := ended_takeFrom l.channel
  unfold prepareTurn
  generalize l.takeCommands = r at htake ⊢
  rcases r with ⟨fault | (_ | _), l₁⟩
  · exact htake
  · have hfire := ended_fireRetries l₁
    simp only
    generalize l₁.fireRetries = r at hfire ⊢
    rcases r with ⟨fault | _, l₂⟩ <;> exact hfire.trans htake
  · exact htake

theorem ended_waitAndDispatch (l : Loop) (timeout : Duration) :
    (l.waitAndDispatch timeout).2.ended = l.ended := by
  unfold waitAndDispatch conclude
  generalize l.kernel.poll (some timeout) l.config.capacity = r
  rcases r with ⟨e | events, kernel⟩
  · rfl
  · exact ended_dispatch events

theorem ended_turn {turn : Turn} (h : l.turn = (turn, l')) : l'.ended = l.ended := by
  have hprepared := ended_prepareTurn l
  have hwaited {l₁ : Loop} {timeout : Duration} {r : Except Fault Unit × Loop}
      (hprepare : l.prepareTurn = (.ok (some timeout), l₁))
      (hwait : l₁.waitAndDispatch timeout = r) : r.2.ended = l.ended := by
    rw [hprepare] at hprepared
    rw [← hwait, ended_waitAndDispatch]
    exact hprepared
  have hturns := l.turns
  rw [h] at hturns
  cases hturns with
  | shutdown hprepare | unprepared hprepare =>
      rw [hprepare] at hprepared
      exact hprepared
  | again hprepare hwait | unserved hprepare hwait => exact hwaited hprepare hwait

theorem ended_rearmAll (tokens : List Nat) : (tokens.foldl rearmSlot l).ended = l.ended := by
  induction tokens generalizing l with
  | nil => rfl
  | cons token later ih => exact ih.trans (keeps_rearmSlot l token).ended_eq

theorem ended_fired {r : Except Fault Unit × Loop}
    (h : (l.connections.keys.foldl rearmSlot l).fireRetries = r) : r.2.ended = l.ended :=
  h ▸ (ended_fireRetries _).trans (ended_rearmAll l.connections.keys)

theorem Round.ended_eq {deadline : Instant} {r : Except Fault Unit × Loop}
    (h : Round deadline l r) : r.2.ended = l.ended := by
  cases h with
  | intro _ _ hfire hwait => exact hwait ▸ (ended_waitAndDispatch _ _).trans (ended_fired hfire)

theorem Ends.ended_eq {deadline : Instant} {r : Except Fault Unit × Loop} (h : Ends deadline l r) :
    r.2.ended = l.ended := by
  cases h with
  | done _ | expired _ => rfl
  | unprepared _ hfire => exact ended_fired hfire
  | unserved hround => exact hround.ended_eq

theorem ended_drainWithin {deadline : Instant} {rounds : Nat} {r : Except Fault Unit × Loop}
    (h : drainWithin deadline rounds l = some r) : r.2.ended = l.ended :=
  drainWithin_induction (P := fun l r => r.2.ended = l.ended) Ends.ended_eq
    (fun hround hr => hr.trans hround.ended_eq) h

theorem ended_drain {r : Except Fault Unit × Loop} (h : l.drain = some r) :
    r.2.ended = l.ended := by
  unfold drain at h
  split at h
  · cases h
    rfl
  · exact ended_drainWithin h

end TextLink.Loop
