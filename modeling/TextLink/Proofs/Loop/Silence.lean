import TextLink.Proofs.Loop.Accounting

/-!
# What the end of a loop leaves behind

A loop that is gone writes nothing any more, so a queue left open would take messages that nobody
ever sends. `Silent` says that none is: every queue is closed and empty, and whatever happens then,
every message is refused.

Running a loop to its end closes the connections and then the queues of those still requested, so
nothing is left open. Dropping it does the same only if there is a connection in the table. A loop
without one is dropped with its channel as it is, and a request that waits there leaves its queue
open for good (`Started.not_silent_drop_of_requested`).

## Main results

* `Started.silent_after_end` — how the loop leaves its queues, run to its end or dropped.
-/

namespace TextLink.Loop

variable {l l' : Loop} {id : Nat}

/-- Every queue is closed and empty, and whatever happens, it takes no message. -/
def Silent (l : Loop) : Prop :=
  ∀ id < l.queues.length, ∀ actions : List Action,
    ((l.after actions).queue id).state = .closed ∧ ((l.after actions).queue id).pending = [] ∧
      ∀ bytes, ((l.after actions).sendBytes id bytes).1 = .error .notConnected

/-- A loop is silent if every connection is over. -/
theorem Sound.silent (h : l.Sound) (hover : ∀ id < l.queues.length, l.Over id) : l.Silent := by
  intro id hlt actions
  have hafter : (l.after actions).Over id := Over.moves (hover id hlt) h (moves_after l actions)
  refine ⟨hafter.state, hafter.pending, fun bytes => ?_⟩
  rw [hafter.sendBytes]

/-- Closing everything leaves no connection that is not over. -/
theorem Accounted.over_closeAll (h : l.Accounted) (hl : l.Ending)
    (hlt : id < l.closeAll.queues.length) : l.closeAll.Over id :=
  ((passes_closeAll hl).accounted h).over hl.closeAll.2 rfl hlt

theorem Accounted.silent_closeAll (h : l.Accounted) (hl : l.Ending) :
    l.closeAll.finish.Silent := by
  have ⟨hcoherent, hvacant⟩ := hl.closeAll
  exact ((hcoherent.finish hvacant).sound hvacant).silent fun id hlt =>
    (h.over_closeAll hl hlt).finish

theorem moves_of_shutdown (h : l.turn = (.shutdown, l')) : Moves ⟨l, []⟩ ⟨l', []⟩ :=
  have hreaches : Reaches (fun _ => True) ⟨l, [], []⟩ (.ok (), l') := reaches_turn h
  Course.moves hreaches

theorem moves_of_again (h : l.turn = (.again, l')) : Moves ⟨l, []⟩ ⟨l', []⟩ :=
  have hreaches : Reaches (fun _ => True) ⟨l, [], []⟩ (.ok (), l') := reaches_turn h
  Course.moves hreaches

/-- A loop that is run to its end comes to close everything. -/
theorem exists_of_run_ok (h : l.run = some (.ok (), l')) :
    ∃ l₁, Moves ⟨l, []⟩ ⟨l₁, []⟩ ∧ l₁.ended = l.ended ∧ l' = l₁.closeAll.finish := by
  suffices hall : (.ok () : Except Fault Unit) = .ok () → _ from hall rfl
  refine run_induction (P := fun l r => r.1 = .ok () →
    ∃ l₁, Moves ⟨l, []⟩ ⟨l₁, []⟩ ∧ l₁.ended = l.ended ∧ r.2 = l₁.closeAll.finish) ?_ ?_ h
  · intro l r hstops hok
    cases hstops with
    | @closed l₀ l₁ hturn hdrain =>
        have hdrained : Reaches (fun _ => True) ⟨l₀, [], []⟩ (.ok (), l₁) := reaches_drain hdrain
        exact ⟨l₁, (moves_of_shutdown hturn).trans (Course.moves hdrained),
          (ended_drain hdrain).trans (ended_turn hturn), rfl⟩
    | undrained | faulted => cases hok
  · intro l l' r hturn hr hok
    obtain ⟨l₁, hmoves, hended, hl₁⟩ := hr hok
    exact ⟨l₁, (moves_of_again hturn).trans hmoves, hended.trans (ended_turn hturn), hl₁⟩

/--
**The end of a loop.** However long a loop has turned, if it is then run to its end, no queue is
left open, and nothing opens one again. If it is dropped, that is so just when it has a connection
in its table or no request in its channel.
-/
theorem Started.silent_after_end (h : l.Started) (actions : List Action)
    (hlive : (l.after actions).ended = false) :
    (∀ l', (l.after actions).run = some (.ok (), l') → l'.Silent) ∧
      ((l.after actions).drop.Silent ↔
        ¬ (l.after actions).Vacant ∨ requestedIds (l.after actions).channel = []) := by
  have hmoves := moves_after l actions
  have hsound := h.sound_after actions
  have haccounted := (passes_moves h.sound hmoves hlive).accounted h.accounted
  generalize l.after actions = l₀ at hmoves hsound haccounted hlive ⊢
  constructor
  · intro l' hrun
    have ⟨l₁, hmoves₁, hended, hl'⟩ := exists_of_run_ok hrun
    have hpasses := passes_moves (m := ⟨l₀, []⟩) hsound hmoves₁ (hended.trans hlive)
    rw [hl']
    exact (hpasses.accounted haccounted).silent_closeAll (hsound.moves hmoves₁).ending
  · have hempty := SlotTable.isEmpty_iff hsound.coherent.table
    by_cases hvacant : l₀.Vacant
    · have hdrop : l₀.drop = l₀.finish := by
        rw [Loop.drop, if_pos (hempty.2 hvacant)]
      rw [hdrop]
      constructor
      · -- A request in the channel would leave its queue open.
        intro hsilent
        right
        rw [List.eq_nil_iff_forall_not_mem]
        intro id hid
        have hawaits := hsound.coherent.requested id hid
        have hclosed : (l₀.finish.queue id).state = .closed := (hsilent id hawaits.id_lt []).1
        cases hawaits.state.symm.trans hclosed
      · intro hor
        have hnone := hor.resolve_left (not_not_intro hvacant)
        have hfinish := (hsound.coherent.finish hvacant).sound hvacant
        exact hfinish.silent fun id hlt => (haccounted.over hvacant hnone hlt).finish
    · have hdrop : l₀.drop = l₀.closeAll.finish := by
        rw [Loop.drop, if_neg fun hnone => hvacant (hempty.1 hnone)]
      rw [hdrop]
      exact iff_of_true (haccounted.silent_closeAll hsound.ending) (.inl hvacant)

/-- With an established connection and a request still in the channel, running to the end and
dropping both leave silence. -/
theorem Started.silent_after_end_of_established :
    let l : Loop := { kernel := { plans := [{ connect := .ok }] } }
    let connect : Action := .request (.connect default {} {})
    let l₁ := l.after [connect, .turn, .request .shutdown, connect]
    l.Started ∧ requestedIds l₁.channel = [1] ∧ l₁.drop.Silent ∧
      ∃ l', l₁.run = some (.ok (), l') ∧ l'.Silent := by
  intro l connect l₁
  have hstarted : l.Started := ⟨{}, l.kernel, ⟨rfl, rfl, rfl⟩, rfl⟩
  have hlive : l₁.ended = false := by decide +kernel
  have ⟨hrun, hdrop⟩ := hstarted.silent_after_end _ hlive
  have hvacant : ¬ l₁.Vacant := by
    intro hvacant
    have hslot : (l₁.connections.get? 0).isSome = true := by decide +kernel
    rw [hvacant 0] at hslot
    cases hslot
  have hturn : l₁.turn.1 = .shutdown := by decide +kernel
  have hok : (l₁.run.map fun r => r.1.isOk) = some true := by
    rw [run_of_shutdown hturn]
    decide +kernel
  rcases hcase : l₁.run with _ | ⟨_ | _, l'⟩
  · rw [hcase] at hok
    cases hok
  · rw [hcase] at hok
    cases hok
  · exact ⟨hstarted, by decide +kernel, hdrop.2 (.inl hvacant), l', rfl, hrun l' hcase⟩

/-- A loop is dropped before it takes the only request: the queue takes a message,
which nobody sends. -/
theorem Started.not_silent_drop_of_requested :
    let l : Loop := {}
    let dropped := (l.after [.request (.connect default {} {})]).drop
    l.Started ∧ dropped.ended = true ∧ ¬ dropped.Silent ∧ (dropped.queue 0).state = .disconnected ∧
      (dropped.sendBytes 0 [104, 105]).1 = .ok .queued := by
  intro l dropped
  have hstarted : l.Started := ⟨{}, {}, ⟨rfl, rfl, rfl⟩, rfl⟩
  have hstate : (dropped.queue 0).state = .disconnected := by decide +kernel
  refine ⟨hstarted, rfl, fun hsilent => ?_, hstate, by decide +kernel⟩
  have hlt : 0 < dropped.queues.length := by decide +kernel
  have hclosed : (dropped.queue 0).state = .closed := (hsilent 0 hlt []).1
  cases hstate.symm.trans hclosed

end TextLink.Loop
