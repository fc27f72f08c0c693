import TextLink.Loop.Turning

/-!
# How running and draining go

A loop that is run goes on from turn to turn (`Turns`), until it meets a fault or is shut down
(`Stops`). Draining goes on in rounds: output is watched for again, the retries that are due are
fired, and the loop waits (`Round`). It ends before a round, when nothing waits any more or the
grace is over, or in one, by a fault (`Ends`). What either comes to is told by induction over the
turns (`run_induction`) or the rounds (`drainWithin_induction`), and nothing else unfolds it.

## Main results

* `prepares` — how the part of a round before its wait goes.
* `ends_or_round` — a draining ends, or goes on after a round.
* `drainWithin_induction` — what holds of every end, and goes back over every round,
  holds of a draining.
* `run_induction` — what holds of every end, and goes back over every turn, holds of a run.
-/

namespace TextLink.Loop

variable {l l' : Loop} {deadline : Instant}

/-! ## Before the wait -/

/-- How the part of a round before its wait goes. -/
inductive Prepares (deadline : Instant) (l : Loop) :
    Except Fault (Option Duration) × Loop → Prop where
  /-- Nothing waits any more. -/
  | done (pending : l.pendingOutput = 0) : Prepares deadline l (.ok none, l)
  /-- The grace is over. -/
  | expired (now : deadline ≤ l.now) :
      Prepares deadline l (.ok none, l.note [.graceExpired l.pendingOutput])
  | faults {fault : Fault} {l' : Loop} (now : l.now < deadline)
      (fire : (l.connections.keys.foldl rearmSlot l).fireRetries = (.error fault, l')) :
      Prepares deadline l (.error fault, l')
  | waits {l' : Loop} (pending : l.pendingOutput ≠ 0) (now : l.now < deadline)
      (fire : (l.connections.keys.foldl rearmSlot l).fireRetries = (.ok (), l')) :
      Prepares deadline l (.ok (some (min l'.waitTimeout (deadline.since l'.now))), l')

theorem prepares (l : Loop) (deadline : Instant) :
    Prepares deadline l (l.prepareDrain deadline) := by
  unfold prepareDrain
  by_cases hpending : l.pendingOutput = 0
  · simp only [if_pos hpending]
    exact .done hpending
  · by_cases hnow : deadline ≤ l.now
    · simp only [if_neg hpending, if_pos hnow]
      exact .expired hnow
    · simp only [if_neg hpending, if_neg hnow]
      rcases hfire : (l.connections.keys.foldl rearmSlot l).fireRetries with ⟨fault | _, l'⟩
      · exact .faults (Nat.lt_of_not_le hnow) hfire
      · exact .waits hpending (Nat.lt_of_not_le hnow) hfire

/-! ## Rounds -/

/-- A round of draining, which comes to a wait. -/
inductive Round (deadline : Instant) (l : Loop) (r : Except Fault Unit × Loop) : Prop where
  | intro {l₁ : Loop} (pending : l.pendingOutput ≠ 0) (now : l.now < deadline)
      (fire : (l.connections.keys.foldl rearmSlot l).fireRetries = (.ok (), l₁))
      (wait : l₁.waitAndDispatch (min l₁.waitTimeout (deadline.since l₁.now)) = r)

/-- How a draining ends. -/
inductive Ends (deadline : Instant) (l : Loop) : Except Fault Unit × Loop → Prop where
  | done (pending : l.pendingOutput = 0) : Ends deadline l (.ok (), l)
  | expired (now : deadline ≤ l.now) :
      Ends deadline l (.ok (), l.note [.graceExpired l.pendingOutput])
  | unprepared {fault : Fault} {l' : Loop} (now : l.now < deadline)
      (fire : (l.connections.keys.foldl rearmSlot l).fireRetries = (.error fault, l')) :
      Ends deadline l (.error fault, l')
  | unserved {fault : Fault} {l' : Loop} (round : Round deadline l (.error fault, l')) :
      Ends deadline l (.error fault, l')

/-- The draining ends, or it goes on after a round. -/
theorem ends_or_round (l : Loop) (deadline : Instant) (rounds : Nat) :
    (∃ r, Ends deadline l r ∧ drainWithin deadline (rounds + 1) l = some r) ∨
    ∃ l', Round deadline l (.ok (), l') ∧
      drainWithin deadline (rounds + 1) l = drainWithin deadline rounds l' := by
  have hprepares := l.prepares deadline
  rw [drainWithin]
  generalize l.prepareDrain deadline = p at hprepares ⊢
  cases hprepares with
  | done hpending => exact .inl ⟨_, .done hpending, rfl⟩
  | expired hnow => exact .inl ⟨_, .expired hnow, rfl⟩
  | faults hnow hfire => exact .inl ⟨_, .unprepared hnow hfire, rfl⟩
  | @waits l₁ hpending hnow hfire =>
      simp only
      rcases hwait : l₁.waitAndDispatch (min l₁.waitTimeout (deadline.since l₁.now)) with
        ⟨fault | _, l'⟩
      · exact .inl ⟨_, .unserved (.intro hpending hnow hfire hwait), rfl⟩
      · exact .inr ⟨l', .intro hpending hnow hfire hwait, rfl⟩

theorem drainWithin_induction {P : Loop → Except Fault Unit × Loop → Prop}
    (hends : ∀ {l r}, Ends deadline l r → P l r)
    (hround : ∀ {l l' r}, Round deadline l (.ok (), l') → P l' r → P l r) {rounds : Nat}
    {r : Except Fault Unit × Loop} (h : drainWithin deadline rounds l = some r) : P l r := by
  induction rounds generalizing l with
  | zero => cases h
  | succ rounds ih =>
      rcases l.ends_or_round deadline rounds with ⟨r', hr', hdrain⟩ | ⟨l', hr', hdrain⟩
      · rw [hdrain] at h
        exact Option.some.inj h ▸ hends hr'
      · exact hround hr' (ih (hdrain ▸ h))

/-! ## Turns -/

/-- How a turn goes. -/
inductive Turns (l : Loop) : Turn × Loop → Prop where
  | shutdown {l' : Loop} (prepare : l.prepareTurn = (.ok none, l')) : Turns l (.shutdown, l')
  | again {l₁ l' : Loop} {timeout : Duration} (prepare : l.prepareTurn = (.ok (some timeout), l₁))
      (wait : l₁.waitAndDispatch timeout = (.ok (), l')) : Turns l (.again, l')
  | unprepared {fault : Fault} {l' : Loop} (prepare : l.prepareTurn = (.error fault, l')) :
      Turns l (.faulted fault, l')
  | unserved {fault : Fault} {l₁ l' : Loop} {timeout : Duration}
      (prepare : l.prepareTurn = (.ok (some timeout), l₁))
      (wait : l₁.waitAndDispatch timeout = (.error fault, l')) : Turns l (.faulted fault, l')

theorem turns (l : Loop) : Turns l l.turn := by
  unfold turn
  rcases hprepare : l.prepareTurn with ⟨fault | (_ | timeout), l₁⟩
  · exact .unprepared hprepare
  · exact .shutdown hprepare
  · simp only
    rcases hwait : l₁.waitAndDispatch timeout with ⟨fault | _, l'⟩
    · exact .unserved hprepare hwait
    · exact .again hprepare hwait

theorem run_of_shutdown (h : l.turn.1 = .shutdown) : l.run = l.turn.2.shutDown := by
  have hturn : l.turn = (.shutdown, l.turn.2) := Prod.ext h rfl
  rw [run, hturn]

/-- How running a loop ends with its next turn. -/
inductive Stops (l : Loop) : Except Fault Unit × Loop → Prop where
  | closed {l₁ l' : Loop} (turn : l.turn = (.shutdown, l₁)) (drain : l₁.drain = some (.ok (), l')) :
      Stops l (.ok (), l'.closeAll.finish)
  | undrained {fault : Fault} {l₁ l' : Loop} (turn : l.turn = (.shutdown, l₁))
      (drain : l₁.drain = some (.error fault, l')) : Stops l (.error fault, l'.drop)
  | faulted {fault : Fault} {l' : Loop} (turn : l.turn = (.faulted fault, l')) :
      Stops l (.error fault, l'.drop)

theorem run_induction {P : Loop → Except Fault Unit × Loop → Prop}
    (hstops : ∀ {l r}, Stops l r → P l r)
    (hagain : ∀ {l l' r}, l.turn = (.again, l') → P l' r → P l r) {r : Except Fault Unit × Loop}
    (h : l.run = some r) : P l r := by
  refine run.partial_correctness P (fun runs ih l r hr => ?_) l r h
  rcases hturn : l.turn with ⟨_ | _ | fault, l₁⟩ <;> rw [hturn] at hr
  · exact hagain hturn (ih l₁ r hr)
  · simp only [shutDown] at hr
    rcases hdrain : l₁.drain with _ | ⟨fault | _, l'⟩ <;> rw [hdrain] at hr
    · cases hr
    · exact Option.some.inj hr ▸ hstops (.undrained hturn hdrain)
    · exact Option.some.inj hr ▸ hstops (.closed hturn hdrain)
  · exact Option.some.inj hr ▸ hstops (.faulted hturn)

end TextLink.Loop
