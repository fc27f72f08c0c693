import TextLink.Proofs.Connection.Attempting
import TextLink.Proofs.Loop.Fortunes

/-!
# When it is attempted to connect

A turn attempts to connect in two places: when a request is taken up, and when a retry is fired that
a connection waits for (`MakesAttempt`). Either asks for one socket, and nothing else that comes
between two scenes asks for any. So a run tells how many attempts each connection has made
(`Attempted`): the scene says who is about to attempt to connect, and the calls recorded say whether
that was done.

## Main results

* `Next.launches` — a socket is asked for only where a connection attempts to connect.
* `MakesAttempt.attemptsOf_eq`, `Next.attemptsOf_eq_zero` — how many attempts that makes.
-/

namespace TextLink

/-- What comes after a part of a turn, with the appointments still to be looked at: a loop that
meets a fault is dropped. -/
def Scene.following (due : List Appointment) : Except Fault Unit × Loop → Scene
  | (.ok (), l) => ⟨l, due, []⟩
  | (.error _, l) => ⟨l.drop, [], []⟩

/-- The number of the connection that is to attempt to connect next, if there is one. -/
def Scene.attempter? (m : Scene) : Option Nat :=
  match m.due, m.loop.channel with
  | due :: _, _ => (m.loop.connections.get? due.token).map Connection.id
  | [], .connect id _ _ _ :: _ => some id
  | [], _ => none

namespace Loop

open Kernel (Launches)
open Link (Occasion)

variable {allowed : Happening → Prop} {l l' : Loop} {t id n : Nat} {c : Connection}
  {due : Appointment} {m m' m'' : Scene}

/-! ## What asks for no socket -/

/-- Connections act on any occasion but to attempt to connect. -/
def NoAttempt : Occasion → Loop → Nat → Prop := fun why _ _ => why ≠ .attempting

theorem noAttempt_called (l : Loop) (t : Nat) : NoAttempt .called l t := nofun

theorem Stroke.launches (h : Stroke NoAttempt l l') : Launches 0 l.kernel l'.kernel := by
  cases h with
  | act _ hk _ hmay => exact hk.launches hmay
  | refuse command _ _ => cases command <;> exact .refl _
  | remove | enrol | skip | appoint | note | clear => exact .refl _

theorem Strokes.launches (h : Strokes NoAttempt l l') : Launches 0 l.kernel l'.kernel := by
  induction h with
  | refl => exact .refl _
  | tail _ hstroke ih => exact ih.trans hstroke.launches

theorem Advance.launches (h : Advance allowed NoAttempt l l') : Launches 0 l.kernel l'.kernel := by
  rcases h.adds_or_strokes with ⟨_, t, hadds, ht⟩ | hstrokes
  · exact hadds.launches (by rcases ht with rfl | rfl <;> decide)
  · exact hstrokes.launches

/-- A loop that is dropped asks for no socket. -/
theorem launches_following {r : Except Fault Unit × Loop} (h : Launches n l.kernel r.2.kernel)
    (hending : ∀ fault, r.1 = .error fault → r.2.Ending) (due : List Appointment) :
    Launches n l.kernel (Scene.following due r).loop.kernel := by
  rcases r with ⟨fault | _, l'⟩
  · exact h.trans (Strokes.drop (hending fault rfl) noAttempt_called).launches
  · exact h

/-! ## Attempts -/

/-- Between two scenes connection number `id` attempts to connect. -/
inductive MakesAttempt (id : Nat) : Scene → Scene → Prop where
  /-- Its request is taken up. -/
  | first {l : Loop} {address : Address} {handler : Handler} {options : ConnectOptions}
      {later : List Command} (hchannel : l.channel = .connect id address handler options :: later)
      (hfeasible : options.areFeasible = true) :
      MakesAttempt id ⟨l, [], []⟩
        (.following [] ({ l with channel := later }.obey (.connect id address handler options)))
  /-- A retry is due that it waits for. -/
  | again {l : Loop} {due : Appointment} {c : Connection} {later : List Appointment}
      (hc : l.connections.get? due.token = some c) (hid : c.id = id)
      (hdue : c.retryAt = some due.deadline) :
      MakesAttempt id ⟨l, due :: later, []⟩ (.following later (l.retry due))

/-- A request that is taken up asks for one socket. -/
theorem Sound.launches_request (h : l.Sound) {address : Address} {handler : Handler}
    {options : ConnectOptions} {later : List Command}
    (hchannel : l.channel = .connect id address handler options :: later)
    (hfeasible : options.areFeasible = true) : Launches 1 l.kernel
      (Loop.obey { l with channel := later } (.connect id address handler options)).2.kernel := by
  have hslot := get?_enrol_self (h.take hchannel).coherent.table id
    (requested id address handler options)
  show Launches 1 l.kernel (Loop.takeUp _ id address handler options).2.kernel
  rw [takeUp_of_feasible hfeasible, attempt_of_slot hslot, kernel_settleAttempt]
  exact Link.launches_connect nofun

/-- A retry that is waited for asks for one socket. -/
theorem Sound.launches_retry (h : l.Sound) (hc : l.connections.get? due.token = some c)
    (hdue : c.retryAt = some due.deadline) : Launches 1 l.kernel (l.retry due).2.kernel := by
  rw [retry_of_due hc hdue, kernel_settleAttempt]
  exact Link.launches_connect (l := l.link c) (h.shape due.token c hc).state_ne_closed

theorem Sound.launches_handle (h : l.Sound) (event : Event) :
    Launches 0 l.kernel (l.handle event).2.kernel := by
  refine (Strokes.handle h event fun why hevent => ?_).launches
  rintro rfl
  cases hevent

namespace MakesAttempt

theorem attempter? (h : MakesAttempt id m m') : m.attempter? = some id := by
  cases h with
  | first hchannel _ => simp [Scene.attempter?, hchannel]
  | again hc hid _ => simp [Scene.attempter?, hc, hid]

/-- An attempt asks for one socket. -/
theorem launches (h : MakesAttempt id m m') (hl : m.loop.Sound) :
    Launches 1 m.loop.kernel m'.loop.kernel := by
  cases h with
  | first hchannel hfeasible =>
      exact launches_following (hl.launches_request hchannel hfeasible)
        (fun fault hr => (hl.obey hchannel).ending (Prod.ext hr rfl)) []
  | again hc _ hdue =>
      exact launches_following (hl.launches_retry hc hdue)
        (fun fault hr => (hl.retry _).ending (Prod.ext hr rfl)) _

end MakesAttempt

/-! ## Between two scenes -/

/-- A command asks for no socket, or it requests a connection that is then attempted. -/
theorem Sound.attempts_of_obey (h : l.Sound) {command : Command} {later : List Command}
    (hchannel : l.channel = command :: later) :
    Launches 0 l.kernel
        (Scene.following [] ({ l with channel := later }.obey command)).loop.kernel ∨
      ∃ id, MakesAttempt id ⟨l, [], []⟩
        (.following [] ({ l with channel := later }.obey command)) := by
  have hnone
      (hlaunches : Launches 0 l.kernel ({ l with channel := later }.obey command).2.kernel) :=
    launches_following hlaunches (fun fault hr => (h.obey hchannel).ending (Prod.ext hr rfl)) []
  have htaken := h.take hchannel
  cases command with
  | connect id address handler options =>
      by_cases hfeasible : options.areFeasible = true
      · exact .inr ⟨id, .first hchannel hfeasible⟩
      · have hobey : Loop.obey { l with channel := later } (.connect id address handler options) =
            (.error .memory, { l with channel := later }) := if_neg hfeasible
        refine .inl (hnone ?_)
        rw [hobey]
        exact .refl _
  | flush id => exact .inl (hnone (Strokes.rearmFor htaken id noAttempt_called).launches)
  | close id => exact .inl (hnone (Strokes.closeFor htaken id noAttempt_called).launches)
  | shutdown => exact .inl (hnone (.refl _))

/-- A retry that is due asks for no socket, or the connection in its slot waits for it. -/
theorem attempts_of_retry (l : Loop) (due : Appointment) (later : List Appointment) :
    Launches 0 l.kernel (Scene.following later (l.retry due)).loop.kernel ∨
      ∃ id, MakesAttempt id ⟨l, due :: later, []⟩ (.following later (l.retry due)) := by
  by_cases hdue : ∃ c, l.connections.get? due.token = some c ∧ c.retryAt = some due.deadline
  · obtain ⟨c, hc, hdue⟩ := hdue
    exact .inr ⟨c.id, .again hc rfl hdue⟩
  · rw [retry_of_outdated fun c hc heq => hdue ⟨c, hc, heq⟩]
    exact .inl (.refl _)

/-- A socket is asked for only where a connection attempts to connect. -/
theorem Next.launches (h : Next allowed m m') (hl : m.loop.Sound) :
    Launches 0 m.loop.kernel m'.loop.kernel ∨ ∃ id, MakesAttempt id m m' := by
  have hadvance {l' : Loop} (h : Advance allowed NoAttempt m.loop l') :
      Launches 0 m.loop.kernel l'.kernel ∨ ∃ id, MakesAttempt id m m' := .inl h.launches
  cases h with
  | request l r => exact hadvance (.request l r)
  | happen l hallowed => exact hadvance (.happen l hallowed)
  | beginWait l millis => exact hadvance (.beginWait l millis)
  | pass l t => exact hadvance (.pass l t)
  | answer l millis _ => exact hadvance (.answer l millis _)
  | takeDue l => exact .inl (.refl _)
  | note l rs => exact .inl (.refl _)
  | obey hchannel h | obeyFault hchannel h =>
      have hobey := hl.attempts_of_obey hchannel
      rw [h] at hobey
      exact hobey
  | @retry l _ due later h | @retryFault l _ due _ later h =>
      have hretry := attempts_of_retry l due later
      rw [h] at hretry
      exact hretry
  | rearm l token => exact .inl (Strokes.rearmSlot hl token noAttempt_called).launches
  | @handle l l' event later h =>
      have hhandle := hl.launches_handle event
      rw [h] at hhandle
      exact .inl hhandle
  | @handleFault l l' event fault later h =>
      have hhandle := hl.launches_handle event
      rw [h] at hhandle
      exact .inl (launches_following (r := (.error fault, l')) hhandle
        (fun _ _ => (hl.handle event).ending h) [])
  | finish l =>
      have hclose : Strokes NoAttempt l l.closeAll := Strokes.closeAll hl.ending noAttempt_called
      exact .inl (hclose.launches.trans (Strokes.finish hl.ending.closeAll.2).launches)
  | drop l => exact .inl (Strokes.drop hl.ending noAttempt_called).launches

/-! ## A run -/

/-- How many attempts connection number `id` makes between two scenes: the sockets asked for, if it
is the one that is to attempt to connect. -/
def attemptsOf (id : Nat) (m m' : Scene) : Nat :=
  if m.attempter? = some id then Kernel.launches m.loop.kernel m'.loop.kernel else 0

theorem MakesAttempt.attemptsOf_eq (h : MakesAttempt id m m') (hl : m.loop.Sound) :
    attemptsOf id m m' = 1 := by
  rw [attemptsOf, if_pos h.attempter?, (h.launches hl).launches_eq]

theorem Next.attemptsOf_eq_zero (h : Next allowed m m') (hl : m.loop.Sound)
    (hnot : ¬ MakesAttempt id m m') : attemptsOf id m m' = 0 := by
  rw [attemptsOf]
  split
  · next hattempter =>
    rcases h.launches hl with hnone | ⟨id', hmakes⟩
    · exact hnone.launches_eq
    · have hid : id' = id := Option.some.inj (hmakes.attempter?.symm.trans hattempter)
      exact absurd (hid ▸ hmakes) hnot
  · rfl

/-- A course in which connection number `id` makes `n` attempts. -/
inductive Attempted (allowed : Happening → Prop) (id : Nat) (m : Scene) : Nat → Scene → Prop where
  | refl : Attempted allowed id m 0 m
  | next {n more : Nat} {m' m'' : Scene} (h : Attempted allowed id m n m')
      (hnext : Next allowed m' m'') (hmore : attemptsOf id m' m'' = more) :
      Attempted allowed id m (n + more) m''

theorem Attempted.course (h : Attempted allowed id m n m') : Course allowed m m' := by
  induction h with
  | refl => exact .refl
  | next _ hnext _ ih => exact .tail ih hnext

end Loop

end TextLink
