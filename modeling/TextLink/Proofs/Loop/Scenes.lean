import Mathlib.Logic.Relation
import TextLink.Loop.Action
import TextLink.Proofs.Loop.Rounds

/-!
# The scenes of a run

A run of a loop, seen from close by, is a sequence of scenes. In each one the loop is about to take
a command, to look at a retry that was due, to begin or end a wait, or to handle the next event that
the wait reported; and before any of these the producers and the outside world may act. A scene is
the loop with the retries and the events it still has to look at (`Scene`), and `Next` lists what
can come next. A loop that meets a fault is dropped.

Events come from waits only, so what a run reports is what its kernel had to report. What may happen
outside is a parameter: a statement about kernels that report nothing but the truth is one about
runs in which no event is injected.

## Main results

* `course_after` — a history is a course of scenes.
* `course_run` — so is a run to the end.
* `keeps_obey`, `keeps_retry`, `keeps_handle` — what the parts of a turn leave alone.
-/

namespace TextLink

open Relation (ReflTransGen)

/-- A loop in the middle of its work. -/
structure Scene where
  loop : Loop
  /-- The appointments taken out of the agenda and not yet looked at. -/
  due : List Appointment := []
  /-- The events reported and not yet handled. -/
  events : List Event := []

namespace Loop

/-- The scene that comes next, if outside happens only what is `allowed`. -/
inductive Next (allowed : Happening → Prop) : Scene → Scene → Prop where
  | request (l : Loop) (r : Request) (due : List Appointment) (events : List Event) :
      Next allowed ⟨l, due, events⟩ ⟨(l.request r).2, due, events⟩
  | happen (l : Loop) {h : Happening} (hallowed : allowed h) (due : List Appointment)
      (events : List Event) : Next allowed ⟨l, due, events⟩ ⟨l.happen h, due, events⟩
  | obey {l l' : Loop} {c : Command} {later : List Command} (hchannel : l.channel = c :: later)
      (h : { l with channel := later }.obey c = (.ok (), l')) :
      Next allowed ⟨l, [], []⟩ ⟨l', [], []⟩
  | obeyFault {l l' : Loop} {c : Command} {later : List Command} {fault : Fault}
      (hchannel : l.channel = c :: later)
      (h : { l with channel := later }.obey c = (.error fault, l')) :
      Next allowed ⟨l, [], []⟩ ⟨l'.drop, [], []⟩
  | takeDue (l : Loop) :
      Next allowed ⟨l, [], []⟩
        ⟨{ l with agenda := (l.agenda.takeDue l.now).2 }, (l.agenda.takeDue l.now).1, []⟩
  | retry {l l' : Loop} {due : Appointment} (later : List Appointment)
      (h : l.retry due = (.ok (), l')) : Next allowed ⟨l, due :: later, []⟩ ⟨l', later, []⟩
  | retryFault {l l' : Loop} {due : Appointment} {fault : Fault} (later : List Appointment)
      (h : l.retry due = (.error fault, l')) :
      Next allowed ⟨l, due :: later, []⟩ ⟨l'.drop, [], []⟩
  | rearm (l : Loop) (token : Nat) : Next allowed ⟨l, [], []⟩ ⟨l.rearmSlot token, [], []⟩
  | beginWait (l : Loop) (millis : Option Nat) :
      Next allowed ⟨l, [], []⟩ ⟨{ l with kernel := (l.kernel.beginWait millis).2 }, [], []⟩
  /-- The wait lasts until `t`. -/
  | pass (l : Loop) (t : Instant) :
      Next allowed ⟨l, [], []⟩ ⟨{ l with kernel := { l.kernel with clock := t } }, [], []⟩
  /-- The wait ends with as many reports as are taken at most, or with fewer if there are no
  more. -/
  | answer (l : Loop) (millis : Option Nat) {capacity : Nat} {reports : List Report}
      (hreports : l.kernel.pendingReports capacity = reports) :
      Next allowed ⟨l, [], []⟩
        ⟨{ l with kernel := ((l.kernel.answerWait millis reports).collect (.ok reports)).2 }, [],
          reports.filterMap Report.event?⟩
  | handle {l l' : Loop} {event : Event} (later : List Event)
      (h : l.handle event = (.ok (), l')) : Next allowed ⟨l, [], event :: later⟩ ⟨l', [], later⟩
  | handleFault {l l' : Loop} {event : Event} {fault : Fault} (later : List Event)
      (h : l.handle event = (.error fault, l')) :
      Next allowed ⟨l, [], event :: later⟩ ⟨l'.drop, [], []⟩
  | note (l : Loop) (rs : List LogRecord) : Next allowed ⟨l, [], []⟩ ⟨l.note rs, [], []⟩
  | finish (l : Loop) : Next allowed ⟨l, [], []⟩ ⟨l.closeAll.finish, [], []⟩
  | drop (l : Loop) : Next allowed ⟨l, [], []⟩ ⟨l.drop, [], []⟩

variable {allowed : Happening → Prop} {l l' : Loop} {m m' m'' : Scene}

/-- Any number of scenes, one after the other. -/
abbrev Course (allowed : Happening → Prop) : Scene → Scene → Prop := ReflTransGen (Next allowed)

/-- What a part of a turn comes to: it goes through, or the loop is dropped. -/
def Reaches {α : Type} (allowed : Happening → Prop) (m : Scene) : Except Fault α × Loop → Prop
  | (.ok _, l') => Course allowed m ⟨l', [], []⟩
  | (.error _, l') => Course allowed m ⟨l'.drop, [], []⟩

theorem Reaches.of_course {α : Type} (h : Course allowed m m') {r : Except Fault α × Loop}
    (hr : Reaches allowed m' r) : Reaches allowed m r := by
  rcases r with ⟨fault | a, l'⟩
  · exact ReflTransGen.trans h hr
  · exact ReflTransGen.trans h hr

theorem Reaches.of_next {α : Type} (h : Next allowed m m') {r : Except Fault α × Loop}
    (hr : Reaches allowed m' r) : Reaches allowed m r :=
  hr.of_course (.single h)

theorem Reaches.ok {α : Type} (h : Course allowed m ⟨l', [], []⟩) (a : α) :
    Reaches allowed m (.ok a, l') := h

theorem Reaches.error {α : Type} {fault : Fault} (h : Next allowed m ⟨l'.drop, [], []⟩) :
    Reaches allowed m ((.error fault : Except Fault α), l') :=
  ReflTransGen.single h

/-! ## What the parts of a turn leave alone -/

/-- `l'` has the channel of `l`, and is gone if `l` is. -/
structure Keeps (l l' : Loop) : Prop where
  channel_eq : l'.channel = l.channel
  ended_eq : l'.ended = l.ended

theorem keeps_settle (l : Loop) (token : Nat) (k : Link) (p : Progress) :
    Keeps l ((l.absorb token k).apply token p) := by
  cases p <;> exact ⟨rfl, rfl⟩

theorem keeps_attempt (l : Loop) (token : Nat) : Keeps l (l.attempt token).2 := by
  unfold attempt
  split
  · exact ⟨rfl, rfl⟩
  · unfold settleAttempt
    split
    · exact keeps_settle l _ _ _
    · exact ⟨rfl, rfl⟩

theorem keeps_obey (l : Loop) (c : Command) : Keeps l (l.obey c).2 := by
  cases c with
  | connect id address handler options =>
      show Keeps l (l.takeUp id address handler options).2
      unfold takeUp
      split
      · exact ⟨(keeps_attempt _ _).channel_eq, (keeps_attempt _ _).ended_eq⟩
      · exact ⟨rfl, rfl⟩
  | flush id =>
      show Keeps l (l.rearmFor id)
      unfold rearmFor
      split <;> exact ⟨rfl, rfl⟩
  | close id =>
      show Keeps l (l.closeFor id)
      unfold closeFor
      split <;> exact ⟨rfl, rfl⟩
  | shutdown => exact ⟨rfl, rfl⟩

theorem keeps_retry (l : Loop) (due : Appointment) : Keeps l (l.retry due).2 := by
  unfold retry
  split
  · exact ⟨rfl, rfl⟩
  · split
    · exact keeps_attempt l due.token
    · exact ⟨rfl, rfl⟩

theorem keeps_handle (l : Loop) (event : Event) : Keeps l (l.handle event).2 := by
  unfold handle
  split
  · exact ⟨rfl, rfl⟩
  · split
    · exact keeps_settle l _ _ _
    · exact ⟨rfl, rfl⟩
    · exact ⟨rfl, rfl⟩

theorem keeps_rearmSlot (l : Loop) (token : Nat) : Keeps l (l.rearmSlot token) := by
  unfold rearmSlot
  split <;> exact ⟨rfl, rfl⟩

/-! ## Commands -/

theorem reaches_takeFrom (commands : List Command) (hchannel : l.channel = commands) :
    Reaches allowed ⟨l, [], []⟩ (l.takeFrom commands) := by
  induction commands generalizing l with
  | nil => exact .ok .refl false
  | cons c later ih =>
      have hkept := (keeps_obey { l with channel := later } c).channel_eq
      cases c with
      | shutdown =>
          -- A shutdown is obeyed by doing nothing, and ends the taking.
          exact .ok (.single (.obey hchannel rfl)) true
      | connect | flush | close =>
          unfold takeFrom
          generalize hobey : obey { l with channel := later } _ = r at hkept ⊢
          rcases r with ⟨fault | _, l'⟩
          · exact .error (.obeyFault hchannel hobey)
          · exact (ih hkept).of_next (.obey hchannel hobey)

theorem reaches_takeCommands (l : Loop) : Reaches allowed ⟨l, [], []⟩ l.takeCommands :=
  reaches_takeFrom l.channel rfl

/-! ## Retries -/

theorem reaches_retryAll (due : List Appointment) :
    Reaches allowed ⟨l, due, []⟩ (l.retryAll due) := by
  induction due generalizing l with
  | nil => exact .ok .refl ()
  | cons a later ih =>
      unfold retryAll
      rcases h : l.retry a with ⟨fault | _, l'⟩
      · exact .error (.retryFault later h)
      · exact ih.of_next (.retry later h)

theorem reaches_fireRetries (l : Loop) : Reaches allowed ⟨l, [], []⟩ l.fireRetries :=
  (reaches_retryAll _).of_next (.takeDue l)

/-! ## Events -/

theorem reaches_dispatch (events : List Event) :
    Reaches allowed ⟨l, [], events⟩ (l.dispatch events) := by
  induction events generalizing l with
  | nil => exact .ok .refl ()
  | cons event later ih =>
      unfold dispatch
      rcases h : l.handle event with ⟨fault | _, l'⟩
      · exact .error (.handleFault later h)
      · exact ih.of_next (.handle later h)

theorem pendingReports_zero (k : Kernel) : k.pendingReports 0 = [] := rfl

/-- The loop after a wait that ended with `reports`. -/
def answered (l : Loop) (millis : Option Nat) (reports : List Report) : Loop :=
  { l with kernel := ((l.kernel.answerWait millis reports).collect (.ok reports)).2 }

/-- How a wait goes, and what is done about it. -/
inductive Waited (l : Loop) (timeout : Duration) : Except Fault Unit × Loop → Prop where
  /-- Nothing is reported, so the wait lasts its time. -/
  | idle {k : Kernel} (hbegin : l.kernel.beginWait (some (timeoutMillis timeout)) = (.ok, k))
      (hnone : k.pendingReports l.config.capacity = []) :
      Waited l timeout (.ok (),
        { l with kernel := k.passTimeout (some (timeoutMillis timeout)) }.answered
          (some (timeoutMillis timeout)) [])
  | reported {k : Kernel} {report : Report} {later : List Report}
      (hbegin : l.kernel.beginWait (some (timeoutMillis timeout)) = (.ok, k))
      (hreports : k.pendingReports l.config.capacity = report :: later) :
      Waited l timeout (({ l with kernel := k }.answered (some (timeoutMillis timeout))
        (report :: later)).dispatch ((report :: later).filterMap Report.event?))
  | interrupted {k : Kernel} {e : Errno}
      (hbegin : l.kernel.beginWait (some (timeoutMillis timeout)) = (.fails e, k)) :
      Waited l timeout (.ok (), { l with kernel := k })
  | failed {k : Kernel} {e : Errno}
      (hbegin : l.kernel.beginWait (some (timeoutMillis timeout)) = (.fails e, k)) :
      Waited l timeout (.ok (), { l with kernel := k }.note [.pollFailed])

theorem waited (l : Loop) (timeout : Duration) : Waited l timeout (l.waitAndDispatch timeout) := by
  unfold waitAndDispatch Kernel.poll Kernel.wait
  simp only [Option.map_some]
  rcases hbegin : l.kernel.beginWait (some (timeoutMillis timeout)) with ⟨_ | e, k⟩
  · simp only
    rcases hreports : k.pendingReports l.config.capacity with _ | ⟨report, later⟩
    · exact .idle hbegin hreports
    · exact .reported hbegin hreports
  · cases e
    case interrupted => exact .interrupted hbegin
    all_goals exact .failed hbegin

theorem reaches_waitAndDispatch (l : Loop) (timeout : Duration) :
    Reaches allowed ⟨l, [], []⟩ (l.waitAndDispatch timeout) := by
  have hwaited := l.waited timeout
  have hnext : Next allowed ⟨l, [], []⟩ _ := .beginWait l (some (timeoutMillis timeout))
  generalize l.waitAndDispatch timeout = r at hwaited ⊢
  cases hwaited with
  | @idle k hbegin hnone =>
      rw [hbegin] at hnext
      have hpass : Next allowed ⟨{ l with kernel := k }, [], []⟩ _ :=
        .pass _ (waitEnd k.clock (timeoutMillis timeout))
      have hanswer : Next allowed
          ⟨{ l with kernel := k.passTimeout (some (timeoutMillis timeout)) }, [], []⟩ _ :=
        .answer _ (some (timeoutMillis timeout)) (pendingReports_zero _)
      exact .ok (((ReflTransGen.single hnext).tail hpass).tail hanswer) ()
  | @reported k report later hbegin hreports =>
      rw [hbegin] at hnext
      have hanswer : Next allowed ⟨{ l with kernel := k }, [], []⟩ _ :=
        .answer _ (some (timeoutMillis timeout)) hreports
      exact ((reaches_dispatch _).of_next hanswer).of_next hnext
  | interrupted hbegin =>
      rw [hbegin] at hnext
      exact .ok (.single hnext) ()
  | failed hbegin =>
      rw [hbegin] at hnext
      exact .ok ((ReflTransGen.single hnext).tail (.note _ _)) ()

/-! ## Turns and histories -/

theorem reaches_prepareTurn (l : Loop) : Reaches allowed ⟨l, [], []⟩ l.prepareTurn := by
  have htake : Reaches allowed ⟨l, [], []⟩ l.takeCommands := reaches_takeCommands l
  unfold prepareTurn
  generalize l.takeCommands = r at htake ⊢
  rcases r with ⟨fault | (_ | _), l₁⟩
  · exact htake
  · have hfire := (reaches_fireRetries l₁).of_course htake
    simp only
    generalize l₁.fireRetries = r at hfire ⊢
    rcases r with ⟨fault | _, l₂⟩ <;> exact hfire
  · exact htake

/-- Whether the turn goes through, like a part of it. -/
def outcomeOf : Turn → Except Fault Unit
  | .faulted fault => .error fault
  | .again | .shutdown => .ok ()

theorem reaches_turn {turn : Turn} (h : l.turn = (turn, l')) :
    Reaches allowed ⟨l, [], []⟩ (outcomeOf turn, l') := by
  have hprepared : Reaches allowed ⟨l, [], []⟩ l.prepareTurn := reaches_prepareTurn l
  have hwaited {l₁ : Loop} {timeout : Duration}
    (hprepare : l.prepareTurn = (.ok (some timeout), l₁)) :
      Reaches allowed ⟨l, [], []⟩ (l₁.waitAndDispatch timeout) := by
    rw [hprepare] at hprepared
    exact (reaches_waitAndDispatch l₁ timeout).of_course hprepared
  have hturns := l.turns
  rw [h] at hturns
  cases hturns with
  | shutdown hprepare | unprepared hprepare =>
      rw [hprepare] at hprepared
      exact hprepared
  | again hprepare hwait | unserved hprepare hwait => exact hwait ▸ hwaited hprepare

theorem course_turnOnce (l : Loop) : Course allowed ⟨l, [], []⟩ ⟨l.turnOnce, [], []⟩ := by
  unfold turnOnce
  split
  · exact .refl
  · rcases hturn : l.turn with ⟨_ | _ | fault, l'⟩ <;> exact reaches_turn hturn

/-- Whatever becomes of a loop comes about by scenes. -/
theorem course_after (l : Loop) (actions : List Action)
    (hallowed : ∀ h, .happen h ∈ actions → allowed h) :
    Course allowed ⟨l, [], []⟩ ⟨l.after actions, [], []⟩ := by
  induction actions generalizing l with
  | nil => exact .refl
  | cons a later ih =>
      refine ReflTransGen.trans ?_ (ih (l.perform a) fun h hmem => hallowed h (.tail _ hmem))
      cases a with
      | request r => exact .single (.request l r [] [])
      | happen h => exact .single (.happen l (hallowed h (.head _)) [] [])
      | turn => exact course_turnOnce l

/-! ## Draining -/

theorem course_rearmAll (tokens : List Nat) :
    Course allowed ⟨l, [], []⟩ ⟨tokens.foldl rearmSlot l, [], []⟩ := by
  induction tokens generalizing l with
  | nil => exact .refl
  | cons token later ih => exact .head (.rearm l token) ih

/-- Watching again and firing, which come before the wait of a round. -/
theorem reaches_fired {r : Except Fault Unit × Loop}
    (h : (l.connections.keys.foldl rearmSlot l).fireRetries = r) :
    Reaches allowed ⟨l, [], []⟩ r :=
  h ▸ (reaches_fireRetries _).of_course (course_rearmAll l.connections.keys)

theorem reaches_prepareDrain (l : Loop) (deadline : Instant) :
    Reaches allowed ⟨l, [], []⟩ (l.prepareDrain deadline) := by
  have hprepares := l.prepares deadline
  generalize l.prepareDrain deadline = p at hprepares ⊢
  cases hprepares with
  | done _ => exact .ok .refl none
  | expired _ => exact .ok (.single (.note l _)) none
  | faults _ hfire => exact reaches_fired hfire
  | waits _ _ hfire => exact .ok (reaches_fired hfire) _

theorem Round.reaches {deadline : Instant} {r : Except Fault Unit × Loop} (h : Round deadline l r) :
    Reaches allowed ⟨l, [], []⟩ r := by
  cases h with
  | intro _ _ hfire hwait =>
      have hfired : Reaches allowed ⟨l, [], []⟩ _ := reaches_fired hfire
      exact hwait ▸ (reaches_waitAndDispatch _ _).of_course hfired

theorem Ends.reaches {deadline : Instant} {r : Except Fault Unit × Loop} (h : Ends deadline l r) :
    Reaches allowed ⟨l, [], []⟩ r := by
  cases h with
  | done _ => exact .ok .refl ()
  | expired _ => exact .ok (.single (.note l _)) ()
  | unprepared _ hfire => exact reaches_fired hfire
  | unserved hround => exact hround.reaches

theorem reaches_drainWithin {deadline : Instant} {rounds : Nat} {r : Except Fault Unit × Loop}
    (h : drainWithin deadline rounds l = some r) : Reaches allowed ⟨l, [], []⟩ r :=
  drainWithin_induction (P := fun l r => Reaches allowed ⟨l, [], []⟩ r) Ends.reaches
    (fun hround hr => hr.of_course hround.reaches) h

theorem reaches_drain {r : Except Fault Unit × Loop} (h : l.drain = some r) :
    Reaches allowed ⟨l, [], []⟩ r := by
  unfold drain at h
  split at h
  · cases h
    exact ReflTransGen.single (.drop l)
  · exact reaches_drainWithin h

theorem Stops.course {r : Except Fault Unit × Loop} (h : Stops l r) :
    Course allowed ⟨l, [], []⟩ ⟨r.2, [], []⟩ := by
  cases h with
  | @closed l₁ l' hturn hdrain =>
      have hdrained : Reaches allowed ⟨l, [], []⟩ (.ok (), l') :=
        (reaches_drain hdrain).of_course (reaches_turn hturn)
      exact ReflTransGen.tail hdrained (.finish l')
  | undrained hturn hdrain => exact (reaches_drain hdrain).of_course (reaches_turn hturn)
  | faulted hturn => exact reaches_turn hturn

theorem course_run {outcome : Except Fault Unit} (h : l.run = some (outcome, l')) :
    Course allowed ⟨l, [], []⟩ ⟨l', [], []⟩ :=
  run_induction (P := fun l r => Course allowed ⟨l, [], []⟩ ⟨r.2, [], []⟩) Stops.course
    (fun hturn hr => ReflTransGen.trans (reaches_turn hturn) hr) h

end Loop

end TextLink
