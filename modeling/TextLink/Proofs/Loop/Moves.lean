import TextLink.Proofs.Kernel.Effects
import TextLink.Proofs.Loop.Scenes

/-!
# The moves of a loop

Much of what holds of a loop at every moment does not depend on which events it is handed. For such
facts the scenes of a run are told apart less finely: a `Move` handles any event, and whatever
concerns no socket may happen to the kernel. Every request and everything that happens outside is a
move, and so is each thing a turn does; a loop that meets a fault is dropped in the same move.
Whatever becomes of a loop comes about by moves (`moves_after`, `moves_run`), so what every move
keeps holds at the end of every history.

Retries that are due are taken out of the agenda all at once and looked at one by one. What is still
to be looked at stands beside the loop (`Moment`); between turns there is nothing.

## Main results

* `Course.moves` — a course of scenes consists of moves.
* `moves_after` — so does a history.
* `moves_run` — so does a run to the end.
-/

namespace TextLink

open Relation (ReflTransGen)

/-- A loop in the middle of its work. -/
structure Moment where
  loop : Loop
  /-- The appointments taken out of the agenda and not yet looked at. -/
  due : List Appointment := []

/-- A scene, whatever events are still to be handled. -/
abbrev Scene.moment (m : Scene) : Moment := ⟨m.loop, m.due⟩

namespace Loop

/-- `l'` is where `l` meets a fault. -/
inductive Faults (l l' : Loop) : Prop where
  | obey {c : Command} {later : List Command} {fault : Fault} (hchannel : l.channel = c :: later)
      (h : { l with channel := later }.obey c = (.error fault, l'))
  | retry {due : Appointment} {fault : Fault} (h : l.retry due = (.error fault, l'))
  | handle {event : Event} {fault : Fault} (h : l.handle event = (.error fault, l'))

/-- One move of a loop, its producers or the outside world. -/
inductive Move : Moment → Moment → Prop where
  | request (l : Loop) (r : Request) (later : List Appointment) :
      Move ⟨l, later⟩ ⟨(l.request r).2, later⟩
  | happen (l : Loop) (h : Happening) (later : List Appointment) :
      Move ⟨l, later⟩ ⟨l.happen h, later⟩
  | obey {l l' : Loop} {c : Command} {later : List Command} (hchannel : l.channel = c :: later)
      (h : { l with channel := later }.obey c = (.ok (), l')) : Move ⟨l, []⟩ ⟨l', []⟩
  | takeDue (l : Loop) :
      Move ⟨l, []⟩ ⟨{ l with agenda := (l.agenda.takeDue l.now).2 }, (l.agenda.takeDue l.now).1⟩
  | retry {l l' : Loop} {due : Appointment} (later : List Appointment)
      (h : l.retry due = (.ok (), l')) : Move ⟨l, due :: later⟩ ⟨l', later⟩
  | handle {l l' : Loop} {event : Event} (h : l.handle event = (.ok (), l')) :
      Move ⟨l, []⟩ ⟨l', []⟩
  | rearm (l : Loop) (token : Nat) : Move ⟨l, []⟩ ⟨l.rearmSlot token, []⟩
  | idle (l : Loop) {k : Kernel} (h : l.kernel.Idles k) : Move ⟨l, []⟩ ⟨{ l with kernel := k }, []⟩
  | note (l : Loop) (rs : List LogRecord) : Move ⟨l, []⟩ ⟨l.note rs, []⟩
  | fault {l l' : Loop} (later : List Appointment) (h : Faults l l') : Move ⟨l, later⟩ ⟨l'.drop, []⟩
  | finish (l : Loop) : Move ⟨l, []⟩ ⟨l.closeAll.finish, []⟩
  | drop (l : Loop) : Move ⟨l, []⟩ ⟨l.drop, []⟩

/-- Any number of moves. -/
abbrev Moves : Moment → Moment → Prop := ReflTransGen Move

variable {allowed : Happening → Prop} {l l' : Loop} {m m' : Scene}

/-! ## Scenes are moves -/

theorem Next.move (h : Next allowed m m') : Move m.moment m'.moment := by
  cases h with
  | request l r due events => exact .request l r due
  | happen l _ due events => exact .happen l _ due
  | obey hchannel h => exact .obey hchannel h
  | obeyFault hchannel h => exact .fault [] (.obey hchannel h)
  | takeDue l => exact .takeDue l
  | retry later h => exact .retry later h
  | retryFault later h => exact .fault _ (.retry h)
  | rearm l token => exact .rearm l token
  | beginWait l millis => exact .idle l (Kernel.idles_beginWait l.kernel millis)
  | pass l t => exact .idle l (Kernel.idles_clock l.kernel t)
  | answer l millis _ =>
      exact .idle l ((Kernel.idles_answerWait l.kernel millis _).trans (Kernel.idles_collect _ _))
  | handle later h => exact .handle h
  | handleFault later h => exact .fault [] (.handle h)
  | note l rs => exact .note l rs
  | finish l => exact .finish l
  | drop l => exact .drop l

/-- A course of scenes consists of moves. -/
theorem Course.moves (h : Course allowed m m') : Moves m.moment m'.moment :=
  ReflTransGen.lift Scene.moment (fun _ _ => Next.move) m m' h

/-- Whatever becomes of a loop comes about by moves. -/
theorem moves_after (l : Loop) (actions : List Action) : Moves ⟨l, []⟩ ⟨l.after actions, []⟩ :=
  have hcourse : Course (fun _ => True) ⟨l, [], []⟩ ⟨l.after actions, [], []⟩ :=
    course_after l actions fun _ _ => trivial
  hcourse.moves

theorem moves_run {outcome : Except Fault Unit} (h : l.run = some (outcome, l')) :
    Moves ⟨l, []⟩ ⟨l', []⟩ :=
  have hcourse : Course (fun _ => True) ⟨l, [], []⟩ ⟨l', [], []⟩ := course_run h
  hcourse.moves

end Loop

end TextLink
