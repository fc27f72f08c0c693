import TextLink.Proofs.Loop.Output

/-!
# What a turn consists of

A turn that meets neither a shutdown nor a fault takes every command in the channel, retries the
connects that are due, and handles the events that the wait reports, in this order. Written down as
a list of deeds (`Does`), a turn can be reasoned about by induction over what it does, and what it
does is known beforehand but for the retries (`does_turn`).

## Main results

* `does_turn` — the deeds of a turn.
* `Does.sound`, `Does.calls_prefix` — deeds keep a loop sound, and add calls.
-/

namespace TextLink.Loop

variable {l l' l'' : Loop}

/-- One thing that a loop does. -/
inductive Deed where
  | take (c : Command)
  | retry (due : Appointment)
  | handle (event : Event)
deriving DecidableEq

/-- `l'` comes from `l` by `deeds`, none of which meets a fault. -/
inductive Does : List Deed → Loop → Loop → Prop where
  | nothing (l : Loop) : Does [] l l
  | take {l l₁ l' : Loop} {c : Command} {later : List Command} {deeds : List Deed}
      (hchannel : l.channel = c :: later) (h : { l with channel := later }.obey c = (.ok (), l₁))
      (hrest : Does deeds l₁ l') : Does (.take c :: deeds) l l'
  | retry {l l₁ l' : Loop} {due : Appointment} {deeds : List Deed}
      (h : l.retry due = (.ok (), l₁)) (hrest : Does deeds l₁ l') : Does (.retry due :: deeds) l l'
  | handle {l l₁ l' : Loop} {event : Event} {deeds : List Deed}
      (h : l.handle event = (.ok (), l₁)) (hrest : Does deeds l₁ l') :
      Does (.handle event :: deeds) l l'
  /-- In between, the agenda is looked up, time passes, and facts are logged. -/
  | pause {l l' : Loop} {deeds : List Deed} (agenda : Agenda) {k : Kernel} (journal : Journal)
      (hidles : l.kernel.Idles k) (hrest : Does deeds { l with agenda, kernel := k, journal } l') :
      Does deeds l l'

theorem Sound.pause (h : l.Sound) {k : Kernel} (hidles : l.kernel.Idles k) (agenda : Agenda)
    (journal : Journal) : Sound { l with agenda, kernel := k, journal } :=
  h.change rfl rfl hidles.table (List.Sublist.refl _) h.coherent.ended

namespace Does

variable {deeds deeds' : List Deed}

theorem append (h : Does deeds l l') (h' : Does deeds' l' l'') : Does (deeds ++ deeds') l l'' := by
  induction h with
  | nothing _ => exact h'
  | take hchannel hok _ ih => exact .take hchannel hok (ih h')
  | retry hok _ ih => exact .retry hok (ih h')
  | handle hok _ ih => exact .handle hok (ih h')
  | pause agenda journal hidles _ ih => exact .pause agenda journal hidles (ih h')

theorem sound (h : Does deeds l l') (hl : l.Sound) : l'.Sound := by
  induction h with
  | nothing _ => exact hl
  | take hchannel hok _ ih => exact ih ((hl.obey hchannel).sound hok)
  | retry hok _ ih => exact ih ((hl.retry _).sound hok)
  | handle hok _ ih => exact ih ((hl.handle _).sound hok)
  | pause _ _ hidles _ ih => exact ih (hl.pause hidles _ _)

theorem calls_prefix (h : Does deeds l l') (hl : l.Sound) :
    l.kernel.calls.toList <+: l'.kernel.calls.toList := by
  induction h with
  | nothing _ => exact List.prefix_refl _
  | take hchannel hok _ ih =>
      have hfollows := follows_obey hl hchannel hok
      exact hfollows.calls_prefix.trans (ih ((hl.obey hchannel).sound hok))
  | retry hok _ ih =>
      have hfollows := follows_retry hl hok
      exact hfollows.calls_prefix.trans (ih ((hl.retry _).sound hok))
  | handle hok _ ih =>
      have hfollows := follows_handle hl hok
      exact hfollows.calls_prefix.trans (ih ((hl.handle _).sound hok))
  | pause _ _ hidles _ ih => exact hidles.calls_prefix.trans (ih (hl.pause hidles _ _))

end Does

/-! ## The parts of a turn -/

theorem does_takeFrom (commands : List Command) (hchannel : l.channel = commands)
    (h : l.takeFrom commands = (.ok false, l')) : Does (commands.map .take) l l' := by
  induction commands generalizing l with
  | nil =>
      cases h
      exact .nothing _
  | cons c later ih =>
      have hkept := (keeps_obey { l with channel := later } c).channel_eq
      cases c with
      | shutdown => cases h
      | connect | flush | close =>
          unfold takeFrom at h
          generalize hobey : obey { l with channel := later } _ = r at hkept h
          rcases r with ⟨fault | _, l₁⟩
          · cases h
          · exact .take hchannel hobey (ih hkept h)

theorem does_retryAll (due : List Appointment) (h : l.retryAll due = (.ok (), l')) :
    Does (due.map .retry) l l' := by
  induction due generalizing l with
  | nil =>
      cases h
      exact .nothing _
  | cons a later ih =>
      unfold retryAll at h
      rcases hretry : l.retry a with ⟨fault | _, l₁⟩ <;> rw [hretry] at h
      · cases h
      · exact .retry hretry (ih h)

theorem does_fireRetries (h : l.fireRetries = (.ok (), l')) :
    ∃ due : List Appointment, Does (due.map .retry) l l' := by
  have hidles : l.kernel.Idles l.kernel := ⟨rfl, rfl, rfl, rfl, rfl, List.prefix_refl _⟩
  exact ⟨_, .pause (l.agenda.takeDue l.now).2 l.journal hidles (does_retryAll _ h)⟩

theorem does_dispatch (events : List Event) (h : l.dispatch events = (.ok (), l')) :
    Does (events.map .handle) l l' := by
  induction events generalizing l with
  | nil =>
      cases h
      exact .nothing _
  | cons event later ih =>
      unfold dispatch at h
      rcases hhandle : l.handle event with ⟨fault | _, l₁⟩ <;> rw [hhandle] at h
      · cases h
      · exact .handle hhandle (ih h)

/-! ## Turns -/

/-- The events that a wait of at most `timeout` reports. -/
def reported (l : Loop) (timeout : Duration) : List Event :=
  match (l.kernel.poll (some timeout) l.config.capacity).1 with
  | .ok events => events
  | .error _ => []

/-- The events that the wait of a turn reports. -/
def turnEvents (l : Loop) : List Event :=
  match l.prepareTurn with
  | (.ok (some timeout), l) => l.reported timeout
  | _ => []

theorem does_prepareTurn {timeout : Duration} (h : l.prepareTurn = (.ok (some timeout), l')) :
    ∃ due : List Appointment, Does (l.channel.map .take ++ due.map .retry) l l' := by
  have htake : l.takeCommands = (.ok false, l.takeCommands.2) →
      Does (l.channel.map .take) l l.takeCommands.2 := does_takeFrom l.channel rfl
  unfold prepareTurn at h
  unfold takeCommands at htake h
  generalize l.takeFrom l.channel = r at htake h
  rcases r with ⟨fault | (_ | _), l₁⟩
  · cases h
  · simp only at h
    rcases hfire : l₁.fireRetries with ⟨fault | _, l₂⟩ <;> rw [hfire] at h
    · cases h
    · cases h
      have ⟨due, hdue⟩ := does_fireRetries hfire
      exact ⟨due, (htake rfl).append hdue⟩
  · cases h

theorem does_waitAndDispatch {timeout : Duration}
    (h : l.waitAndDispatch timeout = (.ok (), l')) :
    Does ((l.reported timeout).map .handle) l l' := by
  have hidles := Kernel.idles_poll l.kernel (some timeout) l.config.capacity
  unfold waitAndDispatch conclude at h
  unfold reported
  generalize l.kernel.poll (some timeout) l.config.capacity = r at hidles h ⊢
  rcases r with ⟨e | events, kernel⟩
  · cases h
    exact .pause l.agenda (l.journal.note [.pollFailed]) hidles (.nothing _)
  · exact .pause l.agenda l.journal hidles (does_dispatch events h)

/-- A turn takes the commands, retries connects, and handles the events reported. -/
theorem does_turn (h : l.turn = (.again, l')) : ∃ due : List Appointment,
    Does (l.channel.map .take ++ due.map .retry ++ l.turnEvents.map .handle) l l' := by
  have hturns := l.turns
  rw [h] at hturns
  unfold turnEvents
  cases hturns with
  | again hprepare hwait =>
      have ⟨due, hdue⟩ := does_prepareTurn hprepare
      rw [hprepare]
      exact ⟨due, hdue.append (does_waitAndDispatch hwait)⟩

end TextLink.Loop
