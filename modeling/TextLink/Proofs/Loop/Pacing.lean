import TextLink.Proofs.Loop.Firing
import TextLink.Proofs.Loop.Strokes

/-!
# How long a loop sleeps

Before a loop waits it reckons how long it may: no longer than the heartbeat, nor beyond the first
appointment in its agenda, nor, while it drains, beyond the end of the grace. Whoever waits for a
retry has an appointment there, and the agenda has the earliest one at its root, so no retry is
slept through. The time is handed over in whole milliseconds, rounded up: the wait may take up to a
millisecond too long, but is not cut to nothing while there is time left.

## Main results

* `Started.paced` — every wait of a turn or of a round of draining.
-/

namespace TextLink

/-! ## Whole milliseconds -/

/-- A wait is less than a millisecond longer than its timeout. -/
theorem timeoutMillis_lt_nanos (d : Duration) :
    timeoutMillis d * nanosPerMilli < d.nanos + nanosPerMilli := by
  have hcut : timeoutMillis d ≤ d.toMillisCeil := Nat.min_le_left ..
  calc timeoutMillis d * nanosPerMilli
      ≤ d.toMillisCeil * nanosPerMilli := Nat.mul_le_mul_right _ hcut
    _ < d.nanos + nanosPerMilli := d.toMillisCeil_lt

/-- A timeout that is not zero is not cut to nothing. -/
theorem one_le_timeoutMillis {d : Duration} (h : 0 < d.nanos) : 1 ≤ timeoutMillis d := by
  have hceil := d.le_toMillisCeil
  unfold nanosPerMilli at hceil
  unfold timeoutMillis maxTimeoutMillis
  omega

namespace Instant

theorem nanos_since_pos {t earlier : Instant} (h : earlier < t) : 0 < (t.since earlier).nanos := by
  have hlater := lt_iff.1 h
  have hmost : 0 < maxNanos := by decide
  show 0 < min (t.nanos - earlier.nanos) maxNanos
  omega

end Instant

namespace Loop

variable {allowed : Happening → Prop} {l l' : Loop} {t : Nat} {c : Connection} {a : Appointment}
  {d deadline : Instant}

/-! ## The timeout of a wait -/

theorem nanos_waitTimeout_le (l : Loop) : l.waitTimeout.nanos ≤ l.config.pollTimeout.nanos := by
  unfold waitTimeout
  split
  · exact Nat.le_refl _
  · rw [Duration.nanos_min]
    exact Nat.min_le_right ..

/-- No appointment is slept through. -/
theorem nanos_waitTimeout_le_of_mem (h : l.agenda.Ordered) (ha : a ∈ l.agenda.toList) :
    l.waitTimeout.nanos ≤ a.deadline.nanos - l.now.nanos := by
  unfold waitTimeout
  generalize l.agenda = agenda at h ha
  cases agenda with
  | empty => cases ha
  | node spine first left right =>
      have hfirst := Appointment.deadline_le_of_notAfter (h.root ha)
      have hsince := first.deadline.nanos_since_le l.now
      rw [Instant.le_iff] at hfirst
      show (min (first.deadline.since l.now) l.config.pollTimeout).nanos ≤ _
      rw [Duration.nanos_min]
      omega

/-- With a heartbeat, and nothing due, there is time to sleep. -/
theorem nanos_waitTimeout_pos (hbeat : 0 < l.config.pollTimeout.nanos)
    (hlater : ∀ a ∈ l.agenda.toList, l.now < a.deadline) : 0 < l.waitTimeout.nanos := by
  unfold waitTimeout
  generalize l.agenda = agenda at hlater
  cases agenda with
  | empty => exact hbeat
  | node spine first left right =>
      have hpos := Instant.nanos_since_pos (hlater first (.head _))
      show 0 < (min (first.deadline.since l.now) l.config.pollTimeout).nanos
      rw [Duration.nanos_min]
      omega

/-! ## What is asked of a wait -/

/-- A wait of `millis` milliseconds that begins now sleeps through no retry and no heartbeat by as
much as a millisecond, can be handed over as a signed 32-bit number, and does not come back at once
unless something is due. -/
structure Paced (l : Loop) (millis : Nat) : Prop where
  retry : ∀ t c d, l.connections.get? t = some c → c.retryAt = some d → l.now < d →
    millis * nanosPerMilli < (d.nanos - l.now.nanos) + nanosPerMilli
  heartbeat : millis * nanosPerMilli < l.config.pollTimeout.nanos + nanosPerMilli
  fits : millis < 1 <<< 31
  rests : 0 < l.config.pollTimeout.nanos → (∀ a ∈ l.agenda.toList, l.now < a.deadline) → 1 ≤ millis

/-- The loop whenever it reckons how long to wait: the root of its agenda is the earliest
appointment, and whoever waits for a retry has one there. -/
structure Punctual (l : Loop) : Prop where
  ordered : l.agenda.Ordered
  scheduled : Moment.Scheduled ⟨l, []⟩

theorem Started.punctual (h : l.Started) (hm : Course allowed ⟨l, [], []⟩ ⟨l', [], []⟩) :
    l'.Punctual where
  ordered := h.agenda_ordered (Course.moves hm)
  scheduled := Scheduled.moves h.vacant.scheduled h.sound (Course.moves hm)

/-- A timeout that is not beyond the loop's, and is none only if that is none. -/
theorem Punctual.paces (h : l.Punctual) {timeout : Duration}
    (hle : timeout.nanos ≤ l.waitTimeout.nanos)
    (hpos : 0 < l.waitTimeout.nanos → 0 < timeout.nanos) : l.Paced (timeoutMillis timeout) where
  retry t c d hc hd _ := by
    have hmem := (h.scheduled t c d hc hd).resolve_right List.not_mem_nil
    have hslept := nanos_waitTimeout_le_of_mem h.ordered hmem
    have hmillis := timeoutMillis_lt_nanos timeout
    dsimp only at hslept
    omega
  heartbeat := by
    have hbeat := l.nanos_waitTimeout_le
    have hmillis := timeoutMillis_lt_nanos timeout
    omega
  fits := timeoutMillis_lt timeout
  rests hbeat hlater := one_le_timeoutMillis (hpos (nanos_waitTimeout_pos hbeat hlater))

/-! ## The clock of a round -/

/-- No time passes while a retry is made. -/
theorem Sound.now_retry (h : l.Sound) (due : Appointment) : (l.retry due).2.now = l.now := by
  have hretries := h.retries due
  generalize l.retry due = r at hretries ⊢
  cases hretries with
  | attempt _ hattempts =>
      cases hattempts with
      | made hacts _ _ => exact hacts.now_eq
      | broken hbreaks => exact hbreaks.leads.touches.clock_eq
  | outdated _ => rfl

theorem Sound.now_retryAll (h : l.Sound) (due : List Appointment) :
    (l.retryAll due).2.now = l.now := by
  induction due generalizing l with
  | nil => rfl
  | cons first later ih =>
      have hnow := h.now_retry first
      have hstands := h.retry first
      unfold retryAll
      generalize l.retry first = r at hnow hstands ⊢
      rcases r with ⟨_ | _, l₁⟩
      · exact hnow
      · exact (ih hstands).trans hnow

theorem Sound.now_fireRetries (h : l.Sound) : l.fireRetries.2.now = l.now :=
  (h.appoint (l.agenda.takeDue l.now).2).now_retryAll (l.agenda.takeDue l.now).1

theorem Sound.now_rearmAll (h : l.Sound) (tokens : List Nat) :
    (tokens.foldl Loop.rearmSlot l).now = l.now := by
  induction tokens generalizing l with
  | nil => rfl
  | cons token later ih =>
      have hnow : (l.rearmSlot token).now = l.now := by
        rcases h.rearms token with heq | ⟨c, rs, hacts, heq⟩ <;> rw [heq]
        exact hacts.now_eq
      exact (ih (h.rearmSlot token)).trans hnow

/-! ## How long a turn and a round of draining wait -/

theorem timeout_of_prepareTurn {timeout : Duration} (h : l.prepareTurn = (.ok (some timeout), l')) :
    timeout = l'.waitTimeout := by
  unfold prepareTurn at h
  generalize l.takeCommands = r at h
  rcases r with ⟨_ | _ | _, l₁⟩
  · cases h
  · simp only at h
    generalize l₁.fireRetries = r at h
    rcases r with ⟨_ | _, l₂⟩ <;> cases h
    rfl
  · cases h

/-- A round of draining waits within the grace, of which some is left. -/
theorem Sound.timeout_of_prepareDrain (hl : l.Sound) {timeout : Duration}
    (h : l.prepareDrain deadline = (.ok (some timeout), l')) :
    l'.now < deadline ∧ timeout = min l'.waitTimeout (deadline.since l'.now) := by
  have hrearmed : Course (fun _ => True) ⟨l, [], []⟩
      ⟨l.connections.keys.foldl Loop.rearmSlot l, [], []⟩ := course_rearmAll l.connections.keys
  have hnow := (hl.course hrearmed).now_fireRetries.trans (hl.now_rearmAll l.connections.keys)
  have hprepares := l.prepares deadline
  rw [h] at hprepares
  cases hprepares with
  | waits _ hleft hfire =>
      rw [hfire] at hnow
      exact ⟨hnow ▸ hleft, rfl⟩

/-! ## What is handed over -/

/-- A wait of `millis` milliseconds is the first call that `l` makes on its way to `l'`. -/
def WaitsFirst (l : Loop) (millis : Nat) (l' : Loop) : Prop :=
  ∃ outcome, l.kernel.calls.toList ++ [.wait (some millis) outcome] <+: l'.kernel.calls.toList

theorem Sound.calls_prefix_handle (h : l.Sound) (event : Event) :
    l.kernel.calls.toList <+: (l.handle event).2.kernel.calls.toList := by
  have hhandles := h.handles event
  generalize l.handle event = r at hhandles ⊢
  cases hhandles with
  | nobody _ => exact List.prefix_refl _
  | @served c progress k hacts _ =>
      have hcalls := hacts.leads.touches.calls_prefix
      cases progress <;> exact hcalls
  | skipped hacts _ rs => exact hacts.leads.touches.calls_prefix
  | broken hbreaks => exact hbreaks.leads.touches.calls_prefix

theorem Sound.calls_prefix_dispatch (h : l.Sound) (events : List Event) :
    l.kernel.calls.toList <+: (l.dispatch events).2.kernel.calls.toList := by
  induction events generalizing l with
  | nil => exact List.prefix_refl _
  | cons event later ih =>
      have hcalls := h.calls_prefix_handle event
      have hstands := h.handle event
      unfold dispatch
      generalize l.handle event = r at hcalls hstands ⊢
      rcases r with ⟨_ | _, l₁⟩
      · exact hcalls
      · exact hcalls.trans (ih hstands)

/-- A wait that begins is recorded when it is answered. -/
theorem calls_of_begun {k k' : Kernel} {millis : Option Nat} (h : k.beginWait millis = (.ok, k')) :
    k'.calls = k.calls := by
  unfold Kernel.beginWait Kernel.takeVerdict at h
  generalize Kernel.splitVerdict .epollWait k.verdicts = r at h
  rcases r with ⟨_ | e, vs⟩ <;> cases h
  rfl

/-- A wait that fails on the spot is recorded at once. -/
theorem calls_of_failed {k k' : Kernel} {millis : Option Nat} {e : Errno}
    (h : k.beginWait millis = (.fails e, k')) :
    k'.calls.toList = k.calls.toList ++ [.wait millis (.error e)] := by
  unfold Kernel.beginWait Kernel.takeVerdict at h
  generalize Kernel.splitVerdict .epollWait k.verdicts = r at h
  rcases r with ⟨_ | e', vs⟩ <;> cases h
  exact Array.toList_push

theorem calls_passTimeout (k : Kernel) (millis : Option Nat) :
    (k.passTimeout millis).calls = k.calls := by
  -- Stated for any clock: when the wait ends is not to be computed.
  have hclock (t : Instant) : ({ k with clock := t } : Kernel).calls = k.calls := rfl
  cases millis with
  | none => rfl
  | some n => exact hclock _

/-- A wait that is answered is recorded before the events are handled. -/
theorem calls_answered (l : Loop) (millis : Option Nat) (reports : List Report) :
    (l.answered millis reports).kernel.calls.toList =
      l.kernel.calls.toList ++ [.wait millis (.ok reports)] :=
  Array.toList_push

/-- Waiting hands over the timeout in whole milliseconds, before anything else is called. -/
theorem Sound.waitsFirst (h : l.Sound) (timeout : Duration) :
    l.WaitsFirst (timeoutMillis timeout) (l.waitAndDispatch timeout).2 := by
  have hwaited := l.waited timeout
  have hbegin : Next (fun _ => True) ⟨l, [], []⟩ _ := .beginWait l (some (timeoutMillis timeout))
  generalize l.waitAndDispatch timeout = r at hwaited ⊢
  cases hwaited with
  | @idle k hbegun _ =>
      have hcalls :=
        calls_answered { l with kernel := k.passTimeout (some (timeoutMillis timeout)) }
        (some (timeoutMillis timeout)) []
      rw [calls_passTimeout, calls_of_begun hbegun] at hcalls
      exact ⟨.ok [], hcalls ▸ List.prefix_refl _⟩
  | @reported k report later hbegun hreports =>
      have hanswer : Next (fun _ => True) ⟨{ l with kernel := k }, [], []⟩ _ :=
        .answer _ (some (timeoutMillis timeout)) hreports
      rw [hbegun] at hbegin
      have hanswered := (h.next hbegin).next hanswer
      have hcalls := calls_answered { l with kernel := k } (some (timeoutMillis timeout))
        (report :: later)
      rw [calls_of_begun hbegun] at hcalls
      exact ⟨.ok (report :: later), hcalls ▸ hanswered.calls_prefix_dispatch _⟩
  | @interrupted k e hfailed => exact ⟨.error e, calls_of_failed hfailed ▸ List.prefix_refl _⟩
  | @failed k e hfailed => exact ⟨.error e, calls_of_failed hfailed ▸ List.prefix_refl _⟩

/--
**How long a loop sleeps.** At every moment of every run of a new loop when nothing is left to look
at, whatever the clock reads, the timeout that is reckoned then is `Paced` in whole milliseconds. So
is what a turn hands over, as the first call after what it does before its wait; and what a round of
draining hands over, which moreover is less than a millisecond longer than the grace that is left.
-/
theorem Started.paced (h : l.Started) (hm : Course allowed ⟨l, [], []⟩ ⟨l', [], []⟩) :
    (∀ now, (l'.atClock now).Paced (timeoutMillis (l'.atClock now).waitTimeout)) ∧
    (∀ timeout l₁, l'.prepareTurn = (.ok (some timeout), l₁) →
      l₁.Paced (timeoutMillis timeout) ∧
        l₁.WaitsFirst (timeoutMillis timeout) l'.turn.2) ∧
    (∀ deadline timeout l₁, l'.prepareDrain deadline = (.ok (some timeout), l₁) →
      l₁.Paced (timeoutMillis timeout) ∧
        timeoutMillis timeout * nanosPerMilli < (deadline.nanos - l₁.now.nanos) + nanosPerMilli ∧
        l₁.WaitsFirst (timeoutMillis timeout) (l₁.waitAndDispatch timeout).2) := by
  have hl' : l'.Sound := h.sound.course hm
  refine ⟨fun now => ?_, fun timeout l₁ hprepare => ?_, fun deadline timeout l₁ hprepare => ?_⟩
  · have hpass := h.punctual (hm.tail (.pass l' now))
    exact hpass.paces (Nat.le_refl _) id
  · have hreaches : Reaches allowed ⟨l', [], []⟩ l'.prepareTurn := reaches_prepareTurn l'
    rw [hprepare] at hreaches
    have hwaits := (hl'.course hreaches).waitsFirst timeout
    have hturn : l'.turn.2 = (l₁.waitAndDispatch timeout).2 := by
      unfold turn
      rw [hprepare]
      simp only
      split <;> next heq => rw [heq]
    rw [hturn]
    obtain rfl := timeout_of_prepareTurn hprepare
    exact ⟨(h.punctual (hm.trans hreaches)).paces (Nat.le_refl _) id, hwaits⟩
  · have hreaches : Reaches allowed ⟨l', [], []⟩ (l'.prepareDrain deadline) :=
      reaches_prepareDrain l' deadline
    rw [hprepare] at hreaches
    have hwaits := (hl'.course hreaches).waitsFirst timeout
    obtain ⟨hgrace, htimeout⟩ := hl'.timeout_of_prepareDrain hprepare
    have hnanos := congrArg Duration.nanos htimeout
    rw [Duration.nanos_min] at hnanos
    have hleft := deadline.nanos_since_le l₁.now
    have hmillis := timeoutMillis_lt_nanos timeout
    have hpos := Instant.nanos_since_pos hgrace
    refine ⟨(h.punctual (hm.trans hreaches)).paces ?_ ?_, ?_, hwaits⟩ <;> omega

/-- A connect was refused, and the next attempt is due in a tenth of a second: so
long is the wait. -/
theorem Started.paced_of_refused :
    let refused : Plan := { connect := .fails .connectionRefused }
    let l : Loop := { kernel := { plans := [refused] } }
    let m : Loop := l.after [.request (.connect default {} {}), .turn]
    l.Started ∧ (m.connections.get? 0).map (·.retryAt) = some (some ⟨100000000⟩) ∧
      ∃ timeout l₁, m.prepareTurn = (.ok (some timeout), l₁) ∧
        (l₁.connections.get? 0).map (·.retryAt) = some (some ⟨100000000⟩) ∧
        timeoutMillis timeout = 100 ∧ l₁.Paced 100 := by
  intro refused l m
  have hstarted : l.Started := ⟨{}, l.kernel, ⟨rfl, rfl, rfl⟩, rfl⟩
  have hm : Course (fun _ => True) ⟨l, [], []⟩ ⟨m, [], []⟩ := course_after l _ fun _ _ => trivial
  have hpaced := (hstarted.paced hm).2.1
  have hretry : (m.prepareTurn.2.connections.get? 0).map (·.retryAt) = some (some ⟨100000000⟩) := by
    decide +kernel
  have hmillis : (m.prepareTurn.1.toOption.bind id).map timeoutMillis = some 100 := by
    decide +kernel
  have hwaits : (m.connections.get? 0).map (·.retryAt) = some (some ⟨100000000⟩) := by
    decide +kernel
  clear_value m
  rcases hprepare : m.prepareTurn with ⟨_ | _ | timeout, l₁⟩ <;> rw [hprepare] at hmillis hretry
  · cases hmillis
  · cases hmillis
  · have htimeout : timeoutMillis timeout = 100 := Option.some.inj hmillis
    have hl₁ := (hpaced timeout l₁ hprepare).1
    rw [htimeout] at hl₁
    exact ⟨hstarted, hwaits, timeout, l₁, rfl, hretry, htimeout, hl₁⟩

end Loop

end TextLink
