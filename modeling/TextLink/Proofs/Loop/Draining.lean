import TextLink.Proofs.Connection.Faults
import TextLink.Proofs.Loop.Supply

/-!
# Draining ends, and in time

A round of draining that reports something takes no time, and one that reports nothing takes at
least a millisecond. So what is left before the deadline, in milliseconds, and what there is to do,
counted together, grow less with every round (`Round.left_lt`), and the rounds a draining may take
are more than that. A wait is never longer than what is left, rounded up; so a draining is over less
than a millisecond after its deadline.

All of this takes a deadline. If the grace is so long that there is none, draining faults before its
first round (`Started.not_drain_of_endless_grace`). A draining may also be ended by the fault of a
connection, which a calm one does not meet.

## Main results

* `drainWithin_ends` — a draining whose rounds use something up ends.
* `Started.drain_ends` — whatever became of a loop, draining it ends in time.
-/

namespace TextLink

/-! ## Time -/

theorem Instant.nanos_since {t deadline : Instant} (h : deadline ≤ Instant.lastDeadline) :
    (deadline.since t).nanos = deadline.nanos - t.nanos := by
  have hle : deadline.nanos ≤ maxNanos :=
    Nat.le_trans h (by decide : Instant.lastDeadline.nanos ≤ maxNanos)
  exact Nat.min_eq_left (Nat.le_trans (Nat.sub_le _ _) hle)

/-- A wait that is not to last beyond a deadline ends less than a millisecond after it. -/
theorem nanos_waitEnd_lt {t deadline : Instant} {timeout : Duration} (hlt : t < deadline)
    (hle : timeout ≤ deadline.since t) :
    (waitEnd t (timeoutMillis timeout)).nanos < deadline.nanos + nanosPerMilli := by
  have hlt : t.nanos < deadline.nanos := hlt
  have hleft : timeout.nanos ≤ deadline.nanos - t.nanos :=
    Nat.le_trans hle (deadline.nanos_since_le t)
  have hceil := timeout.toMillisCeil_lt
  have hmillis : timeoutMillis timeout ≤ timeout.toMillisCeil := Nat.min_le_left _ _
  have hmax : max 1 (timeoutMillis timeout) * nanosPerMilli <
    deadline.nanos - t.nanos + nanosPerMilli := by
    rcases Nat.le_total 1 (timeoutMillis timeout) with h | h
    · rw [Nat.max_eq_right h]
      have := Nat.mul_le_mul_right nanosPerMilli hmillis
      omega
    · rw [Nat.max_eq_left h]
      omega
  show t.nanos + max 1 (timeoutMillis timeout) * nanosPerMilli < _
  omega

/-- A wait brings a deadline nearer. -/
theorem toMillisCeil_since_waitEnd {t deadline : Instant} (hlt : t < deadline)
    (hlast : deadline ≤ Instant.lastDeadline) (millis : Nat) :
    (deadline.since (waitEnd t millis)).toMillisCeil < (deadline.since t).toMillisCeil := by
  have hlt : t.nanos < deadline.nanos := hlt
  have hend : t.nanos + nanosPerMilli ≤ (waitEnd t millis).nanos := by
    refine Nat.add_le_add_left ?_ _
    exact Nat.le_mul_of_pos_left _ (Nat.lt_of_lt_of_le Nat.one_pos (Nat.le_max_left 1 millis))
  have hbefore := Instant.nanos_since (t := t) hlast
  have hafter := Instant.nanos_since (t := waitEnd t millis) hlast
  generalize waitEnd t millis = u at hend hafter ⊢
  simp only [Duration.toMillisCeil, nanosPerMilli, hbefore, hafter] at hend ⊢
  omega

namespace Loop

open Relation (ReflTransGen)

variable {l l' : Loop} {deadline : Instant} {allowed : Happening → Prop}

/-! ## Rounds -/

/-- **A draining whose rounds use something up ends.** What every round keeps still holds
before the end. -/
theorem drainWithin_ends {I : Loop → Prop} (left : Loop → Nat)
    (hround : ∀ {l l'}, I l → Round deadline l (.ok (), l') → I l' ∧ left l' < left l)
    {rounds : Nat} (h : I l) (hrounds : left l < rounds) :
    ∃ l₁ r, I l₁ ∧ Ends deadline l₁ r ∧ drainWithin deadline rounds l = some r := by
  induction rounds generalizing l with
  | zero => cases hrounds
  | succ rounds ih =>
      rcases l.ends_or_round deadline rounds with ⟨r, hends, hdrain⟩ | ⟨l', hr, hdrain⟩
      · exact ⟨l, r, h, hends, hdrain⟩
      · have ⟨h', hlt⟩ := hround h hr
        rw [hdrain]
        exact ih h' (Nat.lt_of_lt_of_le hlt (Nat.le_of_lt_succ hrounds))

/-! ## Rounds of a loop that is served -/

/-- A loop that may drain: what its wait reports is told of its own connections and is used up. -/
structure Drains (l : Loop) : Prop where
  sound : l.Sound
  foretold : Foretold ⟨l, [], []⟩
  worded : l.Worded
  vacant : l.connections.get? wakerToken = none

namespace Drains

theorem servable (h : l.Drains) : l.Servable :=
  h.foretold.truthful.servable h.sound h.worded h.vacant

theorem course (h : l.Drains) (hallowed : ∀ h, allowed h → ∀ i, h ≠ .inject i)
    (hcourse : Course allowed ⟨l, [], []⟩ ⟨l', [], []⟩) (hstays : Stays l l') : l'.Drains where
  sound := h.sound.course (m := ⟨l, [], []⟩) hcourse
  foretold := h.foretold.course (m := ⟨l, [], []⟩) h.sound hallowed hcourse
  worded := h.worded.course h.sound hcourse
  vacant := hstays.vacant h.vacant

/-- What comes before the wait of a round. -/
theorem fired (h : l.Drains)
    (hfire : (l.connections.keys.foldl rearmSlot l).fireRetries = (.ok (), l')) :
    l'.Drains ∧ Spends l l' := by
  have hspends := spends_rearmAndFire h.sound
  have hreaches : Reaches (fun h => ∀ i, h ≠ .inject i) ⟨l, [], []⟩ (.ok (), l') :=
    reaches_fired hfire
  rw [hfire] at hspends
  exact ⟨h.course (fun _ hnone => hnone) hreaches hspends.stays, hspends⟩

end Drains

theorem min_le_right (a b : Duration) : min a b ≤ b := by
  rw [Duration.le_iff, Duration.nanos_min]
  exact Nat.min_le_right _ _

/-- What comes before a wait adds nothing to what the wait comes to. -/
theorem Waits.of_spends {l₁ : Loop} {timeout : Duration} (h : Spends l l₁)
    (hwaits : Waits l₁ timeout l') : Waits l timeout l' where
  stays := h.stays.trans hwaits.stays
  outcome := by
    have houtcome := hwaits.outcome
    rw [h.now_eq] at houtcome
    exact houtcome.imp (And.imp_left fun hlt => Nat.lt_of_lt_of_le hlt h.supply_le)
      (And.imp_left fun hle => Nat.le_trans hle h.supply_le)

/-- What is left before `deadline`: milliseconds, and what there is to do. -/
def left (deadline : Instant) (l : Loop) : Nat :=
  (deadline.since l.now).toMillisCeil + l.supply

theorem Waits.left_lt {timeout : Duration} (h : Waits l timeout l') (hnow : l.now < deadline)
    (hlast : deadline ≤ Instant.lastDeadline) : left deadline l' < left deadline l := by
  unfold left
  rcases h.outcome with ⟨hlt, heq⟩ | ⟨hle, heq⟩ <;> rw [heq]
  · exact Nat.add_lt_add_left hlt _
  · exact Nat.add_lt_add_of_lt_of_le (toMillisCeil_since_waitEnd hnow hlast _) hle

namespace Round

variable {r : Except Fault Unit × Loop}

theorem now_lt (h : Round deadline l r) : l.now < deadline := by
  cases h with
  | intro _ hnow _ _ => exact hnow

theorem waits (h : Round deadline l r) (hl : l.Drains) :
    ∃ timeout, timeout ≤ deadline.since l.now ∧ Waits l timeout r.2 := by
  cases h with
  | @intro l₁ _ _ hfire hwait =>
      have ⟨hl₁, hspends⟩ := hl.fired hfire
      have hwaits := hl₁.servable.waits (min l₁.waitTimeout (deadline.since l₁.now))
      rw [hwait] at hwaits
      refine ⟨min l₁.waitTimeout (deadline.since l₁.now), ?_, hwaits.of_spends hspends⟩
      rw [← hspends.now_eq]
      exact min_le_right _ _

theorem stays (h : Round deadline l r) (hl : l.Drains) : Stays l r.2 := by
  have ⟨_, _, hwaits⟩ := h.waits hl
  exact hwaits.stays

/-- A round ends in time. -/
theorem now_lt_after (h : Round deadline l r) (hl : l.Drains) :
    r.2.now.nanos < deadline.nanos + nanosPerMilli := by
  have ⟨timeout, hle, hwaits⟩ := h.waits hl
  rcases hwaits.outcome with ⟨_, hnow⟩ | ⟨_, hnow⟩ <;> rw [hnow]
  · exact Nat.lt_add_right nanosPerMilli h.now_lt
  · exact nanos_waitEnd_lt h.now_lt hle

/-- A round uses something up, or time passes. -/
theorem left_lt (h : Round deadline l r) (hl : l.Drains) (hlast : deadline ≤ Instant.lastDeadline) :
    left deadline r.2 < left deadline l :=
  have ⟨_, _, hwaits⟩ := h.waits hl
  hwaits.left_lt h.now_lt hlast

theorem drains (h : Round deadline l (.ok (), l')) (hl : l.Drains) : l'.Drains := by
  cases h with
  | @intro l₁ _ _ hfire hwait =>
      have ⟨hl₁, _⟩ := hl.fired hfire
      have hwaits := hl₁.servable.waits (min l₁.waitTimeout (deadline.since l₁.now))
      have hwaited : Reaches (fun h => ∀ i, h ≠ .inject i) ⟨l₁, [], []⟩
          (l₁.waitAndDispatch (min l₁.waitTimeout (deadline.since l₁.now))) :=
        reaches_waitAndDispatch _ _
      rw [hwait] at hwaits hwaited
      exact hl₁.course (fun _ hnone => hnone) hwaited hwaits.stays

end Round

/-! ## Calm loops -/

/-- No connection meets a fault before `t`. -/
def Calm (l : Loop) (t : Instant) : Prop :=
  ∀ slot c, l.connections.get? slot = some c → c.Calm t

namespace Calm

variable {t : Instant} {fault : Fault}

theorem stays (h : l.Calm t) (hstays : Stays l l') : l'.Calm t := by
  intro slot c' hc'
  obtain ⟨c, hc, hid⟩ := hstays slot c' hc'
  exact (h slot c hc).congr hid

theorem link (h : l.Calm t) (hnow : l.now ≤ t) {slot : Nat} {c : Connection}
    (hc : l.connections.get? slot = some c) : (l.link c).Calm :=
  (h slot c hc).before hnow

theorem retry_ne_fault (h : l.Calm t) (hl : l.Sound) (hnow : l.now ≤ t) (due : Appointment) :
    (l.retry due).1 ≠ .error fault := by
  unfold retry
  rcases hc : l.connections.get? due.token with _ | c
  · exact nofun
  · by_cases hdue : c.retryAt = some due.deadline
    · simp only [if_pos hdue]
      unfold attempt
      simp only [hc]
      have hstate : c.state = .connecting := by
        cases hl.shape due.token c hc with
        | connected _ _ _ _ hretry _ _ => cases hretry.symm.trans hdue
        | inFlight hstate _ _ _ _ _ | waiting hstate _ _ _ _ _ => exact hstate
      have hne (fault : Fault) : (l.link c).connect.1 ≠ .error fault :=
        Link.connect_ne_fault (h.link hnow hc) (.inr hstate)
      generalize (l.link c).connect = r at hne ⊢
      rcases r with ⟨f | progress, k⟩
      · exact absurd rfl (hne f)
      · exact nofun
    · simp only [if_neg hdue]
      exact nofun

theorem retryAll_ne_fault (h : l.Calm t) (hl : l.Sound) (hnow : l.now ≤ t)
    (due : List Appointment) : (l.retryAll due).1 ≠ .error fault := by
  induction due generalizing l with
  | nil => exact nofun
  | cons a later ih =>
      have hne (fault : Fault) : (l.retry a).1 ≠ .error fault := h.retry_ne_fault hl hnow a
      have hspends := spends_retry hl a
      unfold retryAll
      rcases hr : l.retry a with ⟨f | _, l'⟩ <;> rw [hr] at hne hspends
      · exact absurd rfl (hne f)
      · have hnext : Next (fun _ => True) ⟨l, a :: later, []⟩ ⟨l', later, []⟩ := .retry later hr
        exact ih (h.stays hspends.stays) (Sound.next (m := ⟨l, a :: later, []⟩) hl hnext)
          (Nat.le_trans (Nat.le_of_eq (congrArg Instant.nanos hspends.now_eq)) hnow)

theorem rearmAndFire_ne_fault (h : l.Calm t) (hl : l.Sound) (hnow : l.now ≤ t) :
    (l.connections.keys.foldl rearmSlot l).fireRetries.1 ≠ .error fault := by
  have hrearm := spends_rearmAll hl l.connections.keys
  have hcourse : Course (fun _ => True) ⟨l, [], []⟩
    ⟨l.connections.keys.foldl rearmSlot l, [], []⟩ :=
    course_rearmAll l.connections.keys
  have hsound : (l.connections.keys.foldl rearmSlot l).Sound :=
    Sound.course (m := ⟨l, [], []⟩) hl hcourse
  generalize l.connections.keys.foldl rearmSlot l = l₁ at hrearm hsound ⊢
  have hcalm : Calm { l₁ with agenda := (l₁.agenda.takeDue l₁.now).2 } t :=
    (h.stays hrearm.stays).stays (.of_eq rfl)
  have hnow : l₁.now ≤ t := Nat.le_trans (Nat.le_of_eq (congrArg Instant.nanos hrearm.now_eq)) hnow
  exact hcalm.retryAll_ne_fault (hsound.appoint _) hnow _

theorem handle_ne_fault (h : l.Calm t) (hnow : l.now ≤ t) (event : Event) :
    (l.handle event).1 ≠ .error fault := by
  unfold handle
  rcases hc : l.connections.get? event.token with _ | c
  · exact nofun
  · have hne (fault : Fault) : ((l.link c).handleEvent event).1 ≠ .error (.fault fault) :=
      Link.handleEvent_ne_fault (h.link hnow hc) event
    simp only
    generalize (l.link c).handleEvent event = r at hne ⊢
    rcases r with ⟨(e | f) | progress, k⟩
    · exact nofun
    · exact absurd rfl (hne f)
    · exact nofun

theorem dispatch_ne_fault (h : l.Calm t) (hl : l.Sound) (hnow : l.now ≤ t) (events : List Event) :
    (l.dispatch events).1 ≠ .error fault := by
  induction events generalizing l with
  | nil => exact nofun
  | cons event later ih =>
      have hne (fault : Fault) : (l.handle event).1 ≠ .error fault := h.handle_ne_fault hnow event
      have hspends := spends_handle hl event
      unfold dispatch
      rcases hr : l.handle event with ⟨f | _, l'⟩ <;> rw [hr] at hne hspends
      · exact absurd rfl (hne f)
      · have hnext : Next (fun _ => True) ⟨l, [], event :: later⟩ ⟨l', [], later⟩ :=
          .handle later hr
        exact ih (h.stays hspends.stays) (Sound.next (m := ⟨l, [], event :: later⟩) hl hnext)
          (Nat.le_trans (Nat.le_of_eq (congrArg Instant.nanos hspends.now_eq)) hnow)

theorem waitAndDispatch_ne_fault (h : l.Calm t) (hl : l.Sound) (hnow : l.now ≤ t)
    (timeout : Duration) : (l.waitAndDispatch timeout).1 ≠ .error fault := by
  have hwaited := l.waited timeout
  have hnext : Next (fun _ => True) ⟨l, [], []⟩ _ := .beginWait l (some (timeoutMillis timeout))
  have hbegun := (beginWait_eq l (some (timeoutMillis timeout))).1.2
  generalize l.waitAndDispatch timeout = r at hwaited ⊢
  cases hwaited with
  | idle | interrupted | failed => exact nofun
  | @reported k report later hbegin hreports =>
      rw [hbegin] at hnext hbegun
      have hanswer : Next (fun _ => True) ⟨{ l with kernel := k }, [], []⟩ _ :=
        .answer _ (some (timeoutMillis timeout)) hreports
      have hsound := Sound.course (m := ⟨l, [], []⟩) hl ((ReflTransGen.single hnext).tail hanswer)
      have hnow : k.clock ≤ t := Nat.le_trans (Nat.le_of_eq (congrArg Instant.nanos hbegun)) hnow
      exact dispatch_ne_fault (l := answered { l with kernel := k } _ _) (h.stays (.of_eq rfl))
        hsound hnow _

end Calm

/-! ## The end -/

/-- How draining `l` until `deadline` may end. -/
structure DrainedBy (deadline : Instant) (l : Loop) (r : Except Fault Unit × Loop) : Prop where
  /-- Nothing waits any more, or the grace is over. -/
  settled : r.1 = .ok () → r.2.pendingOutput = 0 ∨ deadline ≤ r.2.now
  in_time : r.2.now.nanos < deadline.nanos + nanosPerMilli
  /-- Only the fault of a connection ends a draining otherwise. -/
  calm : l.Calm deadline → r.1 = .ok ()

/-- What a loop that drains is before each of its rounds. -/
structure DrainsFrom (deadline : Instant) (l l' : Loop) : Prop where
  drains : l'.Drains
  stays : Stays l l'
  in_time : l'.now.nanos < deadline.nanos + nanosPerMilli

theorem DrainsFrom.ends {start : Loop} {r : Except Fault Unit × Loop}
    (h : DrainsFrom deadline start l) (hends : Ends deadline l r) : DrainedBy deadline start r := by
  cases hends with
  | done hpending => exact ⟨fun _ => .inl hpending, h.in_time, fun _ => rfl⟩
  | expired hnow => exact ⟨fun _ => .inr hnow, h.in_time, fun _ => rfl⟩
  | @unprepared fault l' hnow hfire =>
      have hspends := spends_rearmAndFire h.drains.sound
      rw [hfire] at hspends
      refine ⟨nofun, ?_, fun hcalm => ?_⟩
      · rw [hspends.now_eq]
        exact h.in_time
      · exact absurd (congrArg Prod.fst hfire)
          ((hcalm.stays h.stays).rearmAndFire_ne_fault h.drains.sound (Nat.le_of_lt hnow))
  | @unserved fault l' hround =>
      refine ⟨nofun, hround.now_lt_after h.drains, fun hcalm => ?_⟩
      cases hround with
      | @intro l₁ _ hnow hfire hwait =>
          have ⟨hl₁, hspends⟩ := h.drains.fired hfire
          have hnow : l₁.now ≤ deadline := hspends.now_eq ▸ Nat.le_of_lt hnow
          have hcalm₁ := hcalm.stays (h.stays.trans hspends.stays)
          exact absurd (congrArg Prod.fst hwait) (hcalm₁.waitAndDispatch_ne_fault hl₁.sound hnow _)

/--
**Draining ends, and in time.** However a loop has come to be where nothing is reported out of
nowhere, and whatever its kernel still has in store, as long as no connection lives under the token
of the waker: draining it ends, with nothing waiting or with the grace over, and less than a
millisecond after the grace. It may end by the fault of a connection instead, though not if all are
calm. The one exception is a grace so long that there is no deadline: such a draining faults on the
spot.
-/
theorem Started.drain_ends (h : l.Started) (hcloses : l.kernel.closeUnregisters = true)
    (hquiet : l.kernel.injections = []) {l₁ : Loop}
    (hcourse : Course (fun h => ∀ i, h ≠ .inject i) ⟨l, [], []⟩ ⟨l₁, [], []⟩)
    (hvacant : l₁.connections.get? wakerToken = none) :
    (∀ deadline, l₁.drainDeadline = some deadline →
      ∃ r, l₁.drain = some r ∧ DrainedBy deadline l₁ r) ∧
    (l₁.drainDeadline = none → l₁.drain = some (.error .deadline, l₁)) := by
  have hallowed : ∀ h : Happening, (∀ i, h ≠ .inject i) → ∀ i, h ≠ .inject i := fun _ hnone => hnone
  have hdrains : l₁.Drains :=
    ⟨h.sound.course (m := ⟨l, [], []⟩) hcourse,
      (h.foretold hcloses hquiet).course h.sound hallowed hcourse, h.worded hcourse, hvacant⟩
  refine ⟨fun deadline hdeadline => ?_, fun hnone => by rw [drain, hnone]⟩
  have ⟨heq, hlast⟩ := Instant.deadline?_eq_some_iff.1 hdeadline
  have hstart : DrainsFrom deadline l₁ l₁ := by
    refine ⟨hdrains, .of_eq rfl, ?_⟩
    rw [heq]
    exact Nat.lt_of_le_of_lt (Nat.le_add_right _ _) (Nat.lt_add_of_pos_right (by decide))
  have hrounds : left deadline l₁ < l₁.roundsUntil deadline :=
    Nat.add_lt_add_left (supply_lt_prospects hdrains.sound.coherent) _
  obtain ⟨l₂, r, hfrom, hends, hdrain⟩ := drainWithin_ends (I := DrainsFrom deadline l₁)
    (left deadline) (fun hfrom hround =>
      ⟨⟨hround.drains hfrom.drains, hfrom.stays.trans (hround.stays hfrom.drains),
        hround.now_lt_after hfrom.drains⟩, hround.left_lt hfrom.drains hlast⟩) hstart hrounds
  refine ⟨r, ?_, hfrom.ends hends⟩
  rw [drain, hdeadline]
  exact hdrain

/-- A message waits on a socket that never has room: the draining lasts as long as the grace. -/
theorem Started.drain_ends_of_no_room :
    let l : Loop := {
      config := { shutdownGrace := .ofMillis 3 }
      kernel := { plans := [{ connect := .ok, room := some 0 }] } }
    let l₁ := l.after [.request (.connect default {} {}), .turn, .request (.send 0 [104, 105])]
    let deadline := l₁.now.after (.ofMillis 3)
    l.Started ∧ l.kernel.closeUnregisters = true ∧ l.kernel.injections = [] ∧
      Course (fun h => ∀ i, h ≠ .inject i) ⟨l, [], []⟩ ⟨l₁, [], []⟩ ∧
      l₁.connections.get? wakerToken = none ∧ l₁.drainDeadline = some deadline ∧
      l₁.pendingOutput = 1 ∧
      ∃ r, l₁.drain = some r ∧ DrainedBy deadline l₁ r ∧ r.2.pendingOutput = 1 ∧
      r.2.now = deadline := by
  intro l l₁ deadline
  have hstarted : l.Started := ⟨{ shutdownGrace := .ofMillis 3 }, l.kernel, ⟨rfl, rfl, rfl⟩, rfl⟩
  have hcourse : Course (fun h => ∀ i, h ≠ .inject i) ⟨l, [], []⟩ ⟨l₁, [], []⟩ :=
    course_after l _ fun h hmem i heq => by
      subst heq
      simp at hmem
  have hvacant : l₁.connections.get? wakerToken = none := by decide +kernel
  have hdeadline : l₁.drainDeadline = some deadline := by decide +kernel
  obtain ⟨r, hdrain, hdrained⟩ := (hstarted.drain_ends rfl rfl hcourse hvacant).1 deadline hdeadline
  have hend : l₁.drain.all fun r => r.2.pendingOutput = 1 ∧ r.2.now = deadline := by decide +kernel
  rw [hdrain] at hend
  have ⟨hpending, hnow⟩ := of_decide_eq_true hend
  exact ⟨hstarted, rfl, rfl, hcourse, hvacant, hdeadline, by decide +kernel, r, hdrain, hdrained,
    hpending, hnow⟩

/-- A shutdown is requested, and nothing is there to be sent; but the grace has no end. -/
theorem Started.not_drain_of_endless_grace :
    let l : Loop := { config := { shutdownGrace := .longest } }
    let l₁ := l.after [.request .shutdown]
    l.Started ∧ l.kernel.closeUnregisters = true ∧ l.kernel.injections = [] ∧
      Course (fun h => ∀ i, h ≠ .inject i) ⟨l, [], []⟩ ⟨l₁, [], []⟩ ∧ l₁.pendingOutput = 0 ∧
      l₁.drain = some (.error .deadline, l₁) ∧
      l₁.run.map Prod.fst = some (.error .deadline) := by
  intro l l₁
  have hstarted : l.Started := ⟨{ shutdownGrace := .longest }, l.kernel, ⟨rfl, rfl, rfl⟩, rfl⟩
  have hcourse : Course (fun h => ∀ i, h ≠ .inject i) ⟨l, [], []⟩ ⟨l₁, [], []⟩ :=
    course_after l _ fun h hmem i heq => by
      subst heq
      simp at hmem
  have hnone : l₁.drainDeadline = none := by decide +kernel
  have hturn : l₁.turn.1 = .shutdown := by decide +kernel
  have hrun : l₁.turn.2.shutDown.map Prod.fst = some (.error .deadline) := by decide +kernel
  rw [← run_of_shutdown hturn] at hrun
  refine ⟨hstarted, rfl, rfl, hcourse, by decide +kernel, ?_, hrun⟩
  rw [drain, hnone]

end Loop

end TextLink
