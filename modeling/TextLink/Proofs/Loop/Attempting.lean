import TextLink.Proofs.Loop.Firing
import TextLink.Proofs.Loop.Launching
import TextLink.Proofs.Loop.Setbacks
import TextLink.Proofs.Loop.Undoing

/-!
# The limit of attempts

A policy may say how many attempts a connection makes at most. A connection goes by its own count,
which stops at a largest number, and by a retry that is due at a moment of its own; the loop fires
retries out of an agenda that may hold outdated ones, and hands out events that may be about sockets
long gone. All the same the limit is exact (`Limited`): in no run are more attempts made, as the
calls tell them; the last one closes the connection if it fails, and no other one does.

## Main results

* `Tally.next` — the count that a connection keeps is the number of its attempts.
* `Tally.fails` — what comes of an attempt that fails.
* `Tally.departs` — what can take a connection away.
* `Started.limits_attempts` — all of it, over every run.
-/

namespace TextLink

/-! ## Counting -/

/-- If there is a limit, it can be reached by counting. -/
def ConnectPolicy.Countable (p : ConnectPolicy) : Prop :=
  ∀ most, p.maxAttempts = some most → 0 < most ∧ most ≤ maxAttemptCount

theorem ConnectPolicy.allowsRetry_min {p : ConnectPolicy} {n : Nat} (hp : p.Countable)
    (hle : ∀ most, p.maxAttempts = some most → n ≤ most) :
    p.allowsRetry (min n maxAttemptCount) = true ↔ p.maxAttempts ≠ some n := by
  unfold allowsRetry
  rcases hmost : p.maxAttempts with _ | most
  · simp
  · have hn := hle most hmost
    have hbound := (hp most hmost).2
    have hmin : min n maxAttemptCount = n := Nat.min_eq_left (Nat.le_trans hn hbound)
    simp only [hmin, decide_eq_true_iff, ne_eq, Option.some.injEq]
    omega

namespace Loop

open Kernel (Launches Lost)
variable {allowed : Happening → Prop} {l l' : Loop} {t id n count : Nat} {c c' : Connection}
  {options : ConnectOptions} {o : Option FailurePoint} {point : FailurePoint} {m m' : Scene}
  {r : Except Fault Unit × Loop}

/-! ## What is counted -/

/-- A connection that has attempted to connect has counted that. -/
theorem Attempts.counted (h : Attempts l t c (.ok (), l')) (hstate : c.state ≠ .closed)
    (hc' : l'.connections.get? t = some c') :
    c'.id = c.id ∧ c'.Counted (min (c.attempts + 1) maxAttemptCount) := by
  cases h with
  | @made progress k hacts hsettled hconnect =>
      have hcounts := Link.counts_connect (l := l.link c) hstate
      have hpolicy : k.conn.policy = c.policy := congrArg (·.2.2.2.2.1) hacts.leads.identity_eq
      have hopen : progress ≠ .closed := by
        rintro rfl
        exact absurd rfl (slot_remove hc').1
      obtain rfl := hacts.eq_of_slot hc'
      rw [hconnect] at hcounts
      exact ⟨id_eq hacts.leads, Link.counted_of_settled (hpolicy ▸ hcounts) hsettled hopen nofun⟩

/-- An event is no attempt, whether it concludes one or not. -/
theorem Sound.counted_handle (h : l.Sound) {event : Event}
    (hc : l.connections.get? event.token = some c) (hcounted : c.Counted n)
    (hhandle : l.handle event = (.ok (), l')) (hc' : l'.connections.get? event.token = some c') :
    c'.id = c.id ∧ c'.Counted n := by
  rcases (h.shape event.token c hc).alive with hstate | hstate
  · have hslot := get?_settleAttempt (r := (l.link c).finishConnect event) hc event.token
    have hcounts := Link.counts_finishConnect (l.link c) event
    have hleads := (Link.Leaves.refl (h.coherent.lives hc).link).finishConnect event
    rw [← handle_of_connecting hc hstate, hhandle, if_pos rfl, hc'] at hslot
    rw [handle_of_connecting hc hstate] at hhandle
    rcases hr : (l.link c).finishConnect event with ⟨fault | progress, k⟩ <;>
      rw [hr] at hslot hhandle hcounts hleads
    · cases hhandle
    · have hsettled : Settled c.retryAt progress k :=
        Link.settled_finishConnect (h.shape event.token c hc) hstate event hr
      have hpolicy : k.conn.policy = c.policy := congrArg (·.2.2.2.2.1) hleads.identity_eq
      have hopen : progress ≠ .closed := by
        rintro rfl
        cases hslot
      have hsome : some c' = some k.conn := hslot.trans (if_neg (mt Except.ok.inj hopen))
      obtain rfl : c' = k.conn := Option.some.inj hsome
      have hcounts : Link.Counts c.policy n (.ok progress, k) := hcounted.attempts_eq ▸ hcounts
      exact ⟨id_eq hleads, Link.counted_of_settled (hpolicy ▸ hcounts) hsettled hopen
        (hpolicy ▸ hcounted.allowed)⟩
  · obtain ⟨s, hs, _, _⟩ := h.connected hc hstate
    rcases h.weathers_or_lost hc hstate hs hhandle with ⟨_, _, _, hslot⟩ | ⟨hnone, _⟩
    · cases hc'.symm.trans hslot
      exact ⟨rfl, hcounted.attempts_eq, hcounted.allowed⟩
    · cases hc'.symm.trans hnone

/-- A connection is left in the table only if there is no fault. -/
theorem slot_following {later : List Appointment} (h : (Scene.following later r).loop.Coherent)
    (hc : (Scene.following later r).loop.connections.get? t = some c) :
    ∃ l', r = (.ok (), l') ∧ l'.connections.get? t = some c := by
  rcases r with ⟨fault | _, l'⟩
  · cases ((h.ended (ended_drop l')).1 t).symm.trans hc
  · exact ⟨l', rfl, hc⟩

/-! ## The count over a run -/

/-- Connection number `id` was requested with `options` and has made `n` attempts. -/
structure Tally (id : Nat) (options : ConnectOptions) (n : Nat) (l : Loop) : Prop where
  asRequested : ∃ address handler, AsRequested id address handler options l
  counted : ∀ t c, l.connections.get? t = some c → c.id = id → c.Counted (min n maxAttemptCount)
  /-- It makes none before its request is taken. -/
  awaits : id ∈ requestedIds l.channel → n = 0
  le : ∀ most, options.policy.maxAttempts = some most → n ≤ most

namespace Tally

theorem policy_eq (h : Tally id options n l) (hc : l.connections.get? t = some c)
    (hid : c.id = id) : c.policy = options.policy :=
  have ⟨_, _, hrequested⟩ := h.asRequested
  congrArg (·.2.2.2.2.1) (hrequested.here t c hc hid)

/-- The attempts made after an attempt is begun or concluded are within the limit, and counted. -/
theorem tries (h : Tally id options n l) (hl : l.Sound) (hp : options.policy.Countable)
    (htries : Tries l t c count o r) (hid : c.id = id) : c.policy = options.policy ∧
      count = min (n + Kernel.launches l.kernel r.2.kernel) maxAttemptCount ∧
      ∀ most, options.policy.maxAttempts = some most →
        n + Kernel.launches l.kernel r.2.kernel ≤ most := by
  cases htries with
  | @request _ address handler options' later hchannel hfeasible =>
      subst hid
      have hmem : .connect _ address handler options' ∈ l.channel :=
        hchannel ▸ List.mem_cons_self
      obtain ⟨_, _, hrequested⟩ := h.asRequested
      obtain ⟨-, -, rfl⟩ := hrequested.ahead address handler options' hmem
      have hn : n = 0 := h.awaits (List.mem_filterMap.2 ⟨_, hmem, rfl⟩)
      rw [(hl.launches_request hchannel hfeasible).launches_eq, hn]
      exact ⟨rfl, rfl, fun most hmost => (hp most hmost).1⟩
  | @retry due _ hc hdue =>
      have hpolicy := h.policy_eq hc hid
      obtain ⟨hattempts, hallowed⟩ := h.counted due.token c hc hid
      have hallowed := hallowed due.deadline hdue
      rw [hpolicy, ConnectPolicy.allowsRetry_min hp h.le] at hallowed
      rw [(hl.launches_retry hc hdue).launches_eq, hattempts]
      refine ⟨hpolicy, by omega, fun most hmost => ?_⟩
      have hle := h.le most hmost
      have hne : n ≠ most := fun heq => hallowed (heq ▸ hmost)
      omega
  | @event event _ s hc _ _ =>
      have hattempts := (h.counted event.token c hc hid).attempts_eq
      rw [(hl.launches_handle event).launches_eq]
      exact ⟨h.policy_eq hc hid, hattempts, h.le⟩

/-- An attempt is counted, by whatever connection with its number there is then. -/
theorem counted_attempts {l₁ : Loop} {t' : Nat} (hl₁ : l₁.Coherent)
    (hc : l₁.connections.get? t = some c) (hstate : c.state ≠ .closed)
    (hattempts : Attempts l₁ t c (.ok (), l')) (hc' : l'.connections.get? t' = some c')
    (hid : c'.id = c.id) : c'.Counted (min (c.attempts + 1) maxAttemptCount) := by
  by_cases ht : t' = t
  · subst ht
    exact (hattempts.counted hstate hc').2
  · have hother : l₁.connections.get? t' = some c' := by
      cases hattempts with
      | made hacts _ _ => exact (hacts.get?_other ht).symm.trans hc'
    exact absurd (hl₁.slot_eq hother hc hid) ht

theorem counted_makes (h : Tally id options n m.loop) (hl : m.loop.Sound) (hl' : m'.loop.Sound)
    (hmakes : MakesAttempt id m m') (hc' : m'.loop.connections.get? t = some c')
    (hid : c'.id = id) : c'.Counted (min (n + 1) maxAttemptCount) := by
  cases hmakes with
  | @first l address handler options' later hchannel _ =>
      have hrequested : id ∈ requestedIds l.channel := by
        rw [hchannel]
        exact List.mem_cons_self
      have hslot := get?_enrol_self (l := { l with channel := later }) hl.coherent.table id
        (requested id address handler options')
      obtain ⟨l', hobey, hc'⟩ := slot_following hl'.coherent hc'
      have hobeys := hl.obeys hchannel
      rw [hobey] at hobeys
      rw [h.awaits hrequested]
      cases hobeys with
      | connect hattempts =>
          exact counted_attempts (hl.enrol_requested hchannel).coherent hslot nofun hattempts
            hc' hid
  | @again l due c later hc hcid hdue =>
      obtain ⟨l', hretry, hc'⟩ := slot_following hl'.coherent hc'
      have hretries := hl.retries due
      rw [hretry] at hretries
      have hstate : c.state ≠ .closed := (hl.shape due.token c hc).state_ne_closed
      have hcount : min (min n maxAttemptCount + 1) maxAttemptCount =
        min (n + 1) maxAttemptCount := by
        omega
      rw [← hcount, ← (h.counted due.token c hc hcid).attempts_eq]
      cases hretries with
      | @attempt c₁ _ _ hattempts =>
          have hc₁ : l.connections.get? due.token = some c₁ := by
            cases hattempts with
            | made hacts _ _ => exact hacts.slot
          cases hc.symm.trans hc₁
          exact counted_attempts hl.coherent hc hstate hattempts hc' (hid.trans hcid.symm)
      | outdated hnot => exact absurd hdue (hnot c hc)

/-- A connection that has made an attempt is not requested any more. -/
theorem not_requested_of_makes (h : Tally id options n m.loop) (hl : m.loop.Sound)
    (hl' : m'.loop.Sound) (hnext : Next allowed m m') (hmakes : MakesAttempt id m m') :
    id ∉ requestedIds m'.loop.channel := by
  intro hid
  obtain ⟨_, _, hrequested⟩ := h.asRequested
  have hbefore := hnext.requested_of_lt hl hrequested.id_lt hid
  cases hmakes with
  | @first l address handler options' later hchannel _ =>
      have hkept := keeps_obey { l with channel := later } (.connect id address handler options')
      have hended := hl'.coherent.ended
      generalize Loop.obey { l with channel := later } (.connect id address handler options') = r
        at hkept hended hid
      rcases r with ⟨fault | _, l'⟩
      · have hnil :
            (Scene.following [] ((.error fault : Except Fault Unit), l')).loop.channel = [] :=
          (hended (ended_drop l')).2
        rw [hnil] at hid
        cases hid
      · have hlater : l'.channel = later := hkept.channel_eq
        exact (hl.coherent.awaits hchannel).2.2.1 (hlater ▸ hid)
  | again hc hcid _ => exact hl.coherent.unowned_of_requested hbefore _ _ hc hcid

/-- Where a connection makes no attempt, it counts none. -/
theorem counted_rests (h : Tally id options n m.loop) (hl : m.loop.Sound) (hl' : m'.loop.Sound)
    (hnext : Next allowed m m') (hnot : ¬ MakesAttempt id m m')
    (hc' : m'.loop.connections.get? t = some c') (hid : c'.id = id) :
    c'.Counted (min n maxAttemptCount) := by
  rcases hnext.stems hl hc' with ⟨c, hc, hcid⟩ | hrequested
  · have hcounted := h.counted t c hc (hcid.trans hid)
    cases hl.coherent.fares hnext hc with
    | rests hslot =>
        cases hslot.symm.trans hc'
        exact hcounted
    | watched hslot =>
        obtain ⟨registered, hconn⟩ := (m.loop.link c).conn_rearm
        rw [hconn] at hslot
        cases hslot.symm.trans hc'
        exact ⟨hcounted.attempts_eq, hcounted.allowed⟩
    | closed _ _ hslot => cases hslot.symm.trans hc'
    | @retried l l' due later htoken hdue hretry =>
        have hmakes : MakesAttempt id ⟨l, due :: later, []⟩ (.following later (l.retry due)) :=
          .again (htoken ▸ hc) (hcid.trans hid) hdue
        rw [hretry] at hmakes
        exact absurd hmakes hnot
    | handled htoken hhandle =>
        subst htoken
        exact (hl.counted_handle hc hcounted hhandle hc').2
    | ended hended => cases ((hl'.coherent.ended hended).1 t).symm.trans hc'
  · rw [hid] at hrequested
    cases hnext.bides hrequested with
    | waits hwaits => exact absurd hid (hl'.coherent.unowned_of_requested hwaits t c' hc')
    | taken hchannel hfeasible hobey =>
        have hmakes := MakesAttempt.first hchannel hfeasible
        rw [hobey] at hmakes
        exact absurd hmakes hnot
    | ended hended => cases ((hl'.coherent.ended hended).1 t).symm.trans hc'

/-- An attempt is made within the limit. -/
theorem le_of_makes (h : Tally id options n m.loop) (hl : m.loop.Sound)
    (hp : options.policy.Countable)
    (hmakes : MakesAttempt id m m') {most : Nat} (hmost : options.policy.maxAttempts = some most) :
    n + 1 ≤ most := by
  cases hmakes with
  | first hchannel hfeasible =>
      have hle := (h.tries hl hp (.request hchannel hfeasible) rfl).2.2 most hmost
      rwa [(hl.launches_request hchannel hfeasible).launches_eq] at hle
  | again hc hid hdue =>
      have hle := (h.tries hl hp (.retry hc hdue) hid).2.2 most hmost
      rwa [(hl.launches_retry hc hdue).launches_eq] at hle

theorem next (h : Tally id options n m.loop) (hl : m.loop.Sound) (hp : options.policy.Countable)
    (hnext : Next allowed m m') : Tally id options (n + attemptsOf id m m') m'.loop := by
  have hl' := hl.next hnext
  have hadvance : Advance allowed (fun _ _ _ => True) m.loop m'.loop :=
    hnext.advances hl (fun _ _ _ _ => trivial) fun _ _ _ _ _ => trivial
  have hrequested : ∃ address handler, AsRequested id address handler options m'.loop :=
    h.asRequested.imp fun _ => .imp fun _ hrequested => hrequested.advance hl.coherent hadvance
  by_cases hmakes : MakesAttempt id m m'
  · rw [hmakes.attemptsOf_eq hl]
    refine ⟨hrequested, fun t c => h.counted_makes hl hl' hmakes, fun hid => ?_,
      fun most => h.le_of_makes hl hp hmakes⟩
    exact absurd hid (h.not_requested_of_makes hl hl' hnext hmakes)
  · rw [hnext.attemptsOf_eq_zero hl hmakes, Nat.add_zero]
    refine ⟨hrequested, fun t c => h.counted_rests hl hl' hnext hmakes, fun hid => ?_, h.le⟩
    obtain ⟨_, _, hrequested⟩ := h.asRequested
    exact h.awaits (hnext.requested_of_lt hl hrequested.id_lt hid)

theorem attempted (h : Tally id options 0 m.loop) (hl : m.loop.Sound)
    (hp : options.policy.Countable)
    (hm : Attempted allowed id m n m') : Tally id options n m'.loop := by
  induction hm with
  | refl => exact h
  | next hbefore hnext hmore ih => exact hmore ▸ ih.next (hl.course hbefore.course) hp hnext

end Tally

/-- A connection that was just requested. -/
theorem tally_request (h : l.Addressed) (hl : l.Coherent) {address : Address} {handler : Handler}
    (hrequest : l.request (.connect address handler options) = (.connected (.ok id), l')) :
    Tally id options 0 l' := by
  have hasks := asks_request l (.connect address handler options)
  have ⟨hrequested, hid⟩ := asRequested_request h hl hrequest
  rw [hrequest] at hasks
  refine ⟨⟨_, _, hrequested⟩, fun t c hc hcid => ?_, fun _ => rfl, fun _ _ => Nat.zero_le _⟩
  have hlt := (hl.lives (hasks.connections_eq ▸ hc)).id_lt
  exact absurd (hcid.trans hid) (Nat.ne_of_lt hlt)

/-! ## Failures -/

/-- What comes of attempt `count` of connection `c` in slot `t` of `l` when it has failed, by policy
`p` and the number `made` of attempts made: the last one that the policy allows closes the
connection, and after any other one it waits. There is a fault where the next one could be due only
after the last deadline. -/
structure FailsWithin (p : ConnectPolicy) (made : Nat) (l : Loop) (t count : Nat) (c : Connection)
    (r : Except Fault Unit × Loop) : Prop where
  givesUp : p.maxAttempts = some made → r.1 = .ok () ∧ GivenUp l t c r.2
  waits : p.maxAttempts ≠ some made → l.now.after (p.backoff count) ≤ Instant.lastDeadline →
    r.1 = .ok () ∧ WaitsAgain l t count c (l.now.after (p.backoff count)) r.2
  faults : p.maxAttempts ≠ some made → Instant.lastDeadline < l.now.after (p.backoff count) →
    r.1 = .error .deadline

theorem Tally.fails (h : Tally id options n l) (hl : l.Sound) (hp : options.policy.Countable)
    (hwhole : l.EveryQueue SendQueue.HeadWhole) (htries : Tries l t c count (some point) r)
    (hid : c.id = id) :
    FailsWithin options.policy (n + Kernel.launches l.kernel r.2.kernel) l t count c r := by
  obtain ⟨hpolicy, hcount, hle⟩ := h.tries hl hp htries hid
  have hundoes : Undoes l t count c r := hl.comesTo hwhole htries
  have hallows : c.policy.allowsRetry count = true ↔
      options.policy.maxAttempts ≠ some (n + Kernel.launches l.kernel r.2.kernel) := by
    rw [hpolicy, hcount]
    exact ConnectPolicy.allowsRetry_min hp hle
  rw [← hpolicy] at hallows ⊢
  constructor
  · intro hlast
    exact hundoes.givesUp (Bool.eq_false_iff.2 fun hallowed => hallows.1 hallowed hlast)
  · intro hmore
    exact hundoes.waits (hallows.2 hmore)
  · intro hmore
    exact hundoes.faults (hallows.2 hmore)

/-! ## Departures -/

/-- Connection number `id` is there: it was requested and is still to be taken up, or it
is in the table. -/
def Knows (l : Loop) (id : Nat) : Prop :=
  id ∈ requestedIds l.channel ∨ ∃ t c, l.connections.get? t = some c ∧ c.id = id

/-- How connection number `id`, with policy `p` and after `n` attempts, goes away
between two scenes. -/
inductive Departs (id : Nat) (p : ConnectPolicy) (n : Nat) : Scene → Scene → Prop where
  /-- An attempt has failed, the last one that the policy allows. -/
  | givenUp {m m' : Scene} {t count : Nat} {c : Connection} {point : FailurePoint}
      (htries : Tries m.loop t c count (some point) (.ok (), m'.loop)) (hid : c.id = id)
      (hlast : p.maxAttempts = some (n + Kernel.launches m.loop.kernel m'.loop.kernel)) :
      Departs id p n m m'
  /-- It was established, and was taken away as such connections are. -/
  | takenAway {m m' : Scene} {t : Nat} {s : SocketId} (hup : StaysUp t id s m.loop)
      (htaken : TakesAway t id s m m') : Departs id p n m m'
  | closed {l l' : Loop} {later : List Command} (hchannel : l.channel = .close id :: later)
      (hobey : { l with channel := later }.obey (.close id) = (.ok (), l')) :
      Departs id p n ⟨l, [], []⟩ ⟨l', [], []⟩
  | ended {m m' : Scene} (hended : m'.loop.ended = true) : Departs id p n m m'

/-- A connection that waits for its next attempt lets an event pass. -/
theorem get?_handle_of_waiting {event : Event} (hc : l.connections.get? event.token = some c)
    (hstate : c.state = .connecting) (hs : c.socket = none)
    (hhandle : l.handle event = (.ok (), l')) : l'.connections.get? event.token = some c := by
  have hpasses : (l.link c).finishConnect event = (.ok .ongoing, l.link c) := by
    have hnone : (l.link c).conn.socket = none := hs
    rw [Link.finishConnect, hnone]
  have hslot := get?_settleAttempt (r := (l.link c).finishConnect event) hc event.token
  have hopen : (Except.ok .ongoing : Except Fault Progress) ≠ .ok .closed := by simp
  rw [← handle_of_connecting hc hstate, hhandle, if_pos rfl, hpasses, if_neg hopen] at hslot
  exact hslot

/-- Whatever an attempt leaves in its slot is the connection that made it. -/
theorem Tries.id_eq (h : Tries l t c count o r) (hl : l.Sound) (hok : r.1 = .ok ())
    (hc' : r.2.connections.get? t = some c') : c'.id = c.id := by
  cases h with
  | @request id address handler options later hchannel _ =>
      have hobeys := hl.obeys hchannel
      generalize
        Loop.obey { l with channel := later } (.connect id address handler options) = result
        at hobeys hok hc'
      obtain ⟨_, l'⟩ := result
      cases hok
      cases hobeys with
      | connect hattempts => exact (hattempts.counted nofun hc').1
  | @retry due _ hc _ =>
      have hnext : Next (fun _ => True) ⟨l, [due], []⟩ ⟨(l.retry due).2, [], []⟩ :=
        .retry [] (Prod.ext hok rfl)
      exact hnext.id_eq_of_slot hl hc hc'
  | @event event _ _ hc _ _ =>
      have hnext : Next (fun _ => True) ⟨l, [], [event]⟩ ⟨(l.handle event).2, [], []⟩ :=
        .handle [] (Prod.ext hok rfl)
      exact hnext.id_eq_of_slot hl hc hc'

namespace Tally

/-- A connection that goes away by an attempt has made its last one, and failed. -/
theorem departs_tries (m m' : Scene) (h : Tally id options n m.loop) (hl : m.loop.Sound)
    (hp : options.policy.Countable) (hwhole : m.loop.EveryQueue SendQueue.HeadWhole)
    (htries : Tries m.loop t c count o (.ok (), m'.loop)) (hid : c.id = id)
    (hgone : ¬ m'.loop.Knows id) : Departs id options.policy n m m' := by
  rcases o with _ | point
  · obtain ⟨_, c', s, hc', _, _⟩ := hl.comesTo hwhole htries
    exact absurd (.inr ⟨t, c', hc', (htries.id_eq hl rfl hc').trans hid⟩) hgone
  · obtain ⟨_, hwaits, hfaults⟩ := h.fails hl hp hwhole htries hid
    by_cases hlast : options.policy.maxAttempts =
        some (n + Kernel.launches m.loop.kernel m'.loop.kernel)
    · exact .givenUp htries hid hlast
    · by_cases hle : m.loop.now.after (options.policy.backoff count) ≤ Instant.lastDeadline
      · obtain ⟨_, hslot, _, _⟩ := hwaits hlast hle
        exact absurd (.inr ⟨t, _, hslot, hid⟩) hgone
      · cases hfaults hlast (Nat.lt_of_not_le hle)

/-- A connection that is only requested can go away by its first attempt, or with the loop. -/
theorem departs_requested (h : Tally id options n m.loop) (hl : m.loop.Sound)
    (hp : options.policy.Countable) (hwhole : m.loop.EveryQueue SendQueue.HeadWhole)
    (hnext : Next allowed m m') (hrequested : id ∈ requestedIds m.loop.channel)
    (hgone : ¬ m'.loop.Knows id) : Departs id options.policy n m m' := by
  cases hnext.bides hrequested with
  | waits hwaits => exact absurd (.inl hwaits) hgone
  | @taken l l' address handler options' later hchannel hfeasible hobey =>
      have htries := Tries.request hchannel hfeasible
      rw [hobey] at htries
      exact h.departs_tries ⟨l, [], []⟩ ⟨l', [], []⟩ hl hp hwhole htries rfl hgone
  | ended hended => exact .ended hended

/-- A connection that is connecting can go away by an attempt besides, or by a command. -/
theorem departs_connecting (h : Tally id options n m.loop) (hl : m.loop.Sound)
    (hp : options.policy.Countable) (hwhole : m.loop.EveryQueue SendQueue.HeadWhole)
    (hnext : Next allowed m m') (hc : m.loop.connections.get? t = some c) (hid : c.id = id)
    (hstate : c.state = .connecting) (hgone : ¬ m'.loop.Knows id) :
    Departs id options.policy n m m' := by
  have hstays {c' : Connection} (hc' : m'.loop.connections.get? t = some c') :
      Departs id options.policy n m m' :=
    absurd (.inr ⟨t, c', hc', (hnext.id_eq_of_slot hl hc hc').trans hid⟩) hgone
  cases hl.coherent.fares hnext hc with
  | rests hslot | watched hslot => exact hstays hslot
  | closed hchannel hobey _ =>
      subst hid
      exact .closed hchannel hobey
  | @retried l l' due later htoken hdue hretry =>
      subst htoken
      have htries := Tries.retry hc hdue
      rw [hretry] at htries
      exact h.departs_tries ⟨l, due :: later, []⟩ ⟨l', later, []⟩ hl hp hwhole htries hid hgone
  | @handled l l' event later htoken hhandle =>
      subst htoken
      rcases hs : c.socket with _ | s
      · exact hstays (get?_handle_of_waiting hc hstate hs hhandle)
      · have htries := Tries.event hc hstate hs
        rw [hhandle] at htries
        exact h.departs_tries ⟨l, [], event :: later⟩ ⟨l', [], later⟩ hl hp hwhole htries hid hgone
  | ended hended => exact .ended hended

theorem departs (h : Tally id options n m.loop) (hl : m.loop.Sound) (hp : options.policy.Countable)
    (hwhole : m.loop.EveryQueue SendQueue.HeadWhole) (hnext : Next allowed m m')
    (hknown : m.loop.Knows id) (hgone : ¬ m'.loop.Knows id) : Departs id options.policy n m m' := by
  rcases hknown with hrequested | ⟨t, c, hc, hid⟩
  · exact h.departs_requested hl hp hwhole hnext hrequested hgone
  · rcases (hl.shape t c hc).alive with hstate | hstate
    · exact h.departs_connecting hl hp hwhole hnext hc hid hstate hgone
    · obtain ⟨s, hs, _, _⟩ := hl.connected hc hstate
      have hup : StaysUp t id s m.loop := ⟨c, hc, hid, hstate, hs⟩
      rcases hl.stays_or_taken hup hnext with ⟨c', hc', hid', _⟩ | htaken
      · exact absurd (.inr ⟨t, c', hc', hid'⟩) hgone
      · exact .takenAway hup htaken

end Tally

/-! ## Over a run -/

/-- What the limit of policy `p` comes to for connection number `id`, which has made `n`
attempts by scene `m`. -/
structure Limited (allowed : Happening → Prop) (id : Nat) (p : ConnectPolicy) (n : Nat)
    (m : Scene) : Prop where
  le : ∀ most, p.maxAttempts = some most → n ≤ most
  fails : ∀ t c count point r, Tries m.loop t c count (some point) r → c.id = id →
    FailsWithin p (n + Kernel.launches m.loop.kernel r.2.kernel) m.loop t count c r
  departs : ∀ m', Next allowed m m' → m.loop.Knows id → ¬ m'.loop.Knows id → Departs id p n m m'

/--
**The limit of attempts is exact.** In every scene of a run after a connection was requested,
whatever events there were, whichever slots were given out again and whatever the agenda held: if
its policy sets a limit, the connection has made so many attempts at most, an attempt that got no
socket being one. The attempt that reaches the limit closes it if it fails. Any other attempt that
fails leaves it waiting for the next one, unless that could be due only after the last deadline,
which is a fault of the loop. And whenever the connection goes away, an attempt that reaches the
limit has failed just then; or it was established and was taken away as such connections are, a
command closes it, or the loop is over.
-/
theorem Started.limits_attempts (h : l.Started) {m₀ m : Scene} {address : Address}
    {handler : Handler} (hbefore : Course allowed ⟨l, [], []⟩ m₀)
    (hrequest : m₀.loop.request (.connect address handler options) = (.connected (.ok id), l'))
    (hp : options.policy.Countable) (hm : Attempted allowed id ⟨l', m₀.due, m₀.events⟩ n m) :
    Limited allowed id options.policy n m := by
  have hsound : m₀.loop.Sound := h.sound.course (m := ⟨l, [], []⟩) hbefore
  have hrequested : Next allowed m₀ ⟨l', m₀.due, m₀.events⟩ := by
    have hnext : Next allowed m₀ _ :=
      .request m₀.loop (.connect address handler options) m₀.due m₀.events
    rwa [hrequest] at hnext
  have hcourse : Course allowed ⟨l, [], []⟩ m := (hbefore.tail hrequested).trans hm.course
  have hl : m.loop.Sound := h.sound.course (m := ⟨l, [], []⟩) hcourse
  have hwhole := h.everyQueue SendQueue.invariant_headWhole hcourse
  have htally : Tally id options n m.loop :=
    (tally_request (h.addressed_course hbefore) hsound.coherent hrequest).attempted
      (m := ⟨l', m₀.due, m₀.events⟩) (hsound.next hrequested) hp hm
  exact ⟨htally.le, fun t c count point r htries hid => htally.fails hl hp hwhole htries hid,
    fun m' hnext => htally.departs hl hp hwhole hnext⟩

/-- Two attempts are allowed and both are refused: after the first one the connection waits, and the
second one closes it. -/
theorem Started.limits_attempts_of_two :
    let l : Loop := { kernel := { plans := [{ connect := .fails .connectionRefused },
      { connect := .fails .connectionRefused }] } }
    let options : ConnectOptions :=
      { policy := { ConnectPolicy.immediate with maxAttempts := some 2 } }
    let l₁ := (l.request (.connect default {} options)).2
    let l₂ := (obey { l₁ with channel := [] } (.connect 0 default {} options)).2
    let due : Appointment := ⟨l₂.now, 0⟩
    let m : Scene := ⟨{ l₂ with agenda := (l₂.agenda.takeDue l₂.now).2 }, [due], []⟩
    l.Started ∧ Course (fun _ => True) ⟨l, [], []⟩ ⟨l, [], []⟩ ∧
      l.request (.connect default {} options) = (.connected (.ok 0), l₁) ∧
      options.policy.Countable ∧
      Attempted (fun _ => True) 0 ⟨l₁, [], []⟩ 1 m ∧ Limited (fun _ => True) 0 options.policy 1 m ∧
      (m.loop.connections.get? 0).map Connection.state = some .connecting ∧
      ∃ c, Tries m.loop 0 c 2 (some .connect) (m.loop.retry due) ∧
        (m.loop.retry due).1 = .ok () ∧ GivenUp m.loop 0 c (m.loop.retry due).2 := by
  intro l options l₁ l₂ due m
  have hstarted : l.Started := ⟨{}, l.kernel, ⟨rfl, rfl, rfl⟩, rfl⟩
  have hcountable : options.policy.Countable := by
    intro most hmost
    cases hmost
    decide
  have hchannel : l₁.channel = [.connect 0 default {} options] := rfl
  have hok : (obey { l₁ with channel := [] } (.connect 0 default {} options)).1 = .ok () := by
    decide +kernel
  have hobeys : obey { l₁ with channel := [] } (.connect 0 default {} options) = (.ok (), l₂) := by
    rw [← hok]
  have hobey : Next (fun _ => True) ⟨l₁, [], []⟩ ⟨l₂, [], []⟩ := .obey hchannel hobeys
  have htakes : (l₂.agenda.takeDue l₂.now).1 = [due] := by decide +kernel
  have htakeDue : Next (fun _ => True) ⟨l₂, [], []⟩ m := by
    have hnext : Next (fun _ => True) ⟨l₂, [], []⟩ _ := .takeDue l₂
    rwa [htakes] at hnext
  have hnext (more : Nat) {n : Nat} {m₁ m₂ : Scene}
    (h : Attempted (fun _ => True) 0 ⟨l₁, [], []⟩ n m₁)
      (hnext : Next (fun _ => True) m₁ m₂) (hmore : attemptsOf 0 m₁ m₂ = more) :
      Attempted (fun _ => True) 0 ⟨l₁, [], []⟩ (n + more) m₂ := h.next hnext hmore
  have hfirst := hnext 1 .refl hobey (by decide +kernel)
  have hattempted : Attempted (fun _ => True) 0 ⟨l₁, [], []⟩ 1 m :=
    hnext 0 hfirst htakeDue (by decide +kernel)
  have hlimited : Limited (fun _ => True) 0 options.policy 1 m :=
    hstarted.limits_attempts .refl rfl hcountable hattempted
  have hslot : ∃ c, m.loop.connections.get? 0 = some c :=
    Option.isSome_iff_exists.1 (by decide +kernel)
  have hfacts : ∀ c ∈ m.loop.connections.get? 0,
      c.id = 0 ∧ c.retryAt = some due.deadline ∧ c.attempts = 1 := by decide +kernel
  have hstate : (m.loop.connections.get? 0).map Connection.state = some .connecting := by
    decide +kernel
  have hobstacle : m.loop.kernel.obstacle? = some .connect := by decide +kernel
  have hlaunches : 1 + Kernel.launches m.loop.kernel (m.loop.retry due).2.kernel = 2 := by
    decide +kernel
  clear_value m
  obtain ⟨c, hc⟩ := hslot
  obtain ⟨hid, hdue, hattempts⟩ := hfacts c hc
  have htries : Tries m.loop 0 c (min (c.attempts + 1) maxAttemptCount) m.loop.kernel.obstacle?
      (m.loop.retry due) := .retry hc hdue
  rw [hattempts, hobstacle] at htries
  have hfails := hlimited.fails 0 c _ _ _ htries hid
  rw [hlaunches] at hfails
  obtain ⟨hok, hgivenUp⟩ := hfails.givesUp rfl
  exact ⟨hstarted, .refl, rfl, hcountable, hattempted, hlimited, hstate, c, htries, hok, hgivenUp⟩

/-- The policy sets no limit, but the wait after the first attempt has no end. That attempt fails,
and the connection is closed. -/
theorem Started.not_limited_of_endless_wait :
    let l : Loop := { kernel := { plans := [{ connect := .fails .connectionRefused }] } }
    let endless : ConnectOptions :=
      { policy := { initialBackoff := .longest, maxBackoff := .longest } }
    let m := l.after [.request (.connect default {} endless), .turn]
    l.Started ∧ Course (fun _ => True) ⟨l, [], []⟩ ⟨m, [], []⟩ ∧ endless.policy.maxAttempts = none ∧
      Kernel.launches l.kernel m.kernel = 1 ∧
      m.journal.callbacks.toList.map Callback.heard = [.state .connecting, .state .closed] ∧
      m.ended = true := by
  intro l endless m
  have hstarted : l.Started := ⟨{}, l.kernel, ⟨rfl, rfl, rfl⟩, rfl⟩
  have hm : Course (fun _ => True) ⟨l, [], []⟩ ⟨m, [], []⟩ := course_after l _ fun _ _ => trivial
  exact ⟨hstarted, hm, rfl, by decide +kernel, by decide +kernel, by decide +kernel⟩

end Loop

end TextLink
