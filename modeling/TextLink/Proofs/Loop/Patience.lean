import TextLink.Proofs.Backoff
import TextLink.Proofs.Connection.Attempting
import TextLink.Proofs.Connection.Setbacks
import TextLink.Proofs.Loop.Stances

/-!
# How long a connection waits

A connection waits from the moment its attempt has failed, for as long as its policy says after so
many attempts (`Connection.Patient`). Whoever attempts, and whatever an event concludes, that is
so after every move.

A wait that is over has therefore not lasted longer than the clock has run, and the next one is at
most twice as long. So it has a deadline, as long as the clock shows at most a third of the last
one. Only the wait after a first attempt can be too long then.

## Main results

* `Connection.Patient.next_le` — when the next wait is over at the latest.
* `Patient.moves` — everybody waits as the policy says, after any moves.
-/

namespace TextLink

/-- The connection has counted an attempt while it is connecting; and it waits, if at all, since
some moment and for as long as its policy says. -/
structure Connection.Patient (c : Connection) : Prop where
  tried : c.state = .connecting → c.attempts ≠ 0
  waits : ∀ d, c.retryAt = some d → ∃ since : Instant, d = since.after (c.policy.backoff c.attempts)

/-- If a wait is over and another attempt fails, the next wait is over before the clock shows
three times as much. -/
theorem Connection.Patient.next_le {c : Connection} (h : c.Patient) (hstate : c.state = .connecting)
    {d now : Instant} (hd : c.retryAt = some d) (hdue : d ≤ now) :
    (now.after (c.policy.backoff (min (c.attempts + 1) maxAttemptCount))).nanos ≤
      3 * now.nanos := by
  obtain ⟨since, rfl⟩ := h.waits d hd
  have hover : since.nanos + (c.policy.backoff c.attempts).nanos ≤ now.nanos := hdue
  have hnext := ConnectPolicy.nanos_backoff_succ_le (p := c.policy) (h.tried hstate)
  have hcount := ConnectPolicy.nanos_backoff_mono (p := c.policy)
    (Nat.min_le_left (c.attempts + 1) maxAttemptCount)
  show now.nanos + (c.policy.backoff (min (c.attempts + 1) maxAttemptCount)).nanos ≤ _
  omega

/-! ## Connections that act -/

namespace Link

variable {l k : Link} {c : Connection} {progress : Progress} {n : Nat}

/-- A connection that is not closed by an attempt is patient, if that counts as number `n`. -/
theorem patient_of_settled {now : Instant} {due : Option Instant} (hn : n ≠ 0)
    (hput : PutsOff { c with attempts := n } now (.ok progress, k))
    (hcounts : Counts c.policy n (.ok progress, k)) (hpolicy : k.conn.policy = c.policy)
    (hsettled : Settled due progress k) (hopen : progress ≠ .closed)
    (hdue : ∀ d, due = some d → ∃ since : Instant, d = since.after (c.policy.backoff n)) :
    k.conn.Patient := by
  cases progress with
  | ongoing =>
      have hattempts : k.conn.attempts = n := hcounts
      refine ⟨fun _ => hattempts ▸ hn, fun d hd => ?_⟩
      rw [hpolicy, hattempts]
      rcases hsettled.2 with hnone | hsame
      · cases hnone.symm.trans hd
      · exact hdue d (hsame.symm.trans hd)
  | retry deadline =>
      have hattempts : k.conn.attempts = n := hcounts.1
      refine ⟨fun _ => hattempts ▸ hn, fun d hd => ?_⟩
      rw [hpolicy, hattempts]
      obtain rfl : deadline = d := Option.some.inj (hput.2.symm.trans hd)
      exact ⟨now, hput.1⟩
  | closed => exact absurd rfl hopen

theorem patient_connect (hleads : Leads l k) (hstate : l.conn.state ≠ .closed)
    (hconnect : l.connect = (.ok progress, k)) (hsettled : Settled none progress k)
    (hopen : progress ≠ .closed) : k.conn.Patient := by
  have hput := putsOff_connect l
  have hcounts := counts_connect hstate
  have hpolicy : k.conn.policy = l.conn.policy := congrArg (·.2.2.2.2.1) hleads.identity_eq
  rw [hconnect] at hput hcounts
  refine patient_of_settled ?_ hput hcounts hpolicy hsettled hopen nofun
  rw [maxAttemptCount]
  omega

theorem patient_finishConnect (h : l.conn.Patient) (hleads : Leads l k)
    (hstate : l.conn.state = .connecting) {event : Event}
    (hfinish : l.finishConnect event = (.ok progress, k))
    (hsettled : Settled l.conn.retryAt progress k)
    (hopen : progress ≠ .closed) : k.conn.Patient := by
  have hput := putsOff_finishConnect l event
  have hcounts := counts_finishConnect l event
  have hpolicy : k.conn.policy = l.conn.policy := congrArg (·.2.2.2.2.1) hleads.identity_eq
  rw [hfinish] at hput hcounts
  exact patient_of_settled (h.tried hstate) hput hcounts hpolicy hsettled hopen h.waits

/-- What an event leaves, unless it closes the connection or meets a fault. -/
def PatientAfter : Except Setback Progress × Link → Prop
  | (.ok .closed, _) | (.error (.fault _), _) => True
  | (.ok .ongoing, k) | (.ok (.retry _), k) | (.error (.failed _), k) => k.conn.Patient

theorem patient_handleEvent (h : l.conn.Patient) (hl : l.Sound) (hshape : Shape l.conn l.queue)
    (event : Event) : PatientAfter (l.handleEvent event) := by
  rcases hshape.alive with hstate | hstate
  · have hleads := (Leaves.refl hl).finishConnect event
    rw [handleEvent, hstate]
    rcases hfinish : l.finishConnect event with ⟨fault | progress, k⟩ <;> rw [hfinish] at hleads
    · trivial
    · have hpatient := patient_finishConnect h hleads hstate hfinish
        (settled_finishConnect hshape hstate event hfinish)
      cases progress with
      | ongoing | retry _ => exact hpatient (by simp)
      | closed => trivial
  · -- An established connection goes on as it is, and waits for nothing.
    obtain ⟨s, hs, _, hw⟩ := hshape.exists_writer hstate
    have hendures := endures_serve hl hs hw event
    rw [handleEvent_of_connected hstate]
    generalize l.serve event = r at hendures ⊢
    rcases r with ⟨(e | fault) | (_ | deadline | _), k⟩
    · obtain ⟨decoder, stalled, hconn⟩ := Weathers.conn hendures
      have hpatient : k.conn.Patient := hconn ▸ ⟨h.tried, h.waits⟩
      exact hpatient
    · trivial
    · obtain ⟨decoder, stalled, registered, hconn⟩ := hendures
      have hpatient : k.conn.Patient := hconn ▸ ⟨h.tried, h.waits⟩
      exact hpatient
    · cases hendures
    · trivial

end Link

/-! ## Moves -/

namespace Loop

variable {l l' : Loop} {t : Nat} {c : Connection} {k : Link} {progress : Progress}

/-- Every connection is patient, except for the one in slot `t`. -/
def PatientExcept (t : Nat) (l : Loop) : Prop :=
  ∀ t' c, t' ≠ t → l.connections.get? t' = some c → c.Patient

/-- Every connection is patient. -/
def Patient (l : Loop) : Prop := ∀ t c, l.connections.get? t = some c → c.Patient

theorem Vacant.patient (h : l.Vacant) : l.Patient := by
  intro t c hc
  cases (h t).symm.trans hc

theorem Patient.except (h : l.Patient) (t : Nat) : PatientExcept t l := fun t' c _ => h t' c

/-- A connection that is patient after it has acted, or closed. -/
theorem PatientExcept.acts (h : PatientExcept t l) (hacts : Acts l t c progress k)
    (hk : progress ≠ .closed → k.conn.Patient) : Patient ((l.absorb t k).apply t progress) := by
  have habsorbed (hopen : progress ≠ .closed) : Patient (l.absorb t k) := by
    intro t' c' hc'
    rcases slot_absorb hacts.slot hc' with ⟨rfl, rfl⟩ | ⟨hne, hc'⟩
    · exact hk hopen
    · exact h t' c' hne hc'
  cases progress with
  | ongoing => exact habsorbed nofun
  | retry deadline => exact habsorbed nofun
  | closed =>
      intro t' c' hc'
      have ⟨hne, hc'⟩ := slot_remove hc'
      rcases slot_absorb hacts.slot hc' with ⟨ht, _⟩ | ⟨_, hc'⟩
      · exact absurd ht hne
      · exact h t' c' hne hc'

namespace Patient

theorem rearm (h : l.Patient) (hacts : Acts l t c .ongoing (l.link c).rearm.2) :
    Patient (l.absorb t (l.link c).rearm.2) := by
  refine (h.except t).acts hacts fun _ => ?_
  obtain ⟨registered, hconn⟩ := (l.link c).conn_rearm
  rw [hconn]
  have hc : c.Patient := h t c hacts.slot
  exact ⟨hc.tried, hc.waits⟩

theorem obey (h : l.Patient) (hl : l.Sound) {command : Command} {commands : List Command}
    (hchannel : l.channel = command :: commands)
    (hok : { l with channel := commands }.obey command = (.ok (), l')) : l'.Patient := by
  have h' : Patient { l with channel := commands } := h
  have hobeys := hl.obeys hchannel
  rw [hok] at hobeys
  cases hobeys with
  | connect hattempts =>
      cases hattempts with
      | made hacts hsettled hconnect =>
          refine PatientExcept.acts (fun t' c' hne hc' => ?_) hacts
            (Link.patient_connect hacts.leads nofun hconnect hsettled)
          rcases slot_enrol (l := { l with channel := commands }) hl.coherent.table hc' with
            ⟨ht, _⟩ | ⟨_, hc'⟩
          · exact absurd ht hne
          · exact h t' c' hc'
  | flush _ hacts rs => exact h'.rearm hacts
  | close _ hacts => exact (h'.except _).acts hacts (absurd rfl)
  | flushNobody _ | closeNobody _ | shutdown => exact h'

theorem retry (h : l.Patient) (hl : l.Sound) {due : Appointment}
    (hok : l.retry due = (.ok (), l')) : l'.Patient := by
  have hretries := hl.retries due
  rw [hok] at hretries
  cases hretries with
  | attempt _ hattempts =>
      cases hattempts with
      | made hacts hsettled hconnect =>
          have hstate := (hl.shape _ _ hacts.slot).state_ne_closed
          exact (h.except _).acts hacts (Link.patient_connect hacts.leads hstate hconnect hsettled)
  | outdated _ => exact h

theorem handle (h : l.Patient) (hl : l.Sound) {event : Event}
    (hok : l.handle event = (.ok (), l')) : l'.Patient := by
  have hhandles := hl.handles event
  rw [hok] at hhandles
  have hafter {c : Connection} (hc : l.connections.get? event.token = some c) :
      Link.PatientAfter ((l.link c).handleEvent event) :=
    Link.patient_handleEvent (l := l.link c) (h _ c hc) (hl.coherent.lives hc).link
      (hl.shape _ c hc) event
  cases hhandles with
  | nobody _ => exact h
  | @served c progress k hacts hr =>
      have hpatient := hafter hacts.slot
      rw [hr] at hpatient
      refine (h.except _).acts hacts fun hopen => ?_
      cases progress with
      | ongoing | retry _ => exact hpatient
      | closed => exact absurd rfl hopen
  | skipped hacts hr rs =>
      have hpatient := hafter hacts.slot
      rw [hr] at hpatient
      exact (h.except _).acts hacts fun _ => hpatient

theorem move {m m' : Moment} (h : m.loop.Patient) (hl : m.loop.Sound) (hmove : Move m m') :
    m'.loop.Patient := by
  cases hmove with
  | request l r later =>
      have ⟨hconnections, _⟩ := sameSlots_request l r
      intro t c hc
      exact h t c (hconnections ▸ hc)
  | happen | takeDue | idle | note => exact h
  | obey hchannel hok => exact h.obey hl hchannel hok
  | retry later hok => exact h.retry hl hok
  | handle hok => exact h.handle hl hok
  | rearm l token =>
      rcases hl.rearms token with heq | ⟨c, rs, hacts, heq⟩
      · exact heq ▸ h
      · rw [heq]
        exact h.rearm hacts
  | fault later hfault => exact (hfault.ending hl).drop.2.patient
  | finish l => exact hl.ending.closeAll.2.patient
  | drop l => exact hl.ending.drop.2.patient

theorem moves {m m' : Moment} (h : m.loop.Patient) (hl : m.loop.Sound) (hmoves : Moves m m') :
    m'.loop.Patient := by
  induction hmoves with
  | refl => exact h
  | tail hbefore hmove ih => exact ih.move (hl.moves hbefore) hmove

end Patient

end Loop

end TextLink
