import TextLink.Proofs.Connection.Confined
import TextLink.Proofs.Connection.Faults

/-!
# When the next attempt is due

A failed attempt puts the next one off by the wait that the policy says for the attempts made so
far, reckoned from the time of the failure. An attempt faults in no other way than that this moment
is beyond the last deadline (`PutsOff`).

## Main results

* `Link.putsOff_connect`, `Link.putsOff_finishConnect` — what a failed attempt comes to.
* `ConnectPolicy.backoff_pos` — a policy that waits once waits every time.
-/

namespace TextLink

/-! ## The wait -/

namespace ConnectPolicy

variable {p : ConnectPolicy} {n : Nat}

/-- A policy that waits after one failure waits after any number of them. -/
theorem backoff_pos (hn : n ≠ 0) (h : 0 < (p.backoff 1).nanos) : 0 < (p.backoff n).nanos := by
  rw [p.nanos_backoff hn]
  rw [p.nanos_backoff (by decide)] at h
  have hinitial : 0 < p.initialBackoff.nanos := by
    have hle := Nat.lt_of_lt_of_le h (Nat.min_le_left _ _)
    exact Nat.pos_of_mul_pos_right hle
  have hfactor : 0 < 1 <<< min (n - 1) maxDoublings := by
    rw [Nat.one_shiftLeft]
    exact Nat.two_pow_pos _
  have hproduct := Nat.mul_pos hinitial hfactor
  omega

end ConnectPolicy

namespace Link

variable {l l' : Link} {s : SocketId}

/-- The next attempt of connection `c` is put off at `now` by the wait for the attempts it has made;
if that cannot be done, there is a fault. -/
def PutsOff (c : Connection) (now : Instant) : Except Fault Progress × Link → Prop
  | (.ok (.retry deadline), k) => deadline = now.after (c.policy.backoff c.attempts) ∧
      k.conn.retryAt = some deadline
  | (.error _, _) => Instant.lastDeadline < now.after (c.policy.backoff c.attempts)
  | (.ok .ongoing, _) | (.ok .closed, _) => True

/-- `l'` reckons the wait from what `l` reckons it from. -/
structure SameWait (l l' : Link) : Prop where
  policy_eq : l'.conn.policy = l.conn.policy
  attempts_eq : l'.conn.attempts = l.conn.attempts
  clock_eq : l'.kernel.clock = l.kernel.clock

theorem SameWait.trans {l'' : Link} (h : SameWait l l') (h' : SameWait l' l'') : SameWait l l'' :=
  ⟨h'.policy_eq.trans h.policy_eq, h'.attempts_eq.trans h.attempts_eq,
    h'.clock_eq.trans h.clock_eq⟩

theorem SameWait.of_conn {c : Connection} (hconn : l'.conn = c) (hpolicy : c.policy = l.conn.policy)
    (hattempts : c.attempts = l.conn.attempts) (hclock : l'.kernel.clock = l.kernel.clock) :
    SameWait l l' :=
  ⟨hconn ▸ hpolicy, hconn ▸ hattempts, hclock⟩

theorem PutsOff.sameWait {r : Except Fault Progress × Link} (h : PutsOff l'.conn l'.now r)
    (hsame : SameWait l l') : PutsOff l.conn l.now r := by
  have hnow : l'.now = l.now := hsame.clock_eq
  rcases r with ⟨_ | _ | deadline | _, k⟩
  · rwa [PutsOff, hsame.policy_eq, hsame.attempts_eq, hnow] at h
  · trivial
  · rwa [PutsOff, hsame.policy_eq, hsame.attempts_eq, hnow] at h
  · trivial

/-! ## Giving up what was made -/

theorem sameWait_release (l : Link) : SameWait l l.release.suspendQueue := by
  have hconn : l.release.suspendQueue.conn.identity = l.conn.identity := by
    rw [conn_suspendQueue, identity_release]
  have hattempts : l.release.suspendQueue.conn.attempts = l.conn.attempts := by
    rw [conn_suspendQueue]
    unfold release
    split
    · rfl
    · rw [conn_letGo]
  have hclock : l.release.suspendQueue.kernel.clock = l.kernel.clock :=
    (confined_letGo _ _).clock_eq.trans (confined_release l).clock_eq
  exact ⟨congrArg (·.2.2.2.2.1) hconn, hattempts, hclock⟩

theorem putsOff_attemptFailed (l : Link) : PutsOff l.conn l.now l.attemptFailed := by
  have hsame := sameWait_release l
  suffices h : PutsOff l.release.suspendQueue.conn l.release.suspendQueue.now l.attemptFailed from
    h.sameWait hsame
  unfold attemptFailed
  simp only
  generalize l.release.suspendQueue = l₁
  split
  · rcases hdeadline : l₁.retryDeadline with _ | deadline
    · show Instant.lastDeadline.nanos < _
      unfold retryDeadline Instant.deadline? at hdeadline
      split at hdeadline
      · cases hdeadline
      · next hlate => exact Nat.lt_of_not_le hlate
    · exact ⟨(Instant.deadline?_eq_some_iff.1 hdeadline).1, rfl⟩
  · trivial

theorem putsOff_concludeAttempt {r : Except IoError Unit × Link} (h : SameWait l r.2) :
    PutsOff l.conn l.now (concludeAttempt r) := by
  rcases r with ⟨_ | _, l₁⟩
  · exact (putsOff_attemptFailed l₁).sameWait h
  · trivial

/-! ## Attempts -/

theorem sameWait_arm (hs : l.conn.socket = some s) (interest : Interest) :
    SameWait l (l.arm interest).2 := by
  have hclock := (confined_arm l interest).clock_eq
  rcases (arm_cases l hs interest).2 with ⟨_, hconn⟩ | ⟨_, hconn⟩ <;>
    exact .of_conn hconn rfl rfl hclock

theorem sameWait_establish (hs : l.conn.socket = some s) : SameWait l l.establish.2 := by
  have hclock : l.establish.2.kernel.clock = l.kernel.clock := by
    unfold establish
    simp only [hs]
    have hlet := (confined_letGo { l with queue := l.queue.connected s } l.queue.writer).clock_eq
    generalize letGo { l with queue := l.queue.connected s } l.queue.writer = l₁ at hlet
    have harm := (confined_arm l₁ (.serving l₁.queue.hasPending)).clock_eq
    generalize l₁.arm (.serving l₁.queue.hasPending) = r at harm
    rcases r with ⟨_ | _, l₂⟩
    · exact harm.trans hlet
    · exact (congrArg Kernel.clock (kernel_setState l₂ .connected)).trans (harm.trans hlet)
  rcases (establish_cases l hs).2 with ⟨_, hconn⟩ | ⟨_, hconn⟩ <;>
    exact .of_conn hconn rfl rfl hclock

/-- An attempt comes to what is concluded after its last call, when it counts as made. -/
theorem connect_concludes (hstate : l.conn.state ≠ .closed) : ∃ r, l.connect = concludeAttempt r ∧
    SameWait
      { l with conn := { l.conn with attempts := min (l.conn.attempts + 1) maxAttemptCount } }
      r.2 := by
  have hbegin : l.beginAttempt.kernel.clock = l.kernel.clock := by
    rw [beginAttempt, kernel_setState]
    exact (confined_letGo _ _).clock_eq
  have hopened {r : Except Errno (SocketId × Bool)} {k : Kernel}
      (hk : l.beginAttempt.kernel.openStream l.beginAttempt.conn.address = (r, k)) :
      k.clock = l.kernel.clock :=
    (Kernel.clock_of_openStream hk).trans hbegin
  have hadopted {s : SocketId} {isUp : Bool} {k : Kernel}
      (hk : l.beginAttempt.kernel.openStream l.beginAttempt.conn.address = (.ok (s, isUp), k)) :
      SameWait { l with
          conn := { l.conn with attempts := min (l.conn.attempts + 1) maxAttemptCount } }
        (adopt { l.beginAttempt with kernel := k } s) :=
    .of_conn (conn_adopt l k s) rfl rfl ((confined_letGo _ _).clock_eq.trans (hopened hk))
  have hconnects := connects l
  generalize l.connect = r at hconnects
  cases hconnects with
  | closed hclosed => exact absurd hclosed hstate
  | @unmade e k _ hk =>
      exact ⟨(.error (.os e), { l.beginAttempt with kernel := k }), rfl,
        .of_conn (conn_beginAttempt l) rfl rfl (hopened hk)⟩
  | @atOnce s k _ hk =>
      have hs := congrArg Connection.socket (conn_adopt l k s)
      exact ⟨_, rfl, (hadopted hk).trans (sameWait_establish hs)⟩
  | @underWay s k _ hk =>
      have hs := congrArg Connection.socket (conn_adopt l k s)
      exact ⟨_, rfl, (hadopted hk).trans (sameWait_arm hs .writing)⟩

/-- What is left of an attempt when an event has come is concluded after its last call, too. -/
theorem finishConnect_concludes (hs : l.conn.socket = some s) (event : Event) :
    ∃ r, l.finishConnect event = concludeAttempt r ∧ SameWait l r.2 := by
  have houtcome : SameWait l (l.connectOutcome s event).2 :=
    ⟨rfl, rfl, (Kernel.spends_takeError l.kernel s).clock_eq⟩
  have hconn : (l.connectOutcome s event).2.conn = l.conn := rfl
  unfold finishConnect
  rw [hs]
  simp only
  generalize l.connectOutcome s event = r at houtcome hconn ⊢
  rcases r with ⟨_ | _, k⟩
  · exact ⟨(.error (.kindOnly .notConnected), k), rfl, houtcome⟩
  · exact ⟨k.establish, rfl, houtcome.trans (sameWait_establish (hconn ▸ hs))⟩

/-- An attempt that fails puts the next one off. -/
theorem putsOff_connect (l : Link) :
    PutsOff { l.conn with attempts := min (l.conn.attempts + 1) maxAttemptCount }
      l.now l.connect := by
  by_cases hstate : l.conn.state = .closed
  · rw [connect, if_pos hstate]
    trivial
  · obtain ⟨r, hr, hsame⟩ := connect_concludes hstate
    rw [hr]
    exact putsOff_concludeAttempt hsame

/-- So does one that an event tells to have failed. -/
theorem putsOff_finishConnect (l : Link) (event : Event) :
    PutsOff l.conn l.now (l.finishConnect event) := by
  rcases hs : l.conn.socket with _ | s
  · rw [finishConnect, hs]
    trivial
  · obtain ⟨r, hr, hsame⟩ := finishConnect_concludes hs event
    rw [hr]
    exact putsOff_concludeAttempt hsame

end Link

end TextLink
