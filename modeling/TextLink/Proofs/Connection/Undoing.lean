import TextLink.Proofs.Connection.Backoff
import TextLink.Proofs.Connection.Steps
import TextLink.Proofs.Kernel.Obstacles

/-!
# A failed attempt is undone

Wherever an attempt to connect fails, the connection and its queue are as they were but for what
every attempt changes: the state, the count of attempts, the socket with its registration, and what
the queue writes to (`Trying`). So undoing it comes to the same from everywhere (`Undone`): the
connection waits for its next attempt with all else as it was, or it is closed, or the next attempt
would be due after the last deadline.

A queue without a writer has its first message whole. That is why suspending it gives up no message.

## Main results

* `undone_connect`, `undone_finishConnect` — an attempt that meets an obstacle is undone.
* `connect_of_clear`, `finishConnect_of_clear` — one that meets none goes on.
-/

namespace TextLink

/-! ## The queue -/

namespace SendQueue

variable {q : SendQueue}

/-- A queue that holds back, whatever it was about to do. -/
theorem connecting_of_whole (hstate : q.state ≠ .closed) (hsent : q.headSent = 0) :
    q.connecting.2 = { q with state := .connecting, writer := none } := by
  unfold connecting
  rw [if_neg hstate, if_neg (Nat.not_lt_of_le (Nat.le_of_eq hsent))]

end SendQueue

namespace Link

variable {l l' : Link} {s : SocketId} {n : Nat} {event : Event} {p : FailurePoint}

/-! ## In the middle of an attempt -/

/-- `l'` is somewhere in attempt `n` of the connection of `l`. -/
structure Trying (n : Nat) (l l' : Link) : Prop where
  conn : ∃ socket registered, (socket = none → registered = none) ∧ l'.conn = { l.conn with
    state := .connecting
    attempts := n
    retryAt := none
    socket := socket
    registered := registered }
  queue : ∃ state writer, state ≠ .closed ∧
    l'.queue = { l.queue with state := state, writer := writer }
  now_eq : l'.now = l.now

namespace Trying

theorem consistent (h : Trying n l l') : l'.conn.Consistent := by
  obtain ⟨socket, registered, hnone, hconn⟩ := h.conn
  rw [hconn]
  exact hnone

/-- When what was made for the attempt is given up, all is as it was. -/
theorem givenUp (h : Trying n l l') (hsent : l.queue.headSent = 0) :
    l'.release.suspendQueue.conn = { l.conn with
      state := .connecting, attempts := n, retryAt := none, socket := none, registered := none } ∧
    l'.release.suspendQueue.queue = { l.queue with state := .connecting, writer := none } ∧
    l'.release.suspendQueue.now = l.now := by
  obtain ⟨socket, registered, _, hconn⟩ := h.conn
  obtain ⟨state, writer, hopen, hqueue⟩ := h.queue
  refine ⟨?_, ?_, (sameWait_release l').clock_eq.trans h.now_eq⟩
  · rw [conn_suspendQueue, conn_release h.consistent, hconn]
  · rw [queue_suspendQueue, queue_release, hqueue]
    exact SendQueue.connecting_of_whole (q := { l.queue with state := state, writer := writer })
      hopen hsent

end Trying

/-! ## Undoing it -/

/-- Attempt `n` of the connection of `l` has failed, and nothing is left of it. -/
inductive Undone (n : Nat) (l : Link) : Except Fault Progress × Link → Prop where
  | waits {deadline : Instant} {k : Link} (hallowed : l.conn.policy.allowsRetry n = true)
      (hdeadline : l.now.deadline? (l.conn.policy.backoff n) = some deadline)
      (hconn : k.conn = { l.conn with
        state := .connecting, attempts := n, retryAt := some deadline
        socket := none, registered := none })
      (hqueue : k.queue = { l.queue with state := .connecting, writer := none }) :
      Undone n l (.ok (.retry deadline), k)
  | closes {k : Link} (hallowed : l.conn.policy.allowsRetry n = false) (hgone : Gone k.conn k.queue)
      (hqueue : k.queue =
        { l.queue with state := .closed, writer := none, headSent := 0, pending := [] })
      (htold : k.journal.callbacks.back? = some ⟨l.conn.handler, .state .closed⟩) :
      Undone n l (.ok .closed, k)
  /-- The next attempt would be due after the last deadline. -/
  | late {k : Link} (hallowed : l.conn.policy.allowsRetry n = true)
      (hdeadline : l.now.deadline? (l.conn.policy.backoff n) = none)
      (hsocket : k.conn.socket = none) (hwriter : k.queue.writer = none) :
      Undone n l (.error .deadline, k)

/-- Whatever becomes of the connection, it holds no socket. -/
theorem Undone.holdsNone {r : Except Fault Progress × Link} (h : Undone n l r) (s : SocketId) :
    ¬ r.2.holds s := by
  rw [holds_iff]
  cases h with
  | waits _ _ hconn hqueue => simp [hconn, hqueue]
  | closes _ hgone _ _ => simp [hgone.socket, hgone.writer]
  | late _ _ hsocket hwriter => simp [hsocket, hwriter]

/-- The last thing told when a connection closes is that it does. -/
theorem back?_close (h : l.conn.state ≠ .closed) :
    l.close.journal.callbacks.back? = some ⟨l.conn.handler, .state .closed⟩ := by
  have ⟨rs, hclose⟩ := close_eq h
  have hconn : l.release.closeQueue.2.conn.state = l.conn.state := by
    rw [conn_closeQueue, state_release]
  have hhandler : l.release.closeQueue.2.conn.handler = l.conn.handler := by
    rw [conn_closeQueue]
    exact congrArg (·.2.2.2.1) (identity_release l)
  rw [hclose, setState, if_neg (hconn.symm ▸ h)]
  exact Array.back?_push.trans (congrArg (fun h => some (Callback.mk h _)) hhandler)

theorem undone_attemptFailed (h : Trying n l l') (hsent : l.queue.headSent = 0) :
    Undone n l l'.attemptFailed := by
  obtain ⟨hconn, hqueue, hnow⟩ := h.givenUp hsent
  unfold attemptFailed
  simp only
  generalize l'.release.suspendQueue = l₁ at hconn hqueue hnow
  have hdeadline : l₁.retryDeadline = l.now.deadline? (l.conn.policy.backoff n) := by
    rw [retryDeadline, hnow, hconn]
  have hallows : l₁.conn.policy.allowsRetry l₁.conn.attempts = l.conn.policy.allowsRetry n := by
    rw [hconn]
  rw [hallows]
  by_cases hallowed : l.conn.policy.allowsRetry n = true
  · rw [if_pos hallowed, hdeadline]
    rcases hd : l.now.deadline? (l.conn.policy.backoff n) with _ | deadline
    · exact .late hallowed hd (congrArg Connection.socket hconn) (congrArg SendQueue.writer hqueue)
    · exact .waits hallowed hd (by rw [hconn]) hqueue
  · rw [if_neg hallowed]
    have hstate : (l₁.note [.gaveUpConnecting l₁.conn.token l₁.conn.attempts]).conn.state ≠
      .closed := by
      show l₁.conn.state ≠ _
      rw [congrArg Connection.state hconn]
      nofun
    refine .closes (Bool.not_eq_true _ ▸ hallowed) (gone_close hstate fun _ => ?_) ?_ ?_
    · exact congrArg Connection.registered hconn
    · rw [queue_close hstate]
      show l₁.queue.close.2 = _
      rw [hqueue]
      rfl
    · rw [back?_close hstate]
      show some (Callback.mk l₁.conn.handler _) = _
      rw [hconn]

/-- After its last call, attempt `n` of the connection of `l` has failed just where there was an
obstacle. -/
structure Concludes (n : Nat) (l : Link) (o : Option FailurePoint)
    (r : Except IoError Unit × Link) : Prop where
  ok_iff : r.1 = .ok () ↔ o = none
  trying : r.1 ≠ .ok () → Trying n l r.2

namespace Concludes

variable {o : Option FailurePoint} {r : Except IoError Unit × Link}

theorem undone (h : Concludes n l (some p) r) (hsent : l.queue.headSent = 0) :
    Undone n l (concludeAttempt r) := by
  have hne : r.1 ≠ .ok () := mt h.ok_iff.1 nofun
  have htrying := h.trying hne
  rcases r with ⟨e | _, l'⟩
  · exact undone_attemptFailed htrying hsent
  · exact absurd rfl hne

theorem goesOn (h : Concludes n l none r) : (concludeAttempt r).1 = .ok .ongoing := by
  have hok := h.ok_iff.2 rfl
  rcases r with ⟨e | _, l'⟩
  · cases hok
  · rfl

end Concludes

/-! ## Registering -/

/-- A socket that is not watched yet can be, unless the call fails. -/
theorem arm_ok_iff (hs : l.conn.socket = some s) (hr : l.conn.registered = none)
    (interest : Interest) : (l.arm interest).1 = .ok () ↔
      (l.kernel.refuses .epollCtl 0 || l.kernel.isRegistered s) = false := by
  rw [← l.kernel.register_ok_iff s l.conn.token interest]
  unfold arm
  simp only [hs, hr, reduceCtorEq, if_false, Option.isSome_none, Bool.false_eq_true]
  rcases l.kernel.register s l.conn.token interest with ⟨_ | e, k⟩ <;> simp

/-- What a socket is watched for can be changed, unless the call fails. -/
theorem rearm_ok_iff (hs : l.conn.socket = some s) {i interest : Interest}
    (hr : l.conn.registered = some i) (hne : i ≠ interest) : (l.arm interest).1 = .ok () ↔
      (l.kernel.refuses .epollCtl 0 || !l.kernel.isRegistered s) = false := by
  rw [← l.kernel.reregister_ok_iff s l.conn.token interest]
  unfold arm
  simp only [hs, hr, Option.some.injEq, hne, if_false, Option.isSome_some, if_true]
  rcases l.kernel.reregister s l.conn.token interest with ⟨_ | e, k⟩ <;> simp

/-- A queue that wrote to nothing has nothing to let go. -/
theorem establish_eq (hs : l.conn.socket = some s) (hw : l.queue.writer = none) :
    l.establish.1 =
      (arm { l with queue := l.queue.connected s } (.serving l.queue.hasPending)).1 := by
  have hkept : letGo { l with queue := l.queue.connected s } none =
      { l with queue := l.queue.connected s } := rfl
  unfold establish
  simp only [hs, hw, hkept]
  have hpending : (l.queue.connected s).hasPending = l.queue.hasPending := rfl
  rw [hpending]
  rcases arm { l with queue := l.queue.connected s } (.serving l.queue.hasPending) with
    ⟨_ | _, l'⟩ <;>
    rfl

/-- A new socket can be watched, for reading or for the end of its connect, unless
the call fails. -/
theorem watch_ok_iff (hs : l.conn.socket = some s) (hr : l.conn.registered = none)
    (hw : l.queue.writer = none) (isUp : Bool) :
    (if isUp then l.establish else l.arm .writing).1 = .ok () ↔
      (l.kernel.refuses .epollCtl 0 || l.kernel.isRegistered s) = false := by
  cases isUp with
  | false => exact arm_ok_iff hs hr .writing
  | true =>
      rw [if_pos rfl, establish_eq hs hw]
      exact arm_ok_iff (l := { l with queue := l.queue.connected s }) hs hr _

/-- An established connection that cannot be watched is still in the middle of its attempt. -/
theorem Trying.establish (h : Trying n l l') (hs : l'.conn.socket = some s)
    (hne : l'.establish.1 ≠ .ok ()) : Trying n l l'.establish.2 := by
  obtain ⟨hqueue, ⟨hok, _⟩ | ⟨_, hconn⟩⟩ := establish_cases l' hs
  · exact absurd hok hne
  · obtain ⟨state, writer, _, hq⟩ := h.queue
    refine ⟨hconn ▸ h.conn, ⟨.connected, some s, by decide, ?_⟩,
      (sameWait_establish hs).clock_eq.trans h.now_eq⟩
    rw [hqueue, hq]
    rfl

theorem Trying.arm (h : Trying n l l') (hs : l'.conn.socket = some s) {interest : Interest}
    (hne : (l'.arm interest).1 ≠ .ok ()) : Trying n l (l'.arm interest).2 := by
  obtain ⟨hqueue, ⟨hok, _⟩ | ⟨_, hconn⟩⟩ := arm_cases l' hs interest
  · exact absurd hok hne
  · exact ⟨hconn ▸ h.conn, hqueue ▸ h.queue, (sameWait_arm hs interest).clock_eq.trans h.now_eq⟩

/-! ## Beginning an attempt -/

/-- The connection is between two attempts, or before the first one. -/
structure AtRest (l : Link) : Prop where
  state : l.conn.state ≠ .closed
  socket : l.conn.socket = none
  registered : l.conn.registered = none
  queue : l.queue.state ≠ .closed
  writer : l.queue.writer = none
  headSent : l.queue.headSent = 0

/-- The number of the attempt that is made next; counting stops at the largest count. -/
def nextAttempt (l : Link) : Nat := min (l.conn.attempts + 1) maxAttemptCount

namespace AtRest

theorem kernel_beginAttempt (h : l.AtRest) : l.beginAttempt.kernel = l.kernel := by
  rw [beginAttempt, kernel_setState]
  unfold suspendQueue
  simp only [note, h.writer]
  rfl

theorem queue_beginAttempt (h : l.AtRest) :
    l.beginAttempt.queue = { l.queue with state := .connecting, writer := none } := by
  rw [Link.queue_beginAttempt, SendQueue.connecting_of_whole h.queue h.headSent]

/-- An attempt that has no socket. -/
theorem trying_unmade (h : l.AtRest) {k : Kernel} (hclock : k.clock = l.kernel.clock) :
    Trying l.nextAttempt l { l.beginAttempt with kernel := k } where
  conn := by
    refine ⟨none, none, fun _ => rfl, ?_⟩
    rw [conn_beginAttempt, ← h.socket, ← h.registered]
    rfl
  queue := ⟨.connecting, none, by decide, h.queue_beginAttempt⟩
  now_eq := hclock

theorem adopt_eq (h : l.AtRest) (k : Kernel) (s : SocketId) :
    adopt { l.beginAttempt with kernel := k } s = { l.beginAttempt with
      kernel := k, conn := { l.beginAttempt.conn with socket := some s } } :=
  adopt_of_none (l := { l.beginAttempt with kernel := k })
    ((socket_beginAttempt l).trans h.socket) s

/-- An attempt that has a socket. -/
theorem trying_adopt (h : l.AtRest) {k : Kernel} (hclock : k.clock = l.kernel.clock)
    (s : SocketId) : Trying l.nextAttempt l (adopt { l.beginAttempt with kernel := k } s) where
  conn := by
    refine ⟨some s, none, nofun, ?_⟩
    rw [conn_adopt, ← h.registered]
    rfl
  queue := by
    refine ⟨.connecting, none, by decide, ?_⟩
    rw [h.adopt_eq]
    exact h.queue_beginAttempt
  now_eq := by
    rw [h.adopt_eq]
    exact hclock

/-- The new socket can be watched, unless there is an obstacle to that. -/
theorem watched_iff (h : l.AtRest) {k : Kernel} {s : SocketId}
    (hrefuses : k.refuses .epollCtl 0 = l.kernel.refuses .epollCtl 0)
    (hbarred : k.isRegistered s = l.kernel.isBarred) (isUp : Bool) :
    (if isUp then (adopt { l.beginAttempt with kernel := k } s).establish
      else (adopt { l.beginAttempt with kernel := k } s).arm .writing).1 = .ok () ↔
        (l.kernel.refuses .epollCtl 0 || l.kernel.isBarred) = false := by
  have hsocket : (adopt { l.beginAttempt with kernel := k } s).conn.socket = some s := by
    rw [conn_adopt]
  have hregistered : (adopt { l.beginAttempt with kernel := k } s).conn.registered = none := by
    rw [conn_adopt]
    exact h.registered
  have hkernel : (adopt { l.beginAttempt with kernel := k } s).kernel = k := by rw [h.adopt_eq]
  have hwriter : (adopt { l.beginAttempt with kernel := k } s).queue.writer = none := by
    rw [h.adopt_eq]
    exact congrArg SendQueue.writer h.queue_beginAttempt
  rw [watch_ok_iff hsocket hregistered hwriter, hkernel, hrefuses, hbarred]

end AtRest

theorem concludes_connect (h : l.AtRest) : ∃ r, l.connect = concludeAttempt r ∧
    Concludes l.nextAttempt l l.kernel.obstacle? r := by
  unfold connect Kernel.obstacle?
  rw [if_neg h.state]
  simp only [h.kernel_beginAttempt]
  rcases hopening : l.kernel.openingObstacle? with _ | p
  · obtain ⟨k, hk, hrefuses, hbarred⟩ :=
      Kernel.openStream_of_clear hopening l.beginAttempt.conn.address
    have hwatched := h.watched_iff hrefuses hbarred
      (decide ((l.kernel.plans.headD {}).connect = .ok))
    have htrying := h.trying_adopt (Kernel.clock_of_openStream hk) l.kernel.sockets.length
    have hsocket : (adopt { l.beginAttempt with kernel := k } l.kernel.sockets.length).conn.socket =
        some l.kernel.sockets.length := by rw [conn_adopt]
    rw [hk]
    refine ⟨_, rfl, hwatched.trans (by simp), fun hne => ?_⟩
    generalize decide ((l.kernel.plans.headD {}).connect = .ok) = isUp at hne
    cases isUp with
    | false => exact htrying.arm hsocket hne
    | true => exact htrying.establish hsocket hne
  · obtain ⟨e, k, hk⟩ := Kernel.openStream_of_obstacle hopening l.beginAttempt.conn.address
    rw [hk]
    exact ⟨(.error (.os e), _), rfl, by simp,
      fun _ => h.trying_unmade (Kernel.clock_of_openStream hk)⟩

/-- An attempt that meets an obstacle is undone. -/
theorem undone_connect (h : l.AtRest) (hp : l.kernel.obstacle? = some p) :
    Undone l.nextAttempt l l.connect := by
  obtain ⟨r, hr, hconcludes⟩ := concludes_connect h
  rw [hp] at hconcludes
  exact hr ▸ hconcludes.undone h.headSent

/-- An attempt that meets no obstacle goes on. -/
theorem connect_of_clear (h : l.AtRest) (hp : l.kernel.obstacle? = none) :
    l.connect.1 = .ok .ongoing := by
  obtain ⟨r, hr, hconcludes⟩ := concludes_connect h
  rw [hp] at hconcludes
  exact hr ▸ hconcludes.goesOn

/-! ## Concluding an attempt -/

/-- A connect is in flight on socket `s`. -/
structure InFlight (l : Link) (s : SocketId) : Prop where
  state : l.conn.state = .connecting
  socket : l.conn.socket = some s
  registered : l.conn.registered = some .writing
  retryAt : l.conn.retryAt = none
  queue : l.queue.state = .connecting
  writer : l.queue.writer = none
  headSent : l.queue.headSent = 0

namespace InFlight

theorem trying (h : l.InFlight s) {k : Kernel} (hclock : k.clock = l.kernel.clock) :
    Trying l.conn.attempts l { l with kernel := k } where
  conn := by
    refine ⟨some s, some .writing, nofun, ?_⟩
    rw [← h.socket, ← h.registered, ← h.state, ← h.retryAt]
  queue := ⟨.connecting, none, by decide, by rw [← h.queue, ← h.writer]⟩
  now_eq := hclock

/-- The connection can be watched for what comes next, unless there is an obstacle to that. -/
theorem watched_iff (h : l.InFlight s) {k : Kernel}
    (hrefuses : k.refuses .epollCtl 0 = l.kernel.refuses .epollCtl 0)
    (hregistered : k.isRegistered s = l.kernel.isRegistered s) :
    (establish { l with kernel := k }).1 = .ok () ↔
      (l.kernel.refuses .epollCtl 0 || !l.kernel.isRegistered s) = false := by
  have hne : Interest.writing ≠ .serving l.queue.hasPending := by
    rcases l.queue.hasPending with _ | _ <;> decide
  rw [← hrefuses, ← hregistered, establish_eq (l := { l with kernel := k }) h.socket h.writer]
  exact rearm_ok_iff (l := { l with kernel := k, queue := l.queue.connected s })
    h.socket h.registered hne

end InFlight

theorem concludes_finishConnect (h : l.InFlight s) (event : Event) :
    ∃ r, l.finishConnect event = concludeAttempt r ∧
      Concludes l.conn.attempts l (l.kernel.obstacleAfter? s event) r := by
  obtain ⟨k, hrefuses, hregistered, hcases⟩ := l.kernel.takeError_eq s
  have hspends := Kernel.spends_takeError l.kernel s
  unfold finishConnect connectOutcome Kernel.obstacleAfter?
  simp only [h.socket]
  rcases hcases with ⟨hread, htake⟩ | ⟨hread, e, htake⟩ <;> rw [htake] at hspends ⊢ <;>
    have htrying := h.trying hspends.clock_eq
  · rcases hpending : l.kernel.pendingError s with _ | e
    · by_cases hhangup : (event.hangup && !event.writable) = true
      · simp only [hhangup, if_true]
        exact ⟨(.error (.kindOnly .notConnected), _), rfl, by simp [hread], fun _ => htrying⟩
      · simp only [hhangup]
        refine ⟨_, rfl, (h.watched_iff hrefuses hregistered).trans (by simp [hread]), fun hne => ?_⟩
        exact htrying.establish h.socket hne
    · exact ⟨(.error (.os e), _), rfl, by simp [hread], fun _ => htrying⟩
  · exact ⟨(.error (.os e), _), rfl, by simp [hread], fun _ => htrying⟩

/-- An attempt that meets an obstacle when an event has come is undone. -/
theorem undone_finishConnect (h : l.InFlight s) (hp : l.kernel.obstacleAfter? s event = some p) :
    Undone l.conn.attempts l (l.finishConnect event) := by
  obtain ⟨r, hr, hconcludes⟩ := concludes_finishConnect h event
  rw [hp] at hconcludes
  exact hr ▸ hconcludes.undone h.headSent

/-- An attempt that meets none has succeeded. -/
theorem finishConnect_of_clear (h : l.InFlight s) (hp : l.kernel.obstacleAfter? s event = none) :
    (l.finishConnect event).1 = .ok .ongoing := by
  obtain ⟨r, hr, hconcludes⟩ := concludes_finishConnect h event
  rw [hp] at hconcludes
  exact hr ▸ hconcludes.goesOn

end Link

end TextLink
