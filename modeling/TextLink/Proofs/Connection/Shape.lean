import TextLink.Proofs.Connection.Reach

/-!
# The shapes of a connection

Between two things that it does, a connection in the table is in one of three shapes: it is
connected, or a connect is in flight, or it waits for its next attempt (`Shape`). Each fixes the
socket, how it is registered, the retry that is due, and what the queue writes to. A connection that
is to be removed has given all of it up (`Gone`).

How a connection settles after an attempt or an event is read off the progress reported (`Settled`).
A fault leaves it in no shape; the loop ends then.

## Main results

* `settled_connect` — an attempt by a connection whose socket, if any, is not registered.
* `settled_handleEvent` — an event, whatever becomes of it.
-/

namespace TextLink

/-- The shapes of a connection in the table, with its queue. -/
inductive Shape (c : Connection) (q : SendQueue) : Prop where
  | connected {s : SocketId} {i : Interest} (state : c.state = .connected)
      (socket : c.socket = some s) (registered : c.registered = some i) (read : i.read = true)
      (retryAt : c.retryAt = none) (writer : q.writer = some s) (queue : q.state = .connected)
  /-- The end of the connect is watched for. -/
  | inFlight {s : SocketId} (state : c.state = .connecting) (socket : c.socket = some s)
      (registered : c.registered = some .writing) (retryAt : c.retryAt = none)
      (writer : q.writer = none) (queue : q.state = .connecting)
  | waiting {d : Instant} (state : c.state = .connecting) (socket : c.socket = none)
      (registered : c.registered = none) (retryAt : c.retryAt = some d) (writer : q.writer = none)
      (queue : q.state = .connecting)

/-- A closed connection holds nothing, and nothing waits for it. -/
structure Gone (c : Connection) (q : SendQueue) : Prop where
  state : c.state = .closed
  socket : c.socket = none
  registered : c.registered = none
  retryAt : c.retryAt = none
  queue : q.state = .closed
  writer : q.writer = none
  pending : q.pending = []

/-- How a connection, due before at `due`, has settled when it reports `progress`. -/
def Settled (due : Option Instant) (progress : Progress) (l : Link) : Prop :=
  match progress with
  | .ongoing => Shape l.conn l.queue ∧ (l.conn.retryAt = none ∨ l.conn.retryAt = due)
  | .retry deadline => Shape l.conn l.queue ∧ l.conn.retryAt = some deadline
  | .closed => Gone l.conn l.queue

/-- Whoever had no retry due before has settled in any case. -/
theorem Settled.of_none {progress : Progress} {l : Link} (h : Settled none progress l)
    (due : Option Instant) : Settled due progress l := by
  cases progress with
  | ongoing => exact ⟨h.1, .inl (h.2.elim id id)⟩
  | retry deadline => exact h
  | closed => exact h

/-- A connection without a socket has none registered. -/
def Connection.Consistent (c : Connection) : Prop := c.socket = none → c.registered = none

theorem Shape.consistent {c : Connection} {q : SendQueue} (h : Shape c q) : c.Consistent := by
  intro hnone
  cases h with
  | connected _ hs _ _ _ _ _ | inFlight _ hs _ _ _ _ => cases hs.symm.trans hnone
  | waiting _ _ hr _ _ _ => exact hr

/-- A connection in this state has begun to connect, and is not closed. -/
def ConnectionState.Alive (state : ConnectionState) : Prop :=
  state = .connecting ∨ state = .connected

namespace ConnectionState.Alive

variable {state : ConnectionState}

theorem ne_closed (h : state.Alive) : state ≠ .closed := by
  rcases h with rfl | rfl <;> decide

theorem ne_disconnected (h : state.Alive) : state ≠ .disconnected := by
  rcases h with rfl | rfl <;> decide

end ConnectionState.Alive

theorem Shape.alive {c : Connection} {q : SendQueue} (h : Shape c q) : c.state.Alive := by
  cases h with
  | connected h _ _ _ _ _ _ => exact .inr h
  | inFlight h _ _ _ _ _ | waiting h _ _ _ _ _ => exact .inl h

theorem Shape.state_ne_closed {c : Connection} {q : SendQueue} (h : Shape c q) :
    c.state ≠ .closed := h.alive.ne_closed

theorem Shape.connecting {c : Connection} {q : SendQueue} (h : Shape c q) {d : Instant}
    (hd : c.retryAt = some d) : c.state = .connecting := by
  cases h with
  | connected _ _ _ _ hretry _ _ | inFlight _ _ _ hretry _ _ => cases hretry.symm.trans hd
  | waiting hstate _ _ _ _ _ => exact hstate

/-- An established connection waits for no retry, and has a socket to which its queue writes. -/
theorem Shape.exists_writer {c : Connection} {q : SendQueue} (h : Shape c q)
    (hstate : c.state = .connected) :
    ∃ s, c.socket = some s ∧ c.retryAt = none ∧ q.writer = some s := by
  cases h with
  | connected _ hs _ _ hretry hw _ => exact ⟨_, hs, hretry, hw⟩
  | inFlight hconnecting _ _ _ _ _ | waiting hconnecting _ _ _ _ _ =>
      cases hconnecting.symm.trans hstate

/-- The queue is in the state of its connection. -/
theorem Shape.state_eq {c : Connection} {q : SendQueue} (h : Shape c q) :
    q.state = c.state ∧ (c.state = .connecting ∨ c.state = .connected) := by
  cases h with
  | connected hstate _ _ _ _ _ hqueue => exact ⟨hqueue.trans hstate.symm, .inr hstate⟩
  | inFlight hstate _ _ _ _ hqueue | waiting hstate _ _ _ _ hqueue =>
      exact ⟨hqueue.trans hstate.symm, .inl hstate⟩

theorem Shape.exists_socket {c : Connection} {q : SendQueue} (h : Shape c q)
    (hstate : c.state = .connected) : ∃ s, c.socket = some s := by
  cases h with
  | connected _ hs _ _ _ _ _ | inFlight _ hs _ _ _ _ => exact ⟨_, hs⟩
  | waiting h _ _ _ _ _ => cases h.symm.trans hstate

/-- Every socket is watched. -/
theorem Shape.exists_registered {c : Connection} {q : SendQueue} (h : Shape c q) {s : SocketId}
    (hs : c.socket = some s) : ∃ i, c.registered = some i := by
  cases h with
  | connected _ _ hr _ _ _ _ | inFlight _ _ hr _ _ _ => exact ⟨_, hr⟩
  | waiting _ hnone _ _ _ _ => cases hnone.symm.trans hs

/-- A shape is a matter of a few fields. -/
theorem Shape.congr {c c' : Connection} {q q' : SendQueue} (h : Shape c q)
    (hstate : c'.state = c.state) (hsocket : c'.socket = c.socket)
    (hregistered : c'.registered = c.registered) (hretry : c'.retryAt = c.retryAt)
    (hwriter : q'.writer = q.writer) (hqueue : q'.state = q.state) : Shape c' q' := by
  cases h with
  | connected h1 h2 h3 h4 h5 h6 h7 =>
      exact .connected (hstate.trans h1) (hsocket.trans h2) (hregistered.trans h3) h4
        (hretry.trans h5) (hwriter.trans h6) (hqueue.trans h7)
  | inFlight h1 h2 h3 h4 h5 h6 =>
      exact .inFlight (hstate.trans h1) (hsocket.trans h2) (hregistered.trans h3)
        (hretry.trans h4) (hwriter.trans h5) (hqueue.trans h6)
  | waiting h1 h2 h3 h4 h5 h6 =>
      exact .waiting (hstate.trans h1) (hsocket.trans h2) (hregistered.trans h3)
        (hretry.trans h4) (hwriter.trans h5) (hqueue.trans h6)

namespace Link

variable {l l' : Link} {s : SocketId}

/-! ## What each step does to the connection and its queue -/

theorem conn_setState (l : Link) (state : ConnectionState) :
    (l.setState state).conn = { l.conn with state } := by
  unfold setState
  split
  · next h => rw [← h]
  · rfl

theorem queue_setState (l : Link) (state : ConnectionState) :
    (l.setState state).queue = l.queue := by
  unfold setState
  split <;> rfl

theorem kernel_setState (l : Link) (state : ConnectionState) :
    (l.setState state).kernel = l.kernel := by
  unfold setState
  split <;> rfl

theorem conn_release (h : l.conn.Consistent) :
    l.release.conn = { l.conn with socket := none, registered := none } := by
  unfold release
  rcases hs : l.conn.socket with _ | s
  · show l.conn = _
    rw [← hs, ← h hs]
  · exact conn_letGo _ _

theorem state_release (l : Link) : l.release.conn.state = l.conn.state := by
  unfold release
  split
  · rfl
  · rw [conn_letGo]

theorem queue_release (l : Link) : l.release.queue = l.queue := by
  unfold release
  split
  · rfl
  · exact queue_letGo _ _

theorem conn_closeQueue (l : Link) : l.closeQueue.2.conn = l.conn := conn_letGo _ _

theorem queue_closeQueue (l : Link) : l.closeQueue.2.queue = l.queue.close.2 := queue_letGo _ _

/-- Closing releases the socket, closes the queue, and says so. -/
theorem close_eq (h : l.conn.state ≠ .closed) :
    ∃ rs, l.close = (note { l.release.closeQueue.2 with
      conn := { l.release.closeQueue.2.conn with retryAt := none, decoder := {} } } rs).setState
        .closed := by
  unfold close
  rw [if_neg h]
  exact ⟨_, rfl⟩

theorem queue_close (h : l.conn.state ≠ .closed) : l.close.queue = l.queue.close.2 := by
  have ⟨rs, hclose⟩ := close_eq h
  rw [hclose, queue_setState]
  simp only [note, queue_closeQueue, queue_release]

theorem gone_close (h : l.conn.state ≠ .closed) (hc : l.conn.Consistent) :
    Gone l.close.conn l.close.queue := by
  have hconn : l.close.conn = { l.conn with
      socket := none, registered := none, retryAt := none, decoder := {}, state := .closed } := by
    have ⟨rs, hclose⟩ := close_eq h
    rw [hclose, conn_setState]
    simp only [note, conn_closeQueue, conn_release hc]
  rw [hconn, queue_close h]
  exact ⟨rfl, rfl, rfl, rfl, rfl, rfl, rfl⟩

theorem state_close (l : Link) : l.close.conn.state = .closed := by
  by_cases h : l.conn.state = .closed
  · unfold close
    rw [if_pos h]
    exact h
  · have ⟨rs, hclose⟩ := close_eq h
    rw [hclose, conn_setState]

/-- Whatever shape a connection was in, it holds nothing once it is closed. -/
theorem holdsNone_close (h : l.conn.state ≠ .closed) :
    l.close.conn.socket = none ∧ l.close.queue.writer = none := by
  have ⟨rs, hclose⟩ := close_eq h
  rw [hclose, conn_setState, queue_setState]
  simp only [note, conn_closeQueue, queue_closeQueue]
  refine ⟨?_, rfl⟩
  unfold release
  rcases hs : l.conn.socket with _ | s
  · exact hs
  · simp only [conn_letGo]

/-- Registering changes what is registered, if it succeeds. -/
theorem arm_cases (l : Link) (hs : l.conn.socket = some s) (interest : Interest) :
    (l.arm interest).2.queue = l.queue ∧
      (((l.arm interest).1 = .ok () ∧
          (l.arm interest).2.conn = { l.conn with registered := some interest }) ∨
        (∃ e, (l.arm interest).1 = .error e) ∧ (l.arm interest).2.conn = l.conn) := by
  unfold arm
  simp only [hs]
  by_cases hsame : l.conn.registered = some interest
  · rw [if_pos hsame]
    refine ⟨rfl, .inl ⟨rfl, ?_⟩⟩
    rw [← hsame, ← hs]
  · rw [if_neg hsame]
    split
    · exact ⟨rfl, .inl ⟨rfl, rfl⟩⟩
    · exact ⟨rfl, .inr ⟨⟨_, rfl⟩, rfl⟩⟩

theorem state_arm (l : Link) (interest : Interest) :
    (l.arm interest).2.conn.state = l.conn.state := by
  unfold arm
  split
  · rfl
  · split
    · rfl
    · simp only
      split <;> rfl

theorem queue_arm (l : Link) (interest : Interest) : (l.arm interest).2.queue = l.queue := by
  unfold arm
  split
  · rfl
  · split
    · rfl
    · simp only
      split <;> rfl

theorem queue_rearm (l : Link) : l.rearm.2.queue = l.queue := by
  unfold rearm
  split
  · exact queue_arm _ _
  · rfl

/-! ## Connecting -/

/-- A failed attempt ends in waiting, or in being gone. -/
theorem settled_attemptFailed (hstate : l.conn.state = .connecting)
    (hqueue : l.queue.state ≠ .closed) (hc : l.conn.Consistent) {progress : Progress}
    (h : l.attemptFailed = (.ok progress, l')) (due : Option Instant) :
    Settled due progress l' := by
  have ⟨hqstate, hqwriter⟩ := SendQueue.state_connecting hqueue
  have hconn : l.release.suspendQueue.conn =
    { l.conn with socket := none, registered := none } := by
    rw [conn_suspendQueue, conn_release hc]
  have hq : l.release.suspendQueue.queue = l.queue.connecting.2 := by
    rw [queue_suspendQueue, queue_release]
  unfold attemptFailed at h
  simp only at h
  generalize l.release.suspendQueue = l₁ at h hconn hq
  split at h
  · split at h
    · cases h
    · next deadline _ =>
      cases h
      have hshape : Shape { l₁.conn with retryAt := some deadline } l₁.queue := by
        rw [hconn, hq]
        exact .waiting hstate rfl rfl rfl hqwriter hqstate
      exact ⟨hshape, rfl⟩
  · cases h
    apply gone_close
    · show l₁.conn.state ≠ _
      rw [hconn, hstate]
      decide
    · show l₁.conn.Consistent
      rw [hconn]
      exact fun _ => rfl

/-- Establishing registers the socket, and has the queue write to it. -/
theorem establish_cases (l : Link) (hs : l.conn.socket = some s) :
    l.establish.2.queue = l.queue.connected s ∧
      ((l.establish.1 = .ok () ∧ l.establish.2.conn = { l.conn with
          state := .connected, registered := some (.serving l.queue.hasPending) }) ∨
        (∃ e, l.establish.1 = .error e) ∧ l.establish.2.conn = l.conn) := by
  unfold establish
  simp only [hs]
  have hconn : (letGo { l with queue := l.queue.connected s } l.queue.writer).conn = l.conn :=
    conn_letGo _ _
  have hqueue : (letGo { l with queue := l.queue.connected s } l.queue.writer).queue =
    l.queue.connected s := queue_letGo _ _
  have hpending : (l.queue.connected s).hasPending = l.queue.hasPending := rfl
  generalize letGo { l with queue := l.queue.connected s } l.queue.writer = l₁ at hconn hqueue
  have ⟨harm, hcases⟩ := arm_cases l₁ (hconn ▸ hs) (.serving l₁.queue.hasPending)
  rw [hconn, hqueue, hpending] at hcases
  rw [hqueue, hpending] at harm
  rw [hqueue, hpending]
  rcases ha : l₁.arm (.serving l.queue.hasPending) with ⟨e | _, l₂⟩ <;> rw [ha] at hcases harm
  · rcases hcases with ⟨hok, _⟩ | ⟨he, hconn₂⟩
    · cases hok
    · exact ⟨harm, .inr ⟨he, hconn₂⟩⟩
  · rcases hcases with ⟨_, hconn₂⟩ | ⟨⟨e, he⟩, _⟩
    · have hconn₂ : l₂.conn = { l.conn with registered := some (.serving l.queue.hasPending) } :=
        hconn₂
      refine ⟨(queue_setState _ _).trans harm, .inl ⟨rfl, ?_⟩⟩
      rw [conn_setState, hconn₂, ← hs]
    · cases he

theorem settled_concludeAttempt {r : Except IoError Unit × Link} {due : Option Instant}
    (hok : r.1 = .ok () → Settled due .ongoing r.2)
    (herror : ∀ e, r.1 = .error e → r.2.conn.state = .connecting ∧ r.2.queue.state ≠ .closed ∧
      r.2.conn.Consistent) {progress : Progress}
    (h : concludeAttempt r = (.ok progress, l')) : Settled due progress l' := by
  rcases r with ⟨e | _, l⟩
  · have ⟨hstate, hqueue, hc⟩ := herror e rfl
    exact settled_attemptFailed hstate hqueue hc h due
  · cases h
    exact hok rfl

/-- Establishing a connection and settling what comes of it. -/
theorem settled_establish (hs : l.conn.socket = some s) (hstate : l.conn.state = .connecting)
    (hretry : l.conn.retryAt = none) {progress : Progress}
    (h : concludeAttempt l.establish = (.ok progress, l')) (due : Option Instant) :
    Settled due progress l' := by
  have ⟨hqueue, hcases⟩ := establish_cases l hs
  refine settled_concludeAttempt (fun hok => ?_) (fun e he => ?_) h
  · rcases hcases with ⟨_, hconn⟩ | ⟨⟨e, he⟩, _⟩
    · rw [Settled, hconn, hqueue]
      exact ⟨.connected rfl hs rfl rfl hretry rfl rfl, .inl hretry⟩
    · cases he.symm.trans hok
  · rcases hcases with ⟨hok, _⟩ | ⟨_, hconn⟩
    · cases hok.symm.trans he
    · rw [hconn, hqueue]
      have hconsistent : l.conn.Consistent := by
        intro hnone
        cases hs.symm.trans hnone
      have hopen : ConnectionState.connected ≠ .closed := by decide
      exact ⟨hstate, hopen, hconsistent⟩

/-- Watching for the end of a connect that goes on. -/
theorem settled_await (hs : l.conn.socket = some s) (hstate : l.conn.state = .connecting)
    (hretry : l.conn.retryAt = none) (hqueue : l.queue.state = .connecting)
    (hwriter : l.queue.writer = none) {progress : Progress}
    (h : concludeAttempt (l.arm .writing) = (.ok progress, l')) (due : Option Instant) :
    Settled due progress l' := by
  have ⟨harm, hcases⟩ := arm_cases l hs .writing
  refine settled_concludeAttempt (fun hok => ?_) (fun e he => ?_) h
  · rcases hcases with ⟨_, hconn⟩ | ⟨⟨e, he⟩, _⟩
    · rw [Settled, hconn, harm]
      exact ⟨.inFlight hstate hs rfl hretry hwriter hqueue, .inl hretry⟩
    · cases he.symm.trans hok
  · rcases hcases with ⟨hok, _⟩ | ⟨_, hconn⟩
    · cases hok.symm.trans he
    · rw [hconn, harm, hqueue]
      have hconsistent : l.conn.Consistent := by
        intro hnone
        cases hs.symm.trans hnone
      exact ⟨hstate, by decide, hconsistent⟩

theorem conn_beginAttempt (l : Link) :
    l.beginAttempt.conn = { l.conn with
      retryAt := none
      attempts := min (l.conn.attempts + 1) maxAttemptCount
      state := .connecting } := by
  rw [beginAttempt, conn_setState, conn_suspendQueue]

theorem queue_beginAttempt (l : Link) : l.beginAttempt.queue = l.queue.connecting.2 := by
  rw [beginAttempt, queue_setState, queue_suspendQueue]

/-- An attempt that has a socket. -/
theorem conn_adopt (l : Link) (k : Kernel) (s : SocketId) :
    (adopt { l.beginAttempt with kernel := k } s).conn = { l.conn with
      socket := some s
      retryAt := none
      attempts := min (l.conn.attempts + 1) maxAttemptCount
      state := .connecting } := by
  rw [adopt, conn_letGo, conn_beginAttempt]

theorem queue_adopt (l : Link) (k : Kernel) (s : SocketId) :
    (adopt { l.beginAttempt with kernel := k } s).queue = l.queue.connecting.2 := by
  rw [adopt, queue_letGo, queue_beginAttempt]

/-- An attempt to connect, by a connection whose socket is not registered. -/
theorem settled_connect (hstate : l.conn.state ≠ .closed) (hqueue : l.queue.state ≠ .closed)
    (hr : l.conn.registered = none) {progress : Progress}
    (h : l.connect = (.ok progress, l')) : Settled none progress l' := by
  have ⟨hqstate, hqwriter⟩ := SendQueue.state_connecting hqueue
  have hconnects := connects l
  generalize l.connect = r at h hconnects
  cases hconnects with
  | closed hclosed => exact absurd hclosed hstate
  | unmade _ _ =>
      refine settled_attemptFailed ?_ ?_ (fun _ => ?_) h none
      · rw [conn_beginAttempt]
      · rw [queue_beginAttempt, hqstate]
        decide
      · rw [conn_beginAttempt]
        exact hr
  | @atOnce s _ _ _ =>
      refine settled_establish (s := s) ?_ ?_ ?_ h none
      · rw [conn_adopt]
      · rw [conn_adopt]
      · rw [conn_adopt]
  | @underWay s _ _ _ =>
      refine settled_await (s := s) ?_ ?_ ?_ ?_ ?_ h none
      · rw [conn_adopt]
      · rw [conn_adopt]
      · rw [conn_adopt]
      · rw [queue_adopt, hqstate]
      · rw [queue_adopt, hqwriter]

theorem settled_finishConnect (hshape : Shape l.conn l.queue) (hstate : l.conn.state = .connecting)
    (event : Event) {progress : Progress} (h : l.finishConnect event = (.ok progress, l')) :
    Settled l.conn.retryAt progress l' := by
  unfold finishConnect at h
  split at h
  · cases h
    exact ⟨hshape, .inr rfl⟩
  · next s hs =>
    have hretry : l.conn.retryAt = none := by
      cases hshape with
      | connected h1 _ _ _ _ _ _ => cases h1.symm.trans hstate
      | inFlight _ _ _ h4 _ _ => exact h4
      | waiting _ h2 _ _ _ _ => cases hs.symm.trans h2
    have hqueue : l.queue.state ≠ .closed := by
      cases hshape with
      | connected _ _ _ _ _ _ h7 => rw [h7]; decide
      | inFlight _ _ _ _ _ h6 | waiting _ _ _ _ _ h6 => rw [h6]; decide
    have hconn : (l.connectOutcome s event).2.conn = l.conn := rfl
    have hq : (l.connectOutcome s event).2.queue = l.queue := rfl
    rcases ho : l.connectOutcome s event with ⟨e | _, l₁⟩ <;> rw [ho] at h hconn hq
    · refine settled_attemptFailed ?_ ?_ ?_ h _
      · exact (congrArg Connection.state hconn).trans hstate
      · exact fun hclosed => hqueue ((congrArg SendQueue.state hq).symm.trans hclosed)
      · exact fun hnone => absurd ((congrArg Connection.socket hconn).symm.trans hnone)
          (by simp [hs])
    · refine settled_establish (s := s) ?_ ?_ ?_ h _
      · exact (congrArg Connection.socket hconn).trans hs
      · exact (congrArg Connection.state hconn).trans hstate
      · exact (congrArg Connection.retryAt hconn).trans hretry

/-! ## Serving -/

theorem takeIn_keeps (l : Link) (bytes : Bytes) :
    (∃ decoder stalled, (l.takeIn bytes).2.conn =
      { l.conn with decoder := decoder, stalled := stalled }) ∧
      (l.takeIn bytes).2.queue = l.queue := by
  unfold takeIn
  simp only
  split
  · exact ⟨⟨_, _, rfl⟩, rfl⟩
  · split
    · exact ⟨⟨_, _, rfl⟩, rfl⟩
    · exact ⟨⟨_, _, rfl⟩, rfl⟩

/-- Reading changes the decoder, and what is noted of it. -/
theorem read_keeps (l : Link) :
    (∃ decoder stalled, l.read.2.conn = { l.conn with decoder := decoder, stalled := stalled }) ∧
      l.read.2.queue = l.queue := by
  unfold read
  split
  · exact ⟨⟨_, _, rfl⟩, rfl⟩
  · refine readFrom_keeps
      (P := fun l' => (∃ decoder stalled, l'.conn =
        { l.conn with decoder := decoder, stalled := stalled }) ∧ l'.queue = l.queue)
      (fun l' h => h) (fun l' bytes ⟨⟨decoder, stalled, hconn⟩, hqueue⟩ => ?_) ⟨⟨_, _, rfl⟩, rfl⟩
    have ⟨⟨decoder', stalled', hconn'⟩, hqueue'⟩ := takeIn_keeps l' bytes
    refine ⟨⟨decoder', stalled', ?_⟩, hqueue'.trans hqueue⟩
    rw [hconn', hconn]

theorem conn_flush (l : Link) : l.flush.2.conn = l.conn := by
  unfold flush
  simp only
  split <;> rfl

theorem queue_flush (l : Link) : l.flush.2.queue = (l.queue.flush l.kernel).2.1 := by
  unfold flush
  simp only
  split <;> rfl

/-- How a connection, due before at `due`, has settled after an event. -/
def SettledAfter (due : Option Instant) : Except Setback Progress × Link → Prop
  | (.ok progress, l) => Settled due progress l
  | (.error (.failed _), l) => Shape l.conn l.queue ∧ l.conn.retryAt = due
  | (.error (.fault _), _) => True

/-- A connection that is connected, and due at `due`, which is never. -/
structure Up (due : Option Instant) (c : Connection) (q : SendQueue) : Prop where
  shape : Shape c q
  state : c.state = .connected
  retryAt : c.retryAt = due

variable {due : Option Instant}

theorem Up.read (h : Up due l.conn l.queue) : Up due l.read.2.conn l.read.2.queue := by
  have ⟨⟨decoder, stalled, hconn⟩, hqueue⟩ := read_keeps l
  rw [hconn, hqueue]
  exact ⟨h.shape.congr rfl rfl rfl rfl rfl rfl, h.state, h.retryAt⟩

theorem Up.flush (h : Up due l.conn l.queue) : Up due l.flush.2.conn l.flush.2.queue := by
  have ⟨_, _, _, hqueue⟩ := SendQueue.flush_keeps l.queue l.kernel
  rw [conn_flush, queue_flush, hqueue]
  exact ⟨h.shape.congr rfl rfl rfl rfl rfl rfl, h.state, h.retryAt⟩

theorem Up.rearm (h : Up due l.conn l.queue) : Up due l.rearm.2.conn l.rearm.2.queue := by
  have hstate := h.state
  unfold Link.rearm
  rw [if_pos hstate]
  cases h.shape with
  | inFlight h1 _ _ _ _ _ | waiting h1 _ _ _ _ _ => cases h1.symm.trans hstate
  | @connected s i _ hs hr hread hretry hw hq =>
      have ⟨hqueue, hcases⟩ := arm_cases l hs (.serving l.queue.hasPending)
      rcases hcases with ⟨_, hconn⟩ | ⟨_, hconn⟩ <;> rw [hconn, hqueue]
      · exact ⟨.connected hstate hs rfl rfl hretry hw hq, hstate, h.retryAt⟩
      · exact h

theorem Up.gone_close (h : Up due l.conn l.queue) : Gone l.close.conn l.close.queue := by
  refine Link.gone_close ?_ h.shape.consistent
  rw [h.state]
  decide

theorem Up.concludeService (h : Up due l.conn l.queue) : SettledAfter due l.concludeService := by
  have hrearm := h.rearm
  unfold Link.concludeService
  generalize l.rearm = r at hrearm ⊢
  rcases r with ⟨e | _, l'⟩
  · exact ⟨hrearm.shape, hrearm.retryAt⟩
  · exact ⟨hrearm.shape, .inr hrearm.retryAt⟩

theorem Up.serveWriting (h : Up due l.conn l.queue) (event : Event) :
    SettledAfter due (l.serveWriting event) := by
  have hflush := h.flush
  unfold Link.serveWriting
  split
  · generalize l.flush = r at hflush ⊢
    rcases r with ⟨e | _, l'⟩
    · by_cases hd : e.kind.isDisconnect
      · simp only [if_pos hd]
        exact hflush.gone_close
      · simp only [if_neg hd]
        exact ⟨hflush.shape, hflush.retryAt⟩
    · exact hflush.concludeService
  · exact h.concludeService

theorem Up.serve (h : Up due l.conn l.queue) (event : Event) :
    SettledAfter due (l.serve event) := by
  have hread := h.read
  unfold Link.serve
  split
  · generalize l.read = r at hread ⊢
    rcases r with ⟨(_ | _) | (_ | _), l'⟩
    · exact ⟨hread.shape, hread.retryAt⟩
    · trivial
    · exact hread.gone_close
    · exact hread.serveWriting event
  · exact h.serveWriting event

/-- Whatever the event, the connection settles. -/
theorem settled_handleEvent (hshape : Shape l.conn l.queue) (event : Event) :
    SettledAfter l.conn.retryAt (l.handleEvent event) := by
  unfold handleEvent
  rcases hstate : l.conn.state with _ | _ | _ | _
  · exact ⟨hshape, .inr rfl⟩
  · rcases hfinish : l.finishConnect event with ⟨_ | progress, l'⟩
    · trivial
    · exact settled_finishConnect hshape hstate event hfinish
  · exact (Up.mk hshape hstate rfl).serve event
  · exact ⟨hshape, .inr rfl⟩

theorem settled_rearm (h : Shape l.conn l.queue) : Settled l.conn.retryAt .ongoing l.rearm.2 := by
  by_cases hstate : l.conn.state = .connected
  · have hup := (Up.mk h hstate rfl).rearm
    exact ⟨hup.shape, .inr hup.retryAt⟩
  · unfold rearm
    rw [if_neg hstate]
    exact ⟨h, .inr rfl⟩

/-! ## Faults

A fault leaves the connection as it was about to be undone, but never closed.
-/

theorem state_of_attemptFailed_fault {fault : Fault} (h : l.attemptFailed = (.error fault, l')) :
    l'.conn.state = l.conn.state := by
  unfold attemptFailed at h
  simp only at h
  split at h
  · split at h
    · cases h
      rw [conn_suspendQueue, state_release]
    · cases h
  · cases h

theorem state_of_concludeAttempt_fault {r : Except IoError Unit × Link} {fault : Fault}
    (hstate : r.1 ≠ .ok () → r.2.conn.state = .connecting)
    (h : concludeAttempt r = (.error fault, l')) : l'.conn.state = .connecting := by
  rcases r with ⟨e | _, l⟩
  · exact (state_of_attemptFailed_fault h).trans (hstate nofun)
  · cases h

theorem state_of_establish (hs : l.conn.socket = some s) (hstate : l.conn.state = .connecting)
    (hne : l.establish.1 ≠ .ok ()) : l.establish.2.conn.state = .connecting := by
  rcases (establish_cases l hs).2 with ⟨hok, _⟩ | ⟨_, hconn⟩
  · exact absurd hok hne
  · rw [hconn]
    exact hstate

theorem state_of_connect_fault {fault : Fault} (h : l.connect = (.error fault, l')) :
    l'.conn.state = .connecting := by
  have hconnects := connects l
  generalize l.connect = r at h hconnects
  cases hconnects with
  | closed _ => cases h
  | unmade _ _ =>
      rw [state_of_attemptFailed_fault h, conn_beginAttempt]
  | @atOnce s _ _ _ =>
      refine state_of_concludeAttempt_fault (state_of_establish (s := s) ?_ ?_) h
      · rw [conn_adopt]
      · rw [conn_adopt]
  | underWay _ _ =>
      refine state_of_concludeAttempt_fault (fun _ => ?_) h
      rw [state_arm, conn_adopt]

theorem state_of_finishConnect_fault (hstate : l.conn.state = .connecting) {event : Event}
    {fault : Fault} (h : l.finishConnect event = (.error fault, l')) :
    l'.conn.state = .connecting := by
  unfold finishConnect at h
  split at h
  · cases h
  · next s hs =>
    have hconn : (l.connectOutcome s event).2.conn = l.conn := rfl
    rcases ho : l.connectOutcome s event with ⟨e | _, l₁⟩ <;> rw [ho] at h hconn
    · exact (state_of_attemptFailed_fault h).trans ((congrArg Connection.state hconn).trans hstate)
    · refine state_of_concludeAttempt_fault (state_of_establish (s := s) ?_ ?_) h
      · exact (congrArg Connection.socket hconn).trans hs
      · exact (congrArg Connection.state hconn).trans hstate

theorem serveWriting_ne_fault {event : Event} {fault : Fault} :
    (l.serveWriting event).1 ≠ .error (.fault fault) := by
  have hconclude (l : Link) : l.concludeService.1 ≠ .error (.fault fault) := by
    unfold concludeService
    split <;> nofun
  unfold serveWriting
  split
  · split
    · exact hconclude _
    · split <;> nofun
  · exact hconclude _

/-- A fault does not close a connection. -/
theorem alive_of_handleEvent_fault {event : Event} {fault : Fault}
    (h : l.handleEvent event = (.error (.fault fault), l')) : l'.conn.state.Alive := by
  unfold handleEvent at h
  rcases hstate : l.conn.state with _ | _ | _ | _ <;> rw [hstate] at h
  · cases h
  · simp only at h
    rcases hfinish : l.finishConnect event with ⟨f | progress, l₁⟩ <;> rw [hfinish] at h
    · cases h
      exact .inl (state_of_finishConnect_fault hstate hfinish)
    · cases h
  · simp only at h
    have ⟨⟨decoder, stalled, hconn⟩, _⟩ := read_keeps l
    unfold serve at h
    split at h
    · rcases hread : l.read with ⟨setback | (_ | _), l₁⟩ <;> rw [hread] at h hconn
      · cases h
        rw [hconn, hstate]
        exact .inr rfl
      · cases h
      · exact absurd (congrArg Prod.fst h) serveWriting_ne_fault
    · exact absurd (congrArg Prod.fst h) serveWriting_ne_fault
  · cases h

end Link

end TextLink
