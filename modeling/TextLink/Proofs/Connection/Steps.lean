import Mathlib.Logic.Relation
import TextLink.Proofs.Connection.Shape
import TextLink.Proofs.Kernel.Progress

/-!
# What a connection does, step by step

Whatever a loop has a connection do is a sequence of a few elementary steps (`Link.Step`): a socket
is made, registered, asked for its error, read from or given up; the queue is suspended, set to
write, or closed; a state is entered. So what every step keeps is kept by every handler, and a
property of handlers is shown case by case over the steps. Each step carries what the handlers have
made sure of when they take it: nothing is read before the connection is established, and the queue
is set to write to a socket only if that is up, or if its error was read and there was none.

Which steps are taken depends on the occasion (`Occasion`). Sockets are made only when the loop has
a connection attempt to connect, and a socket's error is read, or the socket is read from and
written to, only for an event. Where a connect is attempted or concluded, the connection is closed
only if it was not established.

## Main results

* `Steps.connect`, `Steps.handleEvent`, `Steps.rearm`, `Steps.close` — the handlers as sequences of
  steps.
* `Steps.leads` — steps stay within the reach of the connection.
-/

namespace TextLink

namespace Link

open Relation (ReflTransGen)

/-! ## Steps -/

/-- Why a connection acts. -/
inductive Occasion where
  /-- The loop has it attempt to connect. -/
  | attempting
  /-- The loop has it be watched, or close. -/
  | called
  /-- An event tells that its connect has ended. -/
  | concluding
  /-- An event tells that it can read or write. -/
  | serving
deriving DecidableEq

namespace Occasion

/-- Why a connection acts that has an event. -/
def ofEvent : ConnectionState → Occasion
  | .connected => .serving
  | _ => .concluding

/-- Whether there is an event. -/
def isEvent : Occasion → Bool
  | .concluding | .serving => true
  | .attempting | .called => false

/-- Whether it is about a connect. -/
def isConnect : Occasion → Bool
  | .attempting | .concluding => true
  | .called | .serving => false

theorem isEvent_ofEvent (state : ConnectionState) : (ofEvent state).isEvent = true := by
  cases state <;> rfl

end Occasion

/-- One elementary step of a connection. -/
inductive Step : Occasion → Link → Link → Prop where
  | note {why : Occasion} (l : Link) (rs : List LogRecord) : Step why l (l.note rs)
  | plan {why : Occasion} (l : Link) (attempts : Nat) (due : Option Instant) :
      Step why l { l with conn := { l.conn with attempts, retryAt := due } }
  | suspend {why : Occasion} (l : Link) :
      Step why l ({ l with queue := l.queue.connecting.2 }.letGo l.queue.writer)
  | closeQueue {why : Occasion} (l : Link) : Step why l l.closeQueue.2
  | release {why : Occasion} (l : Link) : Step why l l.release
  /-- Once established, it is watched for writing only while messages wait. -/
  | arm {why : Occasion} (l : Link) (interest : Interest)
      (hneeded : l.conn.state = .connected → interest.write = l.queue.hasPending) :
      Step why l (l.arm interest).2
  | begin {l : Link} (hstate : l.conn.state = .disconnected ∨ l.conn.state = .connecting) :
      Step .attempting l (l.setState .connecting)
  /-- There is no socket to be had. -/
  | unmade {l : Link} {e : Errno} {k : Kernel}
      (h : l.kernel.openStream l.conn.address = (.error e, k)) :
      Step .attempting l { l with kernel := k }
  | made {l : Link} {s : SocketId} {isUp : Bool} {k : Kernel} (hstate : l.conn.state = .connecting)
      (hsocket : l.conn.socket = none) (hregistered : l.conn.registered = none)
      (h : l.kernel.openStream l.conn.address = (.ok (s, isUp), k)) :
      Step .attempting l { l with kernel := k, conn := { l.conn with socket := some s } }
  /-- There is no error. -/
  | cleared {l : Link} {s : SocketId} {k : Kernel} (hstate : l.conn.state = .connecting)
      (hsocket : l.conn.socket = some s) (h : l.kernel.takeError s = (.ok none, k)) :
      Step .concluding l { l with kernel := k }
  /-- There is one, or none can be had; the socket is given up. -/
  | refused {l : Link} {s : SocketId} {r : Except Errno (Option Errno)} {k : Kernel}
      (hstate : l.conn.state = .connecting) (hsocket : l.conn.socket = some s)
      (h : l.kernel.takeError s = (r, k)) (hr : r ≠ .ok none) :
      Step .concluding l { l with kernel := k }.release
  /-- The queue is set to write to the socket. -/
  | put {why : Occasion} {l : Link} {s : SocketId} (hwhy : why.isConnect = true)
      (hstate : l.conn.state = .connecting) (hsocket : l.conn.socket = some s)
      (hup : l.kernel.IsUp s ∨ why = .concluding ∧ l.kernel.pendingError s = none) :
      Step why l ({ l with queue := l.queue.connected s }.letGo l.queue.writer)
  | establish {why : Occasion} {l : Link} {s : SocketId} (hwhy : why.isConnect = true)
      (hstate : l.conn.state = .connecting) (hsocket : l.conn.socket = some s)
      (hwriter : l.queue.writer = some s) :
      Step why l (l.setState .connected)
  /-- Nothing is received. -/
  | miss {l : Link} {s : SocketId} {r : Except Errno Bytes} {k : Kernel}
      (hstate : l.conn.state = .connected) (hsocket : l.conn.socket = some s)
      (h : l.kernel.receive s l.conn.chunk = (r, k))
      (hr : ∀ bytes, r = .ok bytes → bytes = []) : Step .serving l { l with kernel := k }
  /-- Bytes are received, and taken in. -/
  | take {l : Link} {s : SocketId} {b : UInt8} {bs : Bytes} {k : Kernel}
      (hstate : l.conn.state = .connected) (hsocket : l.conn.socket = some s)
      (h : l.kernel.receive s l.conn.chunk = (.ok (b :: bs), k)) :
      Step .serving l (takeIn { l with kernel := k } (b :: bs)).2
  | flush {l : Link} (hstate : l.conn.state = .connected) :
      Step .serving l { l with
        queue := (l.queue.flush l.kernel).2.1, kernel := (l.queue.flush l.kernel).2.2 }
  | shut {why : Occasion} {l : Link} (rs : List LogRecord) (hstate : l.conn.state ≠ .closed)
      (hwhy : why.isConnect = true → l.conn.state = .connecting)
      (hsocket : l.conn.socket = none) (hwriter : l.queue.writer = none) :
      Step why l
        ((note { l with conn := { l.conn with retryAt := none, decoder := {} } } rs).setState
          .closed)

variable {l l' : Link} {s : SocketId} {why : Occasion}

/-- Any number of steps. -/
abbrev Steps (why : Occasion) : Link → Link → Prop := ReflTransGen (Step why)

/-! ## Closing and giving up -/

theorem socket_release (l : Link) : l.release.conn.socket = none := by
  unfold release
  rcases hs : l.conn.socket with _ | s
  · exact hs
  · simp only [conn_letGo]

namespace Steps

theorem step {l'' : Link} (h : Steps why l l') (hstep : Step why l' l'') :
    Steps why l l'' :=
  ReflTransGen.tail h hstep

theorem suspendQueue (h : Steps why l l') : Steps why l l'.suspendQueue :=
  (h.step (.suspend l')).step (.note _ _)

theorem close (h : Steps why l l') (hwhy : why.isConnect = true → l'.conn.state = .connecting) :
    Steps why l l'.close := by
  have hstate : l'.release.closeQueue.2.conn.state = l'.conn.state := by
    rw [conn_closeQueue, state_release]
  unfold Link.close
  split
  · exact h
  · next hne =>
    refine ((h.step (.release l')).step (.closeQueue _)).step (.shut _ ?_ ?_ ?_ ?_)
    · exact hstate.symm ▸ hne
    · exact fun hconnect => hstate.trans (hwhy hconnect)
    · rw [conn_closeQueue, socket_release]
    · rw [queue_closeQueue]
      rfl

/-- What is left to do about a failed attempt once its socket is given up. -/
theorem attemptFailed_of_release (h : Steps why l l'.release)
    (hstate : l'.conn.state = .connecting) : Steps why l l'.attemptFailed.2 := by
  have hqueue := h.suspendQueue
  have hstate : l'.release.suspendQueue.conn.state = .connecting := by
    rw [conn_suspendQueue, state_release, hstate]
  unfold Link.attemptFailed
  simp only
  split
  · split
    · exact hqueue
    · exact hqueue.step (.plan _ _ _)
  · exact (hqueue.step (.note _ _)).close fun _ => hstate

theorem attemptFailed (h : Steps why l l') (hstate : l'.conn.state = .connecting) :
    Steps why l l'.attemptFailed.2 :=
  attemptFailed_of_release (h.step (.release l')) hstate

theorem concludeAttempt {r : Except IoError Unit × Link} (h : Steps why l r.2)
    (hstate : r.1 ≠ .ok () → r.2.conn.state = .connecting) :
    Steps why l (Link.concludeAttempt r).2 := by
  rcases r with ⟨_ | _, l'⟩
  · exact h.attemptFailed (hstate nofun)
  · exact h

/-! ## Establishing -/

theorem establish (h : Steps why l l') (hwhy : why.isConnect = true)
    (hstate : l'.conn.state = .connecting)
    (hup : ∀ s, l'.conn.socket = some s →
      l'.kernel.IsUp s ∨ why = .concluding ∧ l'.kernel.pendingError s = none) :
    Steps why l l'.establish.2 := by
  unfold Link.establish
  rcases hs : l'.conn.socket with _ | s
  · exact h
  · have hput := h.step (.put hwhy hstate hs (hup s hs))
    have hconn : (letGo { l' with queue := l'.queue.connected s } l'.queue.writer).conn = l'.conn :=
      conn_letGo _ _
    have hqueue : (letGo { l' with queue := l'.queue.connected s } l'.queue.writer).queue =
      l'.queue.connected s := queue_letGo _ _
    simp only
    generalize letGo { l' with queue := l'.queue.connected s } l'.queue.writer = l₁
      at hput hconn hqueue ⊢
    have harm := hput.step (.arm l₁ (.serving l₁.queue.hasPending) fun _ => rfl)
    have ⟨hsame, hcases⟩ := arm_cases l₁ (hconn ▸ hs) (.serving l₁.queue.hasPending)
    generalize Interest.serving l₁.queue.hasPending = interest at harm hsame hcases ⊢
    generalize l₁.arm interest = r at harm hsame hcases ⊢
    rcases r with ⟨e | _, l₂⟩
    · exact harm
    · rcases hcases with ⟨_, hconn₂⟩ | ⟨⟨e, he⟩, _⟩
      · have hconn₂ : l₂.conn = { l₁.conn with registered := some interest } := hconn₂
        refine harm.step (.establish (s := s) hwhy ?_ ?_ ?_)
        · rw [hconn₂, hconn, hstate]
        · rw [hconn₂, hconn, hs]
        · rw [hsame, hqueue]
          rfl
      · cases he

end Steps

/-! ## Connecting -/

theorem socket_beginAttempt (l : Link) : l.beginAttempt.conn.socket = l.conn.socket := by
  rw [conn_beginAttempt]

theorem adopt_of_none {l : Link} (h : l.conn.socket = none) (s : SocketId) :
    l.adopt s = { l with conn := { l.conn with socket := some s } } := by
  unfold adopt
  rw [h]
  rfl

namespace Steps

theorem beginAttempt (hstate : l.conn.state = .disconnected ∨ l.conn.state = .connecting) :
    Steps .attempting l l.beginAttempt := by
  have hplan : Steps .attempting l { l with conn := { l.conn with
      attempts := min (l.conn.attempts + 1) maxAttemptCount, retryAt := none } } :=
    ReflTransGen.single (.plan l _ none)
  refine hplan.suspendQueue.step (.begin ?_)
  rw [conn_suspendQueue]
  exact hstate

/-- An attempt, by a connection that has no socket. -/
theorem connect (hstate : l.conn.state = .disconnected ∨ l.conn.state = .connecting)
    (hsocket : l.conn.socket = none) (hregistered : l.conn.registered = none) :
    Steps .attempting l l.connect.2 := by
  have hbegin := Steps.beginAttempt hstate
  have hnone : l.beginAttempt.conn.socket = none := (socket_beginAttempt l).trans hsocket
  have hconnecting : l.beginAttempt.conn.state = .connecting := by rw [conn_beginAttempt]
  have heq (s : SocketId) (k : Kernel) : Link.adopt { l.beginAttempt with kernel := k } s = _ :=
    adopt_of_none (l := { l.beginAttempt with kernel := k }) hnone s
  have hadopt {s : SocketId} {isUp : Bool} {k : Kernel}
      (hk : l.beginAttempt.kernel.openStream l.beginAttempt.conn.address = (.ok (s, isUp), k)) :
      Steps .attempting l (Link.adopt { l.beginAttempt with kernel := k } s) := by
    rw [heq]
    exact hbegin.step (.made hconnecting hnone ((registered_beginAttempt l).trans hregistered) hk)
  have hconnects := connects l
  generalize l.connect = r at hconnects ⊢
  cases hconnects with
  | closed _ => exact ReflTransGen.refl
  | unmade _ hk => exact (hbegin.step (.unmade hk)).attemptFailed hconnecting
  | @atOnce s k _ hk =>
      have hadopted : (Link.adopt { l.beginAttempt with kernel := k } s).conn.state =
        .connecting := by
        rw [conn_adopt]
      have hsocket : (Link.adopt { l.beginAttempt with kernel := k } s).conn.socket = some s := by
        rw [conn_adopt]
      refine ((hadopt hk).establish rfl hadopted fun s' hs' => .inl ?_).concludeAttempt
        (state_of_establish hsocket hadopted)
      rw [heq] at hs' ⊢
      rw [← Option.some.inj hs']
      exact (Kernel.tried_openStream hk).2 rfl
  | @underWay s k _ hk =>
      have hstate : (Link.adopt { l.beginAttempt with kernel := k } s).conn.state =
        .connecting := by
        rw [conn_adopt]
      refine ((hadopt hk).step (.arm _ _ fun hconnected => ?_)).concludeAttempt fun _ => ?_
      · cases hstate.symm.trans hconnected
      · rw [state_arm, hstate]

end Steps

/-! ## Events -/

namespace Steps

theorem finishConnect (hstate : l.conn.state = .connecting) (event : Event) :
    Steps .concluding l (l.finishConnect event).2 := by
  unfold Link.finishConnect connectOutcome
  rcases hs : l.conn.socket with _ | s
  · exact ReflTransGen.refl
  · simp only
    rcases htake : l.kernel.takeError s with ⟨e | (_ | e), k⟩
    · exact attemptFailed_of_release (ReflTransGen.single (.refused hstate hs htake nofun)) hstate
    · have hcleared : Steps .concluding l { l with kernel := k } :=
        ReflTransGen.single (.cleared hstate hs htake)
      simp only
      split
      · next heq =>
        obtain ⟨-, rfl⟩ := Prod.mk.inj heq
        refine (hcleared.establish rfl hstate fun s' hs' => .inr ⟨rfl, ?_⟩).concludeAttempt
          (state_of_establish hs hstate)
        rw [← Option.some.inj (hs.symm.trans hs')]
        exact (Kernel.pendingError_of_takeError htake).2
      · next heq =>
        obtain ⟨-, rfl⟩ := Prod.mk.inj heq
        exact hcleared.attemptFailed hstate
    · exact attemptFailed_of_release (ReflTransGen.single (.refused hstate hs htake nofun)) hstate

/-- Reading by a connection that is established. -/
theorem readFrom (h : Steps .serving l l') (hstate : l'.conn.state = .connected)
    (hsocket : l'.conn.socket = some s) : Steps .serving l (l'.readFrom s).2 := by
  have htaken (l' : Link) {told : Link} (hstate : l'.conn.state = .connected)
      (hsocket : l'.conn.socket = some s) {bytes : Bytes} {stood : Bool}
      (ht : l'.takeIn bytes = (stood, told)) :
      told.conn.state = .connected ∧ told.conn.socket = some s := by
    have ⟨⟨decoder, stalled, hconn⟩, _⟩ := takeIn_keeps l' bytes
    rw [ht] at hconn
    rw [hconn]
    exact ⟨hstate, hsocket⟩
  have hsteps {l' told : Link} (h : Steps .serving l l') (hstate : l'.conn.state = .connected)
      (hsocket : l'.conn.socket = some s) {b : UInt8} {bs : Bytes} {k : Kernel} {stood : Bool}
      (hk : l'.kernel.receive s l'.conn.chunk = (.ok (b :: bs), k))
      (ht : { l' with kernel := k }.takeIn (b :: bs) = (stood, told)) : Steps .serving l told := by
    have htake := h.step (.take hstate hsocket hk)
    rwa [ht] at htake
  have hmiss {l' : Link} (h : Steps .serving l l') (hstate : l'.conn.state = .connected)
      (hsocket : l'.conn.socket = some s) {r : Except Errno Bytes} {k : Kernel}
      (hk : l'.kernel.receive s l'.conn.chunk = (r, k)) (hr : ∀ bytes, r = .ok bytes → bytes = []) :
      Steps .serving l { l' with kernel := k } := h.step (.miss hstate hsocket hk hr)
  have hfailed {e : Errno} (bytes : Bytes)
    (hok : (Except.error e : Except Errno Bytes) = .ok bytes) :
      bytes = [] := by cases hok
  fun_induction Link.readFrom l' s with
  | case1 l' k hk => exact hmiss h hstate hsocket hk fun bytes hok => (Except.ok.inj hok).symm
  | case2 l' b bs k hk told ht ih =>
      have hkept := htaken { l' with kernel := k } hstate hsocket ht
      exact ih (hsteps h hstate hsocket hk ht) hkept.1 hkept.2
  | case3 l' b bs k hk told ht => exact hsteps h hstate hsocket hk ht
  | case4 l' k hk => exact hmiss h hstate hsocket hk hfailed
  | case5 l' k hk hne ih => exact ih (hmiss h hstate hsocket hk hfailed) hstate hsocket
  | case6 l' e k hk hne hn hd => exact hmiss h hstate hsocket hk hfailed
  | case7 l' e k hk hne hn hd => exact hmiss h hstate hsocket hk hfailed

theorem read (hstate : l.conn.state = .connected) : Steps .serving l l.read.2 := by
  unfold Link.read
  split
  · exact ReflTransGen.refl
  · next s hs => exact Steps.readFrom ReflTransGen.refl hstate hs

theorem flush (h : Steps .serving l l') (hstate : l'.conn.state = .connected) :
    Steps .serving l l'.flush.2 := by
  have hflush := h.step (.flush hstate)
  unfold Link.flush
  simp only
  split
  · exact hflush
  · exact hflush.step (.note _ _)

theorem rearm (h : Steps why l l') : Steps why l l'.rearm.2 := by
  unfold Link.rearm
  split
  · exact h.step (.arm _ _ fun _ => rfl)
  · exact h

theorem concludeService (h : Steps .serving l l') : Steps .serving l l'.concludeService.2 := by
  have hrearm := h.rearm
  unfold Link.concludeService
  generalize l'.rearm = r at hrearm ⊢
  rcases r with ⟨e | _, l₁⟩ <;> exact hrearm

theorem serveWriting (h : Steps .serving l l') (hstate : l'.conn.state = .connected)
    (event : Event) : Steps .serving l (l'.serveWriting event).2 := by
  have hflush := h.flush hstate
  unfold Link.serveWriting
  split
  · generalize l'.flush = r at hflush ⊢
    rcases r with ⟨e | _, l₁⟩
    · simp only
      split
      · exact hflush.close nofun
      · exact hflush
    · exact hflush.concludeService
  · exact h.concludeService

theorem serve (hstate : l.conn.state = .connected) (event : Event) :
    Steps .serving l (l.serve event).2 := by
  have hread := Steps.read hstate
  have ⟨⟨decoder, stalled, hconn⟩, _⟩ := read_keeps l
  unfold Link.serve
  split
  · generalize l.read = r at hread hconn ⊢
    rcases r with ⟨e | (_ | _), l₁⟩
    · exact hread
    · exact hread.close nofun
    · have hstate₁ : l₁.conn.state = .connected := by
        rw [hconn]
        exact hstate
      exact hread.serveWriting hstate₁ event
  · exact serveWriting ReflTransGen.refl hstate event

theorem handleEvent (l : Link) (event : Event) :
    Steps (.ofEvent l.conn.state) l (l.handleEvent event).2 := by
  unfold Link.handleEvent
  rcases hstate : l.conn.state with _ | _ | _ | _
  · exact ReflTransGen.refl
  · have hfinish := Steps.finishConnect hstate event
    simp only
    generalize l.finishConnect event = r at hfinish ⊢
    rcases r with ⟨e | progress, l₁⟩ <;> exact hfinish
  · exact Steps.serve hstate event
  · exact ReflTransGen.refl

end Steps

/-! ## Reach -/

/-- A step stays within the reach of the connection. -/
theorem Step.leads (h : Step why l l') (hl : l.Sound) : Leads l l' := by
  have hrefl := Leaves.refl hl
  cases h with
  | note _ rs => exact hrefl.note rs
  | plan _ attempts due => exact leads_of_eq hl rfl rfl rfl rfl rfl rfl
  | suspend => exact leads_suspend hl
  | closeQueue => exact hrefl.closeQueue
  | release => exact hrefl.release
  | arm _ interest => exact hrefl.arm interest
  | begin _ => exact hrefl.setState .connecting
  | unmade h =>
      have hopens := Kernel.opens_openStream hl.kernel l.conn.address
      rw [h] at hopens
      exact leads_of_fails hl hopens
  | made _ hsocket hregistered h =>
      have hopens := Kernel.opens_openStream hl.kernel l.conn.address
      rw [h] at hopens
      have hleave := leaves_adopt hl hregistered hopens
      rw [hsocket] at hleave
      exact hleave
  | cleared _ hsocket h => exact hrefl.serves hsocket (Kernel.serves_of_takeError h)
  | refused _ hsocket h _ => exact (hrefl.serves hsocket (Kernel.serves_of_takeError h)).release
  | put _ _ hsocket _ => exact leads_put hl hsocket
  | establish _ _ _ _ => exact hrefl.setState .connected
  | miss _ hsocket h _ => exact hrefl.serves hsocket (Kernel.serves_of_receive h)
  | @take _ s b bs k _ hsocket h =>
      exact (hrefl.serves hsocket (Kernel.serves_of_receive h)).takeIn (b :: bs)
  | flush _ => exact leads_flush hl
  | shut rs _ _ _ _ =>
      have hconn : Leads l { l with conn := { l.conn with retryAt := none, decoder := {} } } :=
        leads_of_eq hl rfl rfl rfl rfl rfl rfl
      exact (hconn.note rs).setState .closed

theorem Steps.leads (h : Steps why l l') (hl : l.Sound) : Leads l l' := by
  induction h with
  | refl => exact .refl hl
  | tail _ hstep ih => exact ih.trans (hstep.leads ih.sound)

end Link

end TextLink
