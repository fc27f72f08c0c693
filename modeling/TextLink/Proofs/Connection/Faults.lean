import TextLink.Proofs.Connection.Supply

/-!
# When a connection meets no fault

There are two ways for a connection to fault: its handler faults on a text, or an attempt to connect
fails so late that the next one would be due beyond every deadline. A connection whose handler never
faults, and whose longest wait still ends in time, is calm (`Connection.Calm`). What it is asked to
do comes to an end without a fault.

## Main results

* `connect_ne_fault`, `handleEvent_ne_fault` — a calm connection meets no fault.
-/

namespace TextLink

open Relation (ReflTransGen)

/-- No wait is longer than the longest one. -/
theorem ConnectPolicy.nanos_backoff_le (p : ConnectPolicy) (failed : Nat) :
    (p.backoff failed).nanos ≤ p.maxBackoff.nanos := by
  by_cases h : failed = 0
  · rw [backoff, if_pos h]
    show min 0 maxNanos ≤ _
    rw [Nat.zero_min]
    exact Nat.zero_le _
  · rw [p.nanos_backoff h]
    exact Nat.min_le_right _ _

/-- The handler never faults, and after an attempt that fails at `t` there can be a next one. -/
structure Connection.Calm (c : Connection) (t : Instant) : Prop where
  handler : c.handler.faultsOn = none
  deadline : t.nanos + c.policy.maxBackoff.nanos ≤ Instant.lastDeadline.nanos

namespace Connection.Calm

variable {c c' : Connection} {t t' : Instant}

theorem congr (h : c.Calm t) (hid : c'.identity = c.identity) : c'.Calm t where
  handler := congrArg (·.2.2.2.1.faultsOn) hid ▸ h.handler
  deadline := congrArg (·.2.2.2.2.1.maxBackoff.nanos) hid ▸ h.deadline

theorem before (h : c.Calm t) (hle : t' ≤ t) : c.Calm t' where
  handler := h.handler
  deadline := Nat.le_trans (Nat.add_le_add_right hle _) h.deadline

end Connection.Calm

namespace Link

variable {l l' : Link} {s : SocketId} {fault : Fault}

/-- The connection is calm now. -/
abbrev Calm (l : Link) : Prop := l.conn.Calm l.now

theorem Calm.of_eq (h : l.Calm) (hid : l'.conn.identity = l.conn.identity)
    (hclock : l'.kernel.clock = l.kernel.clock) : l'.Calm := by
  have hcalm : l'.conn.Calm l.kernel.clock := Connection.Calm.congr h hid
  rwa [← hclock] at hcalm

/-! ## Connecting -/

theorem identity_release (l : Link) : l.release.conn.identity = l.conn.identity := by
  unfold release
  split
  · rfl
  · simp only [conn_letGo]
    rfl

theorem Calm.suspended (h : l.Calm) : l.release.suspendQueue.Calm := by
  have hsteps : Steps .called l l.release.suspendQueue :=
    Steps.suspendQueue (ReflTransGen.single (.release l))
  refine h.of_eq ?_ hsteps.spends.clock_eq
  rw [conn_suspendQueue, identity_release]

theorem attemptFailed_ne_fault (h : l.Calm) : l.attemptFailed.1 ≠ .error fault := by
  have hcalm := h.suspended
  unfold attemptFailed
  simp only
  generalize l.release.suspendQueue = l₁ at hcalm
  split
  · have hdeadline : l₁.retryDeadline =
      some (l₁.now.after (l₁.conn.policy.backoff l₁.conn.attempts)) := by
      refine Instant.deadline?_eq_some_iff.2 ⟨rfl, ?_⟩
      have hle := l₁.conn.policy.nanos_backoff_le l₁.conn.attempts
      exact Nat.le_trans (Nat.add_le_add_left hle _) hcalm.deadline
    rw [hdeadline]
    exact nofun
  · exact nofun

theorem concludeAttempt_ne_fault {r : Except IoError Unit × Link} (h : r.2.Calm) :
    (concludeAttempt r).1 ≠ .error fault := by
  rcases r with ⟨e | _, l⟩
  · exact attemptFailed_ne_fault h
  · exact nofun

theorem Calm.arm (h : l.Calm) (interest : Interest) : (l.arm interest).2.Calm := by
  refine h.of_eq ?_ (dealings_arm l interest).spends.clock_eq
  rcases hs : l.conn.socket with _ | s
  · unfold Link.arm
    rw [hs]
  · rcases (arm_cases l hs interest).2 with ⟨_, hconn⟩ | ⟨_, hconn⟩
    · rw [hconn]
      rfl
    · rw [hconn]

theorem Calm.establish (h : l.Calm) : l.establish.2.Calm := by
  unfold Link.establish
  rcases l.conn.socket with _ | s
  · exact h
  · have hput : (letGo { l with queue := l.queue.connected s } l.queue.writer).Calm := by
      refine h.of_eq ?_ (dealings_queue l (l.queue.connected s) l.queue.writer).spends.clock_eq
      rw [conn_letGo]
    simp only
    generalize letGo { l with queue := l.queue.connected s } l.queue.writer = l₁ at hput ⊢
    have harm := hput.arm (.serving l₁.queue.hasPending)
    generalize l₁.arm (.serving l₁.queue.hasPending) = r at harm ⊢
    rcases r with ⟨e | _, l₂⟩
    · exact harm
    · refine harm.of_eq ?_ (congrArg Kernel.clock (kernel_setState l₂ .connected))
      rw [conn_setState]
      rfl

/-- An attempt by a calm connection meets no fault. -/
theorem connect_ne_fault (h : l.Calm)
    (hstate : l.conn.state = .disconnected ∨ l.conn.state = .connecting) :
    l.connect.1 ≠ .error fault := by
  have hopened {r : Except Errno (SocketId × Bool)} {k : Kernel}
      (hk : l.beginAttempt.kernel.openStream l.beginAttempt.conn.address = (r, k)) :
      k.clock = l.kernel.clock :=
    (Kernel.clock_of_openStream hk).trans (Steps.beginAttempt hstate).spends.clock_eq
  have hadopted {s : SocketId} {isUp : Bool} {k : Kernel}
      (hk : l.beginAttempt.kernel.openStream l.beginAttempt.conn.address = (.ok (s, isUp), k)) :
      (adopt { l.beginAttempt with kernel := k } s).Calm := by
    have hlet := (dealings_letGo { l.beginAttempt with
      kernel := k, conn := { l.beginAttempt.conn with socket := some s } }
        l.beginAttempt.conn.socket).spends.clock_eq
    refine h.of_eq ?_ (hlet.trans (hopened hk))
    rw [conn_adopt]
    rfl
  have hconnects := connects l
  generalize l.connect = r at hconnects ⊢
  cases hconnects with
  | closed _ => exact nofun
  | @unmade e k _ hk =>
      refine attemptFailed_ne_fault (h.of_eq ?_ (hopened hk))
      rw [conn_beginAttempt]
      rfl
  | atOnce _ hk => exact concludeAttempt_ne_fault (hadopted hk).establish
  | underWay _ hk => exact concludeAttempt_ne_fault ((hadopted hk).arm .writing)

/-! ## Events -/

theorem finishConnect_ne_fault (h : l.Calm) (event : Event) :
    (l.finishConnect event).1 ≠ .error fault := by
  unfold Link.finishConnect
  split
  · exact nofun
  · next s _ =>
    have houtcome : (l.connectOutcome s event).2.Calm :=
      h.of_eq rfl (Kernel.spends_takeError l.kernel s).clock_eq
    generalize l.connectOutcome s event = r at houtcome ⊢
    rcases r with ⟨e | _, l₁⟩
    · exact attemptFailed_ne_fault houtcome
    · exact concludeAttempt_ne_fault houtcome.establish

theorem takeIn_stands (h : l.conn.handler.faultsOn = none) (bytes : Bytes) :
    (l.takeIn bytes).1 = true := by
  unfold takeIn
  simp only [h]
  split
  · next hfaults =>
    rw [Bool.and_eq_true] at hfaults
    cases hfaults.2
  · split <;> rfl

theorem readFrom_ne_fault (h : l.conn.handler.faultsOn = none) :
    (l.readFrom s).1 ≠ .error (.fault fault) := by
  fun_induction Link.readFrom l s with
  | case1 | case4 | case6 | case7 =>
      intro heq
      cases heq
  | case2 l b bs k hk told ht ih =>
      refine ih ?_
      obtain ⟨⟨decoder, stalled, hconn⟩, _⟩ := takeIn_keeps { l with kernel := k } (b :: bs)
      rw [ht] at hconn
      rw [hconn]
      exact h
  | case3 l b bs k hk told ht =>
      have hstands := takeIn_stands (l := { l with kernel := k }) h (b :: bs)
      rw [ht] at hstands
      cases hstands
  | case5 l k hk hne ih => exact ih h

theorem serve_ne_fault (h : l.conn.handler.faultsOn = none) (event : Event) :
    (l.serve event).1 ≠ .error (.fault fault) := by
  have hread : l.read.1 ≠ .error (.fault fault) := by
    unfold read
    split
    · exact nofun
    · exact readFrom_ne_fault h
  unfold Link.serve
  split
  · generalize l.read = r at hread ⊢
    rcases r with ⟨setback | (_ | _), l₁⟩
    · intro heq
      cases heq
      exact hread rfl
    · exact nofun
    · exact serveWriting_ne_fault
  · exact serveWriting_ne_fault

/-- An event of a calm connection is handled without a fault. -/
theorem handleEvent_ne_fault (h : l.Calm) (event : Event) :
    (l.handleEvent event).1 ≠ .error (.fault fault) := by
  have hfinish (fault : Fault) : (l.finishConnect event).1 ≠ .error fault :=
    finishConnect_ne_fault h event
  unfold Link.handleEvent
  split
  · generalize l.finishConnect event = r at hfinish ⊢
    rcases r with ⟨f | progress, l₁⟩
    · exact absurd rfl (hfinish f)
    · exact nofun
  · exact serve_ne_fault h.handler event
  · exact nofun
  · exact nofun

end Link

end TextLink
