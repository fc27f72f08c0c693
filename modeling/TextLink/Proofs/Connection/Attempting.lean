import TextLink.Proofs.Connection.Backoff
import TextLink.Proofs.Kernel.Clear

/-!
# How often it is attempted to connect

An attempt asks for one socket, whether or not there is one to be had, and nothing else a connection
does asks for any. So the attempts can be counted from outside, by the calls that ask for a socket
(`Kernel.Launches`).

A connection counts its attempts as well, and goes by its own count when one has failed: it waits
for another one only if the policy allows that after so many (`Counts`).

## Main results

* `Link.launches_connect` — an attempt asks for one socket.
* `Steps.launches` — what is done on other occasions asks for none.
* `Link.counts_connect`, `Link.counts_finishConnect` — what a connection has counted after an
  attempt.
-/

namespace TextLink

/-! ## Sockets that are asked for -/

/-- Whether a call asks for a socket. -/
def Call.launches : Call → Bool
  | .socket .. => true
  | _ => false

theorem Call.launches_eq_false {call : Call} (h : call.topic ≠ .opening) :
    call.launches = false := by
  cases call
  case socket => exact absurd rfl h
  all_goals rfl

namespace Kernel

variable {k k' k'' : Kernel} {t : Topic} {n n' : Nat}

/-- How many sockets were asked for on the way from `k` to `k'`. -/
def launches (k k' : Kernel) : Nat := (newCalls k k').countP Call.launches

/-- On the way from `k` to `k'`, `n` sockets were asked for. -/
def Launches (n : Nat) (k k' : Kernel) : Prop :=
  ∃ new, k'.calls.toList = k.calls.toList ++ new ∧ new.countP Call.launches = n

namespace Launches

theorem launches_eq (h : Launches n k k') : launches k k' = n := by
  obtain ⟨new, hcalls, rfl⟩ := h
  rw [launches, newCalls, hcalls, List.drop_left]

theorem trans (h : Launches n k k') (h' : Launches n' k' k'') : Launches (n + n') k k'' := by
  obtain ⟨new, hcalls, rfl⟩ := h
  obtain ⟨new', hcalls', rfl⟩ := h'
  exact ⟨new ++ new', by rw [hcalls', hcalls, List.append_assoc], List.countP_append⟩

theorem of_calls_eq (h : k'.calls = k.calls) : Launches 0 k k' :=
  ⟨[], by rw [h, List.append_nil], rfl⟩

theorem refl (k : Kernel) : Launches 0 k k := of_calls_eq rfl

theorem of_push (call : Call) (h : k'.calls = k.calls.push call) :
    Launches (if call.launches then 1 else 0) k k' := by
  refine ⟨[call], by rw [h, Array.toList_push], ?_⟩
  rw [List.countP_singleton]

end Launches

/-- Calls on other topics ask for no socket. -/
theorem Adds.launches (h : Adds t k k') (ht : t ≠ .opening) : Launches 0 k k' := by
  obtain ⟨new, hcalls, htopic⟩ := h
  refine ⟨new, hcalls, List.countP_eq_zero.2 fun call hcall => ?_⟩
  rw [Call.launches_eq_false (htopic call hcall ▸ ht)]
  exact Bool.false_ne_true

/-- Making a socket and starting its connect asks for one socket, whatever comes of it. -/
theorem launches_openStream (k : Kernel) (address : Address) :
    Launches 1 k (k.openStream address).2 := by
  have hmade (vs : List (CallName × Verdict)) (spare : List Nat) (next : Nat) (sock : Socket) :
      Launches 1 k (k.made vs spare next sock address.family) :=
    .of_push (.socket address.family (.ok k.sockets.length)) rfl
  have hconnected (k' : Kernel) (s : SocketId) (answer : Verdict) :
      Launches 0 k' (k'.record (.connect s address answer)) :=
    .of_push (.connect s address answer) rfl
  have hclosed (k' : Kernel) (s : SocketId) : Launches 0 k' (k'.close s) :=
    .of_calls_eq (calls_close _ _)
  have hopening := opening k address
  generalize k.openStream address = r at hopening ⊢
  cases hopening with
  | @unmade e _ _ => exact .of_push (.socket address.family (.error e)) rfl
  | unset _ => exact (hmade _ _ _ _).trans (hclosed _ _)
  | refused _ => exact ((hmade _ _ _ _).trans (hconnected _ _ _)).trans (hclosed _ _)
  | started _ _ => exact (hmade _ _ _ _).trans (hconnected _ _ _)

end Kernel

/-- Connection `c` has counted `n` attempts, and waits for another one only if that is allowed. -/
structure Connection.Counted (n : Nat) (c : Connection) : Prop where
  attempts_eq : c.attempts = n
  allowed : ∀ deadline, c.retryAt = some deadline → c.policy.allowsRetry n = true

namespace Link

open Kernel (Launches)

variable {l l' : Link} {why : Occasion} {s : SocketId} {n : Nat}

/-! ## Other occasions -/

theorem launches_letGo (l : Link) (o : Option SocketId) :
    Launches 0 l.kernel (l.letGo o).kernel := by
  unfold letGo
  split
  · exact .refl _
  · split
    · exact .refl _
    · exact .of_calls_eq (Kernel.calls_close _ _)

/-- The queue changes, and gives a socket up. -/
theorem launches_queue (l : Link) (queue : SendQueue) (o : Option SocketId) :
    Launches 0 l.kernel (letGo { l with queue } o).kernel :=
  launches_letGo { l with queue } o

theorem launches_release (l : Link) : Launches 0 l.kernel l.release.kernel := by
  unfold release
  split
  · exact .refl _
  · next s _ =>
    have hderegistered : Launches 0 l.kernel
        (if l.conn.registered.isSome then (l.kernel.deregister s).2 else l.kernel) := by
      split
      · exact (Kernel.adds_deregister l.kernel s).launches (by decide)
      · exact .refl _
    simp only
    generalize (if l.conn.registered.isSome then (l.kernel.deregister s).2 else l.kernel) = k
      at hderegistered ⊢
    exact hderegistered.trans (launches_letGo { l with
      kernel := k, conn := { l.conn with socket := none, registered := none } } (some s))

theorem launches_arm (l : Link) (interest : Interest) :
    Launches 0 l.kernel (l.arm interest).2.kernel := by
  have hregister (s : SocketId) :=
    (Kernel.adds_register l.kernel s l.conn.token interest).launches (by decide)
  have hreregister (s : SocketId) :=
    (Kernel.adds_reregister l.kernel s l.conn.token interest).launches (by decide)
  unfold arm
  split
  · exact .refl _
  · next s _ =>
    split
    · exact .refl _
    · by_cases hregistered : l.conn.registered.isSome
      · simp only [if_pos hregistered]
        specialize hreregister s
        generalize l.kernel.reregister s l.conn.token interest = r at hreregister ⊢
        rcases r with ⟨_ | e, k⟩ <;> exact hreregister
      · simp only [if_neg hregistered]
        specialize hregister s
        generalize l.kernel.register s l.conn.token interest = r at hregister ⊢
        rcases r with ⟨_ | e, k⟩ <;> exact hregister

/-- A step asks for a socket only where it is attempted to connect. -/
theorem Step.launches (h : Step why l l') (hwhy : why ≠ .attempting) :
    Launches 0 l.kernel l'.kernel := by
  cases h with
  | note | plan => exact .refl _
  | suspend | closeQueue | put _ _ _ _ => exact launches_queue l _ _
  | release => exact launches_release l
  | arm _ interest => exact launches_arm l interest
  | begin | unmade | made => exact absurd rfl hwhy
  | cleared _ _ h => exact (Kernel.adds_of_takeError h).launches (by decide)
  | @refused _ s r k _ _ h _ =>
      exact ((Kernel.adds_of_takeError h).launches (by decide)).trans
        (launches_release { l with kernel := k })
  | establish _ _ _ _ =>
      rw [kernel_setState]
      exact .refl _
  | miss _ _ h _ => exact (Kernel.adds_of_receive h).launches (by decide)
  | take _ _ h =>
      rw [kernel_takeIn]
      exact (Kernel.adds_of_receive h).launches (by decide)
  | flush _ =>
      rcases hw : l.queue.writer with _ | w
      · rw [SendQueue.flush_of_no_writer _ hw]
        exact .refl _
      · exact (Kernel.sends_flush l.kernel hw).adds.launches (by decide)
  | shut =>
      rw [kernel_setState]
      exact .refl _

theorem Steps.launches (h : Steps why l l') (hwhy : why ≠ .attempting) :
    Launches 0 l.kernel l'.kernel := by
  induction h with
  | refl => exact .refl _
  | tail _ hstep ih => exact ih.trans (hstep.launches hwhy)

/-! ## Attempts -/

theorem launches_close (l : Link) : Launches 0 l.kernel l.close.kernel := by
  unfold close
  split
  · exact .refl _
  · simp only [kernel_setState]
    exact (launches_release l).trans (launches_queue l.release _ _)

theorem launches_attemptFailed (l : Link) : Launches 0 l.kernel l.attemptFailed.2.kernel := by
  have hgivenUp : Launches 0 l.kernel l.release.suspendQueue.kernel :=
    (launches_release l).trans (launches_queue l.release _ _)
  unfold attemptFailed
  simp only
  generalize l.release.suspendQueue = l₁ at hgivenUp ⊢
  split
  · split <;> exact hgivenUp
  · exact hgivenUp.trans (launches_close (l₁.note _))

theorem launches_establish (l : Link) : Launches 0 l.kernel l.establish.2.kernel := by
  unfold establish
  split
  · exact .refl _
  · next s _ =>
    have hlet : Launches 0 l.kernel
        (letGo { l with queue := l.queue.connected s } l.queue.writer).kernel :=
      launches_letGo { l with queue := l.queue.connected s } _
    simp only
    generalize letGo { l with queue := l.queue.connected s } l.queue.writer = l₁ at hlet ⊢
    have harm := launches_arm l₁ (.serving l₁.queue.hasPending)
    generalize l₁.arm (.serving l₁.queue.hasPending) = r at harm ⊢
    rcases r with ⟨_ | _, l₂⟩
    · exact hlet.trans harm
    · simp only [kernel_setState]
      exact hlet.trans harm

theorem launches_concludeAttempt (r : Except IoError Unit × Link) :
    Launches 0 r.2.kernel (concludeAttempt r).2.kernel := by
  rcases r with ⟨_ | _, l⟩
  · exact launches_attemptFailed l
  · exact .refl _

/-- An attempt asks for one socket. -/
theorem launches_connect (hstate : l.conn.state ≠ .closed) :
    Launches 1 l.kernel l.connect.2.kernel := by
  have hbegin : Launches 0 l.kernel l.beginAttempt.kernel := by
    rw [beginAttempt, kernel_setState]
    exact launches_letGo { l with conn := _, queue := _ } _
  have hopened {r : Except Errno (SocketId × Bool)} {k : Kernel}
      (hk : l.beginAttempt.kernel.openStream l.beginAttempt.conn.address = (r, k)) :
      Launches 1 l.kernel k := by
    have hopen := Kernel.launches_openStream l.beginAttempt.kernel l.beginAttempt.conn.address
    rw [hk] at hopen
    exact hbegin.trans hopen
  have hadopted {s : SocketId} {isUp : Bool} {k : Kernel}
      (hk : l.beginAttempt.kernel.openStream l.beginAttempt.conn.address = (.ok (s, isUp), k)) :
      Launches 1 l.kernel (adopt { l.beginAttempt with kernel := k } s).kernel :=
    (hopened hk).trans
      (launches_letGo { l.beginAttempt with kernel := k, conn := _ } l.beginAttempt.conn.socket)
  have hconnects := connects l
  generalize l.connect = r at hconnects ⊢
  cases hconnects with
  | closed hclosed => exact absurd hclosed hstate
  | @unmade e k _ hk =>
      exact (hopened hk).trans (launches_attemptFailed { l.beginAttempt with kernel := k })
  | atOnce _ hk =>
      exact ((hadopted hk).trans (launches_establish _)).trans (launches_concludeAttempt _)
  | underWay _ hk =>
      exact ((hadopted hk).trans (launches_arm _ _)).trans (launches_concludeAttempt _)

/-! ## What a connection has counted -/

/-- After its attempt `n` a connection has counted `n`, and is to wait for another one only if
policy `p` allows that. -/
def Counts (p : ConnectPolicy) (n : Nat) : Except Fault Progress × Link → Prop
  | (.ok .ongoing, k) => k.conn.attempts = n
  | (.ok (.retry _), k) => k.conn.attempts = n ∧ p.allowsRetry n = true
  | (.ok .closed, _) | (.error _, _) => True

theorem counts_attemptFailed (l : Link) :
    Counts l.conn.policy l.conn.attempts l.attemptFailed := by
  obtain ⟨hpolicy, hattempts, _⟩ := sameWait_release l
  unfold attemptFailed
  simp only
  generalize l.release.suspendQueue = l₁ at hpolicy hattempts
  rw [hpolicy, hattempts]
  by_cases hallowed : l.conn.policy.allowsRetry l.conn.attempts = true
  · rw [if_pos hallowed]
    rcases l₁.retryDeadline with _ | deadline
    · trivial
    · exact ⟨rfl, hallowed⟩
  · rw [if_neg hallowed]
    trivial

theorem counts_concludeAttempt {r : Except IoError Unit × Link} (h : SameWait l r.2) :
    Counts l.conn.policy l.conn.attempts (concludeAttempt r) := by
  rcases r with ⟨_ | _, k⟩
  · rw [← h.policy_eq, ← h.attempts_eq]
    exact counts_attemptFailed k
  · exact h.attempts_eq

/-- An attempt that is made counts. -/
theorem counts_connect (hstate : l.conn.state ≠ .closed) :
    Counts l.conn.policy (min (l.conn.attempts + 1) maxAttemptCount) l.connect := by
  obtain ⟨r, hr, hsame⟩ := connect_concludes hstate
  rw [hr]
  exact counts_concludeAttempt hsame

/-- What is left of an attempt when an event has come is no attempt of its own. -/
theorem counts_finishConnect (l : Link) (event : Event) :
    Counts l.conn.policy l.conn.attempts (l.finishConnect event) := by
  rcases hs : l.conn.socket with _ | s
  · rw [finishConnect, hs]
    rfl
  · obtain ⟨r, hr, hsame⟩ := finishConnect_concludes hs event
    rw [hr]
    exact counts_concludeAttempt hsame

/-- A connection that is not closed by an attempt has counted it. -/
theorem counted_of_settled {progress : Progress} {due : Option Instant}
    (hcounts : Counts l.conn.policy n (.ok progress, l)) (hsettled : Settled due progress l)
    (hopen : progress ≠ .closed)
    (hdue : ∀ deadline, due = some deadline → l.conn.policy.allowsRetry n = true) :
    l.conn.Counted n := by
  cases progress with
  | ongoing =>
      refine ⟨hcounts, fun deadline hretry => ?_⟩
      rcases hsettled.2 with hnone | hsame
      · cases hnone.symm.trans hretry
      · exact hdue deadline (hsame.symm.trans hretry)
  | retry deadline => exact ⟨hcounts.1, fun _ _ => hcounts.2⟩
  | closed => exact absurd rfl hopen

end Link

end TextLink
