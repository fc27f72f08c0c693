import TextLink.Proofs.Connection.Holding

/-!
# What a connection can reach

Whatever a loop has a connection do leads from its link to one that differs within its reach
(`Link.Leads`). This is shown from the bottom up, with the definitions of connecting and serving,
and nothing else about them is needed to know that they leave the other connections alone.

## Main results

* `connects` — the ways in which an attempt to connect goes.
* `leads_connect` — connecting, for a connection whose socket is not registered.
* `leads_handleEvent`, `Leaves.rearm`, `Leaves.close` — everything else.
-/

namespace TextLink.Link

variable {l l' : Link} {s : SocketId}

/-! ## The queue -/

theorem identity_connecting (q : SendQueue) : q.connecting.2.identity = q.identity := by
  unfold SendQueue.connecting
  split
  · rfl
  · split <;> rfl

theorem writer_connecting (q : SendQueue) :
    q.connecting.2.writer = none ∨ q.connecting.2.writer = q.writer := by
  unfold SendQueue.connecting
  split
  · exact .inr rfl
  · split <;> exact .inl rfl

/-- The queue holds messages back. -/
theorem leads_suspend (h : l.Sound) :
    Leads l ({ l with queue := l.queue.connecting.2 }.letGo l.queue.writer) := by
  have hwriter (s : SocketId) (hs : l.queue.connecting.2.writer = some s) : l.holds s := by
    rcases writer_connecting l.queue with hw | hw <;> rw [hw] at hs
    · cases hs
    · exact holds_iff.2 (.inr hs)
  exact (leaves_queue h hwriter (identity_connecting l.queue)).letGo

/-- The queue writes to the socket of the connection. -/
theorem leads_put (h : l.Sound) (hs : l.conn.socket = some s) :
    Leads l ({ l with queue := l.queue.connected s }.letGo l.queue.writer) := by
  have hheld : l.holds s := holds_iff.2 (.inl hs)
  have hleave : Leaves l.queue.writer l { l with queue := l.queue.connected s } :=
    leaves_queue h (fun s' hs' => Option.some.inj hs' ▸ hheld) rfl
  exact hleave.letGo

/-- The queue writes what waits. -/
theorem leads_flush (h : l.Sound) : Leads l { l with
    queue := (l.queue.flush l.kernel).2.1, kernel := (l.queue.flush l.kernel).2.2 } := by
  by_cases hnone : l.queue.writer = none
  · rw [SendQueue.flush_of_no_writer _ hnone]
    exact .refl h
  · have ⟨w, hw⟩ := Option.ne_none_iff_exists'.1 hnone
    have ⟨_, _, _, hq⟩ := SendQueue.flush_keeps l.queue l.kernel
    refine leads_of_serves h (holds_iff.2 (.inr hw))
      (Kernel.serves_flush l.kernel hw) rfl rfl ?_ rfl ?_
    · show (l.queue.flush l.kernel).2.1.writer = _
      rw [hq]
    · show (l.queue.flush l.kernel).2.1.identity = _
      rw [hq]
      rfl

namespace Leaves

theorem suspendQueue (h : Leads l l') : Leads l l'.suspendQueue :=
  (h.trans (leads_suspend h.sound)).note _

theorem closeQueue (h : Leads l l') : Leads l l'.closeQueue.2 := by
  have hleave : Leaves l'.queue.writer l' { l' with queue := l'.queue.close.2 } :=
    leaves_queue h.sound (fun _ => nofun) rfl
  exact h.trans hleave.letGo

/-! ## Closing -/

theorem close (h : Leads l l') : Leads l l'.close := by
  unfold Link.close
  split
  · exact h
  · have hqueue := h.release.closeQueue
    have hconn : Leads l { l'.release.closeQueue.2 with
        conn := { l'.release.closeQueue.2.conn with retryAt := none, decoder := {} } } :=
      hqueue.trans (leads_of_eq hqueue.sound rfl rfl rfl rfl rfl rfl)
    exact (hconn.note _).setState .closed

/-! ## Connecting -/

theorem attemptFailed (h : Leads l l') : Leads l l'.attemptFailed.2 := by
  have hqueue := h.release.suspendQueue
  unfold Link.attemptFailed
  simp only
  split
  · split
    · exact hqueue
    · exact hqueue.trans (leads_of_eq hqueue.sound rfl rfl rfl rfl rfl rfl)
  · exact (hqueue.note _).close

theorem establish (h : Leads l l') : Leads l l'.establish.2 := by
  unfold Link.establish
  rcases hs : l'.conn.socket with _ | s
  · exact h
  · have harm := (h.trans (leads_put h.sound hs)).arm
      (.serving
        (Link.letGo { l' with queue := l'.queue.connected s } l'.queue.writer).queue.hasPending)
    simp only
    split
    · next harmed =>
      rw [harmed] at harm
      exact harm.setState .connected
    · next harmed =>
      rw [harmed] at harm
      exact harm

theorem concludeAttempt {r : Except IoError Unit × Link} (h : Leads l r.2) :
    Leads l (Link.concludeAttempt r).2 := by
  rcases r with ⟨_ | _, l'⟩
  · exact h.attemptFailed
  · exact h

theorem beginAttempt (h : Leads l l') : Leads l l'.beginAttempt := by
  have hconn : Leads l { l' with conn := { l'.conn with
      retryAt := none, attempts := min (l'.conn.attempts + 1) maxAttemptCount } } :=
    h.trans (leads_of_eq h.sound rfl rfl rfl rfl rfl rfl)
  exact hconn.suspendQueue.setState .connecting

end Leaves

theorem conn_letGo (l : Link) (o : Option SocketId) : (l.letGo o).conn = l.conn := by
  unfold letGo
  split
  · rfl
  · split <;> rfl

theorem queue_letGo (l : Link) (o : Option SocketId) : (l.letGo o).queue = l.queue := by
  unfold letGo
  split
  · rfl
  · split <;> rfl

theorem conn_suspendQueue (l : Link) : l.suspendQueue.conn = l.conn := conn_letGo _ _

theorem queue_suspendQueue (l : Link) : l.suspendQueue.queue = l.queue.connecting.2 :=
  queue_letGo _ _

theorem registered_setState (l : Link) (state : ConnectionState) :
    (l.setState state).conn.registered = l.conn.registered := by
  unfold setState
  split <;> rfl

theorem registered_beginAttempt (l : Link) :
    l.beginAttempt.conn.registered = l.conn.registered := by
  rw [beginAttempt, registered_setState, conn_suspendQueue]

/-- How an attempt to connect goes. -/
inductive Connects (l : Link) : Except Fault Progress × Link → Prop where
  | closed (h : l.conn.state = .closed) : Connects l (.ok .closed, l)
  /-- There is no socket to be had. -/
  | unmade {e : Errno} {k : Kernel} (hstate : l.conn.state ≠ .closed)
      (hk : l.beginAttempt.kernel.openStream l.beginAttempt.conn.address = (.error e, k)) :
      Connects l (attemptFailed { l.beginAttempt with kernel := k })
  | atOnce {s : SocketId} {k : Kernel} (hstate : l.conn.state ≠ .closed)
      (hk : l.beginAttempt.kernel.openStream l.beginAttempt.conn.address = (.ok (s, true), k)) :
      Connects l (Link.concludeAttempt (adopt { l.beginAttempt with kernel := k } s).establish)
  | underWay {s : SocketId} {k : Kernel} (hstate : l.conn.state ≠ .closed)
      (hk : l.beginAttempt.kernel.openStream l.beginAttempt.conn.address = (.ok (s, false), k)) :
      Connects l (Link.concludeAttempt ((adopt { l.beginAttempt with kernel := k } s).arm .writing))

theorem connects (l : Link) : Connects l l.connect := by
  unfold connect
  by_cases hclosed : l.conn.state = .closed
  · rw [if_pos hclosed]
    exact .closed hclosed
  · rw [if_neg hclosed]
    rcases hk : l.beginAttempt.kernel.openStream l.beginAttempt.conn.address with
      ⟨e | ⟨s, _ | _⟩, k⟩ <;> simp only [hk]
    · exact .unmade hclosed hk
    · exact .underWay hclosed hk
    · exact .atOnce hclosed hk

theorem leads_connect (h : l.Sound) (hr : l.conn.registered = none) : Leads l l.connect.2 := by
  have hbegin := (Leaves.refl h).beginAttempt
  have hopens := Kernel.opens_openStream hbegin.sound.kernel l.beginAttempt.conn.address
  have hadopt {s : SocketId} {k : Kernel} (hmakes : Kernel.Makes s l.beginAttempt.kernel k) :
      Leads l (adopt { l.beginAttempt with kernel := k } s) := by
    have hleave := leaves_adopt hbegin.sound ((registered_beginAttempt l).trans hr) hmakes
    exact hbegin.trans hleave.letGo
  have hconnects := connects l
  generalize l.connect = r at hconnects ⊢
  cases hconnects with
  | closed _ => exact .refl h
  | unmade _ hk =>
      rw [hk] at hopens
      exact (hbegin.trans (leads_of_fails hbegin.sound hopens)).attemptFailed
  | atOnce _ hk =>
      rw [hk] at hopens
      exact (hadopt hopens).establish.concludeAttempt
  | underWay _ hk =>
      rw [hk] at hopens
      exact ((hadopt hopens).arm .writing).concludeAttempt

namespace Leaves

/-- Calls on the connection's own socket. -/
theorem serves (h : Leads l l') {k : Kernel} (hs : l'.conn.socket = some s)
    (hk : Kernel.Serves s l'.kernel k) : Leads l { l' with kernel := k } :=
  h.trans (leads_of_serves h.sound (holds_iff.2 (.inl hs)) hk rfl rfl rfl rfl rfl)

theorem connectOutcome (h : Leads l l') (hs : l'.conn.socket = some s) (event : Event) :
    Leads l (l'.connectOutcome s event).2 :=
  h.serves hs (Kernel.serves_takeError _ s)

theorem finishConnect (h : Leads l l') (event : Event) : Leads l (l'.finishConnect event).2 := by
  unfold Link.finishConnect
  split
  · exact h
  · next s hs =>
    have houtcome := h.connectOutcome hs event
    split
    · next hr =>
      rw [hr] at houtcome
      exact houtcome.establish.concludeAttempt
    · next hr =>
      rw [hr] at houtcome
      exact houtcome.attemptFailed

/-! ## Serving -/

theorem takeIn (h : Leads l l') (bytes : Bytes) : Leads l (l'.takeIn bytes).2 := by
  unfold Link.takeIn
  simp only
  split
  · exact h.trans (leads_of_eq h.sound rfl rfl rfl rfl rfl rfl)
  · split
    · exact h.trans (leads_of_eq h.sound rfl rfl rfl rfl rfl rfl)
    · exact h.trans (leads_of_eq h.sound rfl rfl rfl rfl rfl rfl)

end Leaves

theorem socket_takeIn (l : Link) (bytes : Bytes) :
    (l.takeIn bytes).2.conn.socket = l.conn.socket := by
  unfold takeIn
  simp only
  split
  · rfl
  · split <;> rfl

/-- What receiving from socket `s` and taking in what was received both keep is kept by reading. -/
theorem readFrom_keeps {P : Link → Prop}
    (hreceive : ∀ l, P l → P { l with kernel := (l.kernel.receive s l.conn.chunk).2 })
    (htake : ∀ l bytes, P l → P (l.takeIn bytes).2) (h : P l) : P (l.readFrom s).2 := by
  have hkernel {l : Link} (hl : P l) {answer : Except Errno Bytes} {k : Kernel}
      (hk : l.kernel.receive s l.conn.chunk = (answer, k)) : P { l with kernel := k } := by
    have hreceived := hreceive l hl
    rwa [hk] at hreceived
  have htaken {l told : Link} (hl : P l) {bytes : Bytes} {stood : Bool}
      (ht : l.takeIn bytes = (stood, told)) : P told := by
    have htook := htake l bytes hl
    rwa [ht] at htook
  fun_induction Link.readFrom l s with
  | case1 l k hk => exact hkernel h hk
  | case2 l b bs k hk told ht ih => exact ih (htaken (hkernel h hk) ht)
  | case3 l b bs k hk told ht => exact htaken (hkernel h hk) ht
  | case4 l k hk => exact hkernel h hk
  | case5 l k hk hne ih => exact ih (hkernel h hk)
  | case6 l e k hk hne hn hd => exact hkernel h hk
  | case7 l e k hk hne hn hd => exact hkernel h hk

namespace Leaves

theorem readFrom (h : Leads l l') (hs : l'.conn.socket = some s) :
    Leads l (l'.readFrom s).2 := by
  have hkeeps : Leads l (l'.readFrom s).2 ∧ (l'.readFrom s).2.conn.socket = some s := by
    refine readFrom_keeps (P := fun l' => Leads l l' ∧ l'.conn.socket = some s)
      (fun l' ⟨h, hs⟩ => ?_) (fun l' bytes ⟨h, hs⟩ => ?_) ⟨h, hs⟩
    · exact ⟨h.serves hs (Kernel.serves_receive l'.kernel s l'.conn.chunk), hs⟩
    · exact ⟨h.takeIn bytes, (socket_takeIn l' bytes).trans hs⟩
  exact hkeeps.1

theorem read (h : Leads l l') : Leads l l'.read.2 := by
  unfold Link.read
  split
  · exact h
  · next s hs => exact h.readFrom hs

theorem flush (h : Leads l l') : Leads l l'.flush.2 := by
  have hflush := h.trans (leads_flush h.sound)
  unfold Link.flush
  simp only
  split
  · exact hflush
  · exact hflush.note _

theorem concludeService (h : Leads l l') : Leads l l'.concludeService.2 := by
  have hrearm := h.rearm
  unfold Link.concludeService
  split
  · next hr =>
    rw [hr] at hrearm
    exact hrearm
  · next hr =>
    rw [hr] at hrearm
    exact hrearm

theorem serveWriting (h : Leads l l') (event : Event) : Leads l (l'.serveWriting event).2 := by
  have hflush := h.flush
  unfold Link.serveWriting
  split
  · split
    · next hf =>
      rw [hf] at hflush
      exact hflush.concludeService
    · next hf =>
      rw [hf] at hflush
      split
      · exact hflush.close
      · exact hflush
  · exact h.concludeService

theorem serve (h : Leads l l') (event : Event) : Leads l (l'.serve event).2 := by
  have hread := h.read
  unfold Link.serve
  split
  · split
    · next hr =>
      rw [hr] at hread
      exact hread.serveWriting event
    · next hr =>
      rw [hr] at hread
      exact hread.close
    · next hr =>
      rw [hr] at hread
      exact hread
  · exact h.serveWriting event

end Leaves

theorem leads_handleEvent (h : l.Sound) (event : Event) : Leads l (l.handleEvent event).2 := by
  unfold handleEvent
  split
  · have hfinish := (Leaves.refl h).finishConnect event
    split
    · next hf =>
      rw [hf] at hfinish
      exact hfinish
    · next hf =>
      rw [hf] at hfinish
      exact hfinish
  · exact (Leaves.refl h).serve event
  · exact .refl h
  · exact .refl h

end TextLink.Link
