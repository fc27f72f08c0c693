import TextLink.Proofs.Connection.Establishing
import TextLink.Proofs.Kernel.Alike
import TextLink.Proofs.Loop.Callbacks

/-!
# A connection sees its own socket only

Handling an event reads the connection, its queue, and what the kernel has of the socket they hold.
So where two links have the same connection and the same queue over kernels that are alike for that
socket, an event is handled alike in both, and they are alike again (`Alike.handleEvent`). Each
function that handling is made of has a lemma of this kind; what they have in common is that none
asks for more than the socket.

An event makes no socket, so a connection that acts for one keeps within the socket it has, and
nothing else below it is touched (`Steps.confined`).

## Main results

* `Steps.confined` — what is touched.
* `Alike.handleEvent` — the same answer, and alike again.
-/

namespace TextLink

namespace Link

open Kernel (Confined)

variable {l l' : Link} {s : SocketId} {o : Option SocketId} {why : Occasion}

/-! ## Within one socket -/

/-- The connection and its queue hold no socket but `o`. -/
def Within (o : Option SocketId) (l : Link) : Prop := ∀ s, l.holds s → o = some s

theorem Within.socket (h : l.Within o) (hs : l.conn.socket = some s) : o = some s :=
  h s (holds_iff.2 (.inl hs))

theorem Within.writer (h : l.Within o) (hw : l.queue.writer = some s) : o = some s :=
  h s (holds_iff.2 (.inr hw))

end Link

namespace Kernel

variable {k k' : Kernel} {s : SocketId}

theorem confined_of_serves {call : Call} (h : Serves s k k') (hsocket : call.socket? = some s)
    (hcalls : k'.calls = k.calls.push call) (hplans : k'.plans = k.plans)
    (hinjections : k'.injections = k.injections) (hsignalled : k'.signalled = k.signalled) :
    Confined (some s) k k' where
  socket_eq s' hs' := h.socket_eq s' fun heq => hs' (congrArg some heq.symm)
  descriptor_eq := h.table.descriptor_eq
  watches_eq d _ := h.table.watches_eq d
  calls_eq := ⟨[call], by rw [hcalls, Array.toList_push], fun c hc =>
    ⟨s, rfl, List.mem_singleton.1 hc ▸ hsocket⟩⟩
  clock_eq := h.clock_eq
  plans_eq := hplans
  injections_eq := hinjections
  signalled_eq := hsignalled
  closeUnregisters_eq := h.table.closeUnregisters_eq

theorem confined_send (k : Kernel) (s : SocketId) (bytes : Bytes) :
    Confined (some s) k (k.send s bytes).2 := by
  have hserves := serves_send k s bytes
  revert hserves
  unfold send
  rcases k.sockets[s]? with _ | sock
  · exact fun _ => .refl k
  · exact fun hserves => confined_of_serves hserves rfl rfl rfl rfl rfl

theorem Sends.confined (h : Sends s k k') : Confined (some s) k k' := by
  induction h with
  | refl => exact .refl k
  | tail _ hsend ih =>
      obtain ⟨bytes, rfl⟩ := hsend
      exact ih.trans (confined_send _ s bytes)

theorem confined_receive (k : Kernel) (s : SocketId) (size : Nat) :
    Confined (some s) k (k.receive s size).2 := by
  have hserves := serves_receive k s size
  revert hserves
  unfold receive
  rcases k.sockets[s]? with _ | sock
  · exact fun _ => .refl k
  · exact fun hserves => confined_of_serves hserves rfl rfl rfl rfl rfl

theorem confined_takeError (k : Kernel) (s : SocketId) : Confined (some s) k (k.takeError s).2 := by
  have hserves := serves_takeError k s
  revert hserves
  unfold takeError takeVerdict
  rcases splitVerdict .getsockopt k.verdicts with ⟨_ | e, vs⟩ <;>
    exact fun hserves => confined_of_serves hserves rfl rfl rfl rfl rfl

end Kernel

namespace Link

open Kernel (Confined)

variable {l l' : Link} {s : SocketId} {o : Option SocketId} {why : Occasion}

theorem Within.confined_queue (h : l.Within o) (queue : SendQueue) :
    Confined o l.kernel (letGo { l with queue } l.queue.writer).kernel :=
  (confined_letGo { l with queue } l.queue.writer).mono fun _ hw => h.writer hw

/-- A step that makes no socket touches the one that is held. -/
theorem Step.confined (h : Step why l l') (hwhy : why ≠ .attempting) (hl : l.Within o) :
    Confined o l.kernel l'.kernel := by
  have hsocket (k : Kernel) (hk : Confined l.conn.socket l.kernel k) : Confined o l.kernel k :=
    hk.mono fun _ hs => hl.socket hs
  cases h with
  | note | plan => exact .refl _
  | suspend | closeQueue | put _ _ _ _ => exact hl.confined_queue _
  | release => exact hsocket _ (confined_release l)
  | arm _ interest => exact hsocket _ (confined_arm l interest)
  | begin _ | unmade _ | made _ _ _ _ => exact absurd rfl hwhy
  | establish _ _ _ _ =>
      rw [kernel_setState]
      exact .refl _
  | shut _ _ _ _ _ =>
      rw [kernel_setState]
      exact .refl _
  | @cleared _ s _ _ hs h =>
      have htaken := Kernel.confined_takeError l.kernel s
      rw [h] at htaken
      exact hsocket _ (hs ▸ htaken)
  | @refused _ s r k _ hs h _ =>
      have htaken := Kernel.confined_takeError l.kernel s
      rw [h] at htaken
      exact hsocket _ ((hs ▸ htaken).trans (confined_release { l with kernel := k }))
  | @miss _ s _ _ _ hs h _ =>
      have hreceived := Kernel.confined_receive l.kernel s l.conn.chunk
      rw [h] at hreceived
      exact hsocket _ (hs ▸ hreceived)
  | @take _ s _ _ _ _ hs h =>
      have hreceived := Kernel.confined_receive l.kernel s l.conn.chunk
      rw [h] at hreceived
      rw [kernel_takeIn]
      exact hsocket _ (hs ▸ hreceived)
  | flush _ =>
      rcases hw : l.queue.writer with _ | w
      · rw [SendQueue.flush_of_no_writer _ hw]
        exact .refl _
      · exact (Kernel.sends_flush l.kernel hw).confined.mono fun _ hs =>
          hl.writer (hw.trans hs)

/-- A connection that makes no socket touches the one it holds, and comes to hold no other. -/
theorem Steps.confined (h : Steps why l l') (hwhy : why ≠ .attempting) (hsound : l.Sound)
    (hl : l.Within o) : Confined o l.kernel l'.kernel ∧ l'.Within o := by
  induction h with
  | refl => exact ⟨.refl _, hl⟩
  | @tail l₁ l₂ hbefore hstep ih =>
      have hconfined := ih.1.trans (hstep.confined hwhy ih.2)
      have hleads := (Steps.leads hbefore hsound).trans
        (hstep.leads (Steps.leads hbefore hsound).sound)
      refine ⟨hconfined, fun s hheld => ?_⟩
      by_contra hne
      -- A socket that is held is open, so it was there before.
      obtain ⟨sock, hsock, -⟩ := hleads.sound.open_of_holds s hheld
      rw [hconfined.socket_eq s hne] at hsock
      have hlt := Kernel.lt_length_of_getElem?_eq_some hsock
      exact hne ((hleads.held s hheld).elim (hl s) fun hle => absurd hlt (Nat.not_lt.2 hle))

/-! ## Links that are alike -/

/-- The same connection with the same queue, over kernels that are alike for socket `o`, which they
hold no other than, and the same was told of it. -/
structure Alike (o : Option SocketId) (l l' : Link) : Prop where
  within : l.Within o
  conn_eq : l'.conn = l.conn
  queue_eq : l'.queue = l.queue
  kernel : Kernel.Alike o l.kernel l'.kernel
  heard_eq : l'.journal.heardBy l.conn.handler.conn = l.journal.heardBy l.conn.handler.conn

namespace Alike

/-- They differ in what is below the loop, and in what was told. -/
theorem exists_eq (h : Alike o l l') : ∃ k j, l' = { l with kernel := k, journal := j } := by
  obtain ⟨conn, queue, k, j⟩ := l'
  obtain rfl : conn = l.conn := h.conn_eq
  obtain rfl : queue = l.queue := h.queue_eq
  exact ⟨k, j, rfl⟩

theorem note (h : Alike o l l') (rs rs' : List LogRecord) : Alike o (l.note rs) (l'.note rs') :=
  { h with }

theorem withConn (h : Alike o l l') {conn : Connection} (hhandler : conn.handler = l.conn.handler)
    (hsocket : ∀ s, conn.socket = some s → o = some s) :
    Alike o { l with conn } { l' with conn } where
  within s hs := (holds_iff.1 hs).elim (hsocket s) h.within.writer
  conn_eq := rfl
  queue_eq := h.queue_eq
  kernel := h.kernel
  heard_eq := by
    simp only [hhandler]
    exact h.heard_eq

theorem letGo (h : Alike o l l') {w : Option SocketId} (hw : ∀ s, w = some s → o = some s) :
    Alike o (l.letGo w) (l'.letGo w) := by
  obtain ⟨k, j, rfl⟩ := h.exists_eq
  unfold Link.letGo holds
  rcases w with _ | s
  · exact h
  · simp only
    split
    · exact h
    · exact { h with kernel := h.kernel.close (hw s rfl) }

/-- The queue changes, and gives up what it wrote to. -/
theorem letGo_queue (h : Alike o l l') (queue : SendQueue)
    (hw : ∀ s, queue.writer = some s → o = some s) :
    Alike o ({ l with queue }.letGo l.queue.writer) ({ l' with queue }.letGo l'.queue.writer) := by
  have hqueue : Alike o { l with queue } { l' with queue } :=
    { h with
      queue_eq := rfl
      within := fun s hs => (holds_iff.1 hs).elim h.within.socket (hw s) }
  rw [h.queue_eq]
  exact hqueue.letGo fun s hs => h.within.writer hs

theorem tell (h : Alike o l l') (heard : Heard) :
    Alike o { l with journal := l.journal.tell l.conn.handler heard }
      { l' with journal := l'.journal.tell l.conn.handler heard } := by
  have hheard (j : Journal) : (j.tell l.conn.handler heard).heardBy l.conn.handler.conn =
      j.heardBy l.conn.handler.conn ++ [heard] := by
    rw [heardBy_push (j := j) rfl, if_pos rfl]
  refine { h with heard_eq := ?_ }
  show (l'.journal.tell _ _).heardBy _ = (l.journal.tell _ _).heardBy _
  rw [hheard, hheard, h.heard_eq]

theorem setState (h : Alike o l l') (state : ConnectionState) :
    Alike o (l.setState state) (l'.setState state) := by
  have htell := h.tell (.state state)
  obtain ⟨k, j, rfl⟩ := h.exists_eq
  unfold Link.setState
  simp only
  split
  · exact h
  · exact htell.withConn rfl fun _ hs => h.within.socket hs

/-! ### Registering -/

theorem arm (h : Alike o l l') (interest : Interest) :
    Agree (Alike o) (l.arm interest) (l'.arm interest) := by
  obtain ⟨k', j', rfl⟩ := h.exists_eq
  unfold Link.arm
  simp only
  rcases hs : l.conn.socket with _ | s
  · exact ⟨rfl, h⟩
  have ho := h.within.socket hs
  by_cases hsame : l.conn.registered = some interest
  · simp only [if_pos hsame]
    exact ⟨rfl, h⟩
  have hcall : Agree (Kernel.Alike o)
      (if l.conn.registered.isSome then l.kernel.reregister s l.conn.token interest
        else l.kernel.register s l.conn.token interest)
      (if l.conn.registered.isSome then k'.reregister s l.conn.token interest
        else k'.register s l.conn.token interest) := by
    split
    · exact h.kernel.reregister ho _ _
    · exact h.kernel.register ho _ _
  obtain ⟨verdict, k₁, k₁', hk, hk', hkernel⟩ := hcall.exists_eq
  simp only [if_neg hsame, hk, hk']
  rcases verdict with _ | e
  · have hcalled : Alike o { l with kernel := k₁ } { l with kernel := k₁', journal := j' } :=
      { h with kernel := hkernel }
    exact ⟨rfl, hcalled.withConn rfl fun _ hs' => ho.trans hs'⟩
  · exact ⟨rfl, { h with kernel := hkernel }⟩

theorem rearm (h : Alike o l l') : Agree (Alike o) l.rearm l'.rearm := by
  unfold Link.rearm
  rw [h.conn_eq, h.queue_eq]
  split
  · exact h.arm _
  · exact ⟨rfl, h⟩

theorem release (h : Alike o l l') : Alike o l.release l'.release := by
  obtain ⟨k', j', rfl⟩ := h.exists_eq
  unfold Link.release
  simp only
  rcases hs : l.conn.socket with _ | s
  · exact h
  have ho := h.within.socket hs
  have hcall : Kernel.Alike o
      (if l.conn.registered.isSome then (l.kernel.deregister s).2 else l.kernel)
      (if l.conn.registered.isSome then (k'.deregister s).2 else k') := by
    split
    · exact (h.kernel.deregister ho).after
    · exact h.kernel
  have hcalled : Alike o
      { l with kernel := if l.conn.registered.isSome then (l.kernel.deregister s).2 else l.kernel }
      { l with
        kernel := if l.conn.registered.isSome then (k'.deregister s).2 else k', journal := j' } :=
    { h with kernel := hcall }
  refine (hcalled.withConn ?_ ?_).letGo fun _ hs' => ho.trans hs'
  · rfl
  · exact nofun

/-! ### Closing -/

theorem suspendQueue (h : Alike o l l') : Alike o l.suspendQueue l'.suspendQueue := by
  have hqueue := h.letGo_queue l.queue.connecting.2 fun s hs => by
    rcases writer_connecting l.queue with hw | hw <;> rw [hw] at hs
    · cases hs
    · exact h.within.writer hs
  obtain ⟨k, j, rfl⟩ := h.exists_eq
  exact hqueue.note _ _

theorem closeQueue (h : Alike o l l') : Agree (Alike o) l.closeQueue l'.closeQueue := by
  have hqueue := h.letGo_queue l.queue.close.2 nofun
  obtain ⟨k, j, rfl⟩ := h.exists_eq
  exact ⟨rfl, hqueue⟩

theorem close (h : Alike o l l') : Alike o l.close l'.close := by
  obtain ⟨dropped, l₁, l₁', hl, hl', h₁⟩ := h.release.closeQueue.exists_eq
  unfold Link.close
  rw [h.conn_eq]
  split
  · exact h
  · obtain ⟨k, j, rfl⟩ := h₁.exists_eq
    simp only [hl, hl']
    refine ((h₁.withConn ?_ ?_).note _ _).setState .closed
    · rfl
    · exact fun _ hs => h₁.within.socket hs

/-! ### Concluding an attempt -/

theorem attemptFailed (h : Alike o l l') : Agree (Alike o) l.attemptFailed l'.attemptFailed := by
  have hqueue := h.release.suspendQueue
  unfold Link.attemptFailed retryDeadline now
  simp only
  generalize l.release.suspendQueue = l₁ at hqueue ⊢
  generalize l'.release.suspendQueue = l₁' at hqueue ⊢
  obtain ⟨k, j, rfl⟩ := hqueue.exists_eq
  have hclock : k.clock = l₁.kernel.clock := hqueue.kernel.clock_eq
  simp only [hclock]
  split
  · split
    · exact ⟨rfl, hqueue⟩
    · exact ⟨rfl, hqueue.withConn rfl fun _ hs => hqueue.within.socket hs⟩
  · exact ⟨rfl, (hqueue.note _ _).close⟩

theorem establish (h : Alike o l l') : Agree (Alike o) l.establish l'.establish := by
  unfold Link.establish
  rw [h.conn_eq]
  rcases hs : l.conn.socket with _ | s
  · exact ⟨rfl, h⟩
  have hput := h.letGo_queue (l.queue.connected s) fun s' hs' =>
    (h.within.socket hs).trans hs'
  obtain ⟨k, j, rfl⟩ := h.exists_eq
  simp only at hput ⊢
  generalize Link.letGo { l with queue := l.queue.connected s } l.queue.writer = l₁ at hput ⊢
  generalize Link.letGo { l with queue := l.queue.connected s, kernel := k, journal := j }
    l.queue.writer = l₁' at hput ⊢
  rw [hput.queue_eq]
  obtain ⟨outcome, l₂, l₂', hl, hl', h₂⟩ := (hput.arm (.serving l₁.queue.hasPending)).exists_eq
  simp only [hl, hl']
  rcases outcome with e | _
  · exact ⟨rfl, h₂⟩
  · exact ⟨rfl, h₂.setState .connected⟩

theorem concludeAttempt {r r' : Except IoError Unit × Link} (h : Agree (Alike o) r r') :
    Agree (Alike o) (Link.concludeAttempt r) (Link.concludeAttempt r') := by
  obtain ⟨outcome, l, l', rfl, rfl, hl⟩ := h.exists_eq
  rcases outcome with e | _
  · exact hl.attemptFailed
  · exact ⟨rfl, hl⟩

theorem connectOutcome (h : Alike o l l') (ho : o = some s) (event : Event) :
    Agree (Alike o) (l.connectOutcome s event) (l'.connectOutcome s event) := by
  obtain ⟨pending, k, k', hk, hk', hkernel⟩ := (h.kernel.takeError ho).exists_eq
  unfold Link.connectOutcome
  simp only [hk, hk']
  exact ⟨rfl, { h with kernel := hkernel }⟩

theorem finishConnect (h : Alike o l l') (event : Event) :
    Agree (Alike o) (l.finishConnect event) (l'.finishConnect event) := by
  unfold Link.finishConnect
  rw [h.conn_eq]
  rcases hs : l.conn.socket with _ | s
  · exact ⟨rfl, h⟩
  obtain ⟨outcome, l₁, l₁', hl, hl', h₁⟩ := (h.connectOutcome (h.within.socket hs) event).exists_eq
  simp only [hl, hl']
  rcases outcome with e | _
  · exact h₁.attemptFailed
  · exact concludeAttempt h₁.establish

/-! ### Serving -/

theorem takeIn (h : Alike o l l') (bytes : Bytes) :
    Agree (Alike o) (l.takeIn bytes) (l'.takeIn bytes) := by
  have htold := h.tell (.text (l.conn.decoder.feed bytes).1)
  obtain ⟨k, j, rfl⟩ := h.exists_eq
  have htold : Alike o
      { l with journal := if (l.conn.decoder.feed bytes).1.isEmpty then l.journal
          else l.journal.tell l.conn.handler (.text (l.conn.decoder.feed bytes).1) }
      { l with kernel := k, journal := if (l.conn.decoder.feed bytes).1.isEmpty then j
          else j.tell l.conn.handler (.text (l.conn.decoder.feed bytes).1) } := by
    split
    · exact h
    · exact htold
  have hsocket (s : SocketId) (hs : l.conn.socket = some s) : o = some s := h.within.socket hs
  unfold Link.takeIn
  simp only
  split
  · exact ⟨rfl, htold.withConn rfl hsocket⟩
  · split
    · refine ⟨rfl, (htold.withConn ?_ ?_).note _ _⟩
      · rfl
      · exact hsocket
    · exact ⟨rfl, htold.withConn rfl hsocket⟩

end Alike

/-- Reading, without what it is known to end by. -/
theorem readFrom_eq (l : Link) (s : SocketId) :
    l.readFrom s = match l.kernel.receive s l.conn.chunk with
      | (.ok [], k) => (.ok false, { l with kernel := k })
      | (.ok (b :: bs), k) =>
        match takeIn { l with kernel := k } (b :: bs) with
        | (true, told) => told.readFrom s
        | (false, told) => (.error (.fault .handler), told)
      | (.error e, k) =>
        if e = .tryAgain then (.ok true, { l with kernel := k })
        else if e = .interrupted then readFrom { l with kernel := k } s
        else if e.kind.isDisconnect then (.ok false, { l with kernel := k })
        else (.error (.failed (.os e)), { l with kernel := k }) := by
  rw [readFrom]
  split
  · next h => rw [h]
  · next h =>
    rw [h]
    simp only
    split
    · next ht => rw [ht]
    · next ht => rw [ht]
  · next h =>
    rw [h]
    simp only [dite_eq_ite]

namespace Alike

theorem readFrom (h : Alike o l l') (ho : o = some s) :
    Agree (Alike o) (l.readFrom s) (l'.readFrom s) := by
  -- What is received is the same, and so is what is made of it.
  have hreceive {l l' : Link} (h : Alike o l l') {answer : Except Errno Bytes} {k : Kernel}
      (hk : l.kernel.receive s l.conn.chunk = (answer, k)) :
      ∃ k', l'.kernel.receive s l'.conn.chunk = (answer, k') ∧
        Alike o { l with kernel := k } { l' with kernel := k' } := by
    obtain ⟨k', hk', hafter⟩ := (h.kernel.receive ho l.conn.chunk).exists_of_eq hk
    refine ⟨k', ?_, { h with kernel := hafter }⟩
    rw [h.conn_eq]
    exact hk'
  have htakeIn {l l' told : Link} (h : Alike o l l') {bytes : Bytes} {stood : Bool}
      (ht : l.takeIn bytes = (stood, told)) :
      ∃ told', l'.takeIn bytes = (stood, told') ∧ Alike o told told' :=
    (h.takeIn bytes).exists_of_eq ht
  fun_induction Link.readFrom l s generalizing l' with
  | case1 l k hk =>
      obtain ⟨k', hk', hafter⟩ := hreceive h hk
      rw [readFrom_eq, hk']
      exact ⟨rfl, hafter⟩
  | case2 l b bs k hk told ht ih =>
      obtain ⟨k', hk', hafter⟩ := hreceive h hk
      obtain ⟨told', ht', htold⟩ := htakeIn hafter ht
      rw [readFrom_eq l', hk']
      simp only [ht']
      exact ih htold
  | case3 l b bs k hk told ht =>
      obtain ⟨k', hk', hafter⟩ := hreceive h hk
      obtain ⟨told', ht', htold⟩ := htakeIn hafter ht
      rw [readFrom_eq, hk']
      simp only [ht']
      exact ⟨rfl, htold⟩
  | case4 l k hk =>
      obtain ⟨k', hk', hafter⟩ := hreceive h hk
      rw [readFrom_eq, hk']
      exact ⟨rfl, hafter⟩
  | case5 l k hk hne ih =>
      obtain ⟨k', hk', hafter⟩ := hreceive h hk
      rw [readFrom_eq l', hk']
      exact ih hafter
  | case6 l e k hk hne hn hd =>
      obtain ⟨k', hk', hafter⟩ := hreceive h hk
      rw [readFrom_eq, hk']
      simp only [if_neg hne, if_neg hn, if_pos hd]
      exact ⟨rfl, hafter⟩
  | case7 l e k hk hne hn hd =>
      obtain ⟨k', hk', hafter⟩ := hreceive h hk
      rw [readFrom_eq, hk']
      simp only [if_neg hne, if_neg hn, if_neg hd]
      exact ⟨rfl, hafter⟩

theorem read (h : Alike o l l') : Agree (Alike o) l.read l'.read := by
  unfold Link.read
  rw [h.conn_eq]
  rcases hs : l.conn.socket with _ | s
  · exact ⟨rfl, h⟩
  · exact h.readFrom (h.within.socket hs)

theorem flush (h : Alike o l l') : Agree (Alike o) l.flush l'.flush := by
  have hagree := SendQueue.agree_flush (R := Kernel.Alike o) l.queue
    (fun w hw k k' bytes hk => hk.write (h.within.writer hw) bytes) h.kernel
  obtain ⟨outcome, ⟨q, k⟩, ⟨q', k'⟩, hl, hl', hafter⟩ := hagree.exists_eq
  obtain rfl : q' = q := hafter.answer_eq
  have hwriter : q'.writer = l.queue.writer := by
    have hkept := writer_flush l
    rwa [hl] at hkept
  have hflushed : Alike o { l with queue := q', kernel := k }
    { l' with queue := q', kernel := k' } :=
    { h with
      queue_eq := rfl
      kernel := hafter.after
      within := fun s hs => (holds_iff.1 hs).elim h.within.socket fun hw =>
        h.within.writer (hwriter.symm.trans hw) }
  unfold Link.flush
  rw [h.queue_eq]
  simp only [hl, hl']
  rcases outcome with failure | _
  · exact ⟨rfl, hflushed.note _ _⟩
  · exact ⟨rfl, hflushed⟩

theorem concludeService (h : Alike o l l') :
    Agree (Alike o) l.concludeService l'.concludeService := by
  obtain ⟨outcome, l₁, l₁', hl, hl', h₁⟩ := h.rearm.exists_eq
  unfold Link.concludeService
  rw [hl, hl']
  rcases outcome with e | _ <;> exact ⟨rfl, h₁⟩

theorem serveWriting (h : Alike o l l') (event : Event) :
    Agree (Alike o) (l.serveWriting event) (l'.serveWriting event) := by
  obtain ⟨outcome, l₁, l₁', hl, hl', h₁⟩ := h.flush.exists_eq
  unfold Link.serveWriting
  split
  · rw [hl, hl']
    rcases outcome with e | _
    · simp only
      split
      · exact ⟨rfl, h₁.close⟩
      · exact ⟨rfl, h₁⟩
    · exact h₁.concludeService
  · exact h.concludeService

theorem serve (h : Alike o l l') (event : Event) :
    Agree (Alike o) (l.serve event) (l'.serve event) := by
  obtain ⟨outcome, l₁, l₁', hl, hl', h₁⟩ := h.read.exists_eq
  unfold Link.serve
  split
  · rw [hl, hl']
    rcases outcome with setback | (_ | _)
    · exact ⟨rfl, h₁⟩
    · exact ⟨rfl, h₁.close⟩
    · exact h₁.serveWriting event
  · exact h.serveWriting event

/-- An event is handled as the connection, its queue and its socket have it. -/
theorem handleEvent (h : Alike o l l') (event : Event) :
    Agree (Alike o) (l.handleEvent event) (l'.handleEvent event) := by
  obtain ⟨outcome, l₁, l₁', hl, hl', h₁⟩ := (h.finishConnect event).exists_eq
  unfold Link.handleEvent
  rw [h.conn_eq]
  rcases l.conn.state with _ | _ | _ | _
  · exact ⟨rfl, h⟩
  · simp only [hl, hl']
    rcases outcome with fault | progress <;> exact ⟨rfl, h₁⟩
  · exact h.serve event
  · exact ⟨rfl, h⟩

end Alike

end Link

end TextLink
