import TextLink.Proofs.Connection.Intake
import TextLink.Proofs.Connection.Rearming
import TextLink.Proofs.Kernel.Clear
import TextLink.Proofs.Queue.Recorder

/-!
# What a failure costs an established connection

An event that an established connection serves can be cut short by a call that fails: in the middle
of reading, in the middle of flushing, or when the connection is to be watched for what is left to
do. What was read by then is decoded, and what was written is gone from the queue; beyond that a
failure costs the first message, if a part of it was on the wire already (`Progressed`). The socket
and how it is watched are as before (`Weathers`).

An event closes the connection only if a call has told that the stream is over or that the
peer is gone (`Lost`).

## Main results

* `SendQueue.progressed_flush` — what a flush leaves, and what it writes.
* `Link.endures_serve` — what comes of an event.
-/

namespace TextLink

/-! ## Queues -/

/-- Queue `q'` is what `q` becomes by a flush that writes `written`. -/
inductive SendQueue.Progressed (q : SendQueue) (written : Bytes) : SendQueue → Prop where
  /-- Some messages went out whole, and of the next one `n` bytes. -/
  | advanced {whole rest : List Bytes} {n : Nat} (hpending : q.pending = whole ++ rest)
      (hn : n = 0 ∨ n < (rest.headD []).length)
      (hwritten : written = whole.flatten ++ (rest.headD []).take n) :
      Progressed q written { q with
        pending := rest.modifyHead (·.drop n)
        headSent := (if whole = [] then q.headSent else 0) + n }
  /-- Nothing went out, and the message that was partly out is given up. -/
  | torn {head : Bytes} {others : List Bytes} (hpending : q.pending = head :: others)
      (hsent : 0 < q.headSent) (hwritten : written = []) :
      Progressed q written { q with
        pending := others, headSent := 0, discarded := q.discarded + 1 }

namespace SendQueue.Progressed

variable {q q' : SendQueue} {written head : Bytes} {others : List Bytes}

theorem refl (q : SendQueue) : q.Progressed [] q := by
  have hrest : q.pending = [] ++ q.pending := rfl
  have hsame : q.Progressed [] { q with
      pending := q.pending.modifyHead (·.drop 0), headSent := q.headSent + 0 } :=
    .advanced hrest (.inl rfl) rfl
  have hpending : q.pending.modifyHead (·.drop 0) = q.pending := by
    cases q.pending <;> rfl
  rwa [hpending] at hsame

/-- The first message went out before. -/
theorem cons (h : q.dropHead.Progressed written q') (hpending : q.pending = head :: others) :
    q.Progressed (head ++ written) q' := by
  have htail : q.dropHead.pending = others := congrArg List.tail hpending
  cases h with
  | @advanced whole rest n hrest hn hwritten =>
      have hall : q.pending = (head :: whole) ++ rest := by
        rw [hpending, ← htail, hrest]
        rfl
      have hout : head ++ written = (head :: whole).flatten ++ (rest.headD []).take n := by
        rw [hwritten, List.flatten_cons, List.append_assoc]
      have hadvanced := advanced hall hn hout
      have hsent : (if whole = [] then q.dropHead.headSent else 0) = 0 := ite_self _
      rw [hsent]
      exact hadvanced
  | torn _ hsent _ => cases hsent

end SendQueue.Progressed

/-! ## Calls -/

/-- Whether a call told that the stream of socket `s` is over, or that its peer is gone. -/
def Call.tellsLoss (s : SocketId) : Call → Bool
  | .receive s' _ (.ok bytes) => s' == s && bytes.isEmpty
  | .receive s' _ (.error e) | .send s' _ (.error e) => s' == s && e.kind.isDisconnect
  | _ => false

namespace Kernel

variable {k k' k'' : Kernel} {s : SocketId} {bytes : Bytes}

/-- A call on the way from `k` to `k'` told that socket `s` is of no more use. -/
def Lost (s : SocketId) (k k' : Kernel) : Prop := ∃ call ∈ newCalls k k', call.tellsLoss s = true

namespace Lost

theorem of_push {call : Call} (h : k'.calls = k.calls.push call) (hloss : call.tellsLoss s = true) :
    Lost s k k' := by
  refine ⟨call, ?_, hloss⟩
  rw [newCalls_of_push h]
  exact List.mem_singleton_self call

/-- More calls were made before. -/
theorem after (h : Lost s k' k'') (hcalls : k.calls.toList <+: k'.calls.toList) : Lost s k k'' := by
  obtain ⟨call, hmem, hloss⟩ := h
  exact ⟨call, List.drop_subset_drop_left _ hcalls.length_le hmem, hloss⟩

/-- More calls are made afterwards. -/
theorem before (h : Lost s k k') (hcalls : k'.calls.toList <+: k''.calls.toList) :
    Lost s k k'' := by
  obtain ⟨call, hmem, hloss⟩ := h
  refine ⟨call, ?_, hloss⟩
  obtain ⟨later, hlater⟩ := hcalls
  rw [newCalls, ← hlater, List.drop_append]
  exact List.mem_append_left _ hmem

theorem of_receive {size : Nat} {r : Except Errno Bytes} (h : k.receive s size = (r, k'))
    (hloss : (Call.receive s size r).tellsLoss s = true) : Lost s k k' := by
  unfold Kernel.receive at h
  split at h
  · cases h
    simp [Call.tellsLoss, Errno.kind, ErrorKind.isDisconnect] at hloss
  · cases h
    exact .of_push rfl hloss

theorem of_send {e : Errno} (h : k.send s bytes = (.error e, k'))
    (he : e.kind.isDisconnect = true) : Lost s k k' := by
  have hloss : (Call.send s bytes.length (.error e)).tellsLoss s = true := by
    simp [Call.tellsLoss, he]
  unfold Kernel.send at h
  split at h
  · cases h
    cases he
  · next sock _ =>
    obtain ⟨houtcome, rfl⟩ := Prod.mk.inj h
    exact .of_push (congrArg (k.calls.push <| Call.send s bytes.length ·) houtcome) hloss

/-- An interrupted attempt is made again, so it is the last one that tells. -/
theorem of_writeOnce {e : IoError} (h : Medium.writeOnce k s bytes = (.error e, k'))
    (he : e.kind.isDisconnect = true) : Lost s k k' := by
  fun_induction Medium.writeOnce k s bytes with
  | case1 k n hn => cases h
  | case2 k e' he' hk ih => exact (ih h).after (Serves.calls_prefix (serves_send k s bytes))
  | case3 k e' he' hk =>
      cases h
      have hanswer : (k.send s bytes).1.mapError IoError.os = .error e := he'
      rcases hsend : k.send s bytes with ⟨errno | n, k₁⟩ <;> rw [hsend] at hanswer
      · cases hanswer
        have hk₁ : (Medium.write k s bytes).2 = k₁ := congrArg Prod.snd hsend
        rw [hk₁]
        exact .of_send hsend he
      · cases hanswer

end Lost

/-! ### Wires -/

theorem wires_set {sock sock' : Socket} (hs : k.sockets[s]? = some sock) {more : Bytes}
    (hwire : sock'.wire = sock.wire ++ more) (call : Call) :
    (record { k with sockets := k.sockets.set s sock' } call).wires =
      k.wires.modify s (· ++ more) := by
  show (k.sockets.set s sock').map Socket.wire = _
  have hsock : k.wires[s]? = some sock.wire := by
    rw [wires, List.getElem?_map, hs]
    rfl
  rw [List.map_set, hwire, List.modify_eq_set_getElem?, hsock]
  rfl

theorem modify_append_nil (ws : List Bytes) (s : SocketId) : ws.modify s (· ++ []) = ws := by
  have hid : (fun w : Bytes => w ++ []) = id := funext List.append_nil
  rw [hid, List.modify_id]

/-- The bytes that were accepted, going by the answer. -/
def accepted (bytes : Bytes) : Except IoError Nat → Bytes
  | .ok n => bytes.take n
  | .error _ => []

theorem wire_send (sock : Socket) (bytes : Bytes) : (sock.send bytes).2.wire =
    sock.wire ++ accepted bytes ((sock.send bytes).1.mapError .os) := by
  unfold Socket.send
  split
  · exact (List.append_nil _).symm
  · split
    · exact (List.append_nil _).symm
    · split
      · exact (List.append_nil _).symm
      · rfl

theorem wires_write (k : Kernel) (s : SocketId) (bytes : Bytes) :
    (Medium.write k s bytes).2.wires =
      k.wires.modify s (· ++ accepted bytes (Medium.write k s bytes).1) := by
  show (k.send s bytes).2.wires =
    k.wires.modify s (· ++ accepted bytes ((k.send s bytes).1.mapError .os))
  unfold Kernel.send
  rcases hs : k.sockets[s]? with _ | sock
  · exact (modify_append_nil _ s).symm
  · exact wires_set hs (wire_send sock bytes) _

theorem wires_writeOnce {answer : Except IoError Nat}
    (h : Medium.writeOnce k s bytes = (answer, k')) :
    k'.wires = k.wires.modify s (· ++ accepted bytes answer) := by
  fun_induction Medium.writeOnce k s bytes with
  | case1 k n hn =>
      cases h
      rw [wires_write, hn]
  | case2 k e he hk ih =>
      rw [ih h, wires_write, he]
      show (k.wires.modify s (· ++ [])).modify s _ = _
      rw [modify_append_nil]
  | case3 k e he hk =>
      cases h
      rw [wires_write, he]

theorem wires_receive (k : Kernel) (s : SocketId) (size : Nat) :
    (k.receive s size).2.wires = k.wires := by
  unfold Kernel.receive
  rcases hs : k.sockets[s]? with _ | sock
  · rfl
  · have hwire : (sock.receive size).2.wire = sock.wire ++ [] := by
      rw [List.append_nil]
      unfold Socket.receive
      repeat' split
      all_goals rfl
    exact (wires_set hs hwire _).trans (modify_append_nil _ s)

end Kernel

/-! ## Flushing -/

namespace SendQueue

open Kernel (Lost)

variable {q : SendQueue} {k k' : Kernel} {s : SocketId}

/-- What a flush leaves of the queue is what it did not write. -/
theorem Flushes.progressed {waiting : List Bytes}
    {result : Except FlushFailure Flushed × SendQueue × Kernel}
    (h : Flushes s waiting q k result) (hq : q.pending = waiting) :
    ∃ written, q.Progressed written result.2.1 ∧
      result.2.2.wires = k.wires.modify s (· ++ written) := by
  have hnone {q : SendQueue} {answer : Except IoError Nat} {k k' : Kernel} {head : Bytes}
      (hwrite : Medium.writeOnce k s head = (answer, k'))
      (hnothing : Kernel.accepted head answer = []) :
      ∃ written, q.Progressed written q ∧ k'.wires = k.wires.modify s (· ++ written) :=
    ⟨[], .refl q, hnothing ▸ Kernel.wires_writeOnce hwrite⟩
  induction h with
  | @drained q k => exact ⟨[], .refl q, (Kernel.modify_append_nil _ s).symm⟩
  | nothing hwrite | blocked _ hwrite | kept _ _ hwrite => exact hnone hwrite rfl
  | @whole head others q k k₁ result _ hwrite _ ih =>
      obtain ⟨written, hprogressed, hwires⟩ := ih (congrArg List.tail hq)
      refine ⟨head ++ written, hprogressed.cons hq, ?_⟩
      have hhead := Kernel.wires_writeOnce hwrite
      rw [Kernel.accepted, List.take_length] at hhead
      rw [hwires, hhead, List.modify_modify_eq]
      congr 1
      exact funext fun w => List.append_assoc w head written
  | @part head others q k k₁ n hpos hn hwrite =>
      have hle : n ≤ head.length := Medium.writeOnce_le (congrArg Prod.fst hwrite)
      have hlt : n < head.length := Nat.lt_of_le_of_ne hle hn
      have hrest : q.pending = [] ++ head :: others := hq
      exact ⟨head.take n, .advanced hrest (.inr hlt) rfl, Kernel.wires_writeOnce hwrite⟩
  | @torn head others q k k₁ e _ hsent hwrite =>
      refine ⟨[], ?_, Kernel.wires_writeOnce hwrite⟩
      have htorn : q.Progressed [] _ := .torn hq hsent rfl
      have hothers : q.pending.tail = others := congrArg List.tail hq
      rw [discardHead, dropHead, hothers]
      exact htorn

theorem progressed_flush (k : Kernel) (hw : q.writer = some s) :
    ∃ written, q.Progressed written (q.flush k).2.1 ∧
      (q.flush k).2.2.wires = k.wires.modify s (· ++ written) :=
  (flushes_of_flush k hw).progressed rfl

/-- A flush that fails because the peer is gone was told so. -/
theorem Flushes.lost {waiting : List Bytes}
    {result : Except FlushFailure Flushed × SendQueue × Kernel}
    (h : Flushes s waiting q k result) {failure : FlushFailure} (hfails : result.1 = .error failure)
    (hgone : failure.cause.kind.isDisconnect = true) : Lost s k result.2.2 := by
  induction h with
  | drained | nothing _ | part _ _ _ | blocked _ _ => cases hfails
  | whole _ hwrite _ ih =>
      exact (ih hfails).after (Kernel.Serves.calls_prefix (Kernel.serves_of_writeOnce hwrite))
  | torn _ _ hwrite | kept _ _ hwrite =>
      cases hfails
      exact .of_writeOnce hwrite hgone

end SendQueue

/-! ## Events -/

namespace Link

open Kernel (Lost)

variable {l l' l'' : Link} {s : SocketId}

/-- Nothing is different but what was decoded. -/
structure Spares (l l' : Link) : Prop where
  conn : ∃ decoder stalled, l'.conn = { l.conn with decoder, stalled }
  queue_eq : l'.queue = l.queue
  table : l.kernel.SameTable l'.kernel
  wires_eq : l'.kernel.wires = l.kernel.wires

theorem Spares.refl (l : Link) : Spares l l := ⟨⟨_, _, rfl⟩, rfl, .refl _, rfl⟩

/-- A connection has come through an event that was cut short: it is as it was but for what was
decoded, and its queue was flushed to socket `s`. -/
structure Weathers (s : SocketId) (l l' : Link) : Prop where
  conn : ∃ decoder stalled, l'.conn = { l.conn with decoder, stalled }
  table : l.kernel.SameTable l'.kernel
  output : ∃ written, l.queue.Progressed written l'.queue ∧
    l'.kernel.wires = l.kernel.wires.modify s (· ++ written)

theorem Spares.weathers (h : Spares l l') (s : SocketId) : Weathers s l l' where
  conn := h.conn
  table := h.table
  output := ⟨[], h.queue_eq ▸ .refl _, h.wires_eq.trans (Kernel.modify_append_nil _ s).symm⟩

/-- What spares the connection may come first. -/
theorem Weathers.after (h : Weathers s l' l'') (hspares : Spares l l') : Weathers s l l'' where
  conn := by
    obtain ⟨decoder, stalled, hconn⟩ := h.conn
    obtain ⟨decoder', stalled', hconn'⟩ := hspares.conn
    exact ⟨decoder, stalled, by rw [hconn, hconn']⟩
  table := hspares.table.trans h.table
  output := by
    obtain ⟨written, hprogressed, hwires⟩ := h.output
    exact ⟨written, hspares.queue_eq ▸ hprogressed, hspares.wires_eq ▸ hwires⟩

/-- It may come last, too. -/
theorem Weathers.before (h : Weathers s l l') (hspares : Spares l' l'') : Weathers s l l'' where
  conn := by
    obtain ⟨decoder, stalled, hconn⟩ := h.conn
    obtain ⟨decoder', stalled', hconn'⟩ := hspares.conn
    exact ⟨decoder', stalled', by rw [hconn', hconn]⟩
  table := h.table.trans hspares.table
  output := by
    obtain ⟨written, hprogressed, hwires⟩ := h.output
    exact ⟨written, hspares.queue_eq ▸ hprogressed, hspares.wires_eq.trans hwires⟩

/-! ### Reading -/

theorem spares_read (l : Link) : Spares l l.read.2 := by
  have ⟨hconn, hqueue⟩ := read_keeps l
  have hkernel : l.kernel.SameTable l.read.2.kernel ∧ l.read.2.kernel.wires = l.kernel.wires := by
    unfold read
    split
    · exact ⟨.refl _, rfl⟩
    · next s _ =>
      refine readFrom_keeps (s := s)
        (P := fun l' => l.kernel.SameTable l'.kernel ∧ l'.kernel.wires = l.kernel.wires)
        (fun l' ⟨htable, hwires⟩ => ?_) (fun l' bytes h => ?_) ⟨.refl _, rfl⟩
      · exact ⟨htable.trans (Kernel.serves_receive l'.kernel s l'.conn.chunk).table,
          (Kernel.wires_receive l'.kernel s l'.conn.chunk).trans hwires⟩
      · rw [kernel_takeIn]
        exact h
  exact ⟨hconn, hqueue, hkernel.1, hkernel.2⟩

/-- Reading that finds the stream over was told so. -/
theorem lost_readFrom (h : (l.readFrom s).1 = .ok false) :
    Lost s l.kernel (l.readFrom s).2.kernel := by
  have hcalls {l : Link} {r : Except Errno Bytes} {k : Kernel}
      (hk : l.kernel.receive s l.conn.chunk = (r, k)) :
      l.kernel.calls.toList <+: k.calls.toList := by
    have hserves := Kernel.serves_of_receive hk
    exact hserves.calls_prefix
  fun_induction Link.readFrom l s with
  | case1 l k hk => exact .of_receive hk (by simp [Call.tellsLoss])
  | case2 l b bs k hk told ht ih =>
      have htold : told.kernel = k := kernel_of_takeIn ht
      exact (ih h).after (htold ▸ hcalls hk)
  | case3 | case4 | case7 => cases h
  | case5 l k hk hne ih => exact (ih h).after (hcalls hk)
  | case6 l e k hk hne hn hd => exact .of_receive hk (by simp [Call.tellsLoss, hd])

/-! ### Writing -/

theorem weathers_flush (hw : l.queue.writer = some s) : Weathers s l l.flush.2 where
  conn := ⟨l.conn.decoder, l.conn.stalled, conn_flush l⟩
  table := by
    rw [kernel_flush]
    exact (Kernel.serves_flush l.kernel hw).table
  output := by
    rw [kernel_flush, queue_flush]
    exact SendQueue.progressed_flush l.kernel hw

theorem lost_flush (hw : l.queue.writer = some s) {e : IoError} (h : l.flush.1 = .error e)
    (he : e.kind.isDisconnect = true) : Lost s l.kernel l.flush.2.kernel := by
  have hflushes := SendQueue.flushes_of_flush l.kernel hw
  rw [kernel_flush]
  unfold flush at h
  simp only at h
  generalize l.queue.flush l.kernel = result at h hflushes ⊢
  rcases result with ⟨failure | _, q, k⟩
  · cases h
    exact hflushes.lost rfl he
  · cases h

/-! ### Watching -/

/-- A call that was to change what is watched and failed has changed nothing. -/
theorem spares_arm {interest : Interest} {e : IoError} (h : (l.arm interest).1 = .error e) :
    Spares l (l.arm interest).2 := by
  have hfailed (vs : List (CallName × Verdict)) (call : Call) :
      Spares l { l with kernel := l.kernel.registered vs l.kernel.registrations call } :=
    ⟨⟨_, _, rfl⟩, rfl, ⟨rfl, rfl, rfl, rfl, rfl⟩, rfl⟩
  unfold arm at h ⊢
  rcases hs : l.conn.socket with _ | s <;> simp only [hs] at h ⊢
  · cases h
  · by_cases hsame : l.conn.registered = some interest
    · rw [if_pos hsame] at h
      cases h
    · rw [if_neg hsame] at h ⊢
      by_cases hr : l.conn.registered.isSome = true
      · rw [if_pos hr] at h ⊢
        rcases Kernel.reregister_cases l.kernel s l.conn.token interest with
          ⟨vs, _, heq⟩ | ⟨e, vs, heq⟩ <;> rw [heq] at h ⊢
        · cases h
        · exact hfailed vs _
      · rw [if_neg hr] at h ⊢
        rcases Kernel.register_cases l.kernel s l.conn.token interest with
          ⟨vs, _, heq⟩ | ⟨e, vs, heq⟩ <;> rw [heq] at h ⊢
        · cases h
        · exact hfailed vs _

/-! ### An event -/

/-- Looking after what a connection is watched for changes how it is registered, at most. -/
theorem conn_rearm (l : Link) : ∃ registered, l.rearm.2.conn = { l.conn with registered } := by
  unfold rearm
  split
  · rcases hs : l.conn.socket with _ | s
    · unfold arm
      rw [hs]
      exact ⟨_, rfl⟩
    · rcases (arm_cases l hs (.serving l.queue.hasPending)).2 with ⟨_, hconn⟩ | ⟨_, hconn⟩
      · exact ⟨_, hconn⟩
      · exact ⟨_, hconn⟩
  · exact ⟨_, rfl⟩

/-- An established connection serves its events. -/
theorem handleEvent_of_connected (hstate : l.conn.state = .connected) (event : Event) :
    l.handleEvent event = l.serve event := by
  rw [handleEvent, hstate]

/-- What comes of an event that an established connection with socket `s` serves. -/
def Endures (s : SocketId) (l : Link) : Except Setback Progress × Link → Prop
  | (.ok .ongoing, l') => ∃ decoder stalled registered,
      l'.conn = { l.conn with decoder, stalled, registered }
  | (.ok (.retry _), _) => False
  | (.ok .closed, l') => Lost s l.kernel l'.kernel
  | (.error (.failed _), l') => Weathers s l l'
  | (.error (.fault _), _) => True

/-- What spares the connection may come first, with calls of its own. -/
theorem Endures.after {r : Except Setback Progress × Link} (h : Endures s l' r)
    (hspares : Spares l l')
    (hcalls : l.kernel.calls.toList <+: l'.kernel.calls.toList) : Endures s l r := by
  obtain ⟨decoder', stalled', hconn'⟩ := hspares.conn
  rcases r with ⟨(_ | _) | (_ | _ | _), k⟩
  · exact Weathers.after h hspares
  · trivial
  · obtain ⟨decoder, stalled, registered, hconn⟩ := h
    exact ⟨decoder, stalled, registered, by rw [hconn, hconn']⟩
  · exact h
  · exact Lost.after h hcalls

theorem endures_concludeService (h : Weathers s l l') (hs : l'.conn.socket = some s) :
    Endures s l l'.concludeService := by
  have hconn := h.conn
  unfold concludeService rearm
  by_cases hstate : l'.conn.state = .connected
  · rw [if_pos hstate]
    have ⟨_, hcases⟩ := arm_cases l' hs (.serving l'.queue.hasPending)
    have hfailed {e : IoError} (he : (l'.arm (.serving l'.queue.hasPending)).1 = .error e) :=
      spares_arm he
    generalize l'.arm (.serving l'.queue.hasPending) = r at hcases hfailed
    rcases r with ⟨e | _, l''⟩
    · exact h.before (hfailed rfl)
    · obtain ⟨decoder, stalled, hconn⟩ := hconn
      rcases hcases with ⟨_, harmed⟩ | ⟨⟨e, he⟩, _⟩
      · exact ⟨decoder, stalled, _, by rw [harmed, hconn]⟩
      · cases he
  · rw [if_neg hstate]
    obtain ⟨decoder, stalled, hconn⟩ := hconn
    exact ⟨decoder, stalled, l.conn.registered, hconn⟩

theorem endures_serveWriting (hl : l.Sound) (hs : l.conn.socket = some s)
    (hw : l.queue.writer = some s) (event : Event) : Endures s l (l.serveWriting event) := by
  unfold serveWriting
  split
  · have hflush := weathers_flush hw
    have hlost (e : IoError) := lost_flush hw (e := e)
    have hleads := (Leaves.refl hl).flush
    have hconn := conn_flush l
    generalize l.flush = r at hflush hlost hleads hconn
    rcases r with ⟨e | _, l'⟩
    · by_cases he : e.kind.isDisconnect = true
      · simp only [if_pos he]
        have hclose := (Leaves.refl hleads.sound).close
        exact (hlost e rfl he).before hclose.touches.calls_prefix
      · simp only [if_neg he]
        exact hflush
    · exact endures_concludeService hflush ((congrArg Connection.socket hconn).trans hs)
  · exact endures_concludeService ((Spares.refl l).weathers s) hs

/-- Whatever the event: the connection goes on, or a call has told that it cannot. -/
theorem endures_serve (hl : l.Sound) (hs : l.conn.socket = some s) (hw : l.queue.writer = some s)
    (event : Event) : Endures s l (l.serve event) := by
  have hread : l.read = l.readFrom s := by
    rw [read, hs]
  have hspares := spares_read l
  have hleads := (Leaves.refl hl).read
  have hlost := lost_readFrom (l := l) (s := s)
  rw [← hread] at hlost
  unfold serve
  split
  · generalize l.read = r at hspares hleads hlost
    rcases r with ⟨(_ | _) | (_ | _), l'⟩
    · exact hspares.weathers s
    · trivial
    · have hclose := (Leaves.refl hleads.sound).close
      exact (hlost rfl).before hclose.touches.calls_prefix
    · obtain ⟨decoder, stalled, hconn⟩ := hspares.conn
      have hs' : l'.conn.socket = some s := (congrArg Connection.socket hconn).trans hs
      have hw' : l'.queue.writer = some s := (congrArg SendQueue.writer hspares.queue_eq).trans hw
      exact (endures_serveWriting hleads.sound hs' hw' event).after hspares
        hleads.touches.calls_prefix
  · exact endures_serveWriting hl hs hw event

end Link

end TextLink
