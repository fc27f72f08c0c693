import TextLink.Proofs.Connection.Intake
import TextLink.Proofs.Connection.Rearming
import TextLink.Proofs.Kernel.Supply

/-!
# What an event uses up

An event says that something can be done, and handling it does some of it. Bytes that arrived are
received, bytes that fit are sent, a connect that has ended is concluded, watching for room ends
where nothing waits any more; or a call fails that was told to fail. So each event of a ready socket
leaves less to be done (`uses_handleEvent`), and no step of a connection, whatever its occasion,
adds to it.

What is left to do is counted in two parts. One is what the kernel has to report (`Kernel.supply`);
the other is what the connection owes (`Link.errands`): the messages that wait, and one more thing,
to be established first, or to have its registration changed at last.

## Main results

* `Steps.spends`, `Steps.errands_le` — no step adds to what there is to do.
* `uses_handleEvent` — an event of a ready socket leaves less.
-/

namespace TextLink

open Relation (ReflTransGen)

/-! ## Messages -/

namespace SendQueue

variable {σ : Type} [Medium σ]

theorem length_pending_connecting_le (q : SendQueue) :
    q.connecting.2.pending.length ≤ q.pending.length := by
  unfold connecting
  split
  · exact Nat.le_refl _
  · split
    · show q.pending.tail.length ≤ _
      rw [List.length_tail]
      exact Nat.sub_le _ _
    · exact Nat.le_refl _

/-- Flushing leaves no more messages than there were. -/
theorem Flushes.length_pending_le {w : Nat} {waiting : List Bytes} {q : SendQueue} {s : σ}
    {result : Except FlushFailure Flushed × SendQueue × σ} (h : Flushes w waiting q s result)
    (hq : q.pending = waiting) : result.2.1.pending.length ≤ waiting.length := by
  induction h with
  | drained | nothing _ | blocked _ _ | kept _ _ _ => exact Nat.le_of_eq (congrArg List.length hq)
  | part _ _ _ => exact Nat.le_refl _
  | torn _ _ _ =>
      refine Nat.le_trans (Nat.le_of_eq List.length_tail) ?_
      rw [hq]
      exact Nat.sub_le _ _
  | whole _ _ _ ih => exact Nat.le_trans (ih (congrArg List.tail hq)) (Nat.le_succ _)

theorem length_pending_flush_le (q : SendQueue) (s : σ) :
    (q.flush s).2.1.pending.length ≤ q.pending.length := by
  rcases hw : q.writer with _ | w
  · exact Nat.le_of_eq (by rw [flush_of_no_writer s hw])
  · exact (flushes_of_flush s hw).length_pending_le rfl

/-- Once a message went out whole, nothing is left only where all went out. -/
theorem Flushes.drained_of_nil {w : Nat} {waiting : List Bytes} {q : SendQueue} {s : σ}
    {result : Except FlushFailure Flushed × SendQueue × σ} (h : Flushes w waiting q s result)
    (hq : q.pending = waiting) (hsent : q.headSent = 0) (hnone : result.2.1.pending = []) :
    result.1 = .ok .drained := by
  induction h with
  | drained => rfl
  | nothing _ | blocked _ _ | kept _ _ _ => cases hq.symm.trans hnone
  | part _ _ _ => cases hnone
  | torn _ hpos _ => exact absurd hsent (Nat.ne_of_gt hpos)
  | whole _ _ _ ih => exact ih (congrArg List.tail hq) rfl hnone

end SendQueue

/-! ## Writing to a ready socket -/

namespace Kernel

variable {k : Kernel} {s : SocketId} {sock : Socket}

theorem Sends.dealings {k' : Kernel} (h : Sends s k k') : Dealings k k' :=
  ReflTransGen.lift id (fun k _ ⟨bytes, hk⟩ => hk ▸ .send k s bytes) k k' h

/-- A socket that is ready for output takes all the bytes written, or has something used up. -/
theorem supply_writeOnce_lt (hs : k.sockets[s]? = some sock) (hopen : sock.isOpen = true)
    (hup : sock.phase = .up) (hready : sock.room ≠ some 0 ∨ sock.sendErrors ≠ []) (bytes : Bytes) :
    (Medium.writeOnce k s bytes).1 = .ok bytes.length ∨
      (Medium.writeOnce k s bytes).2.supply < k.supply := by
  have hsend := supply_send_lt hs hopen hup hready bytes
  have hwrite : Medium.write k s bytes = ((k.send s bytes).1.mapError .os, (k.send s bytes).2) :=
    rfl
  rw [Medium.writeOnce]
  split
  · next n hn =>
    refine hsend.imp_left fun hall => ?_
    rw [hwrite, hall] at hn
    exact hn.symm
  · next e he =>
    have hlt : (Medium.write k s bytes).2.supply < k.supply := by
      refine hsend.resolve_left fun hall => ?_
      rw [hwrite, hall] at he
      cases he
    refine .inr ?_
    split
    · exact Nat.lt_of_le_of_lt (sends_writeOnce _ s bytes).dealings.spends.supply_le hlt
    · exact hlt

/-- Flushing to a ready socket uses something up, or sends all messages, or all but some. -/
theorem supply_flushes_lt {waiting : List Bytes} {q : SendQueue}
    {result : Except FlushFailure Flushed × SendQueue × Kernel}
    (h : SendQueue.Flushes s waiting q k result) (hq : q.pending = waiting)
    (hmessages : [] ∉ waiting) (hs : k.sockets[s]? = some sock) (hopen : sock.isOpen = true)
    (hup : sock.phase = .up) (hready : sock.room ≠ some 0 ∨ sock.sendErrors ≠ []) :
    result.2.2.supply < k.supply ∨ result.1 = .ok .drained ∧ result.2.1.pending = [] ∨
      result.2.1.pending ≠ [] ∧ result.2.1.pending.length < waiting.length := by
  have hlt (bytes : Bytes) := supply_writeOnce_lt hs hopen hup hready bytes
  cases h with
  | drained => exact .inr (.inl ⟨rfl, hq⟩)
  | @nothing head _ _ _ _ hwrite =>
      have hlt := hlt head
      rw [hwrite] at hlt
      refine .inl (hlt.resolve_left fun hall => hmessages ?_)
      rw [← List.eq_nil_of_length_eq_zero (Except.ok.inj hall).symm]
      exact List.mem_cons_self
  | @part head _ _ _ _ _ _ hn hwrite =>
      have hlt := hlt head
      rw [hwrite] at hlt
      exact .inl (hlt.resolve_left fun hall => hn (Except.ok.inj hall))
  | @blocked head _ _ _ _ _ _ hwrite | @torn head _ _ _ _ _ _ _ hwrite
  | @kept head _ _ _ _ _ _ _ hwrite =>
      have hlt := hlt head
      rw [hwrite] at hlt
      exact .inl (hlt.resolve_left nofun)
  | @whole head others _ _ _ _ _ _ hrest =>
      have hothers : q.dropHead.pending = others := congrArg List.tail hq
      by_cases hnone : result.2.1.pending = []
      · exact .inr (.inl ⟨hrest.drained_of_nil hothers rfl hnone, hnone⟩)
      · exact .inr (.inr ⟨hnone, Nat.lt_succ_of_le (hrest.length_pending_le hothers)⟩)

end Kernel

/-! ## What an event is told of -/

/-- Event `event` is told of a socket in state `sock` that is watched for `interest`. -/
structure Occurs (sock : Socket) (interest : Interest) (event : Event) : Prop where
  ready : sock.readiness ≠ {}
  readable : sock.phase = .up → event.readable = true → sock.incoming ≠ []
  writable : sock.phase = .up → event.readable = false → event.writable = true ∧
    interest.write = true ∧ (sock.room ≠ some 0 ∨ sock.sendErrors ≠ [])

theorem occurs_of_report {sock : Socket} {interest : Interest} {event : Event} {s : SocketId}
    {token : Nat} (hany : (sock.readiness.through (.ofInterest interest)).any = true)
    (h : Report.event? ⟨.socket s token, sock.readiness.through (.ofInterest interest)⟩ =
      some event) :
    Occurs sock interest event := by
  have hevent : event.readable = (((sock.readiness.through (.ofInterest interest)).error ||
      (sock.readiness.through (.ofInterest interest)).hangup ||
      (sock.readiness.through (.ofInterest interest)).readHangup) ||
      (sock.readiness.through (.ofInterest interest)).input) ∧
      event.writable = (sock.readiness.through (.ofInterest interest)).output := by
    unfold Report.event? at h
    split at h
    · cases h
    · rw [← Option.some.inj h]
      exact ⟨rfl, rfl⟩
  obtain ⟨hreadable, hwritable⟩ := hevent
  constructor
  · intro hnone
    rw [hnone] at hany
    cases hany
  · intro hup hread hnone
    rw [hreadable, Socket.readiness, hup] at hread
    simp only [hnone, Flags.through, List.any_nil, List.isEmpty_nil, Bool.not_true, Bool.false_and,
      Bool.or_self, Bool.false_eq_true] at hread
  · intro hup hread
    rw [hread, eq_comm, Bool.or_eq_false_iff, Bool.or_eq_false_iff,
      Bool.or_eq_false_iff] at hreadable
    obtain ⟨⟨⟨herror, hhangup⟩, hreadHangup⟩, hinput⟩ := hreadable
    have hout : (sock.readiness.through (.ofInterest interest)).output = true := by
      rw [Flags.any, hinput, herror, hhangup, hreadHangup] at hany
      simpa using hany
    refine ⟨hwritable.trans hout, ?_⟩
    rw [Flags.through, Bool.and_eq_true] at hout
    refine ⟨hout.2, ?_⟩
    have hroom := hout.1
    rw [Socket.readiness, hup] at hroom
    simpa using hroom

namespace Link

open Kernel (Dealing Dealings Spends)

variable {l l' l'' : Link} {s : SocketId} {sock : Socket} {why : Occasion} {interest : Interest}
  {event : Event}

/-! ## Kernel calls of a connection -/

theorem dealings_letGo (l : Link) (o : Option SocketId) : Dealings l.kernel (l.letGo o).kernel := by
  unfold letGo
  split
  · exact .refl
  · split
    · exact .refl
    · exact .single (.close _ _)

/-- The queue changes, and gives a socket up. -/
theorem dealings_queue (l : Link) (queue : SendQueue) (o : Option SocketId) :
    Dealings l.kernel (letGo { l with queue } o).kernel :=
  dealings_letGo { l with queue } o

theorem dealings_arm (l : Link) (interest : Interest) :
    Dealings l.kernel (l.arm interest).2.kernel := by
  unfold arm
  split
  · exact .refl
  · next s _ =>
    have hregister : Dealing l.kernel (l.kernel.register s l.conn.token interest).2 :=
      .register l.kernel s l.conn.token interest
    have hreregister : Dealing l.kernel (l.kernel.reregister s l.conn.token interest).2 :=
      .reregister l.kernel s l.conn.token interest
    split
    · exact .refl
    · rcases l.conn.registered with _ | i
      · simp only [Option.isSome_none, Bool.false_eq_true, if_false]
        generalize l.kernel.register s l.conn.token interest = r at hregister ⊢
        rcases r with ⟨_ | e, k⟩ <;> exact .single hregister
      · simp only [Option.isSome_some, if_true]
        generalize l.kernel.reregister s l.conn.token interest = r at hreregister ⊢
        rcases r with ⟨_ | e, k⟩ <;> exact .single hreregister

theorem dealings_release (l : Link) : Dealings l.kernel l.release.kernel := by
  unfold release
  split
  · exact .refl
  · next s _ =>
    simp only
    refine ReflTransGen.trans ?_ (dealings_letGo _ _)
    split
    · exact .single (.deregister l.kernel s)
    · exact .refl

theorem dealings_setState (l : Link) (state : ConnectionState) :
    Dealings l.kernel (l.setState state).kernel := by
  rw [kernel_setState]

/-- A step is made of calls. -/
theorem Step.dealings (h : Step why l l') : Dealings l.kernel l'.kernel := by
  cases h with
  | note | plan => exact .refl
  | suspend | closeQueue | put _ _ _ _ => exact dealings_queue l _ _
  | release => exact dealings_release l
  | arm _ interest => exact dealings_arm l interest
  | begin _ | establish _ _ _ _ => exact dealings_setState l _
  | shut rs _ _ _ _ =>
      exact dealings_setState
        (Link.note { l with conn := { l.conn with retryAt := none, decoder := {} } } rs) .closed
  | unmade h | made _ _ _ h =>
      have hopens : Dealing l.kernel (l.kernel.openStream l.conn.address).2 := .openStream _ _
      rw [h] at hopens
      exact .single hopens
  | @cleared _ s _ _ _ h =>
      have htakes : Dealing l.kernel (l.kernel.takeError s).2 := .takeError _ _
      rw [h] at htakes
      exact .single htakes
  | @refused _ s r k _ _ h _ =>
      have htakes : Dealing l.kernel (l.kernel.takeError s).2 := .takeError _ _
      rw [h] at htakes
      exact ReflTransGen.head htakes (dealings_release { l with kernel := k })
  | @miss _ s _ _ _ _ h _ =>
      have hreceives : Dealing l.kernel (l.kernel.receive s l.conn.chunk).2 := .receive _ _ _
      rw [h] at hreceives
      exact .single hreceives
  | @take _ s _ _ _ _ _ h =>
      have hreceives : Dealing l.kernel (l.kernel.receive s l.conn.chunk).2 := .receive _ _ _
      rw [h] at hreceives
      rw [kernel_takeIn]
      exact .single hreceives
  | flush _ =>
      rcases hw : l.queue.writer with _ | w
      · rw [SendQueue.flush_of_no_writer _ hw]
      · exact (Kernel.sends_flush l.kernel hw).dealings

theorem Steps.dealings (h : Steps why l l') : Dealings l.kernel l'.kernel := by
  induction h with
  | refl => exact .refl
  | tail _ hstep ih => exact ih.trans hstep.dealings

theorem Steps.spends (h : Steps why l l') : Spends l.kernel l'.kernel := h.dealings.spends

/-! ## What a connection owes -/

/-- What is left to do about a connection besides sending its messages: it is to be established; or
it is to be watched for writing no more. -/
def chores (c : Connection) (q : SendQueue) : Nat :=
  match c.state with
  | .disconnected | .connecting => 1
  | .connected => if q.pending = [] ∧ c.registered.any (·.write) then 1 else 0
  | .closed => 0

/-- What a connection owes: the messages that wait, and its chores. -/
def errands (l : Link) : Nat := l.queue.pending.length + chores l.conn l.queue

section Chores

variable {c : Connection} {q q' : SendQueue}

theorem chores_le_one (c : Connection) (q : SendQueue) : chores c q ≤ 1 := by
  unfold chores
  split
  case h_3 => split <;> decide
  all_goals decide

/-- Each message that goes makes up for the watching that may have to end. -/
theorem owed_le_of_pending (h : q'.pending.length ≤ q.pending.length) :
    q'.pending.length + chores c q' ≤ q.pending.length + chores c q := by
  by_cases hsame : q'.pending = q.pending
  · refine Nat.le_of_eq ?_
    unfold chores
    rw [hsame]
  · by_cases hnone : q'.pending = []
    · have hpos : 0 < q.pending.length := by
        rw [List.length_pos_iff, ← hnone]
        exact Ne.symm hsame
      have hone := chores_le_one c q'
      rw [hnone, List.length_nil]
      omega
    · have hle : chores c q' ≤ chores c q := by
        unfold chores
        rcases c.state with _ | _ | _ | _
        case connected =>
          rw [if_neg fun hend => hnone hend.1]
          exact Nat.zero_le _
        all_goals exact Nat.le_refl _
      exact Nat.add_le_add h hle

theorem chores_unregistered_le {c' : Connection} (hstate : c'.state = c.state)
    (hregistered : c'.registered = none) : chores c' q ≤ chores c q := by
  unfold chores
  rw [hstate, hregistered]
  rcases c.state with _ | _ | _ | _
  case connected =>
    rw [if_neg fun hend => Bool.false_ne_true hend.2]
    exact Nat.zero_le _
  all_goals exact Nat.le_refl _

/-- What is watched as needed need not be watched otherwise. -/
theorem chores_registered_le {interest : Interest}
    (h : c.state = .connected → interest.write = q.hasPending) :
    chores { c with registered := some interest } q ≤ chores c q := by
  unfold chores
  rcases hstate : c.state with _ | _ | _ | _
  case connected =>
    rw [if_neg]
    · exact Nat.zero_le _
    · rintro ⟨hnone, hwrite⟩
      rw [Option.any_some, h hstate, SendQueue.hasPending, hnone] at hwrite
      cases hwrite
  all_goals exact Nat.le_refl _

end Chores

theorem errands_queue_le (h : l'.queue.pending.length ≤ l.queue.pending.length)
    (hconn : l'.conn = l.conn) : l'.errands ≤ l.errands := by
  unfold errands
  rw [hconn]
  exact owed_le_of_pending h

theorem errands_conn_le (h : chores l'.conn l.queue ≤ chores l.conn l.queue)
    (hqueue : l'.queue = l.queue) : l'.errands ≤ l.errands := by
  unfold errands
  rw [hqueue]
  exact Nat.add_le_add_left h _

theorem errands_release_le (l : Link) : l.release.errands ≤ l.errands := by
  refine errands_conn_le ?_ (queue_release l)
  unfold release
  split
  · exact Nat.le_refl _
  · rw [conn_letGo]
    exact chores_unregistered_le rfl rfl

theorem errands_arm_le (l : Link) {interest : Interest}
    (hneeded : l.conn.state = .connected → interest.write = l.queue.hasPending) :
    (l.arm interest).2.errands ≤ l.errands := by
  refine errands_conn_le ?_ (queue_arm l interest)
  rcases hs : l.conn.socket with _ | s
  · refine Nat.le_of_eq ?_
    unfold arm
    rw [hs]
  · rcases (arm_cases l hs interest).2 with ⟨_, hconn⟩ | ⟨_, hconn⟩
    · exact hconn ▸ chores_registered_le hneeded
    · exact Nat.le_of_eq (by rw [hconn])

theorem errands_setState_le {state : ConnectionState} (hstate : chores l.conn l.queue = 1) :
    (l.setState state).errands ≤ l.errands := by
  refine errands_conn_le ?_ (queue_setState l state)
  rw [hstate]
  exact chores_le_one _ _

/-- No step leaves a connection owing more. -/
theorem Step.errands_le (h : Step why l l') : l'.errands ≤ l.errands := by
  cases h with
  | note | plan | unmade | made | cleared | miss => exact Nat.le_refl _
  | suspend =>
      refine errands_queue_le ?_ (conn_letGo _ _)
      rw [queue_letGo]
      exact SendQueue.length_pending_connecting_le l.queue
  | closeQueue =>
      refine errands_queue_le ?_ (conn_closeQueue l)
      rw [queue_closeQueue]
      exact Nat.zero_le _
  | release => exact errands_release_le l
  | @refused _ _ _ k => exact errands_release_le { l with kernel := k }
  | arm _ interest hneeded => exact errands_arm_le l hneeded
  | begin hstate =>
      refine errands_setState_le ?_
      unfold chores
      rcases hstate with hstate | hstate <;> rw [hstate]
  | put _ _ _ _ =>
      refine errands_queue_le (Nat.le_of_eq ?_) (conn_letGo _ _)
      rw [queue_letGo]
      rfl
  | establish _ hstate _ _ =>
      refine errands_setState_le ?_
      unfold chores
      rw [hstate]
  | @take _ s b bs k _ _ _ =>
      have ⟨⟨decoder, stalled, hconn⟩, hqueue⟩ := takeIn_keeps { l with kernel := k } (b :: bs)
      refine errands_conn_le ?_ hqueue
      rw [hconn]
      exact Nat.le_refl _
  | flush _ => exact errands_queue_le (SendQueue.length_pending_flush_le _ _) rfl
  | shut rs _ _ _ _ =>
      refine errands_conn_le ?_ (queue_setState _ _)
      rw [conn_setState]
      exact Nat.zero_le _

theorem Steps.errands_le (h : Steps why l l') : l'.errands ≤ l.errands := by
  induction h with
  | refl => exact Nat.le_refl _
  | tail _ hstep ih => exact Nat.le_trans hstep.errands_le ih

/-! ## What is used up -/

/-- There is less to be done at `l'` than at `l`. -/
def Uses (l l' : Link) : Prop := l'.kernel.supply < l.kernel.supply ∨ l'.errands < l.errands

theorem Uses.steps (h : Uses l l') (hsteps : Steps why l' l'') : Uses l l'' :=
  h.imp (Nat.lt_of_le_of_lt hsteps.spends.supply_le) (Nat.lt_of_le_of_lt hsteps.errands_le)

theorem Steps.uses (h : Steps why l l') (huses : Uses l' l'') : Uses l l'' :=
  huses.imp (fun hlt => Nat.lt_of_lt_of_le hlt h.spends.supply_le)
    fun hlt => Nat.lt_of_lt_of_le hlt h.errands_le

/-- What a socket had to report is gone with it. -/
theorem Steps.uses_of_holdsNone (h : Steps why l l') (hl : l.Sound) (hs : l.conn.socket = some s)
    (hpos : 0 < l.kernel.supplyOf s)
    (hnone : l'.conn.socket = none ∧ l'.queue.writer = none) : Uses l l' := by
  refine .inl (h.spends.supply_lt hpos fun hopen => ?_)
  rcases (h.leads hl).kept s hopen with hheld | hloose | ⟨_, hnot⟩
  · rcases holds_iff.1 hheld with hsocket | hwriter
    · cases hnone.1.symm.trans hsocket
    · cases hnone.2.symm.trans hwriter
  · cases hloose
  · exact hnot (holds_iff.2 (.inl hs))

/-- A connection that was looked after has no chores. -/
theorem chores_serving {c : Connection} {q : SendQueue} (hstate : c.state = .connected)
    (hr : c.registered = some (.serving q.hasPending)) : chores c q = 0 := by
  unfold chores
  rw [hstate, hr]
  refine if_neg fun ⟨hnone, hwrite⟩ => ?_
  rw [Option.any_some, Interest.serving, SendQueue.hasPending, hnone] at hwrite
  cases hwrite

/-! ### Connecting -/

theorem holdsNone_attemptFailed (hstate : l.conn.state = .connecting)
    (hqueue : l.queue.state ≠ .closed) :
    l.attemptFailed.2.conn.socket = none ∧ l.attemptFailed.2.queue.writer = none := by
  have hsocket : l.release.suspendQueue.conn.socket = none := by
    rw [conn_suspendQueue, socket_release]
  have hconnecting : l.release.suspendQueue.conn.state = .connecting := by
    rw [conn_suspendQueue, state_release, hstate]
  have hwriter : l.release.suspendQueue.queue.writer = none := by
    rw [queue_suspendQueue, queue_release]
    exact (SendQueue.state_connecting hqueue).2
  unfold attemptFailed
  simp only
  generalize l.release.suspendQueue = l₁ at hsocket hconnecting hwriter
  split
  · split <;> exact ⟨hsocket, hwriter⟩
  · exact holdsNone_close fun hclosed => by cases hconnecting.symm.trans hclosed

/-- A connect that has ended is concluded: the connection is established, or gives up the socket. -/
theorem uses_finishConnect (hl : l.Sound) (hstate : l.conn.state = .connecting)
    (hqueue : l.queue.state ≠ .closed) (hs : l.conn.socket = some s)
    (hpos : 0 < l.kernel.supplyOf s) (event : Event) : Uses l (l.finishConnect event).2 := by
  have hsteps := Steps.finishConnect hstate event
  have hconn : (l.connectOutcome s event).2.conn = l.conn := rfl
  have hq : (l.connectOutcome s event).2.queue = l.queue := rfl
  unfold Link.finishConnect at hsteps ⊢
  simp only [hs] at hsteps ⊢
  generalize l.connectOutcome s event = r at hsteps hconn hq ⊢
  rcases r with ⟨e | _, l₁⟩ <;> simp only at hsteps hconn hq ⊢
  · refine hsteps.uses_of_holdsNone hl hs hpos (holdsNone_attemptFailed ?_ ?_)
    · rw [hconn, hstate]
    · rwa [hq]
  · have ⟨hqueue₂, hcases⟩ := establish_cases l₁ (s := s) (by rw [hconn, hs])
    generalize l₁.establish = r at hsteps hqueue₂ hcases ⊢
    rcases r with ⟨e | _, l₂⟩
    · rcases hcases with ⟨hok, _⟩ | ⟨_, hconn₂⟩
      · cases hok
      · refine hsteps.uses_of_holdsNone hl hs hpos (holdsNone_attemptFailed ?_ ?_)
        · rw [hconn₂, hconn, hstate]
        · rw [hqueue₂]
          exact nofun
    · rcases hcases with ⟨_, hconn₂⟩ | ⟨⟨e, he⟩, _⟩
      · refine .inr ?_
        show l₂.errands < l.errands
        have hsame : l₂.queue.pending = l.queue.pending := by
          rw [hqueue₂, hq]
          rfl
        have hnone : chores l₂.conn l₂.queue = 0 := by
          rw [hqueue₂, hconn₂]
          exact chores_serving rfl rfl
        have hone : chores l.conn l.queue = 1 := by
          unfold chores
          rw [hstate]
        rw [errands, errands, hsame, hnone, hone]
        exact Nat.lt_succ_self _
      · cases he

/-! ### Reading and writing -/

/-- Where something has arrived, reading meets the end of the stream or uses something up. -/
theorem supply_readFrom_lt (hstate : l.conn.state = .connected) (hs : l.conn.socket = some s)
    (hsock : l.kernel.sockets[s]? = some sock) (hopen : sock.isOpen = true) (hup : sock.phase = .up)
    (hin : sock.incoming ≠ []) :
    (l.readFrom s).1 = .ok false ∨ (l.readFrom s).2.kernel.supply < l.kernel.supply := by
  have hreceive := Kernel.supply_receive_lt hsock hopen hup hin l.conn.chunk
  fun_cases Link.readFrom l s with
  | case1 k hk => exact .inl rfl
  | case2 b bs k hk told ht =>
      rw [hk] at hreceive
      have ⟨⟨decoder, stalled, hconn⟩, _⟩ := takeIn_keeps { l with kernel := k } (b :: bs)
      have htold : told.kernel = k := kernel_of_takeIn ht
      rw [ht] at hconn
      have hlater : Steps .serving told (told.readFrom s).2 :=
        Steps.readFrom .refl (by rw [hconn, hstate]) (by rw [hconn, hs])
      refine .inr (Nat.lt_of_le_of_lt hlater.spends.supply_le ?_)
      rw [htold]
      exact hreceive.resolve_left nofun
  | case3 b bs k hk told ht =>
      rw [hk] at hreceive
      have htold : told.kernel = k := kernel_of_takeIn ht
      rw [htold]
      exact .inr (hreceive.resolve_left nofun)
  | case4 k hk =>
      rw [hk] at hreceive
      exact .inr (hreceive.resolve_left nofun)
  | case5 k hk hne =>
      rw [hk] at hreceive
      have hlater : Steps .serving { l with kernel := k } (readFrom { l with kernel := k } s).2 :=
        Steps.readFrom .refl hstate hs
      exact .inr (Nat.lt_of_le_of_lt hlater.spends.supply_le (hreceive.resolve_left nofun))
  | case6 e k hk _ _ _ => exact .inl rfl
  | case7 e k hk _ _ _ =>
      rw [hk] at hreceive
      exact .inr (hreceive.resolve_left nofun)

/-- Flushing to a ready socket leaves less to be done, or no message. -/
theorem uses_flush (hstate : l.conn.state = .connected) (hwriter : l.queue.writer = some s)
    (hmessages : [] ∉ l.queue.pending) (hsock : l.kernel.sockets[s]? = some sock)
    (hopen : sock.isOpen = true) (hup : sock.phase = .up)
    (hready : sock.room ≠ some 0 ∨ sock.sendErrors ≠ []) :
    Uses l l.flush.2 ∨ l.flush.1 = .ok () ∧ l.flush.2.queue.pending = [] := by
  have hlt := Kernel.supply_flushes_lt (SendQueue.flushes_of_flush l.kernel hwriter) rfl hmessages
    hsock hopen hup hready
  rw [← kernel_flush, ← queue_flush] at hlt
  rcases hlt with hlt | ⟨hok, hnone⟩ | ⟨hne, hlt⟩
  · exact .inl (.inl hlt)
  · refine .inr ⟨?_, hnone⟩
    unfold flush
    generalize l.queue.flush l.kernel = result at hok ⊢
    rcases result with ⟨outcome, q, k⟩
    obtain rfl : outcome = .ok .drained := hok
    rfl
  · refine .inl (.inr ?_)
    have hnone : chores l.flush.2.conn l.flush.2.queue = 0 := by
      unfold chores
      rw [conn_flush, hstate]
      exact if_neg fun hend => hne hend.1
    rw [errands, errands, hnone]
    exact Nat.lt_of_lt_of_le hlt (Nat.le_add_right _ _)

/-- Where no message waits, watching for writing ends, or a call fails. -/
theorem uses_rearm (hl : l.Sound) (hstate : l.conn.state = .connected)
    (hs : l.conn.socket = some s) (hr : l.conn.registered = some interest)
    (hwrite : interest.write = true) (hnone : l.queue.pending = []) : Uses l l.rearm.2 := by
  have hregistered : l.kernel.isRegistered s = true := by
    obtain ⟨s', hs', hmem⟩ := hl.watched.mem_watches interest hr
    obtain rfl := Option.some.inj (hs.symm.trans hs')
    exact Kernel.isRegistered_iff.2 (List.ne_nil_of_mem hmem)
  have hpending : l.queue.hasPending = false := by
    rw [SendQueue.hasPending, hnone]
    rfl
  have hchange : some interest ≠ some (.serving false) := by
    intro hsame
    rw [Option.some.inj hsame] at hwrite
    cases hwrite
  unfold rearm
  rw [if_pos hstate, hpending]
  obtain ⟨hqueue, hcases⟩ := arm_cases l hs (.serving false)
  rcases hcases with ⟨_, hconn⟩ | ⟨⟨e, he⟩, _⟩
  · refine .inr ?_
    have hzero : chores (l.arm (.serving false)).2.conn (l.arm (.serving false)).2.queue = 0 := by
      rw [hconn, hqueue]
      exact chores_serving hstate (by rw [hpending])
    have hone : chores l.conn l.queue = 1 := by
      unfold chores
      rw [hstate, hr]
      exact if_pos ⟨hnone, hwrite⟩
    rw [errands, errands, hzero, hone, hqueue]
    exact Nat.lt_succ_self _
  · unfold arm at he ⊢
    simp only [hs, hr, if_neg hchange, Option.isSome_some, if_true] at he ⊢
    rcases hcall : l.kernel.reregister s l.conn.token (.serving false) with ⟨_ | e', k⟩ <;>
      rw [hcall] at he
    · cases he
    · exact .inl (Kernel.supply_reregister_lt hregistered hcall)

theorem link_concludeService (l : Link) : l.concludeService.2 = l.rearm.2 := by
  unfold concludeService
  generalize l.rearm = r
  rcases r with ⟨e | _, l₁⟩ <;> rfl

/-- Where there is room, a message is sent, or watching for room ends. -/
theorem uses_serveWriting (hl : l.Sound) (hstate : l.conn.state = .connected)
    (hs : l.conn.socket = some s) (hr : l.conn.registered = some interest)
    (hwrite : interest.write = true) (hwriter : l.queue.writer = some s)
    (hmessages : [] ∉ l.queue.pending) (hsock : l.kernel.sockets[s]? = some sock)
    (hopen : sock.isOpen = true) (hup : sock.phase = .up)
    (hready : sock.room ≠ some 0 ∨ sock.sendErrors ≠ []) (hwritable : event.writable = true) :
    Uses l (l.serveWriting event).2 := by
  have hsteps : Steps .serving l l.flush.2 := Steps.flush .refl hstate
  have hsound := (hsteps.leads hl).sound
  have huses := uses_flush hstate hwriter hmessages hsock hopen hup hready
  have hconn := conn_flush l
  unfold Link.serveWriting
  rw [if_pos hwritable]
  generalize l.flush = r at hsteps hsound huses hconn ⊢
  rcases r with ⟨e | _, l₁⟩
  · have huses : Uses l l₁ := huses.resolve_right fun hok => nomatch hok.1
    have hclose : Steps .serving l₁ l₁.close := Steps.close .refl nofun
    simp only
    split
    · exact huses.steps hclose
    · exact huses
  · simp only
    rw [link_concludeService]
    rcases huses with huses | ⟨_, hnone⟩
    · have hrearm : Steps .serving l₁ l₁.rearm.2 := Steps.rearm .refl
      exact huses.steps hrearm
    · exact hsteps.uses (uses_rearm hsound ((congrArg Connection.state hconn).trans hstate)
        ((congrArg Connection.socket hconn).trans hs)
        ((congrArg Connection.registered hconn).trans hr) hwrite hnone)

theorem uses_serve (hl : l.Sound) (hshape : Shape l.conn l.queue)
    (hstate : l.conn.state = .connected) (hs : l.conn.socket = some s)
    (hr : l.conn.registered = some interest) (hmessages : [] ∉ l.queue.pending)
    (hsock : l.kernel.sockets[s]? = some sock) (hopen : sock.isOpen = true) (hup : sock.phase = .up)
    (h : Occurs sock interest event) : Uses l (l.serve event).2 := by
  have hread : l.read = l.readFrom s := by
    unfold read
    rw [hs]
  have hsteps := Steps.serve hstate event
  have hreads := Steps.read hstate
  have ⟨⟨decoder, stalled, hconn⟩, _⟩ := read_keeps l
  unfold Link.serve at hsteps ⊢
  by_cases hreadable : event.readable = true
  · have hlt := supply_readFrom_lt hstate hs hsock hopen hup (h.readable hup hreadable)
    rw [← hread] at hlt
    rw [if_pos hreadable] at hsteps ⊢
    generalize l.read = r at hsteps hreads hconn hlt ⊢
    rcases r with ⟨setback | (_ | _), l₁⟩
    · exact .inl (hlt.resolve_left nofun)
    · refine hsteps.uses_of_holdsNone hl hs ?_ (holdsNone_close ?_)
      · rw [Kernel.supplyOf_eq hsock]
        exact Socket.supply_pos_of_readiness hopen h.ready
      · rw [hconn, hstate]
        decide
    · have hlater : Steps .serving l₁ (l₁.serveWriting event).2 :=
        Steps.serveWriting .refl (by rw [hconn, hstate]) event
      exact Uses.steps (.inl (hlt.resolve_left nofun)) hlater
  · have ⟨hwritable, hwrite, hready⟩ := h.writable hup (Bool.eq_false_iff.2 hreadable)
    rw [if_neg hreadable]
    cases hshape with
    | connected _ hsocket _ _ _ hwriter _ =>
        obtain rfl := Option.some.inj (hs.symm.trans hsocket)
        exact uses_serveWriting hl hstate hs hr hwrite hwriter hmessages hsock hopen hup hready
          hwritable
    | inFlight hne _ _ _ _ _ | waiting hne _ _ _ _ _ => cases hne.symm.trans hstate

/-- **An event of a ready socket leaves less to be done.** -/
theorem uses_handleEvent (hl : l.Sound) (hshape : Shape l.conn l.queue)
    (hmessages : [] ∉ l.queue.pending) (hs : l.conn.socket = some s)
    (hr : l.conn.registered = some interest) (hsock : l.kernel.sockets[s]? = some sock)
    (hup : l.conn.state = .connected → sock.phase = .up) (h : Occurs sock interest event) :
    Uses l (l.handleEvent event).2 := by
  have hopen : sock.isOpen = true := by
    obtain ⟨sock', hsock', hopen⟩ := hl.open_of_holds s (holds_iff.2 (.inl hs))
    obtain rfl := Option.some.inj (hsock.symm.trans hsock')
    exact hopen
  have hpos : 0 < l.kernel.supplyOf s := by
    rw [Kernel.supplyOf_eq hsock]
    exact Socket.supply_pos_of_readiness hopen h.ready
  have ⟨hqueue, hor⟩ := hshape.state_eq
  unfold Link.handleEvent
  rcases hor with hstate | hstate <;> rw [hstate] at hqueue ⊢ <;> simp only
  · have huses := uses_finishConnect hl hstate (by rw [hqueue]; decide) hs hpos event
    generalize l.finishConnect event = r at huses ⊢
    rcases r with ⟨fault | progress, l₁⟩ <;> exact huses
  · exact uses_serve hl hshape hstate hs hr hmessages hsock hopen (hup hstate) h

end Link

end TextLink
