import TextLink.Proofs.Queue.Delivery

/-!
# Writing on the spot is queueing and flushing

A message that nothing waits before is tried on the wire the moment it is pushed, and only what is
left of it is queued. This is a short cut: `pushDeferred` queues every message whole, and where the
short cut would have been taken, it flushes the queue once and does not look at what came of it. The
two leave the same queue behind, count for count, and make the same calls to the same destinations
with the same bytes, however these answer.

The calls are seen through a `CallLog`, a medium that writes down every one of them. What makes the
two agree is that nothing of a message is out where no message waits (`HeadKept`): the short cut
leaves `headSent` alone when it writes a message whole, and a flush sets it to zero.

## Main results

* `push_eq_pushDeferred` — on any queue that keeps its head, over any medium.
* `QueueRun.direct_eq_deferred` — after every sequence of actions, with what a push answers.
-/

namespace TextLink

/-! ## The reference -/

namespace SendQueue

variable {σ : Type} [Medium σ]

/--
Offers a message by way of the queue.

The queue of a connection that is up and has nothing waiting is flushed once; how that goes is
ignored.
-/
def pushDeferred (q : SendQueue) (s : σ) (message : Bytes) :
    Except SendError Unit × SendQueue × σ :=
  match q.refusal with
  | some e => (.error e, q, s)
  | none =>
    if message.isEmpty then (.ok (), q, s)
    else if q.state = .connected ∧ q.pending = [] then (.ok (), ((q.enqueue message).flush s).2)
    else (.ok (), q.enqueue message, s)

/-- Nothing of a message is out when no message waits. -/
def HeadKept (q : SendQueue) : Prop := q.pending = [] → q.headSent = 0

end SendQueue

/-! ## Media whose calls are written down -/

/-- One call to write: the destination, what it was offered, and what it answered. -/
structure WriteCall where
  writer : Nat
  offered : Bytes
  answer : Except IoError Nat

/-- A medium, and the calls made to it, in order. -/
structure CallLog (σ : Type) where
  medium : σ
  calls : List WriteCall := []

namespace CallLog

variable {σ : Type} [Medium σ]

/-- One attempt to write, written down. -/
def write (l : CallLog σ) (w : Nat) (bytes : Bytes) : Except IoError Nat × CallLog σ :=
  let (answer, medium) := Medium.write l.medium w bytes
  (answer, { medium, calls := l.calls ++ [⟨w, bytes, answer⟩] })

instance : Medium (CallLog σ) where
  write := write
  patience l w := Medium.patience l.medium w
  patience_lt l w bytes e h hk := Medium.patience_lt l.medium w bytes e h hk

end CallLog

/-! ## Runs with either way to push -/

/-- A queue and its destinations, with the calls made to them. -/
structure QueueRun (σ : Type) where
  queue : SendQueue
  log : CallLog σ
  /-- How many writers were attached. They are numbered in this order. -/
  attached : Nat := 0

namespace QueueRun

variable {σ : Type} [Medium σ]

/-- A new queue over destinations that were not called yet. -/
def start (limit : Option Nat) (s : σ) : QueueRun σ where
  queue := .ofLimit limit
  log := { medium := s }

/-- One more action, with messages offered by `offer`. -/
def perform (offer : SendQueue → CallLog σ → Bytes → SendQueue × CallLog σ) (r : QueueRun σ) :
    QueueAction σ → QueueRun σ
  | .push message =>
    let (queue, log) := offer r.queue r.log message
    { r with queue, log }
  | .flush =>
    let (_, queue, log) := r.queue.flush r.log
    { r with queue, log }
  | .connecting => { r with queue := r.queue.connecting.2 }
  | .connected => { r with queue := r.queue.connected r.attached, attached := r.attached + 1 }
  | .close => { r with queue := r.queue.close.2 }
  | .bind token => { r with queue := r.queue.bind token }
  | .outside s => { r with log := { r.log with medium := s } }

/-- The run of a list of actions with the queue's own `push`. -/
def direct (r : QueueRun σ) (actions : List (QueueAction σ)) : QueueRun σ :=
  actions.foldl (perform fun q l message => (q.push l message).2) r

/-- The run of a list of actions with every message queued first. -/
def deferred (r : QueueRun σ) (actions : List (QueueAction σ)) : QueueRun σ :=
  actions.foldl (perform fun q l message => (q.pushDeferred l message).2) r

end QueueRun

/-! ## The head of a queue -/

namespace SendQueue

variable {σ : Type} [Medium σ] {q : SendQueue}

theorem HeadKept.pushes {s : σ} {message : Bytes}
    {result : Except SendError Pushed × SendQueue × σ} (hq : q.HeadKept)
    (h : Pushes q s message result) : result.2.1.HeadKept := by
  cases h with
  | refused _ | empty _ _ | whole _ _ _ _ _ _ => exact hq
  | queued _ _ _ | failed _ _ _ _ _ _ | part _ _ _ _ _ _ _ =>
      exact fun hnil => absurd hnil (List.append_ne_nil_of_right_ne_nil _ (List.cons_ne_nil _ _))

theorem HeadKept.flushes {w : Nat} {waiting : List Bytes} {s : σ}
    {result : Except FlushFailure Flushed × SendQueue × σ} (hq : q.HeadKept)
    (h : Flushes w waiting q s result) : result.2.1.HeadKept := by
  induction h with
  | drained | nothing _ | blocked _ _ | kept _ _ _ => exact hq
  | part _ _ _ => exact fun hnil => absurd hnil (List.cons_ne_nil _ _)
  | torn _ _ _ => exact fun _ => rfl
  | whole _ _ _ ih => exact ih fun _ => rfl

theorem HeadKept.flush (s : σ) (hq : q.HeadKept) : (q.flush s).2.1.HeadKept := by
  by_cases hnone : q.writer = none
  · rw [flush_of_no_writer s hnone]
    exact hq
  · have ⟨w, hw⟩ := Option.ne_none_iff_exists'.1 hnone
    exact hq.flushes (flushes_of_flush s hw)

theorem HeadKept.connecting (hq : q.HeadKept) : q.connecting.2.HeadKept := by
  unfold SendQueue.connecting
  by_cases hclosed : q.state = .closed
  · rw [if_pos hclosed]
    exact hq
  · by_cases hsent : 0 < q.headSent
    · simp only [if_neg hclosed, if_pos hsent]
      exact fun _ => rfl
    · simp only [if_neg hclosed, if_neg hsent]
      exact fun _ => Nat.eq_zero_of_not_pos hsent

/-! ## The two ways to push -/

/-- A queue without messages takes one in and hands it on again. -/
theorem dropHead_enqueue (message : Bytes) (hnone : q.pending = []) (hq : q.HeadKept) :
    (q.enqueue message).dropHead = q := by
  have hsent := hq hnone
  simp only [enqueue, dropHead, hnone, List.nil_append, List.tail_cons]
  rw [← hnone, ← hsent]

theorem flush_enqueue {w : Nat} (s : σ) (message : Bytes) (hw : q.writer = some w)
    (hnone : q.pending = []) :
    (q.enqueue message).flush s = (q.enqueue message).flushTo w [message] s := by
  have hpending : (q.enqueue message).pending = [message] := by rw [enqueue, hnone, List.nil_append]
  have hwriter : (q.enqueue message).writer = some w := hw
  rw [flush, hwriter, ← hpending]

/-- What a flush makes of a message queued alone is what pushing it makes of it. -/
theorem flush_enqueue_eq {w n : Nat} {s s' : σ} {message : Bytes} (hm : message ≠ [])
    (hw : q.writer = some w) (hnone : q.pending = []) (hq : q.HeadKept)
    (h : Medium.writeOnce s w message = (.ok n, s')) :
    ((q.enqueue message).flush s).2 =
      (if n = message.length then q else { q.enqueue (message.drop n) with headSent := n },
        s') := by
  have hlength : message.length ≠ 0 := fun h0 => hm (List.length_eq_zero_iff.1 h0)
  have hsent := hq hnone
  rw [flush_enqueue s message hw hnone, flushTo, h]
  by_cases hzero : n = 0
  · subst hzero
    rw [if_neg hlength.symm]
    simp only [if_pos, List.drop_zero, enqueue, hsent]
  · by_cases hall : n = message.length
    · simp only [if_neg hzero, if_pos hall, dropHead_enqueue message hnone hq, flushTo]
    · simp only [if_neg hzero, if_neg hall, enqueue, hnone, List.nil_append, hsent, Nat.zero_add]

theorem flush_enqueue_of_error {w : Nat} {e : IoError} {s s' : σ} {message : Bytes}
    (hw : q.writer = some w) (hnone : q.pending = []) (hq : q.HeadKept)
    (h : Medium.writeOnce s w message = (.error e, s')) :
    ((q.enqueue message).flush s).2 = (q.enqueue message, s') := by
  have hsent : (q.enqueue message).headSent = 0 := hq hnone
  rw [flush_enqueue s message hw hnone, flushTo, h]
  by_cases hblock : e.kind = .wouldBlock
  · simp only [if_pos hblock]
  · simp only [if_neg hblock, hsent, Nat.lt_irrefl, if_false]

/--
**The short cut.** Pushing does to a queue and its medium what queueing the message and flushing
does, and takes and refuses the same messages.
-/
theorem push_eq_pushDeferred (s : σ) (message : Bytes) (hq : q.HeadKept) :
    (q.push s message).2 = (q.pushDeferred s message).2 ∧
      (q.push s message).1.map (fun _ => ()) = (q.pushDeferred s message).1 := by
  have hpush := pushes q s message
  generalize q.push s message = result at hpush
  cases hpush with
  | refused h =>
      rw [pushDeferred, h]
      exact ⟨rfl, rfl⟩
  | empty h hm =>
      rw [pushDeferred, h, hm]
      exact ⟨rfl, rfl⟩
  | queued h hm hidle =>
      rw [pushDeferred, h, if_neg (mt List.isEmpty_iff.1 hm)]
      by_cases hfree : q.state = .connected ∧ q.pending = []
      · have hw : (q.enqueue message).writer = none := by
          rcases hidle with hw | hstate | hpending
          · exact hw
          · exact absurd hfree.1 hstate
          · exact absurd hfree.2 hpending
        rw [if_pos hfree, flush_of_no_writer s hw]
        exact ⟨rfl, rfl⟩
      · rw [if_neg hfree]
        exact ⟨rfl, rfl⟩
  | whole h hm hw hstate hnone hwrite =>
      rw [pushDeferred, h, if_neg (mt List.isEmpty_iff.1 hm), if_pos ⟨hstate, hnone⟩,
        flush_enqueue_eq hm hw hnone hq hwrite, if_pos rfl]
      exact ⟨rfl, rfl⟩
  | part h hm hw hstate hnone hwrite hn =>
      rw [pushDeferred, h, if_neg (mt List.isEmpty_iff.1 hm), if_pos ⟨hstate, hnone⟩,
        flush_enqueue_eq hm hw hnone hq hwrite, if_neg hn]
      exact ⟨rfl, rfl⟩
  | failed h hm hw hstate hnone hwrite =>
      rw [pushDeferred, h, if_neg (mt List.isEmpty_iff.1 hm), if_pos ⟨hstate, hnone⟩,
        flush_enqueue_of_error hw hnone hq hwrite]
      exact ⟨rfl, rfl⟩

/-! ## What a push answers -/

theorem Pushes.written_iff {s : σ} {message : Bytes}
    {result : Except SendError Pushed × SendQueue × σ} (h : Pushes q s message result) :
    result.1 = .ok .written ↔ q.refusal = none ∧ (message = [] ∨ result.2.1.pending = []) := by
  cases h with
  | refused h => simp [h]
  | empty h hm => simp [h, hm]
  | queued h hm _ | part h hm _ _ _ _ _ | failed h hm _ _ _ _ => simp [hm, enqueue]
  | whole h hm _ _ hnone _ => simp [h, hnone]

theorem Pushes.arm_iff {s : σ} {message : Bytes}
    {result : Except SendError Pushed × SendQueue × σ} (h : Pushes q s message result) :
    result.1 = .ok (.queued true) ↔
      q.state = .connected ∧ q.pending = [] ∧ result.2.1.pending ≠ [] := by
  cases h with
  | refused _ | empty _ _ => simp
  | queued _ _ _ => simp [enqueue]
  | whole _ _ _ _ hnone _ => simp [hnone]
  | part _ _ _ hstate hnone _ _ | failed _ _ _ hstate hnone _ => simp [hstate, hnone, enqueue]

end SendQueue

/-! ## Whole runs -/

namespace QueueRun

variable {σ : Type} [Medium σ] {r : QueueRun σ}

theorem perform_keeps (a : QueueAction σ) (h : r.queue.HeadKept) :
    (r.perform (fun q l message => (q.push l message).2) a).queue.HeadKept := by
  cases a with
  | push message => exact h.pushes (SendQueue.pushes r.queue r.log message)
  | flush => exact h.flush r.log
  | connecting => exact h.connecting
  | close => exact fun _ => rfl
  | connected | bind token | outside s => exact h

theorem perform_eq (a : QueueAction σ) (h : r.queue.HeadKept) :
    r.perform (fun q l message => (q.push l message).2) a =
      r.perform (fun q l message => (q.pushDeferred l message).2) a := by
  cases a with
  | push message => simp only [perform, (SendQueue.push_eq_pushDeferred r.log message h).1]
  | flush | connecting | connected | close | bind _ | outside _ => rfl

theorem direct_keeps (actions : List (QueueAction σ)) (h : r.queue.HeadKept) :
    (r.direct actions).queue.HeadKept ∧ r.direct actions = r.deferred actions := by
  induction actions generalizing r with
  | nil => exact ⟨h, rfl⟩
  | cons a later ih =>
      have ⟨hkept, heq⟩ := ih (perform_keeps a h)
      refine ⟨hkept, heq.trans ?_⟩
      rw [perform_eq a h]
      rfl

/--
**Writing on the spot agrees with the queue.** Whatever is done to a queue and however its
destinations answer, pushing leaves the queue and has made the calls that queueing every message
first leaves and makes. The next message is taken or refused alike. It is answered as written just
if it is empty or nothing waits after it, and with the request to watch the socket just if it is the
first to wait on a connection that is up.
-/
theorem direct_eq_deferred (limit : Option Nat) (s : σ) (actions : List (QueueAction σ))
    (message : Bytes) :
    let r := (start limit s).direct actions
    let (outcome, q, _) := r.queue.push r.log message
    r = (start limit s).deferred actions ∧
      outcome.map (fun _ => ()) = (r.queue.pushDeferred r.log message).1 ∧
      (outcome = .ok .written ↔ r.queue.refusal = none ∧ (message = [] ∨ q.pending = [])) ∧
      (outcome = .ok (.queued true) ↔
        r.queue.state = .connected ∧ r.queue.pending = [] ∧ q.pending ≠ []) := by
  have ⟨hkept, heq⟩ := (start limit s).direct_keeps actions fun _ => rfl
  have hpush := SendQueue.pushes ((start limit s).direct actions).queue
    ((start limit s).direct actions).log message
  exact ⟨heq, (SendQueue.push_eq_pushDeferred _ message hkept).2, hpush.written_iff, hpush.arm_iff⟩

end QueueRun

end TextLink
