import TextLink.Proofs.Queue.Deferral

/-!
# What every queue keeps

Whatever is done to a queue, in whatever order, and however its destinations answer, some things are
always true of it (`Sound`): no message that waits is empty, nothing of a message is out unless one
waits, there is a writer just while the connection is up, and no more messages wait than may. A
connection attaches its writers in a certain order, but the queue does not rely on that: a writer
may be replaced while there is one, and attached to a queue that was closed.

That no message is empty matters to a flush. It takes an answer of zero octets for a wire that takes
nothing, so it would never get past an empty message.

## Main results

* `Sound.push`, `Sound.flush`, `Sound.connecting`, … — every operation keeps a queue sound.
* `Continues` — what an operation may change of the rest.
* `flush_drained_iff`, `Pushes.of_error` — what a flush and a refused message leave.
* `QueueRun.keeps_books` — what holds at every point of every run.
-/

namespace TextLink

namespace SendQueue

/-! ## Messages have octets -/

section Messages

variable {σ : Type} [Medium σ] [LawfulMedium σ] {q : SendQueue}

/-- Every message that waits has octets. -/
def Worded (q : SendQueue) : Prop := [] ∉ q.pending

theorem Worded.enqueue (h : q.Worded) {message : Bytes} (hm : message ≠ []) :
    (q.enqueue message).Worded := by
  intro hmem
  rcases List.mem_append.1 hmem with hold | hnew
  · exact h hold
  · exact hm (List.mem_singleton.1 hnew).symm

theorem worded_connecting (h : q.Worded) : q.connecting.2.Worded := by
  unfold connecting
  split
  · exact h
  · split
    · exact fun hmem => h (List.mem_of_mem_tail hmem)
    · exact h

/-- What is left of a message has octets, unless all of it was written. -/
theorem drop_ne_nil_of_writeOnce {s s' : σ} {w n : Nat} {message : Bytes}
    (hn : n ≠ message.length) (h : Medium.writeOnce s w message = (.ok n, s')) :
    message.drop n ≠ [] := by
  have hle : n ≤ message.length := Medium.writeOnce_le (congrArg Prod.fst h)
  rw [Ne, List.drop_eq_nil_iff]
  omega

theorem Flushes.worded {w : Nat} {waiting : List Bytes} {s : σ}
    {result : Except FlushFailure Flushed × SendQueue × σ} (h : Flushes w waiting q s result)
    (hq : q.pending = waiting) (hworded : q.Worded) : result.2.1.Worded := by
  induction h with
  | drained | nothing _ | blocked _ _ | kept _ _ _ => exact hworded
  | torn _ _ _ => exact fun hmem => hworded (List.mem_of_mem_tail hmem)
  | part _ hn hwrite =>
      intro hmem
      rcases List.mem_cons.1 hmem with hhead | hothers
      · exact drop_ne_nil_of_writeOnce hn hwrite hhead.symm
      · exact hworded (hq ▸ List.mem_cons_of_mem _ hothers)
  | whole _ _ _ ih =>
      exact ih (congrArg List.tail hq) fun hmem => hworded (List.mem_of_mem_tail hmem)

theorem worded_flush (h : q.Worded) (s : σ) : (q.flush s).2.1.Worded := by
  rcases hw : q.writer with _ | w
  · rw [flush_of_no_writer s hw]
    exact h
  · exact (flushes_of_flush s hw).worded rfl h

theorem worded_push (h : q.Worded) (s : σ) (message : Bytes) : (q.push s message).2.1.Worded := by
  have hpushes := pushes q s message
  generalize q.push s message = result at hpushes ⊢
  cases hpushes with
  | refused _ | empty _ _ | whole _ _ _ _ _ _ => exact h
  | queued _ hm _ | failed _ hm _ _ _ _ => exact h.enqueue hm
  | part _ _ _ _ _ hwrite hn => exact h.enqueue (drop_ne_nil_of_writeOnce hn hwrite)

end Messages

/-! ## What an operation may change -/

variable {σ : Type} [Medium σ] {q : SendQueue} {s : σ}

/-- The queue `q` has become `q'`, and `token` was the first one bound meanwhile. -/
structure Continues (q q' : SendQueue) (token : Option Nat) : Prop where
  limit_eq : q'.limit = q.limit
  token_eq : q'.token = q.token.or token
  discarded_le : q.discarded ≤ q'.discarded

namespace Continues

variable {q' q'' : SendQueue} {token token' : Option Nat}

theorem refl (q : SendQueue) : q.Continues q none where
  limit_eq := rfl
  token_eq := Option.or_none.symm
  discarded_le := Nat.le_refl _

theorem trans (h : q.Continues q' token) (h' : q'.Continues q'' token') :
    q.Continues q'' (token.or token') where
  limit_eq := h'.limit_eq.trans h.limit_eq
  token_eq := by rw [h'.token_eq, h.token_eq, Option.or_assoc]
  discarded_le := Nat.le_trans h.discarded_le h'.discarded_le

theorem bind (q : SendQueue) (token : Nat) : q.Continues (q.bind token) (some token) where
  limit_eq := rfl
  token_eq := Option.orElse_eq_or
  discarded_le := Nat.le_refl _

theorem connecting (q : SendQueue) : q.Continues q.connecting.2 none := by
  unfold SendQueue.connecting
  by_cases hclosed : q.state = .closed
  · rw [if_pos hclosed]
    exact refl q
  · by_cases hsent : 0 < q.headSent
    · simp only [if_neg hclosed, if_pos hsent]
      exact { refl q with discarded_le := Nat.le_succ _ }
    · simp only [if_neg hclosed, if_neg hsent]
      exact { refl q with }

theorem push (q : SendQueue) (s : σ) (message : Bytes) :
    q.Continues (q.push s message).2.1 none := by
  obtain ⟨_, _, hq⟩ := (pushes q s message).keeps
  rw [hq]
  exact { refl q with }

theorem flushes {w : Nat} {waiting : List Bytes}
    {result : Except FlushFailure Flushed × SendQueue × σ} (h : Flushes w waiting q s result) :
    q.Continues result.2.1 none := by
  induction h with
  | drained | nothing _ | blocked _ _ | kept _ _ _ => exact refl _
  | whole _ _ _ ih => exact { ih with }
  | part _ _ _ => exact { refl _ with }
  | torn _ _ _ => exact { refl _ with discarded_le := Nat.le_succ _ }

theorem flush (q : SendQueue) (s : σ) : q.Continues (q.flush s).2.1 none := by
  by_cases hnone : q.writer = none
  · rw [flush_of_no_writer s hnone]
    exact refl q
  · obtain ⟨w, hw⟩ := Option.ne_none_iff_exists'.1 hnone
    exact flushes (flushes_of_flush s hw)

end Continues

/-! ## How many messages wait -/

theorem length_lt_of_refusal {limit : Nat} (h : q.refusal = none) (hlimit : q.limit = some limit) :
    q.pending.length < limit := by
  unfold refusal at h
  rw [hlimit] at h
  split at h
  · cases h
  · simp only at h
    split at h
    · cases h
    · next hlt => exact Nat.lt_of_not_le hlt

/-- A message that is not refused has room. -/
theorem Pushes.length_le {message : Bytes} {limit : Nat}
    {result : Except SendError Pushed × SendQueue × σ} (h : Pushes q s message result)
    (hlimit : q.limit = some limit) (hle : q.pending.length ≤ limit) :
    result.2.1.pending.length ≤ limit := by
  have henqueue (hq : q.refusal = none) (m : Bytes) : (q.enqueue m).pending.length ≤ limit := by
    have hlt := length_lt_of_refusal hq hlimit
    rw [enqueue, List.length_append]
    exact hlt
  cases h with
  | refused _ | empty _ _ | whole _ _ _ _ _ _ => exact hle
  | queued hq _ _ | part hq _ _ _ _ _ _ | failed hq _ _ _ _ _ => exact henqueue hq _

/-- Flushing adds no message. -/
theorem Flushes.length_le {w : Nat} {waiting : List Bytes}
    {result : Except FlushFailure Flushed × SendQueue × σ} (h : Flushes w waiting q s result)
    (hpending : q.pending = waiting) : result.2.1.pending.length ≤ waiting.length := by
  induction h with
  | drained | nothing _ | blocked _ _ | kept _ _ _ => exact Nat.le_of_eq (congrArg _ hpending)
  | whole _ _ _ ih => exact Nat.le_succ_of_le (ih (congrArg List.tail hpending))
  | part _ _ _ => exact Nat.le_refl _
  | torn _ _ _ => exact Nat.le_succ_of_le (Nat.le_of_eq (congrArg (·.tail.length) hpending))

theorem length_flush_le (q : SendQueue) (s : σ) :
    (q.flush s).2.1.pending.length ≤ q.pending.length := by
  by_cases hnone : q.writer = none
  · exact Nat.le_of_eq (by rw [flush_of_no_writer s hnone])
  · obtain ⟨w, hw⟩ := Option.ne_none_iff_exists'.1 hnone
    exact (flushes_of_flush s hw).length_le rfl

theorem length_connecting_le (q : SendQueue) :
    q.connecting.2.pending.length ≤ q.pending.length := by
  unfold connecting
  split
  · exact Nat.le_refl _
  · split
    · exact List.length_tail ▸ Nat.sub_le ..
    · exact Nat.le_refl _

/-! ## Soundness -/

/-- What every operation keeps. -/
structure Sound (q : SendQueue) : Prop where
  worded : q.Worded
  headKept : q.HeadKept
  writer_iff : q.writer.isSome = true ↔ q.state = .connected
  length_le : ∀ limit, q.limit = some limit → q.pending.length ≤ limit

namespace Sound

theorem ofLimit (limit : Option Nat) : (SendQueue.ofLimit limit).Sound where
  worded := List.not_mem_nil
  headKept _ := rfl
  writer_iff := by simp [SendQueue.ofLimit]
  length_le _ _ := Nat.zero_le _

theorem bind (h : q.Sound) (token : Nat) : (q.bind token).Sound := { h with }

theorem connecting (h : q.Sound) : q.connecting.2.Sound where
  worded := worded_connecting h.worded
  headKept := h.headKept.connecting
  writer_iff := by
    unfold SendQueue.connecting
    split
    · exact h.writer_iff
    · split <;> simp [SendQueue.discardHead, SendQueue.dropHead]
  length_le limit hlimit :=
    Nat.le_trans (length_connecting_le q)
      (h.length_le limit ((Continues.connecting q).limit_eq ▸ hlimit))

theorem connected (h : q.Sound) (w : Nat) : (q.connected w).Sound :=
  { h with writer_iff := by simp [SendQueue.connected] }

theorem close (q : SendQueue) : q.close.2.Sound where
  worded := List.not_mem_nil
  headKept _ := rfl
  writer_iff := by simp [SendQueue.close]
  length_le _ _ := Nat.zero_le _

variable [LawfulMedium σ]

theorem push (h : q.Sound) (s : σ) (message : Bytes) : (q.push s message).2.1.Sound where
  worded := worded_push h.worded s message
  headKept := h.headKept.pushes (pushes q s message)
  writer_iff := by
    obtain ⟨_, _, hq⟩ := (pushes q s message).keeps
    rw [hq]
    exact h.writer_iff
  length_le limit hlimit := by
    have hsame : q.limit = some limit := (Continues.push q s message).limit_eq ▸ hlimit
    exact (pushes q s message).length_le hsame (h.length_le limit hsame)

theorem flush (h : q.Sound) (s : σ) : (q.flush s).2.1.Sound where
  worded := worded_flush h.worded s
  headKept := h.headKept.flush s
  writer_iff := by
    obtain ⟨_, _, _, hq⟩ := flush_keeps q s
    rw [hq]
    exact h.writer_iff
  length_le limit hlimit :=
    Nat.le_trans (length_flush_le q s) (h.length_le limit ((Continues.flush q s).limit_eq ▸ hlimit))

end Sound

/-! ## What the operations answer -/

/-- A flush that succeeds is done just if nothing waits after it. -/
theorem Flushes.drained_iff {w : Nat} {waiting : List Bytes} {outcome : Flushed}
    {result : Except FlushFailure Flushed × SendQueue × σ} (hpending : q.pending = waiting)
    (hf : Flushes w waiting q s result) (hok : result.1 = .ok outcome) :
    outcome = .drained ↔ result.2.1.pending = [] := by
  induction hf with
  | drained =>
      cases hok
      exact iff_of_true rfl hpending
  | nothing _ | blocked _ _ =>
      cases hok
      exact iff_of_false Flushed.noConfusion fun hnil =>
        List.cons_ne_nil _ _ (hpending.symm.trans hnil)
  | whole _ _ _ ih => exact ih (congrArg List.tail hpending) hok
  | part _ _ _ =>
      cases hok
      exact iff_of_false Flushed.noConfusion (List.cons_ne_nil _ _)
  | torn _ _ _ | kept _ _ _ => cases hok

theorem flush_drained_iff {outcome : Flushed} (hok : (q.flush s).1 = .ok outcome) :
    outcome = .drained ↔ (q.flush s).2.1.pending = [] := by
  by_cases hnone : q.writer = none
  · rw [flush_of_no_writer s hnone] at hok ⊢
    obtain rfl := Except.ok.inj hok
    rcases hpending : q.pending with _ | ⟨head, others⟩ <;> simp [hasPending, hpending]
  · obtain ⟨w, hw⟩ := Option.ne_none_iff_exists'.1 hnone
    exact (flushes_of_flush s hw).drained_iff rfl hok

theorem Pushes.of_error {message : Bytes} {e : SendError}
    {result : Except SendError Pushed × SendQueue × σ} (h : Pushes q s message result)
    (he : result.1 = .error e) : result.2 = (q, s) := by
  cases h with
  | refused _ => rfl
  | empty _ _ | queued _ _ _ | whole _ _ _ _ _ _ | part _ _ _ _ _ _ _ | failed _ _ _ _ _ _ =>
      cases he

end SendQueue

/-! ## Whole runs -/

/-- The token that an action binds. -/
def QueueAction.token? {σ : Type} : QueueAction σ → Option Nat
  | .bind token => some token
  | _ => none

instance {σ : Type} [Medium σ] [LawfulMedium σ] : LawfulMedium (CallLog σ) where
  accepted_le l w bytes n h := LawfulMedium.accepted_le l.medium w bytes n h

namespace QueueRun

variable {σ : Type} [Medium σ] {r : QueueRun σ}

theorem continues_perform (r : QueueRun σ) (a : QueueAction σ) :
    r.queue.Continues (r.perform (fun q l message => (q.push l message).2) a).queue a.token? := by
  cases a with
  | push message => exact .push r.queue r.log message
  | flush => exact .flush r.queue r.log
  | connecting => exact .connecting r.queue
  | bind token => exact .bind r.queue token
  | connected | close | outside _ => exact { SendQueue.Continues.refl r.queue with }

theorem continues_direct (r : QueueRun σ) (actions : List (QueueAction σ)) :
    r.queue.Continues (r.direct actions).queue (actions.findSome? QueueAction.token?) := by
  induction actions generalizing r with
  | nil => exact .refl r.queue
  | cons a later ih =>
      have h := (continues_perform r a).trans (ih _)
      rw [List.findSome?_cons]
      rcases ha : a.token? with _ | token
      · rw [ha, Option.none_or] at h
        exact h
      · rw [ha, Option.some_or] at h
        exact h

variable [LawfulMedium σ]

theorem sound_perform (h : r.queue.Sound) (a : QueueAction σ) :
    (r.perform (fun q l message => (q.push l message).2) a).queue.Sound := by
  cases a with
  | push message => exact h.push r.log message
  | flush => exact h.flush r.log
  | connecting => exact h.connecting
  | connected => exact h.connected r.attached
  | close => exact .close r.queue
  | bind token => exact h.bind token
  | outside _ => exact h

theorem sound_direct (h : r.queue.Sound) (actions : List (QueueAction σ)) :
    (r.direct actions).queue.Sound := by
  induction actions generalizing r with
  | nil => exact h
  | cons a later ih => exact ih (sound_perform h a)

/--
**The books of a queue.** Whatever is done to a queue in whatever order, at every point it is sound,
has the limit it was given and the token bound first, and has given up no fewer messages than
before. The next flush that succeeds is answered by whether anything waits after it, and the next
message that is refused leaves the queue as it was and makes no call.
-/
theorem keeps_books (limit : Option Nat) (s : σ) (past later : List (QueueAction σ)) :
    let before := (start limit s).direct past
    let now := before.direct later
    now.queue.Sound ∧ now.queue.limit = limit ∧
      now.queue.token = (past ++ later).findSome? QueueAction.token? ∧
      (∀ token, before.queue.token = some token → now.queue.token = some token) ∧
      before.queue.discarded ≤ now.queue.discarded ∧
      (∀ outcome, (now.queue.flush now.log).1 = .ok outcome →
        (outcome = .drained ↔ (now.queue.flush now.log).2.1.pending = [])) ∧
      ∀ message e, (now.queue.push now.log message).1 = .error e →
        (now.queue.push now.log message).2 = (now.queue, now.log) := by
  have hstart := (start limit s).continues_direct past
  have hnow := ((start limit s).direct past).continues_direct later
  have htoken : ((start limit s).direct past).queue.token = past.findSome? QueueAction.token? :=
    hstart.token_eq
  refine ⟨sound_direct (sound_direct (.ofLimit limit) past) later,
    hnow.limit_eq.trans hstart.limit_eq, ?_, ?_, hnow.discarded_le, ?_, ?_⟩
  · rw [hnow.token_eq, htoken, List.findSome?_append]
  · intro token hbound
    rw [hnow.token_eq, hbound, Option.some_or]
  · exact fun _ => SendQueue.flush_drained_iff
  · exact fun message _ => (SendQueue.pushes _ _ message).of_error

/-- A message partly out is given up, the queue is opened again after it was closed, and the third
message to wait is one too many. -/
theorem keeps_books_of_reopened :
    let s : WriterTable := { writers := [{ script := [.accept (some 1), .fail .brokenPipe] }, {}] }
    let before := (start (some 2) s).direct
      [.bind 3, .connected, .push [65, 66], .flush, .bind 4, .close, .connected]
    let now := before.direct [.push [67], .push [68, 69], .push [70], .connecting, .flush]
    (before.queue.discarded = 1 ∧ now.queue.refusal = some (.queueFull 2)) ∧
      now.queue.Sound ∧ now.queue.limit = some 2 ∧
      now.queue.token = some 3 ∧
      (∀ token, before.queue.token = some token → now.queue.token = some token) ∧
      before.queue.discarded ≤ now.queue.discarded ∧
      (∀ outcome, (now.queue.flush now.log).1 = .ok outcome →
        (outcome = .drained ↔ (now.queue.flush now.log).2.1.pending = [])) ∧
      ∀ message e, (now.queue.push now.log message).1 = .error e →
        (now.queue.push now.log message).2 = (now.queue, now.log) :=
  ⟨by decide +kernel, keeps_books (some 2) _ _ _⟩

end QueueRun

end TextLink
