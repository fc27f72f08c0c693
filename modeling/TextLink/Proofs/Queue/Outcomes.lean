import TextLink.SendQueue

/-!
# How pushing and flushing go

A push or a flush goes one of a few ways, according to what the queue holds and what its destination
answers. They are listed once, as inductive relations, `Pushes` and `Flushes`, with a constructor
for each way and the flush that goes on after a whole message as the only recursive one. What holds
of every push or flush is then shown by cases or by induction over them, and no such proof opens the
definitions.

## Main results

* `pushes` — every push goes one of these ways.
* `flushes_flushTo`, `flushes_of_flush` — every flush does.
-/

namespace TextLink.SendQueue

variable {σ : Type} [Medium σ]

/-- How pushing `message` to `q` over `s` goes. -/
inductive Pushes (q : SendQueue) (s : σ) (message : Bytes) :
    Except SendError Pushed × SendQueue × σ → Prop where
  | refused {e : SendError} (h : q.refusal = some e) : Pushes q s message (.error e, q, s)
  | empty (hq : q.refusal = none) (hm : message = []) : Pushes q s message (.ok .written, q, s)
  /-- No writer may be used now. -/
  | queued (hq : q.refusal = none) (hm : message ≠ [])
      (hidle : q.writer = none ∨ q.state ≠ .connected ∨ q.pending ≠ []) :
      Pushes q s message
        (.ok (.queued (q.state == .connected && q.pending.isEmpty)), q.enqueue message, s)
  | whole {w : Nat} {s' : σ} (hq : q.refusal = none) (hm : message ≠ []) (hw : q.writer = some w)
      (hstate : q.state = .connected) (hnone : q.pending = [])
      (h : Medium.writeOnce s w message = (.ok message.length, s')) :
      Pushes q s message (.ok .written, q, s')
  | part {w n : Nat} {s' : σ} (hq : q.refusal = none) (hm : message ≠ []) (hw : q.writer = some w)
      (hstate : q.state = .connected) (hnone : q.pending = [])
      (h : Medium.writeOnce s w message = (.ok n, s')) (hn : n ≠ message.length) :
      Pushes q s message
        (.ok (.queued true), { q.enqueue (message.drop n) with headSent := n }, s')
  | failed {w : Nat} {e : IoError} {s' : σ} (hq : q.refusal = none) (hm : message ≠ [])
      (hw : q.writer = some w) (hstate : q.state = .connected) (hnone : q.pending = [])
      (h : Medium.writeOnce s w message = (.error e, s')) :
      Pushes q s message (.ok (.queued true), q.enqueue message, s')

/-- How flushing the messages `waiting` of `q` to `w` over `s` goes. -/
inductive Flushes (w : Nat) :
    List Bytes → SendQueue → σ → Except FlushFailure Flushed × SendQueue × σ → Prop where
  | drained {q : SendQueue} {s : σ} : Flushes w [] q s (.ok .drained, q, s)
  | nothing {head : Bytes} {others : List Bytes} {q : SendQueue} {s s' : σ}
      (h : Medium.writeOnce s w head = (.ok 0, s')) :
      Flushes w (head :: others) q s (.ok .blocked, q, s')
  | whole {head : Bytes} {others : List Bytes} {q : SendQueue} {s s' : σ}
      {result : Except FlushFailure Flushed × SendQueue × σ} (hpos : head.length ≠ 0)
      (h : Medium.writeOnce s w head = (.ok head.length, s'))
      (hrest : Flushes w others q.dropHead s' result) : Flushes w (head :: others) q s result
  | part {head : Bytes} {others : List Bytes} {q : SendQueue} {s s' : σ} {n : Nat}
      (hpos : n ≠ 0) (hn : n ≠ head.length) (h : Medium.writeOnce s w head = (.ok n, s')) :
      Flushes w (head :: others) q s
        (.ok .blocked, { q with pending := head.drop n :: others, headSent := q.headSent + n }, s')
  | blocked {head : Bytes} {others : List Bytes} {q : SendQueue} {s s' : σ} {e : IoError}
      (hk : e.kind = .wouldBlock) (h : Medium.writeOnce s w head = (.error e, s')) :
      Flushes w (head :: others) q s (.ok .blocked, q, s')
  | torn {head : Bytes} {others : List Bytes} {q : SendQueue} {s s' : σ} {e : IoError}
      (hk : e.kind ≠ .wouldBlock) (hsent : 0 < q.headSent)
      (h : Medium.writeOnce s w head = (.error e, s')) :
      Flushes w (head :: others) q s
        (.error ⟨e, some ⟨q.headSent, head.length⟩⟩, q.discardHead, s')
  | kept {head : Bytes} {others : List Bytes} {q : SendQueue} {s s' : σ} {e : IoError}
      (hk : e.kind ≠ .wouldBlock) (hsent : q.headSent = 0)
      (h : Medium.writeOnce s w head = (.error e, s')) :
      Flushes w (head :: others) q s (.error ⟨e, none⟩, q, s')

theorem pushes (q : SendQueue) (s : σ) (message : Bytes) :
    Pushes q s message (q.push s message) := by
  unfold push
  split
  · next e he => exact .refused he
  · next hq =>
    by_cases hempty : message.isEmpty
    · simp only [if_pos hempty]
      exact .empty hq (List.isEmpty_iff.1 hempty)
    · have hm : message ≠ [] := fun hnil => hempty (hnil ▸ rfl)
      simp only [if_neg hempty]
      split
      · next hidle =>
        refine .queued hq hm ?_
        rcases hw : q.writer with _ | w
        · exact .inl rfl
        · rw [hw, Option.filter_some] at hidle
          simpa [Decidable.or_iff_not_imp_left] using hidle
      · next w hidle =>
        have ⟨hw, hidle⟩ := Option.filter_eq_some_iff.1 hidle
        have hidle' := hidle
        rw [Bool.and_eq_true, beq_iff_eq, List.isEmpty_iff] at hidle'
        rcases hwrite : Medium.writeOnce s w message with ⟨answer, s'⟩
        cases answer with
        | ok n =>
            by_cases hn : n = message.length
            · simp only [if_pos hn]
              exact .whole hq hm hw hidle'.1 hidle'.2 (hn ▸ hwrite)
            · simp only [if_neg hn, hidle]
              exact .part hq hm hw hidle'.1 hidle'.2 hwrite hn
        | error e =>
            simp only [hidle]
            exact .failed hq hm hw hidle'.1 hidle'.2 hwrite

theorem flushes_flushTo (w : Nat) (waiting : List Bytes) (q : SendQueue) (s : σ) :
    Flushes w waiting q s (q.flushTo w waiting s) := by
  induction waiting generalizing q s with
  | nil => exact .drained
  | cons head others ih =>
      rcases hwrite : Medium.writeOnce s w head with ⟨answer, s'⟩
      rw [flushTo, hwrite]
      cases answer with
      | ok n =>
          by_cases hn : n = 0
          · simp only [if_pos hn]
            exact .nothing (hn ▸ hwrite)
          · by_cases hall : n = head.length
            · simp only [if_neg hn, if_pos hall]
              exact .whole (hall ▸ hn) (hall ▸ hwrite) (ih q.dropHead s')
            · simp only [if_neg hn, if_neg hall]
              exact .part hn hall hwrite
      | error e =>
          by_cases hk : e.kind = .wouldBlock
          · simp only [if_pos hk]
            exact .blocked hk hwrite
          · by_cases hsent : 0 < q.headSent
            · simp only [if_neg hk, if_pos hsent]
              exact .torn hk hsent hwrite
            · simp only [if_neg hk, if_neg hsent]
              exact .kept hk (Nat.eq_zero_of_not_pos hsent) hwrite

theorem flushes_of_flush {q : SendQueue} {w : Nat} (s : σ) (hw : q.writer = some w) :
    Flushes w q.pending q s (q.flush s) := by
  rw [flush, hw]
  exact flushes_flushTo w q.pending q s

/-- Flushing changes what waits, and how much was given up. -/
theorem Flushes.keeps {w : Nat} {waiting : List Bytes} {q : SendQueue} {s : σ}
    {result : Except FlushFailure Flushed × SendQueue × σ} (h : Flushes w waiting q s result) :
    ∃ pending headSent discarded,
      result.2.1 = { q with pending := pending, headSent := headSent, discarded := discarded } := by
  induction h with
  | drained | nothing _ | part _ _ _ | blocked _ _ | torn _ _ _ | kept _ _ _ =>
      exact ⟨_, _, _, rfl⟩
  | whole _ _ _ ih =>
      have ⟨pending, headSent, discarded, hq⟩ := ih
      exact ⟨pending, headSent, discarded, hq⟩

theorem flush_keeps (q : SendQueue) (s : σ) :
    ∃ pending headSent discarded,
      (q.flush s).2.1 =
        { q with pending := pending, headSent := headSent, discarded := discarded } := by
  by_cases hnone : q.writer = none
  · rw [flush_of_no_writer s hnone]
    exact ⟨_, _, _, rfl⟩
  · have ⟨w, hw⟩ := Option.ne_none_iff_exists'.1 hnone
    exact (flushes_of_flush s hw).keeps

/-- Pushing changes what waits. -/
theorem Pushes.keeps {q : SendQueue} {s : σ} {message : Bytes}
    {result : Except SendError Pushed × SendQueue × σ} (h : Pushes q s message result) :
    ∃ pending headSent, result.2.1 = { q with pending := pending, headSent := headSent } := by
  cases h <;> exact ⟨_, _, rfl⟩

/-- A queue with no message is drained by flushing it, and the wire is left alone. -/
theorem Flushes.of_nil {w : Nat} {q : SendQueue} {s : σ}
    {result : Except FlushFailure Flushed × SendQueue × σ} (h : Flushes w [] q s result) :
    result = (.ok .drained, q, s) := by
  cases h
  rfl

/-- On an established connection, the first message that comes to wait is told. -/
theorem Pushes.edge {q : SendQueue} {s : σ} {message : Bytes}
    {result : Except SendError Pushed × SendQueue × σ} (h : Pushes q s message result) :
    result.1 = .ok (.queued true) ∨
      (q.state = .connected → result.2.1.hasPending = true → q.hasPending = true) := by
  cases h with
  | refused _ | empty _ _ | whole _ _ _ _ _ _ => exact .inr fun _ => id
  | part _ _ _ _ _ _ _ | failed _ _ _ _ _ _ => exact .inl rfl
  | queued _ _ _ =>
      by_cases hstate : q.state = .connected
      · rcases hpending : q.pending with _ | ⟨head, others⟩
        · refine .inl ?_
          simp only [hstate]
          rfl
        · refine .inr fun _ _ => ?_
          rw [hasPending, hpending]
          rfl
      · exact .inr fun h => absurd h hstate

/-- Flushing leaves no message where there was none. -/
theorem hasPending_flush {q : SendQueue} (s : σ) (h : (q.flush s).2.1.hasPending = true) :
    q.hasPending = true := by
  by_cases hnone : q.writer = none
  · rw [flush_of_no_writer s hnone] at h
    exact h
  · have ⟨w, hw⟩ := Option.ne_none_iff_exists'.1 hnone
    rcases hpending : q.pending with _ | ⟨head, others⟩
    · have hflush := flushes_of_flush s hw
      rw [hpending] at hflush
      rw [hflush.of_nil] at h
      exact h
    · rw [hasPending, hpending]
      rfl

end TextLink.SendQueue
