import TextLink.Proofs.Kernel.Changes

/-!
# When no call fails

A call fails if it comes to nothing that could be waited out or tried again. A receive or a send
that would block has not failed, nor has a call that was interrupted, or a connect that goes on.
`Succeeds` says of two kernels that none failed on the way from the one to the other. It can be cut
at every kernel in between, since calls are only ever added.

## Main results

* `Succeeds.before`, `Succeeds.after` — the calls up to some point, and those from there on.
* `Succeeds.receive`, `Succeeds.flush` — what is left of the answers.
-/

namespace TextLink

/-- Whether a call failed. -/
def Call.hasFailed : Call → Bool
  | .socket _ outcome => !outcome.isOk
  | .connect _ _ verdict => verdict != .ok && !Socket.goesOn verdict
  | .takeError _ outcome => !outcome.isOk
  | .send _ _ (.error e) | .receive _ _ (.error e) => e != .tryAgain && e != .interrupted
  | .send _ _ (.ok _) | .receive _ _ (.ok _) => false
  | .register _ _ _ verdict | .reregister _ _ _ verdict | .deregister _ verdict => verdict != .ok
  | .wait _ (.error e) => e != .interrupted
  | .wait _ (.ok _) => false

namespace Kernel

variable {k k' k'' : Kernel} {s : SocketId}

/-- No call on the way from `k` to `k'` failed. -/
def Succeeds (k k' : Kernel) : Prop := ∀ c ∈ newCalls k k', c.hasFailed = false

namespace Succeeds

theorem heeded (h : Succeeds k k') : Heeded k k' := by
  intro c hc
  have hok := h c hc
  cases c with
  | register | reregister | deregister => exact hok
  | socket | connect | takeError | send | receive | wait => rfl

/-- The calls up to some point. -/
theorem before (h : Succeeds k k'') (hcalls : k.calls.toList <+: k'.calls.toList)
    (hcalls' : k'.calls.toList <+: k''.calls.toList) : Succeeds k k' := by
  intro c hc
  refine h c (List.IsPrefix.subset ?_ hc)
  have ⟨later, hlater⟩ := hcalls'
  unfold newCalls
  rw [← hlater, List.drop_append_of_le_length hcalls.length_le]
  exact List.prefix_append _ _

/-- The calls from some point on. -/
theorem after (h : Succeeds k k'') (hcalls : k.calls.toList <+: k'.calls.toList) :
    Succeeds k' k'' := by
  intro c hc
  exact h c (List.drop_subset_drop_left _ hcalls.length_le hc)

/-- The only call made did not fail. -/
theorem of_push {c : Call} (h : Succeeds k k') (hcalls : k'.calls = k.calls.push c) :
    c.hasFailed = false := by
  refine h c ?_
  rw [newCalls_of_push hcalls]
  exact List.mem_singleton_self c

/-- A receive that goes wrong can be tried again. -/
theorem receive {size : Nat} {e : Errno} (hs : k.Open s)
    (hreceive : k.receive s size = (.error e, k')) (h : Succeeds k k') :
    e = .tryAgain ∨ e = .interrupted := by
  have ⟨sock, hsock, _⟩ := hs
  unfold Kernel.receive at hreceive
  simp only [hsock, Prod.mk.injEq] at hreceive
  have ⟨houtcome, hk⟩ := hreceive
  have hok : (Call.receive s size (sock.receive size).1).hasFailed = false :=
    h.of_push (by rw [← hk]; rfl)
  rw [houtcome] at hok
  simpa [Call.hasFailed, Decidable.or_iff_not_imp_left] using hok

/-- So can a send. -/
theorem send {bytes : Bytes} {e : Errno} (hs : k.Open s)
    (hsend : k.send s bytes = (.error e, k')) (h : Succeeds k k') :
    e = .tryAgain ∨ e = .interrupted := by
  have ⟨sock, hsock, _⟩ := hs
  unfold Kernel.send at hsend
  simp only [hsock, Prod.mk.injEq] at hsend
  have ⟨houtcome, hk⟩ := hsend
  have hok : (Call.send s bytes.length (sock.send bytes).1).hasFailed = false :=
    h.of_push (by rw [← hk]; rfl)
  rw [houtcome] at hok
  simpa [Call.hasFailed, Decidable.or_iff_not_imp_left] using hok

/-- A write that goes wrong would block. -/
theorem writeOnce {bytes : Bytes} {e : IoError} (hs : k.Open s)
    (hwrite : Medium.writeOnce k s bytes = (.error e, k')) (h : Succeeds k k') :
    e.kind = .wouldBlock := by
  have hserves (k : Kernel) : Serves s k (Medium.write k s bytes).2 := serves_send k s bytes
  fun_induction Medium.writeOnce k s bytes with
  | case1 k n hn => cases hwrite
  | case2 k e' he hk ih =>
      have hlater := serves_of_writeOnce hwrite
      have hserves := hserves k
      exact ih ((hserves.table.open_iff s).2 hs) hwrite (h.after hserves.calls_prefix)
  | case3 k e' he hk =>
      cases hwrite
      have hanswer : (k.send s bytes).1.mapError IoError.os = .error e := he
      rcases hsend : k.send s bytes with ⟨errno | n, k₁⟩ <;> rw [hsend] at hanswer
      · cases hanswer
        have hk₁ : (Medium.write k s bytes).2 = k₁ := congrArg Prod.snd hsend
        rcases send hs hsend (hk₁ ▸ h) with rfl | rfl
        · rfl
        · exact absurd rfl hk
      · cases hanswer

theorem flushes {w : SocketId} {waiting : List Bytes} {q : SendQueue}
    {result : Except FlushFailure Flushed × SendQueue × Kernel} (hs : k.Open w)
    (hflush : SendQueue.Flushes w waiting q k result) (h : Succeeds k result.2.2) :
    ∃ flushed, result.1 = .ok flushed := by
  induction hflush with
  | drained | nothing _ | part _ _ _ | blocked _ _ => exact ⟨_, rfl⟩
  | whole _ hwrite hrest ih =>
      have hserves := serves_of_writeOnce hwrite
      exact ih ((hserves.table.open_iff w).2 hs) (h.after hserves.calls_prefix)
  | torn hk _ hwrite | kept hk _ hwrite => exact absurd (writeOnce hs hwrite h) hk

/-- A flush goes through, if only so far as the socket takes bytes. -/
theorem flush {q : SendQueue} (hs : ∀ w, q.writer = some w → k.Open w)
    (h : Succeeds k (q.flush k).2.2) : ∃ flushed, (q.flush k).1 = .ok flushed := by
  rcases hw : q.writer with _ | w
  · rw [SendQueue.flush_of_no_writer k hw]
    exact ⟨_, rfl⟩
  · exact flushes (hs w hw) (SendQueue.flushes_of_flush k hw) h

end Succeeds

end Kernel

end TextLink
