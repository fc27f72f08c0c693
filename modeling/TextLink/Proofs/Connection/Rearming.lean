import TextLink.Proofs.Connection.Watching
import TextLink.Proofs.Kernel.Failures

/-!
# Serving without a failure

The registration is looked after at the end of an event, and a call that fails on the way cuts the
event short. If none does, reading comes to its end and flushing goes as far as it can, so whatever
output is left then is watched for, however the registration was before.

## Main results

* `handleEvent_attends_of_succeeds` — an event during which no call fails.
-/

namespace TextLink.Link

open Kernel (Succeeds)

variable {l l' : Link} {s : SocketId}

/-! ## Reading and writing -/

/-- Reading comes to its end, or the handler faults. -/
theorem readFrom_ne_failed (hs : l.kernel.Open s)
    (h : Succeeds l.kernel (l.readFrom s).2.kernel) (e : IoError) :
    (l.readFrom s).1 ≠ .error (.failed e) := by
  have hserves {l : Link} {answer : Except Errno Bytes} {k : Kernel}
      (hk : l.kernel.receive s l.conn.chunk = (answer, k)) : Kernel.Serves s l.kernel k :=
    Kernel.serves_of_receive hk
  fun_induction Link.readFrom l s with
  | case1 | case3 | case4 | case6 => exact fun hfailed => by cases hfailed
  | case2 l b bs k hk told ht ih =>
      have hserves := hserves hk
      have htold : told.kernel = k := kernel_of_takeIn ht
      refine ih ?_ ?_
      · exact htold ▸ (hserves.table.open_iff s).2 hs
      · exact h.after (htold ▸ hserves.calls_prefix)
  | case5 l k hk hne ih =>
      have hserves := hserves hk
      exact ih ((hserves.table.open_iff s).2 hs) (h.after hserves.calls_prefix)
  | case7 l e' k hk hne hn hd =>
      rcases Succeeds.receive hs hk h with heq | heq
      · exact absurd heq hne
      · exact absurd heq hn

theorem read_ne_failed (hl : l.Sound) (h : Succeeds l.kernel l.read.2.kernel) (e : IoError) :
    l.read.1 ≠ .error (.failed e) := by
  unfold read at h ⊢
  rcases hs : l.conn.socket with _ | s
  · exact nofun
  · simp only [hs] at h
    exact readFrom_ne_failed (hl.open_of_holds s (holds_iff.2 (.inl hs))) h e

theorem kernel_flush (l : Link) : l.flush.2.kernel = (l.queue.flush l.kernel).2.2 := by
  unfold flush
  simp only
  split <;> rfl

theorem flush_ok (hl : l.Sound) (h : Succeeds l.kernel l.flush.2.kernel) : l.flush.1 = .ok () := by
  rw [kernel_flush] at h
  have ⟨flushed, hflushed⟩ := h.flush fun w hw => hl.open_of_holds w (holds_iff.2 (.inr hw))
  unfold flush
  simp only [hflushed]

/-! ## Events -/

theorem serveWriting_attends_of_succeeds (hl : l.Sound) (hs : l.conn.socket = some s)
    (event : Event)
    (h : Succeeds l.kernel (l.serveWriting event).2.kernel) : (l.serveWriting event).2.Attends := by
  have hleads := (Leaves.refl hl).flush
  have hok := flush_ok hl
  have hconn := conn_flush l
  unfold serveWriting at h ⊢
  split at h
  · next hwritable =>
    rw [if_pos hwritable]
    generalize l.flush = r at hleads hok hconn h ⊢
    rcases r with ⟨e | _, l₁⟩
    · -- A flush that failed ends the event here, or closes the connection.
      have hclose := (Leaves.refl hleads.sound).close
      have hkernel : Succeeds l.kernel l₁.kernel := by
        simp only at h
        split at h
        · exact h.before hleads.touches.calls_prefix hclose.touches.calls_prefix
        · exact h
      cases hok hkernel
    · have hs₁ : l₁.conn.socket = some s := (congrArg Connection.socket hconn).trans hs
      exact concludeService_attends hs₁ (h.after hleads.touches.calls_prefix).heeded
  · next hnot =>
    rw [if_neg hnot]
    exact concludeService_attends hs h.heeded

theorem serve_attends_of_succeeds (hl : l.Sound) (hs : l.conn.socket = some s) (event : Event)
    (h : Succeeds l.kernel (l.serve event).2.kernel)
    (hfault : ∀ fault, (l.serve event).1 ≠ .error (.fault fault)) : (l.serve event).2.Attends := by
  have hleads := (Leaves.refl hl).read
  have hne := read_ne_failed hl
  have ⟨⟨decoder, stalled, hconn⟩, _⟩ := read_keeps l
  unfold serve at h hfault ⊢
  split at h
  · next hreadable =>
    rw [if_pos hreadable] at hfault ⊢
    generalize l.read = r at hleads hne hconn h hfault ⊢
    rcases r with ⟨(e | fault) | (_ | _), l₁⟩
    · exact absurd rfl (hne h e)
    · exact absurd rfl (hfault fault)
    · exact attends_close l₁
    · have hs₁ : l₁.conn.socket = some s := by
        rw [hconn]
        exact hs
      exact serveWriting_attends_of_succeeds hleads.sound hs₁ event
        (h.after hleads.touches.calls_prefix)
  · next hnot =>
    rw [if_neg hnot]
    exact serveWriting_attends_of_succeeds hl hs event h

/-- An event during which no call fails leaves no output that nobody watches for. -/
theorem handleEvent_attends_of_succeeds (hl : l.Sound) (hshape : Shape l.conn l.queue)
    (event : Event) (h : Succeeds l.kernel (l.handleEvent event).2.kernel)
    (hfault : ∀ fault, (l.handleEvent event).1 ≠ .error (.fault fault)) :
    (l.handleEvent event).2.Attends := by
  unfold handleEvent at h hfault ⊢
  rcases hstate : l.conn.state with _ | _ | _ | _ <;> simp only [hstate] at h hfault ⊢
  · apply attends_of_state_ne
    rw [hstate]
    decide
  · have hfinish := attends_finishConnect hstate event
    generalize l.finishConnect event = r at hfinish ⊢
    rcases r with ⟨fault | progress, l'⟩ <;> exact hfinish
  · cases hshape with
    | connected _ hs _ _ _ _ _ => exact serve_attends_of_succeeds hl hs event h hfault
    | inFlight hne _ _ _ _ _ | waiting hne _ _ _ _ _ => cases hne.symm.trans hstate
  · apply attends_of_state_ne
    rw [hstate]
    decide

end TextLink.Link
