import TextLink.Proofs.Connection.Confined
import TextLink.Proofs.Queue.Recorder

/-!
# What the holder of one socket sees

A call on a socket is answered by what the kernel has of that socket: its state, its registration
and the clock. So two kernels that have the same of one socket answer every call on it alike, and
have the same of it again afterwards, whatever else they hold (`Alike`). The exception are scripted
verdicts, which calls on all sockets use up in turn; the kernels compared have none left.

What one holder does shows on the other sockets in nothing that a holder of those sees
(`Confined.alike`), as long as no two of them have the same descriptor.

## Main results

* `Alike.send`, `Alike.receive`, `Alike.register`, … — the same answer, and alike again.
* `Confined.alike` — calls on another socket are not noticed.
-/

namespace TextLink

/-- The same answer, and afterwards states in the relation `R`. -/
structure Agree {α σ : Type} (R : σ → σ → Prop) (r r' : α × σ) : Prop where
  answer_eq : r'.1 = r.1
  after : R r.2 r'.2

theorem Agree.exists_eq {α σ : Type} {R : σ → σ → Prop} {r r' : α × σ} (h : Agree R r r') :
    ∃ a s s', r = (a, s) ∧ r' = (a, s') ∧ R s s' :=
  ⟨r.1, r.2, r'.2, rfl, Prod.ext h.answer_eq rfl, h.after⟩

theorem Agree.exists_of_eq {α σ : Type} {R : σ → σ → Prop} {r r' : α × σ} (h : Agree R r r') {a : α}
    {s : σ} (hr : r = (a, s)) : ∃ s', r' = (a, s') ∧ R s s' := by
  subst hr
  exact ⟨r'.2, Prod.ext h.answer_eq rfl, h.after⟩

/-! ## Queues over media in a relation -/

section

variable {σ : Type} [Medium σ] {R : σ → σ → Prop} {w : Nat}

theorem Medium.agree_writeOnce
    (hwrite : ∀ s s' bytes, R s s' → Agree R (write s w bytes) (write s' w bytes)) {s s' : σ}
    (h : R s s') (bytes : Bytes) : Agree R (writeOnce s w bytes) (writeOnce s' w bytes) := by
  fun_induction writeOnce s w bytes generalizing s' with
  | case1 s n hn =>
      have hagree := hwrite s s' bytes h
      rw [writeOnce_of_ok (hagree.answer_eq.trans hn)]
      exact ⟨rfl, hagree.after⟩
  | case2 s e he hk ih =>
      have hagree := hwrite s s' bytes h
      rw [writeOnce_of_interrupted (hagree.answer_eq.trans he) hk]
      exact ih hagree.after
  | case3 s e he hk =>
      have hagree := hwrite s s' bytes h
      rw [writeOnce_of_error (hagree.answer_eq.trans he) hk]
      exact ⟨rfl, hagree.after⟩

namespace SendQueue

theorem agree_flushTo
    (hwrite : ∀ s s' bytes, R s s' → Agree R (Medium.write s w bytes) (Medium.write s' w bytes))
    {s s' : σ} (h : R s s') (waiting : List Bytes) (q : SendQueue) :
    Agree (Agree R) (q.flushTo w waiting s) (q.flushTo w waiting s') := by
  induction waiting generalizing q s s' with
  | nil => exact ⟨rfl, rfl, h⟩
  | cons head others ih =>
      obtain ⟨answer, s₁, s₁', hs, hs', h₁⟩ := (Medium.agree_writeOnce hwrite h head).exists_eq
      simp only [flushTo, hs, hs']
      rcases answer with e | n
      · by_cases hk : e.kind = .wouldBlock
        · simp only [if_pos hk]
          exact ⟨rfl, rfl, h₁⟩
        · by_cases hsent : 0 < q.headSent
          · simp only [if_neg hk, if_pos hsent]
            exact ⟨rfl, rfl, h₁⟩
          · simp only [if_neg hk, if_neg hsent]
            exact ⟨rfl, rfl, h₁⟩
      · by_cases hn : n = 0
        · simp only [if_pos hn]
          exact ⟨rfl, rfl, h₁⟩
        · by_cases hall : n = head.length
          · simp only [if_neg hn, if_pos hall]
            exact ih h₁ q.dropHead
          · simp only [if_neg hn, if_neg hall]
            exact ⟨rfl, rfl, h₁⟩

/-- Flushing a queue over media that the destination it writes to cannot tell apart. -/
theorem agree_flush (q : SendQueue)
    (hwrite : ∀ w, q.writer = some w → ∀ s s' bytes, R s s' →
      Agree R (Medium.write s w bytes) (Medium.write s' w bytes))
    {s s' : σ} (h : R s s') : Agree (Agree R) (q.flush s) (q.flush s') := by
  unfold flush
  rcases hw : q.writer with _ | w
  · exact ⟨rfl, rfl, h⟩
  · exact agree_flushTo (hwrite w hw) h q.pending q

end SendQueue

end

/-! ## Calls on one socket -/

namespace Socket

theorem descriptor_send (sock : Socket) (bytes : Bytes) :
    (sock.send bytes).2.descriptor = sock.descriptor := by
  unfold Socket.send
  repeat' split
  all_goals rfl

theorem descriptor_receive (sock : Socket) (size : Nat) :
    (sock.receive size).2.descriptor = sock.descriptor := by
  unfold Socket.receive
  repeat' split
  all_goals rfl

end Socket

namespace Kernel

variable {k k' k'' : Kernel} {s : SocketId} {o o' : Option SocketId} {sock sock' : Socket}

/-- The calls made on socket `s`. -/
def callsOn (k : Kernel) (s : SocketId) : List Call :=
  k.calls.toList.filter fun c => c.socket? == some s

theorem callsOn_record (k : Kernel) (s : SocketId) (c : Call) :
    (k.record c).callsOn s = k.callsOn s ++ [c].filter fun c => c.socket? == some s := by
  rw [callsOn, record, Array.toList_push, List.filter_append]
  rfl

/-- Two kernels with no verdicts left have the same of socket `o`, if there is one. -/
structure Alike (o : Option SocketId) (k k' : Kernel) : Prop where
  quiet : k.verdicts = []
  quiet' : k'.verdicts = []
  clock_eq : k'.clock = k.clock
  closeUnregisters_eq : k'.closeUnregisters = k.closeUnregisters
  socket_eq : ∀ s, o = some s → k'.sockets[s]? = k.sockets[s]?
  watches_eq : ∀ s, o = some s → k'.watches (k'.descriptor s) = k.watches (k.descriptor s)
  calls_eq : ∀ s, o = some s → k'.callsOn s = k.callsOn s

namespace Alike

theorem refl (hk : k.verdicts = []) : Alike o k k :=
  ⟨hk, hk, rfl, rfl, fun _ _ => rfl, fun _ _ => rfl, fun _ _ => rfl⟩

theorem symm (h : Alike o k k') : Alike o k' k where
  quiet := h.quiet'
  quiet' := h.quiet
  clock_eq := h.clock_eq.symm
  closeUnregisters_eq := h.closeUnregisters_eq.symm
  socket_eq s hs := (h.socket_eq s hs).symm
  watches_eq s hs := (h.watches_eq s hs).symm
  calls_eq s hs := (h.calls_eq s hs).symm

theorem trans (h : Alike o k k') (h' : Alike o k' k'') : Alike o k k'' where
  quiet := h.quiet
  quiet' := h'.quiet'
  clock_eq := h'.clock_eq.trans h.clock_eq
  closeUnregisters_eq := h'.closeUnregisters_eq.trans h.closeUnregisters_eq
  socket_eq s hs := (h'.socket_eq s hs).trans (h.socket_eq s hs)
  watches_eq s hs := (h'.watches_eq s hs).trans (h.watches_eq s hs)
  calls_eq s hs := (h'.calls_eq s hs).trans (h.calls_eq s hs)

theorem record (h : Alike o k k') (c : Call) : Alike o (k.record c) (k'.record c) :=
  { h with
    calls_eq := fun s hs => by rw [callsOn_record, callsOn_record, h.calls_eq s hs] }

/-- The socket becomes the same in both, and keeps its descriptor. -/
theorem withSockets (h : Alike o k k') {ss ss' : List Socket}
    (hsockets : ∀ s, o = some s → ss'[s]? = ss[s]?)
    (hd : ∀ s, o = some s → ss[s]?.map (·.descriptor) = k.sockets[s]?.map (·.descriptor)) :
    Alike o { k with sockets := ss } { k' with sockets := ss' } := by
  refine { h with socket_eq := hsockets, watches_eq := fun s hs => ?_ }
  have hk : descriptor { k with sockets := ss } s = k.descriptor s :=
    congrArg (·.getD 0) (hd s hs)
  have hk' : descriptor { k' with sockets := ss' } s = k'.descriptor s := by
    rw [descriptor, descriptor, hsockets s hs, hd s hs, h.socket_eq s hs]
  rw [hk, hk']
  exact h.watches_eq s hs

theorem set (h : Alike o k k') (hsock : k.sockets[s]? = some sock) (ho : o = some s)
    (hd : sock'.descriptor = sock.descriptor) :
    Alike o { k with sockets := k.sockets.set s sock' }
      { k' with sockets := k'.sockets.set s sock' } := by
  have hlt := lt_length_of_getElem?_eq_some hsock
  have hlt' := lt_length_of_getElem?_eq_some ((h.socket_eq s ho).trans hsock)
  refine h.withSockets (fun s' hs' => ?_) fun s' hs' => ?_
  · obtain rfl := Option.some.inj (ho.symm.trans hs')
    rw [List.getElem?_set_self hlt, List.getElem?_set_self hlt']
  · obtain rfl := Option.some.inj (ho.symm.trans hs')
    rw [List.getElem?_set_self hlt, hsock, Option.map_some, Option.map_some, hd]

theorem updateSocket (h : Alike o k k') (ho : o = some s) {f : Socket → Socket}
    (hf : ∀ sock, (f sock).descriptor = sock.descriptor) :
    Alike o (k.updateSocket s f) (k'.updateSocket s f) := by
  refine h.withSockets (fun s' hs' => ?_) fun s' hs' => ?_
  · obtain rfl := Option.some.inj (ho.symm.trans hs')
    rw [List.getElem?_modify_eq, List.getElem?_modify_eq, h.socket_eq s hs']
  · obtain rfl := Option.some.inj (ho.symm.trans hs')
    rw [List.getElem?_modify_eq, Option.map_eq_map, Option.map_map]
    exact congrArg (k.sockets[s]?.map ·) (funext hf)

theorem send (h : Alike o k k') (ho : o = some s) (bytes : Bytes) :
    Agree (Alike o) (k.send s bytes) (k'.send s bytes) := by
  unfold Kernel.send
  rw [h.socket_eq s ho]
  rcases hsock : k.sockets[s]? with _ | sock
  · exact ⟨rfl, h⟩
  · exact ⟨rfl, (h.set hsock ho (sock.descriptor_send bytes)).record _⟩

theorem write (h : Alike o k k') (ho : o = some s) (bytes : Bytes) :
    Agree (Alike o) (Medium.write k s bytes) (Medium.write k' s bytes) :=
  have hsend := h.send ho bytes
  ⟨congrArg (Except.mapError IoError.os) hsend.answer_eq, hsend.after⟩

theorem receive (h : Alike o k k') (ho : o = some s) (size : Nat) :
    Agree (Alike o) (k.receive s size) (k'.receive s size) := by
  unfold Kernel.receive
  rw [h.socket_eq s ho]
  rcases hsock : k.sockets[s]? with _ | sock
  · exact ⟨rfl, h⟩
  · exact ⟨rfl, (h.set hsock ho (sock.descriptor_receive size)).record _⟩

end Alike

theorem takeError_of_quiet (hk : k.verdicts = []) (s : SocketId) :
    k.takeError s =
      (.ok (k.sockets[s]?.bind (·.error)),
        (k.updateSocket s fun sock => { sock with error := none }).record
          (.takeError s (.ok (((k.sockets[s]?.bind (·.error)).map Verdict.fails).getD .ok)))) := by
  unfold takeError takeVerdict
  rw [hk, splitVerdict]
  simp only
  rw [show ({ k with verdicts := [] } : Kernel) = k by rw [← hk]]
  rcases k.sockets[s]?.bind (·.error) with _ | e <;> rfl

theorem Alike.takeError (h : Alike o k k') (ho : o = some s) :
    Agree (Alike o) (k.takeError s) (k'.takeError s) := by
  rw [takeError_of_quiet h.quiet, takeError_of_quiet h.quiet', h.socket_eq s ho]
  have hcleared := h.updateSocket (f := fun sock => { sock with error := none }) ho fun _ => rfl
  exact ⟨rfl, hcleared.record _⟩

/-! ### Registrations -/

theorem register_of_quiet (hk : k.verdicts = []) (s : SocketId) (token : Nat)
    (interest : Interest) :
    k.register s token interest =
      if k.watches (k.descriptor s) = [] then
        (.ok, k.registered [] (k.registrations ++ [⟨k.descriptor s, token, interest⟩])
          (.register s token interest .ok))
      else (.fails .alreadyExists, k.registered [] k.registrations
        (.register s token interest (.fails .alreadyExists))) := by
  unfold register takeVerdict
  rw [hk, splitVerdict]
  simp only [isRegistered_verdicts, true_and]
  by_cases hnone : k.watches (k.descriptor s) = []
  · rw [if_pos hnone, not_isRegistered_iff.2 hnone]
    rfl
  · rw [if_neg hnone, isRegistered_iff.2 hnone]
    rfl

theorem reregister_of_quiet (hk : k.verdicts = []) (s : SocketId) (token : Nat)
    (interest : Interest) :
    k.reregister s token interest =
      if k.watches (k.descriptor s) = [] then
        (.fails .noEntry, k.registered [] k.registrations
          (.reregister s token interest (.fails .noEntry)))
      else
        (.ok, k.registered [] (k.registrations.map fun r =>
            if r.descriptor = k.descriptor s then { r with token, interest } else r)
          (.reregister s token interest .ok)) := by
  unfold reregister takeVerdict
  rw [hk, splitVerdict]
  simp only [isRegistered_verdicts, true_and]
  by_cases hnone : k.watches (k.descriptor s) = []
  · rw [if_pos hnone, not_isRegistered_iff.2 hnone]
    rfl
  · rw [if_neg hnone, isRegistered_iff.2 hnone]
    rfl

theorem deregister_of_quiet (hk : k.verdicts = []) (s : SocketId) :
    k.deregister s =
      if k.watches (k.descriptor s) = [] then
        (.fails .noEntry, k.registered [] k.registrations (.deregister s (.fails .noEntry)))
      else
        (.ok, k.registered [] (k.registrationsBut (k.descriptor s)) (.deregister s .ok)) := by
  unfold deregister takeVerdict
  rw [hk, splitVerdict]
  simp only [isRegistered_verdicts, true_and]
  by_cases hnone : k.watches (k.descriptor s) = []
  · rw [if_pos hnone, not_isRegistered_iff.2 hnone]
    rfl
  · rw [if_neg hnone, isRegistered_iff.2 hnone]
    rfl

namespace Alike

theorem registered (h : Alike o k k') {rs rs' : List Registration} (c : Call)
    (hrs : ∀ s, o = some s → (rs'.filter fun r => r.descriptor == k'.descriptor s) =
      rs.filter fun r => r.descriptor == k.descriptor s) :
    Alike o (k.registered [] rs c) (k'.registered [] rs' c) :=
  have hrecord := h.record c
  { hrecord with quiet := rfl, quiet' := rfl, watches_eq := hrs }

theorem descriptor_eq (h : Alike o k k') (ho : o = some s) : k'.descriptor s = k.descriptor s :=
  descriptor_congr (h.socket_eq s ho)

theorem register (h : Alike o k k') (ho : o = some s) (token : Nat) (interest : Interest) :
    Agree (Alike o) (k.register s token interest) (k'.register s token interest) := by
  rw [register_of_quiet h.quiet, register_of_quiet h.quiet', h.watches_eq s ho]
  by_cases hnone : k.watches (k.descriptor s) = []
  · rw [if_pos hnone, if_pos hnone]
    refine ⟨rfl, h.registered _ fun s' hs' => ?_⟩
    obtain rfl := Option.some.inj (ho.symm.trans hs')
    rw [filter_append_single, filter_append_single, h.descriptor_eq ho]
    exact congrArg (· ++ _) (h.descriptor_eq ho ▸ h.watches_eq s ho)
  · rw [if_neg hnone, if_neg hnone]
    exact ⟨rfl, h.registered _ h.watches_eq⟩

theorem reregister (h : Alike o k k') (ho : o = some s) (token : Nat) (interest : Interest) :
    Agree (Alike o) (k.reregister s token interest) (k'.reregister s token interest) := by
  rw [reregister_of_quiet h.quiet, reregister_of_quiet h.quiet', h.watches_eq s ho]
  by_cases hnone : k.watches (k.descriptor s) = []
  · rw [if_pos hnone, if_pos hnone]
    exact ⟨rfl, h.registered _ h.watches_eq⟩
  · rw [if_neg hnone, if_neg hnone]
    refine ⟨rfl, h.registered _ fun s' hs' => ?_⟩
    obtain rfl := Option.some.inj (ho.symm.trans hs')
    rw [filter_map_replace, filter_map_replace, h.descriptor_eq ho]
    exact congrArg (List.map _) (h.descriptor_eq ho ▸ h.watches_eq s ho)

theorem deregister (h : Alike o k k') (ho : o = some s) :
    Agree (Alike o) (k.deregister s) (k'.deregister s) := by
  rw [deregister_of_quiet h.quiet, deregister_of_quiet h.quiet', h.watches_eq s ho]
  by_cases hnone : k.watches (k.descriptor s) = []
  · rw [if_pos hnone, if_pos hnone]
    exact ⟨rfl, h.registered _ h.watches_eq⟩
  · rw [if_neg hnone, if_neg hnone]
    refine ⟨rfl, h.registered _ fun s' hs' => ?_⟩
    obtain rfl := Option.some.inj (ho.symm.trans hs')
    rw [watches_registrationsBut, watches_registrationsBut, if_pos rfl, if_pos rfl]

end Alike

theorem watches_close_self (hs : k.Open s) :
    (k.close s).watches ((k.close s).descriptor s) =
      if k.closeUnregisters then [] else k.watches (k.descriptor s) := by
  rw [descriptor_close_self hs, close_of_open hs, watches]
  rcases k.closeUnregisters with _ | _
  · rfl
  · exact (watches_registrationsBut k _).trans (if_pos rfl)

theorem Alike.close (h : Alike o k k') (ho : o = some s) : Alike o (k.close s) (k'.close s) := by
  have hopen : k'.Open s ↔ k.Open s := open_congr (h.socket_eq s ho)
  by_cases hs : k.Open s
  · have hclosed := h.updateSocket (f := fun sock => { sock with isOpen := false }) ho fun _ => rfl
    have hwatches := watches_close_self hs
    have hwatches' := watches_close_self (hopen.2 hs)
    rw [close_of_open hs] at hwatches ⊢
    rw [close_of_open (hopen.2 hs)] at hwatches' ⊢
    refine { hclosed with watches_eq := fun s' hs' => ?_ }
    obtain rfl := Option.some.inj (ho.symm.trans hs')
    rw [hwatches, hwatches', h.closeUnregisters_eq, h.watches_eq s ho]
  · rw [close_of_not_open hs, close_of_not_open fun hs' => hs (hopen.1 hs')]
    exact h

/-! ## Calls on other sockets -/

theorem callsOn_of_confined (h : Confined o k k') (hs : o ≠ some s) :
    k'.callsOn s = k.callsOn s := by
  obtain ⟨new, hcalls, hnew⟩ := h.calls_eq
  have hnone : (new.filter fun c => c.socket? == some s) = [] := by
    refine List.filter_eq_nil_iff.2 fun c hc hsocket => ?_
    obtain ⟨s', hs', hsocket'⟩ := hnew c hc
    exact hs (hs'.trans (hsocket'.symm.trans (eq_of_beq hsocket)))
  rw [callsOn, hcalls, List.filter_append, hnone, List.append_nil]
  rfl

/-- Whoever holds another socket, with another descriptor, notices nothing. -/
theorem Confined.alike (h : Confined o k k') (hk : k.verdicts = []) (hk' : k'.verdicts = [])
    (hapart : ∀ s s', o = some s → o' = some s' → s ≠ s' ∧ k.descriptor s ≠ k.descriptor s') :
    Alike o' k k' where
  quiet := hk
  quiet' := hk'
  clock_eq := h.clock_eq
  closeUnregisters_eq := h.closeUnregisters_eq
  socket_eq s' hs' := h.socket_eq s' fun hs => (hapart s' s' hs hs').1 rfl
  watches_eq s' hs' := by
    rw [h.descriptor_eq]
    exact h.watches_eq _ fun s hs => (hapart s s' hs hs').2
  calls_eq s' hs' := callsOn_of_confined h fun hs => (hapart s' s' hs hs').1 rfl

end Kernel

end TextLink
