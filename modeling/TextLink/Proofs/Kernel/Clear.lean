import TextLink.Proofs.Kernel.Supply
import TextLink.Proofs.Queue.Outcomes

/-!
# Sockets on which nothing stands in the way

A connected socket with room for any number of bytes, to which no failure and no end is still to
come, is clear (`Socket.Clear`): it takes whatever is sent, and what has arrived can be received
without coming to an end. Over such a socket a queue goes out whole.

Reading the pending error of a socket whose connect has succeeded finds none, since errors come from
connects that failed only (`Sincere`). That is so of every socket of a kernel, whatever is called
and whatever happens.

## Main results

* `Dealings.sincere`, `Sincere.happen` — errors come from failed connects only.
* `Clear.send`, `Clear.receive`, `Clear.takeError`, `Clear.reregister` — no call fails.
* `Clear.flush` — a queue goes out whole, in its order.
-/

namespace TextLink

namespace Socket

variable {sock : Socket}

/-- Only a connect that failed has left an error. -/
def Sincere (sock : Socket) : Prop := sock.phase ≠ .failed → sock.error = none

theorem Sincere.complete (h : sock.Sincere) (v : Verdict) : (sock.complete v).Sincere := by
  unfold Socket.complete
  split
  · exact fun _ => rfl
  · exact fun hphase => absurd rfl hphase
  · exact h

/-- A connect starts without an error. -/
theorem sincere_connect (h : sock.error = none) : sock.connect.Sincere := by
  have hfirst (phase : Phase) : Sincere { sock with phase } := fun _ => h
  unfold Socket.connect
  split
  · exact hfirst .up
  · split
    · exact hfirst .pending
    · exact (hfirst .pending).complete _
  · split
    · exact hfirst .pending
    · exact (hfirst .pending).complete _
  · split
    · exact hfirst .pending
    · exact (hfirst .pending).complete _
  · exact fun _ => h

theorem Sincere.send (h : sock.Sincere) (bytes : Bytes) : (sock.send bytes).2.Sincere := by
  unfold Socket.send
  repeat' split
  all_goals exact h

theorem Sincere.receive (h : sock.Sincere) (size : Nat) : (sock.receive size).2.Sincere := by
  unfold Socket.receive
  repeat' split
  all_goals exact h

/-- The socket is connected and takes any number of bytes, and neither a failure nor the end of the
stream is among what has arrived. -/
structure Clear (sock : Socket) : Prop where
  up : sock.phase = .up
  room : sock.room = none
  sendErrors : sock.sendErrors = []
  /-- An empty piece would read as the end of the stream. -/
  incoming : ∀ a ∈ sock.incoming, ∃ b bs, a = .data (b :: bs)

namespace Clear

theorem send_eq (h : sock.Clear) (bytes : Bytes) :
    sock.send bytes = (.ok bytes.length, { sock with wire := sock.wire ++ bytes }) := by
  rcases sock with ⟨d, plan, phase, error, incoming, room, sendErrors, isOpen, wire⟩
  obtain ⟨rfl, rfl, rfl, _⟩ := h
  simp [Socket.send]

theorem readiness_eq (h : sock.Clear) :
    sock.readiness = { input := !sock.incoming.isEmpty, output := true } := by
  have hnone (f : Arrival → Bool) (hf : ∀ b bs, f (.data (b :: bs)) = false) :
      sock.incoming.any f = false := by
    rw [List.any_eq_false]
    intro a ha
    obtain ⟨b, bs, rfl⟩ := h.incoming a ha
    rw [hf]
    exact Bool.false_ne_true
  unfold readiness
  simp only [h.up, h.room]
  rw [hnone _ fun _ _ => rfl, hnone _ fun _ _ => rfl]
  rfl

/-- What is received has bytes, or nothing more has arrived. -/
theorem receive_eq (h : sock.Clear) {size : Nat} (hsize : 0 < size) :
    ∃ incoming, Clear { sock with incoming } ∧
      (sock.receive size = (.error .tryAgain, { sock with incoming }) ∨
        ∃ b bs, sock.receive size = (.ok (b :: bs), { sock with incoming })) := by
  unfold Socket.receive
  rw [if_neg (fun hne => hne h.up)]
  rcases hincoming : sock.incoming with _ | ⟨a, later⟩
  · have hsame : sock = { sock with incoming := [] } := by rw [← hincoming]
    exact ⟨[], { h with incoming := nofun }, .inl (congrArg (Prod.mk _) hsame)⟩
  · have hall := h.incoming
    rw [hincoming] at hall
    obtain ⟨b, bs, rfl⟩ := hall a List.mem_cons_self
    have hlater : ∀ a ∈ later, ∃ b bs, a = Arrival.data (b :: bs) := fun a ha =>
      hall a (List.mem_cons_of_mem _ ha)
    obtain ⟨n, rfl⟩ := Nat.exists_eq_succ_of_ne_zero (Nat.ne_of_gt hsize)
    refine ⟨if (bs.drop n).isEmpty then later else .data (bs.drop n) :: later,
      { h with incoming := fun a ha => ?_ }, .inr ⟨b, bs.take n, rfl⟩⟩
    rcases hleft : bs.drop n with _ | ⟨b', bs'⟩
    · rw [hleft] at ha
      exact hlater a ha
    · rw [hleft] at ha
      rcases List.mem_cons.1 ha with rfl | ha
      · exact ⟨b', bs', rfl⟩
      · exact hlater a ha

end Clear

end Socket

namespace Kernel

variable {k k' : Kernel} {s : SocketId} {sock : Socket} {wire : Bytes}

/-! ## Errors of sockets -/

/-- Only connects that failed have left errors. -/
def Sincere (k : Kernel) : Prop := ∀ sock ∈ k.sockets, sock.Sincere

namespace Sincere

theorem set (h : k.Sincere) (hsock : sock.Sincere) (s : SocketId) :
    Sincere { k with sockets := k.sockets.set s sock } := by
  intro other hmem
  rcases List.mem_or_eq_of_mem_set hmem with hmem | rfl
  · exact h other hmem
  · exact hsock

theorem updateSocket (h : k.Sincere) (s : SocketId) {f : Socket → Socket}
    (hf : ∀ sock : Socket, sock.Sincere → (f sock).Sincere) : (k.updateSocket s f).Sincere := by
  unfold Kernel.updateSocket
  rw [List.modify_eq_set_getElem?]
  rcases hs : k.sockets[s]? with _ | sock
  · exact h
  · exact h.set (hf sock (h sock (List.mem_of_getElem? hs))) s

theorem record (h : k.Sincere) (c : Call) : (k.record c).Sincere := h

theorem made (h : k.Sincere) (hsock : sock.Sincere) (vs : List (CallName × Verdict))
    (spare : List Nat) (next : Nat) (family : Family) :
    (k.made vs spare next sock family).Sincere := by
  intro other hmem
  rcases List.mem_append.1 hmem with hmem | hmem
  · exact h other hmem
  · rw [List.mem_singleton.1 hmem]
    exact hsock

theorem close (h : k.Sincere) (s : SocketId) : (k.close s).Sincere := by
  by_cases hs : k.Open s
  · rw [close_of_open hs]
    exact h.updateSocket s (f := fun sock => { sock with isOpen := false }) fun _ hsock => hsock
  · rw [close_of_not_open hs]
    exact h

theorem openStream (h : k.Sincere) (address : Address) : (k.openStream address).2.Sincere := by
  have hopening := opening k address
  have hstarted (d : Nat) : (k.nextSocket d).connect.Sincere := Socket.sincere_connect rfl
  generalize k.openStream address = r at hopening ⊢
  cases hopening with
  | unmade _ => exact h
  | unset _ => exact (h.made (fun _ => rfl) _ _ _ _).close _
  | refused _ => exact ((h.made (hstarted _) _ _ _ _).record _).close _
  | started _ _ => exact (h.made (hstarted _) _ _ _ _).record _

theorem takeError (h : k.Sincere) (s : SocketId) : (k.takeError s).2.Sincere := by
  unfold Kernel.takeError takeVerdict
  rcases splitVerdict .getsockopt k.verdicts with ⟨_ | e, vs⟩
  · exact updateSocket (k := { k with verdicts := vs }) h s fun _ _ _ => rfl
  · exact h

/-- No call leaves an error on a socket. -/
theorem dealing (h : k.Sincere) (hdealing : Dealing k k') : k'.Sincere := by
  cases hdealing with
  | openStream address => exact h.openStream address
  | takeError s => exact h.takeError s
  | send s bytes =>
      unfold Kernel.send
      split
      · exact h
      · next sock hs => exact h.set ((h sock (List.mem_of_getElem? hs)).send bytes) s
  | receive s size =>
      unfold Kernel.receive
      split
      · exact h
      · next sock hs => exact h.set ((h sock (List.mem_of_getElem? hs)).receive size) s
  | close s => exact h.close s
  | register s token interest =>
      rcases register_cases k s token interest with ⟨vs, _, heq⟩ | ⟨e, vs, heq⟩ <;> rw [heq] <;>
        exact h
  | reregister s token interest =>
      rcases reregister_cases k s token interest with ⟨vs, _, heq⟩ | ⟨e, vs, heq⟩ <;> rw [heq] <;>
        exact h
  | deregister s =>
      rcases deregister_cases k s with ⟨vs, _, heq⟩ | ⟨e, vs, heq⟩ <;> rw [heq] <;> exact h

theorem dealings (h : k.Sincere) (hdealings : Dealings k k') : k'.Sincere := by
  induction hdealings with
  | refl => exact h
  | tail _ hdealing ih => exact ih.dealing hdealing

/-- Whatever happens outside, an error comes with a failed connect. -/
theorem happen (h : k.Sincere) (happening : Happening) : (k.happen happening).Sincere := by
  cases happening with
  | plan | script | inject | advance => exact h
  | complete s v => exact h.updateSocket s fun _ hsock => hsock.complete v
  | arrive s _ | room s _ | failSends s _ => exact h.updateSocket s fun _ hsock => hsock

end Sincere

/-! ## Calls on a clear socket -/

/-- Socket `s` is clear, and has sent `wire`; and no call was told to fail. -/
structure Clear (s : SocketId) (wire : Bytes) (k : Kernel) : Prop where
  lookup : ∃ sock, k.sockets[s]? = some sock ∧ sock.Clear ∧ sock.error = none ∧ sock.wire = wire
  verdicts : k.verdicts = []

namespace Clear

/-- Nothing else of the kernel matters. -/
theorem congr (h : k.Clear s wire) (hsocket : k'.sockets[s]? = k.sockets[s]?)
    (hverdicts : k'.verdicts = []) : k'.Clear s wire := by
  obtain ⟨sock, hsock, hrest⟩ := h.lookup
  exact ⟨⟨sock, hsocket.trans hsock, hrest⟩, hverdicts⟩

theorem send (h : k.Clear s wire) (bytes : Bytes) :
    ∃ k', k.send s bytes = (.ok bytes.length, k') ∧ k'.Clear s (wire ++ bytes) := by
  obtain ⟨sock, hsock, hclear, herror, rfl⟩ := h.lookup
  unfold Kernel.send
  simp only [hsock, hclear.send_eq]
  refine ⟨_, rfl, ⟨{ sock with wire := sock.wire ++ bytes }, ?_, { hclear with }, herror, rfl⟩,
    h.verdicts⟩
  exact List.getElem?_set_self (List.getElem?_eq_some_iff.1 hsock).1

theorem receive (h : k.Clear s wire) {size : Nat} (hsize : 0 < size) :
    ∃ k', k'.Clear s wire ∧ (k.receive s size = (.error .tryAgain, k') ∨
      ∃ b bs, k.receive s size = (.ok (b :: bs), k')) := by
  obtain ⟨sock, hsock, hclear, herror, rfl⟩ := h.lookup
  obtain ⟨incoming, hafter, hreceive⟩ := hclear.receive_eq hsize
  unfold Kernel.receive
  simp only [hsock]
  have hlt := (List.getElem?_eq_some_iff.1 hsock).1
  have hclear (c : Call) : Clear s sock.wire
      (record { k with sockets := k.sockets.set s { sock with incoming } } c) :=
    ⟨⟨{ sock with incoming }, List.getElem?_set_self hlt, hafter, herror, rfl⟩, h.verdicts⟩
  rcases hreceive with heq | ⟨b, bs, heq⟩ <;> rw [heq]
  · exact ⟨_, hclear _, .inl rfl⟩
  · exact ⟨_, hclear _, .inr ⟨b, bs, rfl⟩⟩

theorem takeError (h : k.Clear s wire) :
    ∃ k', k.takeError s = (.ok none, k') ∧ k'.Clear s wire := by
  obtain ⟨sock, hsock, hclear, herror, rfl⟩ := h.lookup
  unfold Kernel.takeError takeVerdict
  simp only [h.verdicts, splitVerdict, hsock, Option.bind_some, herror]
  refine ⟨_, rfl, ⟨{ sock with error := none }, ?_, { hclear with }, rfl, rfl⟩, rfl⟩
  show (k.sockets.modify s fun sock => { sock with error := none })[s]? = _
  rw [List.getElem?_modify_eq, hsock]
  rfl

/-- A registration is changed. -/
theorem reregister (h : k.Clear s wire) (hs : k.watches (k.descriptor s) ≠ []) (token : Nat)
    (interest : Interest) :
    ∃ k', k.reregister s token interest = (.ok, k') ∧ k'.Clear s wire := by
  have hregistered : k.isRegistered s = true := isRegistered_iff.2 hs
  unfold Kernel.reregister takeVerdict
  simp only [h.verdicts, splitVerdict, isRegistered_verdicts, hregistered]
  exact ⟨_, rfl, h.congr rfl rfl⟩

theorem writeOnce (h : k.Clear s wire) (bytes : Bytes) :
    ∃ k', Medium.writeOnce k s bytes = (.ok bytes.length, k') ∧ k'.Clear s (wire ++ bytes) := by
  obtain ⟨k', hsend, hk'⟩ := h.send bytes
  refine ⟨k', ?_, hk'⟩
  have hwrite : Medium.write k s bytes = (.ok bytes.length, k') := by
    show ((k.send s bytes).1.mapError IoError.os, (k.send s bytes).2) = _
    rw [hsend]
    rfl
  rw [Medium.writeOnce]
  split
  · next n hn =>
    rw [hwrite] at hn ⊢
    rw [Except.ok.inj hn]
  · next e he =>
    rw [hwrite] at he
    cases he

theorem flushTo (h : k.Clear s wire) {waiting : List Bytes} (hwords : [] ∉ waiting) {q : SendQueue}
    (hq : q.pending = waiting) :
    ∃ q' k', q.flushTo s waiting k = (.ok .drained, q', k') ∧ q'.pending = [] ∧
      k'.Clear s (wire ++ waiting.flatten) := by
  induction waiting generalizing k q wire with
  | nil => exact ⟨q, k, rfl, hq, by rwa [List.flatten_nil, List.append_nil]⟩
  | cons head others ih =>
      obtain ⟨k₁, hwrite, hk₁⟩ := h.writeOnce head
      obtain ⟨q', k', hflush, hnone, hk'⟩ :=
        ih hk₁ (fun hmem => hwords (List.mem_cons_of_mem _ hmem)) (q := q.dropHead)
          (congrArg List.tail hq)
      have hlength : head.length ≠ 0 := fun hzero =>
        hwords (List.length_eq_zero_iff.1 hzero ▸ List.mem_cons_self)
      refine ⟨q', k', ?_, hnone, ?_⟩
      · rw [SendQueue.flushTo, hwrite]
        simp only [if_neg hlength]
        exact hflush
      · rwa [List.flatten_cons, ← List.append_assoc]

/-- **A queue goes out whole**, in its order. -/
theorem flush (h : k.Clear s wire) {q : SendQueue} (hwords : [] ∉ q.pending)
    (hw : q.writer = some s) :
    ∃ q' k', q.flush k = (.ok .drained, q', k') ∧ q'.pending = [] ∧
      k'.Clear s (wire ++ q.pending.flatten) := by
  unfold SendQueue.flush
  simp only [hw]
  exact h.flushTo hwords rfl

end Clear

/-! ## What is out on sockets -/

/-- What is out on each socket. -/
def wires (k : Kernel) : List Bytes := k.sockets.map (·.wire)

/-- Closing a socket sends nothing. -/
theorem wires_close (k : Kernel) (s : SocketId) : (k.close s).wires = k.wires := by
  by_cases hs : k.Open s
  · rw [close_of_open hs]
    refine List.ext_getElem? fun i => ?_
    show ((k.sockets.modify s _).map _)[i]? = (k.sockets.map _)[i]?
    rw [List.getElem?_map, List.getElem?_map, List.getElem?_modify]
    rcases k.sockets[i]? with _ | sock
    · rfl
    · refine congrArg some (?_ : Socket.wire (if s = i then _ else sock) = sock.wire)
      split <;> rfl
  · rw [close_of_not_open hs]

theorem wires_deregister (k : Kernel) (s : SocketId) : (k.deregister s).2.wires = k.wires := by
  rcases deregister_cases k s with ⟨vs, _, heq⟩ | ⟨e, vs, heq⟩ <;> rw [heq] <;> rfl

end Kernel

end TextLink
