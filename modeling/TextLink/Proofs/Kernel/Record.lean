import TextLink.Proofs.Kernel.Opening

/-!
# What is recorded

Every call made to a kernel is recorded once, behind the ones before. So what a call records is told
by what it adds (`Adds`), and each kind of call adds records of one topic only. Facts about the
record that concern another topic are therefore kept by it.

## Main results

* `adds_send`, `adds_receive`, `adds_openStream`, … — what each call adds to the record.
* `receives_receive`, `Adds.receives` — what is received.
-/

namespace TextLink

/-- What a call is about. -/
inductive Topic where
  /-- Making a socket and starting its connect. -/
  | opening
  | error
  | sending
  | receiving
  /-- Registrations. -/
  | watching
  | waiting
deriving DecidableEq

/-- What a call is about. -/
def Call.topic : Call → Topic
  | .socket .. | .connect .. => .opening
  | .takeError .. => .error
  | .send .. => .sending
  | .receive .. => .receiving
  | .register .. | .reregister .. | .deregister .. => .watching
  | .wait .. => .waiting

namespace Kernel

/-- `k'` has the record of `k` and calls on topic `t` behind it. -/
def Adds (t : Topic) (k k' : Kernel) : Prop :=
  ∃ new : List Call, k'.calls.toList = k.calls.toList ++ new ∧ ∀ c ∈ new, c.topic = t

variable {k k' k'' : Kernel} {s : SocketId} {t : Topic}

namespace Adds

theorem of_calls_eq (h : k'.calls = k.calls) : Adds t k k' :=
  ⟨[], by rw [h, List.append_nil], fun _ hc => absurd hc List.not_mem_nil⟩

theorem refl (k : Kernel) : Adds t k k := of_calls_eq rfl

theorem trans (h : Adds t k k') (h' : Adds t k' k'') : Adds t k k'' := by
  obtain ⟨new, hcalls, htopic⟩ := h
  obtain ⟨new', hcalls', htopic'⟩ := h'
  refine ⟨new ++ new', by rw [hcalls', hcalls, List.append_assoc], fun c hc => ?_⟩
  exact (List.mem_append.1 hc).elim (htopic c) (htopic' c)

theorem of_push {c : Call} (h : k'.calls = k.calls.push c) (hc : c.topic = t) : Adds t k k' :=
  ⟨[c], by rw [h, Array.toList_push], fun c' hc' => List.mem_singleton.1 hc' ▸ hc⟩

end Adds

theorem adds_send (k : Kernel) (s : SocketId) (bytes : Bytes) :
    Adds .sending k (k.send s bytes).2 := by
  unfold send
  split
  · exact .refl k
  · exact .of_push rfl rfl

theorem Sends.adds (h : Sends s k k') : Adds .sending k k' := by
  induction h with
  | refl => exact .refl k
  | tail _ hsend ih =>
      obtain ⟨bytes, rfl⟩ := hsend
      exact ih.trans (adds_send _ s bytes)

theorem adds_receive (k : Kernel) (s : SocketId) (size : Nat) :
    Adds .receiving k (k.receive s size).2 := by
  unfold receive
  split
  · exact .refl k
  · exact .of_push rfl rfl

theorem adds_takeError (k : Kernel) (s : SocketId) : Adds .error k (k.takeError s).2 := by
  unfold takeError takeVerdict
  rcases splitVerdict .getsockopt k.verdicts with ⟨_ | e, vs⟩ <;> exact .of_push rfl rfl

theorem adds_of_receive {s : SocketId} {size : Nat} {r : Except Errno Bytes}
    (h : k.receive s size = (r, k')) : Adds .receiving k k' := by
  have hadds := adds_receive k s size
  rwa [h] at hadds

theorem adds_of_takeError {s : SocketId} {r : Except Errno (Option Errno)}
    (h : k.takeError s = (r, k')) : Adds .error k k' := by
  have hadds := adds_takeError k s
  rwa [h] at hadds

theorem adds_beginWait (k : Kernel) (millis : Option Nat) :
    Adds .waiting k (k.beginWait millis).2 := by
  unfold beginWait takeVerdict
  rcases splitVerdict .epollWait k.verdicts with ⟨_ | e, vs⟩
  · exact .of_calls_eq rfl
  · exact .of_push rfl rfl

theorem adds_answer (k : Kernel) (millis : Option Nat) (reports : List Report) :
    Adds .waiting k ((k.answerWait millis reports).collect (.ok reports)).2 :=
  .of_push rfl rfl

theorem calls_close (k : Kernel) (s : SocketId) : (k.close s).calls = k.calls := by
  by_cases h : k.Open s
  · rw [close_of_open h]
    rfl
  · rw [close_of_not_open h]

theorem adds_openStream (k : Kernel) (address : Address) :
    Adds .opening k (k.openStream address).2 := by
  have hmade (vs : List (CallName × Verdict)) (spare : List Nat) (next : Nat) (sock : Socket) :
      Adds .opening k (k.made vs spare next sock address.family) := .of_push rfl rfl
  have hrecord (k' : Kernel) (s : SocketId) (v : Verdict) :
      Adds .opening k' (k'.record (.connect s address v)) := .of_push rfl rfl
  have hopening := opening k address
  generalize k.openStream address = r at hopening ⊢
  cases hopening with
  | unmade _ => exact .of_push rfl rfl
  | unset _ => exact (hmade _ _ _ _).trans (.of_calls_eq (calls_close _ _))
  | refused _ =>
      exact ((hmade _ _ _ _).trans (hrecord _ _ _)).trans (.of_calls_eq (calls_close _ _))
  | started _ _ => exact (hmade _ _ _ _).trans (hrecord _ _ _)

/-! ## Registrations -/

theorem adds_register (k : Kernel) (s : SocketId) (token : Nat) (interest : Interest) :
    Adds .watching k (k.register s token interest).2 := by
  rcases register_cases k s token interest with ⟨vs, _, h⟩ | ⟨e, vs, h⟩ <;> rw [h] <;>
    exact .of_push rfl rfl

theorem adds_reregister (k : Kernel) (s : SocketId) (token : Nat) (interest : Interest) :
    Adds .watching k (k.reregister s token interest).2 := by
  rcases reregister_cases k s token interest with ⟨vs, _, h⟩ | ⟨e, vs, h⟩ <;> rw [h] <;>
    exact .of_push rfl rfl

theorem adds_deregister (k : Kernel) (s : SocketId) : Adds .watching k (k.deregister s).2 := by
  rcases deregister_cases k s with ⟨vs, _, h⟩ | ⟨e, vs, h⟩ <;> rw [h] <;> exact .of_push rfl rfl

end Kernel

/-! ## What is received -/

/-- The bytes that a call received on socket `o`, if there is that socket. -/
def Call.received (o : Option SocketId) : Call → Bytes
  | .receive s _ (.ok bytes) => if some s = o then bytes else []
  | _ => []

/-- Whether a call to receive told that the stream is over, or that the peer is gone. -/
def Call.endsStream : Call → Bool
  | .receive _ _ (.ok bytes) => bytes.isEmpty
  | .receive _ _ (.error e) => e.kind.isDisconnect
  | _ => false

theorem Call.received_eq_nil {c : Call} (h : c.topic ≠ .receiving) (o : Option SocketId) :
    c.received o = [] := by
  cases c
  case receive => exact absurd rfl h
  all_goals rfl

/-- The bytes that calls received on socket `o`. -/
def receivedBy (o : Option SocketId) (calls : List Call) : Bytes := calls.flatMap (Call.received o)

namespace Kernel

variable {k k' k'' : Kernel} {s : SocketId} {t : Topic} {o : Option SocketId} {bytes more : Bytes}

/-- On the way from `k` to `k'`, `bytes` were received on socket `o`. -/
def Receives (o : Option SocketId) (bytes : Bytes) (k k' : Kernel) : Prop :=
  ∃ new, k'.calls.toList = k.calls.toList ++ new ∧ receivedBy o new = bytes

theorem Receives.trans (h : Receives o bytes k k') (h' : Receives o more k' k'') :
    Receives o (bytes ++ more) k k'' := by
  obtain ⟨new, hcalls, rfl⟩ := h
  obtain ⟨new', hcalls', rfl⟩ := h'
  exact ⟨new ++ new', by rw [hcalls', hcalls, List.append_assoc], List.flatMap_append⟩

/-- Calls on other topics receive nothing. -/
theorem Adds.receives (h : Adds t k k') (ht : t ≠ .receiving) (o : Option SocketId) :
    Receives o [] k k' := by
  obtain ⟨new, hcalls, htopic⟩ := h
  refine ⟨new, hcalls, List.flatMap_eq_nil_iff.2 fun c hc => Call.received_eq_nil ?_ o⟩
  rw [htopic c hc]
  exact ht

theorem Receives.refl (o : Option SocketId) (k : Kernel) : Receives o [] k k :=
  (Adds.refl (t := .waiting) k).receives (by decide) o

theorem Receives.receivedBy_newCalls (h : Receives o bytes k k') :
    receivedBy o (newCalls k k') = bytes := by
  obtain ⟨new, hcalls, rfl⟩ := h
  rw [newCalls, hcalls, List.drop_left]

/-- A call to receive is recorded, if there is the socket. -/
theorem calls_receive {size : Nat} {r : Except Errno Bytes} (h : k.receive s size = (r, k')) :
    k'.calls = k.calls ∨ k'.calls = k.calls.push (.receive s size r) := by
  unfold receive at h
  split at h
  · cases h
    exact .inl rfl
  · cases h
    exact .inr rfl

theorem receives_receive {size : Nat} {r : Except Errno Bytes} (h : k.receive s size = (r, k'))
    (o : Option SocketId) : Receives o (Call.received o (.receive s size r)) k k' := by
  unfold receive at h
  split at h
  · cases h
    exact .refl o k
  · cases h
    exact ⟨[_], Array.toList_push, List.append_nil _⟩

end Kernel

end TextLink
