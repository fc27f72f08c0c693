import TextLink.Proofs.Connection.Shape

/-!
# Calls on a single socket

Having a socket watched, and closing a connection, make calls on the socket of the connection only.
What these can be seen by is that socket, its registration and the record of calls; everything else
below the loop is as it was (`Confined`).

This says more than `Touches`, which lets a connection act on whatever it or its queue holds and
make new sockets: no socket is made, and also closed sockets and registrations that outlived
theirs are left alone.

## Main results

* `Link.confined_rearm`, `Link.confined_close` — watching and closing.
-/

namespace TextLink

/-- The socket a call is made on. -/
def Call.socket? : Call → Option SocketId
  | .socket _ outcome => outcome.toOption
  | .connect s .. | .takeError s _ | .send s .. | .receive s .. => some s
  | .register s .. | .reregister s .. | .deregister s _ => some s
  | .wait .. => none

namespace Kernel

/-- `k'` comes from `k` by calls on socket `o`, or by none if there is no such socket. -/
structure Confined (o : Option SocketId) (k k' : Kernel) : Prop where
  socket_eq : ∀ s, o ≠ some s → k'.sockets[s]? = k.sockets[s]?
  descriptor_eq : ∀ s, k'.descriptor s = k.descriptor s
  watches_eq : ∀ d, (∀ s, o = some s → k.descriptor s ≠ d) → k'.watches d = k.watches d
  calls_eq : ∃ new, k'.calls.toList = k.calls.toList ++ new ∧
    ∀ call ∈ new, ∃ s, o = some s ∧ call.socket? = some s
  clock_eq : k'.clock = k.clock
  plans_eq : k'.plans = k.plans
  injections_eq : k'.injections = k.injections
  signalled_eq : k'.signalled = k.signalled
  closeUnregisters_eq : k'.closeUnregisters = k.closeUnregisters

variable {k k' k'' : Kernel} {s : SocketId} {o o' : Option SocketId}

namespace Confined

theorem refl (k : Kernel) : Confined o k k :=
  ⟨fun _ _ => rfl, fun _ => rfl, fun _ _ => rfl, ⟨[], (List.append_nil _).symm, nofun⟩, rfl, rfl,
    rfl, rfl, rfl⟩

theorem trans (h : Confined o k k') (h' : Confined o k' k'') : Confined o k k'' where
  socket_eq s hs := (h'.socket_eq s hs).trans (h.socket_eq s hs)
  descriptor_eq s := (h'.descriptor_eq s).trans (h.descriptor_eq s)
  watches_eq d hd := by
    rw [h'.watches_eq d fun s hs => h.descriptor_eq s ▸ hd s hs, h.watches_eq d hd]
  calls_eq := by
    obtain ⟨new, hcalls, hnew⟩ := h.calls_eq
    obtain ⟨new', hcalls', hnew'⟩ := h'.calls_eq
    refine ⟨new ++ new', by rw [hcalls', hcalls, List.append_assoc], fun call hcall => ?_⟩
    exact (List.mem_append.1 hcall).elim (hnew call) (hnew' call)
  clock_eq := h'.clock_eq.trans h.clock_eq
  plans_eq := h'.plans_eq.trans h.plans_eq
  injections_eq := h'.injections_eq.trans h.injections_eq
  signalled_eq := h'.signalled_eq.trans h.signalled_eq
  closeUnregisters_eq := h'.closeUnregisters_eq.trans h.closeUnregisters_eq

theorem mono (h : Confined o k k') (ho : ∀ s, o = some s → o' = some s) : Confined o' k k' :=
  { h with
    socket_eq := fun s hs => h.socket_eq s fun heq => hs (ho s heq)
    watches_eq := fun d hd => h.watches_eq d fun s hs => hd s (ho s hs)
    calls_eq := by
      obtain ⟨new, hcalls, hnew⟩ := h.calls_eq
      refine ⟨new, hcalls, fun call hcall => ?_⟩
      obtain ⟨s, hs, hsocket⟩ := hnew call hcall
      exact ⟨s, ho s hs, hsocket⟩ }

end Confined

/-! ## Registrations -/

theorem confined_registered {call : Call} (hcall : call.socket? = some s)
    (vs : List (CallName × Verdict)) {rs : List Registration}
    (hrs : ∀ d, d ≠ k.descriptor s → (rs.filter fun r => r.descriptor == d) = k.watches d) :
    Confined (some s) k (k.registered vs rs call) where
  socket_eq _ _ := rfl
  descriptor_eq _ := rfl
  watches_eq d hd := hrs d (hd s rfl).symm
  calls_eq := ⟨[call], Array.toList_push, fun _ hc => ⟨s, rfl, List.mem_singleton.1 hc ▸ hcall⟩⟩
  clock_eq := rfl
  plans_eq := rfl
  injections_eq := rfl
  signalled_eq := rfl
  closeUnregisters_eq := rfl

theorem confined_register (k : Kernel) (s : SocketId) (token : Nat) (interest : Interest) :
    Confined (some s) k (k.register s token interest).2 := by
  rcases register_cases k s token interest with ⟨vs, _, h⟩ | ⟨e, vs, h⟩
  · rw [h]
    refine confined_registered rfl vs fun d hd => ?_
    rw [filter_append_single, if_neg hd.symm, List.append_nil]
    rfl
  · rw [h]
    exact confined_registered rfl vs fun _ _ => rfl

theorem confined_reregister (k : Kernel) (s : SocketId) (token : Nat) (interest : Interest) :
    Confined (some s) k (k.reregister s token interest).2 := by
  rcases reregister_cases k s token interest with ⟨vs, _, h⟩ | ⟨e, vs, h⟩
  · rw [h]
    exact confined_registered rfl vs fun d hd => filter_map_replace_ne _ hd token interest
  · rw [h]
    exact confined_registered rfl vs fun _ _ => rfl

theorem confined_deregister (k : Kernel) (s : SocketId) :
    Confined (some s) k (k.deregister s).2 := by
  rcases deregister_cases k s with ⟨vs, _, h⟩ | ⟨e, vs, h⟩
  · rw [h]
    refine confined_registered rfl vs fun d hd => ?_
    rw [watches_registrationsBut, if_neg hd]
  · rw [h]
    exact confined_registered rfl vs fun _ _ => rfl

/-! ## Closing -/

/-- A socket that is closed keeps the number of its descriptor. -/
theorem descriptor_close_self (hs : k.Open s) : (k.close s).descriptor s = k.descriptor s := by
  obtain ⟨sock, hsock, _⟩ := id hs
  rw [close_of_open hs, descriptor, descriptor]
  show ((k.sockets.modify s _)[s]?.map _).getD 0 = _
  rw [List.getElem?_modify, hsock]
  simp

theorem confined_close (k : Kernel) (s : SocketId) : Confined (some s) k (k.close s) := by
  by_cases hs : k.Open s
  · refine ⟨fun s' hne => getElem?_close_ne fun heq => hne (heq ▸ rfl), fun s' => ?_,
      fun d hd => watches_close hs (hd s rfl).symm, ⟨[], ?_, nofun⟩, ?_, ?_, ?_, ?_, ?_⟩
    · by_cases heq : s' = s
      · rw [heq, descriptor_close_self hs]
      · exact descriptor_close heq
    all_goals rw [close_of_open hs]
    · exact (List.append_nil _).symm
    all_goals rfl
  · rw [close_of_not_open hs]
    exact .refl k

end Kernel

/-! ## Connections -/

namespace Link

open Kernel (Confined)

variable {l : Link}

theorem confined_letGo (l : Link) (o : Option SocketId) :
    Confined o l.kernel (l.letGo o).kernel := by
  rcases o with _ | s
  · exact .refl _
  · unfold letGo
    simp only
    split
    · exact .refl _
    · exact Kernel.confined_close l.kernel s

theorem confined_arm (l : Link) (interest : Interest) :
    Confined l.conn.socket l.kernel (l.arm interest).2.kernel := by
  unfold arm
  rcases l.conn.socket with _ | s
  · exact .refl _
  by_cases hsame : l.conn.registered = some interest
  · simp only [if_pos hsame]
    exact .refl _
  have hcall : Confined (some s) l.kernel
      (if l.conn.registered.isSome then l.kernel.reregister s l.conn.token interest
        else l.kernel.register s l.conn.token interest).2 := by
    split
    · exact Kernel.confined_reregister ..
    · exact Kernel.confined_register ..
  simp only [if_neg hsame]
  generalize (if l.conn.registered.isSome then l.kernel.reregister s l.conn.token interest
    else l.kernel.register s l.conn.token interest) = r at hcall ⊢
  rcases r with ⟨_ | e, k⟩ <;> exact hcall

theorem confined_rearm (l : Link) : Confined l.conn.socket l.kernel l.rearm.2.kernel := by
  unfold rearm
  split
  · exact confined_arm l _
  · exact .refl _

theorem confined_release (l : Link) : Confined l.conn.socket l.kernel l.release.kernel := by
  unfold release
  rcases l.conn.socket with _ | s
  · exact .refl _
  · have hcall : Confined (some s) l.kernel
        (if l.conn.registered.isSome then (l.kernel.deregister s).2 else l.kernel) := by
      split
      · exact Kernel.confined_deregister l.kernel s
      · exact .refl _
    simp only
    generalize (if l.conn.registered.isSome then (l.kernel.deregister s).2 else l.kernel) =
      k at hcall ⊢
    exact hcall.trans (confined_letGo { l with kernel := k, conn := _ } (some s))

/-- Closing a connection whose queue writes to no other socket. -/
theorem confined_close (hw : ∀ w, l.queue.writer = some w → l.conn.socket = some w) :
    Confined l.conn.socket l.kernel l.close.kernel := by
  by_cases hclosed : l.conn.state = .closed
  · unfold close
    rw [if_pos hclosed]
    exact .refl _
  · obtain ⟨rs, hclose⟩ := close_eq hclosed
    rw [hclose, kernel_setState]
    have hqueue : Confined l.queue.writer l.release.kernel l.release.closeQueue.2.kernel := by
      have hletGo := confined_letGo { l.release with queue := l.release.queue.close.2 }
        l.release.queue.writer
      rw [queue_release] at hletGo
      unfold closeQueue
      rw [queue_release]
      exact hletGo
    exact (confined_release l).trans (hqueue.mono hw)

end Link

end TextLink
