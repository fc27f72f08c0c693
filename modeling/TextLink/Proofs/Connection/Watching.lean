import TextLink.Proofs.Connection.Shape

/-!
# Waiting output is watched for

An established connection with messages waiting has to be told when its socket takes more bytes, so
its registration must ask for that (`Attends`). Connecting ends in such a registration, and so does
serving, unless a call failed before the registration was looked at. Then the registration is as it
was, and nothing has been added to the queue (`Lets`). The only other way out is that the
registration itself failed.

## Main results

* `attends_connect` — connecting.
* `serve_attends`, `handleEvent_attends` — serving an event.
* `rearm_attends` — looking after the registration.
-/

namespace TextLink.Link

open Kernel (Heeded)

variable {l l' l'' : Link} {s : SocketId}

/-- Messages that wait on an established connection are watched for. -/
def Attends (l : Link) : Prop :=
  l.conn.state = .connected → l.queue.hasPending = true →
    ∃ i, l.conn.registered = some i ∧ i.write = true

/-- `l'` is registered as `l` is, and has messages waiting only if `l` has. -/
structure Lets (l l' : Link) : Prop where
  state_eq : l'.conn.state = l.conn.state
  registered_eq : l'.conn.registered = l.conn.registered
  pending : l'.queue.hasPending = true → l.queue.hasPending = true

theorem Lets.refl (l : Link) : Lets l l := ⟨rfl, rfl, id⟩

theorem Lets.trans (h : Lets l l') (h' : Lets l' l'') : Lets l l'' where
  state_eq := h'.state_eq.trans h.state_eq
  registered_eq := h'.registered_eq.trans h.registered_eq
  pending hp := h.pending (h'.pending hp)

theorem Lets.attends (h : Lets l l') (hl : l.Attends) : l'.Attends := by
  intro hstate hp
  rw [h.registered_eq]
  exact hl (h.state_eq.symm.trans hstate) (h.pending hp)

theorem attends_of_state_ne (h : l.conn.state ≠ .connected) : l.Attends := fun hstate =>
  absurd hstate h

theorem attends_of_serving (h : l.conn.registered = some (.serving l.queue.hasPending)) :
    l.Attends := fun _ hp => ⟨_, h, hp⟩

/-! ## Connecting -/

theorem attends_close (l : Link) : l.close.Attends := by
  apply attends_of_state_ne
  rw [state_close]
  decide

theorem attends_attemptFailed (h : l.conn.state ≠ .connected) : l.attemptFailed.2.Attends := by
  have hstate : l.release.suspendQueue.conn.state ≠ .connected := by
    rw [conn_suspendQueue, state_release]
    exact h
  unfold attemptFailed
  simp only
  split
  · split
    · exact attends_of_state_ne hstate
    · exact attends_of_state_ne hstate
  · exact attends_close _

theorem attends_concludeAttempt {r : Except IoError Unit × Link}
    (hok : r.1 = .ok () → r.2.Attends) (herror : r.1 ≠ .ok () → r.2.conn.state = .connecting) :
    (concludeAttempt r).2.Attends := by
  rcases r with ⟨e | _, l⟩
  · apply attends_attemptFailed
    rw [herror nofun]
    decide
  · exact hok rfl

theorem attends_establish (hs : l.conn.socket = some s) (hstate : l.conn.state = .connecting) :
    (concludeAttempt l.establish).2.Attends := by
  refine attends_concludeAttempt (fun hok => ?_) (state_of_establish hs hstate)
  have ⟨hqueue, hcases⟩ := establish_cases l hs
  rcases hcases with ⟨_, hconn⟩ | ⟨⟨e, he⟩, _⟩
  · apply attends_of_serving
    rw [hconn, hqueue]
    rfl
  · cases he.symm.trans hok

/-- An attempt to connect leaves no output behind that nobody watches for. -/
theorem attends_connect (l : Link) : l.connect.2.Attends := by
  have hconnects := connects l
  generalize l.connect = r at hconnects ⊢
  cases hconnects with
  | closed hclosed =>
      apply attends_of_state_ne
      rw [hclosed]
      decide
  | unmade _ _ =>
      apply attends_attemptFailed
      rw [conn_beginAttempt]
      exact nofun
  | @atOnce s _ _ _ =>
      apply attends_establish (s := s)
      · rw [conn_adopt]
      · rw [conn_adopt]
  | @underWay s k _ _ =>
      have hstate : ((adopt { l.beginAttempt with kernel := k } s).arm .writing).2.conn.state =
          .connecting := by
        rw [state_arm, conn_adopt]
      refine attends_concludeAttempt (fun _ => attends_of_state_ne ?_) fun _ => hstate
      rw [hstate]
      decide

theorem attends_finishConnect (hstate : l.conn.state = .connecting) (event : Event) :
    (l.finishConnect event).2.Attends := by
  unfold finishConnect
  split
  · apply attends_of_state_ne
    rw [hstate]
    decide
  · next s hs =>
    have hconn : (l.connectOutcome s event).2.conn = l.conn := rfl
    generalize l.connectOutcome s event = r at hconn ⊢
    rcases r with ⟨e | _, l₁⟩
    · apply attends_attemptFailed
      rw [(congrArg Connection.state hconn).trans hstate]
      decide
    · exact attends_establish ((congrArg Connection.socket hconn).trans hs)
        ((congrArg Connection.state hconn).trans hstate)

/-! ## Serving -/

/-- Registering goes through unless a call failed. -/
theorem arm_ok {interest : Interest} (h : Heeded l.kernel (l.arm interest).2.kernel) :
    (l.arm interest).1 = .ok () := by
  unfold arm at h ⊢
  rcases hs : l.conn.socket with _ | s
  · rfl
  · simp only [hs] at h ⊢
    by_cases hsame : l.conn.registered = some interest
    · rw [if_pos hsame]
    · rw [if_neg hsame] at h ⊢
      have hok {r : Verdict × Kernel} (hr : r = if l.conn.registered.isSome
          then l.kernel.reregister s l.conn.token interest
          else l.kernel.register s l.conn.token interest) (h : Heeded l.kernel r.2) :
      r.1 = .ok := by
        subst hr
        split at h
        · next hreg =>
          rw [if_pos hreg]
          exact h.reregister
        · next hreg =>
          rw [if_neg hreg]
          exact h.register
      generalize hr : (if l.conn.registered.isSome then _ else _) = r at h ⊢
      have hok := hok hr.symm
      rcases r with ⟨_ | e, k⟩
      · rfl
      · cases hok h

/-- Looking after the registration leaves no output that nobody watches for, if it goes through. -/
theorem attends_of_rearm (hsocket : l.conn.state = .connected → ∃ s, l.conn.socket = some s)
    (hok : l.rearm.1 = .ok ()) : l.rearm.2.Attends := by
  unfold rearm at hok ⊢
  by_cases hstate : l.conn.state = .connected
  · have ⟨s, hs⟩ := hsocket hstate
    rw [if_pos hstate] at hok ⊢
    have ⟨hqueue, hcases⟩ := arm_cases l hs (.serving l.queue.hasPending)
    apply attends_of_serving
    rcases hcases with ⟨_, hconn⟩ | ⟨⟨e, he⟩, _⟩
    · rw [hconn, hqueue]
    · cases he.symm.trans hok
  · rw [if_neg hstate]
    exact attends_of_state_ne hstate

/-- It goes through unless a call failed. -/
theorem rearm_attends (hsocket : l.conn.state = .connected → ∃ s, l.conn.socket = some s)
    (h : Heeded l.kernel l.rearm.2.kernel) : l.rearm.1 = .ok () ∧ l.rearm.2.Attends := by
  have hok : l.rearm.1 = .ok () := by
    unfold rearm at h ⊢
    split at h
    · next hstate =>
      rw [if_pos hstate]
      exact arm_ok h
    · next hstate => rw [if_neg hstate]
  exact ⟨hok, attends_of_rearm hsocket hok⟩

/-- What output waits is watched for after `r`, or is as it was, unless a call failed. -/
def AttendsAfter {α : Type} (l : Link) (r : α × Link) : Prop :=
  r.2.kernel.Obeyed → r.2.Attends ∨ Lets l r.2

theorem AttendsAfter.of_lets {α : Type} {r : α × Link} (h : Lets l l') (hr : AttendsAfter l' r) :
    AttendsAfter l r := fun hobeyed => (hr hobeyed).imp_right h.trans

theorem lets_read (l : Link) : Lets l l.read.2 := by
  have ⟨⟨decoder, stalled, hconn⟩, hqueue⟩ := read_keeps l
  constructor
  · rw [hconn]
  · rw [hconn]
  · rw [hqueue]
    exact id

theorem lets_flush (l : Link) : Lets l l.flush.2 := by
  constructor
  · rw [conn_flush]
  · rw [conn_flush]
  · rw [queue_flush]
    exact SendQueue.hasPending_flush l.kernel

theorem concludeService_attends (hs : l.conn.socket = some s)
    (h : Heeded l.kernel l.concludeService.2.kernel) : l.concludeService.2.Attends := by
  have hrearm := rearm_attends (l := l) fun _ => ⟨s, hs⟩
  unfold concludeService at h ⊢
  generalize l.rearm = r at hrearm h ⊢
  rcases r with ⟨e | _, l'⟩
  · cases (hrearm h).1
  · exact (hrearm h).2

theorem concludeService_attendsAfter (hs : l.conn.socket = some s) :
    AttendsAfter l l.concludeService :=
  fun hobeyed => .inl (concludeService_attends hs (hobeyed.heeded _))

theorem serveWriting_attends (hs : l.conn.socket = some s) (event : Event) :
    AttendsAfter l (l.serveWriting event) := by
  have hflush := lets_flush l
  have hconn := conn_flush l
  unfold serveWriting
  split
  · generalize l.flush = r at hflush hconn ⊢
    rcases r with ⟨e | _, l'⟩
    · by_cases hd : e.kind.isDisconnect
      · simp only [if_pos hd]
        exact fun _ => .inl (attends_close l')
      · simp only [if_neg hd]
        exact fun _ => .inr hflush
    · exact (concludeService_attendsAfter
        ((congrArg Connection.socket hconn).trans hs)).of_lets hflush
  · exact concludeService_attendsAfter hs

theorem serve_attends (hs : l.conn.socket = some s) (event : Event) :
    AttendsAfter l (l.serve event) := by
  have hread := lets_read l
  have ⟨⟨decoder, stalled, hconn⟩, _⟩ := read_keeps l
  unfold serve
  split
  · generalize l.read = r at hread hconn ⊢
    rcases r with ⟨setback | (_ | _), l'⟩
    · exact fun _ => .inr hread
    · exact fun _ => .inl (attends_close l')
    · refine (serveWriting_attends (s := s) ?_ event).of_lets hread
      rw [hconn]
      exact hs
  · exact serveWriting_attends hs event

/-- An event leaves no more output behind that nobody watches for. -/
theorem handleEvent_attends (hshape : Shape l.conn l.queue) (event : Event) :
    AttendsAfter l (l.handleEvent event) := by
  unfold handleEvent
  rcases hstate : l.conn.state with _ | _ | _ | _
  · exact fun _ => .inr (.refl l)
  · have hfinish := attends_finishConnect hstate event
    simp only
    generalize l.finishConnect event = r at hfinish ⊢
    rcases r with ⟨fault | progress, l'⟩
    · exact fun _ => .inl hfinish
    · exact fun _ => .inl hfinish
  · cases hshape with
    | connected _ hs _ _ _ _ _ => exact serve_attends hs event
    | inFlight h _ _ _ _ _ | waiting h _ _ _ _ _ => cases h.symm.trans hstate
  · exact fun _ => .inr (.refl l)

end TextLink.Link
