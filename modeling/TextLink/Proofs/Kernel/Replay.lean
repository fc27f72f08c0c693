import TextLink.Proofs.Kernel.Record

/-!
# Replaying the calls on registrations

Which sockets are watched can be told from the record alone, by replaying the calls on registrations
that went through (`watchedAfter`). The replay knows nothing of descriptors, which a later socket
may have again, nor of registrations that end with their sockets. So it agrees with the kernel only
if the calls are in order: nothing is added for a socket that is watched already, and nothing is
changed or removed for one that is not (`Orderly`). A call out of order is one the kernel refuses by
itself.

## Main results

* `Tracked.register`, `Tracked.reregister`, `Tracked.deregister` — a call in order keeps replay and
  kernel in agreement, whether it goes through or fails.
* `Tracked.openStream`, `Tracked.close` — so does making or closing a socket.
-/

namespace TextLink

/-! ## The replay -/

/-- Whether socket `s` is watched after a call, if `watched` says whether it was before. -/
def Call.watch (s : SocketId) (watched : Bool) : Call → Bool
  | .register s' _ _ .ok => watched || s' == s
  | .deregister s' .ok => watched && s' != s
  | _ => watched

/-- Whether socket `s` is watched after these calls. -/
def watchedAfter (calls : List Call) (s : SocketId) : Bool := calls.foldl (Call.watch s) false

/-- A call on registrations is in order, where `watched` says which sockets are watched. -/
def Call.Fits (watched : SocketId → Bool) : Call → Prop
  | .register s .. => watched s = false
  | .reregister s .. | .deregister s .. => watched s = true
  | _ => True

/-- Every call on registrations was in order when it was made. -/
def Orderly (calls : List Call) : Prop :=
  ∀ before c after, calls = before ++ c :: after → c.Fits (watchedAfter before)

theorem watchedAfter_concat (calls : List Call) (c : Call) (s : SocketId) :
    watchedAfter (calls ++ [c]) s = c.watch s (watchedAfter calls s) :=
  List.foldl_append

theorem orderly_nil : Orderly [] := fun before c after h => by
  cases before <;> cases h

theorem Orderly.concat {calls : List Call} {c : Call} (h : Orderly calls)
    (hc : c.Fits (watchedAfter calls)) : Orderly (calls ++ [c]) := by
  intro before d after heq
  rcases List.eq_nil_or_concat after with rfl | ⟨after', e, rfl⟩
  · obtain ⟨rfl, hd⟩ := List.append_inj' heq rfl
    cases hd
    exact hc
  · rw [List.concat_eq_append, ← List.cons_append, ← List.append_assoc] at heq
    exact h before d after' (List.append_inj' heq rfl).1

theorem Call.watch_of_topic {c : Call} (h : c.topic ≠ .watching) (s : SocketId) (watched : Bool) :
    c.watch s watched = watched := by
  cases c with
  | register | reregister | deregister => exact absurd rfl h
  | _ => rfl

theorem Call.fits_of_topic {c : Call} (h : c.topic ≠ .watching) (watched : SocketId → Bool) :
    c.Fits watched := by
  cases c with
  | register | reregister | deregister => exact absurd rfl h
  | _ => trivial

theorem watchedAfter_append {new : List Call} (h : ∀ c ∈ new, c.topic ≠ .watching)
    (calls : List Call) (s : SocketId) : watchedAfter (calls ++ new) s = watchedAfter calls s := by
  induction new generalizing calls with
  | nil => rw [List.append_nil]
  | cons c later ih =>
      rw [List.append_cons, ih (fun c' hc' => h c' (.tail _ hc')), watchedAfter_concat,
        Call.watch_of_topic (h c (.head _))]

theorem Orderly.append {calls new : List Call} (h : Orderly calls)
    (hnew : ∀ c ∈ new, c.topic ≠ .watching) : Orderly (calls ++ new) := by
  induction new generalizing calls with
  | nil =>
      rw [List.append_nil]
      exact h
  | cons c later ih =>
      rw [List.append_cons]
      exact ih (h.concat (Call.fits_of_topic (hnew c (.head _)) _)) fun c' hc' =>
        hnew c' (.tail _ hc')

namespace Kernel

variable {base k k' : Kernel} {s s' : SocketId} {t : Topic} {made : List Call}

/-! ## Replay and kernel -/

/-- The calls `made` so far, replayed, say what the kernel has registered. -/
structure Replays (made : List Call) (k : Kernel) : Prop where
  watched_eq : ∀ s, k.Open s → watchedAfter made s = k.isRegistered s
  unmade : ∀ s, k.sockets.length ≤ s → watchedAfter made s = false
  orderly : Orderly made

/-- So do the calls made since `base`. -/
def Tracked (base k : Kernel) : Prop :=
  ∃ made, k.calls.toList = base.calls.toList ++ made ∧ Replays made k

theorem Tracked.newCalls (h : Tracked base k) : Replays (newCalls base k) k := by
  obtain ⟨made, hcalls, hreplays⟩ := h
  rw [Kernel.newCalls, hcalls, List.drop_left]
  exact hreplays

/-- A kernel without sockets needs no calls to be told. -/
theorem Fresh.tracked (h : k.Fresh) : Tracked k k :=
  ⟨[], (List.append_nil _).symm,
    ⟨fun s hs => absurd hs (h.not_open s), fun _ _ => rfl, orderly_nil⟩⟩

/-- `k'` has nothing open that `k` has not, and is no different in what it watches. -/
structure Retains (k k' : Kernel) : Prop where
  length_le : k.sockets.length ≤ k'.sockets.length
  watched : ∀ s, k'.Open s → k.Open s ∧ k'.isRegistered s = k.isRegistered s ∨
    k.sockets.length ≤ s ∧ k'.isRegistered s = false

/-- Calls on other topics. -/
theorem Tracked.adds (h : Tracked base k) (hadds : Adds t k k') (ht : t ≠ .watching)
    (hretains : Retains k k') : Tracked base k' := by
  obtain ⟨made, hcalls, hreplays⟩ := h
  obtain ⟨new, hnew, htopic⟩ := hadds
  have hother : ∀ c ∈ new, c.topic ≠ .watching := fun c hc => htopic c hc ▸ ht
  refine ⟨made ++ new, by rw [hnew, hcalls, List.append_assoc],
    ⟨fun s hs => ?_, fun s hs => ?_, ?_⟩⟩
  · rw [watchedAfter_append hother]
    rcases hretains.watched s hs with ⟨hopen, hsame⟩ | ⟨hlen, hnone⟩
    · rw [hsame, hreplays.watched_eq s hopen]
    · rw [hnone, hreplays.unmade s hlen]
  · rw [watchedAfter_append hother]
    exact hreplays.unmade s (Nat.le_trans hretains.length_le hs)
  · exact hreplays.orderly.append hother

theorem Touches.isRegistered_eq {mine : SocketId → Prop} (h : Touches mine k k') (hs : k.Open s)
    (hm : ¬ mine s) : k'.isRegistered s = k.isRegistered s := by
  rw [Bool.eq_iff_iff, isRegistered_iff, isRegistered_iff, h.descriptor_eq hs.lt_length hm,
    h.watches_eq s hs hm]

theorem SameTable.retains (h : SameTable k k') : Retains k k' where
  length_le := Nat.le_of_eq h.length_eq.symm
  watched s hs := by
    refine .inl ⟨(h.open_iff s).1 hs, ?_⟩
    rw [isRegistered, isRegistered, h.registrations_eq, h.descriptor_eq]

theorem retains_close (hk : k.Sound) (s : SocketId) : Retains k (k.close s) where
  length_le := Nat.le_of_eq (length_close k s).symm
  watched s' hs' := by
    have ⟨hopen, hne⟩ := open_close.1 hs'
    have htouches : Touches (· = s) k (k.close s) := touches_close hk rfl
    exact .inl ⟨hopen, htouches.isRegistered_eq hopen hne⟩

theorem Fails.retains (h : Fails k k') : Retains k k' where
  length_le := h.touches.length_le
  watched s hs := by
    have hopen := (h.open_iff s).1 hs
    exact .inl ⟨hopen, h.touches.isRegistered_eq hopen id⟩

theorem Makes.retains (h : Makes s k k') (hc : k.closeUnregisters = true) : Retains k k' where
  length_le := h.touches.length_le
  watched s' hs' := by
    rcases (h.open_iff s').1 hs' with hopen | rfl
    · exact .inl ⟨hopen, h.touches.isRegistered_eq hopen id⟩
    · exact .inr ⟨Nat.le_of_eq h.fresh.symm, not_isRegistered_iff.2 (h.unwatched hc)⟩

namespace Tracked

theorem sameTable (h : Tracked base k) (hadds : Adds t k k') (ht : t ≠ .watching)
    (hk : SameTable k k') : Tracked base k' :=
  h.adds hadds ht hk.retains

theorem close (h : Tracked base k) (hk : k.Sound) (s : SocketId) : Tracked base (k.close s) :=
  h.adds (t := .opening) (.of_calls_eq (calls_close k s)) (by decide) (retains_close hk s)

theorem openStream (h : Tracked base k) (hk : k.Sound) (hc : k.closeUnregisters = true)
    (address : Address) : Tracked base (k.openStream address).2 := by
  have hadds := adds_openStream k address
  have hopens := opens_openStream hk address
  generalize k.openStream address = r at hadds hopens ⊢
  rcases r with ⟨e | ⟨s, isUp⟩, k'⟩
  · exact h.adds hadds (by decide) (Fails.retains hopens)
  · exact h.adds hadds (by decide) (Makes.retains hopens hc)

/-! ## Calls on registrations -/

/-- A call on socket `s` that is in order. -/
theorem watch (h : Tracked base k) {c : Call} (hcalls : k'.calls = k.calls.push c)
    (hsockets : k'.sockets = k.sockets) (htouches : Touches (· = s) k k')
    (hfits : ∀ watched : SocketId → Bool, watched s = k.isRegistered s → c.Fits watched)
    (hs : k.Open s) (hself : c.watch s (k.isRegistered s) = k'.isRegistered s)
    (hother : ∀ s', s' ≠ s → ∀ watched, c.watch s' watched = watched) : Tracked base k' := by
  obtain ⟨made, hmade, hreplays⟩ := h
  have hlt := hs.lt_length
  refine ⟨made ++ [c], by rw [hcalls, Array.toList_push, hmade, List.append_assoc],
    ⟨fun s' hs' => ?_, fun s' hs' => ?_, ?_⟩⟩
  · have hopen : k.Open s' := (open_congr (congrArg (·[s']?) hsockets)).1 hs'
    rw [watchedAfter_concat]
    by_cases heq : s' = s
    · rw [heq, hreplays.watched_eq s hs, hself]
    · rw [hother s' heq, hreplays.watched_eq s' hopen, htouches.isRegistered_eq hopen heq]
  · rw [hsockets] at hs'
    rw [watchedAfter_concat, hother s' (Nat.ne_of_gt (Nat.lt_of_lt_of_le hlt hs'))]
    exact hreplays.unmade s' hs'
  · exact hreplays.orderly.concat (hfits _ (hreplays.watched_eq s hs))

theorem register (h : Tracked base k) (hk : k.Sound) (hs : k.Open s)
    (hnot : k.isRegistered s = false) (token : Nat) (interest : Interest) :
    Tracked base (k.register s token interest).2 := by
  have htouches : Touches (· = s) k (k.register s token interest).2 :=
    @touches_register k s (· = s) hk hs rfl token interest
  have hfits (v : Verdict) (watched : SocketId → Bool) (hw : watched s = k.isRegistered s) :
      (Call.register s token interest v).Fits watched := hw.trans hnot
  rcases register_cases k s token interest with ⟨vs, hnone, heq⟩ | ⟨e, vs, heq⟩ <;>
    rw [heq] at htouches ⊢
  · refine h.watch rfl rfl htouches (hfits _) hs ?_ fun s' hne watched => ?_
    · rw [Call.watch, beq_self_eq_true, Bool.or_true]
      refine (isRegistered_iff.2 ?_).symm
      show watches (k.registered vs _ _) (k.descriptor s) ≠ []
      rw [watches_register vs _ _ _ hnone]
      exact List.cons_ne_nil _ _
    · rw [Call.watch, beq_false_of_ne (Ne.symm hne), Bool.or_false]
  · exact h.watch rfl rfl htouches (hfits _) hs rfl fun _ _ _ => rfl

theorem reregister (h : Tracked base k) (hk : k.Sound) (hs : k.Open s)
    (hwatched : k.isRegistered s = true) (token : Nat) (interest : Interest) :
    Tracked base (k.reregister s token interest).2 := by
  have htouches : Touches (· = s) k (k.reregister s token interest).2 :=
    @touches_reregister k s (· = s) hk hs rfl token interest
  have hfits (v : Verdict) (watched : SocketId → Bool) (hw : watched s = k.isRegistered s) :
      (Call.reregister s token interest v).Fits watched := hw.trans hwatched
  rcases reregister_cases k s token interest with ⟨vs, hsome, heq⟩ | ⟨e, vs, heq⟩ <;>
    rw [heq] at htouches ⊢
  · refine h.watch rfl rfl htouches (hfits _) hs (hwatched.trans ?_) fun _ _ _ => rfl
    refine (isRegistered_iff.2 ?_).symm
    show watches (k.registered vs _ _) (k.descriptor s) ≠ []
    rw [watches_reregister]
    exact fun hnil => hsome (List.map_eq_nil_iff.1 hnil)
  · exact h.watch rfl rfl htouches (hfits _) hs rfl fun _ _ _ => rfl

theorem deregister (h : Tracked base k) (hk : k.Sound) (hs : k.Open s)
    (hwatched : k.isRegistered s = true) : Tracked base (k.deregister s).2 := by
  have htouches : Touches (· = s) k (k.deregister s).2 := touches_deregister hk hs rfl
  have hfits (v : Verdict) (watched : SocketId → Bool) (hw : watched s = k.isRegistered s) :
      (Call.deregister s v).Fits watched := hw.trans hwatched
  rcases deregister_cases k s with ⟨vs, _, heq⟩ | ⟨e, vs, heq⟩ <;> rw [heq] at htouches ⊢
  · refine h.watch rfl rfl htouches (hfits _) hs ?_ fun s' hne watched => ?_
    · rw [Call.watch, bne_self_eq_false, Bool.and_false]
      refine (not_isRegistered_iff.2 ?_).symm
      exact (watches_registrationsBut k (k.descriptor s)).trans (if_pos rfl)
    · rw [Call.watch, bne_iff_ne.2 (Ne.symm hne), Bool.and_true]
  · exact h.watch rfl rfl htouches (hfits _) hs rfl fun _ _ _ => rfl

end Tracked

end Kernel

end TextLink
