import Mathlib.Data.List.TakeDrop
import TextLink.Proofs.Kernel.Effects

/-!
# Calls that change the table

Registering, closing and making sockets change the table of descriptors or the registrations. Each
such call concerns one descriptor, and a sound table gives every other open socket another one; so
the registrations of the others stay (`Touches`).

## Main results

* `register_cases`, `reregister_cases`, `deregister_cases` — how a call on registrations goes.
* `touches_close`, `open_close` — closing a socket.
* `opens_openStream` — a new socket that is open and not watched, or no socket.
-/

namespace TextLink.Kernel

variable {k k' : Kernel} {s s' : SocketId} {d token : Nat} {interest : Interest}
  {mine : SocketId → Prop}

/-! ## Registrations -/

/-- What a call on registrations leaves: other verdicts and registrations, and one more call. -/
def registered (k : Kernel) (vs : List (CallName × Verdict)) (rs : List Registration) (c : Call) :
    Kernel :=
  { k with verdicts := vs, registrations := rs }.record c

theorem isRegistered_verdicts (k : Kernel) (vs : List (CallName × Verdict)) (s : SocketId) :
    ({ k with verdicts := vs } : Kernel).isRegistered s = k.isRegistered s :=
  rfl

theorem not_isRegistered_iff : k.isRegistered s = false ↔ k.watches (k.descriptor s) = [] := by
  rw [← Bool.not_eq_true, isRegistered_iff, Classical.not_not]

/-- A socket is watched, which was not; or the call fails. -/
theorem register_cases (k : Kernel) (s : SocketId) (token : Nat) (interest : Interest) :
    (∃ vs, k.watches (k.descriptor s) = [] ∧
      k.register s token interest = (.ok, k.registered vs
        (k.registrations ++ [⟨k.descriptor s, token, interest⟩])
        (.register s token interest .ok))) ∨
    ∃ e vs, k.register s token interest =
      (.fails e, k.registered vs k.registrations (.register s token interest (.fails e))) := by
  unfold register takeVerdict
  rcases splitVerdict .epollCtl k.verdicts with ⟨_ | e, vs⟩
  · simp only [isRegistered_verdicts, true_and]
    rcases hreg : k.isRegistered s with _ | _
    · exact .inl ⟨vs, not_isRegistered_iff.1 hreg, rfl⟩
    · exact .inr ⟨.alreadyExists, vs, rfl⟩
  · exact .inr ⟨e, vs, rfl⟩

/-- The registration of a watched socket is replaced; or the call fails. -/
theorem reregister_cases (k : Kernel) (s : SocketId) (token : Nat) (interest : Interest) :
    (∃ vs, k.watches (k.descriptor s) ≠ [] ∧
      k.reregister s token interest = (.ok, k.registered vs
        (k.registrations.map fun r =>
          if r.descriptor = k.descriptor s then { r with token, interest } else r)
        (.reregister s token interest .ok))) ∨
    ∃ e vs, k.reregister s token interest =
      (.fails e, k.registered vs k.registrations (.reregister s token interest (.fails e))) := by
  unfold reregister takeVerdict
  rcases splitVerdict .epollCtl k.verdicts with ⟨_ | e, vs⟩
  · simp only [isRegistered_verdicts, true_and]
    rcases hreg : k.isRegistered s with _ | _
    · exact .inr ⟨.noEntry, vs, rfl⟩
    · exact .inl ⟨vs, isRegistered_iff.1 hreg, rfl⟩
  · exact .inr ⟨e, vs, rfl⟩

/-- A watched socket is watched no more; or the call fails. -/
theorem deregister_cases (k : Kernel) (s : SocketId) :
    (∃ vs, k.watches (k.descriptor s) ≠ [] ∧
      k.deregister s = (.ok, k.registered vs (k.registrationsBut (k.descriptor s))
        (.deregister s .ok))) ∨
    ∃ e vs, k.deregister s =
      (.fails e, k.registered vs k.registrations (.deregister s (.fails e))) := by
  unfold deregister takeVerdict
  rcases splitVerdict .epollCtl k.verdicts with ⟨_ | e, vs⟩
  · simp only [isRegistered_verdicts, true_and]
    rcases hreg : k.isRegistered s with _ | _
    · exact .inr ⟨.noEntry, vs, rfl⟩
    · exact .inl ⟨vs, isRegistered_iff.1 hreg, rfl⟩
  · exact .inr ⟨e, vs, rfl⟩

/-! ### Calls that go through -/

/-- Whether a call was to change what is watched, and failed. -/
def isRefusal : Call → Bool
  | .register _ _ _ v | .reregister _ _ _ v | .deregister _ v => v != .ok
  | _ => false

/-- No call that was to change what is watched has failed so far. -/
def Obeyed (k : Kernel) : Prop := ∀ c ∈ k.calls.toList, isRefusal c = false

theorem Obeyed.of_prefix (h : k'.Obeyed) (hcalls : k.calls.toList <+: k'.calls.toList) :
    k.Obeyed := fun c hc => h c (hcalls.subset hc)

/-- The calls made on the way from `k` to `k'`. -/
def newCalls (k k' : Kernel) : List Call := k'.calls.toList.drop k.calls.toList.length

theorem newCalls_of_push {c : Call} (h : k'.calls = k.calls.push c) : newCalls k k' = [c] := by
  rw [newCalls, h, Array.toList_push, List.drop_left]

/-- No call on the way from `k` to `k'` that was to change what is watched failed. -/
def Heeded (k k' : Kernel) : Prop := ∀ c ∈ newCalls k k', isRefusal c = false

theorem Obeyed.heeded (h : k'.Obeyed) (k : Kernel) : Heeded k k' := fun c hc =>
  h c (List.mem_of_mem_drop hc)

theorem Heeded.not_refused {vs : List (CallName × Verdict)} {rs : List Registration} {c : Call}
    (h : Heeded k (k.registered vs rs c)) : isRefusal c = false := by
  refine h c ?_
  rw [newCalls_of_push rfl]
  exact List.mem_singleton_self c

theorem Heeded.register (h : Heeded k (k.register s token interest).2) :
    (k.register s token interest).1 = .ok := by
  rcases register_cases k s token interest with ⟨vs, _, hk⟩ | ⟨e, vs, hk⟩
  · rw [hk]
  · rw [hk] at h
    cases h.not_refused

theorem Heeded.reregister (h : Heeded k (k.reregister s token interest).2) :
    (k.reregister s token interest).1 = .ok := by
  rcases reregister_cases k s token interest with ⟨vs, _, hk⟩ | ⟨e, vs, hk⟩
  · rw [hk]
  · rw [hk] at h
    cases h.not_refused

/-! ### What is left alone -/

/-- Registrations change for an open socket only. -/
theorem touches_registered (hk : k.Sound) (hs : k.Open s) (hm : mine s)
    (vs : List (CallName × Verdict)) (rs : List Registration) (c : Call)
    (hrs : ∀ d, d ≠ k.descriptor s → (rs.filter fun r => r.descriptor == d) = k.watches d) :
    Touches mine k (k.registered vs rs c) where
  sound :=
    { distinct := hk.distinct
      taken_lt := hk.taken_lt
      not_spare := hk.not_spare
      spare_nodup := hk.spare_nodup
      spare_lt := hk.spare_lt
      owned := fun hc r hr => by
        by_cases hd : r.descriptor = k.descriptor s
        · exact ⟨s, hs, hd.symm⟩
        · have hmem : r ∈ rs.filter fun x => x.descriptor == r.descriptor :=
            List.mem_filter.2 ⟨hr, beq_self_eq_true _⟩
          rw [hrs _ hd, mem_watches] at hmem
          exact hk.owned hc r hmem.1 }
  length_le := Nat.le_refl _
  socket_eq _ _ _ := rfl
  watches_eq s' hs' hm' := by
    refine hrs _ fun hd => hm' ?_
    rw [hk.distinct s' s hs' hs hd]
    exact hm
  calls_prefix := calls_prefix_record _ c
  clock_eq := rfl
  closeUnregisters_eq := rfl

theorem touches_failed (hk : k.Sound) (vs : List (CallName × Verdict)) (c : Call) :
    Touches mine k (k.registered vs k.registrations c) :=
  (SameTable.touches ⟨rfl, rfl, rfl, rfl, rfl⟩ hk (fun _ _ => rfl) (calls_prefix_record _ c) rfl)

theorem filter_append_single {r : Registration} (rs : List Registration) :
    ((rs ++ [r]).filter fun r => r.descriptor == d) =
      (rs.filter fun r => r.descriptor == d) ++ if r.descriptor = d then [r] else [] := by
  rw [List.filter_append]
  by_cases h : r.descriptor = d <;> simp [h]

/-- Replacing what a descriptor's registrations say replaces it in what watches the descriptor. -/
theorem filter_map_replace (rs : List Registration) (d₀ token : Nat) (interest : Interest) :
    ((rs.map fun r => if r.descriptor = d₀ then { r with token, interest } else r).filter
        fun r => r.descriptor == d) =
      (rs.filter fun r => r.descriptor == d).map fun r =>
        if r.descriptor = d₀ then { r with token, interest } else r := by
  rw [List.filter_map]
  congr 1
  apply List.filter_congr
  intro r _
  by_cases h : r.descriptor = d₀ <;> simp [h]

theorem filter_map_replace_ne (rs : List Registration) {d₀ : Nat} (h : d ≠ d₀) (token : Nat)
    (interest : Interest) :
    ((rs.map fun r => if r.descriptor = d₀ then { r with token, interest } else r).filter
        fun r => r.descriptor == d) = rs.filter fun r => r.descriptor == d := by
  rw [filter_map_replace]
  refine (List.map_congr_left fun r hr => ?_).trans (List.map_id _)
  have hd : r.descriptor = d := by
    simpa using (List.mem_filter.1 hr).2
  rw [if_neg (hd ▸ h)]
  rfl

theorem watches_registrationsBut (k : Kernel) (d₀ : Nat) :
    ((k.registrationsBut d₀).filter fun r => r.descriptor == d) =
      if d = d₀ then [] else k.watches d := by
  rw [registrationsBut, List.filter_filter, watches]
  by_cases h : d = d₀
  · rw [if_pos h, List.filter_eq_nil_iff]
    intro r _
    simp [h]
  · rw [if_neg h]
    apply List.filter_congr
    intro r _
    by_cases hr : r.descriptor = d <;> simp [hr, h]

theorem touches_register (hk : k.Sound) (hs : k.Open s) (hm : mine s) (token : Nat)
    (interest : Interest) : Touches mine k (k.register s token interest).2 := by
  rcases register_cases k s token interest with ⟨vs, _, h⟩ | ⟨e, vs, h⟩
  · rw [h]
    apply touches_registered hk hs hm
    intro d hd
    rw [filter_append_single, if_neg (Ne.symm hd), List.append_nil]
    rfl
  · rw [h]
    exact touches_failed hk vs _

theorem touches_reregister (hk : k.Sound) (hs : k.Open s) (hm : mine s) (token : Nat)
    (interest : Interest) : Touches mine k (k.reregister s token interest).2 := by
  rcases reregister_cases k s token interest with ⟨vs, _, h⟩ | ⟨e, vs, h⟩
  · rw [h]
    apply touches_registered hk hs hm
    intro d hd
    exact filter_map_replace_ne _ hd token interest
  · rw [h]
    exact touches_failed hk vs _

theorem touches_deregister (hk : k.Sound) (hs : k.Open s) (hm : mine s) :
    Touches mine k (k.deregister s).2 := by
  rcases deregister_cases k s with ⟨vs, _, h⟩ | ⟨e, vs, h⟩
  · rw [h]
    apply touches_registered hk hs hm
    intro d hd
    rw [watches_registrationsBut, if_neg hd]
  · rw [h]
    exact touches_failed hk vs _

/-! ### What becomes of the socket -/

theorem open_deregister : (k.deregister s).2.Open s' ↔ k.Open s' := by
  rcases deregister_cases k s with ⟨vs, _, h⟩ | ⟨e, vs, h⟩ <;> rw [h] <;> exact Iff.rfl

theorem watches_register (vs : List (CallName × Verdict)) (c : Call) (token : Nat)
    (interest : Interest) (hnone : k.watches (k.descriptor s) = []) :
    (k.registered vs (k.registrations ++ [⟨k.descriptor s, token, interest⟩]) c).watches
      (k.descriptor s) = [⟨k.descriptor s, token, interest⟩] := by
  refine (filter_append_single _).trans ?_
  rw [if_pos rfl]
  exact congrArg (· ++ _) hnone

theorem watches_reregister (k : Kernel) (vs : List (CallName × Verdict)) (c : Call)
    (s : SocketId) (token : Nat) (interest : Interest) :
    (k.registered vs (k.registrations.map fun r =>
        if r.descriptor = k.descriptor s then { r with token, interest } else r) c).watches
      (k.descriptor s) =
        (k.watches (k.descriptor s)).map fun r => { r with token, interest } := by
  refine (filter_map_replace _ _ token interest).trans ?_
  refine List.map_congr_left fun r hr => ?_
  rw [if_pos (mem_watches.1 hr).2]

/-! ## Closing -/

theorem perm_giveBack (k : Kernel) (d : Nat) :
    (k.giveBack d).spareDescriptors.Perm (d :: k.spareDescriptors) := by
  unfold giveBack
  rw [List.span_eq_takeWhile_dropWhile]
  refine List.perm_middle.trans ?_
  rw [List.takeWhile_append_dropWhile]

theorem close_of_not_open (h : ¬ k.Open s) : k.close s = k := by
  unfold close
  split
  · rfl
  · next sock hs => rw [if_neg fun hopen => h ⟨sock, hs, hopen⟩]

/-- Closing an open socket frees its descriptor, and ends its registration if the kernel does so. -/
theorem close_of_open (h : k.Open s) :
    k.close s =
      { k.giveBack (k.descriptor s) with
        sockets := k.sockets.modify s fun sock => { sock with isOpen := false }
        registrations :=
          if k.closeUnregisters then k.registrationsBut (k.descriptor s)
          else k.registrations } := by
  have ⟨sock, hs, hopen⟩ := h
  have hd : k.descriptor s = sock.descriptor := by
    rw [descriptor, hs]
    rfl
  unfold close
  rw [hs, hd]
  simp only [if_pos hopen]
  rfl

theorem getElem?_close_ne (h : s' ≠ s) : (k.close s).sockets[s']? = k.sockets[s']? := by
  by_cases hs : k.Open s
  · rw [close_of_open hs]
    show (k.sockets.modify s _)[s']? = _
    rw [List.getElem?_modify]
    simp [Ne.symm h]
  · rw [close_of_not_open hs]

theorem open_close : (k.close s).Open s' ↔ k.Open s' ∧ s' ≠ s := by
  by_cases h : s' = s
  · refine iff_of_false ?_ fun hs' => hs'.2 h
    by_cases hs : k.Open s
    · rintro ⟨sock, hsock, hopen⟩
      rw [close_of_open hs, h] at hsock
      simp only [List.getElem?_modify, if_true] at hsock
      rcases hold : k.sockets[s]? with _ | old <;> rw [hold] at hsock
      · cases hsock
      · rw [← Option.some.inj hsock] at hopen
        cases hopen
    · rw [close_of_not_open hs, h]
      exact hs
  · rw [open_congr (getElem?_close_ne h)]
    exact (and_iff_left h).symm

theorem watches_close (hs : k.Open s) (hd : d ≠ k.descriptor s) :
    (k.close s).watches d = k.watches d := by
  rw [close_of_open hs, watches]
  rcases k.closeUnregisters with _ | _
  · rfl
  · exact (watches_registrationsBut k _).trans (if_neg hd)

theorem length_close (k : Kernel) (s : SocketId) :
    (k.close s).sockets.length = k.sockets.length := by
  by_cases hs : k.Open s
  · rw [close_of_open hs]
    exact List.length_modify _ _ _
  · rw [close_of_not_open hs]

theorem descriptor_close (h : s' ≠ s) : (k.close s).descriptor s' = k.descriptor s' :=
  descriptor_congr (getElem?_close_ne h)

theorem perm_spare_close (hs : k.Open s) :
    (k.close s).spareDescriptors.Perm (k.descriptor s :: k.spareDescriptors) := by
  rw [close_of_open hs]
  exact perm_giveBack k (k.descriptor s)

theorem nextDescriptor_close (hs : k.Open s) : (k.close s).nextDescriptor = k.nextDescriptor := by
  rw [close_of_open hs]
  rfl

theorem closeUnregisters_close (hs : k.Open s) :
    (k.close s).closeUnregisters = k.closeUnregisters := by
  rw [close_of_open hs]
  rfl

theorem mem_registrations_close (hs : k.Open s) (hc : k.closeUnregisters = true) {r : Registration}
    (hr : r ∈ (k.close s).registrations) : r ∈ k.registrations ∧ r.descriptor ≠ k.descriptor s := by
  rw [close_of_open hs] at hr
  simp only [hc, if_true, registrationsBut, List.mem_filter, bne_iff_ne] at hr
  exact hr

private theorem sound_close_of_open (hk : k.Sound) (hs : k.Open s) : (k.close s).Sound where
  distinct a b ha hb hd := by
    have ⟨ha, hne⟩ := open_close.1 ha
    have ⟨hb, hne'⟩ := open_close.1 hb
    rw [descriptor_close hne, descriptor_close hne'] at hd
    exact hk.distinct a b ha hb hd
  taken_lt a ha := by
    have ⟨ha, hne⟩ := open_close.1 ha
    rw [descriptor_close hne, nextDescriptor_close hs]
    exact hk.taken_lt a ha
  not_spare a ha hmem := by
    have ⟨ha, hne⟩ := open_close.1 ha
    rw [descriptor_close hne, (perm_spare_close hs).mem_iff, List.mem_cons] at hmem
    rcases hmem with hd | hmem
    · exact hne (hk.distinct a s ha hs hd)
    · exact hk.not_spare a ha hmem
  spare_nodup := by
    rw [(perm_spare_close hs).nodup_iff]
    exact List.nodup_cons.2 ⟨hk.not_spare s hs, hk.spare_nodup⟩
  spare_lt d hd := by
    rw [(perm_spare_close hs).mem_iff, List.mem_cons] at hd
    rw [nextDescriptor_close hs]
    rcases hd with rfl | hd
    · exact hk.taken_lt s hs
    · exact hk.spare_lt d hd
  owned hc r hr := by
    have hc := (closeUnregisters_close hs).symm.trans hc
    have ⟨hmem, hne⟩ := mem_registrations_close hs hc hr
    have ⟨a, ha, hd⟩ := hk.owned hc r hmem
    have has : a ≠ s := fun heq => hne (heq ▸ hd.symm)
    exact ⟨a, open_close.2 ⟨ha, has⟩, (descriptor_close has).trans hd⟩

theorem sound_close (hk : k.Sound) (s : SocketId) : (k.close s).Sound := by
  by_cases hs : k.Open s
  · exact sound_close_of_open hk hs
  · rw [close_of_not_open hs]
    exact hk

theorem touches_close (hk : k.Sound) (hm : mine s) : Touches mine k (k.close s) := by
  by_cases hs : k.Open s
  · constructor
    · exact sound_close hk s
    · exact Nat.le_of_eq (length_close k s).symm
    · intro a _ ha
      exact getElem?_close_ne fun heq => ha (heq ▸ hm)
    · intro a hopen ha
      refine watches_close hs fun hd => ha ?_
      rw [hk.distinct a s hopen hs hd]
      exact hm
    · rw [close_of_open hs]
      exact List.prefix_refl _
    · rw [close_of_open hs]
      rfl
    · exact closeUnregisters_close hs
  · rw [close_of_not_open hs]
    exact .refl hk

/-! ## Making a socket -/

/-- `k'` comes from `k` by making socket `s`, which is open and not watched. -/
structure Makes (s : SocketId) (k k' : Kernel) : Prop where
  touches : Touches (fun _ => False) k k'
  fresh : s = k.sockets.length
  open_iff : ∀ s', k'.Open s' ↔ k.Open s' ∨ s' = s
  unwatched : k.closeUnregisters = true → k'.watches (k'.descriptor s) = []

/-- `k'` comes from `k` by calls that opened and closed nothing that `k` knows. -/
structure Fails (k k' : Kernel) : Prop where
  touches : Touches (fun _ => False) k k'
  open_iff : ∀ s, k'.Open s ↔ k.Open s

/-- Calls on the new socket are calls on none that was there. -/
theorem Makes.touches_trans {k'' : Kernel} (h : Makes s k k') (h' : Touches (· = s) k' k'') :
    Touches (fun _ => False) k k'' :=
  h.touches.trans h' fun _ hs heq => absurd (heq.trans h.fresh) (Nat.ne_of_lt hs)

theorem Makes.serves {k'' : Kernel} (h : Makes s k k') (h' : Serves s k' k'') : Makes s k k'' where
  touches := h.touches_trans (h'.touches h.touches.sound rfl)
  fresh := h.fresh
  open_iff s' := (h'.table.open_iff s').trans (h.open_iff s')
  unwatched hc := by
    rw [h'.table.watches_eq, h'.table.descriptor_eq]
    exact h.unwatched hc

theorem Makes.close (h : Makes s k k') : Fails k (k'.close s) where
  touches := h.touches_trans (touches_close h.touches.sound rfl)
  open_iff s' := by
    rw [open_close, h.open_iff]
    constructor
    · rintro ⟨hs | hs, hne⟩
      · exact hs
      · exact absurd hs hne
    · intro hs
      exact ⟨.inl hs, fun heq => absurd (heq.trans h.fresh) (Nat.ne_of_lt hs.lt_length)⟩

/-- Descriptor `d` is taken, and nothing else has it. -/
structure Takes (d : Nat) (k : Kernel) (spare : List Nat) (next : Nat) : Prop where
  sublist : spare.Sublist k.spareDescriptors
  next_le : k.nextDescriptor ≤ next
  lt_next : d < next
  not_spare : d ∉ spare
  not_open : ∀ s, k.Open s → k.descriptor s ≠ d

theorem takeDescriptor_takes (hk : k.Sound) :
    ∃ d spare next, k.takeDescriptor =
      (d, { k with spareDescriptors := spare, nextDescriptor := next }) ∧
      Takes d k spare next := by
  unfold takeDescriptor
  rcases hspare : k.spareDescriptors with _ | ⟨d, later⟩
  · refine ⟨_, _, _, rfl, ⟨List.nil_sublist _, Nat.le_succ _, Nat.lt_succ_self _,
      List.not_mem_nil, fun s hs => ?_⟩⟩
    exact Nat.ne_of_lt (hk.taken_lt s hs)
  · have hmem : d ∈ k.spareDescriptors := hspare ▸ List.mem_cons_self
    have hnodup := List.nodup_cons.1 (hspare ▸ hk.spare_nodup)
    refine ⟨d, later, _, rfl, ⟨?_, Nat.le_refl _, hk.spare_lt d hmem, hnodup.1, fun s hs hd => ?_⟩⟩
    · rw [hspare]
      exact List.sublist_cons_self d later
    · exact hk.not_spare s hs (hd ▸ hmem)

theorem Takes.sound {spare : List Nat} {next : Nat} (h : Takes d k spare next) (hk : k.Sound) :
    Sound { k with spareDescriptors := spare, nextDescriptor := next } where
  distinct := hk.distinct
  taken_lt s hs := Nat.lt_of_lt_of_le (hk.taken_lt s hs) h.next_le
  not_spare s hs hmem := hk.not_spare s hs (h.sublist.subset hmem)
  spare_nodup := hk.spare_nodup.sublist h.sublist
  spare_lt d hd := Nat.lt_of_lt_of_le (hk.spare_lt d (h.sublist.subset hd)) h.next_le
  owned := hk.owned

/-- Another descriptor is taken. -/
theorem Takes.again {d' : Nat} {spare spare' : List Nat} {next next' : Nat}
    (h : Takes d k spare next)
    (h' : Takes d' { k with spareDescriptors := spare, nextDescriptor := next } spare' next') :
    Takes d k spare' next' where
  sublist := h'.sublist.trans h.sublist
  next_le := Nat.le_trans h.next_le h'.next_le
  lt_next := Nat.lt_of_lt_of_le h.lt_next h'.next_le
  not_spare hmem := h.not_spare (h'.sublist.subset hmem)
  not_open := h.not_open

/-- The kernel with another socket, whose descriptor was taken. -/
def withSocket (k : Kernel) (spare : List Nat) (next : Nat) (sock : Socket) (plans : List Plan) :
    Kernel :=
  { k with
    spareDescriptors := spare
    nextDescriptor := next
    sockets := k.sockets ++ [sock]
    plans := plans }

section WithSocket

variable {spare : List Nat} {next : Nat} {sock : Socket} {plans : List Plan}

theorem length_withSocket :
    (k.withSocket spare next sock plans).sockets.length = k.sockets.length + 1 :=
  List.length_append

theorem getElem?_withSocket (hs : s < k.sockets.length) :
    (k.withSocket spare next sock plans).sockets[s]? = k.sockets[s]? :=
  List.getElem?_append_left hs

theorem getElem?_withSocket_self :
    (k.withSocket spare next sock plans).sockets[k.sockets.length]? = some sock :=
  List.getElem?_concat_length

theorem descriptor_withSocket (hs : k.Open s) :
    (k.withSocket spare next sock plans).descriptor s = k.descriptor s :=
  descriptor_congr (getElem?_withSocket hs.lt_length)

theorem descriptor_withSocket_self :
    (k.withSocket spare next sock plans).descriptor k.sockets.length = sock.descriptor := by
  rw [descriptor, getElem?_withSocket_self]
  rfl

theorem open_withSocket (hopen : sock.isOpen = true) :
    (k.withSocket spare next sock plans).Open s ↔ k.Open s ∨ s = k.sockets.length := by
  rcases Nat.lt_trichotomy s k.sockets.length with hs | hs | hs
  · rw [open_congr (getElem?_withSocket hs)]
    exact (or_iff_left (Nat.ne_of_lt hs)).symm
  · rw [hs]
    exact iff_of_true ⟨sock, getElem?_withSocket_self, hopen⟩ (.inr rfl)
  · constructor
    · intro h
      have hlt := h.lt_length
      rw [length_withSocket] at hlt
      exact absurd (Nat.le_of_lt_succ hlt) (Nat.not_le_of_lt hs)
    · rintro (h | heq)
      · exact absurd h.lt_length (Nat.lt_asymm hs)
      · exact absurd heq (Nat.ne_of_gt hs)

theorem Takes.sound_withSocket (h : Takes sock.descriptor k spare next) (hk : k.Sound)
    (hopen : sock.isOpen = true) : (k.withSocket spare next sock plans).Sound where
  distinct a b ha hb hab := by
    rcases (open_withSocket hopen).1 ha with ha | rfl <;>
      rcases (open_withSocket hopen).1 hb with hb | rfl
    · rw [descriptor_withSocket ha, descriptor_withSocket hb] at hab
      exact hk.distinct a b ha hb hab
    · rw [descriptor_withSocket ha, descriptor_withSocket_self] at hab
      exact absurd hab (h.not_open a ha)
    · rw [descriptor_withSocket hb, descriptor_withSocket_self] at hab
      exact absurd hab.symm (h.not_open b hb)
    · rfl
  taken_lt a ha := by
    rcases (open_withSocket hopen).1 ha with ha | rfl
    · rw [descriptor_withSocket ha]
      exact Nat.lt_of_lt_of_le (hk.taken_lt a ha) h.next_le
    · rw [descriptor_withSocket_self]
      exact h.lt_next
  not_spare a ha := by
    rcases (open_withSocket hopen).1 ha with ha | rfl
    · rw [descriptor_withSocket ha]
      exact fun hmem => hk.not_spare a ha (h.sublist.subset hmem)
    · rw [descriptor_withSocket_self]
      exact h.not_spare
  spare_nodup := hk.spare_nodup.sublist h.sublist
  spare_lt x hx := Nat.lt_of_lt_of_le (hk.spare_lt x (h.sublist.subset hx)) h.next_le
  owned hc r hr := by
    have ⟨a, ha, hda⟩ := hk.owned hc r hr
    exact ⟨a, (open_withSocket hopen).2 (.inl ha), (descriptor_withSocket ha).trans hda⟩

theorem Takes.makes (h : Takes sock.descriptor k spare next) (hk : k.Sound)
    (hopen : sock.isOpen = true) (plans : List Plan) :
    Makes k.sockets.length k (k.withSocket spare next sock plans) where
  touches :=
    { sound := h.sound_withSocket hk hopen
      length_le := length_withSocket ▸ Nat.le_succ _
      socket_eq := fun s hs _ => getElem?_withSocket hs
      watches_eq := fun _ _ _ => rfl
      calls_prefix := List.prefix_refl _
      clock_eq := rfl
      closeUnregisters_eq := rfl }
  fresh := rfl
  open_iff _ := open_withSocket hopen
  unwatched hc := by
    rw [descriptor_withSocket_self, watches, List.filter_eq_nil_iff]
    intro r hr hrd
    obtain ⟨a, ha, hda⟩ := hk.owned hc r hr
    exact h.not_open a ha (hda.trans (eq_of_beq hrd))

end WithSocket

theorem Makes.after {k'' : Kernel} (h : Fails k k') (hlen : k'.sockets.length = k.sockets.length)
    (h' : Makes s k' k'') : Makes s k k'' where
  touches := h.touches.trans h'.touches fun _ _ hf => hf
  fresh := h'.fresh.trans hlen
  open_iff s' := by rw [h'.open_iff, h.open_iff]
  unwatched hc := h'.unwatched (h.touches.closeUnregisters_eq.trans hc)

theorem fails_of_sameTable (hk : k.Sound) (h : SameTable k k') (hs : k'.sockets = k.sockets)
    (hcalls : k.calls.toList <+: k'.calls.toList) (hclock : k'.clock = k.clock) : Fails k k' where
  touches := h.touches hk (fun _ _ => by rw [hs]) hcalls hclock
  open_iff := h.open_iff

theorem serves_takeVerdicts (k : Kernel) (s : SocketId) (cs : List CallName) :
    Serves s k (k.takeVerdicts cs).2 := by
  induction cs generalizing k with
  | nil => exact .refl k
  | cons c cs ih =>
      unfold takeVerdicts takeVerdict
      rcases splitVerdict c k.verdicts with ⟨_ | e, vs⟩
      · exact (serves_verdicts k s vs).trans (ih _)
      · exact serves_verdicts k s vs

/-- How making a socket goes: there is a new one, or nothing has changed. -/
def Opens {α : Type} (number : α → SocketId) (k : Kernel) : Except Errno α × Kernel → Prop
  | (.ok a, k') => Makes (number a) k k'
  | (.error _, k') => Fails k k'

/-- A new socket is set up, or closed again. -/
theorem Makes.opens_setUp (h : Makes s k k') (cs : List CallName) :
    Opens id k
      (match k'.takeVerdicts cs with
      | (.ok, k') => (.ok s, k')
      | (.fails e, k') => (.error e, k'.close s)) := by
  have hserves := serves_takeVerdicts k' s cs
  revert hserves
  rcases k'.takeVerdicts cs with ⟨_ | e, k''⟩ <;> intro hserves
  · exact h.serves hserves
  · exact (h.serves hserves).close

theorem opens_openSocket (hk : k.Sound) (family : Family) : Opens id k (k.openSocket family) := by
  unfold openSocket takeVerdict
  rcases splitVerdict .socket k.verdicts with ⟨_ | e, vs⟩
  · have hsame : Fails k { k with verdicts := vs } :=
      fails_of_sameTable hk ⟨rfl, rfl, rfl, rfl, rfl⟩ rfl (List.prefix_refl _) rfl
    have hsound := hsame.touches.sound
    have ⟨d, spare, next, htake, htakes⟩ := takeDescriptor_takes hsound
    have ⟨d', spare', next', htake', htakes'⟩ := takeDescriptor_takes (htakes.sound hsound)
    simp only [htake, htake']
    let sock : Socket :=
      { descriptor := d, plan := k.plans.headD {}, room := (k.plans.headD {}).room }
    have hboth : Takes sock.descriptor _ spare' next' := htakes.again htakes'
    have hmade := hboth.makes hsound rfl k.plans.tail
    have hrecorded := (Makes.after hsame rfl hmade).serves
      (serves_record _ k.sockets.length (.socket family (.ok k.sockets.length)))
    exact hrecorded.opens_setUp _
  · exact fails_of_sameTable hk ⟨rfl, rfl, rfl, rfl, rfl⟩ rfl (calls_prefix_record _ _) rfl

theorem opens_openStream (hk : k.Sound) (address : Address) :
    Opens Prod.fst k (k.openStream address) := by
  have hsocket := opens_openSocket hk address.family
  unfold openStream
  rcases hopen : k.openSocket address.family with ⟨e | s, k₁⟩
  · rw [hopen] at hsocket
    exact hsocket
  · rw [hopen] at hsocket
    have hconnect := hsocket.serves (serves_connect k₁ s address)
    dsimp only
    generalize k₁.connect s address = r at hconnect ⊢
    rcases r with ⟨e | isUp, k₂⟩
    · exact hconnect.close
    · exact hconnect

end TextLink.Kernel
