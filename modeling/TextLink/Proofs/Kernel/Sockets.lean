import TextLink.Kernel.Waiting
import TextLink.Kernel.Outside

/-!
# What calls do to sockets and registrations

A descriptor names one open socket at a time, and a registration goes by descriptor.
`Sound` says what keeps the two apart: open sockets have different descriptors, and none of
these is to be handed out.

Most calls and everything that happens outside leave the table of descriptors alone (`SameTable`).
The others change it for the socket they are made on; what they do to all others is nothing
(`Touches`). Calls on sockets of one connection therefore never show on those of another.

## Main results

* `SameTable.sound` — a sound table stays sound while nothing in it changes.
* `Touches.trans` — calls on sockets of one holder, one after the other.
-/

namespace TextLink.Kernel

/-! ## Descriptors -/

/-- Socket `s` is open. -/
def Open (k : Kernel) (s : SocketId) : Prop :=
  ∃ sock, k.sockets[s]? = some sock ∧ sock.isOpen = true

/-- The registrations of descriptor `d`. -/
def watches (k : Kernel) (d : Nat) : List Registration :=
  k.registrations.filter fun r => r.descriptor == d

/-- Descriptors name sockets, and registrations belong to sockets. -/
structure Sound (k : Kernel) : Prop where
  distinct : ∀ s s', k.Open s → k.Open s' → k.descriptor s = k.descriptor s' → s = s'
  taken_lt : ∀ s, k.Open s → k.descriptor s < k.nextDescriptor
  not_spare : ∀ s, k.Open s → k.descriptor s ∉ k.spareDescriptors
  spare_nodup : k.spareDescriptors.Nodup
  spare_lt : ∀ d ∈ k.spareDescriptors, d < k.nextDescriptor
  /-- Where closing ends registrations, none outlives its socket. -/
  owned : k.closeUnregisters = true →
    ∀ r ∈ k.registrations, ∃ s, k.Open s ∧ k.descriptor s = r.descriptor

variable {k k' k'' : Kernel} {s s' : SocketId} {d : Nat} {mine mine' : SocketId → Prop}

theorem Open.lt_length (h : k.Open s) : s < k.sockets.length := by
  have ⟨sock, hs, _⟩ := h
  exact (List.getElem?_eq_some_iff.1 hs).1

theorem open_congr (h : k'.sockets[s]? = k.sockets[s]?) : k'.Open s ↔ k.Open s := by
  rw [Open, Open, h]

theorem descriptor_congr (h : k'.sockets[s]? = k.sockets[s]?) :
    k'.descriptor s = k.descriptor s := by
  rw [descriptor, descriptor, h]

theorem mem_watches {r : Registration} :
    r ∈ k.watches d ↔ r ∈ k.registrations ∧ r.descriptor = d := by
  rw [watches, List.mem_filter, beq_iff_eq]

theorem isRegistered_iff : k.isRegistered s = true ↔ k.watches (k.descriptor s) ≠ [] := by
  rw [isRegistered, watches, List.any_eq_true, Ne, List.filter_eq_nil_iff]
  simp

/-! ## The same table -/

/-- What the table of descriptors says of a socket. -/
def place (sock : Socket) : Nat × Bool := (sock.descriptor, sock.isOpen)

theorem open_iff_place : k.Open s ↔ ∃ d, (k.sockets.map place)[s]? = some (d, true) := by
  rw [Open, List.getElem?_map]
  rcases k.sockets[s]? with _ | sock
  · simp
  · simp [place]

theorem descriptor_eq_place :
    k.descriptor s = ((k.sockets.map place)[s]?.map Prod.fst).getD 0 := by
  rw [descriptor, List.getElem?_map, Option.map_map]
  rfl

/-- `k'` has the descriptors and the registrations of `k`. -/
structure SameTable (k k' : Kernel) : Prop where
  places_eq : k'.sockets.map place = k.sockets.map place
  registrations_eq : k'.registrations = k.registrations
  spare_eq : k'.spareDescriptors = k.spareDescriptors
  next_eq : k'.nextDescriptor = k.nextDescriptor
  closeUnregisters_eq : k'.closeUnregisters = k.closeUnregisters

namespace SameTable

theorem refl (k : Kernel) : SameTable k k := ⟨rfl, rfl, rfl, rfl, rfl⟩

theorem trans (h : SameTable k k') (h' : SameTable k' k'') : SameTable k k'' where
  places_eq := h'.places_eq.trans h.places_eq
  registrations_eq := h'.registrations_eq.trans h.registrations_eq
  spare_eq := h'.spare_eq.trans h.spare_eq
  next_eq := h'.next_eq.trans h.next_eq
  closeUnregisters_eq := h'.closeUnregisters_eq.trans h.closeUnregisters_eq

theorem length_eq (h : SameTable k k') : k'.sockets.length = k.sockets.length := by
  have hplaces := congrArg List.length h.places_eq
  rwa [List.length_map, List.length_map] at hplaces

theorem open_iff (h : SameTable k k') (s : SocketId) : k'.Open s ↔ k.Open s := by
  rw [open_iff_place, open_iff_place, h.places_eq]

theorem descriptor_eq (h : SameTable k k') (s : SocketId) : k'.descriptor s = k.descriptor s := by
  rw [descriptor_eq_place, descriptor_eq_place, h.places_eq]

theorem watches_eq (h : SameTable k k') (d : Nat) : k'.watches d = k.watches d := by
  rw [watches, watches, h.registrations_eq]

theorem sound (h : SameTable k k') (hk : k.Sound) : k'.Sound where
  distinct s s' hs hs' hd := by
    rw [h.descriptor_eq, h.descriptor_eq] at hd
    exact hk.distinct s s' ((h.open_iff s).1 hs) ((h.open_iff s').1 hs') hd
  taken_lt s hs := by
    rw [h.descriptor_eq, h.next_eq]
    exact hk.taken_lt s ((h.open_iff s).1 hs)
  not_spare s hs := by
    rw [h.descriptor_eq, h.spare_eq]
    exact hk.not_spare s ((h.open_iff s).1 hs)
  spare_nodup := by
    rw [h.spare_eq]
    exact hk.spare_nodup
  spare_lt := by
    rw [h.spare_eq, h.next_eq]
    exact hk.spare_lt
  owned hc r hr := by
    rw [h.closeUnregisters_eq] at hc
    rw [h.registrations_eq] at hr
    have ⟨s, hs, hd⟩ := hk.owned hc r hr
    exact ⟨s, (h.open_iff s).2 hs, (h.descriptor_eq s).trans hd⟩

end SameTable

/-- A kernel over which nothing was done yet. -/
structure Fresh (k : Kernel) : Prop where
  sockets : k.sockets = []
  registrations : k.registrations = []
  spare : k.spareDescriptors = []

theorem Fresh.not_open (h : k.Fresh) (s : SocketId) : ¬ k.Open s := by
  rintro ⟨sock, hs, _⟩
  rw [h.sockets] at hs
  cases hs

theorem Fresh.sound (h : k.Fresh) : k.Sound where
  distinct s _ hs := absurd hs (h.not_open s)
  taken_lt s hs := absurd hs (h.not_open s)
  not_spare s hs := absurd hs (h.not_open s)
  spare_nodup := h.spare ▸ List.nodup_nil
  spare_lt d hd := by
    rw [h.spare] at hd
    cases hd
  owned _ r hr := by
    rw [h.registrations] at hr
    cases hr

theorem Fresh.sameTable (h : k.Fresh) (hk : SameTable k k') : k'.Fresh where
  sockets := by
    have hlen := hk.length_eq
    rw [h.sockets] at hlen
    exact List.length_eq_zero_iff.1 hlen
  registrations := hk.registrations_eq.trans h.registrations
  spare := hk.spare_eq.trans h.spare

/-- A change of a socket that leaves its descriptor and its being open alone. -/
theorem map_place_modify (sockets : List Socket) (s : SocketId) {f : Socket → Socket}
    (hf : ∀ sock, place (f sock) = place sock) :
    (sockets.modify s f).map place = sockets.map place := by
  apply List.ext_getElem?
  intro i
  rw [List.getElem?_map, List.getElem?_map, List.getElem?_modify]
  by_cases hi : s = i <;> rcases sockets[i]? with _ | sock <;> simp [hi, hf]

theorem map_place_set {sockets : List Socket} {sock sock' : Socket} (h : sockets[s]? = some sock)
    (hplace : place sock' = place sock) : (sockets.set s sock').map place = sockets.map place := by
  have hs := (List.getElem?_eq_some_iff.1 h).1
  apply List.ext_getElem?
  intro i
  rw [List.getElem?_map, List.getElem?_map]
  by_cases hi : s = i
  · rw [← hi, List.getElem?_set_self hs, h]
    exact congrArg some hplace
  · rw [List.getElem?_set_ne hi]

/-! ## What is left alone -/

/--
`k'` comes from `k` by calls on the sockets `mine`, and on new ones.

Nothing shows on the other sockets, nor on the registrations of those that are open.
-/
structure Touches (mine : SocketId → Prop) (k k' : Kernel) : Prop where
  sound : k'.Sound
  length_le : k.sockets.length ≤ k'.sockets.length
  socket_eq : ∀ s, s < k.sockets.length → ¬ mine s → k'.sockets[s]? = k.sockets[s]?
  watches_eq : ∀ s, k.Open s → ¬ mine s → k'.watches (k.descriptor s) = k.watches (k.descriptor s)
  calls_prefix : k.calls.toList <+: k'.calls.toList
  clock_eq : k'.clock = k.clock
  closeUnregisters_eq : k'.closeUnregisters = k.closeUnregisters

namespace Touches

theorem refl (hk : k.Sound) : Touches mine k k :=
  ⟨hk, Nat.le_refl _, fun _ _ _ => rfl, fun _ _ _ => rfl, List.prefix_refl _, rfl, rfl⟩

theorem open_iff (h : Touches mine k k') (hs : s < k.sockets.length) (hm : ¬ mine s) :
    k'.Open s ↔ k.Open s :=
  open_congr (h.socket_eq s hs hm)

theorem descriptor_eq (h : Touches mine k k') (hs : s < k.sockets.length) (hm : ¬ mine s) :
    k'.descriptor s = k.descriptor s :=
  descriptor_congr (h.socket_eq s hs hm)

theorem trans (h : Touches mine k k') (h' : Touches mine' k' k'')
    (hmine : ∀ s, s < k.sockets.length → mine' s → mine s) : Touches mine k k'' where
  sound := h'.sound
  length_le := Nat.le_trans h.length_le h'.length_le
  socket_eq s hs hm := by
    have hm' : ¬ mine' s := fun hs' => hm (hmine s hs hs')
    rw [h'.socket_eq s (Nat.lt_of_lt_of_le hs h.length_le) hm', h.socket_eq s hs hm]
  watches_eq s hs hm := by
    have hm' : ¬ mine' s := fun hs' => hm (hmine s hs.lt_length hs')
    have hopen := (h.open_iff hs.lt_length hm).2 hs
    have hwatches := h'.watches_eq s hopen hm'
    rw [h.descriptor_eq hs.lt_length hm] at hwatches
    rw [hwatches, h.watches_eq s hs hm]
  calls_prefix := h.calls_prefix.trans h'.calls_prefix
  clock_eq := h'.clock_eq.trans h.clock_eq
  closeUnregisters_eq := h'.closeUnregisters_eq.trans h.closeUnregisters_eq

theorem mono (h : Touches mine k k') (hmine : ∀ s, mine s → mine' s) : Touches mine' k k' :=
  { h with
    socket_eq := fun s hs hm => h.socket_eq s hs fun hs' => hm (hmine s hs')
    watches_eq := fun s hs hm => h.watches_eq s hs fun hs' => hm (hmine s hs') }

end Touches

/-- A call that leaves the table alone, on a single socket. -/
theorem SameTable.touches (h : SameTable k k') (hk : k.Sound)
    (hother : ∀ s, ¬ mine s → k'.sockets[s]? = k.sockets[s]?)
    (hcalls : k.calls.toList <+: k'.calls.toList) (hclock : k'.clock = k.clock) :
    Touches mine k k' where
  sound := h.sound hk
  length_le := Nat.le_of_eq h.length_eq.symm
  socket_eq s _ hm := hother s hm
  watches_eq _ _ _ := h.watches_eq _
  calls_prefix := hcalls
  clock_eq := hclock
  closeUnregisters_eq := h.closeUnregisters_eq

theorem calls_prefix_record (k : Kernel) (c : Call) :
    k.calls.toList <+: (k.record c).calls.toList := by
  rw [record, Array.toList_push]
  exact List.prefix_append _ _

end TextLink.Kernel
