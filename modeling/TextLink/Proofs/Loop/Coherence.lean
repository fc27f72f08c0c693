import TextLink.Loop.Action
import TextLink.Proofs.Connection.Reach
import TextLink.Proofs.Slots

/-!
# A coherent loop

The loop holds every connection twice: in its slot, and as the owner of a queue; and a connection
holds sockets, of which the kernel has its own table. `Coherent` says how these fit together. A
slot's connection has the slot as its token, and its queue is bound to the slot. No two connections
hold the same socket, and every open socket is held by one. A connection that is requested owns no
slot yet.

A connection acts on its own slot, queue and sockets only (`Link.Leads`), so taking over what it has
become keeps the loop coherent, even after a fault.

## Main results

* `Coherent.absorb` — taking over what a connection has become.
* `Coherent.remove`, `Coherent.enrol` — connections that go and come.
-/

namespace TextLink.Loop

variable {l l' : Loop} {t t' id id' : Nat} {c c' : Connection} {s : SocketId} {k : Link}

/-- The numbers of the connections requested by commands. -/
def requestedIds (commands : List Command) : List Nat :=
  commands.filterMap fun
    | .connect id .. => some id
    | _ => none

/-- Connection number `id` has no slot. -/
def Unowned (l : Loop) (id : Nat) : Prop := ∀ t c, l.connections.get? t = some c → c.id ≠ id

/-- Connection `c` lives in slot `t`, and its queue is bound to the slot. -/
structure Lives (l : Loop) (t : Nat) (c : Connection) : Prop where
  token_eq : c.token = t
  id_lt : c.id < l.queues.length
  bound : (l.queue c.id).token = some t
  link : (l.link c).Sound

/-- Connection number `id` was requested, and nothing was done about it. -/
structure Awaits (l : Loop) (id : Nat) : Prop where
  id_lt : id < l.queues.length
  state : (l.queue id).state = .disconnected
  token : (l.queue id).token = none

/-- The table of connections, the queues, the channel and the kernel fit together. -/
structure Coherent (l : Loop) : Prop where
  table : l.connections.Sound
  lives : ∀ {t c}, l.connections.get? t = some c → l.Lives t c
  requested_nodup : (requestedIds l.channel).Nodup
  requested : ∀ id ∈ requestedIds l.channel, l.Awaits id
  kernel : l.kernel.Sound
  /-- No two connections hold the same socket. -/
  apart : ∀ t t' c c' s, l.connections.get? t = some c → l.connections.get? t' = some c' →
    (l.link c).holds s → (l.link c').holds s → t = t'
  /-- Every open socket is held. -/
  kept : ∀ s, l.kernel.Open s → ∃ t c, l.connections.get? t = some c ∧ (l.link c).holds s
  idle : ∀ id, l.Unowned id → (l.queue id).writer = none
  ended : l.ended = true → (∀ t, l.connections.get? t = none) ∧ l.channel = []

namespace Coherent

/-- A queue has one owner. -/
theorem slot_eq (h : l.Coherent) (hc : l.connections.get? t = some c)
    (hc' : l.connections.get? t' = some c') (hid : c.id = c'.id) : t = t' := by
  have hbound := (h.lives hc).bound
  rw [hid, (h.lives hc').bound] at hbound
  exact (Option.some.inj hbound).symm

theorem unowned_of_requested (h : l.Coherent) (hid : id ∈ requestedIds l.channel) :
    l.Unowned id := by
  intro t c hc heq
  have hbound := (h.lives hc).bound
  rw [heq, (h.requested id hid).token] at hbound
  cases hbound

/-- Connection number `c.id` is found in its slot. -/
theorem find?_eq (h : l.Coherent) (hc : l.connections.get? t = some c) :
    l.find? c.id = some (t, c) := by
  simp [find?, (h.lives hc).bound, hc]

theorem unowned_of_find?_eq_none (h : l.Coherent) (hid : l.find? id = none) : l.Unowned id := by
  intro t c hc heq
  rw [← heq, h.find?_eq hc] at hid
  cases hid

theorem get?_of_find? {id : Nat} (h : l.find? id = some (t, c)) :
    l.connections.get? t = some c := by
  simp only [find?, Option.bind_eq_bind, Option.bind_eq_some_iff] at h
  obtain ⟨t', _, c', hc', hif⟩ := h
  split at hif
  · cases hif
    exact hc'
  · cases hif

end Coherent

/-! ## Queues by number -/

theorem queue_set (l : Loop) (q : SendQueue) :
    queue { l with queues := l.queues.set id q } id' =
      if id' = id ∧ id < l.queues.length then q else l.queue id' := by
  unfold queue
  rw [List.getElem?_set]
  by_cases hid : id = id'
  · by_cases hlt : id < l.queues.length
    · simp [hid, hid ▸ hlt]
    · simp [hid, hid ▸ hlt]
  · simp [hid, Ne.symm hid]

theorem queue_modify (l : Loop) (f : SendQueue → SendQueue) :
    queue { l with queues := l.queues.modify id f } id' =
      if id' = id ∧ id < l.queues.length then f (l.queue id) else l.queue id' := by
  unfold queue
  rw [List.getElem?_modify]
  by_cases hid : id = id'
  · by_cases hlt : id < l.queues.length
    · simp [← hid, hlt]
    · simp [← hid, hlt]
  · simp [hid, Ne.symm hid]

theorem queue_append (l : Loop) (q : SendQueue) :
    queue { l with queues := l.queues ++ [q] } id' =
      if id' = l.queues.length then q else l.queue id' := by
  unfold queue
  rcases Nat.lt_trichotomy id' l.queues.length with hid | hid | hid
  · rw [List.getElem?_append_left hid, if_neg (Nat.ne_of_lt hid)]
  · simp [hid]
  · rw [if_neg (Nat.ne_of_gt hid), List.getElem?_append_right (Nat.le_of_lt hid),
      List.getElem?_eq_none (Nat.le_of_lt hid), List.getElem?_eq_none]
    rw [List.length_singleton]
    omega

/-- A connection keeps the sockets it holds while its queue writes to the same one. -/
theorem holds_link (hw : (l'.queue c.id).writer = (l.queue c.id).writer) :
    (l'.link c).holds s = (l.link c).holds s :=
  Link.holds_congr rfl hw

/-! ## Changes that concern no connection -/

theorem Lives.frame (h : l.Lives t c) (hlen : l.queues.length ≤ l'.queues.length)
    (hk : l.kernel.SameTable l'.kernel) (htoken : (l'.queue c.id).token = (l.queue c.id).token)
    (hwriter : (l'.queue c.id).writer = (l.queue c.id).writer) : l'.Lives t c where
  token_eq := h.token_eq
  id_lt := Nat.lt_of_lt_of_le h.id_lt hlen
  bound := htoken.trans h.bound
  link := h.link.sameTable hk rfl hwriter

theorem Awaits.congr (h : l.Awaits id) (hlen : l.queues.length ≤ l'.queues.length)
    (hstate : (l'.queue id).state = (l.queue id).state)
    (htoken : (l'.queue id).token = (l.queue id).token) : l'.Awaits id :=
  ⟨Nat.lt_of_lt_of_le h.id_lt hlen, hstate.trans h.state, htoken.trans h.token⟩

/-- The connections stay, with what they hold; the requests may change. -/
theorem Coherent.frame (h : l.Coherent) (hconnections : l'.connections = l.connections)
    (hlen : l.queues.length ≤ l'.queues.length) (hk : l.kernel.SameTable l'.kernel)
    (htoken : ∀ id, id < l.queues.length → (l'.queue id).token = (l.queue id).token)
    (hwriter : ∀ id, (l'.queue id).writer = (l.queue id).writer)
    (hnodup : (requestedIds l'.channel).Nodup)
    (hrequested : ∀ id ∈ requestedIds l'.channel, l'.Awaits id)
    (hended : l'.ended = true → (∀ t, l'.connections.get? t = none) ∧ l'.channel = []) :
    l'.Coherent where
  table := hconnections ▸ h.table
  lives hc := by
    have hlives := h.lives (hconnections ▸ hc)
    exact hlives.frame hlen hk (htoken _ hlives.id_lt) (hwriter _)
  requested_nodup := hnodup
  requested := hrequested
  kernel := hk.sound h.kernel
  apart t t' c c' s hc hc' hs hs' := by
    rw [holds_link (hwriter _)] at hs hs'
    exact h.apart t t' c c' s (hconnections ▸ hc) (hconnections ▸ hc') hs hs'
  kept s hs := by
    have ⟨t, c, hc, hheld⟩ := h.kept s ((hk.open_iff s).1 hs)
    refine ⟨t, c, hconnections ▸ hc, ?_⟩
    rw [holds_link (hwriter _)]
    exact hheld
  idle id hid := by
    rw [hwriter]
    exact h.idle id fun t c hc => hid t c (hconnections ▸ hc)
  ended := hended

/-- Commands are taken, or what no other part of the loop depends on changes. -/
theorem Coherent.change (h : l.Coherent) (hconnections : l'.connections = l.connections)
    (hqueues : l'.queues = l.queues) (hk : l.kernel.SameTable l'.kernel)
    (hsub : (requestedIds l'.channel).Sublist (requestedIds l.channel))
    (hended : l'.ended = true → (∀ t, l'.connections.get? t = none) ∧ l'.channel = []) :
    l'.Coherent := by
  have hqueue (id : Nat) : l'.queue id = l.queue id := by rw [queue, queue, hqueues]
  have hlen : l.queues.length ≤ l'.queues.length :=
    Nat.le_of_eq (congrArg List.length hqueues).symm
  have hrequested : ∀ id ∈ requestedIds l'.channel, l'.Awaits id := by
    intro id hid
    have hawaits := h.requested id (hsub.subset hid)
    exact hawaits.congr hlen (by rw [hqueue]) (by rw [hqueue])
  exact h.frame hconnections hlen hk (fun id _ => by rw [hqueue]) (fun id => by rw [hqueue])
    (h.requested_nodup.sublist hsub) hrequested hended

/-- A connection is requested under the next number. -/
theorem Coherent.request (h : l.Coherent) (hconnections : l'.connections = l.connections)
    {limit : Option Nat} (hlen : l'.queues.length = l.queues.length + 1)
    (hq : ∀ id, l'.queue id = if id = l.queues.length then .ofLimit limit else l.queue id)
    (hk : l.kernel.SameTable l'.kernel)
    (hids : requestedIds l'.channel = requestedIds l.channel ++ [l.queues.length])
    (hended : l'.ended = false) : l'.Coherent := by
  have hle : l.queues.length ≤ l'.queues.length := hlen ▸ Nat.le_succ _
  have hold {id : Nat} (hlt : id < l.queues.length) : l'.queue id = l.queue id := by
    rw [hq, if_neg (Nat.ne_of_lt hlt)]
  have hnew : l'.queue l.queues.length = .ofLimit limit := by rw [hq, if_pos rfl]
  refine h.frame hconnections hle hk (fun id hlt => by rw [hold hlt]) (fun id => ?_) ?_
    (fun id hid => ?_) fun hended' => ?_
  · by_cases hid : id = l.queues.length
    · rw [hid, hnew, queue, List.getElem?_eq_none (Nat.le_refl _)]
      rfl
    · rw [hq, if_neg hid]
  · rw [hids, List.nodup_append]
    refine ⟨h.requested_nodup, List.pairwise_singleton _ _, fun a ha b hb => ?_⟩
    rw [List.mem_singleton.1 hb]
    exact Nat.ne_of_lt (h.requested a ha).id_lt
  · rw [hids, List.mem_append, List.mem_singleton] at hid
    rcases hid with hid | rfl
    · have hawaits := h.requested id hid
      have hqueue := hold hawaits.id_lt
      exact hawaits.congr hle (by rw [hqueue]) (by rw [hqueue])
    · constructor
      · rw [hlen]
        exact Nat.lt_succ_self _
      · rw [hnew]
        rfl
      · rw [hnew]
        rfl
  · cases hended.symm.trans hended'

/-! ## Taking over what a connection has become -/

theorem get?_absorb (hc : l.connections.get? t = some c) :
    (l.absorb t k).connections.get? t' = if t' = t then some k.conn else l.connections.get? t' :=
  SlotTable.get?_set hc

theorem get?_absorb_self (hc : l.connections.get? t = some c) :
    (l.absorb t k).connections.get? t = some k.conn :=
  (get?_absorb hc).trans (if_pos rfl)

/-- A slot holds what it held, but for the connection that has acted. -/
theorem slot_absorb (hc : l.connections.get? t = some c)
    (hc' : (l.absorb t k).connections.get? t' = some c') :
    t' = t ∧ c' = k.conn ∨ t' ≠ t ∧ l.connections.get? t' = some c' := by
  rw [get?_absorb hc] at hc'
  by_cases ht : t' = t
  · rw [if_pos ht] at hc'
    exact .inl ⟨ht, (Option.some.inj hc').symm⟩
  · rw [if_neg ht] at hc'
    exact .inr ⟨ht, hc'⟩

theorem queue_absorb (hid : k.conn.id < l.queues.length) :
    (l.absorb t k).queue id' = if id' = k.conn.id then k.queue else l.queue id' := by
  refine (queue_set l k.queue).trans ?_
  by_cases h : id' = k.conn.id
  · rw [if_pos ⟨h, hid⟩, if_pos h]
  · rw [if_neg fun hboth => h hboth.1, if_neg h]

theorem id_eq (hk : Link.Leads (l.link c) k) : k.conn.id = c.id :=
  congrArg (·.1) hk.identity_eq

namespace Coherent

variable (h : l.Coherent) (hc : l.connections.get? t = some c) (hk : Link.Leads (l.link c) k)

include h hc hk

theorem queue_self : (l.absorb t k).queue k.conn.id = k.queue := by
  have hlt : k.conn.id < l.queues.length := id_eq hk ▸ (h.lives hc).id_lt
  rw [queue_absorb hlt, if_pos rfl]

theorem link_self : (l.absorb t k).link k.conn = k := by
  unfold Loop.link
  rw [h.queue_self hc hk]
  rfl

theorem queue_other (hc' : l.connections.get? t' = some c') (hne : t' ≠ t) :
    (l.absorb t k).queue c'.id = l.queue c'.id := by
  have hlt : k.conn.id < l.queues.length := id_eq hk ▸ (h.lives hc).id_lt
  rw [queue_absorb hlt, if_neg]
  exact fun heq => hne (h.slot_eq hc' hc (heq.trans (id_eq hk)))

theorem queue_unowned (hid : l.Unowned id) : (l.absorb t k).queue id = l.queue id := by
  have hlt : k.conn.id < l.queues.length := id_eq hk ▸ (h.lives hc).id_lt
  rw [queue_absorb hlt, if_neg]
  exact fun heq => hid t c hc ((id_eq hk).symm.trans heq.symm)

omit h in
theorem unowned_of_absorb (hid : (l.absorb t k).Unowned id) : l.Unowned id := by
  intro t' c' hc' heq
  by_cases ht : t' = t
  · subst ht
    have hcc : c = c' := Option.some.inj (hc.symm.trans hc')
    refine hid t' k.conn ?_ ((id_eq hk).trans (hcc ▸ heq))
    exact get?_absorb_self hc
  · refine hid t' c' ?_ heq
    rw [get?_absorb hc, if_neg ht]
    exact hc'

omit hk in
/-- The others hold none of what the connection held. -/
theorem not_holds (hc' : l.connections.get? t' = some c') (hne : t' ≠ t)
    (hs : (l.link c').holds s) : ¬ (l.link c).holds s := fun hs' =>
  hne (h.apart t' t c' c s hc' hc hs hs')

/-- The connection has come to hold nothing of what others hold. -/
theorem not_holds_after (hc' : l.connections.get? t' = some c') (hne : t' ≠ t)
    (hs : (l.link c').holds s) : ¬ k.holds s := by
  intro hs'
  rcases hk.held s hs' with hheld | hlen
  · exact h.not_holds hc hc' hne hs hheld
  · have hopen : l.kernel.Open s := (h.lives hc').link.open_of_holds s hs
    exact Nat.not_le_of_lt hopen.lt_length hlen

theorem holds_other (hc' : l.connections.get? t' = some c') (hne : t' ≠ t) :
    ((l.absorb t k).link c').holds s = (l.link c').holds s :=
  holds_link (congrArg SendQueue.writer (h.queue_other hc hk hc' hne))

theorem lives_absorb (hc' : (l.absorb t k).connections.get? t' = some c') :
    (l.absorb t k).Lives t' c' := by
  have hlen : (l.absorb t k).queues.length = l.queues.length := List.length_set
  rcases slot_absorb hc hc' with ⟨rfl, rfl⟩ | ⟨hne, hc'⟩
  · have hlives := h.lives hc
    constructor
    · have htoken : k.conn.token = c.token := congrArg (·.2.1) hk.identity_eq
      exact htoken.trans hlives.token_eq
    · rw [hlen, id_eq hk]
      exact hlives.id_lt
    · have hqtoken : k.queue.token = (l.queue c.id).token := congrArg (·.1) hk.queue_identity_eq
      rw [h.queue_self hc hk, hqtoken]
      exact hlives.bound
    · rw [h.link_self hc hk]
      exact hk.sound
  · have hlives := h.lives hc'
    have hqueue := h.queue_other hc hk hc' hne
    constructor
    · exact hlives.token_eq
    · rw [hlen]
      exact hlives.id_lt
    · rw [hqueue]
      exact hlives.bound
    · exact hlives.link.of_touches hk.touches (fun s hs => h.not_holds hc hc' hne hs) rfl
        (congrArg SendQueue.writer hqueue)

/-- No two connections have come to hold the same socket. -/
theorem apart_absorb {t₁ t₂ : Nat} {c₁ c₂ : Connection}
    (h₁ : (l.absorb t k).connections.get? t₁ = some c₁)
    (h₂ : (l.absorb t k).connections.get? t₂ = some c₂)
    (hs₁ : ((l.absorb t k).link c₁).holds s) (hs₂ : ((l.absorb t k).link c₂).holds s) :
    t₁ = t₂ := by
  rcases slot_absorb hc h₁ with ⟨ht₁, rfl⟩ | ⟨hne₁, h₁⟩ <;>
    rcases slot_absorb hc h₂ with ⟨ht₂, rfl⟩ | ⟨hne₂, h₂⟩
  · exact ht₁.trans ht₂.symm
  · rw [h.link_self hc hk] at hs₁
    rw [h.holds_other hc hk h₂ hne₂] at hs₂
    exact absurd hs₁ (h.not_holds_after hc hk h₂ hne₂ hs₂)
  · rw [h.link_self hc hk] at hs₂
    rw [h.holds_other hc hk h₁ hne₁] at hs₁
    exact absurd hs₂ (h.not_holds_after hc hk h₁ hne₁ hs₁)
  · rw [h.holds_other hc hk h₁ hne₁] at hs₁
    rw [h.holds_other hc hk h₂ hne₂] at hs₂
    exact h.apart t₁ t₂ c₁ c₂ s h₁ h₂ hs₁ hs₂

/-- Every open socket is held still, by the connection that has acted or by the one
it was held by. -/
theorem kept_absorb (hs : k.kernel.Open s) : ∃ t' c',
    (l.absorb t k).connections.get? t' = some c' ∧ ((l.absorb t k).link c').holds s := by
  rcases hk.kept s hs with hheld | hnone | ⟨hopen, hnot⟩
  · have hself : (l.absorb t k).connections.get? t = some k.conn :=
      get?_absorb_self hc
    refine ⟨t, k.conn, hself, ?_⟩
    rw [h.link_self hc hk]
    exact hheld
  · cases hnone
  · have ⟨t', c', hc', hheld⟩ := h.kept s hopen
    have hne : t' ≠ t := by
      intro heq
      subst heq
      have hcc : c = c' := Option.some.inj (hc.symm.trans hc')
      exact hnot (hcc ▸ hheld)
    refine ⟨t', c', ?_, ?_⟩
    · rw [get?_absorb hc, if_neg hne]
      exact hc'
    · rw [h.holds_other hc hk hc' hne]
      exact hheld

/-- A connection that has acted leaves the loop coherent. -/
theorem absorb : (l.absorb t k).Coherent where
  table := h.table.set t k.conn
  lives hc' := h.lives_absorb hc hk hc'
  requested_nodup := h.requested_nodup
  requested id hid := by
    have hqueue := h.queue_unowned hc hk (h.unowned_of_requested hid)
    have hlen : l.queues.length ≤ (l.absorb t k).queues.length := Nat.le_of_eq List.length_set.symm
    exact (h.requested id hid).congr hlen (by rw [hqueue]) (by rw [hqueue])
  kernel := hk.sound.kernel
  apart _ _ _ _ _ h₁ h₂ hs₁ hs₂ := h.apart_absorb hc hk h₁ h₂ hs₁ hs₂
  kept _ hs := h.kept_absorb hc hk hs
  idle id hid := by
    have hid := unowned_of_absorb hc hk hid
    rw [h.queue_unowned hc hk hid]
    exact h.idle id hid
  ended hended := by
    have hnone := (h.ended hended).1 t
    rw [hc] at hnone
    cases hnone

end Coherent

/-! ## Connections that go and come -/

theorem slot_remove {connections : SlotTable Connection}
    (hc : (connections.remove t).2.get? t' = some c) : t' ≠ t ∧ connections.get? t' = some c := by
  rw [SlotTable.get?_remove] at hc
  by_cases ht : t' = t
  · rw [if_pos ht] at hc
    cases hc
  · rw [if_neg ht] at hc
    exact ⟨ht, hc⟩

/-- A connection that holds nothing may go. -/
theorem Coherent.remove (h : l.Coherent) (hc : l.connections.get? t = some c)
    (hs : c.socket = none) (hw : (l.queue c.id).writer = none) :
    Coherent { l with connections := (l.connections.remove t).2 } where
  table := h.table.remove t
  lives hc' := by
    have ⟨htoken, hlt, hbound, hlink⟩ := h.lives (slot_remove hc').2
    exact ⟨htoken, hlt, hbound, hlink⟩
  requested_nodup := h.requested_nodup
  requested id hid := by
    have ⟨hlt, hstate, htoken⟩ := h.requested id hid
    exact ⟨hlt, hstate, htoken⟩
  kernel := h.kernel
  apart t₁ t₂ c₁ c₂ s h₁ h₂ := h.apart t₁ t₂ c₁ c₂ s (slot_remove h₁).2 (slot_remove h₂).2
  kept s hopen := by
    have ⟨t', c', hc', hheld⟩ := h.kept s hopen
    refine ⟨t', c', ?_, hheld⟩
    rw [SlotTable.get?_remove, if_neg]
    · exact hc'
    · intro heq
      subst heq
      have hcc : c' = c := Option.some.inj (hc'.symm.trans hc)
      rw [hcc] at hheld
      rcases Link.holds_iff.1 hheld with hsocket | hwriter
      · cases hs.symm.trans hsocket
      · cases hw.symm.trans hwriter
  idle id hid := by
    by_cases heq : c.id = id
    · exact heq ▸ hw
    · refine h.idle id fun t' c' hc' heq' => ?_
      by_cases ht : t' = t
      · subst ht
        have hcc : c' = c := Option.some.inj (hc'.symm.trans hc)
        exact heq (hcc ▸ heq')
      · refine hid t' c' ?_ heq'
        show (l.connections.remove t).2.get? t' = some c'
        rw [SlotTable.get?_remove, if_neg ht]
        exact hc'
  ended hended := by
    have hnone := (h.ended hended).1 t
    rw [hc] at hnone
    cases hnone

/-- The loop with a slot for connection number `id`, which `make` makes for its slot. -/
def enrol (l : Loop) (id : Nat) (make : Nat → Connection) : Loop :=
  { l with
    connections := (l.connections.insertWith make).2
    queues := l.queues.modify id (·.bind (l.connections.insertWith make).1) }

theorem get?_enrol (h : l.connections.Sound) (make : Nat → Connection) :
    (l.enrol id make).connections.get? t =
      if t = (l.connections.insertWith make).1 then some (make t) else l.connections.get? t :=
  (SlotTable.get?_insertWith h make).2 t

theorem get?_enrol_self (h : l.connections.Sound) (id : Nat) (make : Nat → Connection) :
    (l.enrol id make).connections.get? (l.connections.insertWith make).1 =
      some (make (l.connections.insertWith make).1) := by
  rw [get?_enrol h, if_pos rfl]

theorem get?_enrol_other (h : l.connections.Sound) {id : Nat} {make : Nat → Connection}
    (hc : l.connections.get? t = some c) : (l.enrol id make).connections.get? t = some c := by
  rw [get?_enrol h, if_neg]
  · exact hc
  · intro heq
    rw [heq, (SlotTable.get?_insertWith h make).1] at hc
    cases hc

/-- A slot holds what it held, but for the new connection. -/
theorem slot_enrol (h : l.connections.Sound) {id : Nat} {make : Nat → Connection}
    (hc : (l.enrol id make).connections.get? t = some c) :
    t = (l.connections.insertWith make).1 ∧ c = make t ∨
      t ≠ (l.connections.insertWith make).1 ∧ l.connections.get? t = some c := by
  rw [get?_enrol h] at hc
  by_cases ht : t = (l.connections.insertWith make).1
  · rw [if_pos ht] at hc
    exact .inl ⟨ht, (Option.some.inj hc).symm⟩
  · rw [if_neg ht] at hc
    exact .inr ⟨ht, hc⟩

theorem queue_enrol (hlt : id < l.queues.length) (make : Nat → Connection) :
    (l.enrol id make).queue id' =
      if id' = id then (l.queue id).bind (l.connections.insertWith make).1 else l.queue id' := by
  refine (queue_modify l _).trans ?_
  by_cases heq : id' = id
  · rw [if_pos ⟨heq, hlt⟩, if_pos heq]
  · rw [if_neg fun hboth => heq hboth.1, if_neg heq]

theorem state_queue_enrol (hlt : id < l.queues.length) (make : Nat → Connection) :
    ((l.enrol id make).queue id).state = (l.queue id).state := by
  rw [queue_enrol hlt, if_pos rfl]
  rfl

theorem queue_enrol_other (hlt : id < l.queues.length) (hid : l.Unowned id)
    (make : Nat → Connection) (hc : l.connections.get? t = some c) :
    (l.enrol id make).queue c.id = l.queue c.id := by
  rw [queue_enrol hlt, if_neg (hid t c hc)]

theorem holds_enrol_other (hlt : id < l.queues.length) (hid : l.Unowned id)
    (make : Nat → Connection) (hc : l.connections.get? t = some c) :
    ((l.enrol id make).link c).holds s = (l.link c).holds s :=
  holds_link (congrArg SendQueue.writer (queue_enrol_other hlt hid make hc))

/-- What a connection is made from that was requested under number `id`. -/
structure Newborn (id : Nat) (make : Nat → Connection) : Prop where
  id_eq : ∀ t, (make t).id = id
  token_eq : ∀ t, (make t).token = t
  state : ∀ t, (make t).state = .disconnected
  socket : ∀ t, (make t).socket = none
  registered : ∀ t, (make t).registered = none

namespace Coherent

variable {make : Nat → Connection} (h : l.Coherent) (hid : l.Unowned id) (hawaits : l.Awaits id)
  (hmake : Newborn id make)

include h hid hawaits hmake

/-- A new connection holds nothing. -/
theorem not_holds_enrol : ¬ ((l.enrol id make).link (make t)).holds s := by
  intro hheld
  rcases Link.holds_iff.1 hheld with hs | hs
  · cases (hmake.socket t).symm.trans hs
  · have hwriter : ((l.enrol id make).queue (make t).id).writer = none := by
      rw [hmake.id_eq, queue_enrol hawaits.id_lt, if_pos rfl]
      exact h.idle id hid
    cases hwriter.symm.trans hs

theorem lives_enrol (hc : (l.enrol id make).connections.get? t = some c) :
    (l.enrol id make).Lives t c := by
  have hlen : (l.enrol id make).queues.length = l.queues.length := List.length_modify _ _ _
  rcases slot_enrol h.table hc with ⟨ht, rfl⟩ | ⟨_, hc⟩
  · constructor
    · exact hmake.token_eq t
    · rw [hlen, hmake.id_eq]
      exact hawaits.id_lt
    · rw [hmake.id_eq, queue_enrol hawaits.id_lt, if_pos rfl, SendQueue.bind, hawaits.token, ht]
      rfl
    · exact ⟨h.kernel, fun s hs => absurd hs (h.not_holds_enrol hid hawaits hmake),
        .of_none (hmake.socket t) (hmake.registered t)⟩
  · have hqueue := queue_enrol_other hawaits.id_lt hid make hc
    exact (h.lives hc).frame (Nat.le_of_eq hlen.symm) (.refl _) (congrArg SendQueue.token hqueue)
      (congrArg SendQueue.writer hqueue)

/-- A requested connection gets a slot. -/
theorem enrol (hnot : id ∉ requestedIds l.channel) (hended : l.ended = false) :
    (l.enrol id make).Coherent where
  table := h.table.insertWith make
  lives hc := h.lives_enrol hid hawaits hmake hc
  requested_nodup := h.requested_nodup
  requested id' hmem := by
    have hne : id' ≠ id := fun heq => hnot (heq ▸ hmem)
    have hqueue : (l.enrol id make).queue id' = l.queue id' := by
      rw [queue_enrol hawaits.id_lt, if_neg hne]
    have hlen : l.queues.length ≤ (l.enrol id make).queues.length :=
      Nat.le_of_eq (List.length_modify _ _ _).symm
    exact (h.requested id' hmem).congr hlen (by rw [hqueue]) (by rw [hqueue])
  kernel := h.kernel
  apart t₁ t₂ c₁ c₂ s h₁ h₂ hs₁ hs₂ := by
    rcases slot_enrol h.table h₁ with ⟨_, rfl⟩ | ⟨_, h₁⟩
    · exact absurd hs₁ (h.not_holds_enrol hid hawaits hmake)
    · rcases slot_enrol h.table h₂ with ⟨_, rfl⟩ | ⟨_, h₂⟩
      · exact absurd hs₂ (h.not_holds_enrol hid hawaits hmake)
      · rw [holds_enrol_other hawaits.id_lt hid make h₁] at hs₁
        rw [holds_enrol_other hawaits.id_lt hid make h₂] at hs₂
        exact h.apart t₁ t₂ c₁ c₂ s h₁ h₂ hs₁ hs₂
  kept s hs := by
    have ⟨t, c, hc, hheld⟩ := h.kept s hs
    refine ⟨t, c, get?_enrol_other h.table hc, ?_⟩
    rw [holds_enrol_other hawaits.id_lt hid make hc]
    exact hheld
  idle id' hid' := by
    have hne : id' ≠ id := by
      intro heq
      exact hid' _ _ (get?_enrol_self h.table id make) ((hmake.id_eq _).trans heq.symm)
    rw [queue_enrol hawaits.id_lt, if_neg hne]
    exact h.idle id' fun t c hc => hid' t c (get?_enrol_other h.table hc)
  ended hended' := by
    cases hended.symm.trans hended'

end Coherent

end TextLink.Loop
