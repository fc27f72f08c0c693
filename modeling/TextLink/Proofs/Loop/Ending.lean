import TextLink.Proofs.Connection.Shape
import TextLink.Proofs.Loop.Coherence

/-!
# How a loop ends

A loop that ends closes its connections one by one, then the queues of those that are only
requested. What is left is coherent, with no connection and no command. The connections need not be
in shape for this, as they may not be after a fault; they only must have begun to connect and not be
closed yet, since closing a closed connection does nothing.

## Main results

* `Ending.closeAll` — closing everything empties the table.
* `Ending.drop` — so does dropping the loop.
-/

namespace TextLink.Loop

variable {l l' : Loop} {t t' id : Nat} {c : Connection}

/-- A coherent loop in which nothing is closed yet. -/
structure Ending (l : Loop) : Prop where
  coherent : l.Coherent
  alive : ∀ t c, l.connections.get? t = some c → c.state.Alive

/-- The loop has no connection. -/
def Vacant (l : Loop) : Prop := ∀ t, l.connections.get? t = none

/-! ## Closing the connections -/

theorem closeSlot_eq (hc : l.connections.get? t = some c) :
    l.closeSlot t = (l.absorb t (l.link c).close).apply t .closed := by
  have hremove (v : Connection) :
      (l.connections.remove t).2.set t v = ((l.connections.set t v).remove t).2 := by
    have hvacant : (l.connections.remove t).2.get? t = none := by
      rw [SlotTable.get?_remove, if_pos rfl]
    rw [SlotTable.set_of_get?_none hvacant, SlotTable.remove_set hc]
  unfold closeSlot
  simp only [hc, absorb, apply, hremove]

theorem get?_closeSlot (l : Loop) (t t' : Nat) : (l.closeSlot t).connections.get? t' =
    if t' = t then none else l.connections.get? t' := by
  rcases hc : l.connections.get? t with _ | c
  · unfold closeSlot
    rw [hc]
    by_cases ht : t' = t
    · rw [if_pos ht, ht, hc]
    · rw [if_neg ht]
  · rw [closeSlot_eq hc]
    refine SlotTable.get?_remove.trans ?_
    by_cases ht : t' = t
    · rw [if_pos ht, if_pos ht]
    · rw [if_neg ht, if_neg ht, get?_absorb hc, if_neg ht]

theorem get?_closeSlots (tokens : List Nat)
    (h : t ∈ tokens ∨ l.connections.get? t = none) :
    (tokens.foldl Loop.closeSlot l).connections.get? t = none := by
  induction tokens generalizing l with
  | nil => exact h.resolve_left List.not_mem_nil
  | cons token later ih =>
      apply ih
      rw [get?_closeSlot]
      by_cases heq : t = token
      · exact .inr (if_pos heq)
      · rw [if_neg heq]
        exact h.imp_left fun hmem => (List.mem_cons.1 hmem).resolve_left heq

namespace Ending

theorem closeSlot (h : l.Ending) (t : Nat) : (l.closeSlot t).Ending := by
  rcases hc : l.connections.get? t with _ | c
  · unfold Loop.closeSlot
    rw [hc]
    exact h
  · have hleads : Link.Leads (l.link c) (l.link c).close :=
      (Link.Leaves.refl (h.coherent.lives hc).link).close
    have ⟨hsocket, hwriter⟩ := Link.holdsNone_close (l := l.link c) (h.alive t c hc).ne_closed
    have hself : (l.absorb t (l.link c).close).connections.get? t = some (l.link c).close.conn :=
      get?_absorb_self hc
    have hqueue : ((l.absorb t (l.link c).close).queue (l.link c).close.conn.id).writer = none := by
      rw [h.coherent.queue_self hc hleads]
      exact hwriter
    constructor
    · rw [closeSlot_eq hc]
      exact (h.coherent.absorb hc hleads).remove hself hsocket hqueue
    · intro t' c' hc'
      rw [get?_closeSlot] at hc'
      by_cases ht : t' = t
      · rw [if_pos ht] at hc'
        cases hc'
      · rw [if_neg ht] at hc'
        exact h.alive t' c' hc'

theorem closeSlots (h : l.Ending) (tokens : List Nat) :
    (tokens.foldl Loop.closeSlot l).Ending := by
  induction tokens generalizing l with
  | nil => exact h
  | cons token later ih => exact ih (h.closeSlot token)

end Ending

/-! ## Closing the queues of the requested -/

theorem refuse_channel (l : Loop) (c : Command) :
    { l.refuse c with channel := [] } = refuse { l with channel := [] } c := by
  cases c <;> rfl

theorem refuseAll_channel (commands : List Command) :
    { commands.foldl refuse l with channel := [] } =
      commands.foldl refuse { l with channel := [] } := by
  induction commands generalizing l with
  | nil => rfl
  | cons c later ih =>
      rw [List.foldl_cons, List.foldl_cons, ih, refuse_channel]

/-- Refusing a request concerns the queues alone. -/
theorem exists_refuse (l : Loop) (c : Command) :
    ∃ queues, queues.length = l.queues.length ∧ l.refuse c = { l with queues } := by
  cases c with
  | connect id => exact ⟨_, List.length_modify _ _ _, rfl⟩
  | flush | close | shutdown => exact ⟨_, rfl, rfl⟩

theorem exists_refuseAll (l : Loop) (commands : List Command) : ∃ queues,
    queues.length = l.queues.length ∧ commands.foldl Loop.refuse l = { l with queues } := by
  induction commands generalizing l with
  | nil => exact ⟨_, rfl, rfl⟩
  | cons c later ih =>
      obtain ⟨queues, hlen, hrefuse⟩ := exists_refuse l c
      obtain ⟨queues', hlen', hrefused⟩ := ih { l with queues }
      refine ⟨queues', hlen'.trans hlen, ?_⟩
      rw [List.foldl_cons, hrefuse, hrefused]

/-- What closing everything comes to, but for the queues of the requested. -/
theorem exists_closeAll (l : Loop) : ∃ queues, l.closeAll =
    { l.connections.keys.foldl Loop.closeSlot l with agenda := .empty, queues, channel := [] } := by
  unfold Loop.closeAll
  simp only
  generalize l.connections.keys.foldl Loop.closeSlot l = l₁
  obtain ⟨queues, -, hrefused⟩ := exists_refuseAll { l₁ with agenda := .empty } l₁.channel
  exact ⟨queues, by rw [hrefused]⟩

theorem connections_refuse (l : Loop) (c : Command) :
    (l.refuse c).connections = l.connections := by
  cases c <;> rfl

theorem channel_refuse (l : Loop) (c : Command) : (l.refuse c).channel = l.channel := by
  cases c <;> rfl

theorem Vacant.unowned (h : l.Vacant) (id : Nat) : l.Unowned id := fun t c hc _ => by
  rw [h t] at hc
  cases hc

theorem Coherent.refuse (h : l.Coherent) (hvacant : l.Vacant) (hchannel : l.channel = [])
    (c : Command) : (l.refuse c).Coherent := by
  cases c with
  | flush id | close id | shutdown => exact h
  | connect id address handler options =>
      have hqueue (id' : Nat) : (l.refuse (.connect id address handler options)).queue id' =
          if id' = id ∧ id < l.queues.length then (l.queue id).close.2 else l.queue id' :=
        queue_modify l fun q => q.close.2
      have hlen : l.queues.length ≤
          (l.refuse (.connect id address handler options)).queues.length :=
        Nat.le_of_eq (List.length_modify _ _ _).symm
      have hnone : requestedIds (l.refuse (.connect id address handler options)).channel = [] := by
        rw [channel_refuse, hchannel]
        rfl
      refine h.frame rfl hlen (.refl _) (fun id' _ => ?_) (fun id' => ?_) ?_ (fun id' hmem => ?_)
        h.ended
      · rw [hqueue]
        split
        · next heq => rw [heq.1]; rfl
        · rfl
      · rw [hqueue, h.idle id' (hvacant.unowned id')]
        split
        · rfl
        · exact h.idle id' (hvacant.unowned id')
      · rw [hnone]
        exact List.nodup_nil
      · rw [hnone] at hmem
        cases hmem

theorem Coherent.refuseAll (h : l.Coherent) (hvacant : l.Vacant) (hchannel : l.channel = [])
    (commands : List Command) :
    (commands.foldl Loop.refuse l).Coherent ∧ (commands.foldl Loop.refuse l).Vacant := by
  induction commands generalizing l with
  | nil => exact ⟨h, hvacant⟩
  | cons c later ih =>
      refine ih (h.refuse hvacant hchannel c) (fun t => ?_) ((channel_refuse l c).trans hchannel)
      rw [connections_refuse]
      exact hvacant t

/-! ## Ending -/

theorem vacant_closeSlots (l : Loop) : (l.connections.keys.foldl Loop.closeSlot l).Vacant := by
  intro t
  apply get?_closeSlots
  rcases hc : l.connections.get? t with _ | c
  · exact .inr rfl
  · exact .inl (SlotTable.mem_keys_iff.2 ⟨c, hc⟩)

theorem Ending.closeAll (h : l.Ending) : l.closeAll.Coherent ∧ l.closeAll.Vacant := by
  have hending := h.closeSlots l.connections.keys
  have hvacant := vacant_closeSlots l
  unfold Loop.closeAll
  simp only
  generalize l.connections.keys.foldl Loop.closeSlot l = l₁ at hending hvacant ⊢
  have hcoherent : Coherent { l₁ with agenda := .empty, channel := [] } :=
    hending.coherent.change rfl rfl (.refl _) (List.nil_sublist _)
      fun _ => ⟨hvacant, rfl⟩
  rw [refuseAll_channel]
  exact hcoherent.refuseAll hvacant rfl l₁.channel

/-- A loop without connections may be gone. -/
theorem Coherent.finish (h : l.Coherent) (hvacant : l.Vacant) : l.finish.Coherent :=
  h.change rfl rfl (.refl _) (List.nil_sublist _) fun _ => ⟨hvacant, rfl⟩

theorem Ending.drop (h : l.Ending) : l.drop.Coherent ∧ l.drop.Vacant := by
  unfold Loop.drop
  by_cases hempty : l.connections.isEmpty
  · have hvacant : l.Vacant := (SlotTable.isEmpty_iff h.coherent.table).1 hempty
    rw [if_pos hempty]
    exact ⟨h.coherent.finish hvacant, hvacant⟩
  · have ⟨hcoherent, hvacant⟩ := h.closeAll
    rw [if_neg hempty]
    exact ⟨hcoherent.finish hvacant, hvacant⟩

end TextLink.Loop
