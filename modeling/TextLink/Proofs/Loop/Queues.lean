import Mathlib.Data.List.Basic
import TextLink.Proofs.Loop.Strokes

/-!
# What holds of every queue

A queue changes by what its connection does and by what producers send; nothing else reaches it. So
a property of an empty queue that survives each operation on queues (`SendQueue.Invariant`) holds of
every queue in every scene of a run.

## Main results

* `Started.everyQueue` — the invariants of queues hold in every scene of a run.
-/

namespace TextLink

open Relation (ReflTransGen)

variable {P : SendQueue → Prop}

/-- `P` holds of an empty queue, and every operation keeps it. -/
structure SendQueue.Invariant (P : SendQueue → Prop) : Prop where
  ofLimit (limit : Option Nat) : P (.ofLimit limit)
  bind {q : SendQueue} (token : Nat) : P q → P (q.bind token)
  connecting {q : SendQueue} : P q → P q.connecting.2
  connected {q : SendQueue} (w : Nat) : P q → P (q.connected w)
  close {q : SendQueue} : P q → P q.close.2
  push {q : SendQueue} (k : Kernel) (message : Bytes) : P q → P (q.push k message).2.1
  flush {q : SendQueue} (k : Kernel) : P q → P (q.flush k).2.1

/-! ## Connections -/

namespace Link

theorem Step.keeps_queue {why : Occasion} {l l' : Link} (h : Step why l l')
    (hP : SendQueue.Invariant P) (hl : P l.queue) : P l'.queue := by
  cases h with
  | note | plan | unmade | made | cleared | miss => exact hl
  | suspend =>
      rw [queue_letGo]
      exact hP.connecting hl
  | closeQueue =>
      rw [queue_closeQueue]
      exact hP.close hl
  | release | refused =>
      rw [queue_release]
      exact hl
  | arm _ interest =>
      rw [queue_arm]
      exact hl
  | put =>
      rw [queue_letGo]
      exact hP.connected _ hl
  | begin | establish | shut =>
      rw [queue_setState]
      exact hl
  | take =>
      rw [(takeIn_keeps _ _).2]
      exact hl
  | flush => exact hP.flush l.kernel hl

theorem Steps.keeps_queue {why : Occasion} {l l' : Link} (h : Steps why l l')
    (hP : SendQueue.Invariant P) (hl : P l.queue) : P l'.queue := by
  induction h with
  | refl => exact hl
  | tail _ hstep ih => exact hstep.keeps_queue hP ih

end Link

/-! ## Loops -/

namespace Loop

open Link (Occasion)

variable {allowed : Happening → Prop} {may : Occasion → Loop → Nat → Prop} {l l' : Loop}

/-- `P` holds of every queue. -/
def EveryQueue (P : SendQueue → Prop) (l : Loop) : Prop := ∀ q ∈ l.queues, P q

namespace EveryQueue

theorem queue (h : l.EveryQueue P) (hP : SendQueue.Invariant P) (id : Nat) : P (l.queue id) := by
  unfold Loop.queue
  rcases hq : l.queues[id]? with _ | q
  · exact hP.ofLimit none
  · exact h q (List.mem_of_getElem? hq)

theorem set (h : l.EveryQueue P) {id : Nat} {q : SendQueue} (hq : P q)
    (hqueues : l'.queues = l.queues.set id q) : l'.EveryQueue P := by
  intro q' hq'
  rcases List.mem_or_eq_of_mem_set (hqueues ▸ hq') with hold | rfl
  · exact h q' hold
  · exact hq

theorem modify (h : l.EveryQueue P) {id : Nat} {f : SendQueue → SendQueue} (hf : ∀ q, P q → P (f q))
    (hqueues : l'.queues = l.queues.modify id f) : l'.EveryQueue P := by
  rcases hq : l.queues[id]? with _ | q
  · have hsame : l'.queues = l.queues := by
      rw [hqueues, List.modify_eq_set_getElem?, hq]
      rfl
    exact fun q' hq' => h q' (hsame ▸ hq')
  · have hset : l'.queues = l.queues.set id (f q) := by
      rw [hqueues, List.modify_eq_set_getElem?, hq]
      rfl
    exact h.set (hf q (h q (List.mem_of_getElem? hq))) hset

/-- What a loop does by itself. -/
theorem stroke (h : l.EveryQueue P) (hP : SendQueue.Invariant P) (hstroke : Stroke may l l') :
    l'.EveryQueue P := by
  cases hstroke with
  | @act t c k why _ hk _ _ => exact h.set (hk.keeps_queue hP (h.queue hP c.id)) rfl
  | remove | skip | appoint | note | clear => exact h
  | enrol => exact h.modify (f := fun q => q.bind _) (fun _ => hP.bind _) rfl
  | refuse command =>
      cases command
      case connect => exact h.modify (f := fun q => q.close.2) (fun _ => hP.close) rfl
      all_goals exact h

theorem offered (h : l.EveryQueue P) (hP : SendQueue.Invariant P) (id : Nat) (bytes : Bytes) :
    (l.offered id bytes).EveryQueue P :=
  h.set (hP.push l.kernel bytes (h.queue hP id)) rfl

/-- What producers ask for. -/
theorem request (h : l.EveryQueue P) (hP : SendQueue.Invariant P) (r : Request) :
    (l.request r).2.EveryQueue P := by
  have hasked := asked l r
  generalize (l.request r).2 = l' at hasked ⊢
  cases hasked with
  | refused | told => exact h
  | joined =>
      intro q hq
      rcases List.mem_append.1 hq with hold | hnew
      · exact h q hold
      · rw [List.mem_singleton.1 hnew]
        exact hP.ofLimit _
  | offered id bytes | armed id bytes | stranded id bytes => exact h.offered hP id bytes

theorem advance (h : l.EveryQueue P) (hP : SendQueue.Invariant P) (hl : l.Coherent)
    (hadvance : Advance allowed may l l') : l'.EveryQueue P := by
  cases hadvance with
  | request r => exact h.request hP r
  | happen | beginWait | pass | answer => exact h
  | strokes hstrokes => exact hstrokes.keeps hl (fun _ hstroke h => h.stroke hP hstroke) h

theorem course (h : l.EveryQueue P) (hP : SendQueue.Invariant P) (hl : l.Sound) {m' : Scene}
    (hm : Course allowed ⟨l, [], []⟩ m') : m'.loop.EveryQueue P :=
  hl.keeps (m := ⟨l, [], []⟩) hm (fun hl hadvance h => h.advance hP hl.coherent hadvance) h

end EveryQueue

/-- The invariants of queues hold in every scene of a run. -/
theorem Started.everyQueue (h : l.Started) (hP : SendQueue.Invariant P) {m : Scene}
    (hm : Course allowed ⟨l, [], []⟩ m) : m.loop.EveryQueue P := by
  have hnone : l.EveryQueue P := by
    obtain ⟨config, kernel, _, rfl⟩ := h.eq
    exact fun q hq => absurd hq List.not_mem_nil
  exact hnone.course hP h.sound hm

end Loop

end TextLink
