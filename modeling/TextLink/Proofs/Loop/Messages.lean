import TextLink.Proofs.Queue.Soundness
import TextLink.Proofs.Loop.Queues

/-!
# No empty message waits

A message without octets is not queued when it is sent, and what is left of a message that
was partly written has an octet yet to go. So a socket that takes octets always gets some, as
long as messages wait.

## Main results

* `Started.worded` — in every scene of a run, whatever waits has octets.
-/

namespace TextLink

/-! ## Queues -/

namespace SendQueue

theorem invariant_worded : Invariant Worded where
  ofLimit _ := List.not_mem_nil
  bind _ h := h
  connecting := worded_connecting
  connected _ h := h
  close _ := List.not_mem_nil
  push k message h := worded_push h k message
  flush k h := worded_flush h k

end SendQueue

/-! ## Loops -/

namespace Loop

open SendQueue (invariant_worded)

variable {allowed : Happening → Prop} {l l' : Loop}

/-- Every message that waits has octets, whatever queue it is in. -/
def Worded (l : Loop) : Prop := ∀ q ∈ l.queues, q.Worded

namespace Worded

theorem queue (h : l.Worded) (id : Nat) : (l.queue id).Worded :=
  EveryQueue.queue h invariant_worded id

theorem set (h : l.Worded) {id : Nat} {q : SendQueue} (hq : q.Worded)
    (hqueues : l'.queues = l.queues.set id q) : l'.Worded :=
  EveryQueue.set h hq hqueues

theorem course (h : l.Worded) (hl : l.Sound) {m' : Scene} (hm : Course allowed ⟨l, [], []⟩ m') :
    m'.loop.Worded :=
  EveryQueue.course h invariant_worded hl hm

end Worded

/-- In every scene of a run, whatever waits has octets. -/
theorem Started.worded (h : l.Started) {m : Scene} (hm : Course allowed ⟨l, [], []⟩ m) :
    m.loop.Worded :=
  h.everyQueue invariant_worded hm

end Loop

end TextLink
