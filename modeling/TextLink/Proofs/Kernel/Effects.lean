import Mathlib.Logic.Relation
import TextLink.Proofs.Kernel.Sockets
import TextLink.Proofs.Queue.Outcomes

/-!
# Calls that leave the table alone

Most calls on a socket neither close it nor change how it is watched (`Serves`), and waiting changes
no socket at all (`Idles`). What happens outside changes sockets without a call.

## Main results

* `serves_flush`, `serves_push` — a queue that writes to a socket.
* `idles_poll` — waiting for readiness.
* `sameTable_happen` — what happens outside.
-/

namespace TextLink.Kernel

variable {k k' k'' : Kernel} {s s' : SocketId} {d token : Nat} {interest : Interest}
  {mine : SocketId → Prop}

/-! ## Calls that leave the table alone -/

/-- `k'` comes from `k` by calls on socket `s` that leave the table alone. -/
structure Serves (s : SocketId) (k k' : Kernel) : Prop where
  table : SameTable k k'
  socket_eq : ∀ s', s' ≠ s → k'.sockets[s']? = k.sockets[s']?
  calls_prefix : k.calls.toList <+: k'.calls.toList
  clock_eq : k'.clock = k.clock

namespace Serves

theorem refl (k : Kernel) : Serves s k k :=
  ⟨.refl k, fun _ _ => rfl, List.prefix_refl _, rfl⟩

theorem trans (h : Serves s k k') (h' : Serves s k' k'') : Serves s k k'' where
  table := h.table.trans h'.table
  socket_eq s' hs := (h'.socket_eq s' hs).trans (h.socket_eq s' hs)
  calls_prefix := h.calls_prefix.trans h'.calls_prefix
  clock_eq := h'.clock_eq.trans h.clock_eq

theorem touches (h : Serves s k k') (hk : k.Sound) (hm : mine s) : Touches mine k k' :=
  h.table.touches hk (fun _ hs' => h.socket_eq _ fun heq => hs' (heq ▸ hm)) h.calls_prefix
    h.clock_eq

end Serves

theorem serves_send (k : Kernel) (s : SocketId) (bytes : Bytes) :
    Serves s k (k.send s bytes).2 := by
  unfold send
  split
  · exact .refl k
  · next sock hs =>
    have hplace : place (sock.send bytes).2 = place sock := by
      unfold Socket.send
      repeat' split
      all_goals rfl
    refine ⟨⟨map_place_set hs hplace, rfl, rfl, rfl, rfl⟩, fun s' hs' => ?_, ?_, rfl⟩
    · exact List.getElem?_set_ne (Ne.symm hs')
    · exact calls_prefix_record _ _

theorem serves_receive (k : Kernel) (s : SocketId) (size : Nat) :
    Serves s k (k.receive s size).2 := by
  unfold receive
  split
  · exact .refl k
  · next sock hs =>
    have hplace : place (sock.receive size).2 = place sock := by
      unfold Socket.receive
      repeat' split
      all_goals rfl
    refine ⟨⟨map_place_set hs hplace, rfl, rfl, rfl, rfl⟩, fun s' hs' => ?_, ?_, rfl⟩
    · exact List.getElem?_set_ne (Ne.symm hs')
    · exact calls_prefix_record _ _

theorem serves_updateSocket (k : Kernel) (s : SocketId) {f : Socket → Socket}
    (hf : ∀ sock, place (f sock) = place sock) : Serves s k (k.updateSocket s f) := by
  refine ⟨⟨map_place_modify _ _ hf, rfl, rfl, rfl, rfl⟩, fun s' hs' => ?_, List.prefix_refl _, rfl⟩
  show (k.sockets.modify s f)[s']? = _
  rw [List.getElem?_modify]
  simp [Ne.symm hs']

theorem serves_record (k : Kernel) (s : SocketId) (c : Call) : Serves s k (k.record c) :=
  ⟨⟨rfl, rfl, rfl, rfl, rfl⟩, fun _ _ => rfl, calls_prefix_record k c, rfl⟩

theorem serves_verdicts (k : Kernel) (s : SocketId) (vs : List (CallName × Verdict)) :
    Serves s k { k with verdicts := vs } :=
  ⟨⟨rfl, rfl, rfl, rfl, rfl⟩, fun _ _ => rfl, List.prefix_refl _, rfl⟩

theorem place_complete (sock : Socket) (v : Verdict) : place (sock.complete v) = place sock := by
  unfold Socket.complete
  split <;> rfl

theorem place_connect (sock : Socket) : place sock.connect = place sock := by
  unfold Socket.connect
  split
  · rfl
  · split
    · rfl
    · exact place_complete _ _
  · split
    · rfl
    · exact place_complete _ _
  · split
    · rfl
    · exact place_complete _ _
  · rfl

theorem serves_connect (k : Kernel) (s : SocketId) (a : Address) :
    Serves s k (k.connect s a).2 := by
  have hstep (c : Call) : Serves s k ((k.updateSocket s Socket.connect).record c) :=
    (serves_updateSocket k s place_connect).trans (serves_record _ s c)
  unfold connect
  split
  · exact .refl k
  · next sock _ => cases sock.plan.connect <;> exact hstep _

theorem serves_takeError (k : Kernel) (s : SocketId) : Serves s k (k.takeError s).2 := by
  unfold takeError takeVerdict
  rcases splitVerdict .getsockopt k.verdicts with ⟨_ | e, vs⟩
  · have hclear : Serves s { k with verdicts := vs }
        ({ k with verdicts := vs }.updateSocket s fun sock => { sock with error := none }) :=
      serves_updateSocket _ s fun _ => rfl
    exact ((serves_verdicts k s vs).trans hclear).trans (serves_record _ s _)
  · exact (serves_verdicts k s vs).trans (serves_record _ s _)

theorem serves_of_receive {s : SocketId} {size : Nat} {r : Except Errno Bytes}
    (h : k.receive s size = (r, k')) : Serves s k k' := by
  have hserves := serves_receive k s size
  rwa [h] at hserves

theorem serves_of_takeError {s : SocketId} {r : Except Errno (Option Errno)}
    (h : k.takeError s = (r, k')) : Serves s k k' := by
  have hserves := serves_takeError k s
  rwa [h] at hserves

/-! ### A queue that writes to a socket -/

open Relation (ReflTransGen)

/-- `k'` comes from `k` by sends on socket `s`. -/
abbrev Sends (s : SocketId) : Kernel → Kernel → Prop :=
  ReflTransGen fun k k' => ∃ bytes, k' = (k.send s bytes).2

theorem sends_send (k : Kernel) (s : SocketId) (bytes : Bytes) : Sends s k (k.send s bytes).2 :=
  .single ⟨bytes, rfl⟩

theorem sends_writeOnce (k : Kernel) (s : SocketId) (bytes : Bytes) :
    Sends s k (Medium.writeOnce k s bytes).2 := by
  have hwrite (k : Kernel) : Sends s k (Medium.write k s bytes).2 := sends_send k s bytes
  fun_induction Medium.writeOnce k s bytes with
  | case1 k n hn => exact hwrite k
  | case2 k e he hk ih => exact (hwrite k).trans ih
  | case3 k e he hk => exact hwrite k

theorem sends_of_writeOnce {bytes : Bytes} {answer : Except IoError Nat}
    (h : Medium.writeOnce k s bytes = (answer, k')) : Sends s k k' := by
  have hsends := sends_writeOnce k s bytes
  rwa [h] at hsends

theorem sends_flushes {w : SocketId} {waiting : List Bytes} {q : SendQueue}
    {result : Except FlushFailure Flushed × SendQueue × Kernel}
    (h : SendQueue.Flushes w waiting q k result) : Sends w k result.2.2 := by
  induction h with
  | drained => exact .refl
  | whole _ hwrite _ ih => exact (sends_of_writeOnce hwrite).trans ih
  | nothing hwrite | part _ _ hwrite | blocked _ hwrite | torn _ _ hwrite | kept _ _ hwrite =>
      exact sends_of_writeOnce hwrite

/-- Flushing sends to what the queue writes to. -/
theorem sends_flush {q : SendQueue} {w : SocketId} (k : Kernel) (hw : q.writer = some w) :
    Sends w k (q.flush k).2.2 :=
  sends_flushes (SendQueue.flushes_of_flush k hw)

/-- Pushing sends to what the queue writes to, or not at all. -/
theorem sends_push (q : SendQueue) (k : Kernel) (message : Bytes) :
    (q.push k message).2.2 = k ∨
      ∃ w, q.writer = some w ∧ Sends w k (q.push k message).2.2 := by
  have hpushes := SendQueue.pushes q k message
  generalize q.push k message = result at hpushes ⊢
  cases hpushes with
  | refused _ | empty _ _ | queued _ _ _ => exact .inl rfl
  | whole _ _ hw _ _ hwrite | part _ _ hw _ _ hwrite _ | failed _ _ hw _ _ hwrite =>
      exact .inr ⟨_, hw, sends_of_writeOnce hwrite⟩

theorem Sends.serves (h : Sends s k k') : Serves s k k' := by
  induction h with
  | refl => exact .refl k
  | tail _ hsend ih =>
      obtain ⟨bytes, rfl⟩ := hsend
      exact ih.trans (serves_send _ s bytes)

theorem serves_of_writeOnce {bytes : Bytes} {answer : Except IoError Nat}
    (h : Medium.writeOnce k s bytes = (answer, k')) : Serves s k k' :=
  (sends_of_writeOnce h).serves

theorem serves_flush {q : SendQueue} {w : SocketId} (k : Kernel) (hw : q.writer = some w) :
    Serves w k (q.flush k).2.2 :=
  (sends_flush k hw).serves

/-- Pushing makes calls on one socket, or none. -/
theorem serves_push (q : SendQueue) (k : Kernel) (message : Bytes) :
    ∃ w, Serves w k (q.push k message).2.2 := by
  rcases sends_push q k message with heq | ⟨w, _, hsends⟩
  · rw [heq]
    exact ⟨0, .refl k⟩
  · exact ⟨w, hsends.serves⟩

/-! ### Waiting, and what happens outside -/

/-- `k'` comes from `k` by calls that concern no socket. -/
structure Idles (k k' : Kernel) : Prop where
  sockets_eq : k'.sockets = k.sockets
  registrations_eq : k'.registrations = k.registrations
  spare_eq : k'.spareDescriptors = k.spareDescriptors
  next_eq : k'.nextDescriptor = k.nextDescriptor
  closeUnregisters_eq : k'.closeUnregisters = k.closeUnregisters
  calls_prefix : k.calls.toList <+: k'.calls.toList

theorem Idles.table (h : Idles k k') : SameTable k k' where
  places_eq := by rw [h.sockets_eq]
  registrations_eq := h.registrations_eq
  spare_eq := h.spare_eq
  next_eq := h.next_eq
  closeUnregisters_eq := h.closeUnregisters_eq

theorem Idles.trans (h : Idles k k') (h' : Idles k' k'') : Idles k k'' where
  sockets_eq := h'.sockets_eq.trans h.sockets_eq
  registrations_eq := h'.registrations_eq.trans h.registrations_eq
  spare_eq := h'.spare_eq.trans h.spare_eq
  next_eq := h'.next_eq.trans h.next_eq
  closeUnregisters_eq := h'.closeUnregisters_eq.trans h.closeUnregisters_eq
  calls_prefix := h.calls_prefix.trans h'.calls_prefix

theorem idles_wake (k : Kernel) : Idles k k.wake :=
  ⟨rfl, rfl, rfl, rfl, rfl, List.prefix_refl _⟩

theorem idles_beginWait (k : Kernel) (millis : Option Nat) : Idles k (k.beginWait millis).2 := by
  unfold beginWait takeVerdict
  rcases splitVerdict .epollWait k.verdicts with ⟨_ | e, vs⟩
  · exact ⟨rfl, rfl, rfl, rfl, rfl, List.prefix_refl _⟩
  · exact ⟨rfl, rfl, rfl, rfl, rfl, calls_prefix_record k _⟩

theorem idles_answerWait (k : Kernel) (millis : Option Nat) (reports : List Report) :
    Idles k (k.answerWait millis reports) :=
  ⟨rfl, rfl, rfl, rfl, rfl, calls_prefix_record k _⟩

/-- The moment is a variable here: a computed one is costly to tell from the clock. -/
theorem idles_clock (k : Kernel) (t : Instant) : Idles k { k with clock := t } :=
  ⟨rfl, rfl, rfl, rfl, rfl, List.prefix_refl _⟩

theorem idles_passTimeout (k : Kernel) (millis : Option Nat) : Idles k (k.passTimeout millis) := by
  cases millis with
  | none => exact idles_clock k k.clock
  | some n => exact idles_clock k (waitEnd k.clock n)

theorem idles_collect (k : Kernel) (outcome : Except Errno (List Report)) :
    Idles k (k.collect outcome).2 := by
  unfold collect
  split <;> exact ⟨rfl, rfl, rfl, rfl, rfl, List.prefix_refl _⟩

theorem idles_wait (k : Kernel) (millis : Option Nat) (capacity : Nat) :
    Idles k (k.wait millis capacity).2 := by
  have hbegin := idles_beginWait k millis
  unfold wait
  generalize k.beginWait millis = r at hbegin ⊢
  rcases r with ⟨_ | e, k'⟩
  · simp only
    generalize k'.pendingReports capacity = reports
    cases reports with
    | nil => exact (hbegin.trans (idles_passTimeout _ _)).trans (idles_answerWait _ _ _)
    | cons report later => exact hbegin.trans (idles_answerWait _ _ _)
  · exact hbegin

theorem idles_poll (k : Kernel) (timeout : Option Duration) (capacity : Nat) :
    Idles k (k.poll timeout capacity).2 :=
  (idles_wait k _ capacity).trans (idles_collect _ _)

theorem sameTable_happen (k : Kernel) (h : Happening) : SameTable k (k.happen h) := by
  cases h with
  | plan _ | script _ _ | inject _ | advance _ => exact ⟨rfl, rfl, rfl, rfl, rfl⟩
  | complete s v => exact ⟨map_place_modify _ s fun sock => place_complete sock v, rfl, rfl, rfl,
      rfl⟩
  | arrive s _ | room s _ | failSends s _ =>
      exact ⟨map_place_modify _ s fun _ => rfl, rfl, rfl, rfl, rfl⟩

theorem calls_happen (k : Kernel) (h : Happening) : (k.happen h).calls = k.calls := by
  cases h <;> rfl

end TextLink.Kernel
