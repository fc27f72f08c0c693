import TextLink.Proofs.Queue.Outcomes
import TextLink.Proofs.Queue.Recorder

/-!
# What becomes of the messages accepted

A send queue is pushed to, flushed, connected, disconnected and closed, in any order, while its
destinations answer as they like. This module accounts for every message that it accepted.

An account (`Delivery`) says of one message how many of its octets are on a wire, on which one, and
what has become of the message: it waits, it was written, it was given up partway, or closing
dropped it. The accounts of a history, one for each message in the order of acceptance, explain
everything that can be seen (`Accounts`): the octets accepted by all destinations, one after the
other, are what the accounts say, in their order; what waits is what the queue holds; and the other
fates are counted where the queue counts them.

The invariant behind it is that the messages that wait are the last ones accepted, and that nothing
of them is on a wire but a front of the first, on the wire of the writer attached now (`Ledger`).
Every step settles messages from the front, and a writer is only taken away with a torn message
settled.

## Main results

* `Ledger.perform` — every step keeps the accounts.
* `exists_accounts_after` — the accounts of every history, what takes a writer away, and silence on
  writers taken away.
-/

namespace TextLink

/-! ## Histories of a queue -/

/-- What happens to a queue or to its destinations. -/
inductive QueueAction (σ : Type) where
  | push (message : Bytes)
  | flush
  | connecting
  /-- The connection is up, by a writer not attached before. -/
  | connected
  | close
  | bind (token : Nat)
  /-- The destinations change without the queue, in any way. -/
  | outside (s : σ)

/-- A queue over recorded destinations, and what its users saw of it. -/
structure QueueHistory (σ : Type) where
  queue : SendQueue
  recorder : Recorder σ
  /-- How many writers were attached. They are numbered in this order. -/
  attached : Nat := 0
  /-- The messages accepted that are not empty, in order. -/
  accepted : List Bytes := []
  /-- How many messages closing said that it dropped, in all. -/
  dropped : Nat := 0

namespace QueueHistory

variable {σ : Type} [Medium σ]

/-- A new queue over destinations that have accepted nothing yet. -/
def start (limit : Option Nat) (s : σ) : QueueHistory σ where
  queue := .ofLimit limit
  recorder := { medium := s }

/-- The messages accepted once `message` was answered with `outcome`. -/
def acceptedAfter (accepted : List Bytes) (message : Bytes) : Except SendError Pushed → List Bytes
  | .ok _ => if message.isEmpty then accepted else accepted ++ [message]
  | .error _ => accepted

/-- The history after one more action. -/
def perform (h : QueueHistory σ) : QueueAction σ → QueueHistory σ
  | .push message =>
    let (outcome, queue, recorder) := h.queue.push h.recorder message
    { h with queue, recorder, accepted := acceptedAfter h.accepted message outcome }
  | .flush =>
    let (_, queue, recorder) := h.queue.flush h.recorder
    { h with queue, recorder }
  | .connecting => { h with queue := h.queue.connecting.2 }
  | .connected => { h with queue := h.queue.connected h.attached, attached := h.attached + 1 }
  | .close => { h with queue := h.queue.close.2, dropped := h.dropped + h.queue.close.1 }
  | .bind token => { h with queue := h.queue.bind token }
  | .outside s => { h with recorder := { h.recorder with medium := s } }

/-- The history after a list of actions. -/
def after (h : QueueHistory σ) (actions : List (QueueAction σ)) : QueueHistory σ :=
  actions.foldl perform h

/-- A writer is only attached to a queue that is neither connected nor closed. -/
def Allows (h : QueueHistory σ) : QueueAction σ → Prop
  | .connected => h.queue.state ≠ .connected ∧ h.queue.state ≠ .closed
  | _ => True

/-- Each of the actions is allowed when its turn comes. -/
def Admissible (h : QueueHistory σ) : List (QueueAction σ) → Prop
  | [] => True
  | a :: later => h.Allows a ∧ (h.perform a).Admissible later

/-- The octets that writer `w` accepted, in order. -/
def octetsOn (h : QueueHistory σ) (w : Nat) : Bytes :=
  (h.recorder.wire.filter fun x => x.1 == w).map (·.2)

/-- Writer `w` was attached, and was taken away again. -/
def Detached (h : QueueHistory σ) (w : Nat) : Prop := w < h.attached ∧ h.queue.writer ≠ some w

end QueueHistory

/-! ## Accounts -/

/-- What has become of a message. -/
inductive Fate where
  | written
  /-- It is still pending. -/
  | waiting
  /-- It was given up with only a part of it written. -/
  | torn
  /-- It was dropped by closing. -/
  | dropped
deriving DecidableEq

/-- The account of one message. -/
structure Delivery where
  message : Bytes
  /-- How many of its octets are on a wire. -/
  sent : Nat := 0
  /-- The writer that took them. -/
  writer : Nat := 0
  fate : Fate := .waiting

namespace Delivery

/-- The octets of the message that are on a wire. -/
def octets (d : Delivery) : List (Nat × UInt8) := (d.message.take d.sent).map (d.writer, ·)

/-- What is left of the message. -/
def rest (d : Delivery) : Bytes := d.message.drop d.sent

/-- Whether the message has this fate. -/
def has (f : Fate) (d : Delivery) : Bool := d.fate == f

/-- As much of the message is on the wire as its fate says. -/
def Fits (d : Delivery) : Prop :=
  match d.fate with
  | .written => d.sent = d.message.length
  | .torn => 0 < d.sent ∧ d.sent < d.message.length
  | .waiting | .dropped => d.sent < d.message.length

/-- Another `n` octets of the message went out by writer `w`. -/
def advance (d : Delivery) (w n : Nat) : Delivery := { d with sent := d.sent + n, writer := w }

/-- Closing dropped the message. -/
def drop (d : Delivery) : Delivery := { d with fate := .dropped }

theorem octets_advance {d : Delivery} {w : Nat} (n : Nat) (hw : 0 < d.sent → d.writer = w) :
    (d.advance w n).octets = d.octets ++ (d.rest.take n).map (w, ·) := by
  have hsame : d.octets = (d.message.take d.sent).map (w, ·) := by
    rcases Nat.eq_zero_or_pos d.sent with h0 | hpos
    · rw [octets, h0, List.take_zero, List.map_nil, List.map_nil]
    · rw [octets, hw hpos]
  rw [hsame, ← List.map_append, rest, ← List.take_add]
  rfl

end Delivery

/--
The accounts `ds`, one for each message accepted, explain what can be seen of a history.

A message has one account, so it has one fate, and its octets are all on one wire.
-/
structure Accounts {σ : Type} (h : QueueHistory σ) (ds : List Delivery) : Prop where
  messages : ds.map Delivery.message = h.accepted
  fits : ∀ d ∈ ds, d.Fits
  wire : h.recorder.wire = ds.flatMap Delivery.octets
  pending : h.queue.pending = (ds.filter (Delivery.has .waiting)).map Delivery.rest
  headSent : h.queue.headSent = ((ds.filter (Delivery.has .waiting)).map Delivery.sent).headD 0
  /-- Nothing of a waiting message is out, the first one apart. -/
  untouched : ∀ d ∈ (ds.filter (Delivery.has .waiting)).tail, d.sent = 0
  discarded : h.queue.discarded = ds.countP (Delivery.has .torn)
  dropped : h.dropped = ds.countP (Delivery.has .dropped)

/-! ## The invariant -/

/-- The accounts of a history, with the messages that wait behind all others. -/
structure Ledger {σ : Type} (h : QueueHistory σ) (settled waiting : List Delivery) : Prop where
  messages : (settled ++ waiting).map Delivery.message = h.accepted
  settled_fits : ∀ d ∈ settled, d.fate ≠ .waiting ∧ d.Fits
  waiting_fits : ∀ d ∈ waiting, d.fate = .waiting ∧ d.sent < d.message.length
  wire : h.recorder.wire = (settled ++ waiting).flatMap Delivery.octets
  pending : h.queue.pending = waiting.map Delivery.rest
  headSent : h.queue.headSent = (waiting.map Delivery.sent).headD 0
  untouched : ∀ d ∈ waiting.tail, d.sent = 0
  discarded : h.queue.discarded = settled.countP (Delivery.has .torn)
  dropped : h.dropped = settled.countP (Delivery.has .dropped)
  /-- What is out of a waiting message went out by the writer attached now. -/
  holder : ∀ d ∈ waiting, 0 < d.sent → h.queue.writer = some d.writer
  writer_state : h.queue.writer.isSome → h.queue.state = .connected
  writer_lt : ∀ w, h.queue.writer = some w → w < h.attached

namespace Ledger

variable {σ : Type} {h : QueueHistory σ} {settled waiting others : List Delivery} {d : Delivery}

theorem filter_waiting (l : Ledger h settled waiting) :
    (settled ++ waiting).filter (Delivery.has .waiting) = waiting := by
  have hs : settled.filter (Delivery.has .waiting) = [] := by
    rw [List.filter_eq_nil_iff]
    intro d hd
    simpa [Delivery.has] using (l.settled_fits d hd).1
  have hw : waiting.filter (Delivery.has .waiting) = waiting := by
    rw [List.filter_eq_self]
    intro d hd
    simpa [Delivery.has] using (l.waiting_fits d hd).1
  rw [List.filter_append, hs, hw, List.nil_append]

theorem countP_append (l : Ledger h settled waiting) {f : Fate} (hf : f ≠ .waiting) :
    (settled ++ waiting).countP (Delivery.has f) = settled.countP (Delivery.has f) := by
  have hw : waiting.countP (Delivery.has f) = 0 := by
    rw [List.countP_eq_zero]
    intro d hd
    have hfate := (l.waiting_fits d hd).1
    simpa [Delivery.has, hfate] using hf.symm
  rw [List.countP_append, hw, Nat.add_zero]

/-- A ledger holds the accounts. -/
theorem accounts (l : Ledger h settled waiting) : Accounts h (settled ++ waiting) where
  messages := l.messages
  fits d hd := by
    rcases List.mem_append.1 hd with hd | hd
    · exact (l.settled_fits d hd).2
    · have ⟨hfate, hsent⟩ := l.waiting_fits d hd
      simpa only [Delivery.Fits, hfate] using hsent
  wire := l.wire
  pending := by rw [l.filter_waiting, l.pending]
  headSent := by rw [l.filter_waiting, l.headSent]
  untouched := by
    rw [l.filter_waiting]
    exact l.untouched
  discarded := by rw [l.countP_append (by decide), l.discarded]
  dropped := by rw [l.countP_append (by decide), l.dropped]

/-- A new queue has nothing to account for. -/
theorem start (limit : Option Nat) (s : σ) : Ledger (.start limit s) [] [] where
  messages := rfl
  settled_fits d hd := by cases hd
  waiting_fits d hd := by cases hd
  wire := rfl
  pending := rfl
  headSent := rfl
  untouched d hd := by cases hd
  discarded := rfl
  dropped := rfl
  holder d hd := by cases hd
  writer_state hw := by cases hw
  writer_lt w hw := by cases hw

/-! ### Nothing out of the messages behind the first -/

theorem octets_eq_nil {ds : List Delivery} (hds : ∀ d ∈ ds, d.sent = 0) :
    ds.flatMap Delivery.octets = [] := by
  rw [List.flatMap_eq_nil_iff]
  intro d hd
  rw [Delivery.octets, hds d hd, List.take_zero, List.map_nil]

theorem others_octets (l : Ledger h settled (d :: others)) :
    others.flatMap Delivery.octets = [] :=
  octets_eq_nil l.untouched

theorem flatMap_head (l : Ledger h settled (d :: others)) :
    (settled ++ d :: others).flatMap Delivery.octets =
      settled.flatMap Delivery.octets ++ d.octets := by
  rw [List.flatMap_append, List.flatMap_cons, l.others_octets, List.append_nil]

theorem sent_eq_zero (l : Ledger h settled waiting) (h0 : h.queue.headSent = 0) :
    ∀ d ∈ waiting, d.sent = 0 := by
  cases waiting with
  | nil => simp
  | cons first others =>
      have hfirst : first.sent = 0 := l.headSent.symm.trans h0
      intro d hd
      rcases List.mem_cons.1 hd with rfl | hd
      · exact hfirst
      · exact l.untouched d hd

theorem headSent_eq_zero (l : Ledger h settled waiting) (hw : h.queue.writer = none) :
    h.queue.headSent = 0 := by
  rw [l.headSent]
  cases waiting with
  | nil => rfl
  | cons first others =>
      rcases Nat.eq_zero_or_pos first.sent with h0 | hpos
      · exact h0
      · have hheld := l.holder first (by simp) hpos
        rw [hw] at hheld
        cases hheld

/-! ### What a step does to the accounts -/

/-- Only the octets accepted matter of the destinations. -/
theorem observe (l : Ledger h settled waiting) {r : Recorder σ}
    (hr : r.wire = h.recorder.wire) : Ledger { h with recorder := r } settled waiting :=
  { l with wire := hr.trans l.wire }

/-- A message is accepted, and waits. -/
theorem accept (l : Ledger h settled waiting) {message : Bytes} (hm : message ≠ []) :
    Ledger { h with queue := h.queue.enqueue message, accepted := h.accepted ++ [message] }
      settled (waiting ++ [{ message := message }]) where
  messages := by
    rw [← List.append_assoc, List.map_append, l.messages]
    rfl
  settled_fits := l.settled_fits
  waiting_fits d hd := by
    rcases List.mem_append.1 hd with hd | hd
    · exact l.waiting_fits d hd
    · rw [List.mem_singleton.1 hd]
      exact ⟨rfl, List.length_pos_iff.2 hm⟩
  wire := by
    rw [← List.append_assoc, List.flatMap_append, ← l.wire]
    exact (List.append_nil _).symm
  pending := by
    show h.queue.pending ++ [message] = _
    rw [l.pending, List.map_append]
    rfl
  headSent := by
    show h.queue.headSent = _
    rw [l.headSent]
    cases waiting <;> rfl
  untouched d hd := by
    cases waiting with
    | nil => cases hd
    | cons first others =>
        rcases List.mem_append.1 hd with hd | hd
        · exact l.untouched d hd
        · rw [List.mem_singleton.1 hd]
  discarded := l.discarded
  dropped := l.dropped
  holder d hd hpos := by
    rcases List.mem_append.1 hd with hd | hd
    · exact l.holder d hd hpos
    · rw [List.mem_singleton.1 hd] at hpos
      cases hpos
  writer_state := l.writer_state
  writer_lt := l.writer_lt

/-- Some more of the first message goes out. -/
theorem advance (l : Ledger h settled (d :: others)) {w n : Nat} {r : Recorder σ}
    (hw : h.queue.writer = some w) (hn : d.sent + n < d.message.length)
    (hr : r.wire = h.recorder.wire ++ (d.rest.take n).map (w, ·)) :
    Ledger { h with
      queue := { h.queue with
        pending := d.rest.drop n :: others.map Delivery.rest, headSent := h.queue.headSent + n }
      recorder := r } settled (d.advance w n :: others) where
  messages := by
    rw [← l.messages]
    simp [Delivery.advance]
  settled_fits := l.settled_fits
  waiting_fits e he := by
    rcases List.mem_cons.1 he with rfl | he
    · exact ⟨(l.waiting_fits d (by simp)).1, hn⟩
    · exact l.waiting_fits e (.tail _ he)
  wire := by
    have hsame : 0 < d.sent → d.writer = w := fun hpos =>
      Option.some.inj ((l.holder d (by simp) hpos).symm.trans hw)
    rw [hr, l.wire, l.flatMap_head, List.flatMap_append, List.flatMap_cons,
      Delivery.octets_advance n hsame, l.others_octets]
    simp only [List.append_nil, List.append_assoc]
  pending := by
    simp [Delivery.advance, Delivery.rest]
  headSent := by
    show h.queue.headSent + n = d.sent + n
    rw [l.headSent]
    rfl
  untouched := l.untouched
  discarded := l.discarded
  dropped := l.dropped
  holder e he hpos := by
    rcases List.mem_cons.1 he with rfl | he
    · exact hw
    · have hzero := l.untouched e he
      omega
  writer_state := l.writer_state
  writer_lt := l.writer_lt

/-- The first message is settled, by `extra` octets more. -/
theorem settle (l : Ledger h settled (d :: others)) {d' : Delivery} {extra : List (Nat × UInt8)}
    {r : Recorder σ} {n : Nat} (hmessage : d'.message = d.message)
    (hfate : d'.fate = .written ∨ d'.fate = .torn) (hfits : d'.Fits)
    (hoctets : d'.octets = d.octets ++ extra) (hr : r.wire = h.recorder.wire ++ extra)
    (hn : n = h.queue.discarded + [d'].countP (Delivery.has .torn)) :
    Ledger { h with queue := { h.queue.dropHead with discarded := n }, recorder := r }
      (settled ++ [d']) others where
  messages := by
    rw [← l.messages]
    simp [hmessage]
  settled_fits e he := by
    rcases List.mem_append.1 he with he | he
    · exact l.settled_fits e he
    · rw [List.mem_singleton.1 he]
      refine ⟨?_, hfits⟩
      rcases hfate with hf | hf <;> rw [hf] <;> decide
  waiting_fits e he := l.waiting_fits e (.tail _ he)
  wire := by
    rw [hr, l.wire, l.flatMap_head, List.append_assoc, ← hoctets, List.flatMap_append,
      l.others_octets, List.flatMap_append, List.append_nil]
    simp
  pending := by
    show h.queue.pending.tail = _
    rw [l.pending]
    rfl
  headSent := by
    show 0 = _
    cases others with
    | nil => rfl
    | cons next others => exact (l.untouched next (by simp)).symm
  untouched e he := l.untouched e (List.mem_of_mem_tail he)
  discarded := by
    rw [List.countP_append, ← l.discarded]
    exact hn
  dropped := by
    have hkept : [d'].countP (Delivery.has .dropped) = 0 := by
      rcases hfate with hf | hf <;> simp [Delivery.has, hf]
    rw [List.countP_append, hkept, ← l.dropped, Nat.add_zero]
  holder e he := l.holder e (.tail _ he)
  writer_state := l.writer_state
  writer_lt := l.writer_lt

/-- The first message went out whole. -/
theorem written (l : Ledger h settled (d :: others)) {w : Nat} {r : Recorder σ}
    (hw : h.queue.writer = some w) (hr : r.wire = h.recorder.wire ++ d.rest.map (w, ·)) :
    ∃ d', Ledger { h with queue := h.queue.dropHead, recorder := r } (settled ++ [d']) others := by
  have hsame : 0 < d.sent → d.writer = w := fun hpos =>
    Option.some.inj ((l.holder d (by simp) hpos).symm.trans hw)
  have hsent := (l.waiting_fits d (by simp)).2
  have hall : d.sent + d.rest.length = d.message.length := by
    rw [Delivery.rest, List.length_drop]
    omega
  have hoctets := Delivery.octets_advance d.rest.length hsame
  rw [List.take_length] at hoctets
  exact ⟨{ d.advance w d.rest.length with fate := .written },
    l.settle rfl (.inl rfl) hall hoctets hr (by simp [Delivery.has])⟩

/-- The first message is given up, partly written. -/
theorem torn (l : Ledger h settled (d :: others)) (hsent : 0 < h.queue.headSent) :
    Ledger { h with queue := h.queue.discardHead } (settled ++ [{ d with fate := .torn }])
      others := by
  have hpos : 0 < d.sent := by
    rw [l.headSent] at hsent
    exact hsent
  have hlt := (l.waiting_fits d (by simp)).2
  exact l.settle rfl (.inr rfl) ⟨hpos, hlt⟩ (List.append_nil _).symm (List.append_nil _).symm
    (by simp [Delivery.has])

/-- A writer that took nothing of a waiting message is taken away. -/
theorem detach (l : Ledger h settled waiting) (h0 : h.queue.headSent = 0)
    (state : ConnectionState) :
    Ledger { h with queue := { h.queue with state, writer := none } } settled waiting :=
  { l with
    holder := fun d hd hpos => by
      have hzero := l.sent_eq_zero h0 d hd
      omega
    writer_state := fun hw => by cases hw
    writer_lt := fun w hw => by cases hw }

/-! ### What each operation does to the accounts -/

variable [Medium σ]

theorem connecting (l : Ledger h settled waiting) :
    ∃ settled waiting, Ledger (h.perform .connecting) settled waiting := by
  simp only [QueueHistory.perform, SendQueue.connecting]
  by_cases hclosed : h.queue.state = .closed
  · simp only [if_pos hclosed]
    exact ⟨settled, waiting, l⟩
  · by_cases hsent : 0 < h.queue.headSent
    · simp only [if_neg hclosed, if_pos hsent]
      cases waiting with
      | nil =>
          rw [l.headSent] at hsent
          cases hsent
      | cons d others => exact ⟨_, others, (l.torn hsent).detach rfl .connecting⟩
    · simp only [if_neg hclosed, if_neg hsent]
      exact ⟨settled, waiting, l.detach (by omega) .connecting⟩

theorem connected (l : Ledger h settled waiting) (hstate : h.queue.state ≠ .connected) :
    Ledger (h.perform .connected) settled waiting := by
  have hnone : h.queue.writer = none := by
    rw [← Option.not_isSome_iff_eq_none]
    exact fun hw => hstate (l.writer_state hw)
  have h0 := l.headSent_eq_zero hnone
  exact { l with
    holder := fun d hd hpos => by
      have hzero := l.sent_eq_zero h0 d hd
      omega
    writer_state := fun _ => rfl
    writer_lt := fun w hw => by
      rw [← Option.some.inj hw]
      exact Nat.lt_succ_self _ }

theorem close (l : Ledger h settled waiting) :
    Ledger (h.perform .close) (settled ++ waiting.map Delivery.drop) [] where
  messages := by
    show _ = h.accepted
    rw [← l.messages, List.append_nil, List.map_append, List.map_append, List.map_map]
    rfl
  settled_fits e he := by
    rcases List.mem_append.1 he with he | he
    · exact l.settled_fits e he
    · have ⟨d, hd, hde⟩ := List.mem_map.1 he
      rw [← hde]
      exact ⟨Fate.noConfusion, (l.waiting_fits d hd).2⟩
  waiting_fits e he := by cases he
  wire := by
    show h.recorder.wire = _
    rw [l.wire, List.append_nil, List.flatMap_append, List.flatMap_append, List.flatMap_map]
    rfl
  pending := rfl
  headSent := rfl
  untouched e he := by cases he
  discarded := by
    have hnone : (waiting.map Delivery.drop).countP (Delivery.has .torn) = 0 := by
      rw [List.countP_map, List.countP_eq_zero]
      intro d _
      exact Bool.false_ne_true
    rw [List.countP_append, hnone, Nat.add_zero]
    exact l.discarded
  dropped := by
    have hall : (waiting.map Delivery.drop).countP (Delivery.has .dropped) =
        (waiting.map Delivery.drop).length := by
      rw [List.countP_map, List.length_map, List.countP_eq_length]
      intro d _
      rfl
    show h.dropped + h.queue.pending.length = _
    rw [List.countP_append, hall, l.dropped, l.pending, List.length_map, List.length_map]
  holder e he := by cases he
  writer_state hw := by cases hw
  writer_lt w hw := by cases hw

variable [LawfulMedium σ]

private theorem flushes {w : Nat} {bytes : List Bytes} {q : SendQueue} {r : Recorder σ}
    {result : Except FlushFailure Flushed × SendQueue × Recorder σ}
    (hf : SendQueue.Flushes w bytes q r result)
    (l : Ledger { h with queue := q, recorder := r } settled waiting) (hw : q.writer = some w)
    (hbytes : waiting.map Delivery.rest = bytes) :
    ∃ settled waiting,
      Ledger { h with queue := result.2.1, recorder := result.2.2 } settled waiting := by
  induction hf generalizing settled waiting with
  | drained => exact ⟨settled, waiting, l⟩
  | nothing hwrite =>
      have hwire := Recorder.wire_of_writeOnce hwrite
      rw [Recorder.taken, List.take_zero, List.map_nil, List.append_nil] at hwire
      exact ⟨settled, waiting, l.observe hwire⟩
  | whole hpos hwrite hrest ih =>
      obtain ⟨d, ds, hds, hhead, hothers⟩ := List.map_eq_cons_iff.1 hbytes
      subst hds hhead
      obtain ⟨d', l'⟩ := l.written hw (Recorder.wire_of_whole hwrite)
      exact ih l' hw hothers
  | part hpos hn hwrite =>
      obtain ⟨d, ds, hds, hhead, hothers⟩ := List.map_eq_cons_iff.1 hbytes
      subst hds hhead hothers
      have hwire := Recorder.wire_of_writeOnce hwrite
      have hle := Medium.writeOnce_le (congrArg Prod.fst hwrite)
      have hlt := (l.waiting_fits d (by simp)).2
      rw [Delivery.rest, List.length_drop] at hle hn
      exact ⟨settled, _, l.advance hw (by omega) hwire⟩
  | torn hk hsent hwrite =>
      obtain ⟨d, ds, hds, _⟩ := List.map_eq_cons_iff.1 hbytes
      subst hds
      exact ⟨_, ds, (l.observe (Recorder.wire_of_error hwrite)).torn hsent⟩
  | blocked hk hwrite | kept hk hsent hwrite =>
      exact ⟨settled, waiting, l.observe (Recorder.wire_of_error hwrite)⟩

theorem flush (l : Ledger h settled waiting) :
    ∃ settled waiting, Ledger (h.perform .flush) settled waiting := by
  simp only [QueueHistory.perform]
  rcases hw : h.queue.writer with _ | w
  · rw [SendQueue.flush_of_no_writer _ hw]
    exact ⟨settled, waiting, l⟩
  · exact flushes (SendQueue.flushes_of_flush h.recorder hw) l hw l.pending.symm

private theorem pushes {q : SendQueue} {r : Recorder σ} {message : Bytes}
    {result : Except SendError Pushed × SendQueue × Recorder σ}
    (hp : SendQueue.Pushes q r message result)
    (l : Ledger { h with queue := q, recorder := r } settled waiting) :
    ∃ settled waiting,
      Ledger { h with
        queue := result.2.1
        recorder := result.2.2
        accepted := QueueHistory.acceptedAfter h.accepted message result.1 } settled waiting := by
  have haccepted (hm : message ≠ []) (p : Pushed) :
      QueueHistory.acceptedAfter h.accepted message (.ok p) = h.accepted ++ [message] :=
    if_neg fun hempty => hm (List.isEmpty_iff.1 hempty)
  -- With nothing waiting, the message is the first one.
  have hfirst (hnone : q.pending = []) : waiting = [] ∧ q.headSent = 0 := by
    have hwaiting : waiting = [] := List.map_eq_nil_iff.1 (l.pending.symm.trans hnone)
    have hsent := l.headSent
    rw [hwaiting] at hsent
    exact ⟨hwaiting, hsent⟩
  cases hp with
  | refused he => exact ⟨settled, waiting, l⟩
  | empty hq hm =>
      rw [hm]
      exact ⟨settled, waiting, l⟩
  | queued hq hm hidle =>
      simp only [haccepted hm]
      exact ⟨settled, _, l.accept hm⟩
  | whole hq hm hw hstate hnone hwrite =>
      have ⟨hwaiting, h0⟩ := hfirst hnone
      subst hwaiting
      have ⟨d', l'⟩ := (l.accept hm).written hw (Recorder.wire_of_whole hwrite)
      have hq : (q.enqueue message).dropHead = q := by
        rw [SendQueue.enqueue, SendQueue.dropHead, hnone, List.nil_append, List.tail_cons, ← h0,
          ← hnone]
      simp only [haccepted hm]
      exact ⟨_, _, hq ▸ l'⟩
  | @part w n s' hq hm hw hstate hnone hwrite hn =>
      have ⟨hwaiting, h0⟩ := hfirst hnone
      have hwire := Recorder.wire_of_writeOnce hwrite
      have hle := Medium.writeOnce_le (congrArg Prod.fst hwrite)
      have hpart : 0 + n < message.length := by omega
      subst hwaiting
      have l' := (l.accept hm).advance hw hpart hwire
      have hq :
          { q.enqueue message with pending := [message.drop n], headSent := q.headSent + n } =
            { q.enqueue (message.drop n) with headSent := n } := by
        rw [SendQueue.enqueue, SendQueue.enqueue, hnone, h0, Nat.zero_add, List.nil_append]
        rfl
      simp only [haccepted hm]
      exact ⟨_, _, hq ▸ l'⟩
  | failed hq hm hw hstate hnone hwrite =>
      simp only [haccepted hm]
      exact ⟨_, _, (l.accept hm).observe (Recorder.wire_of_error hwrite)⟩

theorem push (l : Ledger h settled waiting) (message : Bytes) :
    ∃ settled waiting, Ledger (h.perform (.push message)) settled waiting :=
  pushes (SendQueue.pushes h.queue h.recorder message) l

/-- Every step keeps the accounts. -/
theorem perform (l : Ledger h settled waiting) (a : QueueAction σ)
    (ha : h.Allows a) : ∃ settled waiting, Ledger (h.perform a) settled waiting := by
  cases a with
  | push message => exact l.push message
  | flush => exact l.flush
  | connecting => exact l.connecting
  | connected => exact ⟨settled, waiting, l.connected ha.1⟩
  | close => exact ⟨_, _, l.close⟩
  | bind token => exact ⟨settled, waiting, { l with }⟩
  | outside s => exact ⟨settled, waiting, l.observe rfl⟩

theorem after (l : Ledger h settled waiting) (actions : List (QueueAction σ))
    (ha : h.Admissible actions) :
    ∃ settled waiting, Ledger (h.after actions) settled waiting := by
  induction actions generalizing h settled waiting with
  | nil => exact ⟨settled, waiting, l⟩
  | cons a later ih =>
      have ⟨settled', waiting', l'⟩ := l.perform a ha.1
      exact ih l' ha.2

end Ledger

/-! ## Writers taken away -/

namespace QueueHistory

variable {σ : Type} {w : Nat}

/-- What an operation adds to the record comes from writer `w`, if there is any. -/
def Writes (r r' : Recorder σ) (writer : Option Nat) : Prop :=
  ∃ out, r'.wire = r.wire ++ out ∧ ∀ x ∈ out, writer = some x.1

theorem Writes.refl (r : Recorder σ) (writer : Option Nat) : Writes r r writer :=
  ⟨[], (List.append_nil _).symm, fun _ hx => nomatch hx⟩

theorem Writes.trans {r r' r'' : Recorder σ} {writer : Option Nat} (h : Writes r r' writer)
    (h' : Writes r' r'' writer) : Writes r r'' writer := by
  have ⟨out, hout, hw⟩ := h
  have ⟨out', hout', hw'⟩ := h'
  refine ⟨out ++ out', ?_, ?_⟩
  · rw [hout', hout, List.append_assoc]
  · intro x hx
    rcases List.mem_append.1 hx with hx | hx
    · exact hw x hx
    · exact hw' x hx

variable [Medium σ]

theorem Writes.of_writeOnce {r r' : Recorder σ} {bytes : Bytes} {answer : Except IoError Nat}
    (h : Medium.writeOnce r w bytes = (answer, r')) : Writes r r' (some w) := by
  refine ⟨_, Recorder.wire_of_writeOnce h, fun x hx => ?_⟩
  cases answer with
  | ok n =>
      have ⟨_, _, hx⟩ := List.mem_map.1 hx
      rw [← hx]
  | error e => cases hx

private theorem flushes_writes {bytes : List Bytes} {q : SendQueue} {r : Recorder σ}
    {result : Except FlushFailure Flushed × SendQueue × Recorder σ}
    (hf : SendQueue.Flushes w bytes q r result) : Writes r result.2.2 (some w) := by
  induction hf with
  | drained => exact .refl _ _
  | whole hpos hwrite hrest ih => exact (Writes.of_writeOnce hwrite).trans ih
  | nothing hwrite | part _ _ hwrite | blocked _ hwrite | torn _ _ hwrite | kept _ _ hwrite =>
      exact .of_writeOnce hwrite

theorem flush_writes (q : SendQueue) (r : Recorder σ) : Writes r (q.flush r).2.2 q.writer := by
  rcases hw : q.writer with _ | w
  · rw [SendQueue.flush_of_no_writer _ hw]
    exact .refl _ _
  · exact flushes_writes (SendQueue.flushes_of_flush r hw)

private theorem pushes_writes {q : SendQueue} {r : Recorder σ} {message : Bytes}
    {result : Except SendError Pushed × SendQueue × Recorder σ}
    (hp : SendQueue.Pushes q r message result) : Writes r result.2.2 q.writer := by
  cases hp with
  | refused _ | empty _ _ | queued _ _ _ => exact .refl _ _
  | whole _ _ hw _ _ hwrite | part _ _ hw _ _ hwrite _ | failed _ _ hw _ _ hwrite =>
      exact hw ▸ .of_writeOnce hwrite

/-- Only the writer attached is written to. -/
theorem perform_writes (h : QueueHistory σ) (a : QueueAction σ) :
    Writes h.recorder (h.perform a).recorder h.queue.writer := by
  cases a with
  | push message => exact pushes_writes (SendQueue.pushes h.queue h.recorder message)
  | flush => exact flush_writes h.queue h.recorder
  | connecting | connected | close | bind _ => exact .refl _ _
  | outside s => exact ⟨[], (List.append_nil _).symm, fun _ hx => nomatch hx⟩

/-- A writer taken away does not come back. -/
theorem Detached.perform {h : QueueHistory σ} (hd : h.Detached w) (a : QueueAction σ) :
    (h.perform a).Detached w := by
  have ⟨hlt, hw⟩ := hd
  cases a with
  | push message =>
      have ⟨_, _, hq⟩ := (SendQueue.pushes h.queue h.recorder message).keeps
      exact ⟨hlt, fun h' => hw ((congrArg SendQueue.writer hq).symm.trans h')⟩
  | flush =>
      have ⟨_, _, _, hq⟩ := SendQueue.flush_keeps h.queue h.recorder
      exact ⟨hlt, fun h' => hw ((congrArg SendQueue.writer hq).symm.trans h')⟩
  | connecting =>
      by_cases hclosed : h.queue.state = .closed
      · have hsame : h.queue.connecting.2 = h.queue := by rw [SendQueue.connecting, if_pos hclosed]
        exact ⟨hlt, fun h' => hw (hsame ▸ h')⟩
      · refine ⟨hlt, fun h' => ?_⟩
        cases (SendQueue.state_connecting hclosed).2.symm.trans h'
  | connected =>
      refine ⟨Nat.lt_succ_of_lt hlt, fun h' => ?_⟩
      have hself : h.attached = w := Option.some.inj h'
      omega
  | close => exact ⟨hlt, Option.some_ne_none w ∘ Eq.symm⟩
  | bind token => exact ⟨hlt, hw⟩
  | outside s => exact ⟨hlt, hw⟩

theorem Detached.octetsOn_perform {h : QueueHistory σ} (hd : h.Detached w) (a : QueueAction σ) :
    (h.perform a).octetsOn w = h.octetsOn w := by
  have ⟨out, hwire, hfst⟩ := h.perform_writes a
  have hnone : out.filter (fun x => x.1 == w) = [] := by
    rw [List.filter_eq_nil_iff]
    intro x hx hxw
    rw [beq_iff_eq] at hxw
    exact hd.2 (hxw ▸ hfst x hx)
  rw [octetsOn, octetsOn, hwire, List.filter_append, hnone, List.append_nil]

theorem Detached.octetsOn_after {h : QueueHistory σ} (hd : h.Detached w)
    (actions : List (QueueAction σ)) : (h.after actions).octetsOn w = h.octetsOn w := by
  induction actions generalizing h with
  | nil => rfl
  | cons a later ih => exact (ih (hd.perform a)).trans (hd.octetsOn_perform a)

theorem admissible_append {h : QueueHistory σ} {past later : List (QueueAction σ)} :
    h.Admissible (past ++ later) ↔ h.Admissible past ∧ (h.after past).Admissible later := by
  induction past generalizing h with
  | nil => simp [Admissible, after]
  | cons a past ih =>
      rw [List.cons_append, Admissible, Admissible, ih, and_assoc]
      rfl

/-- What connecting and closing do to a history: they take the writer away, and closing drops and
counts whatever waits. -/
structure Detaches (h : QueueHistory σ) : Prop where
  connecting : ∀ w, h.queue.writer = some w → (h.perform .connecting).Detached w
  close : ∀ w, h.queue.writer = some w → (h.perform .close).Detached w
  pending : (h.perform .close).queue.pending = []
  dropped : (h.perform .close).dropped = h.dropped + h.queue.pending.length

theorem detaches {h : QueueHistory σ} {settled waiting : List Delivery}
    (l : Ledger h settled waiting) : h.Detaches where
  connecting w hw := by
    have hstate : h.queue.state = .connected := l.writer_state (hw ▸ rfl)
    refine ⟨l.writer_lt w hw, fun h' => ?_⟩
    cases (SendQueue.state_connecting (hstate ▸ nofun)).2.symm.trans h'
  close w hw := ⟨l.writer_lt w hw, nofun⟩
  pending := rfl
  dropped := rfl

/--
**Delivery.** At every point of every history, the messages accepted have accounts that explain what
the destinations took and what the queue holds and counts. Connecting and closing take the writer
away that is attached then, and closing drops and counts all that waits; and from the moment a
writer is taken away, it takes nothing more.
-/
theorem exists_accounts_after [LawfulMedium σ] (limit : Option Nat) (s : σ)
    (past later : List (QueueAction σ)) (hadm : (start limit s).Admissible (past ++ later)) :
    let before := (start limit s).after past
    let now := before.after later
    (∃ ds, Accounts now ds) ∧ (∀ w, before.Detached w → now.octetsOn w = before.octetsOn w) ∧
      before.Detaches := by
  have ⟨hpast, hlater⟩ := admissible_append.1 hadm
  have ⟨settled, waiting, l⟩ := (Ledger.start limit s).after past hpast
  have ⟨settled', waiting', l'⟩ := l.after later hlater
  exact ⟨⟨_, l'.accounts⟩, fun w hd => hd.octetsOn_after later, detaches l⟩

/-- A writer that takes one octet of two is taken away, the message is given up, and another writer
takes the next one. -/
theorem exists_accounts_after_torn :
    let s : WriterTable :=
      { writers := [{ script := [.accept (some 1)] }, { script := [.accept none] }] }
    let before :=
      (start none s).after [.push [65, 66], .connecting, .connected, .flush, .connecting]
    let now := before.after [.connected, .push [67]]
    before.Detached 0 ∧ before.octetsOn 0 = [65] ∧ before.queue.discarded = 1 ∧
      now.octetsOn 0 = [65] ∧ now.octetsOn 1 = [67] ∧
      (∃ ds, Accounts now ds) ∧ (∀ w, before.Detached w → now.octetsOn w = before.octetsOn w) ∧
      before.Detaches := by
  intro s before now
  have hadm : (start none s).Admissible
      ([.push [65, 66], .connecting, .connected, .flush, .connecting] ++
        [.connected, .push [67]]) :=
    ⟨trivial, trivial, ⟨by decide, by decide⟩, trivial, trivial,
      ⟨by decide +kernel, by decide +kernel⟩, trivial, trivial⟩
  have hdetached : before.Detached 0 := ⟨by decide +kernel, by decide +kernel⟩
  have hfirst : before.octetsOn 0 = [65] := by decide +kernel
  have hsecond : now.octetsOn 1 = [67] := by decide +kernel
  have haccounts := exists_accounts_after none s _ _ hadm
  exact ⟨hdetached, hfirst, by decide +kernel, (haccounts.2.1 0 hdetached).trans hfirst, hsecond,
    haccounts⟩

end QueueHistory

end TextLink
