import TextLink.Kernel.Calls
import TextLink.Medium.Scripted
import TextLink.SendQueue

/-!
# Media under observation

What a send queue does to its destinations shows in the octets that they accept. A `Recorder` is a
medium together with these octets: each with the destination that accepted it, in the order in which
they were accepted, over all destinations.

A queue cannot tell a recorder from the medium in it. The definitions of `SendQueue` are written
against `Medium`, so it is they that run over a recorder, and they do the same over it as over the
medium alone (`push_recorder`, `flush_recorder`).

## Main results

* `writeOnce_recorder` — what an attempt adds to the record.
* `push_recorder`, `flush_recorder` — recording changes nothing else.
-/

namespace TextLink

/-! ## What media may be relied on for -/

namespace Medium

variable {σ : Type} [Medium σ] {s : σ} {w : Nat} {bytes : Bytes}

theorem writeOnce_of_ok {n : Nat} (h : (write s w bytes).1 = .ok n) :
    writeOnce s w bytes = (.ok n, (write s w bytes).2) := by
  rw [writeOnce]
  split
  · next m hm => rw [Except.ok.inj (hm.symm.trans h)]
  · next e he => cases he.symm.trans h

theorem writeOnce_of_interrupted {e : IoError} (h : (write s w bytes).1 = .error e)
    (hk : e.kind = .interrupted) : writeOnce s w bytes = writeOnce (write s w bytes).2 w bytes := by
  rw [writeOnce]
  split
  · next n hn => cases hn.symm.trans h
  · next e' he =>
    have hee : e' = e := Except.error.inj (he.symm.trans h)
    rw [dif_pos (hee ▸ hk)]

theorem writeOnce_of_error {e : IoError} (h : (write s w bytes).1 = .error e)
    (hk : e.kind ≠ .interrupted) : writeOnce s w bytes = (.error e, (write s w bytes).2) := by
  rw [writeOnce]
  split
  · next n hn => cases hn.symm.trans h
  · next e' he =>
    have hee : e' = e := Except.error.inj (he.symm.trans h)
    rw [dif_neg (hee ▸ hk), hee]

end Medium

/-- A medium whose destinations accept no more octets than they are offered. -/
class LawfulMedium (σ : Type) [Medium σ] : Prop where
  accepted_le (s : σ) (w : Nat) (bytes : Bytes) (n : Nat) :
    (Medium.write s w bytes).1 = .ok n → n ≤ bytes.length

theorem Medium.writeOnce_le {σ : Type} [Medium σ] [LawfulMedium σ] {s : σ} {w n : Nat}
    {bytes : Bytes} (h : (writeOnce s w bytes).1 = .ok n) : n ≤ bytes.length := by
  fun_induction writeOnce s w bytes with
  | case1 s m hm =>
      have hmn : m = n := Except.ok.inj h
      exact hmn ▸ LawfulMedium.accepted_le s w bytes m hm
  | case2 s e he hk ih => exact ih h
  | case3 s e he hk => cases h

instance : LawfulMedium WriterTable where
  accepted_le t i bytes n h := by
    simp only [Medium.write, WriterTable.write] at h
    split at h
    · cases h
    · next w _ =>
      simp only [ScriptedWriter.write] at h
      split at h
      · cases h
        exact Nat.min_le_right _ _
      · cases h

instance : LawfulMedium Kernel where
  accepted_le k s bytes n h := by
    simp only [Medium.write, Kernel.write, Kernel.send] at h
    split at h
    · cases h
    · next sock _ =>
      simp only [Socket.send] at h
      repeat' split at h
      all_goals cases h
      exact Nat.min_le_right _ _

/-! ## Recording -/

/-- A medium, and what its destinations accepted. -/
structure Recorder (σ : Type) where
  medium : σ
  /-- The octets accepted, in order, each after the destination that accepted it. -/
  wire : List (Nat × UInt8) := []

namespace Recorder

/-- The octets of `bytes` that destination `w` accepted with its answer. -/
def taken (w : Nat) (bytes : Bytes) : Except IoError Nat → List (Nat × UInt8)
  | .ok n => (bytes.take n).map (w, ·)
  | .error _ => []

variable {σ : Type} [Medium σ]

/-- One attempt to write, recorded. -/
def write (r : Recorder σ) (w : Nat) (bytes : Bytes) : Except IoError Nat × Recorder σ :=
  let (answer, medium) := Medium.write r.medium w bytes
  (answer, { medium, wire := r.wire ++ taken w bytes answer })

instance : Medium (Recorder σ) where
  write := write
  patience r w := Medium.patience r.medium w
  patience_lt r w bytes e h hk := Medium.patience_lt r.medium w bytes e h hk

instance [LawfulMedium σ] : LawfulMedium (Recorder σ) where
  accepted_le r w bytes n h := LawfulMedium.accepted_le r.medium w bytes n h

/-- An attempt adds to the record what was accepted in the end. -/
theorem writeOnce_recorder (r : Recorder σ) (w : Nat) (bytes : Bytes) :
    Medium.writeOnce r w bytes = ((Medium.writeOnce r.medium w bytes).1,
      { medium := (Medium.writeOnce r.medium w bytes).2
        wire := r.wire ++ taken w bytes (Medium.writeOnce r.medium w bytes).1 }) := by
  fun_induction Medium.writeOnce r w bytes with
  | case1 r n hn =>
      have hm : (Medium.write r.medium w bytes).1 = .ok n := hn
      rw [Medium.writeOnce_of_ok hm]
      simp only [Medium.write, write, hm]
  | case2 r e he hk ih =>
      have hm : (Medium.write r.medium w bytes).1 = .error e := he
      rw [Medium.writeOnce_of_interrupted hm hk, ih]
      simp only [Medium.write, write, hm, taken, List.append_nil]
  | case3 r e he hk =>
      have hm : (Medium.write r.medium w bytes).1 = .error e := he
      rw [Medium.writeOnce_of_error hm hk]
      simp only [Medium.write, write, hm]

theorem wire_of_writeOnce {r r' : Recorder σ} {w : Nat} {bytes : Bytes}
    {answer : Except IoError Nat} (h : Medium.writeOnce r w bytes = (answer, r')) :
    r'.wire = r.wire ++ taken w bytes answer := by
  rw [writeOnce_recorder] at h
  cases h
  rfl

theorem wire_of_whole {r r' : Recorder σ} {w : Nat} {bytes : Bytes}
    (h : Medium.writeOnce r w bytes = (.ok bytes.length, r')) :
    r'.wire = r.wire ++ bytes.map (w, ·) := by
  rw [wire_of_writeOnce h, taken, List.take_length]

theorem wire_of_error {r r' : Recorder σ} {w : Nat} {bytes : Bytes} {e : IoError}
    (h : Medium.writeOnce r w bytes = (.error e, r')) : r'.wire = r.wire := by
  rw [wire_of_writeOnce h, taken, List.append_nil]

/-! ## A queue does not notice -/

theorem flushTo_recorder (w : Nat) (waiting : List Bytes) (q : SendQueue) (r : Recorder σ) :
    (q.flushTo w waiting r).1 = (q.flushTo w waiting r.medium).1 ∧
      (q.flushTo w waiting r).2.1 = (q.flushTo w waiting r.medium).2.1 ∧
      (q.flushTo w waiting r).2.2.medium = (q.flushTo w waiting r.medium).2.2 := by
  induction waiting generalizing q r with
  | nil => exact ⟨rfl, rfl, rfl⟩
  | cons head others ih =>
      simp only [SendQueue.flushTo, writeOnce_recorder]
      rcases Medium.writeOnce r.medium w head with ⟨answer, s⟩
      cases answer with
      | ok n =>
          by_cases hn : n = 0
          · simp only [hn, if_true, and_self]
          · by_cases hall : n = head.length
            · have hrest := ih q.dropHead { medium := s, wire := r.wire ++ taken w head (.ok n) }
              simp only [if_neg hn, if_pos hall]
              exact hrest
            · simp only [hn, hall, if_false, and_self]
      | error e =>
          by_cases hk : e.kind = .wouldBlock
          · simp only [hk, if_true, and_self]
          · by_cases hsent : 0 < q.headSent <;> simp only [hk, hsent, if_true, if_false, and_self]

theorem flush_recorder (q : SendQueue) (r : Recorder σ) :
    (q.flush r).1 = (q.flush r.medium).1 ∧ (q.flush r).2.1 = (q.flush r.medium).2.1 ∧
      (q.flush r).2.2.medium = (q.flush r.medium).2.2 := by
  unfold SendQueue.flush
  split
  · exact ⟨rfl, rfl, rfl⟩
  · exact flushTo_recorder _ _ q r

theorem push_recorder (q : SendQueue) (r : Recorder σ) (message : Bytes) :
    (q.push r message).1 = (q.push r.medium message).1 ∧
      (q.push r message).2.1 = (q.push r.medium message).2.1 ∧
      (q.push r message).2.2.medium = (q.push r.medium message).2.2 := by
  unfold SendQueue.push
  split
  · exact ⟨rfl, rfl, rfl⟩
  · by_cases hempty : message.isEmpty
    · simp only [hempty, if_true, and_self]
    · simp only [hempty, Bool.false_eq_true, if_false]
      split
      · exact ⟨rfl, rfl, rfl⟩
      · rw [writeOnce_recorder]
        rcases Medium.writeOnce r.medium _ message with ⟨answer, s⟩
        cases answer with
        | ok n => by_cases hall : n = message.length <;>
            simp only [hall, if_true, if_false, and_self]
        | error e => exact ⟨rfl, rfl, rfl⟩

end Recorder

end TextLink
