import TextLink.Medium

/-!
# Destinations in memory

A `ScriptedWriter` answers writes as it is told beforehand: one item of its script per attempt, and
after the script the same answer again and again. The closing answer is never an interruption, or a
writer that is tried again after one would be tried forever.

A list of such writers, numbered by position, is a medium.
-/

namespace TextLink

/-- The answer to one attempt to write. -/
inductive WriteAnswer where
  /-- Accept at most `most` bytes; `none`: all of them. -/
  | accept (most : Option Nat)
  /-- Fail. -/
  | fail (k : ErrorKind)
deriving DecidableEq, Repr, Inhabited

/-- Blocking: the answer of a writer that was told nothing. -/
def WriteAnswer.block : WriteAnswer := .fail .wouldBlock

/-- A destination that answers as scripted. -/
structure ScriptedWriter where
  /-- The answers to come. -/
  script : List WriteAnswer := []
  /-- The answer once the script is used up. -/
  final : WriteAnswer := .block
  /-- All bytes accepted. -/
  wire : Bytes := []
  /-- How many attempts were made. -/
  writes : Nat := 0
  final_ne : final ≠ .fail .interrupted := by decide
deriving DecidableEq

namespace ScriptedWriter

/-- Appends answers, and replaces the closing one by `final` if it is given and can be repeated. -/
def extend (w : ScriptedWriter) (script : List WriteAnswer) (final : Option WriteAnswer) :
    ScriptedWriter :=
  let longer := { w with script := w.script ++ script }
  match final with
  | none => longer
  | some a =>
    if h : a ≠ .fail .interrupted then { longer with final := a, final_ne := h } else longer

/-- The answer to the next attempt. -/
def nextAnswer (w : ScriptedWriter) : WriteAnswer := w.script.headD w.final

/-- One attempt to write. -/
def write (w : ScriptedWriter) (bytes : Bytes) : Except IoError Nat × ScriptedWriter :=
  let used := { w with script := w.script.tail, writes := w.writes + 1 }
  match w.nextAnswer with
  | .accept most =>
    let n := min (most.getD bytes.length) bytes.length
    (.ok n, { used with wire := w.wire ++ bytes.take n })
  | .fail k => (.error (.kindOnly k), used)

theorem length_script_lt_of_interrupted {w : ScriptedWriter} {bytes : Bytes} {e : IoError}
    (h : (w.write bytes).1 = .error e) (hk : e.kind = .interrupted) :
    (w.write bytes).2.script.length < w.script.length := by
  rcases hs : w.script with _ | ⟨a, as⟩
  · exfalso
    have hne := w.final_ne
    cases hf : w.final with
    | accept most => simp [write, nextAnswer, hs, hf] at h
    | fail k =>
      simp only [write, nextAnswer, hs, hf, List.headD_nil, Except.error.injEq] at h
      subst h
      simp only [IoError.kind] at hk
      simp [hf, hk] at hne
  · cases a <;> simp [write, nextAnswer, hs]

end ScriptedWriter

/-- Writers numbered by their position. -/
structure WriterTable where
  writers : List ScriptedWriter := []
deriving DecidableEq, Inhabited

namespace WriterTable

/-- One attempt to write to writer `i`; a number that names none is not connected. -/
def write (t : WriterTable) (i : Nat) (bytes : Bytes) : Except IoError Nat × WriterTable :=
  match t.writers[i]? with
  | none => (.error (.kindOnly .notConnected), t)
  | some w => ((w.write bytes).1, { writers := t.writers.set i (w.write bytes).2 })

/-- How many scripted answers writer `i` has left. -/
def patience (t : WriterTable) (i : Nat) : Nat :=
  (t.writers[i]?.map fun w => w.script.length).getD 0

theorem patience_lt (t : WriterTable) (i : Nat) (bytes : Bytes) (e : IoError)
    (h : (t.write i bytes).1 = .error e) (hk : e.kind = .interrupted) :
    (t.write i bytes).2.patience i < t.patience i := by
  unfold write at h ⊢
  unfold patience
  cases hw : t.writers[i]? with
  | none =>
    simp only [hw, Except.error.injEq] at h
    subst h
    simp [IoError.kind] at hk
  | some w =>
    have hi : i < t.writers.length := by
      rcases Nat.lt_or_ge i t.writers.length with hi | hi
      · exact hi
      · simp [List.getElem?_eq_none hi] at hw
    simp only [hw] at h
    simpa [List.getElem?_set_self hi] using ScriptedWriter.length_script_lt_of_interrupted h hk

instance : Medium WriterTable := ⟨write, patience, patience_lt⟩

/-- Adds a writer, and tells its number. -/
def add (t : WriterTable) (w : ScriptedWriter) : Nat × WriterTable :=
  (t.writers.length, { writers := t.writers ++ [w] })

/-- Extends the script of writer `i`. -/
def extend (t : WriterTable) (i : Nat) (script : List WriteAnswer) (final : Option WriteAnswer) :
    WriterTable :=
  { writers := t.writers.modify i fun w => w.extend script final }

end WriterTable

end TextLink
