import TextLink.Kernel.Waiting
import TextLink.Proofs.Kernel.Opening
import TextLink.Proofs.Kernel.Progress

/-!
# Where an attempt to connect fails

Connecting takes several calls, each of which may fail, and which of them fails first is settled
before any is made: the script has a verdict for it, the plan of the next socket says so, or the
descriptor is registered already. The first such obstacle is read off the kernel, for the calls that
begin an attempt (`obstacle?`) and for those that conclude it after an event (`obstacleAfter?`).
Neither mentions how the calls are made.

## Main results

* `openStream_of_obstacle`, `openStream_of_clear` — making a socket and starting its connect fails
  just where there is an obstacle to it.
* `register_ok_iff`, `reregister_ok_iff`, `takeError_eq` — the calls on the socket that is made.
-/

namespace TextLink

/-- Where an attempt to connect can fail. -/
inductive FailurePoint where
  /-- There is no socket to be had. -/
  | socket
  /-- One of the four calls that set the socket up fails, after so many others. -/
  | setUp (others : Nat)
  /-- The connect fails on the spot. -/
  | connect
  /-- The socket cannot be watched. -/
  | register
  /-- The pending error cannot be read. -/
  | readError
  /-- The pending error says that the connect failed. -/
  | pendingError
  /-- There is no error, but the socket hung up and takes nothing. -/
  | hangup
  /-- The connect succeeded, and the socket cannot be watched for what comes next. -/
  | reregister
deriving DecidableEq, Repr

namespace Kernel

variable {k k' : Kernel} {s : SocketId} {c c' : CallName} {token : Nat} {interest : Interest}

/-! ## Scripts -/

/-- The verdicts for calls named `c`. -/
def scriptOf (c : CallName) (vs : List (CallName × Verdict)) : List Verdict :=
  (vs.filter fun v => v.1 = c).map Prod.snd

/-- Whether a call named `c` is to fail that comes after `others` of its name. -/
def refuses (k : Kernel) (c : CallName) (others : Nat) : Bool :=
  (scriptOf c k.verdicts)[others]?.getD .ok != .ok

theorem scriptOf_cons (c name : CallName) (v : Verdict) (vs : List (CallName × Verdict)) :
    scriptOf c ((name, v) :: vs) = if name = c then v :: scriptOf c vs else scriptOf c vs := by
  unfold scriptOf
  by_cases hname : name = c <;> simp [hname]

/-- The first verdict for the name is taken, and all others are left. -/
theorem splitVerdict_script (c : CallName) (vs : List (CallName × Verdict)) :
    (splitVerdict c vs).1 = (scriptOf c vs)[0]?.getD .ok ∧
      scriptOf c (splitVerdict c vs).2 = (scriptOf c vs).tail ∧
      ∀ c', c' ≠ c → scriptOf c' (splitVerdict c vs).2 = scriptOf c' vs := by
  induction vs with
  | nil => exact ⟨rfl, rfl, fun _ _ => rfl⟩
  | cons entry vs ih =>
      obtain ⟨name, v⟩ := entry
      obtain ⟨hfirst, hown, hother⟩ := ih
      unfold splitVerdict
      by_cases hname : name = c
      · simp only [if_pos hname, scriptOf_cons]
        refine ⟨rfl, rfl, fun c' hc => ?_⟩
        rw [if_neg fun heq => hc (heq.symm.trans hname)]
      · simp only [if_neg hname, scriptOf_cons]
        refine ⟨hfirst, hown, fun c' hc => ?_⟩
        rw [hother c' hc]

/-- A call goes through unless it is to fail, and leaves the script for other names. -/
theorem takeVerdict_cases (k : Kernel) (c : CallName) : ∃ vs,
    (k.refuses c 0 = false ∧ k.takeVerdict c = (.ok, { k with verdicts := vs }) ∨
      k.refuses c 0 = true ∧ ∃ e, k.takeVerdict c = (.fails e, { k with verdicts := vs })) ∧
    scriptOf c vs = (scriptOf c k.verdicts).tail ∧
    ∀ c', c' ≠ c → scriptOf c' vs = scriptOf c' k.verdicts := by
  have ⟨hfirst, hown, hother⟩ := splitVerdict_script c k.verdicts
  unfold refuses takeVerdict
  rw [← hfirst]
  generalize splitVerdict c k.verdicts = r at hown hother ⊢
  rcases r with ⟨_ | e, vs⟩
  · exact ⟨vs, .inl ⟨rfl, rfl⟩, hown, hother⟩
  · exact ⟨vs, .inr ⟨rfl, e, rfl⟩, hown, hother⟩

theorem refuses_congr {k k' : Kernel} {c : CallName}
    (h : scriptOf c k'.verdicts = scriptOf c k.verdicts) (n : Nat) :
    k'.refuses c n = k.refuses c n := by
  rw [refuses, refuses, h]

/-- The calls of one name take their verdicts in turn, and leave those of other names. -/
theorem takeVerdicts_replicate (k : Kernel) (c : CallName) (n : Nat) :
    ∃ v vs, k.takeVerdicts (List.replicate n c) = (v, { k with verdicts := vs }) ∧
      (v = .ok ↔ ∀ i < n, k.refuses c i = false) ∧
      ∀ c', c' ≠ c → scriptOf c' vs = scriptOf c' k.verdicts := by
  induction n generalizing k with
  | zero => exact ⟨.ok, k.verdicts, rfl, by simp, fun _ _ => rfl⟩
  | succ n ih =>
      obtain ⟨vs, ⟨hfirst, htake⟩ | ⟨hfirst, e, htake⟩, hown, hother⟩ := takeVerdict_cases k c <;>
        rw [List.replicate_succ, takeVerdicts, htake]
      · obtain ⟨v, vs', htakes, hiff, hothers⟩ := ih { k with verdicts := vs }
        -- The other calls take what the first one leaves of the script.
        have hnext (i : Nat) : refuses { k with verdicts := vs } c i = k.refuses c (i + 1) := by
          rw [refuses, refuses, hown, List.getElem?_tail]
        refine ⟨v, vs', htakes, hiff.trans ⟨fun h i hi => ?_, fun h i hi => ?_⟩,
          fun c' hc => (hothers c' hc).trans (hother c' hc)⟩
        · cases i with
          | zero => exact hfirst
          | succ i => exact (hnext i).symm.trans (h i (Nat.lt_of_succ_lt_succ hi))
        · exact (hnext i).trans (h (i + 1) (Nat.succ_lt_succ hi))
      · refine ⟨.fails e, vs, rfl, iff_of_false nofun fun h => ?_, hother⟩
        cases hfirst.symm.trans (h 0 (Nat.succ_pos n))

/-! ## Beginning an attempt -/

/-- What keeps a socket from being made and starting to connect, if anything does. -/
def openingObstacle? (k : Kernel) : Option FailurePoint :=
  if k.refuses .socket 0 then some .socket
  else
    match (List.range 4).find? (k.refuses .fcntl) with
    | some others => some (.setUp others)
    | none =>
      let answer := (k.plans.headD {}).connect
      if answer = .ok ∨ Socket.goesOn answer then none else some .connect

/-- Whether the descriptor to be taken next is registered already. -/
def isBarred (k : Kernel) : Bool := k.registrations.any fun r => r.descriptor == k.takeDescriptor.1

/-- What an attempt to connect that begins now fails at on the spot, if at anything. -/
def obstacle? (k : Kernel) : Option FailurePoint :=
  match k.openingObstacle? with
  | some p => some p
  | none => if k.refuses .epollCtl 0 || k.isBarred then some .register else none

/-- A socket is set up, unless a verdict says otherwise. -/
theorem openSocket_eq (k : Kernel) (family : Family) :
    (k.refuses .socket 0 = false ∧ (∀ i < 4, k.refuses .fcntl i = false) ∧
      ∃ vs spare next, scriptOf .epollCtl vs = scriptOf .epollCtl k.verdicts ∧
        k.openSocket family = (.ok k.sockets.length,
          k.made vs spare next (k.nextSocket k.takeDescriptor.1) family)) ∨
    ¬ (k.refuses .socket 0 = false ∧ ∀ i < 4, k.refuses .fcntl i = false) ∧
      ∃ e k', k.openSocket family = (.error e, k') := by
  obtain ⟨vs, ⟨hfirst, htake⟩ | ⟨hfirst, e, htake⟩, _, hother⟩ := takeVerdict_cases k .socket
  · obtain ⟨spare, next, hopen⟩ := openSocket_of_ok htake family
    obtain ⟨v, vs', hfcntl, hiff, hothers⟩ := takeVerdicts_replicate
      (k.made vs spare next (k.nextSocket k.takeDescriptor.1) family) .fcntl 4
    have hrefuses (i : Nat) : (k.made vs spare next (k.nextSocket k.takeDescriptor.1)
      family).refuses .fcntl i = k.refuses .fcntl i := refuses_congr (hother .fcntl (by decide)) i
    have hwatching : scriptOf .epollCtl vs' = scriptOf .epollCtl k.verdicts :=
      (hothers .epollCtl (by decide)).trans (hother .epollCtl (by decide))
    simp only [hrefuses] at hiff
    rw [hopen, hfcntl]
    cases v with
    | ok => exact .inl ⟨hfirst, hiff.1 rfl, vs', spare, next, hwatching, rfl⟩
    | fails e =>
        refine .inr ⟨fun hboth => ?_, e, _, rfl⟩
        cases hiff.2 hboth.2
  · unfold openSocket
    rw [htake]
    refine .inr ⟨fun hboth => ?_, e, _, rfl⟩
    cases hfirst.symm.trans hboth.1

theorem openingObstacle?_eq_none_iff : k.openingObstacle? = none ↔
    (k.refuses .socket 0 = false ∧ ∀ i < 4, k.refuses .fcntl i = false) ∧
      ((k.plans.headD {}).connect = .ok ∨ Socket.goesOn (k.plans.headD {}).connect = true) := by
  unfold openingObstacle?
  have hfind : (List.range 4).find? (k.refuses .fcntl) = none ↔
      ∀ i < 4, k.refuses .fcntl i = false := by simp [List.find?_eq_none]
  by_cases hsocket : k.refuses .socket 0 = true
  · simp [hsocket]
  · rw [if_neg hsocket, ← hfind]
    rw [Bool.not_eq_true] at hsocket
    rcases (List.range 4).find? (k.refuses .fcntl) with _ | i
    · simp only [ite_eq_left_iff, reduceCtorEq, imp_false, Decidable.not_not, hsocket, true_and]
    · simp

theorem openStream_of_obstacle {p : FailurePoint} (h : k.openingObstacle? = some p)
    (address : Address) : ∃ e k', k.openStream address = (.error e, k') := by
  have hnot := mt openingObstacle?_eq_none_iff.2 (by rw [h]; nofun)
  unfold openStream
  rcases openSocket_eq k address.family with ⟨hsocket, hfcntl, vs, spare, next, _, hopen⟩ |
    ⟨_, e, k', hopen⟩ <;> rw [hopen]
  · have hplan : (k.nextSocket k.takeDescriptor.1).plan.connect = (k.plans.headD {}).connect := rfl
    simp only [connect_made, hplan]
    rcases hanswer : (k.plans.headD {}).connect with _ | e
    · exact absurd ⟨⟨hsocket, hfcntl⟩, .inl hanswer⟩ hnot
    · by_cases hgoes : Socket.goesOn (.fails e) = true
      · exact absurd ⟨⟨hsocket, hfcntl⟩, .inr (hanswer ▸ hgoes)⟩ hnot
      · simp only [startedBy, if_neg hgoes]
        exact ⟨_, _, rfl⟩
  · exact ⟨e, k', rfl⟩

/-- Where there is no obstacle, the next socket connects; what its registration depends on is as it
was. -/
theorem openStream_of_clear (h : k.openingObstacle? = none) (address : Address) :
    ∃ k', k.openStream address =
        (.ok (k.sockets.length, decide ((k.plans.headD {}).connect = .ok)), k') ∧
      k'.refuses .epollCtl 0 = k.refuses .epollCtl 0 ∧
      k'.isRegistered k.sockets.length = k.isBarred := by
  obtain ⟨hboth, hplan⟩ := openingObstacle?_eq_none_iff.1 h
  unfold openStream
  rcases openSocket_eq k address.family with ⟨_, _, vs, spare, next, hscript, hopen⟩ | ⟨hnot, _⟩
  · have hanswer : (k.nextSocket k.takeDescriptor.1).plan.connect = (k.plans.headD {}).connect :=
      rfl
    have hdescriptor : (k.made vs spare next (k.nextSocket k.takeDescriptor.1).connect
        address.family).descriptor k.sockets.length = k.takeDescriptor.1 := by
      have hlook (sock : Socket) : (k.made vs spare next sock
        address.family).sockets[k.sockets.length]? = some sock := List.getElem?_concat_length
      unfold descriptor
      rw [hlook]
      exact congrArg Prod.fst (place_connect (k.nextSocket k.takeDescriptor.1))
    rw [hopen]
    simp only [connect_made, hanswer, startedBy_of_goesOn hplan]
    refine ⟨_, rfl, refuses_congr hscript 0, ?_⟩
    show (k.registrations.any fun r => r.descriptor == (k.made vs spare next
      (k.nextSocket k.takeDescriptor.1).connect address.family).descriptor k.sockets.length) = _
    rw [hdescriptor]
    rfl
  · exact absurd hboth hnot

/-! ## Calls on the socket -/

theorem register_ok_iff (k : Kernel) (s : SocketId) (token : Nat) (interest : Interest) :
    (k.register s token interest).1 = .ok ↔
      (k.refuses .epollCtl 0 || k.isRegistered s) = false := by
  obtain ⟨vs, ⟨hfirst, htake⟩ | ⟨hfirst, e, htake⟩, _, _⟩ := takeVerdict_cases k .epollCtl <;>
    unfold register <;> rw [htake, hfirst]
  · simp only [isRegistered_verdicts, true_and, Bool.false_or]
    rcases k.isRegistered s with _ | _ <;> simp
  · simp

theorem reregister_ok_iff (k : Kernel) (s : SocketId) (token : Nat) (interest : Interest) :
    (k.reregister s token interest).1 = .ok ↔
      (k.refuses .epollCtl 0 || !k.isRegistered s) = false := by
  obtain ⟨vs, ⟨hfirst, htake⟩ | ⟨hfirst, e, htake⟩, _, _⟩ := takeVerdict_cases k .epollCtl <;>
    unfold reregister <;> rw [htake, hfirst]
  · simp only [isRegistered_verdicts, true_and, Bool.false_or]
    rcases k.isRegistered s with _ | _ <;> simp
  · simp

/-! ## Concluding an attempt -/

/-- What an attempt on socket `s` fails at when `event` has come, if at anything. -/
def obstacleAfter? (k : Kernel) (s : SocketId) (event : Event) : Option FailurePoint :=
  if k.refuses .getsockopt 0 then some .readError
  else if (k.pendingError s).isSome then some .pendingError
  else if event.hangup && !event.writable then some .hangup
  else if k.refuses .epollCtl 0 || !k.isRegistered s then some .reregister
  else none

/-- The pending error is read, unless a verdict says otherwise; reading it leaves what the
registration depends on. -/
theorem takeError_eq (k : Kernel) (s : SocketId) :
    ∃ k', k'.refuses .epollCtl 0 = k.refuses .epollCtl 0 ∧ k'.isRegistered s = k.isRegistered s ∧
      (k.refuses .getsockopt 0 = false ∧ k.takeError s = (.ok (k.pendingError s), k') ∨
        k.refuses .getsockopt 0 = true ∧ ∃ e, k.takeError s = (.error e, k')) := by
  obtain ⟨vs, hcases, _, hother⟩ := takeVerdict_cases k .getsockopt
  have htable := (serves_takeError k s).table
  have hregistered : (k.takeError s).2.isRegistered s = k.isRegistered s := by
    unfold isRegistered
    rw [htable.registrations_eq, htable.descriptor_eq]
  refine ⟨(k.takeError s).2, refuses_congr ?_ 0, hregistered, ?_⟩
  · rcases hcases with ⟨_, htake⟩ | ⟨_, e, htake⟩ <;>
    · unfold takeError
      rw [htake]
      exact hother .epollCtl (by decide)
  · rcases hcases with ⟨hfirst, htake⟩ | ⟨hfirst, e, htake⟩ <;> unfold takeError <;> rw [htake]
    · exact .inl ⟨hfirst, rfl⟩
    · exact .inr ⟨hfirst, e, rfl⟩

end Kernel

end TextLink
