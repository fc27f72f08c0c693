import TextLink.Proofs.Kernel.Changes

/-!
# How a socket is made and starts to connect

Making a socket and starting its connect is one call for the loop and several for the kernel, any of
which may fail. `Opening` lists how it goes, with the kernel that each way leaves: there is no
socket; or there is one, with the next plan, which is closed again because it could not be set up or
its connect failed on the spot; or its connect is under way or has succeeded. A verdict is used up
whenever a call fails that the plan did not let fail.

## Main results

* `opening` — every `openStream` goes one of these ways.
-/

namespace TextLink.Kernel

variable {k k' : Kernel} {s : SocketId}

/-! ## Verdicts -/

theorem length_splitVerdict_lt {c : CallName} {vs left : List (CallName × Verdict)} {e : Errno}
    (h : splitVerdict c vs = (.fails e, left)) : left.length < vs.length := by
  induction vs generalizing left with
  | nil => cases h
  | cons v vs ih =>
      unfold splitVerdict at h
      by_cases hname : v.1 = c
      · rw [if_pos hname] at h
        obtain ⟨-, rfl⟩ := Prod.mk.inj h
        exact Nat.lt_succ_self _
      · rw [if_neg hname] at h
        obtain ⟨hfails, rfl⟩ := Prod.mk.inj h
        exact Nat.succ_lt_succ (ih (Prod.ext hfails rfl))

/-- Taking a verdict changes the verdicts, and a failure uses one up. -/
theorem takeVerdict_eq (k : Kernel) (c : CallName) : ∃ v vs,
    k.takeVerdict c = (v, { k with verdicts := vs }) ∧ vs.length ≤ k.verdicts.length ∧
      (v ≠ .ok → vs.length < k.verdicts.length) := by
  refine ⟨_, _, rfl, length_splitVerdict_le c k.verdicts, fun hv => ?_⟩
  rcases h : splitVerdict c k.verdicts with ⟨_ | e, vs⟩ <;> rw [h] at hv
  · exact absurd rfl hv
  · exact length_splitVerdict_lt h

theorem takeVerdicts_eq (k : Kernel) (cs : List CallName) : ∃ v vs,
    k.takeVerdicts cs = (v, { k with verdicts := vs }) ∧ vs.length ≤ k.verdicts.length ∧
      (v ≠ .ok → vs.length < k.verdicts.length) := by
  induction cs generalizing k with
  | nil => exact ⟨.ok, k.verdicts, rfl, Nat.le_refl _, fun h => absurd rfl h⟩
  | cons c cs ih =>
      obtain ⟨v, vs, htake, hle, hlt⟩ := takeVerdict_eq k c
      unfold takeVerdicts
      rw [htake]
      cases v with
      | fails e => exact ⟨.fails e, vs, rfl, hle, hlt⟩
      | ok =>
          obtain ⟨v', vs', htake', hle', hlt'⟩ := ih { k with verdicts := vs }
          exact ⟨v', vs', htake', Nat.le_trans hle' hle,
            fun hv => Nat.lt_of_lt_of_le (hlt' hv) hle⟩

/-! ## Making a socket -/

/-- The socket made next, under descriptor `d`. -/
def nextSocket (k : Kernel) (d : Nat) : Socket :=
  { descriptor := d, plan := k.plans.headD {}, room := (k.plans.headD {}).room }

/-- The kernel with the socket made next, in whatever state, and the call recorded. -/
def made (k : Kernel) (vs : List (CallName × Verdict)) (spare : List Nat) (next : Nat)
    (sock : Socket) (family : Family) : Kernel :=
  (withSocket { k with verdicts := vs } spare next sock k.plans.tail).record
    (.socket family (.ok k.sockets.length))

/-- How making a socket and starting its connect goes. -/
inductive Opening (k : Kernel) (address : Address) :
    Except Errno (SocketId × Bool) × Kernel → Prop where
  | unmade {e : Errno} {vs : List (CallName × Verdict)} (hvs : vs.length < k.verdicts.length) :
      Opening k address
        (.error e, record { k with verdicts := vs } (.socket address.family (.error e)))
  /-- It cannot be set up, and is closed again. -/
  | unset {e : Errno} {vs : List (CallName × Verdict)} {spare : List Nat} {d next : Nat}
      (hvs : vs.length < k.verdicts.length) :
      Opening k address
        (.error e, (k.made vs spare next (k.nextSocket d) address.family).close k.sockets.length)
  /-- It cannot connect, and is closed again. -/
  | refused {e : Errno} {vs : List (CallName × Verdict)} {spare : List Nat} {d next : Nat}
      (hvs : vs.length ≤ k.verdicts.length) :
      Opening k address
        (.error e, ((k.made vs spare next (k.nextSocket d).connect address.family).record
          (.connect k.sockets.length address (k.plans.headD {}).connect)).close k.sockets.length)
  | started {vs : List (CallName × Verdict)} {spare : List Nat} {d next : Nat}
      (hvs : vs.length ≤ k.verdicts.length)
      (hplan : Socket.goesOn (k.plans.headD {}).connect = true ∨
        (k.plans.headD {}).connect = .ok) :
      Opening k address
        (.ok (k.sockets.length, decide ((k.plans.headD {}).connect = .ok)),
          (k.made vs spare next (k.nextSocket d).connect address.family).record
            (.connect k.sockets.length address (k.plans.headD {}).connect))

theorem takeDescriptor_eq (k : Kernel) : ∃ d spare next,
    k.takeDescriptor = (d, { k with spareDescriptors := spare, nextDescriptor := next }) := by
  unfold takeDescriptor
  split
  · exact ⟨_, _, _, rfl⟩
  · exact ⟨_, _, _, rfl⟩

theorem takeDescriptor_verdicts (k : Kernel) (vs : List (CallName × Verdict)) :
    (takeDescriptor { k with verdicts := vs }).1 = k.takeDescriptor.1 := by
  unfold takeDescriptor
  rcases k.spareDescriptors with _ | ⟨d, later⟩ <;> rfl

/-- What comes of the calls that set socket `s` up. -/
def settleSetUp (s : SocketId) : Verdict × Kernel → Except Errno SocketId × Kernel
  | (.ok, k) => (.ok s, k)
  | (.fails e, k) => (.error e, k.close s)

/-- A socket that there is takes the next descriptor, and is set up then. -/
theorem openSocket_of_ok {vs : List (CallName × Verdict)}
    (h : k.takeVerdict .socket = (.ok, { k with verdicts := vs })) (family : Family) :
    ∃ spare next, k.openSocket family = settleSetUp k.sockets.length
      ((k.made vs spare next (k.nextSocket k.takeDescriptor.1) family).takeVerdicts
        (List.replicate 4 .fcntl)) := by
  obtain ⟨d, spare, next, hd⟩ := takeDescriptor_eq { k with verdicts := vs }
  obtain ⟨d', spare', next', hd'⟩ := takeDescriptor_eq
    { k with verdicts := vs, spareDescriptors := spare, nextDescriptor := next }
  have hnext : k.takeDescriptor.1 = d := by rw [← takeDescriptor_verdicts k vs, hd]
  refine ⟨spare', next', ?_⟩
  unfold openSocket
  rw [h, hnext]
  simp only [hd, hd']
  rfl

/-- There is no socket, or the next one is set up, or closed again. -/
theorem openSocket_cases (k : Kernel) (family : Family) :
    (∃ e vs, vs.length < k.verdicts.length ∧ k.openSocket family =
      (.error e, record { k with verdicts := vs } (.socket family (.error e)))) ∨
    ∃ d spare next vs, vs.length ≤ k.verdicts.length ∧
      (k.openSocket family =
          (.ok k.sockets.length, k.made vs spare next (k.nextSocket d) family) ∨
        ∃ e, vs.length < k.verdicts.length ∧ k.openSocket family =
          (.error e, (k.made vs spare next (k.nextSocket d) family).close k.sockets.length)) := by
  obtain ⟨v, vs, hsocket, hle, hlt⟩ := takeVerdict_eq k .socket
  cases v with
  | fails e =>
      refine .inl ⟨e, vs, hlt nofun, ?_⟩
      unfold openSocket
      rw [hsocket]
  | ok =>
      obtain ⟨spare, next, hopen⟩ := openSocket_of_ok hsocket family
      obtain ⟨v', vs', hfcntl, hle', hlt'⟩ := takeVerdicts_eq
        (k.made vs spare next (k.nextSocket k.takeDescriptor.1) family) (List.replicate 4 .fcntl)
      have hle' : vs'.length ≤ vs.length := hle'
      have hlt' : v' ≠ .ok → vs'.length < vs.length := hlt'
      rw [hopen, hfcntl]
      refine .inr ⟨k.takeDescriptor.1, spare, next, vs', Nat.le_trans hle' hle, ?_⟩
      cases v' with
      | ok => exact .inl rfl
      | fails e => exact .inr ⟨e, Nat.lt_of_lt_of_le (hlt' nofun) hle, rfl⟩

theorem modify_concat {α : Type} (l : List α) (a : α) (f : α → α) :
    (l ++ [a]).modify l.length f = l ++ [f a] := by
  induction l with
  | nil => rfl
  | cons b l ih =>
      rw [List.cons_append, List.length_cons, List.modify_succ_cons, ih]
      rfl

theorem updateSocket_made (vs : List (CallName × Verdict)) (spare : List Nat) (next : Nat)
    (sock : Socket) (family : Family) (f : Socket → Socket) :
    (k.made vs spare next sock family).updateSocket k.sockets.length f =
      k.made vs spare next (f sock) family := by
  unfold made updateSocket record withSocket
  simp only [modify_concat]

/-- Whether a connect that is answered so has succeeded at once, unless it has failed. -/
def startedBy : Verdict → Except Errno Bool
  | .ok => .ok true
  | .fails e => if Socket.goesOn (.fails e) then .ok false else .error e

/-- A connect that is not refused on the spot has been started. -/
theorem startedBy_of_goesOn {answer : Verdict} (h : answer = .ok ∨ Socket.goesOn answer = true) :
    startedBy answer = .ok (decide (answer = .ok)) := by
  rcases answer with _ | e
  · rfl
  · have hgoes := h.resolve_left nofun
    simp only [startedBy, if_pos hgoes]
    rfl

/-- The connect of the socket just made is answered by its plan. -/
theorem connect_made (vs : List (CallName × Verdict)) (spare : List Nat) (next : Nat)
    (sock : Socket) (family : Family) (address : Address) :
    (k.made vs spare next sock family).connect k.sockets.length address =
      (startedBy sock.plan.connect, (k.made vs spare next sock.connect family).record
        (.connect k.sockets.length address sock.plan.connect)) := by
  have hlook : (k.made vs spare next sock family).sockets[k.sockets.length]? = some sock :=
    List.getElem?_concat_length
  unfold connect
  simp only [hlook, updateSocket_made]
  rcases sock.plan.connect with _ | e <;> rfl

/-- Making a socket and starting its connect goes one of these ways. -/
theorem opening (k : Kernel) (address : Address) : Opening k address (k.openStream address) := by
  unfold openStream
  rcases openSocket_cases k address.family with ⟨e, vs, hlt, hsocket⟩ |
    ⟨d, spare, next, vs, hle, hsocket | ⟨e, hlt, hsocket⟩⟩
  · rw [hsocket]
    exact .unmade hlt
  · rw [hsocket]
    simp only [connect_made]
    have hplan : (k.nextSocket d).plan.connect = (k.plans.headD {}).connect := rfl
    rw [hplan]
    have hstarted (hplan : Socket.goesOn (k.plans.headD {}).connect = true ∨
        (k.plans.headD {}).connect = .ok) : Opening k address
          (.ok (k.sockets.length, decide ((k.plans.headD {}).connect = .ok)),
            (k.made vs spare next (k.nextSocket d).connect address.family).record
              (.connect k.sockets.length address (k.plans.headD {}).connect)) :=
      .started hle hplan
    have hrefused (e : Errno) : Opening k address
        (.error e, ((k.made vs spare next (k.nextSocket d).connect address.family).record
          (.connect k.sockets.length address (k.plans.headD {}).connect)).close k.sockets.length) :=
      .refused hle
    by_cases hgoes : (k.plans.headD {}).connect = .ok ∨
        Socket.goesOn (k.plans.headD {}).connect = true
    · rw [startedBy_of_goesOn hgoes]
      exact hstarted hgoes.symm
    · rcases hanswer : (k.plans.headD {}).connect with _ | e <;> rw [hanswer] at hgoes hrefused
      · exact absurd (.inl rfl) hgoes
      · rw [startedBy, if_neg fun h => hgoes (.inr h)]
        exact hrefused e
  · rw [hsocket]
    exact .unset hlt

end TextLink.Kernel
