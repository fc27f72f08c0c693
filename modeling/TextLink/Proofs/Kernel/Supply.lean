import Mathlib.Data.List.Basic
import TextLink.Proofs.Kernel.Effects
import TextLink.Proofs.Kernel.Opening

/-!
# What can still happen

A kernel left to itself has only so much to report. What arrived can be received once, a failure to
come fails one call, a plan is carried out once, and a socket that was told to take no more takes no
more. `Kernel.supply` counts all of this, and no call adds to it.

Calls are counted off socket by socket: what a socket loses is lost to the kernel (`Spends`). So a
socket that had something to report takes it along when it is closed.

## Main results

* `Dealing.spends` — no call adds to what can happen.
* `Socket.supply_pos_of_readiness` — what is ready has something to report.
* `Socket.supply_receive_lt`, `Socket.supply_send_lt` — receiving and sending use it up.
-/

namespace TextLink

open Relation (ReflTransGen)

/-! ## Totals -/

/-- The sum of what `f` says of each. -/
def total {α : Type} (f : α → Nat) (xs : List α) : Nat := xs.foldr (fun x others => f x + others) 0

section Total

variable {α : Type} {f f' : α → Nat} {xs : List α} {i : Nat} {x y : α}

theorem total_append (f : α → Nat) (xs ys : List α) :
    total f (xs ++ ys) = total f xs + total f ys := by
  induction xs with
  | nil => exact (Nat.zero_add _).symm
  | cons x xs ih =>
      show f x + total f (xs ++ ys) = f x + total f xs + total f ys
      rw [ih, Nat.add_assoc]

theorem total_congr (h : ∀ x ∈ xs, f' x = f x) : total f' xs = total f xs := by
  induction xs with
  | nil => rfl
  | cons a xs ih =>
      show f' a + total f' xs = f a + total f xs
      rw [h a List.mem_cons_self, ih fun x hx => h x (List.mem_cons_of_mem _ hx)]

theorem total_add_le {n : Nat} (h : ∀ x, f x + n ≤ f' x) :
    total f xs + xs.length * n ≤ total f' xs := by
  induction xs with
  | nil =>
      show 0 + 0 * n ≤ 0
      omega
  | cons a xs ih =>
      have ha := h a
      show f a + total f xs + (xs.length + 1) * n ≤ f' a + total f' xs
      rw [Nat.add_mul, Nat.one_mul]
      omega

/-- One of them is replaced, and `f'` says of the others what `f` did. -/
theorem total_set (hx : xs[i]? = some x) (hsame : ∀ j z, j ≠ i → xs[j]? = some z → f' z = f z) :
    total f' (xs.set i y) + f x = total f xs + f' y := by
  induction xs generalizing i with
  | nil => cases hx
  | cons a xs ih =>
      cases i with
      | zero =>
          obtain rfl := Option.some.inj hx
          have hrest : total f' xs = total f xs := by
            refine total_congr fun z hz => ?_
            have ⟨j, hj⟩ := List.mem_iff_getElem?.1 hz
            exact hsame (j + 1) z (Nat.succ_ne_zero j) hj
          show f' y + total f' xs + f a = f a + total f xs + f' y
          rw [hrest]
          omega
      | succ i =>
          have hset := ih hx fun j z hne hz => hsame (j + 1) z (fun h => hne (Nat.succ.inj h)) hz
          have hfirst : f' a = f a := hsame 0 a (Nat.succ_ne_zero i).symm rfl
          show f' a + total f' (xs.set i y) + f x = f a + total f xs + f' y
          rw [hfirst]
          omega

theorem total_modify_le {g : α → α} (h : ∀ x, f (g x) ≤ f x) (i : Nat) :
    total f (xs.modify i g) ≤ total f xs := by
  rw [List.modify_eq_set_getElem?]
  rcases hx : xs[i]? with _ | x
  · exact Nat.le_refl _
  · have hset : total f (xs.set i (g x)) + f x = total f xs + f (g x) :=
      total_set hx fun _ _ _ _ => rfl
    have hle := h x
    show total f (xs.set i (g x)) ≤ _
    omega

end Total

/-! ## Sockets -/

namespace Socket

variable {sock : Socket} {size : Nat} {bytes : Bytes}

/-- How much an open socket may yet report, if nothing more arrives for it. -/
def supply (sock : Socket) : Nat :=
  if sock.isOpen then
    match sock.phase with
    | .fresh | .pending => 0
    | .failed => 1
    | .up => sock.backlog + sock.sendErrors.length + if sock.room = some 0 then 0 else 1
  else 0

theorem supply_of_closed (h : sock.isOpen = false) : sock.supply = 0 := by
  rw [supply, if_neg (h ▸ Bool.false_ne_true)]

theorem supply_of_up (hopen : sock.isOpen = true) (hup : sock.phase = .up) : sock.supply =
    sock.backlog + sock.sendErrors.length + if sock.room = some 0 then 0 else 1 := by
  rw [supply, if_pos hopen, hup]

theorem supply_le_prospects (sock : Socket) : sock.supply ≤ sock.prospects := by
  unfold supply prospects
  split
  · rcases sock.phase with _ | _ | _ | _
    case up =>
      have hroom : (if sock.room = some 0 then 0 else 1) ≤ 8 := by
        split <;> decide
      exact Nat.add_le_add_left hroom _
    all_goals simp only; omega
  · exact Nat.zero_le _

/-- Every arrival counts. -/
theorem backlog_cons_lt (sock : Socket) (arrival : Arrival) (later : List Arrival) :
    backlog { sock with incoming := later } <
      backlog { sock with incoming := arrival :: later } := by
  cases arrival <;> simp only [backlog, List.foldr_cons] <;> omega

theorem backlog_pos (h : sock.incoming ≠ []) : 0 < sock.backlog := by
  rcases hin : sock.incoming with _ | ⟨arrival, later⟩
  · exact absurd hin h
  · have hlt := backlog_cons_lt sock arrival later
    rw [← hin] at hlt
    exact Nat.zero_lt_of_lt hlt

/-- What is ready has something to report. -/
theorem supply_pos_of_readiness (hopen : sock.isOpen = true) (hready : sock.readiness ≠ {}) :
    0 < sock.supply := by
  unfold readiness at hready
  rw [supply, if_pos hopen]
  rcases hphase : sock.phase with _ | _ | _ | _ <;> rw [hphase] at hready
  · exact absurd rfl hready
  · exact absurd rfl hready
  · by_contra hnone
    simp only [Nat.not_lt, Nat.le_zero_eq, Nat.add_eq_zero_iff] at hnone
    obtain ⟨⟨hbacklog, herrors⟩, hroom⟩ := hnone
    have hin : sock.incoming = [] := by
      by_contra hne
      exact absurd hbacklog (Nat.ne_of_gt (backlog_pos hne))
    have hfull : sock.room = some 0 := by
      by_contra hne
      rw [if_neg hne] at hroom
      cases hroom
    rw [List.length_eq_zero_iff] at herrors
    refine hready ?_
    rw [hin, herrors, hfull]
    rfl
  · exact Nat.zero_lt_one

/-! ### Receiving -/

theorem supply_incoming_le {incoming : List Arrival}
    (h : backlog { sock with incoming } ≤ sock.backlog) :
    supply { sock with incoming } ≤ sock.supply := by
  unfold supply
  split
  · rcases sock.phase with _ | _ | _ | _
    case up => exact Nat.add_le_add_right (Nat.add_le_add_right h _) _
    all_goals exact Nat.le_refl _
  · exact Nat.le_refl _

/-- A receive takes something of what arrived first, if there is any. -/
theorem receive_eq (sock : Socket) (size : Nat) : ∃ incoming,
    (sock.receive size).2 = { sock with incoming } ∧
      backlog { sock with incoming } ≤ sock.backlog ∧
      (sock.phase = .up → sock.incoming ≠ [] → (sock.receive size).1 = .ok [] ∨
        backlog { sock with incoming } < sock.backlog) := by
  unfold receive
  by_cases hup : sock.phase = .up
  · rw [if_neg (Decidable.not_not.2 hup)]
    rcases hin : sock.incoming with _ | ⟨bytes | e | _, later⟩
    · exact ⟨sock.incoming, rfl, Nat.le_refl _, fun _ hne => absurd rfl hne⟩
    · have hlen : (bytes.drop size).length = bytes.length - size := List.length_drop
      have hold : sock.backlog = bytes.length + 1 + backlog { sock with incoming := later } := by
        rw [backlog, hin]
        rfl
      have hnew : backlog { sock with
          incoming :=
            if (bytes.drop size).isEmpty then later else .data (bytes.drop size) :: later } ≤
          bytes.length - size + 1 + backlog { sock with incoming := later } := by
        split
        · exact Nat.le_add_left _ _
        · show (bytes.drop size).length + 1 + backlog { sock with incoming := later } ≤ _
          exact Nat.le_of_eq (by rw [hlen])
      refine ⟨_, rfl, by omega, fun _ _ => ?_⟩
      by_cases htaken : bytes.take size = []
      · exact .inl (congrArg Except.ok htaken)
      · have hpos := List.length_pos_iff.2 htaken
        rw [List.length_take] at hpos
        exact .inr (by omega)
    · have hlt : backlog { sock with incoming := later } < sock.backlog := by
        have hlt := backlog_cons_lt sock (.failure e) later
        rwa [← hin] at hlt
      exact ⟨later, rfl, Nat.le_of_lt hlt, fun _ _ => .inr hlt⟩
    · exact ⟨sock.incoming, rfl, Nat.le_refl _, fun _ _ => .inl rfl⟩
  · rw [if_pos hup]
    exact ⟨sock.incoming, rfl, Nat.le_refl _, fun h => absurd h hup⟩

theorem supply_receive_le (sock : Socket) (size : Nat) :
    (sock.receive size).2.supply ≤ sock.supply := by
  obtain ⟨incoming, heq, hle, _⟩ := receive_eq sock size
  rw [heq]
  exact supply_incoming_le hle

/-- Where something has arrived, a receive tells of the end of the stream, or uses something up. -/
theorem supply_receive_lt (hopen : sock.isOpen = true) (hup : sock.phase = .up)
    (hin : sock.incoming ≠ []) (size : Nat) :
    (sock.receive size).1 = .ok [] ∨ (sock.receive size).2.supply < sock.supply := by
  obtain ⟨incoming, heq, _, hlt⟩ := receive_eq sock size
  refine (hlt hup hin).imp_right fun hlt => ?_
  have hleft : supply { sock with incoming } = _ := supply_of_up hopen hup
  rw [heq, hleft, supply_of_up hopen hup]
  exact Nat.add_lt_add_right (Nat.add_lt_add_right hlt _) _

/-! ### Sending -/

/-- A send that does not take all the bytes takes a failure to come, or what room there is. -/
theorem send_eq (sock : Socket) (bytes : Bytes) : ∃ sendErrors room wire,
    (sock.send bytes).2 = { sock with sendErrors, room, wire } ∧
      sendErrors.length ≤ sock.sendErrors.length ∧ (sock.room = some 0 → room = some 0) ∧
      (sock.phase = .up → sock.room ≠ some 0 ∨ sock.sendErrors ≠ [] →
        (sock.send bytes).1 = .ok bytes.length ∨ sendErrors.length < sock.sendErrors.length ∨
          sock.room ≠ some 0 ∧ room = some 0) := by
  unfold send
  by_cases hup : sock.phase = .up
  · rw [if_neg (Decidable.not_not.2 hup)]
    rcases herrors : sock.sendErrors with _ | ⟨e, left⟩
    · rcases hroom : sock.room with _ | _ | n
      · exact ⟨_, _, _, rfl, Nat.le_refl _, nofun,
          fun _ _ => .inl (congrArg Except.ok (Nat.min_self _))⟩
      · exact ⟨_, _, _, rfl, Nat.le_of_eq (congrArg List.length herrors), fun _ => hroom,
          fun _ hready => by simp at hready⟩
      · refine ⟨_, _, _, rfl, Nat.le_refl _, nofun, fun _ _ => ?_⟩
        by_cases hle : bytes.length ≤ n + 1
        · exact .inl (congrArg Except.ok (Nat.min_eq_right hle))
        · have hall : min (n + 1) bytes.length = n + 1 := Nat.min_eq_left (by omega)
          refine .inr (.inr ⟨nofun, ?_⟩)
          show some (n + 1 - min (n + 1) bytes.length) = some 0
          rw [hall, Nat.sub_self]
    · exact ⟨left, sock.room, sock.wire, rfl, Nat.le_succ _, id,
        fun _ _ => .inr (.inl (Nat.lt_succ_self _))⟩
  · rw [if_pos hup]
    exact ⟨_, _, _, rfl, Nat.le_refl _, id, fun h => absurd h hup⟩

theorem supply_send_le (sock : Socket) (bytes : Bytes) :
    (sock.send bytes).2.supply ≤ sock.supply := by
  obtain ⟨sendErrors, room, wire, heq, herrors, hroom, _⟩ := send_eq sock bytes
  have hfull : (if room = some 0 then 0 else 1) ≤ if sock.room = some 0 then 0 else 1 := by
    by_cases hfull : sock.room = some 0
    · rw [if_pos (hroom hfull)]
      exact Nat.zero_le _
    · rw [if_neg hfull]
      split <;> decide
  rw [heq]
  unfold supply
  split
  · rcases sock.phase with _ | _ | _ | _
    case up => exact Nat.add_le_add (Nat.add_le_add_left herrors _) hfull
    all_goals exact Nat.le_refl _
  · exact Nat.le_refl _

/-- A socket that is ready for output takes all the bytes sent, or has something used up. -/
theorem supply_send_lt (hopen : sock.isOpen = true) (hup : sock.phase = .up)
    (hready : sock.room ≠ some 0 ∨ sock.sendErrors ≠ []) (bytes : Bytes) :
    (sock.send bytes).1 = .ok bytes.length ∨ (sock.send bytes).2.supply < sock.supply := by
  obtain ⟨sendErrors, room, wire, heq, herrors, hroom, hlt⟩ := send_eq sock bytes
  refine (hlt hup hready).imp_right fun hlt => ?_
  have hleft : supply { sock with sendErrors, room, wire } = _ := supply_of_up hopen hup
  rw [heq, hleft, supply_of_up hopen hup]
  show sock.backlog + sendErrors.length + (if room = some 0 then 0 else 1) < _
  rcases hlt with hlt | ⟨hne, hfull⟩
  · by_cases hfull : sock.room = some 0
    · rw [if_pos hfull, if_pos (hroom hfull)]
      omega
    · rw [if_neg hfull]
      split <;> omega
  · rw [if_neg hne, if_pos hfull]
    omega

/-! ### Connecting -/

theorem connect_keeps (sock : Socket) :
    sock.connect.incoming = sock.incoming ∧ sock.connect.sendErrors = sock.sendErrors := by
  have hcomplete (sock : Socket) (v : Verdict) :
      (sock.complete v).incoming = sock.incoming ∧
      (sock.complete v).sendErrors = sock.sendErrors := by
    unfold complete
    split <;> exact ⟨rfl, rfl⟩
  unfold connect
  split
  case h_1 | h_5 => exact ⟨rfl, rfl⟩
  case h_2 | h_3 | h_4 =>
    split
    · exact ⟨rfl, rfl⟩
    · exact hcomplete _ _

/-- A socket for which nothing has arrived has the end of its connect to report, or room. -/
theorem supply_le_one (hin : sock.incoming = []) (herrors : sock.sendErrors = []) :
    sock.supply ≤ 1 := by
  unfold supply
  split
  · rcases sock.phase with _ | _ | _ | _
    case up =>
      have hnone : sock.backlog = 0 := by
        rw [backlog, hin]
        rfl
      simp only [hnone, herrors, List.length_nil, Nat.zero_add]
      split <;> decide
    case failed => exact Nat.le_refl 1
    all_goals exact Nat.zero_le 1
  · exact Nat.zero_le 1

end Socket

namespace Kernel

variable {k k' k'' : Kernel} {s : SocketId} {sock sock' : Socket}

/-! ## The kernel -/

/-- How much may yet come of what was set up to happen. -/
def supply (k : Kernel) : Nat :=
  k.verdicts.length + k.plans.length + total Socket.supply k.sockets

theorem supply_le_prospects (k : Kernel) : k.supply ≤ k.prospects := by
  have hsockets : total Socket.supply k.sockets + k.sockets.length * 0 ≤
      total Socket.prospects k.sockets := total_add_le Socket.supply_le_prospects
  have hprospects : k.prospects = k.verdicts.length + 8 * k.plans.length + k.injections.length +
      total Socket.prospects k.sockets := rfl
  rw [hprospects, supply]
  omega

/-- What of it is up to socket `s`. -/
def supplyOf (k : Kernel) (s : SocketId) : Nat := (k.sockets[s]?.map Socket.supply).getD 0

theorem supplyOf_eq (hs : k.sockets[s]? = some sock) : k.supplyOf s = sock.supply := by
  rw [supplyOf, hs]
  rfl

theorem supplyOf_of_length_le (h : k.sockets.length ≤ s) : k.supplyOf s = 0 := by
  rw [supplyOf, List.getElem?_eq_none h]
  rfl

theorem supplyOf_of_not_open (h : ¬ k.Open s) : k.supplyOf s = 0 := by
  rcases hs : k.sockets[s]? with _ | sock
  · rw [supplyOf, hs]
    rfl
  · rw [supplyOf_eq hs]
    exact Socket.supply_of_closed (Bool.not_eq_true _ ▸ fun hopen => h ⟨sock, hs, hopen⟩)

/-- The socket in one place is replaced. -/
theorem supply_set (hs : k.sockets[s]? = some sock) (sock' : Socket) :
    supply { k with sockets := k.sockets.set s sock' } + sock.supply = k.supply + sock'.supply := by
  have htotal : total Socket.supply (k.sockets.set s sock') + sock.supply =
      total Socket.supply k.sockets + sock'.supply := total_set hs fun _ _ _ _ => rfl
  unfold supply
  simp only
  omega

/-- What a socket loses on the way from `k` to `k'` is lost; nothing is signalled, and
no time passes. -/
structure Spends (k k' : Kernel) : Prop where
  supply_add_le : ∀ s, k'.supply + k.supplyOf s ≤ k.supply + k'.supplyOf s
  signalled_eq : k'.signalled = k.signalled
  clock_eq : k'.clock = k.clock

namespace Spends

theorem refl (k : Kernel) : Spends k k := ⟨fun _ => Nat.le_refl _, rfl, rfl⟩

theorem trans (h : Spends k k') (h' : Spends k' k'') : Spends k k'' where
  supply_add_le s := by
    have hfirst := h.supply_add_le s
    have hsecond := h'.supply_add_le s
    omega
  signalled_eq := h'.signalled_eq.trans h.signalled_eq
  clock_eq := h'.clock_eq.trans h.clock_eq

theorem supply_le (h : Spends k k') : k'.supply ≤ k.supply := by
  have hbeyond := h.supply_add_le (max k.sockets.length k'.sockets.length)
  rwa [supplyOf_of_length_le (Nat.le_max_left _ _), supplyOf_of_length_le (Nat.le_max_right _ _)]
    at hbeyond

/-- A socket takes along what it had to report. -/
theorem supply_lt (h : Spends k k') (hpos : 0 < k.supplyOf s) (hclosed : ¬ k'.Open s) :
    k'.supply < k.supply := by
  have hlost := h.supply_add_le s
  rw [supplyOf_of_not_open hclosed] at hlost
  omega

theorem of_sockets_eq (hsockets : k'.sockets = k.sockets) (hplans : k'.plans = k.plans)
    (hsignalled : k'.signalled = k.signalled) (hclock : k'.clock = k.clock)
    (hverdicts : k'.verdicts.length ≤ k.verdicts.length) : Spends k k' := by
  refine ⟨fun s => ?_, hsignalled, hclock⟩
  rw [supplyOf, supplyOf, supply, supply, hsockets, hplans]
  omega

theorem record (k : Kernel) (c : Call) : Spends k (k.record c) :=
  .of_sockets_eq rfl rfl rfl rfl (Nat.le_refl _)

/-- One socket changes, and reports no more than before. -/
theorem set {i : SocketId} (hi : k.sockets[i]? = some sock) (hle : sock'.supply ≤ sock.supply) :
    Spends k { k with sockets := k.sockets.set i sock' } := by
  refine ⟨fun s => ?_, rfl, rfl⟩
  have htotal := supply_set hi sock'
  by_cases hs : i = s
  · subst hs
    have hlt := (List.getElem?_eq_some_iff.1 hi).1
    rw [supplyOf_eq hi, supplyOf_eq (k := { k with sockets := k.sockets.set i sock' })
      (List.getElem?_set_self hlt)]
    exact Nat.le_of_eq htotal
  · have hsame : supplyOf { k with sockets := k.sockets.set i sock' } s = k.supplyOf s := by
      unfold supplyOf
      rw [List.getElem?_set_ne hs]
    rw [hsame]
    omega

theorem updateSocket (s : SocketId) {f : Socket → Socket}
    (hle : ∀ sock, (f sock).supply ≤ sock.supply) : Spends k (k.updateSocket s f) := by
  unfold Kernel.updateSocket
  rw [List.modify_eq_set_getElem?]
  rcases hs : k.sockets[s]? with _ | sock
  · exact .refl k
  · exact .set hs (hle sock)

theorem close (k : Kernel) (s : SocketId) : Spends k (k.close s) := by
  by_cases hs : k.Open s
  · have hmodify : Spends k (k.updateSocket s fun sock => { sock with isOpen := false }) :=
      .updateSocket s fun sock => by
        rw [Socket.supply_of_closed rfl]
        exact Nat.zero_le _
    rw [close_of_open hs]
    exact hmodify.trans (.of_sockets_eq rfl rfl rfl rfl (Nat.le_refl _))
  · rw [close_of_not_open hs]
    exact .refl k

/-- A socket is made, for which nothing has arrived; the next plan is its own. -/
theorem made {vs : List (CallName × Verdict)} (hvs : vs.length ≤ k.verdicts.length)
    (spare : List Nat)
    (next : Nat) (hone : k.plans = [] → sock.supply = 0) (hle : sock.supply ≤ 1) (family : Family) :
    Spends k (k.made vs spare next sock family) := by
  refine ⟨fun s => ?_, rfl, rfl⟩
  have htotal : total Socket.supply (k.sockets ++ [sock]) =
    total Socket.supply k.sockets + sock.supply :=
    total_append Socket.supply k.sockets [sock]
  have hplans : k.plans.tail.length + sock.supply ≤ k.plans.length := by
    rcases hplans : k.plans with _ | ⟨plan, later⟩
    · exact Nat.le_of_eq ((Nat.zero_add _).trans (hone hplans))
    · exact Nat.add_le_add_left hle _
  have hold : k.supplyOf s ≤ supplyOf (k.made vs spare next sock family) s := by
    rcases Nat.lt_or_ge s k.sockets.length with hlt | hge
    · refine Nat.le_of_eq ?_
      show _ = (((k.sockets ++ [sock])[s]?).map Socket.supply).getD 0
      rw [List.getElem?_append_left hlt]
      rfl
    · rw [supplyOf_of_length_le hge]
      exact Nat.zero_le _
  have hnew : (k.made vs spare next sock family).supply =
      vs.length + k.plans.tail.length + total Socket.supply (k.sockets ++ [sock]) := rfl
  rw [hnew, htotal, supply]
  omega

end Spends

/-! ## Calls -/

/-- A call that a connection makes. -/
inductive Dealing : Kernel → Kernel → Prop where
  | openStream (k : Kernel) (address : Address) : Dealing k (k.openStream address).2
  | takeError (k : Kernel) (s : SocketId) : Dealing k (k.takeError s).2
  | send (k : Kernel) (s : SocketId) (bytes : Bytes) : Dealing k (k.send s bytes).2
  | receive (k : Kernel) (s : SocketId) (size : Nat) : Dealing k (k.receive s size).2
  | close (k : Kernel) (s : SocketId) : Dealing k (k.close s)
  | register (k : Kernel) (s : SocketId) (token : Nat) (interest : Interest) :
      Dealing k (k.register s token interest).2
  | reregister (k : Kernel) (s : SocketId) (token : Nat) (interest : Interest) :
      Dealing k (k.reregister s token interest).2
  | deregister (k : Kernel) (s : SocketId) : Dealing k (k.deregister s).2

/-- Any number of calls. -/
abbrev Dealings : Kernel → Kernel → Prop := ReflTransGen Dealing

/-- A socket that has just been made has the end of its connect to report, or room. -/
theorem supply_nextSocket_le (k : Kernel) (d : Nat) : (k.nextSocket d).connect.supply ≤ 1 := by
  have ⟨hin, herrors⟩ := Socket.connect_keeps (k.nextSocket d)
  exact Socket.supply_le_one hin herrors

/-- Without a plan, a connect goes on forever. -/
theorem supply_nextSocket_of_no_plan (h : k.plans = []) (d : Nat) :
    (k.nextSocket d).connect.supply = 0 := by
  unfold nextSocket
  rw [h]
  rfl

theorem spends_openStream (k : Kernel) (address : Address) :
    Spends k (k.openStream address).2 := by
  have hopening := opening k address
  generalize k.openStream address = r at hopening ⊢
  cases hopening with
  | unmade hvs => exact .of_sockets_eq rfl rfl rfl rfl (Nat.le_of_lt hvs)
  | @unset _ _ spare d next hvs =>
      have hfresh : (k.nextSocket d).supply = 0 := rfl
      have hmade := Spends.made (Nat.le_of_lt hvs) spare next (fun _ => hfresh)
        (hfresh ▸ Nat.zero_le 1) address.family
      exact hmade.trans (.close _ _)
  | @refused _ _ spare d next hvs =>
      have hmade := Spends.made hvs spare next (fun h => supply_nextSocket_of_no_plan h d)
        (supply_nextSocket_le k d) address.family
      exact (hmade.trans (.record _ _)).trans (.close _ _)
  | @started _ spare d next hvs _ =>
      have hmade := Spends.made hvs spare next (fun h => supply_nextSocket_of_no_plan h d)
        (supply_nextSocket_le k d) address.family
      exact hmade.trans (.record _ _)

theorem clock_of_openStream {address : Address} {r : Except Errno (SocketId × Bool)}
    (h : k.openStream address = (r, k')) : k'.clock = k.clock := by
  have hclock := (spends_openStream k address).clock_eq
  rwa [h] at hclock

theorem spends_takeError (k : Kernel) (s : SocketId) : Spends k (k.takeError s).2 := by
  have hle := length_splitVerdict_le .getsockopt k.verdicts
  unfold takeError takeVerdict
  rcases h : splitVerdict .getsockopt k.verdicts with ⟨_ | e, vs⟩ <;> rw [h] at hle
  · have hverdicts : Spends k { k with verdicts := vs } := .of_sockets_eq rfl rfl rfl rfl hle
    have hclear : Spends { k with verdicts := vs }
        ({ k with verdicts := vs }.updateSocket s fun sock => { sock with error := none }) :=
      .updateSocket s fun sock => Nat.le_refl _
    exact (hverdicts.trans hclear).trans (.record _ _)
  · exact .of_sockets_eq rfl rfl rfl rfl hle

theorem spends_send (k : Kernel) (s : SocketId) (bytes : Bytes) : Spends k (k.send s bytes).2 := by
  unfold send
  split
  · exact .refl k
  · next sock hs =>
    exact (Spends.set hs (Socket.supply_send_le sock bytes)).trans
      (.record _ _)

theorem spends_receive (k : Kernel) (s : SocketId) (size : Nat) :
    Spends k (k.receive s size).2 := by
  unfold receive
  split
  · exact .refl k
  · next sock hs =>
    exact (Spends.set hs (Socket.supply_receive_le sock size)).trans
      (.record _ _)

theorem spends_register (k : Kernel) (s : SocketId) (token : Nat) (interest : Interest) :
    Spends k (k.register s token interest).2 := by
  have hle := length_splitVerdict_le .epollCtl k.verdicts
  unfold register takeVerdict
  rcases h : splitVerdict .epollCtl k.verdicts with ⟨_ | e, vs⟩ <;> rw [h] at hle
  · simp only [isRegistered_verdicts, true_and]
    rcases k.isRegistered s with _ | _ <;> exact .of_sockets_eq rfl rfl rfl rfl hle
  · exact .of_sockets_eq rfl rfl rfl rfl hle

theorem spends_reregister (k : Kernel) (s : SocketId) (token : Nat) (interest : Interest) :
    Spends k (k.reregister s token interest).2 := by
  have hle := length_splitVerdict_le .epollCtl k.verdicts
  unfold reregister takeVerdict
  rcases h : splitVerdict .epollCtl k.verdicts with ⟨_ | e, vs⟩ <;> rw [h] at hle
  · simp only [isRegistered_verdicts, true_and]
    rcases k.isRegistered s with _ | _ <;> exact .of_sockets_eq rfl rfl rfl rfl hle
  · exact .of_sockets_eq rfl rfl rfl rfl hle

theorem spends_deregister (k : Kernel) (s : SocketId) :
    Spends k (k.deregister s).2 := by
  have hle := length_splitVerdict_le .epollCtl k.verdicts
  unfold deregister takeVerdict
  rcases h : splitVerdict .epollCtl k.verdicts with ⟨_ | e, vs⟩ <;> rw [h] at hle
  · simp only [isRegistered_verdicts, true_and]
    rcases k.isRegistered s with _ | _ <;> exact .of_sockets_eq rfl rfl rfl rfl hle
  · exact .of_sockets_eq rfl rfl rfl rfl hle

/-- No call adds to what can happen. -/
theorem Dealing.spends (h : Dealing k k') : Spends k k' := by
  cases h with
  | openStream address => exact spends_openStream k address
  | takeError s => exact spends_takeError k s
  | send s bytes => exact spends_send k s bytes
  | receive s size => exact spends_receive k s size
  | close s => exact .close k s
  | register s token interest => exact spends_register k s token interest
  | reregister s token interest => exact spends_reregister k s token interest
  | deregister s => exact spends_deregister k s

theorem Dealings.spends (h : Dealings k k') : Spends k k' := by
  induction h with
  | refl => exact .refl k
  | tail _ hdealing ih => exact ih.trans hdealing.spends

/-! ### What is used up -/

/-- A wait begins, or fails because it was told to. -/
theorem beginWait_eq (k : Kernel) (millis : Option Nat) :
    (∃ vs, vs.length ≤ k.verdicts.length ∧ k.beginWait millis = (.ok, { k with verdicts := vs })) ∨
    ∃ e vs, vs.length < k.verdicts.length ∧ k.beginWait millis =
      (.fails e, record { k with verdicts := vs } (.wait millis (.error e))) := by
  obtain ⟨v, vs, htake, hle, hlt⟩ := takeVerdict_eq k .epollWait
  unfold beginWait
  rw [htake]
  cases v with
  | ok => exact .inl ⟨vs, hle, rfl⟩
  | fails e => exact .inr ⟨e, vs, hlt nofun, rfl⟩

/-- Time alone changes nothing. -/
theorem supply_clock (k : Kernel) (t : Instant) : supply { k with clock := t } = k.supply := rfl

/-- A change of a registration that there is fails only if it was told to. -/
theorem supply_reregister_lt {token : Nat} {interest : Interest} {e : Errno}
    (hregistered : k.isRegistered s = true) (h : k.reregister s token interest = (.fails e, k')) :
    k'.supply < k.supply := by
  unfold reregister takeVerdict at h
  rcases hsplit : splitVerdict .epollCtl k.verdicts with ⟨_ | e', vs⟩ <;>
    simp only [hsplit, isRegistered_verdicts, hregistered] at h
  · cases h
  · obtain ⟨-, rfl⟩ := Prod.mk.inj h
    have hlt := length_splitVerdict_lt hsplit
    exact Nat.add_lt_add_right (Nat.add_lt_add_right hlt _) _

/-- Where something has arrived, a receive tells of the end of the stream, or uses something up. -/
theorem supply_receive_lt (hs : k.sockets[s]? = some sock) (hopen : sock.isOpen = true)
    (hup : sock.phase = .up) (hin : sock.incoming ≠ []) (size : Nat) :
    (k.receive s size).1 = .ok [] ∨ (k.receive s size).2.supply < k.supply := by
  have hset := supply_set hs (sock.receive size).2
  unfold receive
  rw [hs]
  refine (Socket.supply_receive_lt hopen hup hin size).imp_right fun hlt => ?_
  show supply { k with sockets := k.sockets.set s (sock.receive size).2 } < k.supply
  omega

/-- A socket that is ready for output takes all the bytes sent, or has something used up. -/
theorem supply_send_lt (hs : k.sockets[s]? = some sock) (hopen : sock.isOpen = true)
    (hup : sock.phase = .up) (hready : sock.room ≠ some 0 ∨ sock.sendErrors ≠ []) (bytes : Bytes) :
    (k.send s bytes).1 = .ok bytes.length ∨ (k.send s bytes).2.supply < k.supply := by
  have hset := supply_set hs (sock.send bytes).2
  unfold send
  rw [hs]
  refine (Socket.supply_send_lt hopen hup hready bytes).imp_right fun hlt => ?_
  show supply { k with sockets := k.sockets.set s (sock.send bytes).2 } < k.supply
  omega

end Kernel

end TextLink
