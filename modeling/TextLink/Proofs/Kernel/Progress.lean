import TextLink.Proofs.Kernel.Record

/-!
# How connects come to their end

The connect of a socket is started once and ends once. It ends in success, after which the socket is
up for good, or in an error, which stays with the socket until it is read. So where the connect of a
socket was started, and is no longer under way, and no error is found with the socket, it has
succeeded (`IsOver.isUp_of_takeError`): that is how the loop tells, and the premise is what an event
has to stand for.

Reading the error is the only call that undoes anything (`Proceeds`, `Keeps`).

## Main results

* `proceeds_openStream`, `proceeds_send`, `proceeds_happen`, … — no other call does.
* `tried_openStream` — sockets whose connect was started.
* `isOver_of_readiness` — what is ready has ended its connect.
-/

namespace TextLink

/-! ## One socket -/

namespace Socket

variable {sock sock' sock'' : Socket}

/-- The connect has ended, and an error it ended in is still to be read. -/
def IsOver (sock : Socket) : Prop := sock.phase = .up ∨ sock.phase = .failed ∧ sock.error ≠ none

/-- Nothing has become of the connect of `sock`, or it has ended. -/
def Proceeds (sock sock' : Socket) : Prop :=
  sock'.phase = sock.phase ∧ sock'.error = sock.error ∨ sock.phase = .pending ∧ sock'.IsOver

theorem Proceeds.refl (sock : Socket) : Proceeds sock sock := .inl ⟨rfl, rfl⟩

theorem IsOver.congr (h : sock.IsOver) (hphase : sock'.phase = sock.phase)
    (herror : sock'.error = sock.error) : sock'.IsOver := by
  rw [IsOver, hphase, herror]
  exact h

theorem IsOver.phase_ne (h : sock.IsOver) : sock.phase ≠ .pending := by
  rcases h with hphase | ⟨hphase, _⟩ <;> rw [hphase] <;> decide

theorem IsOver.proceeds (h : sock.IsOver) (hsock : Proceeds sock sock') : sock'.IsOver := by
  rcases hsock with ⟨hphase, herror⟩ | ⟨hpending, _⟩
  · exact h.congr hphase herror
  · exact absurd hpending h.phase_ne

theorem Proceeds.trans (h : Proceeds sock sock') (h' : Proceeds sock' sock'') :
    Proceeds sock sock'' := by
  rcases h with ⟨hphase, herror⟩ | ⟨hpending, hover⟩
  · rcases h' with ⟨hphase', herror'⟩ | ⟨hpending', hover'⟩
    · exact .inl ⟨hphase'.trans hphase, herror'.trans herror⟩
    · exact .inr ⟨hphase.symm.trans hpending', hover'⟩
  · exact .inr ⟨hpending, hover.proceeds h'⟩

theorem proceeds_complete (sock : Socket) (v : Verdict) : Proceeds sock (sock.complete v) := by
  unfold complete
  rcases hphase : sock.phase with _ | _ | _ | _
  case pending =>
    cases v with
    | ok => exact .inr ⟨hphase, .inl rfl⟩
    | fails e => exact .inr ⟨hphase, .inr ⟨rfl, nofun⟩⟩
  all_goals exact .refl sock

theorem proceeds_send (sock : Socket) (bytes : Bytes) : Proceeds sock (sock.send bytes).2 := by
  unfold send
  repeat' split
  all_goals exact .inl ⟨rfl, rfl⟩

theorem proceeds_receive (sock : Socket) (size : Nat) : Proceeds sock (sock.receive size).2 := by
  unfold receive
  repeat' split
  all_goals exact .inl ⟨rfl, rfl⟩

/-- A connect that did not fail on the spot was started. -/
theorem started_connect (hplan : goesOn sock.plan.connect = true ∨ sock.plan.connect = .ok) :
    sock.connect.phase = .pending ∨ sock.connect.IsOver := by
  have hstart (v : Verdict) : (complete { sock with phase := .pending } v).phase = .pending ∨
      (complete { sock with phase := .pending } v).IsOver := by
    rcases proceeds_complete { sock with phase := .pending } v with ⟨hphase, _⟩ | ⟨_, hover⟩
    · exact .inl hphase
    · exact .inr hover
  unfold connect
  split
  case h_1 => exact .inr (.inl rfl)
  case h_2 | h_3 | h_4 =>
    split
    · exact .inl rfl
    · exact hstart _
  · next e hne₁ hne₂ hne₃ heq =>
    rw [heq] at hplan
    rcases hplan with hgoes | hok
    · cases e
      case inProgress => exact absurd rfl hne₁
      case alreadyUnderway => exact absurd rfl hne₂
      case interrupted => exact absurd rfl hne₃
      all_goals cases hgoes
    · cases hok

/-- What is ready has ended its connect. -/
theorem isOver_of_readiness (hstarted : sock.phase = .pending ∨ sock.IsOver)
    (hready : sock.readiness ≠ {}) : sock.IsOver := by
  refine hstarted.resolve_left fun hpending => hready ?_
  unfold readiness
  rw [hpending]

end Socket

namespace Kernel

variable {k k' k'' : Kernel} {s : SocketId} {address : Address}

/-! ## What the kernel knows -/

/-- The connect of socket `s` has succeeded. -/
def IsUp (k : Kernel) (s : SocketId) : Prop := ∃ sock, k.sockets[s]? = some sock ∧ sock.phase = .up

/-- The connect of socket `s` has ended, and an error it ended in is still to be read. -/
def IsOver (k : Kernel) (s : SocketId) : Prop := ∃ sock, k.sockets[s]? = some sock ∧ sock.IsOver

/-- The connect of socket `s`, to `address`, was started. -/
def Tried (k : Kernel) (s : SocketId) (address : Address) : Prop :=
  (∃ sock, k.sockets[s]? = some sock ∧ (sock.phase = .pending ∨ sock.IsOver)) ∧
    ∃ v, .connect s address v ∈ k.calls.toList

/-- The error pending on socket `s`. -/
def pendingError (k : Kernel) (s : SocketId) : Option Errno := k.sockets[s]?.bind (·.error)

theorem IsUp.isOver (h : k.IsUp s) : k.IsOver s :=
  have ⟨sock, hs, hup⟩ := h
  ⟨sock, hs, .inl hup⟩

/-- A connect that has ended without an error has succeeded. -/
theorem IsOver.isUp (h : k.IsOver s) (hnone : k.pendingError s = none) : k.IsUp s := by
  obtain ⟨sock, hs, hup | ⟨_, herror⟩⟩ := h
  · exact ⟨sock, hs, hup⟩
  · rw [pendingError, hs] at hnone
    exact absurd hnone herror

/-! ## What stays -/

/-- What has come about in `k` is so in `k'`. -/
structure Keeps (k k' : Kernel) : Prop where
  up : ∀ s, k.IsUp s → k'.IsUp s
  calls_prefix : k.calls.toList <+: k'.calls.toList
  closeUnregisters_eq : k'.closeUnregisters = k.closeUnregisters
  injections : k.injections = [] → k'.injections = []

theorem Keeps.refl (k : Kernel) : Keeps k k := ⟨fun _ => id, List.prefix_refl _, rfl, id⟩

theorem Keeps.trans (h : Keeps k k') (h' : Keeps k' k'') : Keeps k k'' where
  up s hs := h'.up s (h.up s hs)
  calls_prefix := h.calls_prefix.trans h'.calls_prefix
  closeUnregisters_eq := h'.closeUnregisters_eq.trans h.closeUnregisters_eq
  injections hnone := h'.injections (h.injections hnone)

/-- Besides, connects that were started go on to their ends. -/
structure Proceeds (k k' : Kernel) : Prop extends Keeps k k' where
  sockets : ∀ (s : SocketId) sock, k.sockets[s]? = some sock →
    ∃ sock', k'.sockets[s]? = some sock' ∧ Socket.Proceeds sock sock'

namespace Proceeds

theorem of_sockets (hsockets : ∀ (s : SocketId) sock, k.sockets[s]? = some sock →
      ∃ sock', k'.sockets[s]? = some sock' ∧ Socket.Proceeds sock sock')
    (hcalls : k.calls.toList <+: k'.calls.toList)
    (hcloses : k'.closeUnregisters = k.closeUnregisters)
    (hinjections : k'.injections <:+ k.injections) : Proceeds k k' where
  up s hs := by
    obtain ⟨sock, hs, hup⟩ := hs
    obtain ⟨sock', hs', ⟨hphase, _⟩ | ⟨hpending, _⟩⟩ := hsockets s sock hs
    · exact ⟨sock', hs', hphase.trans hup⟩
    · cases hup.symm.trans hpending
  calls_prefix := hcalls
  closeUnregisters_eq := hcloses
  injections hnone := List.suffix_nil.1 (hnone ▸ hinjections)
  sockets := hsockets

/-- The sockets are as before. -/
theorem of_sockets_eq (h : k'.sockets = k.sockets) (hcalls : k.calls.toList <+: k'.calls.toList)
    (hcloses : k'.closeUnregisters = k.closeUnregisters)
    (hinjections : k'.injections <:+ k.injections) : Proceeds k k' :=
  of_sockets (fun s sock hs => ⟨sock, by rw [h, hs], .refl sock⟩) hcalls hcloses hinjections

theorem refl (k : Kernel) : Proceeds k k :=
  of_sockets_eq rfl (List.prefix_refl _) rfl (List.suffix_refl _)

theorem trans (h : Proceeds k k') (h' : Proceeds k' k'') : Proceeds k k'' where
  toKeeps := h.toKeeps.trans h'.toKeeps
  sockets s sock hs :=
    have ⟨sock', hs', hsock⟩ := h.sockets s sock hs
    have ⟨sock'', hs'', hsock'⟩ := h'.sockets s sock' hs'
    ⟨sock'', hs'', hsock.trans hsock'⟩

theorem isOver (h : Proceeds k k') (hs : k.IsOver s) : k'.IsOver s :=
  have ⟨sock, hs, hover⟩ := hs
  have ⟨sock', hs', hsock⟩ := h.sockets s sock hs
  ⟨sock', hs', hover.proceeds hsock⟩

theorem tried (h : Proceeds k k') (hs : k.Tried s address) : k'.Tried s address := by
  obtain ⟨⟨sock, hs, hstarted⟩, v, hv⟩ := hs
  obtain ⟨sock', hs', hsock⟩ := h.sockets s sock hs
  refine ⟨⟨sock', hs', ?_⟩, v, h.calls_prefix.subset hv⟩
  rcases hstarted with hpending | hover
  · exact hsock.imp (fun heq => heq.1.trans hpending) And.right
  · exact .inr (hover.proceeds hsock)

theorem record (h : Proceeds k k') (c : Call) : Proceeds k (k'.record c) :=
  h.trans (of_sockets_eq rfl (calls_prefix_record k' c) rfl (List.suffix_refl _))

end Proceeds

/-- A connect that has succeeded was started. -/
theorem Tried.of_isUp (h : k.Tried s address) (hk : Keeps k k') (hup : k'.IsUp s) :
    k'.Tried s address :=
  have ⟨_, v, hv⟩ := h
  have ⟨sock, hs, hphase⟩ := hup
  ⟨⟨sock, hs, .inr (.inl hphase)⟩, v, hk.calls_prefix.subset hv⟩

/-! ## Calls -/

theorem proceeds_modify (k : Kernel) (s : SocketId) {f : Socket → Socket}
    (hf : ∀ sock, Socket.Proceeds sock (f sock)) : Proceeds k (k.updateSocket s f) := by
  refine .of_sockets (fun s' sock hs' => ?_) (List.prefix_refl _) rfl (List.suffix_refl _)
  by_cases h : s = s'
  · refine ⟨f sock, ?_, hf sock⟩
    show (k.sockets.modify s f)[s']? = _
    rw [h, List.getElem?_modify_eq, hs']
    rfl
  · refine ⟨sock, ?_, .refl sock⟩
    show (k.sockets.modify s f)[s']? = _
    rw [List.getElem?_modify, hs']
    simp [h]

theorem proceeds_set {sock sock' : Socket} (hs : k.sockets[s]? = some sock)
    (hsock : sock.Proceeds sock') : Proceeds k { k with sockets := k.sockets.set s sock' } := by
  refine .of_sockets (fun s' old hs' => ?_) (List.prefix_refl _) rfl (List.suffix_refl _)
  by_cases h : s = s'
  · subst h
    obtain rfl := Option.some.inj (hs.symm.trans hs')
    exact ⟨sock', List.getElem?_set_self (List.getElem?_eq_some_iff.1 hs).1, hsock⟩
  · exact ⟨old, (List.getElem?_set_ne h).trans hs', .refl old⟩

theorem proceeds_send (k : Kernel) (s : SocketId) (bytes : Bytes) :
    Proceeds k (k.send s bytes).2 := by
  unfold send
  split
  · exact .refl k
  · next sock hs => exact (proceeds_set hs (Socket.proceeds_send sock bytes)).record _

theorem Sends.proceeds (h : Sends s k k') : Proceeds k k' := by
  induction h with
  | refl => exact .refl k
  | tail _ hsend ih =>
      obtain ⟨bytes, rfl⟩ := hsend
      exact ih.trans (proceeds_send _ s bytes)

theorem proceeds_receive (k : Kernel) (s : SocketId) (size : Nat) :
    Proceeds k (k.receive s size).2 := by
  unfold receive
  split
  · exact .refl k
  · next sock hs => exact (proceeds_set hs (Socket.proceeds_receive sock size)).record _

theorem proceeds_close (k : Kernel) (s : SocketId) : Proceeds k (k.close s) := by
  by_cases hs : k.Open s
  · have hmodify : Proceeds k (k.updateSocket s fun sock => { sock with isOpen := false }) :=
      proceeds_modify k s fun _ => .inl ⟨rfl, rfl⟩
    rw [close_of_open hs]
    exact hmodify.trans (.of_sockets_eq rfl (List.prefix_refl _) rfl (List.suffix_refl _))
  · rw [close_of_not_open hs]
    exact .refl k

theorem proceeds_registered (k : Kernel) (vs : List (CallName × Verdict)) (rs : List Registration)
    (c : Call) : Proceeds k (k.registered vs rs c) :=
  .of_sockets_eq rfl (calls_prefix_record _ c) rfl (List.suffix_refl _)

theorem proceeds_register (k : Kernel) (s : SocketId) (token : Nat) (interest : Interest) :
    Proceeds k (k.register s token interest).2 := by
  rcases register_cases k s token interest with ⟨vs, _, h⟩ | ⟨e, vs, h⟩ <;> rw [h] <;>
    exact proceeds_registered k _ _ _

theorem proceeds_reregister (k : Kernel) (s : SocketId) (token : Nat) (interest : Interest) :
    Proceeds k (k.reregister s token interest).2 := by
  rcases reregister_cases k s token interest with ⟨vs, _, h⟩ | ⟨e, vs, h⟩ <;> rw [h] <;>
    exact proceeds_registered k _ _ _

theorem proceeds_deregister (k : Kernel) (s : SocketId) : Proceeds k (k.deregister s).2 := by
  rcases deregister_cases k s with ⟨vs, _, h⟩ | ⟨e, vs, h⟩ <;> rw [h] <;>
    exact proceeds_registered k _ _ _

theorem proceeds_made (k : Kernel) (vs : List (CallName × Verdict)) (spare : List Nat) (next : Nat)
    (sock : Socket) (family : Family) : Proceeds k (k.made vs spare next sock family) := by
  refine .of_sockets (fun s old hs => ⟨old, ?_, .refl old⟩) (calls_prefix_record _ _) rfl
    (List.suffix_refl _)
  show (k.sockets ++ [sock])[s]? = some old
  rw [List.getElem?_append_left (List.getElem?_eq_some_iff.1 hs).1, hs]

theorem proceeds_openStream (k : Kernel) (address : Address) :
    Proceeds k (k.openStream address).2 := by
  have hopening := opening k address
  generalize k.openStream address = r at hopening ⊢
  cases hopening with
  | unmade _ => exact .of_sockets_eq rfl (calls_prefix_record _ _) rfl (List.suffix_refl _)
  | unset _ => exact (proceeds_made k _ _ _ _ _).trans (proceeds_close _ _)
  | refused _ => exact ((proceeds_made k _ _ _ _ _).record _).trans (proceeds_close _ _)
  | started _ _ => exact (proceeds_made k _ _ _ _ _).record _

theorem proceeds_beginWait (k : Kernel) (millis : Option Nat) :
    Proceeds k (k.beginWait millis).2 := by
  unfold beginWait takeVerdict
  rcases splitVerdict .epollWait k.verdicts with ⟨_ | e, vs⟩
  · exact .of_sockets_eq rfl (List.prefix_refl _) rfl (List.suffix_refl _)
  · exact .of_sockets_eq rfl (calls_prefix_record _ _) rfl (List.suffix_refl _)

theorem proceeds_answer (k : Kernel) (millis : Option Nat) (reports : List Report) :
    Proceeds k ((k.answerWait millis reports).collect (.ok reports)).2 :=
  .of_sockets_eq rfl (calls_prefix_record _ _) rfl (List.drop_suffix _ _)

/-- Whatever happens outside, unless it is an event out of nowhere. -/
theorem proceeds_happen (k : Kernel) {h : Happening} (hinject : ∀ i, h ≠ .inject i) :
    Proceeds k (k.happen h) := by
  cases h with
  | plan _ | script _ _ | advance _ =>
      exact .of_sockets_eq rfl (List.prefix_refl _) rfl (List.suffix_refl _)
  | complete s v => exact proceeds_modify k s fun sock => Socket.proceeds_complete sock v
  | arrive s _ | room s _ | failSends s _ => exact proceeds_modify k s fun _ => .inl ⟨rfl, rfl⟩
  | inject i => exact absurd rfl (hinject i)

/-! ## Connecting -/

/-- The socket of an opening that succeeds has its connect started. -/
theorem tried_openStream {isUp : Bool} (h : k.openStream address = (.ok (s, isUp), k')) :
    k'.Tried s address ∧ (isUp = true → k'.IsUp s) := by
  have hopening := opening k address
  rw [h] at hopening
  cases hopening with
  | @started vs spare d next _ hplan =>
      have hlook : (((k.made vs spare next (k.nextSocket d).connect address.family).record
          (.connect k.sockets.length address
            (k.plans.headD {}).connect)).sockets)[k.sockets.length]? =
          some (k.nextSocket d).connect := List.getElem?_concat_length
      have hstarted : (k.nextSocket d).connect.phase = .pending ∨ (k.nextSocket d).connect.IsOver :=
        Socket.started_connect hplan
      refine ⟨⟨⟨_, hlook, hstarted⟩, (k.plans.headD {}).connect, ?_⟩, fun hup => ⟨_, hlook, ?_⟩⟩
      · rw [record, Array.toList_push]
        exact List.mem_append_right _ (List.mem_singleton_self _)
      · have hok : (k.nextSocket d).plan.connect = .ok := of_decide_eq_true hup
        unfold Socket.connect
        rw [hok]

/-! ## Reading the error -/

theorem keeps_takeError (k : Kernel) (s : SocketId) : Keeps k (k.takeError s).2 := by
  unfold takeError takeVerdict
  rcases splitVerdict .getsockopt k.verdicts with ⟨_ | e, vs⟩
  · refine ⟨fun s' hs' => ?_, calls_prefix_record _ _, rfl, id⟩
    obtain ⟨sock, hs', hup⟩ := hs'
    by_cases h : s = s'
    · refine ⟨{ sock with error := none }, ?_, hup⟩
      show (k.sockets.modify s _)[s']? = _
      rw [h, List.getElem?_modify_eq, hs']
      rfl
    · refine ⟨sock, ?_, hup⟩
      show (k.sockets.modify s _)[s']? = _
      rw [List.getElem?_modify, hs']
      simp [h]
  · exact ⟨fun _ => id, calls_prefix_record _ _, rfl, id⟩

theorem pendingError_of_takeError (h : k.takeError s = (.ok none, k')) :
    k.pendingError s = none ∧ k'.pendingError s = none := by
  unfold takeError at h
  rcases hr : k.takeVerdict .getsockopt with ⟨_ | e, k₁⟩ <;> rw [hr] at h
  case fails => cases h
  obtain ⟨hnone, rfl⟩ := Prod.mk.inj h
  have hsockets : k₁.sockets = k.sockets := (congrArg (·.2.sockets) hr).symm
  refine ⟨?_, ?_⟩
  · rw [pendingError, ← hsockets]
    exact Except.ok.inj hnone
  · show (k₁.sockets.modify s _)[s]?.bind (·.error) = none
    rw [List.getElem?_modify_eq]
    rcases k₁.sockets[s]? with _ | sock <;> rfl

/-- A connect that has ended without an error to read has succeeded. -/
theorem IsOver.isUp_of_takeError (hs : k.IsOver s) (h : k.takeError s = (.ok none, k')) :
    k'.IsUp s := by
  have hkeeps := keeps_takeError k s
  rw [h] at hkeeps
  exact hkeeps.up s (hs.isUp (pendingError_of_takeError h).1)

end Kernel

end TextLink
