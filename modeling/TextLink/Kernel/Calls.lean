import TextLink.Kernel.Basic

/-!
# The calls on sockets and registrations

Each call takes the kernel before it and gives its answer with the kernel after it; all but the
bookkeeping calls are recorded. A call that is told to fail has no other effect.

A kernel is a `Medium`: its sockets are the destinations. Interruptions of a send stand in the
socket's list of failures to come, which is finite.

## Main results

* `backlog_receive_lt`: receiving data, or being interrupted, uses up something that had arrived.
* the instance `Medium Kernel`, whose patience is the number of failures to come.
-/

namespace TextLink

namespace Socket

/-- Ends a connect that is under way. -/
def complete (sock : Socket) (v : Verdict) : Socket :=
  match sock.phase, v with
  | .pending, .ok => { sock with phase := .up, error := none }
  | .pending, .fails e => { sock with phase := .failed, error := some e }
  | _, _ => sock

/-- Starts the connect as planned. -/
def connect (sock : Socket) : Socket :=
  match sock.plan.connect with
  | .ok => { sock with phase := .up }
  | .fails .inProgress | .fails .alreadyUnderway | .fails .interrupted =>
    let started := { sock with phase := .pending }
    match sock.plan.done with
    | none => started
    | some v => started.complete v
  | .fails _ => sock

/-- Whether a connect that answers `v` goes on by itself. -/
def goesOn (v : Verdict) : Bool :=
  v == .fails .inProgress || v == .fails .alreadyUnderway || v == .fails .interrupted

/-- Offers bytes for sending. -/
def send (sock : Socket) (bytes : Bytes) : Except Errno Nat × Socket :=
  if sock.phase ≠ .up then (.error .tryAgain, sock)
  else
    match sock.sendErrors with
    | e :: left => (.error e, { sock with sendErrors := left })
    | [] =>
      match sock.room with
      | some 0 => (.error .tryAgain, sock)
      | room =>
        let n := min (room.getD bytes.length) bytes.length
        (.ok n, { sock with room := room.map (· - n), wire := sock.wire ++ bytes.take n })

/-- Receives at most `size` bytes of what arrived first. -/
def receive (sock : Socket) (size : Nat) : Except Errno Bytes × Socket :=
  if sock.phase ≠ .up then (.error .tryAgain, sock)
  else
    match sock.incoming with
    | [] => (.error .tryAgain, sock)
    | .failure e :: later => (.error e, { sock with incoming := later })
    | .ending :: _ => (.ok [], sock)
    | .data bytes :: later =>
      let left := bytes.drop size
      let incoming := if left.isEmpty then later else .data left :: later
      (.ok (bytes.take size), { sock with incoming })

/-- A measure of what has arrived. -/
def backlog (sock : Socket) : Nat :=
  sock.incoming.foldr (fun arrival later =>
    match arrival with
    | .data bytes => bytes.length + 1 + later
    | .failure _ | .ending => 1 + later) 0

theorem backlog_receive_lt_of_data {sock : Socket} {size : Nat} {bytes : Bytes}
    (h : (sock.receive size).1 = .ok bytes) (hb : bytes ≠ []) :
    (sock.receive size).2.backlog < sock.backlog := by
  unfold receive at h ⊢
  split at h
  · simp at h
  · rename_i hp
    rw [if_neg hp]
    split at h
    · simp at h
    · simp at h
    · simp only [Except.ok.injEq] at h
      exact absurd h.symm hb
    · rename_i data later hi
      simp only [Except.ok.injEq] at h
      have hpos : 0 < (data.take size).length := by
        rw [h]; exact List.length_pos_iff.2 hb
      simp only [List.length_take] at hpos
      by_cases hl : (data.drop size).isEmpty = true
      · simp [backlog, hi, hl]
      · simp [backlog, hi, hl]
        omega

theorem backlog_receive_lt_of_failure {sock : Socket} {size : Nat} {e : Errno}
    (h : (sock.receive size).1 = .error e) (he : e ≠ .tryAgain) :
    (sock.receive size).2.backlog < sock.backlog := by
  unfold receive at h ⊢
  split at h
  · simp only [Except.error.injEq] at h
    exact absurd h.symm he
  · rename_i hp
    rw [if_neg hp]
    split at h
    · simp only [Except.error.injEq] at h
      exact absurd h.symm he
    · rename_i e' later hi
      simp [backlog, hi]
    · simp at h
    · simp at h

/-- What the socket is ready for. -/
def readiness (sock : Socket) : Flags :=
  match sock.phase with
  | .fresh | .pending => {}
  | .failed =>
    { input := true, output := true, error := true, hangup := true, readHangup := true }
  | .up =>
    { input := !sock.incoming.isEmpty
      output := sock.room != some 0 || !sock.sendErrors.isEmpty
      error := sock.incoming.any fun | .failure _ => true | _ => false
      readHangup := sock.incoming.any fun | .ending => true | _ => false }

end Socket

namespace Kernel

/-! ## Making and connecting sockets -/

/--
Makes a stream socket that does not block and is not inherited.

The next plan belongs to it. It takes two descriptors, the second one for its far end. A socket that
cannot be set up so is closed again; its number stays used.
-/
def openSocket (k : Kernel) (family : Family) : Except Errno SocketId × Kernel :=
  match k.takeVerdict .socket with
  | (.fails e, k) => (.error e, k.record (.socket family (.error e)))
  | (.ok, k) =>
    let s := k.sockets.length
    let plan := k.plans.headD {}
    let (descriptor, k) := k.takeDescriptor
    let (_, k) := k.takeDescriptor
    let made : Kernel := { k with
      sockets := k.sockets ++ [({ descriptor, plan, room := plan.room } : Socket)]
      plans := k.plans.tail }
    match (made.record (.socket family (.ok s))).takeVerdicts (List.replicate 4 .fcntl) with
    | (.ok, k) => (.ok s, k)
    | (.fails e, k) => (.error e, k.close s)

/-- Starts a connect; tells whether it succeeded already or goes on by itself. -/
def connect (k : Kernel) (s : SocketId) (address : Address) : Except Errno Bool × Kernel :=
  match k.sockets[s]? with
  | none => (.error .badDescriptor, k)
  | some sock =>
    let answer := sock.plan.connect
    let k := (k.updateSocket s Socket.connect).record (.connect s address answer)
    match answer with
    | .ok => (.ok true, k)
    | .fails e => (if Socket.goesOn answer then .ok false else .error e, k)

/-- Makes a socket and starts connecting it. A socket that cannot connect is closed again. -/
def openStream (k : Kernel) (address : Address) : Except Errno (SocketId × Bool) × Kernel :=
  match k.openSocket address.family with
  | (.error e, k) => (.error e, k)
  | (.ok s, k) =>
    match k.connect s address with
    | (.ok isUp, k) => (.ok (s, isUp), k)
    | (.error e, k) => (.error e, k.close s)

/-- Reads the pending error of a socket, which is then no longer pending. -/
def takeError (k : Kernel) (s : SocketId) : Except Errno (Option Errno) × Kernel :=
  match k.takeVerdict .getsockopt with
  | (.fails e, k) => (.error e, k.record (.takeError s (.error e)))
  | (.ok, k) =>
    let pending := k.sockets[s]?.bind (·.error)
    let verdict := match pending with
      | none => Verdict.ok
      | some e => .fails e
    let k := k.updateSocket s fun sock => { sock with error := none }
    (.ok pending, k.record (.takeError s (.ok verdict)))

/-! ## Sending and receiving -/

/-- Offers bytes for sending; tells how many were accepted. -/
def send (k : Kernel) (s : SocketId) (bytes : Bytes) : Except Errno Nat × Kernel :=
  match k.sockets[s]? with
  | none => (.error .badDescriptor, k)
  | some sock =>
    let (outcome, sock) := sock.send bytes
    let k : Kernel := { k with sockets := k.sockets.set s sock }
    (outcome, k.record (.send s bytes.length outcome))

/-- Receives at most `size` bytes; none at all is the end of the stream. -/
def receive (k : Kernel) (s : SocketId) (size : Nat) : Except Errno Bytes × Kernel :=
  match k.sockets[s]? with
  | none => (.error .badDescriptor, k)
  | some sock =>
    let (outcome, sock) := sock.receive size
    let k : Kernel := { k with sockets := k.sockets.set s sock }
    (outcome, k.record (.receive s size outcome))

/-- What has arrived on socket `s`, measured. -/
def backlog (k : Kernel) (s : SocketId) : Nat := (k.sockets[s]?.map Socket.backlog).getD 0

theorem lt_length_of_getElem?_eq_some {α : Type} {l : List α} {i : Nat} {a : α}
    (h : l[i]? = some a) : i < l.length := by
  rcases Nat.lt_or_ge i l.length with hi | hi
  · exact hi
  · simp [List.getElem?_eq_none hi] at h

theorem backlog_receive_lt {k : Kernel} {s : SocketId} {size : Nat}
    (h : (∃ bytes, (k.receive s size).1 = .ok bytes ∧ bytes ≠ []) ∨
      (k.receive s size).1 = .error .interrupted) :
    (k.receive s size).2.backlog s < k.backlog s := by
  unfold receive at h ⊢
  cases hs : k.sockets[s]? with
  | none => simp [hs] at h
  | some sock =>
    have hi := lt_length_of_getElem?_eq_some hs
    simp only [hs] at h
    simp only [backlog, record, List.getElem?_set_self hi, hs, Option.map_some, Option.getD_some]
    rcases h with ⟨bytes, h, hb⟩ | h
    · exact Socket.backlog_receive_lt_of_data h hb
    · exact Socket.backlog_receive_lt_of_failure h (by decide)

/-- Offers bytes to a socket as a destination. -/
def write (k : Kernel) (s : SocketId) (bytes : Bytes) : Except IoError Nat × Kernel :=
  ((k.send s bytes).1.mapError .os, (k.send s bytes).2)

/-- How many failures socket `s` has to come. -/
def patience (k : Kernel) (s : SocketId) : Nat :=
  (k.sockets[s]?.map fun sock => sock.sendErrors.length).getD 0

theorem length_sendErrors_lt_of_interrupted {sock : Socket} {bytes : Bytes}
    (h : (sock.send bytes).1 = .error .interrupted) :
    (sock.send bytes).2.sendErrors.length < sock.sendErrors.length := by
  unfold Socket.send at h ⊢
  split at h
  · simp at h
  · rename_i hp
    rw [if_neg hp]
    split at h
    · rename_i e left he
      simp [he]
    · split at h <;> simp at h

theorem patience_lt (k : Kernel) (s : SocketId) (bytes : Bytes) (e : IoError)
    (h : (k.write s bytes).1 = .error e) (hk : e.kind = .interrupted) :
    (k.write s bytes).2.patience s < k.patience s := by
  unfold write send at h ⊢
  unfold patience
  cases hs : k.sockets[s]? with
  | none =>
    simp only [hs] at h
    cases h
    simp [IoError.kind, Errno.kind] at hk
  | some sock =>
    have hi := lt_length_of_getElem?_eq_some hs
    simp only [hs] at h
    simp only [record, List.getElem?_set_self hi, Option.map_some, Option.getD_some]
    apply length_sendErrors_lt_of_interrupted
    cases ho : (sock.send bytes).1 with
    | ok n =>
      rw [ho] at h
      cases h
    | error e' =>
      rw [ho] at h
      cases h
      cases e' <;> simp_all [IoError.kind, Errno.kind]

instance : Medium Kernel := ⟨write, patience, patience_lt⟩

/-! ## Registrations -/

/-- Whether the descriptor of socket `s` is registered. -/
def isRegistered (k : Kernel) (s : SocketId) : Bool :=
  k.registrations.any fun r => r.descriptor == k.descriptor s

/-- Starts watching a socket that is not watched yet. -/
def register (k : Kernel) (s : SocketId) (token : Nat) (interest : Interest) : Verdict × Kernel :=
  let (verdict, k) := k.takeVerdict .epollCtl
  let verdict := if verdict = .ok ∧ k.isRegistered s then .fails .alreadyExists else verdict
  let k := if verdict = .ok then
    { k with registrations := k.registrations ++ [⟨k.descriptor s, token, interest⟩] } else k
  (verdict, k.record (.register s token interest verdict))

/-- Changes how a watched socket is watched. -/
def reregister (k : Kernel) (s : SocketId) (token : Nat) (interest : Interest) : Verdict × Kernel :=
  let (verdict, k) := k.takeVerdict .epollCtl
  let verdict := if verdict = .ok ∧ !k.isRegistered s then .fails .noEntry else verdict
  let k := if verdict = .ok then
    { k with registrations := k.registrations.map fun r =>
        if r.descriptor = k.descriptor s then { r with token, interest } else r } else k
  (verdict, k.record (.reregister s token interest verdict))

/-- Stops watching a socket. -/
def deregister (k : Kernel) (s : SocketId) : Verdict × Kernel :=
  let (verdict, k) := k.takeVerdict .epollCtl
  let verdict := if verdict = .ok ∧ !k.isRegistered s then .fails .noEntry else verdict
  let k := if verdict = .ok then
    { k with registrations := k.registrationsBut (k.descriptor s) } else k
  (verdict, k.record (.deregister s verdict))

/-- Makes what readiness is waited for with: the set of registrations, and the waker in it. -/
def openPoller (k : Kernel) : Verdict × Kernel :=
  k.takeVerdicts [.epollCreate, .eventfd, .epollCtl]

end Kernel

end TextLink
