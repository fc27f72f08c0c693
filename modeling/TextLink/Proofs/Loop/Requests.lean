import TextLink.Proofs.Loop.Coherence

/-!
# How requests go

A request does one or two of three things to a loop: it puts a command into the channel and wakes
the loop (`told`), has a queue made for a new connection (`joined`), offers bytes to a queue
(`offered`). Which of them depends on whether the loop is still there and, for bytes, on what the
queue answers. It is said here once (`Asked`); whatever requests keep is shown of these few changes,
one by one.

## Main results

* `asked` — how a request goes.
* `joined_of_connected` — a request for a connection that is accepted.
* `queue_joined`, `queue_offered`, `exists_queue_offered` — what becomes of the queues.
-/

namespace TextLink.Loop

variable {l l' : Loop} {id : Nat} {address : Address} {handler : Handler} {options : ConnectOptions}

/-- The loop with one more command in its channel, and awake. -/
def told (l : Loop) (command : Command) : Loop :=
  { l with channel := l.channel ++ [command], kernel := l.kernel.wake }

/-- The command that asks for a new connection. -/
def newcomer (l : Loop) (address : Address) (handler : Handler) (options : ConnectOptions) :
    Command :=
  .connect l.queues.length address { handler with conn := l.queues.length } options

/-- The loop with a connection requested, and a queue for it. -/
def joined (l : Loop) (address : Address) (handler : Handler) (options : ConnectOptions) : Loop :=
  { l.told (l.newcomer address handler options) with
    queues := l.queues ++ [.ofLimit options.maxPending] }

/-- The loop after queue number `id` was offered `bytes`. -/
def offered (l : Loop) (id : Nat) (bytes : Bytes) : Loop :=
  { l with
    queues := l.queues.set id ((l.queue id).push l.kernel bytes).2.1
    kernel := ((l.queue id).push l.kernel bytes).2.2 }

/-! ## What becomes of the queues -/

theorem length_joined (l : Loop) (address : Address) (handler : Handler)
    (options : ConnectOptions) :
    (l.joined address handler options).queues.length = l.queues.length + 1 := List.length_append

theorem queue_joined (l : Loop) (address : Address) (handler : Handler) (options : ConnectOptions)
    (id : Nat) : (l.joined address handler options).queue id =
      if id = l.queues.length then .ofLimit options.maxPending else l.queue id :=
  queue_append l _

theorem queue_offered (l : Loop) (id : Nat) (bytes : Bytes) (id' : Nat) :
    (l.offered id bytes).queue id' = if id' = id ∧ id < l.queues.length then
      ((l.queue id).push l.kernel bytes).2.1 else l.queue id' :=
  queue_set l _

/-- Only what waits is changed by offering more. -/
theorem exists_queue_offered (l : Loop) (id : Nat) (bytes : Bytes) (id' : Nat) :
    ∃ pending headSent, (l.offered id bytes).queue id' =
      { l.queue id' with pending, headSent } := by
  obtain ⟨pending, headSent, hpush⟩ := (SendQueue.pushes (l.queue id) l.kernel bytes).keeps
  rw [queue_offered]
  split
  · next hid =>
      rw [hid.1, hpush]
      exact ⟨pending, headSent, rfl⟩
  · exact ⟨_, _, rfl⟩

/-! ## How they go -/

/-- What a request can make of `l`. -/
inductive Asked (l : Loop) : Loop → Prop where
  /-- There is no loop to give a command to. -/
  | refused (hended : l.ended = true) : Asked l l
  | told {command : Command} (hlive : l.ended = false)
      (hnone : ∀ id address handler options, command ≠ .connect id address handler options) :
      Asked l (l.told command)
  | joined (address : Address) (handler : Handler) (options : ConnectOptions)
      (hlive : l.ended = false) : Asked l (l.joined address handler options)
  | offered (id : Nat) (bytes : Bytes)
      (hquiet : ((l.queue id).push l.kernel bytes).1 ≠ .ok (.queued true)) :
      Asked l (l.offered id bytes)
  /-- The message is the first to wait on a connection that is up, and somebody is
  there to flush it. -/
  | armed (id : Nat) (bytes : Bytes) (hlive : l.ended = false)
      (harm : ((l.queue id).push l.kernel bytes).1 = .ok (.queued true)) :
      Asked l ((l.offered id bytes).told (.flush id))
  | stranded (id : Nat) (bytes : Bytes) (hended : l.ended = true)
      (harm : ((l.queue id).push l.kernel bytes).1 = .ok (.queued true)) :
      Asked l ((l.offered id bytes).note [.nobodyFlushes])

theorem submit_of_live (hlive : l.ended = false) (command : Command) :
    l.submit command = (.ok (), l.told command) := by
  rw [submit, if_neg (Bool.eq_false_iff.1 hlive)]
  rfl

theorem asked_submit (l : Loop) {command : Command}
    (hnone : ∀ id address handler options, command ≠ .connect id address handler options) :
    Asked l (l.submit command).2 := by
  rcases hended : l.ended with _ | _
  · rw [submit_of_live hended]
    exact .told hended hnone
  · rw [submit_of_ended command hended]
    exact .refused hended

theorem requestConnect_of_live (hlive : l.ended = false) (address : Address) (handler : Handler)
    (options : ConnectOptions) : l.requestConnect address handler options =
      (.ok l.queues.length, l.joined address handler options) := by
  unfold requestConnect
  simp only [submit_of_live hlive]
  rfl

theorem requestConnect_of_ended (hended : l.ended = true) (address : Address) (handler : Handler)
    (options : ConnectOptions) :
    l.requestConnect address handler options = (.error .loopGone, l) := by
  unfold requestConnect
  simp only [submit_of_ended _ hended]

theorem asked_sendBytes (l : Loop) (id : Nat) (bytes : Bytes) :
    Asked l (l.sendBytes id bytes).2 := by
  have hquiet := Asked.offered (l := l) id bytes
  have harmed := Asked.armed (l := l) id bytes
  have hstranded := Asked.stranded (l := l) id bytes
  unfold offered at hquiet harmed hstranded
  unfold sendBytes
  generalize (l.queue id).push l.kernel bytes = r at *
  rcases r with ⟨e | (_ | _ | _), q, kernel⟩
  case ok.queued.true =>
    simp only
    by_cases hended : l.ended = true
    · rw [submit_of_ended (l := { l with queues := l.queues.set id q, kernel }) _ hended]
      exact hstranded hended rfl
    · have hlive := Bool.eq_false_iff.2 hended
      rw [submit_of_live (l := { l with queues := l.queues.set id q, kernel }) hlive]
      exact harmed hlive rfl
  all_goals exact hquiet nofun

/-- How a request goes. -/
theorem asked (l : Loop) (r : Request) : Asked l (l.request r).2 := by
  cases r with
  | connect address handler options =>
      show Asked l (l.requestConnect address handler options).2
      rcases hended : l.ended with _ | _
      · rw [requestConnect_of_live hended]
        exact .joined address handler options hended
      · rw [requestConnect_of_ended hended]
        exact .refused hended
  | send id bytes => exact asked_sendBytes l id bytes
  | close id => exact asked_submit l nofun
  | shutdown => exact asked_submit l nofun

/-- A request for a connection that is accepted. -/
theorem joined_of_connected
    (h : (l.request (.connect address handler options)).1 = .connected (.ok id)) :
    l.ended = false ∧ id = l.queues.length ∧
      (l.request (.connect address handler options)).2 = l.joined address handler options := by
  have hreply : (l.requestConnect address handler options).1 = .ok id := by
    injection h
  show l.ended = false ∧ id = l.queues.length ∧
    (l.requestConnect address handler options).2 = l.joined address handler options
  rcases hended : l.ended with _ | _
  · rw [requestConnect_of_live hended] at hreply ⊢
    injection hreply with hid
    exact ⟨rfl, hid.symm, rfl⟩
  · rw [requestConnect_of_ended hended] at hreply
    cases hreply

end TextLink.Loop
