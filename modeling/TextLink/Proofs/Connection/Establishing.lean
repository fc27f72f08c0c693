import TextLink.Proofs.Connection.Intake

/-!
# Connected, and up

A connection is established over a socket whose connect has succeeded: at once, or as an event told.
The event itself says only that the connect has ended; how, the pending error says, and no error is
a success unless the connect is still under way. So as long as no event is handled too early
(`Prompted`), what the connection and its queue say of the socket is true (`Truthful`), and each
step keeps it so.

What the handler is told goes along with the state (`Speaks`). Where a connect is attempted or
concluded the state goes on to connected and no further, so whoever is told of it is still
connected in the end.

## Main results

* `Steps.truthful` — steps that come when the connect has ended keep the connection truthful.
* `Step.speaks` — what a step tells.
* `Steps.announces` — whoever is told to be connected is.
-/

namespace TextLink.Link

open Relation (ReflTransGen)
open Kernel (Proceeds Keeps)

variable {l l' l'' : Link} {why : Occasion} {s : SocketId}

/-! ## What the connection says of its socket -/

/-- A connection is connected, and its queue writes, only where the connect has succeeded. -/
structure Truthful (l : Link) : Prop where
  tried : ∀ s, l.conn.socket = some s → l.kernel.Tried s l.conn.address
  up : l.conn.state = .connected → ∀ s, l.conn.socket = some s → l.kernel.IsUp s
  writer : ∀ w, l.queue.writer = some w → l.kernel.IsUp w

/-- The connection acts for no event before its connect has ended. -/
def Prompted (why : Occasion) (l : Link) : Prop :=
  why.isEvent = true → ∀ s, l.conn.socket = some s → l.kernel.IsOver s

/-! ## Kernel calls of a connection -/

theorem proceeds_letGo (l : Link) (o : Option SocketId) : l.kernel.Proceeds (l.letGo o).kernel := by
  unfold letGo
  split
  · exact .refl _
  · split
    · exact .refl _
    · exact Kernel.proceeds_close _ _

/-- The queue changes, and gives a socket up. -/
theorem proceeds_queue (l : Link) (queue : SendQueue) (o : Option SocketId) :
    l.kernel.Proceeds (letGo { l with queue } o).kernel :=
  proceeds_letGo { l with queue } o

theorem proceeds_arm (l : Link) (interest : Interest) :
    l.kernel.Proceeds (l.arm interest).2.kernel := by
  unfold arm
  split
  · exact .refl _
  · next s _ =>
    have hregister := Kernel.proceeds_register l.kernel s l.conn.token interest
    have hreregister := Kernel.proceeds_reregister l.kernel s l.conn.token interest
    split
    · exact .refl _
    · rcases l.conn.registered with _ | i
      · simp only [Option.isSome_none, Bool.false_eq_true, if_false]
        generalize l.kernel.register s l.conn.token interest = r at hregister ⊢
        rcases r with ⟨_ | e, k⟩ <;> exact hregister
      · simp only [Option.isSome_some, if_true]
        generalize l.kernel.reregister s l.conn.token interest = r at hreregister ⊢
        rcases r with ⟨_ | e, k⟩ <;> exact hreregister

theorem proceeds_release (l : Link) : l.kernel.Proceeds l.release.kernel := by
  unfold release
  split
  · exact .refl _
  · next s _ =>
    simp only
    refine Proceeds.trans ?_ (proceeds_letGo _ _)
    split
    · exact Kernel.proceeds_deregister l.kernel s
    · exact .refl _

/-- A step reads the pending error, for an event, or the kernel goes on by itself. -/
theorem Step.proceeds (h : Step why l l') : l.kernel.Proceeds l'.kernel ∨
    ∃ s r k, why = .concluding ∧ l.conn.socket = some s ∧ l.kernel.takeError s = (r, k) ∧
      (r = .ok none ∧ l' = { l with kernel := k } ∨ l' = Link.release { l with kernel := k }) := by
  cases h with
  | note | plan => exact .inl (.refl _)
  | suspend | closeQueue | put _ _ _ _ => exact .inl (proceeds_queue l _ _)
  | release => exact .inl (proceeds_release l)
  | arm _ interest => exact .inl (proceeds_arm l interest)
  | begin _ | establish _ _ _ _ | shut _ _ _ _ _ =>
      rw [kernel_setState]
      exact .inl (.refl _)
  | unmade h | made _ _ _ h =>
      have hopens := Kernel.proceeds_openStream l.kernel l.conn.address
      rw [h] at hopens
      exact .inl hopens
  | cleared _ hsocket h => exact .inr ⟨_, _, _, rfl, hsocket, h, .inl ⟨rfl, rfl⟩⟩
  | refused _ hsocket h _ => exact .inr ⟨_, _, _, rfl, hsocket, h, .inr rfl⟩
  | @miss _ s _ _ _ _ h _ =>
      have hreceive := Kernel.proceeds_receive l.kernel s l.conn.chunk
      rw [h] at hreceive
      exact .inl hreceive
  | @take _ s _ _ _ _ _ h =>
      have hreceive := Kernel.proceeds_receive l.kernel s l.conn.chunk
      rw [h] at hreceive
      rw [kernel_takeIn]
      exact .inl hreceive
  | flush _ =>
      rcases hw : l.queue.writer with _ | w
      · rw [SendQueue.flush_of_no_writer _ hw]
        exact .inl (.refl _)
      · exact .inl (Kernel.sends_flush l.kernel hw).proceeds

theorem Step.keeps (h : Step why l l') : l.kernel.Keeps l'.kernel := by
  rcases h.proceeds with hproceeds | ⟨s, r, k, _, _, htake, hl'⟩
  · exact hproceeds.toKeeps
  · have hkeeps := Kernel.keeps_takeError l.kernel s
    rw [htake] at hkeeps
    rcases hl' with ⟨_, rfl⟩ | rfl
    · exact hkeeps
    · exact hkeeps.trans (proceeds_release { l with kernel := k }).toKeeps

theorem Steps.keeps (h : Steps why l l') : l.kernel.Keeps l'.kernel := by
  induction h with
  | refl => exact .refl _
  | tail _ hstep ih => exact ih.trans hstep.keeps

/-! ## Steps -/

theorem writer_flush (l : Link) : (l.queue.flush l.kernel).2.1.writer = l.queue.writer := by
  have ⟨_, _, _, hq⟩ := SendQueue.flush_keeps l.queue l.kernel
  rw [hq]

theorem queue_takeIn (l : Link) (bytes : Bytes) : (l.takeIn bytes).2.queue = l.queue :=
  (takeIn_keeps l bytes).2

/-- Only a step that puts the queue to work has it write to another socket. -/
theorem Step.writer (h : Step why l l') {w : SocketId} (hw : l'.queue.writer = some w) :
    l.queue.writer = some w ∨ why.isConnect = true ∧ l.conn.socket = some w ∧
      (l.kernel.IsUp w ∨ why = .concluding ∧ l.kernel.pendingError w = none) := by
  cases h with
  | note | plan | unmade | made | cleared | miss => exact .inl hw
  | suspend =>
      rw [queue_letGo] at hw
      rcases writer_connecting l.queue with hnone | hsame
      · cases hnone.symm.trans hw
      · exact .inl (hsame.symm.trans hw)
  | closeQueue =>
      rw [queue_closeQueue] at hw
      cases hw
  | @put _ _ s hwhy _ hsocket hup =>
      rw [queue_letGo] at hw
      obtain rfl := Option.some.inj hw
      exact .inr ⟨hwhy, hsocket, hup⟩
  | release | refused =>
      rw [queue_release] at hw
      exact .inl hw
  | arm _ interest =>
      rw [queue_arm] at hw
      exact .inl hw
  | begin | establish | shut =>
      rw [queue_setState] at hw
      exact .inl hw
  | take =>
      rw [queue_takeIn] at hw
      exact .inl hw
  | flush =>
      rw [writer_flush] at hw
      exact .inl hw

/-! ## What is told -/

/-- How a step may change the state of `l` to another one. -/
inductive Enters (why : Occasion) (l : Link) : ConnectionState → Prop where
  | connecting (hwhy : why = .attempting) (hstate : l.conn.state = .disconnected) :
      Enters why l .connecting
  /-- The queue writes to the socket already. -/
  | connected {s : SocketId} (hwhy : why.isConnect = true) (hstate : l.conn.state = .connecting)
      (hsocket : l.conn.socket = some s) (hwriter : l.queue.writer = some s) :
      Enters why l .connected
  | closed (hstate : l.conn.state ≠ .closed)
      (hwhy : why.isConnect = true → l.conn.state = .connecting) : Enters why l .closed

/-- What a step tells the handler: nothing, the state entered, or text. -/
inductive Speaks (why : Occasion) (l l' : Link) : Prop where
  | silent (hstate : l'.conn.state = l.conn.state)
      (hcallbacks : l'.journal.callbacks = l.journal.callbacks) : Speaks why l l'
  | enters {state : ConnectionState} (hstate : l'.conn.state = state) (henters : Enters why l state)
      (hcallbacks :
        l'.journal.callbacks = l.journal.callbacks.push ⟨l.conn.handler, .state state⟩) :
      Speaks why l l'
  | tells {text : String} (hwhy : why = .serving) (hconnected : l.conn.state = .connected)
      (hstate : l'.conn.state = l.conn.state)
      (hcallbacks : l'.journal.callbacks = l.journal.callbacks.push ⟨l.conn.handler, .text text⟩) :
      Speaks why l l'

theorem speaks_setState {state : ConnectionState}
    (henters : l.conn.state ≠ state → Enters why l state) : Speaks why l (l.setState state) := by
  by_cases hstate : l.conn.state = state
  · rw [setState, if_pos hstate]
    exact .silent rfl rfl
  · rw [setState_of_ne hstate]
    exact .enters rfl (henters hstate) rfl

theorem journal_arm (l : Link) (interest : Interest) :
    (l.arm interest).2.journal = l.journal := by
  unfold arm
  split
  · rfl
  · split
    · rfl
    · simp only
      split <;> rfl

theorem Step.speaks (h : Step why l l') : Speaks why l l' := by
  cases h with
  | note | plan | unmade | made | cleared | miss | flush => exact .silent rfl rfl
  | suspend | put => exact .silent (by rw [conn_letGo]) (by rw [journal_letGo])
  | closeQueue =>
      exact .silent (by rw [conn_closeQueue]) (congrArg Journal.callbacks (journal_letGo _ _))
  | release => exact .silent (state_release l) (by rw [journal_release])
  | refused => exact .silent (state_release _) (by rw [journal_release])
  | arm _ interest => exact .silent (state_arm l interest) (by rw [journal_arm])
  | begin hstate =>
      exact speaks_setState fun hne => .connecting rfl (hstate.resolve_right hne)
  | establish hwhy hstate hsocket hwriter =>
      exact speaks_setState fun _ => .connected hwhy hstate hsocket hwriter
  | shut rs hstate hwhy _ _ =>
      have hshut := @setState_of_ne
        (Link.note { l with conn := { l.conn with retryAt := none, decoder := {} } } rs)
        .closed hstate
      rw [hshut]
      exact .enters rfl (.closed hstate hwhy) rfl
  | @take _ s b bs k hstate _ h =>
      have htaken := callbacks_takeIn { l with kernel := k } (b :: bs)
      have hkept := (conn_takeIn { l with kernel := k } (b :: bs)).2.2
      split at htaken
      · refine .silent hkept (Array.toList_inj.1 ?_)
        rw [htaken, List.append_nil]
      · have hsaid : (takeIn { l with kernel := k } (b :: bs)).2.journal.callbacks =
            l.journal.callbacks.push ⟨l.conn.handler, .text (l.conn.decoder.feed (b :: bs)).1⟩ :=
          Array.toList_inj.1 (htaken.trans Array.toList_push.symm)
        exact .tells rfl hstate hkept hsaid

/-- Where a connect is attempted or concluded, a connection stays connected. -/
theorem Speaks.stays (h : Speaks why l l') (hwhy : why.isConnect = true)
    (hstate : l.conn.state = .connected) : l'.conn.state = .connected := by
  cases h with
  | silent hsame _ | tells _ _ hsame _ => exact hsame.trans hstate
  | enters _ henters _ =>
      cases henters with
      | connecting _ hold | connected _ hold _ _ => cases hstate.symm.trans hold
      | closed _ hold => cases hstate.symm.trans (hold hwhy)

/-- Whoever is told to be connected is. -/
theorem Steps.announces (h : Steps why l l') : ∃ new,
    l'.journal.callbacks.toList = l.journal.callbacks.toList ++ new ∧
      ∀ b ∈ new, b.heard = .state .connected →
        why.isConnect = true ∧ l'.conn.state = .connected ∧ b.handler = l.conn.handler := by
  induction h with
  | refl => exact ⟨[], (List.append_nil _).symm, fun _ hb => absurd hb List.not_mem_nil⟩
  | @tail l₁ l₂ hbefore hstep ih =>
      obtain ⟨new, hcallbacks, hnew⟩ := ih
      have hspeaks := hstep.speaks
      have hold : ∀ b ∈ new, b.heard = .state .connected →
          why.isConnect = true ∧ l₂.conn.state = .connected ∧ b.handler = l.conn.handler :=
        fun b hb hheard =>
          have ⟨hwhy, hstate, hhandler⟩ := hnew b hb hheard
          ⟨hwhy, hspeaks.stays hwhy hstate, hhandler⟩
      have hmore {heard : Heard}
          (hsaid : l₂.journal.callbacks = l₁.journal.callbacks.push ⟨l₁.conn.handler, heard⟩)
          (hheard : heard = .state .connected → why.isConnect = true ∧ l₂.conn.state = .connected) :
          ∃ new, l₂.journal.callbacks.toList = l.journal.callbacks.toList ++ new ∧
            ∀ b ∈ new, b.heard = .state .connected →
              why.isConnect = true ∧ l₂.conn.state = .connected ∧ b.handler = l.conn.handler := by
        refine ⟨new ++ [⟨l₁.conn.handler, heard⟩], ?_, fun b hb hconnected => ?_⟩
        · rw [hsaid, Array.toList_push, hcallbacks, List.append_assoc]
        · rcases List.mem_append.1 hb with hb | hb
          · exact hold b hb hconnected
          · obtain rfl := List.mem_singleton.1 hb
            have ⟨hwhy, hstate⟩ := hheard hconnected
            exact ⟨hwhy, hstate, (Steps.told hbefore).1⟩
      cases hspeaks with
      | silent _ hsame => exact ⟨new, (congrArg Array.toList hsame).trans hcallbacks, hold⟩
      | enters hstate henters hsaid =>
          refine hmore hsaid fun hheard => ?_
          obtain rfl := Heard.state.inj hheard
          cases henters with
          | connected hwhy _ _ _ => exact ⟨hwhy, hstate⟩
      | tells _ _ _ hsaid => exact hmore hsaid fun hheard => by cases hheard

/-! ## Truth -/

/-- No step establishes a connection over another socket than the queue writes to. -/
theorem Step.up (h : Step why l l') (ht : l.Truthful) (hstate : l'.conn.state = .connected)
    (hs : l'.conn.socket = some s) : l.kernel.IsUp s := by
  have hold : l.conn.socket = some s := by
    refine (h.socket_or_made hs).resolve_right fun ⟨_, hconnecting, _, _, _, hl'⟩ => ?_
    rw [hl'] at hstate
    cases hconnecting.symm.trans hstate
  cases h.speaks with
  | silent hsame _ | tells _ _ hsame _ => exact ht.up (hsame.symm.trans hstate) s hold
  | enters hentered henters _ =>
      rw [hstate] at hentered
      subst hentered
      cases henters with
      | connected _ _ hsocket hwriter =>
          obtain rfl := Option.some.inj (hsocket.symm.trans hold)
          exact ht.writer _ hwriter

/-- A step that comes when the connect has ended keeps the connection truthful. -/
theorem Step.truthful (h : Step why l l') (hl : l.Sound) (ht : l.Truthful) (hp : l.Prompted why) :
    l'.Truthful ∧ l'.Prompted why := by
  have haddress : l'.conn.address = l.conn.address :=
    congrArg (·.2.2.1) (h.leads hl).identity_eq
  have hkeeps := h.keeps
  have hwriter : ∀ w, l'.queue.writer = some w → l'.kernel.IsUp w := by
    intro w hw
    refine hkeeps.up w ?_
    rcases h.writer hw with hw | ⟨_, hsocket, hup | ⟨rfl, hnone⟩⟩
    · exact ht.writer w hw
    · exact hup
    · exact (hp rfl w hsocket).isUp hnone
  have hup : l'.conn.state = .connected → ∀ s, l'.conn.socket = some s → l'.kernel.IsUp s :=
    fun hstate s hs => hkeeps.up s (h.up ht hstate hs)
  rcases h.proceeds with hk | ⟨s, r, k, hwhy, hsocket, htake, hl'⟩
  · refine ⟨⟨fun s hs => ?_, hup, hwriter⟩, fun hevent s hs => ?_⟩
    · rcases h.socket_or_made hs with hs | ⟨_, _, isUp, k, hopen, rfl⟩
      · exact haddress ▸ hk.tried (ht.tried s hs)
      · exact (Kernel.tried_openStream hopen).1
    · refine hk.isOver (hp hevent s (h.socket (fun hwhy => ?_) hs))
      rw [hwhy] at hevent
      cases hevent
  · -- If a socket is left, no error was found.
    have hcleared {s' : SocketId} (hs' : l'.conn.socket = some s') :
        l.conn.socket = some s' ∧ l'.kernel.IsUp s' := by
      rcases hl' with ⟨rfl, rfl⟩ | rfl
      · obtain rfl := Option.some.inj (hsocket.symm.trans hs')
        exact ⟨hsocket, (hp (hwhy ▸ rfl) s hsocket).isUp_of_takeError htake⟩
      · cases (socket_release _).symm.trans hs'
    refine ⟨⟨fun s' hs' => ?_, hup, hwriter⟩, fun _ s' hs' => (hcleared hs').2.isOver⟩
    have ⟨hs, hisUp⟩ := hcleared hs'
    exact haddress ▸ (ht.tried s' hs).of_isUp hkeeps hisUp

theorem Steps.truthful (h : Steps why l l') (hl : l.Sound) (ht : l.Truthful) (hp : l.Prompted why) :
    l'.Truthful ∧ l'.Prompted why := by
  induction h with
  | refl => exact ⟨ht, hp⟩
  | tail hbefore hstep ih => exact hstep.truthful (Steps.leads hbefore hl).sound ih.1 ih.2

end TextLink.Link
