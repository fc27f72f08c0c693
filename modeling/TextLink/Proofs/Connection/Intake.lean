import TextLink.Proofs.Connection.Steps
import TextLink.Proofs.Kernel.Record
import TextLink.Proofs.Text.Pieces

/-!
# What a connection receives and tells

Of all steps of a connection only one receives bytes, and only that one tells text and changes the
decoder: bytes are received, decoded and told in one go. Any other step is quiet (`Quiet`). So what
was told and the decoder are at any time those of the bytes received so far, in whatever pieces they
came (`Conveys`), and a failure can come between two steps only.

Reading ends a stream only if the last call said so; all that was received before is decoded by
then.

## Main results

* `Step.conveys`, `Steps.conveys` — what a connection told goes on to be what it received.
* `Steps.textsOf_eq` — other connections are told nothing.
* `handleEvent_of_ends` — reading that comes to the end of the stream.
-/

namespace TextLink

open Text (Decoder MalformedPolicy)

/-! ## What is told -/

/-- The text told, if it is one. -/
def Heard.text? : Heard → Option String
  | text s => some s
  | state _ => none

/-- The texts told to the handler of connection number `id`. -/
def Journal.textsOf (j : Journal) (id : Nat) : List String :=
  j.callbacks.toList.filterMap fun c => if c.handler.conn = id then c.heard.text? else none

/-- The texts are those of a new decoder that was fed `bytes`, and none is empty. -/
structure Tells (policy : MalformedPolicy) (bytes : Bytes) (texts : List String) : Prop where
  join_eq : String.join texts = (Decoder.feed { policy } bytes).1
  not_mem : "" ∉ texts

theorem tells_nil (policy : MalformedPolicy) : Tells policy [] [] :=
  ⟨(congrArg Prod.fst (Decoder.feed_nil policy)).symm, List.not_mem_nil⟩

/-- The text of more bytes is told if there is any. -/
theorem Tells.feed {policy : MalformedPolicy} {bytes : Bytes} {texts : List String}
    (h : Tells policy bytes texts) (more : Bytes) :
    let text := ((Decoder.feed { policy } bytes).2.feed more).1
    Tells policy (bytes ++ more) (if text.isEmpty then texts else texts ++ [text]) := by
  intro text
  have hjoin : String.join texts ++ text = (Decoder.feed { policy } (bytes ++ more)).1 := by
    rw [Decoder.feed_append, h.join_eq]
  split
  · next hempty =>
    rw [String.isEmpty_iff.1 hempty, String.append_empty] at hjoin
    exact ⟨hjoin, h.not_mem⟩
  · next hempty =>
    constructor
    · rw [String.join_append, String.join_cons, String.join_nil, String.append_empty]
      exact hjoin
    · intro hmem
      rcases List.mem_append.1 hmem with hmem | hmem
      · exact h.not_mem hmem
      · exact hempty (String.isEmpty_iff.2 (List.mem_singleton.1 hmem).symm)

namespace Link

open Kernel (Receives)

variable {l l' l'' : Link} {why : Occasion} {s : SocketId} {id : Nat} {policy : MalformedPolicy}
  {bytes : Bytes} {o : Option SocketId}

/-! ## Quiet steps -/

/-- Nothing is received, decoded or told but states. -/
structure Quiet (l l' : Link) : Prop where
  receives : ∀ o, Receives o [] l.kernel l'.kernel
  told : ∃ new, l'.journal.callbacks.toList = l.journal.callbacks.toList ++ new ∧
    ∀ c ∈ new, c.handler = l.conn.handler ∧ c.heard.text? = none
  handler_eq : l'.conn.handler = l.conn.handler
  decoder : l'.conn.state ≠ .closed → l.conn.state ≠ .closed ∧ l'.conn.decoder = l.conn.decoder

namespace Quiet

theorem trans (h : Quiet l l') (h' : Quiet l' l'') : Quiet l l'' where
  receives o := (h.receives o).trans (h'.receives o)
  told := by
    obtain ⟨new, hcallbacks, hnew⟩ := h.told
    obtain ⟨new', hcallbacks', hnew'⟩ := h'.told
    refine ⟨new ++ new', by rw [hcallbacks', hcallbacks, List.append_assoc], fun c hc => ?_⟩
    rcases List.mem_append.1 hc with hc | hc
    · exact hnew c hc
    · exact ⟨(hnew' c hc).1.trans h.handler_eq, (hnew' c hc).2⟩
  handler_eq := h'.handler_eq.trans h.handler_eq
  decoder hstate :=
    have ⟨hstate', hdecoder'⟩ := h'.decoder hstate
    have ⟨hstate'', hdecoder⟩ := h.decoder hstate'
    ⟨hstate'', hdecoder'.trans hdecoder⟩

/-- Calls that receive nothing. -/
theorem of_receives (hk : ∀ o, Receives o [] l.kernel l'.kernel)
    (hcallbacks : l'.journal.callbacks = l.journal.callbacks)
    (hhandler : l'.conn.handler = l.conn.handler) (hstate : l'.conn.state = l.conn.state)
    (hdecoder : l'.conn.decoder = l.conn.decoder) : Quiet l l' where
  receives := hk
  told := ⟨[], by rw [hcallbacks, List.append_nil], fun _ hc => absurd hc List.not_mem_nil⟩
  handler_eq := hhandler
  decoder hopen := ⟨hstate ▸ hopen, hdecoder⟩

theorem of_calls_eq (hk : l'.kernel.calls = l.kernel.calls)
    (hcallbacks : l'.journal.callbacks = l.journal.callbacks)
    (hhandler : l'.conn.handler = l.conn.handler) (hstate : l'.conn.state = l.conn.state)
    (hdecoder : l'.conn.decoder = l.conn.decoder) : Quiet l l' :=
  of_receives (fun o => (Kernel.Adds.of_calls_eq (t := .waiting) hk).receives (by decide) o)
    hcallbacks hhandler hstate hdecoder

theorem refl (l : Link) : Quiet l l := of_calls_eq rfl rfl rfl rfl rfl

/-- Calls on a topic that is not receiving. -/
theorem of_adds {t : Topic} (hk : Kernel.Adds t l.kernel l'.kernel) (ht : t ≠ .receiving)
    (hcallbacks : l'.journal.callbacks = l.journal.callbacks)
    (hhandler : l'.conn.handler = l.conn.handler) (hstate : l'.conn.state = l.conn.state)
    (hdecoder : l'.conn.decoder = l.conn.decoder) : Quiet l l' :=
  of_receives (hk.receives ht) hcallbacks hhandler hstate hdecoder

end Quiet

theorem quiet_letGo (l : Link) (o : Option SocketId) : Quiet l (l.letGo o) := by
  unfold letGo
  split
  · exact .refl l
  · split
    · exact .refl l
    · exact .of_calls_eq (Kernel.calls_close _ _) rfl rfl rfl rfl

/-- The queue changes, and gives a socket up. -/
theorem quiet_queue (l : Link) (queue : SendQueue) (o : Option SocketId) :
    Quiet l (letGo { l with queue } o) :=
  have hqueue : Quiet l { l with queue } := .of_calls_eq rfl rfl rfl rfl rfl
  hqueue.trans (quiet_letGo _ o)

theorem setState_of_ne {state : ConnectionState} (h : l.conn.state ≠ state) :
    l.setState state = { l with
      conn := { l.conn with state }
      journal := l.journal.tell l.conn.handler (.state state) } :=
  if_neg h

theorem quiet_setState (l : Link) (state : ConnectionState)
    (hstate : state ≠ .closed → l.conn.state ≠ .closed) : Quiet l (l.setState state) := by
  unfold setState
  split
  · exact .refl l
  · refine ⟨fun o => .refl o _,
      ⟨[⟨l.conn.handler, .state state⟩], Array.toList_push, fun c hc => ?_⟩,
      rfl, fun hopen => ⟨hstate hopen, rfl⟩⟩
    rw [List.mem_singleton.1 hc]
    exact ⟨rfl, rfl⟩

theorem quiet_arm (l : Link) (interest : Interest) : Quiet l (l.arm interest).2 := by
  unfold arm
  split
  · exact .refl l
  · next s _ =>
    split
    · exact .refl l
    · have hregister := Kernel.adds_register l.kernel s l.conn.token interest
      have hreregister := Kernel.adds_reregister l.kernel s l.conn.token interest
      rcases l.conn.registered with _ | i
      · simp only [Option.isSome_none, Bool.false_eq_true, if_false]
        generalize l.kernel.register s l.conn.token interest = r at hregister ⊢
        rcases r with ⟨_ | e, k⟩ <;> exact .of_adds hregister (by decide) rfl rfl rfl rfl
      · simp only [Option.isSome_some, if_true]
        generalize l.kernel.reregister s l.conn.token interest = r at hreregister ⊢
        rcases r with ⟨_ | e, k⟩ <;> exact .of_adds hreregister (by decide) rfl rfl rfl rfl

theorem quiet_release (l : Link) : Quiet l l.release := by
  unfold release
  split
  · exact .refl l
  · next s _ =>
    simp only
    refine Quiet.trans ?_ (quiet_letGo _ _)
    split
    · exact .of_adds (Kernel.adds_deregister l.kernel s) (by decide) rfl rfl rfl rfl
    · exact .of_calls_eq rfl rfl rfl rfl rfl

/-- A step is quiet, or bytes are received and taken in. -/
theorem Step.quiet_or_takes (h : Step why l l') : Quiet l l' ∨
    ∃ s b bs k, why = .serving ∧ l.conn.state = .connected ∧ l.conn.socket = some s ∧
      l.kernel.receive s l.conn.chunk = (.ok (b :: bs), k) ∧
      l' = (takeIn { l with kernel := k } (b :: bs)).2 := by
  cases h with
  | @take _ s b bs k hstate hsocket h => exact .inr ⟨s, b, bs, k, rfl, hstate, hsocket, h, rfl⟩
  | note | plan => exact .inl (.of_calls_eq rfl rfl rfl rfl rfl)
  | suspend | closeQueue | put _ _ _ _ => exact .inl (quiet_queue l _ _)
  | release => exact .inl (quiet_release l)
  | arm _ interest => exact .inl (quiet_arm l interest)
  | begin hstate =>
      refine .inl (quiet_setState l _ fun _ hclosed => ?_)
      rcases hstate with h | h <;> cases h.symm.trans hclosed
  | establish _ hstate _ _ =>
      exact .inl (quiet_setState l _ fun _ hclosed => by cases hstate.symm.trans hclosed)
  | unmade h =>
      have hadds := Kernel.adds_openStream l.kernel l.conn.address
      rw [h] at hadds
      exact .inl (.of_adds hadds (by decide) rfl rfl rfl rfl)
  | made _ _ _ h =>
      have hadds := Kernel.adds_openStream l.kernel l.conn.address
      rw [h] at hadds
      exact .inl (.of_adds hadds (by decide) rfl rfl rfl rfl)
  | cleared _ _ h =>
      exact .inl (.of_adds (Kernel.adds_of_takeError h) (by decide) rfl rfl rfl rfl)
  | @refused _ s r k _ _ h _ =>
      have hquiet : Quiet l { l with kernel := k } :=
        .of_adds (Kernel.adds_of_takeError h) (by decide) rfl rfl rfl rfl
      exact .inl (hquiet.trans (quiet_release _))
  | @miss _ s r k _ _ h hr =>
      have hnil (o : Option SocketId) : Call.received o (.receive s l.conn.chunk r) = [] := by
        rcases r with e | bytes
        · rfl
        · rw [hr bytes rfl]
          exact ite_self _
      exact .inl (.of_receives (fun o => hnil o ▸ Kernel.receives_receive h o) rfl rfl rfl rfl)
  | flush _ =>
      rcases hw : l.queue.writer with _ | w
      · rw [SendQueue.flush_of_no_writer _ hw]
        exact .inl (.of_calls_eq rfl rfl rfl rfl rfl)
      · exact .inl (.of_adds (Kernel.sends_flush l.kernel hw).adds (by decide) rfl rfl rfl rfl)
  | shut rs hstate _ _ _ =>
      have hshut := @setState_of_ne
        (Link.note { l with conn := { l.conn with retryAt := none, decoder := {} } } rs)
        .closed hstate
      rw [hshut]
      refine .inl ⟨fun o => .refl o _, ⟨[⟨l.conn.handler, .state .closed⟩], Array.toList_push,
        fun c hc => ?_⟩, rfl, fun hopen => absurd rfl hopen⟩
      rw [List.mem_singleton.1 hc]
      exact ⟨rfl, rfl⟩

/-! ## Received and told -/

/-- The link of connection number `id`, which has received `bytes`: they are told and decoded. -/
structure Conveys (id : Nat) (policy : MalformedPolicy) (bytes : Bytes) (l : Link) : Prop where
  handler : l.conn.handler.conn = id
  tells : Tells policy bytes (l.journal.textsOf id)
  decoder_eq : l.conn.state ≠ .closed → l.conn.decoder = (Decoder.feed { policy } bytes).2

/-- Callbacks that tell no text leave the texts. -/
theorem Quiet.textsOf_eq (h : Quiet l l') (id : Nat) :
    l'.journal.textsOf id = l.journal.textsOf id := by
  obtain ⟨new, hcallbacks, hnew⟩ := h.told
  have hnone : new.filterMap (fun c => if c.handler.conn = id then c.heard.text? else none) = [] :=
    List.filterMap_eq_nil_iff.2 fun c hc => by rw [(hnew c hc).2, ite_self]
  rw [Journal.textsOf, hcallbacks, List.filterMap_append, hnone, List.append_nil]
  rfl

theorem Quiet.conveys (h : Quiet l l') (hl : Conveys id policy bytes l) :
    Conveys id policy bytes l' where
  handler := h.handler_eq ▸ hl.handler
  tells := h.textsOf_eq id ▸ hl.tells
  decoder_eq hstate :=
    have ⟨hopen, hdecoder⟩ := h.decoder hstate
    hdecoder.trans (hl.decoder_eq hopen)

/-- The journal after bytes were taken in. -/
theorem callbacks_takeIn (l : Link) (bytes : Bytes) :
    (l.takeIn bytes).2.journal.callbacks.toList = l.journal.callbacks.toList ++
      if (l.conn.decoder.feed bytes).1.isEmpty then []
      else [⟨l.conn.handler, .text (l.conn.decoder.feed bytes).1⟩] := by
  have htold : (if (l.conn.decoder.feed bytes).1.isEmpty then l.journal
      else l.journal.tell l.conn.handler (.text (l.conn.decoder.feed bytes).1)).callbacks.toList =
      l.journal.callbacks.toList ++ if (l.conn.decoder.feed bytes).1.isEmpty then []
        else [⟨l.conn.handler, .text (l.conn.decoder.feed bytes).1⟩] := by
    split
    · exact (List.append_nil _).symm
    · exact Array.toList_push
  rw [← htold]
  unfold takeIn
  simp only
  split
  · rfl
  · split <;> rfl

theorem conn_takeIn (l : Link) (bytes : Bytes) :
    (l.takeIn bytes).2.conn.decoder = (l.conn.decoder.feed bytes).2 ∧
      (l.takeIn bytes).2.conn.handler = l.conn.handler ∧
      (l.takeIn bytes).2.conn.state = l.conn.state := by
  unfold takeIn
  simp only
  split
  · exact ⟨rfl, rfl, rfl⟩
  · split <;> exact ⟨rfl, rfl, rfl⟩

theorem textsOf_takeIn (h : l.conn.handler.conn = id) (bytes : Bytes) :
    (l.takeIn bytes).2.journal.textsOf id =
      let text := (l.conn.decoder.feed bytes).1
      if text.isEmpty then l.journal.textsOf id else l.journal.textsOf id ++ [text] := by
  rw [Journal.textsOf, callbacks_takeIn, List.filterMap_append]
  simp only
  split
  · exact List.append_nil _
  · rw [List.filterMap_cons, if_pos h]
    rfl

/-- Taking in more of what is received. -/
theorem Conveys.takeIn (h : Conveys id policy bytes l) (hopen : l.conn.state ≠ .closed)
    (more : Bytes) : Conveys id policy (bytes ++ more) (l.takeIn more).2 := by
  have ⟨hdecoder, hhandler, _⟩ := conn_takeIn l more
  have heq := h.decoder_eq hopen
  refine ⟨hhandler ▸ h.handler, ?_, fun _ => ?_⟩
  · rw [textsOf_takeIn h.handler, heq]
    exact h.tells.feed more
  · rw [hdecoder, heq, Decoder.feed_append]

/-- What a connection told goes on to be what it received, on whatever socket it serves. -/
theorem Step.conveys (h : Step why l l') (hl : Conveys id policy bytes l)
    (ho : why = .serving → ∀ s, l.conn.socket = some s → some s = o) :
    ∃ more, Receives o more l.kernel l'.kernel ∧ Conveys id policy (bytes ++ more) l' := by
  rcases h.quiet_or_takes with hquiet | ⟨s, b, bs, k, hwhy, hstate, hsocket, hk, rfl⟩
  · exact ⟨[], hquiet.receives o, (List.append_nil bytes).symm ▸ hquiet.conveys hl⟩
  · have hreceives := Kernel.receives_receive hk o
    rw [Call.received, if_pos (ho hwhy s hsocket)] at hreceives
    have hconveys : Conveys id policy bytes { l with kernel := k } := ⟨hl.1, hl.2, hl.3⟩
    refine ⟨b :: bs, ?_, hconveys.takeIn ?_ (b :: bs)⟩
    · rw [kernel_takeIn]
      exact hreceives
    · exact fun hclosed => by cases hstate.symm.trans hclosed

theorem socket_arm (l : Link) (interest : Interest) :
    (l.arm interest).2.conn.socket = l.conn.socket := by
  rcases hs : l.conn.socket with _ | s
  · unfold Link.arm
    rw [hs]
    exact hs
  · have ⟨_, hcases⟩ := arm_cases l hs interest
    rcases hcases with ⟨_, hconn⟩ | ⟨_, hconn⟩ <;> rw [hconn] <;> exact hs

/-- Only an attempt to connect takes another socket, which it has made. -/
theorem Step.socket_or_made (h : Step why l l') (hs : l'.conn.socket = some s) :
    l.conn.socket = some s ∨ why = .attempting ∧ l.conn.state = .connecting ∧ ∃ isUp k,
      l.kernel.openStream l.conn.address = (.ok (s, isUp), k) ∧
      l' = { l with kernel := k, conn := { l.conn with socket := some s } } := by
  cases h with
  | note | plan | miss | flush | cleared | unmade => exact .inl hs
  | suspend | put _ _ _ _ =>
      rw [conn_letGo] at hs
      exact .inl hs
  | closeQueue =>
      rw [conn_closeQueue] at hs
      exact .inl hs
  | release | refused _ _ _ _ => cases (socket_release _).symm.trans hs
  | arm _ interest =>
      rw [socket_arm] at hs
      exact .inl hs
  | made hstate _ _ h =>
      obtain rfl := Option.some.inj hs
      exact .inr ⟨rfl, hstate, _, _, h, rfl⟩
  | begin _ | establish _ _ _ _ | shut _ _ _ _ _ =>
      rw [conn_setState] at hs
      exact .inl hs
  | take _ _ _ =>
      rw [socket_takeIn] at hs
      exact .inl hs

theorem Step.socket (h : Step why l l') (hwhy : why ≠ .attempting) (hs : l'.conn.socket = some s) :
    l.conn.socket = some s :=
  (h.socket_or_made hs).resolve_right fun hmade => hwhy hmade.1

/-- What a connection told goes on to be what it received. -/
theorem Steps.conveys (h : Steps why l l') (hl : Conveys id policy bytes l)
    (ho : why = .serving → ∀ s, l.conn.socket = some s → some s = o) :
    ∃ more, Receives o more l.kernel l'.kernel ∧ Conveys id policy (bytes ++ more) l' := by
  have hsteps : ∃ more, Receives o more l.kernel l'.kernel ∧ Conveys id policy (bytes ++ more) l' ∧
      (why = .serving → ∀ s, l'.conn.socket = some s → some s = o) := by
    induction h with
    | refl => exact ⟨[], .refl o _, (List.append_nil bytes).symm ▸ hl, ho⟩
    | tail _ hstep ih =>
        obtain ⟨more, hreceives, hconveys, ho'⟩ := ih
        obtain ⟨more', hreceives', hconveys'⟩ := hstep.conveys hconveys ho'
        refine ⟨more ++ more', hreceives.trans hreceives', List.append_assoc _ _ _ ▸ hconveys', ?_⟩
        exact fun hwhy s hs => ho' hwhy s (hstep.socket (by rw [hwhy]; decide) hs)
  obtain ⟨more, hreceives, hconveys, _⟩ := hsteps
  exact ⟨more, hreceives, hconveys⟩

/-! ## Other connections -/

/-- Only the handler of the connection is told. -/
theorem Step.told (h : Step why l l') : l'.conn.handler = l.conn.handler ∧
    ∃ new, l'.journal.callbacks.toList = l.journal.callbacks.toList ++ new ∧
      ∀ c ∈ new, c.handler = l.conn.handler := by
  rcases h.quiet_or_takes with hquiet | ⟨s, b, bs, k, _, _, _, _, rfl⟩
  · obtain ⟨new, hcallbacks, hnew⟩ := hquiet.told
    exact ⟨hquiet.handler_eq, new, hcallbacks, fun c hc => (hnew c hc).1⟩
  · refine ⟨(conn_takeIn _ _).2.1, _, callbacks_takeIn _ _, fun c hc => ?_⟩
    split at hc
    · exact absurd hc List.not_mem_nil
    · rw [List.mem_singleton.1 hc]

theorem Steps.told (h : Steps why l l') : l'.conn.handler = l.conn.handler ∧
    ∃ new, l'.journal.callbacks.toList = l.journal.callbacks.toList ++ new ∧
      ∀ c ∈ new, c.handler = l.conn.handler := by
  induction h with
  | refl => exact ⟨rfl, [], (List.append_nil _).symm, fun _ hc => absurd hc List.not_mem_nil⟩
  | tail _ hstep ih =>
      obtain ⟨hhandler, new, hcallbacks, hnew⟩ := ih
      obtain ⟨hhandler', new', hcallbacks', hnew'⟩ := hstep.told
      refine ⟨hhandler'.trans hhandler, new ++ new', ?_, fun c hc => ?_⟩
      · rw [hcallbacks', hcallbacks, List.append_assoc]
      · rcases List.mem_append.1 hc with hc | hc
        · exact hnew c hc
        · exact (hnew' c hc).trans hhandler

/-- Whoever is not told hears no text. -/
theorem Steps.textsOf_eq (h : Steps why l l') (hid : l.conn.handler.conn ≠ id) :
    l'.journal.textsOf id = l.journal.textsOf id := by
  obtain ⟨_, new, hcallbacks, hnew⟩ := h.told
  have hnone : new.filterMap (fun c => if c.handler.conn = id then c.heard.text? else none) = [] :=
    List.filterMap_eq_nil_iff.2 fun c hc => if_neg (hnew c hc ▸ hid)
  rw [Journal.textsOf, hcallbacks, List.filterMap_append, hnone, List.append_nil]
  rfl

/-- Nothing is received on the sockets of others. -/
theorem Steps.receives_nil (h : Steps why l l')
    (ho : why = .serving → ∀ s, l.conn.socket = some s → some s ≠ o) :
    Receives o [] l.kernel l'.kernel := by
  have hsteps : Receives o [] l.kernel l'.kernel ∧
      (why = .serving → ∀ s, l'.conn.socket = some s → some s ≠ o) := by
    induction h with
    | refl => exact ⟨.refl o _, ho⟩
    | tail _ hstep ih =>
        refine ⟨ih.1.trans ?_, fun hwhy s hs =>
          ih.2 hwhy s (hstep.socket (by rw [hwhy]; decide) hs)⟩
        rcases hstep.quiet_or_takes with hquiet | ⟨s, b, bs, k, hwhy, _, hsocket, hk, rfl⟩
        · exact hquiet.receives o
        · have hreceives := Kernel.receives_receive hk o
          rw [Call.received, if_neg (ih.2 hwhy s hsocket)] at hreceives
          rw [kernel_takeIn]
          exact hreceives
  exact hsteps.1

/-! ## The end of the stream -/

/-- Reading stops at the end of the stream, and after no other call that says so. -/
theorem readFrom_ends (l : Link) (s : SocketId) : ∃ new,
    (l.readFrom s).2.kernel.calls.toList = l.kernel.calls.toList ++ new ∧
      ((∃ c ∈ new, c.endsStream = true) → (l.readFrom s).1 = .ok false) := by
  -- One call, and no more.
  have hlast {l : Link} {r : Except Errno Bytes} {k : Kernel} {outcome : Except Setback Bool}
      (hk : l.kernel.receive s l.conn.chunk = (r, k))
      (hr : (Call.receive s l.conn.chunk r).endsStream = true → outcome = .ok false) :
      ∃ new, k.calls.toList = l.kernel.calls.toList ++ new ∧
        ((∃ c ∈ new, c.endsStream = true) → outcome = .ok false) := by
    rcases Kernel.calls_receive hk with hcalls | hcalls
    · exact ⟨[], by rw [hcalls, List.append_nil], fun ⟨_, hc, _⟩ => absurd hc List.not_mem_nil⟩
    · refine ⟨[.receive s l.conn.chunk r], by rw [hcalls, Array.toList_push],
        fun ⟨c, hc, hends⟩ => hr ?_⟩
      rwa [List.mem_singleton.1 hc] at hends
  -- One call that does not end the stream, and what comes after it.
  have hmore {l l' : Link} {r : Except Errno Bytes} {k : Kernel} {outcome : Except Setback Bool}
      {later : Kernel} (hk : l.kernel.receive s l.conn.chunk = (r, k))
      (hl' : l'.kernel = k) (hr : (Call.receive s l.conn.chunk r).endsStream = false)
      (hlater : ∃ new, later.calls.toList = l'.kernel.calls.toList ++ new ∧
        ((∃ c ∈ new, c.endsStream = true) → outcome = .ok false)) :
      ∃ new, later.calls.toList = l.kernel.calls.toList ++ new ∧
        ((∃ c ∈ new, c.endsStream = true) → outcome = .ok false) := by
    obtain ⟨new, hcalls, hends⟩ := hlater
    rw [hl'] at hcalls
    rcases Kernel.calls_receive hk with heq | heq <;> rw [heq] at hcalls
    · exact ⟨new, hcalls, hends⟩
    · rw [Array.toList_push, List.append_assoc] at hcalls
      refine ⟨_, hcalls, fun ⟨c, hc, hcends⟩ => hends ⟨c, ?_, hcends⟩⟩
      rcases List.mem_cons.1 hc with rfl | hc
      · cases hcends.symm.trans hr
      · exact hc
  fun_induction Link.readFrom l s with
  | case1 l k hk => exact hlast hk fun _ => rfl
  | case2 l b bs k hk told ht ih => exact hmore hk (kernel_of_takeIn ht) rfl ih
  | case3 l b bs k hk told ht =>
      rw [kernel_of_takeIn ht]
      exact hlast hk fun hends => by cases hends
  | case4 l k hk => exact hlast hk fun hends => by cases hends
  | case5 l k hk hne ih => exact hmore hk rfl rfl ih
  | case6 l e k hk hne hn hd => exact hlast hk fun _ => rfl
  | case7 l e k hk hne hn hd => exact hlast hk fun hends => absurd hends hd

theorem journal_letGo (l : Link) (o : Option SocketId) : (l.letGo o).journal = l.journal := by
  unfold letGo
  split
  · rfl
  · split <;> rfl

theorem journal_release (l : Link) : l.release.journal = l.journal := by
  unfold release
  split
  · rfl
  · exact journal_letGo _ _

/-- Whoever is not closed is told when it is. -/
theorem callbacks_close (h : l.conn.state ≠ .closed) (hc : l.conn.Consistent) :
    l.close.journal.callbacks = l.journal.callbacks.push ⟨l.conn.handler, .state .closed⟩ := by
  obtain ⟨rs, hclose⟩ := close_eq h
  have hconn : l.release.closeQueue.2.conn =
    { l.conn with socket := none, registered := none } := by
    rw [conn_closeQueue, conn_release hc]
  have hjournal : l.release.closeQueue.2.journal = l.journal :=
    (journal_letGo _ _).trans (journal_release l)
  rw [hclose, setState_of_ne]
  · show (l.release.closeQueue.2.journal.callbacks.push
      ⟨l.release.closeQueue.2.conn.handler, .state .closed⟩) = _
    rw [hjournal, hconn]
  · show l.release.closeQueue.2.conn.state ≠ .closed
    rw [hconn]
    exact h

/-- An event that lets the connection read to the end of the stream closes it, after what was
read. -/
theorem handleEvent_of_ends (hstate : l.conn.state = .connected) (hs : l.conn.socket = some s)
    {event : Event} (hreadable : event.readable = true)
    (hends : ∃ c ∈ Kernel.newCalls l.kernel l.read.2.kernel, c.endsStream = true) :
    l.handleEvent event = (.ok .closed, l.read.2.close) := by
  have hread : l.read = l.readFrom s := by
    unfold Link.read
    rw [hs]
  obtain ⟨new, hcalls, hfalse⟩ := readFrom_ends l s
  rw [hread, Kernel.newCalls, hcalls, List.drop_left] at hends
  have hfalse := hfalse hends
  unfold Link.handleEvent Link.serve
  rw [hstate, if_pos hreadable]
  rw [← hread] at hfalse
  generalize l.read = r at hfalse ⊢
  rcases r with ⟨_, k⟩
  cases hfalse
  rfl

end Link

end TextLink
