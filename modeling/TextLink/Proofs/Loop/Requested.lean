import TextLink.Proofs.Connection.Intake
import TextLink.Proofs.Loop.Strokes

/-!
# Connections are as they were requested

A connection is requested under a new number, waits in the channel as a command, and is given a slot
when that is taken. What it was requested with goes along and never changes (`AsRequested`), and its
handler is told nothing before (`Addressed`).

Requests, what happens outside and waits concern no connection: they leave the table and what
was told, and put requests with new numbers into the channel at most (`Asks`). Nothing is
received there either.

## Main results

* `Addressed.advance` — every handler that is told is that of a connection requested before.
* `AsRequested.advance` — what a connection was requested with stays.
* `Advance.asks_or_strokes` — what comes between two scenes concerns no connection,
  or the loop does it.
-/

namespace TextLink.Loop

open Kernel (Receives)
open Link (Leads Steps Occasion)

variable {allowed : Happening → Prop} {may : Occasion → Loop → Nat → Prop} {l l' : Loop}
  {t id : Nat} {c : Connection} {address : Address} {handler : Handler} {options : ConnectOptions}

/-! ## Who is told -/

/-- Every handler is that of a connection requested before. -/
structure Addressed (l : Loop) : Prop where
  own : ∀ t c, l.connections.get? t = some c → c.handler.conn = c.id
  requested : ∀ id address handler options, .connect id address handler options ∈ l.channel →
    handler.conn = id ∧ id < l.queues.length
  told : ∀ c ∈ l.journal.callbacks.toList, c.handler.conn < l.queues.length

/-- Nobody is told anything, the connections stay, and what is requested has a new number. -/
structure Asks (l l' : Loop) : Prop where
  connections_eq : l'.connections = l.connections
  callbacks_eq : l'.journal.callbacks = l.journal.callbacks
  length_le : l.queues.length ≤ l'.queues.length
  requested : ∀ id address handler options, .connect id address handler options ∈ l'.channel →
    .connect id address handler options ∈ l.channel ∨
      l.queues.length ≤ id ∧ handler.conn = id ∧ id < l'.queues.length

theorem asks_of_sublist (hconnections : l'.connections = l.connections)
    (hcallbacks : l'.journal.callbacks = l.journal.callbacks)
    (hlen : l'.queues.length = l.queues.length) (hchannel : l'.channel ⊆ l.channel) :
    Asks l l' where
  connections_eq := hconnections
  callbacks_eq := hcallbacks
  length_le := Nat.le_of_eq hlen.symm
  requested _ _ _ _ hmem := .inl (hchannel hmem)

theorem Asks.trans {l'' : Loop} (h : Asks l l') (h' : Asks l' l'') : Asks l l'' where
  connections_eq := h'.connections_eq.trans h.connections_eq
  callbacks_eq := h'.callbacks_eq.trans h.callbacks_eq
  length_le := Nat.le_trans h.length_le h'.length_le
  requested id address handler options hmem := by
    rcases h'.requested id address handler options hmem with hmem | ⟨hle, hconn, hlt⟩
    · rcases h.requested id address handler options hmem with hmem | ⟨hle, hconn, hlt⟩
      · exact .inl hmem
      · exact .inr ⟨hle, hconn, Nat.lt_of_lt_of_le hlt h'.length_le⟩
    · exact .inr ⟨Nat.le_trans h.length_le hle, hconn, hlt⟩

theorem Addressed.asks (h : l.Addressed) (hasks : Asks l l') : l'.Addressed where
  own t c hc := h.own t c (hasks.connections_eq ▸ hc)
  requested id address handler options hmem := by
    rcases hasks.requested id address handler options hmem with hmem | ⟨_, hconn, hlt⟩
    · have ⟨hconn, hlt⟩ := h.requested id address handler options hmem
      exact ⟨hconn, Nat.lt_of_lt_of_le hlt hasks.length_le⟩
    · exact ⟨hconn, hlt⟩
  told c hc := Nat.lt_of_lt_of_le (h.told c (hasks.callbacks_eq ▸ hc)) hasks.length_le

theorem asks_refuse (l : Loop) (command : Command) : Asks l (l.refuse command) := by
  obtain ⟨queues, hlen, hrefuse⟩ := exists_refuse l command
  rw [hrefuse]
  exact asks_of_sublist rfl rfl hlen (List.Subset.refl _)

theorem asks_told (l : Loop) {command : Command}
    (hnone : ∀ id address handler options, command ≠ .connect id address handler options) :
    Asks l (l.told command) where
  connections_eq := rfl
  callbacks_eq := rfl
  length_le := Nat.le_refl _
  requested id address handler options hmem :=
    (List.mem_append.1 hmem).imp_right fun hmem =>
      absurd (List.mem_singleton.1 hmem).symm (hnone id address handler options)

theorem asks_joined (l : Loop) (address : Address) (handler : Handler) (options : ConnectOptions) :
    Asks l (l.joined address handler options) where
  connections_eq := rfl
  callbacks_eq := rfl
  length_le := length_joined l address handler options ▸ Nat.le_succ _
  requested id address' handler' options' hmem := by
    rcases List.mem_append.1 hmem with hmem | hmem
    · exact .inl hmem
    · cases List.mem_singleton.1 hmem
      exact .inr ⟨Nat.le_refl _, rfl, length_joined l address handler options ▸ Nat.lt_succ_self _⟩

theorem asks_offered (l : Loop) (id : Nat) (bytes : Bytes) : Asks l (l.offered id bytes) :=
  asks_of_sublist rfl rfl List.length_set (List.Subset.refl _)

theorem asks_request (l : Loop) (r : Request) : Asks l (l.request r).2 := by
  have hasked := asked l r
  generalize (l.request r).2 = l' at hasked ⊢
  cases hasked with
  | refused => exact asks_of_sublist rfl rfl rfl (List.Subset.refl _)
  | told _ hnone => exact asks_told l hnone
  | joined address handler options => exact asks_joined l address handler options
  | offered id bytes => exact asks_offered l id bytes
  | armed id bytes => exact (asks_offered l id bytes).trans (asks_told _ nofun)
  | stranded id bytes =>
      exact (asks_offered l id bytes).trans (asks_of_sublist rfl rfl rfl (List.Subset.refl _))

theorem Addressed.absorb (h : l.Addressed) (hl : l.Coherent)
    (hc : l.connections.get? t = some c) {why : Occasion} {k : Link}
    (hk : Steps why (l.link c) k) : (l.absorb t k).Addressed := by
  have ⟨hhandler, new, hcallbacks, hnew⟩ := hk.told
  have hid := id_eq (hl.leads hc hk)
  have hown : k.conn.handler.conn = k.conn.id := by
    rw [hhandler, hid]
    exact h.own t c hc
  have hlen : (l.queues.set k.conn.id k.queue).length = l.queues.length := List.length_set
  refine ⟨fun t' c' hc' => ?_, fun id address handler options hmem => ?_, fun c' hc' => ?_⟩
  · rcases slot_absorb hc hc' with ⟨_, rfl⟩ | ⟨_, hc'⟩
    · exact hown
    · exact h.own t' c' hc'
  · have ⟨hconn, hlt⟩ := h.requested id address handler options hmem
    exact ⟨hconn, hlen ▸ hlt⟩
  · show c'.handler.conn < (l.queues.set k.conn.id k.queue).length
    rw [hlen]
    have hc' : c' ∈ k.journal.callbacks.toList := hc'
    rw [hcallbacks] at hc'
    rcases List.mem_append.1 hc' with hc' | hc'
    · exact h.told c' hc'
    · rw [hnew c' hc', show (l.link c).conn.handler.conn = c.id from h.own t c hc]
      exact (hl.lives hc).id_lt

theorem Addressed.stroke (h : l.Addressed) (hl : l.Coherent) (hstroke : Stroke may l l') :
    l'.Addressed := by
  cases hstroke with
  | act hc hk _ _ => exact h.absorb hl hc hk
  | remove hc _ _ _ =>
      exact ⟨fun t' c' hc' => h.own t' c' (slot_remove hc').2, h.requested, h.told⟩
  | @enrol id address handler options later hchannel =>
      have hlen : (l.queues.modify id (·.bind (l.connections.insertWith
        (Loop.requested id address handler options)).1)).length = l.queues.length :=
        List.length_modify _ _ _
      have hmem {command : Command} (hcommand : command ∈ later) : command ∈ l.channel :=
        hchannel ▸ List.mem_cons_of_mem _ hcommand
      refine ⟨fun t c hc => ?_, fun id' address' handler' options' hcommand => ?_, fun c hc => ?_⟩
      · rcases slot_enrol (l := { l with channel := later }) hl.table hc with ⟨_, rfl⟩ | ⟨_, hc⟩
        · exact (h.requested id address handler options (hchannel ▸ List.mem_cons_self)).1
        · exact h.own t c hc
      · have ⟨hconn, hlt⟩ := h.requested id' address' handler' options' (hmem hcommand)
        exact ⟨hconn, hlen ▸ hlt⟩
      · show c.handler.conn < _
        exact hlen ▸ h.told c hc
  | skip hchannel =>
      exact h.asks (asks_of_sublist rfl rfl rfl (hchannel ▸ List.subset_cons_self _ _))
  | refuse command _ _ => exact h.asks (asks_refuse _ command)
  | appoint | note => exact h.asks (asks_of_sublist rfl rfl rfl (List.Subset.refl _))
  | clear => exact h.asks (asks_of_sublist rfl rfl rfl (List.nil_subset _))

/-- What comes between two scenes: nobody is told anything while a queue or a wait makes its calls,
or the loop does it. -/
theorem Advance.adds_or_strokes (h : Advance allowed may l l') :
    (Asks l l' ∧ ∃ t, Kernel.Adds t l.kernel l'.kernel ∧ (t = .sending ∨ t = .waiting)) ∨
      Strokes may l l' := by
  have hsame (k : Kernel) : Asks l { l with kernel := k } :=
    asks_of_sublist rfl rfl rfl (List.Subset.refl _)
  cases h with
  | request r =>
      obtain ⟨k, hk, hkernel⟩ := kernel_request l r
      have hadds : Kernel.Adds .sending l.kernel k := by
        rcases hk with rfl | ⟨_, w, _, hsends⟩
        · exact .refl _
        · exact hsends.adds
      refine .inl ⟨asks_request l r, .sending, ?_, .inl rfl⟩
      rcases hkernel with heq | heq <;> rw [heq]
      · exact hadds
      · exact hadds.trans (.of_calls_eq rfl)
  | happen _ => exact .inl ⟨hsame _, .waiting, .of_calls_eq (Kernel.calls_happen _ _), .inr rfl⟩
  | beginWait millis =>
      exact .inl ⟨hsame _, .waiting, Kernel.adds_beginWait l.kernel millis, .inr rfl⟩
  | pass t => exact .inl ⟨hsame _, .waiting, .of_calls_eq rfl, .inr rfl⟩
  | answer millis reports =>
      exact .inl ⟨hsame _, .waiting, Kernel.adds_answer l.kernel millis reports, .inr rfl⟩
  | strokes hstrokes => exact .inr hstrokes

/-- Neither a queue nor a wait receives anything. -/
theorem Advance.asks_or_strokes (h : Advance allowed may l l') :
    (Asks l l' ∧ ∀ o, Receives o [] l.kernel l'.kernel) ∨ Strokes may l l' := by
  refine h.adds_or_strokes.imp_left fun ⟨hasks, t, hadds, ht⟩ => ⟨hasks, hadds.receives ?_⟩
  rcases ht with rfl | rfl <;> decide

theorem Addressed.advance (h : l.Addressed) (hl : l.Coherent)
    (hadvance : Advance allowed may l l') : l'.Addressed := by
  rcases hadvance.asks_or_strokes with ⟨hasks, _⟩ | hstrokes
  · exact h.asks hasks
  · exact hstrokes.keeps hl (fun hl hstroke h => h.stroke hl hstroke) h

theorem Started.addressed (h : l.Started) : l.Addressed := by
  obtain ⟨config, kernel, _, rfl⟩ := h.eq
  refine ⟨fun t c hc => ?_, fun _ _ _ _ hmem => absurd hmem List.not_mem_nil,
    fun c hc => absurd hc List.not_mem_nil⟩
  rw [SlotTable.get?_ofSize] at hc
  cases hc

theorem Started.addressed_course (h : l.Started) {m : Scene} (hm : Course allowed ⟨l, [], []⟩ m) :
    m.loop.Addressed :=
  h.sound.keeps (m := ⟨l, [], []⟩) hm (fun hsound hadvance h => h.advance hsound.coherent hadvance)
    h.addressed

/-! ## What was requested -/

/-- Connection number `id` is there, or comes, as it was requested. -/
structure AsRequested (id : Nat) (address : Address) (handler : Handler) (options : ConnectOptions)
    (l : Loop) : Prop where
  id_lt : id < l.queues.length
  here : ∀ t c, l.connections.get? t = some c → c.id = id →
    c.identity = (requested id address handler options t).identity
  ahead : ∀ address' handler' options', .connect id address' handler' options' ∈ l.channel →
    address' = address ∧ handler' = handler ∧ options' = options

namespace AsRequested

theorem address_eq (h : AsRequested id address handler options l)
    (hc : l.connections.get? t = some c) (hid : c.id = id) : c.address = address :=
  congrArg (·.2.2.1) (h.here t c hc hid)

theorem chunk_eq (h : AsRequested id address handler options l)
    (hc : l.connections.get? t = some c) (hid : c.id = id) : c.chunk = max 1 options.readChunk :=
  congrArg (·.2.2.2.2.2) (h.here t c hc hid)

theorem asks (h : AsRequested id address handler options l) (hasks : Asks l l') :
    AsRequested id address handler options l' where
  id_lt := Nat.lt_of_lt_of_le h.id_lt hasks.length_le
  here t c hc := h.here t c (hasks.connections_eq ▸ hc)
  ahead address' handler' options' hmem := by
    rcases hasks.requested id address' handler' options' hmem with hmem | ⟨hle, _, _⟩
    · exact h.ahead address' handler' options' hmem
    · exact absurd h.id_lt (Nat.not_lt.2 hle)

theorem absorb (h : AsRequested id address handler options l) (hl : l.Coherent)
    (hc : l.connections.get? t = some c) {why : Occasion} {k : Link} (hk : Steps why (l.link c) k) :
    AsRequested id address handler options (l.absorb t k) where
  id_lt := by
    show id < (l.queues.set k.conn.id k.queue).length
    rw [List.length_set]
    exact h.id_lt
  here t' c' hc' hid := by
    rcases slot_absorb hc hc' with ⟨rfl, rfl⟩ | ⟨_, hc'⟩
    · have hleads := hl.leads hc hk
      exact hleads.identity_eq.trans (h.here t' c hc ((id_eq hleads).symm.trans hid))
    · exact h.here t' c' hc' hid
  ahead := h.ahead

theorem stroke (h : AsRequested id address handler options l) (hl : l.Coherent)
    (hstroke : Stroke may l l') : AsRequested id address handler options l' := by
  cases hstroke with
  | act hc hk _ _ => exact h.absorb hl hc hk
  | remove hc _ _ _ => exact ⟨h.id_lt, fun t' c' hc' => h.here t' c' (slot_remove hc').2, h.ahead⟩
  | @enrol id' address' handler' options' later hchannel =>
      have hmem {command : Command} (hcommand : command ∈ later) : command ∈ l.channel :=
        hchannel ▸ List.mem_cons_of_mem _ hcommand
      refine ⟨?_, fun t c hc hid => ?_, fun _ _ _ hcommand => h.ahead _ _ _ (hmem hcommand)⟩
      · show id < (l.queues.modify id' _).length
        rw [List.length_modify]
        exact h.id_lt
      · rcases slot_enrol (l := { l with channel := later }) hl.table hc with ⟨_, rfl⟩ | ⟨_, hc⟩
        · subst hid
          obtain ⟨rfl, rfl, rfl⟩ :=
            h.ahead address' handler' options' (hchannel ▸ List.mem_cons_self)
          rfl
        · exact h.here t c hc hid
  | skip hchannel =>
      exact h.asks (asks_of_sublist rfl rfl rfl (hchannel ▸ List.subset_cons_self _ _))
  | refuse command _ _ => exact h.asks (asks_refuse _ command)
  | appoint | note => exact h.asks (asks_of_sublist rfl rfl rfl (List.Subset.refl _))
  | clear => exact h.asks (asks_of_sublist rfl rfl rfl (List.nil_subset _))

theorem advance (h : AsRequested id address handler options l) (hl : l.Coherent)
    (hadvance : Advance allowed may l l') : AsRequested id address handler options l' := by
  rcases hadvance.asks_or_strokes with ⟨hasks, _⟩ | hstrokes
  · exact h.asks hasks
  · exact hstrokes.keeps hl (fun hl hstroke h => h.stroke hl hstroke) h

end AsRequested

/-- A request that is accepted. -/
theorem asRequested_request (h : l.Addressed) (hl : l.Coherent)
    (hrequest : l.request (.connect address handler options) = (.connected (.ok id), l')) :
    AsRequested id address { handler with conn := id } options l' ∧ id = l.queues.length := by
  have hreply : (l.request (.connect address handler options)).1 = .connected (.ok id) := by
    rw [hrequest]
  obtain ⟨-, rfl, hjoined⟩ := joined_of_connected hreply
  obtain rfl : l' = l.joined address handler options := by rw [← hjoined, hrequest]
  refine ⟨⟨?_, fun t c hc hid => ?_, fun address' handler' options' hmem => ?_⟩, rfl⟩
  · rw [length_joined]
    exact Nat.lt_succ_self _
  · exact absurd hid (Nat.ne_of_lt (hl.lives hc).id_lt)
  · rcases List.mem_append.1 hmem with hmem | hmem
    · exact absurd (h.requested _ _ _ _ hmem).2 (Nat.lt_irrefl _)
    · cases List.mem_singleton.1 hmem
      exact ⟨rfl, rfl, rfl⟩

end TextLink.Loop
