import TextLink.Proofs.Loop.Requested

/-!
# Inbound text is what was received

Bytes come in pieces of the network's choosing, a few at each event, and an event may be cut short
by a failure. None of this shows in the text: in every scene of a run, what the handler of a
connection was told is the text of all bytes that the connection received, and the connection keeps
what a decoder of all of them would keep (`Inbound`).

A connection receives by serving an event, and an event is served at the beginning of what comes
between two scenes (`AtFirst`). So what is received there is received on the socket that the
connection had in the scene before, and a run tells what each connection received (`Intake`).

## Main results

* `Inbound.next` — what comes between two scenes.
* `Next.receives` — nothing is received but by a connection.
* `Started.inbound_text` — in every scene of a run, text and decoder are those of what was received.
-/

namespace TextLink.Loop

open Relation (ReflTransGen)
open Kernel (Receives)
open Link (Leads Steps Occasion)
open Text (Decoder)

variable {allowed : Happening → Prop} {may : Occasion → Loop → Nat → Prop} {base l l' : Loop}
  {t id : Nat} {c : Connection} {options : ConnectOptions} {bytes : Bytes} {o : Option SocketId}

/-! ## One connection -/

/-- Connection number `id` was requested with `options` and has received `bytes`. -/
structure Inbound (id : Nat) (options : ConnectOptions) (bytes : Bytes) (l : Loop) : Prop where
  addressed : l.Addressed
  asRequested : ∃ address handler, AsRequested id address handler options l
  tells : Tells options.malformed bytes (l.journal.textsOf id)
  decoder_eq : ∀ t c, l.connections.get? t = some c → c.id = id → c.state ≠ .closed →
    c.decoder = (Decoder.feed { policy := options.malformed } bytes).2
  /-- It receives nothing before its request is taken. -/
  awaits : ∀ address handler options', .connect id address handler options' ∈ l.channel → bytes = []

theorem Inbound.id_lt (h : Inbound id options bytes l) : id < l.queues.length :=
  have ⟨_, _, hrequested⟩ := h.asRequested
  hrequested.id_lt

theorem Inbound.asks (h : Inbound id options bytes l) (hasks : Asks l l') :
    Inbound id options bytes l' where
  addressed := h.addressed.asks hasks
  asRequested := h.asRequested.imp fun _ => .imp fun _ hrequested => hrequested.asks hasks
  tells := by
    rw [Journal.textsOf, hasks.callbacks_eq]
    exact h.tells
  decoder_eq t c hc := h.decoder_eq t c (hasks.connections_eq ▸ hc)
  awaits address handler options' hmem := by
    rcases hasks.requested id address handler options' hmem with hmem | ⟨hle, _, _⟩
    · exact h.awaits address handler options' hmem
    · exact absurd h.id_lt (Nat.not_lt.2 hle)

/-- The socket of connection number `id`, if it has one. -/
def socketOf? (l : Loop) (id : Nat) : Option SocketId := (l.find? id).bind (·.2.socket)

theorem socketOf?_eq (h : l.Coherent) (hc : l.connections.get? t = some c) :
    l.socketOf? c.id = c.socket := by
  rw [socketOf?, h.find?_eq hc]
  rfl

/-- What a connection serves is its own socket. -/
theorem ne_socketOf? (h : l.Coherent) (hc : l.connections.get? t = some c) (hid : c.id ≠ id)
    {s : SocketId} (hs : c.socket = some s) : some s ≠ l.socketOf? id := by
  intro heq
  obtain ⟨⟨t', c'⟩, hfind, hs'⟩ := Option.bind_eq_some_iff.1 heq.symm
  have hc' := Coherent.get?_of_find? hfind
  have ht := h.apart t t' c c' s hc hc' (Link.holds_iff.2 (.inl hs)) (Link.holds_iff.2 (.inl hs'))
  rw [ht, hc'] at hc
  rw [← Option.some.inj hc] at hid
  exact hid (id_of_find?_eq_some hfind)

/-- A connection acts: this one, which receives more, or another one. -/
theorem Inbound.absorb (h : Inbound id options bytes l) (hl : l.Coherent)
    (hc : l.connections.get? t = some c) {why : Occasion} {k : Link}
    (hk : Steps why (l.link c) k) {bytes' : Bytes}
    (htells : Tells options.malformed bytes' (k.journal.textsOf id))
    (hself : c.id = id → k.conn.state ≠ .closed →
      k.conn.decoder = (Decoder.feed { policy := options.malformed } bytes').2)
    (hother : c.id ≠ id → bytes' = bytes) : Inbound id options bytes' (l.absorb t k) where
  addressed := h.addressed.absorb hl hc hk
  asRequested := h.asRequested.imp fun _ => .imp fun _ hrequested => hrequested.absorb hl hc hk
  tells := htells
  decoder_eq t' c' hc' hid hopen := by
    rcases slot_absorb hc hc' with ⟨_, rfl⟩ | ⟨hne, hc'⟩
    · exact hself ((id_eq (hl.leads hc hk)).symm.trans hid) hopen
    · rw [hother fun hid' => hne (hl.slot_eq hc' hc (hid.trans hid'.symm))]
      exact h.decoder_eq t' c' hc' hid hopen
  awaits address handler options' hmem := by
    by_cases hid : c.id = id
    · have hrequested : id ∈ requestedIds l.channel := List.mem_filterMap.2 ⟨_, hmem, rfl⟩
      exact absurd hid (hl.unowned_of_requested hrequested t c hc)
    · rw [hother hid]
      exact h.awaits address handler options' hmem

/-- Which connections act for an event while the loop is as it was at first. -/
def AtFirst (base : Loop) : Occasion → Loop → Nat → Prop :=
  fun why l _ => why.isEvent = true → l = base

/-- An event is handled first, whatever else comes between two scenes. -/
theorem Next.atFirst {m m' : Scene} (h : Next allowed m m') (hl : m.loop.Sound) :
    Advance allowed (AtFirst m.loop) m.loop m'.loop :=
  h.advances hl (fun why l t hwhy hevent => absurd hevent (by rw [hwhy]; decide))
    fun _ _ _ _ _ _ => rfl

/-- A connection of `base` acts, for an event at its socket there if it does so for one. -/
theorem Inbound.act (h : Inbound id options bytes l) (hl : l.Coherent) (hbase : base.Coherent)
    (hc : l.connections.get? t = some c) {why : Occasion} {k : Link} (hk : Steps why (l.link c) k)
    (hmay : AtFirst base why l t) :
    ∃ more, Receives (base.socketOf? id) more l.kernel k.kernel ∧
      Inbound id options (bytes ++ more) (l.absorb t k) := by
  -- What serves is a connection of `base`, on the socket it has there.
  have hserves (hwhy : why = .serving) : base.connections.get? t = some c := by
    have hfirst : l = base := hmay (by rw [hwhy]; rfl)
    exact hfirst ▸ hc
  by_cases hid : c.id = id
  · have hconveys : Link.Conveys id options.malformed bytes (l.link c) :=
      ⟨hid ▸ h.addressed.own t c hc, h.tells, h.decoder_eq t c hc hid⟩
    have ho : why = .serving → ∀ s, c.socket = some s → some s = base.socketOf? id := by
      intro hwhy s hs
      rw [← hid, socketOf?_eq hbase (hserves hwhy), hs]
    obtain ⟨more, hreceives, hconveys⟩ := hk.conveys hconveys ho
    exact ⟨more, hreceives,
      h.absorb hl hc hk hconveys.tells (fun _ => hconveys.decoder_eq) fun hne => absurd hid hne⟩
  · have hreceives : Receives (base.socketOf? id) [] l.kernel k.kernel :=
      hk.receives_nil fun hwhy s hs => ne_socketOf? hbase (hserves hwhy) hid hs
    have htexts : k.journal.textsOf id = l.journal.textsOf id :=
      hk.textsOf_eq fun hconn => hid ((h.addressed.own t c hc).symm.trans hconn)
    refine ⟨[], hreceives, ?_⟩
    rw [List.append_nil]
    exact h.absorb hl hc hk (htexts ▸ h.tells) (fun hid' => absurd hid' hid) fun _ => rfl

/-- A connection that gets its slot has received nothing, and no other one receives anything. -/
theorem Inbound.decoder_enrol (h : Inbound id options bytes l) (hl : l.Coherent) {id' : Nat}
    {address : Address} {handler : Handler} {options' : ConnectOptions} {later : List Command}
    (hchannel : l.channel = .connect id' address handler options' :: later)
    (hc : (Loop.enrol { l with channel := later } id'
      (requested id' address handler options')).connections.get? t = some c)
    (hid : c.id = id) (hopen : c.state ≠ .closed) :
    c.decoder = (Decoder.feed { policy := options.malformed } bytes).2 := by
  rcases slot_enrol (l := { l with channel := later }) hl.table hc with ⟨_, rfl⟩ | ⟨_, hc⟩
  · subst hid
    have hcommand : .connect id' address handler options' ∈ l.channel :=
      hchannel ▸ List.mem_cons_self
    obtain ⟨_, _, hrequested⟩ := h.asRequested
    obtain ⟨-, -, rfl⟩ := hrequested.ahead address handler options' hcommand
    rw [h.awaits address handler options' hcommand, Decoder.feed_nil]
    rfl
  · exact h.decoder_eq t c hc hid hopen

/-- A stroke of a loop that has handled no event since it was `base`, or handles one. -/
theorem Inbound.stroke (h : Inbound id options bytes l) (hl : l.Coherent) (hbase : base.Coherent)
    (hstroke : Stroke (AtFirst base) l l') :
    ∃ more, Receives (base.socketOf? id) more l.kernel l'.kernel ∧
      Inbound id options (bytes ++ more) l' := by
  have haddressed := h.addressed.stroke hl hstroke
  have hrequested : ∃ address handler, AsRequested id address handler options l' :=
    h.asRequested.imp fun _ => .imp fun _ hrequested => hrequested.stroke hl hstroke
  have hnone (hk : l'.kernel = l.kernel) (hinbound : Inbound id options bytes l') :
      ∃ more, Receives (base.socketOf? id) more l.kernel l'.kernel ∧
        Inbound id options (bytes ++ more) l' :=
    ⟨[], hk ▸ .refl _ _, (List.append_nil bytes).symm ▸ hinbound⟩
  cases hstroke with
  | act hc hk _ hmay => exact h.act hl hbase hc hk hmay
  | remove hc _ _ _ =>
      exact hnone rfl ⟨haddressed, hrequested, h.tells,
        fun t' c' hc' => h.decoder_eq t' c' (slot_remove hc').2, h.awaits⟩
  | enrol hchannel =>
      exact hnone rfl ⟨haddressed, hrequested, h.tells, fun _ _ => h.decoder_enrol hl hchannel,
        fun _ _ _ hcommand => h.awaits _ _ _ (hchannel ▸ List.mem_cons_of_mem _ hcommand)⟩
  | skip hchannel =>
      exact hnone rfl
        (h.asks (asks_of_sublist rfl rfl rfl (hchannel ▸ List.subset_cons_self _ _)))
  | refuse command _ _ => exact hnone (by cases command <;> rfl) (h.asks (asks_refuse _ command))
  | appoint | note => exact hnone rfl (h.asks (asks_of_sublist rfl rfl rfl (List.Subset.refl _)))
  | clear => exact hnone rfl (h.asks (asks_of_sublist rfl rfl rfl (List.nil_subset _)))

theorem Inbound.strokes (h : Inbound id options bytes base) (hbase : base.Coherent)
    (hstrokes : Strokes (AtFirst base) base l) :
    ∃ more, Receives (base.socketOf? id) more base.kernel l.kernel ∧
      Inbound id options (bytes ++ more) l := by
  induction hstrokes with
  | refl => exact ⟨[], .refl _ _, (List.append_nil bytes).symm ▸ h⟩
  | tail hbefore hstroke ih =>
      obtain ⟨more, hreceives, hinbound⟩ := ih
      obtain ⟨more', hreceives', hinbound'⟩ :=
        hinbound.stroke (Strokes.coherent hbefore hbase) hbase hstroke
      exact ⟨more ++ more', hreceives.trans hreceives', List.append_assoc _ _ _ ▸ hinbound'⟩

/-! ## A run -/

/-- The bytes that connection number `id`, on the socket it had in `l`, received on
the way to `l'`. -/
def received (id : Nat) (l l' : Loop) : Bytes :=
  receivedBy (l.socketOf? id) (Kernel.newCalls l.kernel l'.kernel)

/-- What comes between two scenes leaves the text and the decoder those of what is received. -/
theorem Inbound.next {m m' : Scene} (h : Inbound id options bytes m.loop) (hl : m.loop.Sound)
    (hnext : Next allowed m m') :
    Inbound id options (bytes ++ received id m.loop m'.loop) m'.loop := by
  have hadvance := hnext.atFirst hl
  have hmore : ∃ more, Receives (m.loop.socketOf? id) more m.loop.kernel m'.loop.kernel ∧
      Inbound id options (bytes ++ more) m'.loop := by
    rcases hadvance.asks_or_strokes with ⟨hasks, hreceives⟩ | hstrokes
    · exact ⟨[], hreceives _, (List.append_nil bytes).symm ▸ h.asks hasks⟩
    · exact h.strokes hl.coherent hstrokes
  obtain ⟨more, hreceives, hinbound⟩ := hmore
  rw [received, hreceives.receivedBy_newCalls]
  exact hinbound

/-- Nothing is received on a socket that no connection has. -/
theorem Next.receives {m m' : Scene} (hnext : Next allowed m m') (hl : m.loop.Sound) {s : SocketId}
    (hs : receivedBy (some s) (Kernel.newCalls m.loop.kernel m'.loop.kernel) ≠ []) :
    ∃ id, m.loop.socketOf? id = some s := by
  by_contra hnobody
  have hadvance := hnext.atFirst hl
  have hstrokes {l : Loop} (h : Strokes (AtFirst m.loop) m.loop l) :
      Receives (some s) [] m.loop.kernel l.kernel := by
    induction h with
    | refl => exact .refl _ _
    | tail _ hstroke ih =>
        refine ih.trans ?_
        cases hstroke with
        | @act t c k why hc hk _ hmay =>
            refine hk.receives_nil fun hwhy s' hs' heq => hnobody ⟨c.id, ?_⟩
            have hfirst := hmay (by rw [hwhy]; rfl)
            rw [socketOf?_eq hl.coherent (hfirst ▸ hc), ← heq]
            exact hs'
        | refuse command _ _ => cases command <;> exact .refl _ _
        | remove | enrol | skip | appoint | note | clear => exact .refl _ _
  rcases hadvance.asks_or_strokes with ⟨_, hreceives⟩ | hadvance
  · exact hs (hreceives _).receivedBy_newCalls
  · exact hs (hstrokes hadvance).receivedBy_newCalls

/-- A course in which connection number `id` receives `bytes`. -/
inductive Intake (allowed : Happening → Prop) (id : Nat) (m : Scene) : Bytes → Scene → Prop where
  | refl : Intake allowed id m [] m
  | next {bytes more : Bytes} {m' m'' : Scene} (h : Intake allowed id m bytes m')
      (hnext : Next allowed m' m'') (hmore : received id m'.loop m''.loop = more) :
      Intake allowed id m (bytes ++ more) m''

theorem Intake.course {m m' : Scene} (h : Intake allowed id m bytes m') : Course allowed m m' := by
  induction h with
  | refl => exact ReflTransGen.refl
  | next _ hnext _ ih => exact ReflTransGen.tail ih hnext

theorem Inbound.intake {m m' : Scene} (h : Inbound id options [] m.loop) (hl : m.loop.Sound)
    (hintake : Intake allowed id m bytes m') : Inbound id options bytes m'.loop := by
  induction hintake with
  | refl => exact h
  | next hbefore hnext hmore ih => exact hmore ▸ ih.next (hl.course hbefore.course) hnext

/-- A connection that was just requested. -/
theorem inbound_request (h : l.Addressed) (hl : l.Coherent) {address : Address} {handler : Handler}
    (hrequest : l.request (.connect address handler options) = (.connected (.ok id), l')) :
    Inbound id options [] l' := by
  have hasks := asks_request l (.connect address handler options)
  have ⟨hrequested, hid⟩ := asRequested_request h hl hrequest
  rw [hrequest] at hasks
  refine ⟨h.asks hasks, ⟨_, _, hrequested⟩, ?_, fun t c hc hid' => ?_, fun _ _ _ _ => rfl⟩
  · have hnone : l'.journal.textsOf id = [] := by
      rw [Journal.textsOf, hasks.callbacks_eq]
      exact List.filterMap_eq_nil_iff.2 fun c hc => if_neg (Nat.ne_of_lt (hid ▸ h.told c hc))
    rw [hnone]
    exact tells_nil _
  · have hlt := (hl.lives (hasks.connections_eq ▸ hc)).id_lt
    exact absurd (hid'.trans hid) (Nat.ne_of_lt hlt)

/-- What connection number `id`, requested with `options`, told and keeps is what
`bytes` come to. -/
structure Conveys (id : Nat) (options : ConnectOptions) (bytes : Bytes) (l : Loop) : Prop where
  /-- However the bytes are cut into pieces, the text told is that of a new decoder fed with
  them. -/
  text_eq : ∀ pieces : List Bytes, pieces.flatten = bytes →
    String.join (l.journal.textsOf id) =
      String.join (Decoder.feedAll { policy := options.malformed } pieces).1
  /-- The connection keeps that decoder while it is there. -/
  decoder_eq : ∀ pieces : List Bytes, pieces.flatten = bytes →
    ∀ t c, l.connections.get? t = some c → c.id = id →
      c.decoder = (Decoder.feedAll { policy := options.malformed } pieces).2
  not_empty : "" ∉ l.journal.textsOf id
  chunk_eq : ∀ t c, l.connections.get? t = some c → c.id = id → c.chunk = max 1 options.readChunk
  /-- An event that brings the end of the stream closes the connection after all that was received
  before it is decoded. -/
  ends : ∀ t c event, l.connections.get? t = some c → c.id = id → c.state = .connected →
    event.readable = true →
    (∃ call ∈ Kernel.newCalls l.kernel (l.link c).read.2.kernel, call.endsStream = true) →
    let k := (l.link c).read.2
    let all := bytes ++ receivedBy c.socket (Kernel.newCalls l.kernel k.kernel)
    Tells options.malformed all (k.journal.textsOf id) ∧
      k.conn.decoder = (Decoder.feed { policy := options.malformed } all).2 ∧
      (l.link c).handleEvent event = (.ok .closed, k.close) ∧
      k.close.journal.callbacks = k.journal.callbacks.push ⟨c.handler, .state .closed⟩

theorem Inbound.conveys (h : Inbound id options bytes l) (hl : l.Sound) :
    Conveys id options bytes l where
  text_eq pieces hpieces := by
    have hfed := congrArg Prod.fst (Decoder.feedAll_eq options.malformed pieces)
    rw [hpieces, ← h.tells.join_eq] at hfed
    exact hfed.symm
  decoder_eq pieces hpieces t c hc hid := by
    have hfed := congrArg Prod.snd (Decoder.feedAll_eq options.malformed pieces)
    rw [hpieces, ← h.decoder_eq t c hc hid (hl.shape t c hc).state_ne_closed] at hfed
    exact hfed.symm
  not_empty := h.tells.not_mem
  chunk_eq t c hc hid :=
    have ⟨_, _, hrequested⟩ := h.asRequested
    hrequested.chunk_eq hc hid
  ends t c event hc hid hstate hreadable hends := by
    intro k all
    have ⟨s, hs⟩ := (hl.shape t c hc).exists_socket hstate
    have hread : Steps .serving (l.link c) k := Steps.read hstate
    have hconveys : Link.Conveys id options.malformed bytes (l.link c) :=
      ⟨hid ▸ h.addressed.own t c hc, h.tells, h.decoder_eq t c hc hid⟩
    obtain ⟨more, hreceives, hconveys⟩ :=
      hread.conveys (o := c.socket) hconveys fun _ s hs => hs.symm
    have hall : all = bytes ++ more := congrArg (bytes ++ ·) hreceives.receivedBy_newCalls
    have ⟨⟨decoder, stalled, hconn⟩, _⟩ := Link.read_keeps (l.link c)
    have hconn : k.conn = { c with decoder, stalled } := hconn
    have hopen : k.conn.state ≠ .closed := by
      rw [hconn]
      exact (hl.shape t c hc).state_ne_closed
    have hconsistent : k.conn.Consistent := by
      rw [hconn]
      exact (hl.shape t c hc).consistent
    rw [hall]
    refine ⟨hconveys.tells, hconveys.decoder_eq hopen,
      Link.handleEvent_of_ends hstate hs hreadable hends, ?_⟩
    rw [Link.callbacks_close hopen hconsistent, hconn]

/--
**Inbound text is what was received.** In every scene of a run after a connection was requested,
whatever events there were and whichever calls failed: the texts told to its handler, none of them
empty, are together the text that a new decoder gives out for the bytes received so far, however
these are cut into pieces; and until it is closed, the connection has the decoder left by them. It
receives as many bytes at once as was asked for, one at least. When a call tells that the stream is
over or that the peer is gone, all that was received before is decoded and told before the
connection is closed.
-/
theorem Started.inbound_text (h : l.Started) {m₀ m : Scene} {address : Address} {handler : Handler}
    (hbefore : Course allowed ⟨l, [], []⟩ m₀)
    (hrequest : m₀.loop.request (.connect address handler options) = (.connected (.ok id), l'))
    (hintake : Intake allowed id ⟨l', m₀.due, m₀.events⟩ bytes m) :
    m.loop.Conveys id options bytes := by
  have hsound : m₀.loop.Sound := h.sound.course (m := ⟨l, [], []⟩) hbefore
  have haddressed : m₀.loop.Addressed :=
    h.sound.keeps (m := ⟨l, [], []⟩) hbefore
      (fun hsound hadvance h => h.advance hsound.coherent hadvance) h.addressed
  have hinbound := inbound_request haddressed hsound.coherent hrequest
  have hsound' : l'.Sound := by
    have hsound' := hsound.request (.connect address handler options)
    rwa [hrequest] at hsound'
  exact (hinbound.intake (m := ⟨l', m₀.due, m₀.events⟩) hsound' hintake).conveys
    (hsound'.course (m := ⟨l', m₀.due, m₀.events⟩) hintake.course)

/-- A character that is cut by a failure is told when its rest has come; what is cut then is
kept. -/
theorem Started.inbound_text_of_cut_character :
    let l : Loop := { kernel := { plans := [{ connect := .ok }] } }
    let l₁ := (l.request (.connect default {} { readChunk := 0 })).2
    let l₂ := (obey { l₁ with channel := [] } (.connect 0 default {} { readChunk := 0 })).2
    let l₃ := l₂.happen (.arrive 0 [.data [0x68, 0xC3], .failure .ioFault, .data [0xA9, 0xE2]])
    let wait (l : Loop) : Loop := { l with
      kernel := ((l.kernel.answerWait none (l.kernel.pendingReports 2)).collect
        (.ok (l.kernel.pendingReports 2))).2 }
    let event (hangup : Bool) : Event := ⟨0, true, false, hangup⟩
    let l₄ := ((wait l₃).handle (event true)).2
    let m : Scene := ⟨((wait l₄).handle (event false)).2, [], []⟩
    l.Started ∧ Course (fun _ => True) ⟨l, [], []⟩ ⟨l, [], []⟩ ∧
      l.request (.connect default {} { readChunk := 0 }) = (.connected (.ok 0), l₁) ∧
      Intake (fun _ => True) 0 ⟨l₁, [], []⟩ [0x68, 0xC3, 0xA9, 0xE2] m ∧
      m.loop.journal.textsOf 0 = ["h", "é"] ∧
      (m.loop.connections.get? 0).map (·.decoder.remainder) = some [0xE2] ∧
      m.loop.Conveys 0 { readChunk := 0 } [0x68, 0xC3, 0xA9, 0xE2] := by
  intro l l₁ l₂ l₃ wait event l₄ m
  have hstarted : l.Started := ⟨{}, l.kernel, ⟨rfl, rfl, rfl⟩, rfl⟩
  have hhandle (l : Loop) (e : Event) (h : (l.handle e).1.isOk = true) :
      Next (fun _ => True) ⟨l, [], [e]⟩ ⟨(l.handle e).2, [], []⟩ := by
    rcases hr : l.handle e with ⟨fault | _, l'⟩
    · rw [hr] at h
      cases h
    · exact .handle [] hr
  have hchannel : l₁.channel = [.connect 0 default {} { readChunk := 0 }] := rfl
  have hobey : Next (fun _ => True) ⟨l₁, [], []⟩ ⟨l₂, [], []⟩ := .obey hchannel (Prod.ext rfl rfl)
  have hhappen : Next (fun _ => True) ⟨l₂, [], []⟩ ⟨l₃, [], []⟩ := .happen l₂ trivial [] []
  have hwait (l : Loop) (e : Event)
      (h : (l.kernel.pendingReports 2).filterMap Report.event? = [e]) :
      Next (fun _ => True) ⟨l, [], []⟩ ⟨wait l, [], [e]⟩ := h ▸ .answer l none rfl
  have hnext (more : Bytes) {bytes : Bytes} {m₁ m₂ : Scene}
      (h : Intake (fun _ => True) 0 ⟨l₁, [], []⟩ bytes m₁) (hnext : Next (fun _ => True) m₁ m₂)
      (hmore : received 0 m₁.loop m₂.loop = more) :
      Intake (fun _ => True) 0 ⟨l₁, [], []⟩ (bytes ++ more) m₂ := h.next hnext hmore
  have h₂ := hnext [] .refl hobey (by decide +kernel)
  have h₃ := hnext [] h₂ hhappen (by decide +kernel)
  have h₄ := hnext [] h₃ (hwait l₃ (event true) (by decide +kernel)) (by decide +kernel)
  have h₅ := hnext [0x68, 0xC3] h₄ (hhandle (wait l₃) (event true) (by decide +kernel))
    (by decide +kernel)
  have h₆ := hnext [] h₅ (hwait l₄ (event false) (by decide +kernel)) (by decide +kernel)
  have hintake : Intake (fun _ => True) 0 ⟨l₁, [], []⟩ [0x68, 0xC3, 0xA9, 0xE2] m :=
    hnext [0xA9, 0xE2] h₆ (hhandle (wait l₄) (event false) (by decide +kernel)) (by decide +kernel)
  have hconveys := hstarted.inbound_text .refl rfl hintake
  exact ⟨hstarted, .refl, rfl, hintake, by decide +kernel, by decide +kernel, hconveys⟩

end TextLink.Loop
