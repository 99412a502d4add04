import TracingPerfetto.Preamble

/-!
What a reader finds in the packets of a span: the fields that are recorded on it, by the names
that the sequence of the packet has defined so far, the flow of its polls and the flows that
are queued on it.
-/

namespace TracingPerfetto.Layer

open TracingPerfetto.Wire (Bytes)
open TracingPerfetto.Proto (Op)
open TracingPerfetto.Schema
open TracingPerfetto.Runtime TracingPerfetto.Sequence TracingPerfetto.TrackEvents
open TracingPerfetto.Counters TracingPerfetto.Threads
open TracingPerfetto.SequenceRuns TracingPerfetto.Interning TracingPerfetto.EventRouting
open TracingPerfetto.PacketFields TracingPerfetto.FieldNames
open TracingPerfetto.History
open TracingPerfetto.SpanStore (SpanId)

/-! ## Names of fields -/

def Content.fieldNames : Content → List StaticStr
  | .body shown => FieldNames.fieldNames shown
  | _ => []

def Content.shownFields (config : Config) : Content → List (StaticStr × FieldValue)
  | .body shown => FieldNames.shownFields config shown
  | _ => []

/-- A packet of the thread has a field with the name. -/
def Named (packets : List Emitted) (thread : ThreadId) (name : StaticStr) : Prop :=
  name ∈ (packetsOf packets thread).flatMap fun packet => packet.content.fieldNames

def writtenOn (packets : List Emitted) (thread : ThreadId) : List Written :=
  (packetsOf packets thread).map Emitted.written

/-- The annotations of a packet in plain text, by what its sequence defines up to there. -/
def Emitted.notes (before : List Emitted) (packet : Emitted) :
    List (Option (Bytes × NoteValue)) :=
  plainNotes (writtenOn (before ++ [packet]) packet.thread) packet.written

/-- A slice reads as what it shows, where its fields have addresses of their own. -/
def Emitted.Plain (env : Env) (before : List Emitted) (packet : Emitted) : Prop :=
  ∀ body, packet.content = .body body → ∀ shown, shownOf env.memory env.config body = some shown →
    Distinct env.memory (Named (before ++ [packet]) packet.thread)
      (FieldNames.shownFields env.config body) →
    packet.notes before = shown.map some

/-- The tables of each sequence stand for names in its packets. -/
structure Glosses (env : Env) (state : State) : Prop where
  live : ∀ thread context, state.contexts.live thread = some context →
    Glossed env.memory (Named state.trace.packets thread) (writtenOn state.trace.packets thread)
      context.writer.sequence
  plain : Holds (Emitted.Plain env) state.trace.packets

section Contents

variable {env : Env} {answers : Answers} {content : Content} {writer writer' : SequenceWriter}
  {allowed : StaticStr → Prop} {all : List Written} {packet : Written}

theorem content_sound : SoundBody (content.encode env answers writer) := by
  cases content with
  | body body => exact encode_sound body
  | _ => exact SoundBody.silent (fun _ => rfl) fun _ => rfl

theorem content_steady : Steady (content.encode env answers writer) := by
  cases content with
  | body body => exact steady_encode body
  | _ => exact Steady.pure _

theorem content_spelling (h : ∀ name ∈ content.fieldNames, allowed name) :
    Spelling env.memory allowed (content.encode env answers writer) := by
  cases content with
  | body body => exact spelling_encode h
  | _ => exact Spelling.pure _

/-- A packet leaves the tables with names that are in it or that they had. -/
theorem glossed_content (h : Glossed env.memory allowed all writer.sequence)
    (hnames : ∀ name ∈ content.fieldNames, allowed name)
    (hwrite : writeContent env answers content writer = some writer')
    (hlast : writer'.written.getLast? = some packet) :
    Glossed env.memory allowed (all ++ [packet]) writer'.sequence ∧
      ∀ body, content = .body body → ∀ shown, shownOf env.memory env.config body = some shown →
        Distinct env.memory allowed (FieldNames.shownFields env.config body) →
        plainNotes (all ++ [packet]) packet = shown.map some := by
  obtain ⟨wrote, hwrote⟩ := writeContent_wrote hwrite
  rw [hwrote.written, List.getLast?_concat, Option.some.injEq] at hlast
  subst hlast
  have hprepared : Glossed env.memory allowed all (preparedFor answers writer content).sequence :=
    h.of_tables preparedFor_tables
  refine ⟨glossed_wrote content_sound content_steady (content_spelling hnames) hprepared hwrote, ?_⟩
  rintro body rfl shown hshown hdistinct
  exact hprepared.reads hnames hdistinct hwrote hshown

end Contents

section Glosses

variable {env : Env} {state state' : State} {frames : Frames} {thread other : ThreadId}
  {frame : Frame} {rest : List Frame} {action : Act} {choice : Choice} {reply : action.Reply}

theorem writtenOn_append (packets : List Emitted) (packet : Emitted) (thread : ThreadId) :
    writtenOn (packets ++ [packet]) thread = writtenOn packets thread ++
      if packet.thread = thread then [packet.written] else [] := by
  rw [writtenOn, writtenOn, packetsOf_append, List.map_append]
  split <;> rfl

theorem Named.mono {packets packets' : List Emitted} (hpackets : packets ⊆ packets')
    {name : StaticStr} (h : Named packets thread name) : Named packets' thread name := by
  obtain ⟨packet, hmem, hname⟩ := List.mem_flatMap.1 h
  obtain ⟨hpacket, hthread⟩ := List.mem_filter.1 hmem
  exact List.mem_flatMap.2 ⟨packet, List.mem_filter.2 ⟨hpackets hpacket, hthread⟩, hname⟩

theorem named_last (packets : List Emitted) (packet : Emitted) :
    ∀ name ∈ packet.content.fieldNames, Named (packets ++ [packet]) packet.thread name := by
  intro name hname
  refine List.mem_flatMap.2 ⟨packet, ?_, hname⟩
  rw [packetsOf_append, if_pos rfl]
  exact List.mem_append_right _ List.mem_cons_self

/-- Only a write defines names. -/
theorem Glosses.context (h : Glosses env state) (hknown : Known env state frames)
    (hpreambles : Preambles state frames) (hthread : frames thread = frame :: rest)
    (hpre : pre env frame action)
    (hperform : perform env thread action choice state = some (reply, state'))
    (hwrite : ∀ span calledAt content, action ≠ .sequence (.write span calledAt content))
    {context' : ThreadCtx} (hlive : state'.contexts.live other = some context') :
    Glossed env.memory (Named state.trace.packets other) (writtenOn state.trace.packets other)
      context'.writer.sequence := by
  cases context_after hperform hlive with
  | kept context hcontext hwriter hopened htrack =>
      exact (h.live other context hcontext).of_tables (by rw [hwriter])
  | inserted sequenceId uuid anchor hother haction heq =>
      subst heq hother haction
      obtain ⟨hvacant, -⟩ := hpre
      have hunset := hknown.borrowed.vacant other frame (Guards.top_mem hthread) hvacant
      have hnone : packetsOf state.trace.packets other = [] :=
        List.map_eq_nil_iff.1 (hpreambles.unset other hunset)
      rw [writtenOn, hnone]
      exact glossed_new sequenceId (env.bases.uuid uuid) anchor
  | opened context hcontext hother haction heq =>
      subst heq
      exact (h.live other context hcontext).of_tables rfl
  | marked context hcontext hother haction heq =>
      subst heq
      exact (h.live other context hcontext).of_tables rfl
  | cached context hcontext hother name uuid haction heq =>
      subst heq
      obtain ⟨⟨hok, hresolved⟩, hremembers, hspells⟩ := h.live other context hcontext
      exact ⟨⟨⟨hok.eventNames, hok.categories, hok.annotationNames, hok.levelName,
        hok.annotationValues, hok.sourceLocations⟩, hresolved⟩, hremembers, hspells⟩
  | stamped context hcontext hother haction heq =>
      subst heq
      refine (h.live other context hcontext).of_tables ?_
      rw [ThreadCtx.timestamp]
      split <;> rfl
  | wrote context hcontext hother span calledAt content haction =>
      exact absurd haction (hwrite span calledAt content)

theorem glosses_kept (env : Env) : KeepsInv env AnyCall
    (fun state frames => Known env state frames ∧ Preambles state frames)
    fun state _ => Glosses env state where
  act := by
    rintro state frames thread frame rest action choice reply state' ⟨hknown, hpreambles⟩ h hthread
      hpre hperform -
    change perform env thread action choice state = some (reply, state') at hperform
    by_cases hwrite : ∃ span calledAt content, action = .sequence (.write span calledAt content)
    · obtain ⟨span, calledAt, content, rfl⟩ := hwrite
      obtain ⟨context, writer, timestamp, written, hlive, -, hwrite, hlast, hcontexts, hpackets⟩ :=
        perform_content hperform
      have hnamed := named_last state.trace.packets
        ⟨thread, span, content, timestamp, calledAt, context.openedAt, state.time, written⟩
      obtain ⟨hglossed, hplain⟩ := glossed_content
        ((h.live thread context hlive).mono
          fun name hname => hname.mono (List.subset_append_left _ _)) hnamed hwrite hlast
      constructor
      · intro other context' hlive'
        rw [hcontexts] at hlive'
        rw [hpackets, writtenOn_append]
        rcases live_set hlive' with ⟨rfl, heq⟩ | ⟨hother, hold⟩
        · cases heq
          rw [if_pos rfl]
          exact hglossed
        · rw [if_neg (Ne.symm hother), List.append_nil]
          exact (h.live other context' hold).mono
            fun name hname => hname.mono (List.subset_append_left _ _)
      · rw [hpackets]
        refine h.plain.concat fun body hcontent shown hshown hdistinct => ?_
        rw [Emitted.notes, writtenOn_append, if_pos rfl]
        exact hplain body hcontent shown hshown hdistinct
    · have hother : ∀ span calledAt content,
          action ≠ .sequence (.write span calledAt content) :=
        fun span calledAt content heq => hwrite ⟨span, calledAt, content, heq⟩
      have hpackets := perform_packets hperform hother
      constructor
      · intro other context' hlive
        rw [hpackets]
        exact h.context hknown hpreambles hthread hpre hperform hother hlive
      · rw [hpackets]
        exact h.plain
  ret := fun _ h _ _ _ => h
  call := by
    rintro state frames thread call prog state' ⟨hknown, -⟩ h - - hcall -
    obtain ⟨registry, -, -, rfl, -⟩ := hknown.ledger.call_admits hcall
    exact ⟨h.live, h.plain⟩

theorem glosses_new (env : Env) (nextSequenceId : Nat) :
    Glosses env (State.new nextSequenceId) :=
  ⟨fun _ _ hlive => (by cases hlive), holds_nil⟩

end Glosses

/-! ## What the packets of a span show -/

section Stored

variable {state : State} {span : Nat}

theorem stored_recordedOn (h : ∀ record ∈ state.recorded, ∀ visit ∈ record.2.2,
      visit.2.stored.isSome = true) :
    ∀ visits ∈ state.recordedOn span, ∀ visit ∈ visits, visit.2.stored.isSome = true := by
  intro visits hmem
  obtain ⟨record, hrecord, rfl⟩ := List.mem_map.1 hmem
  exact h record (List.mem_of_mem_filter hrecord)

theorem stored_recordedBefore {time : Nat} (h : ∀ record ∈ state.recorded,
      ∀ visit ∈ record.2.2, visit.2.stored.isSome = true) :
    ∀ visits ∈ state.recordedBefore span time, ∀ visit ∈ visits,
      visit.2.stored.isSome = true := by
  intro visits hmem
  obtain ⟨record, hrecord, rfl⟩ := List.mem_map.1 hmem
  exact h record (List.mem_of_mem_filter hrecord)

end Stored

/-- The annotations are the fields that the calls leave, in plain text. -/
def Recounts (env : Env) (log : List Visits) (shown : List (Option (Bytes × NoteValue))) : Prop :=
  ∃ fields, Overlays env.memory log.flatten fields ∧
    shown = fields.map fun field => some (plain env.memory field)

/-- Each name is there once, where it was first recorded. -/
theorem Recounts.names {env : Env} {log : List Visits} {shown : List (Option (Bytes × NoteValue))}
    (h : Recounts env log shown) : shown.map (Option.map Prod.fst) =
      (firsts (log.flatten.map fun visit => env.memory.text visit.1)).map some := by
  obtain ⟨fields, hoverlays, rfl⟩ := h
  rw [← hoverlays.names, List.map_map, List.map_map]
  rfl

/-- The last packet of a span shows what was recorded on it, and in place of it the slices of
a thread what was recorded before them, behind the level. -/
structure Emitted.Tells (env : Env) (state : State) (before : List Emitted) (packet : Emitted) :
    Prop where
  last : ∀ uuid flows fields, packet.content = .body (.lifetimeEnd uuid flows fields) →
    packet.kind = some (.event TrackEvent.typeSliceEnd (some (env.bases.uuid uuid))) ∧
      ∃ span, packet.span = some span ∧ Recounts env (state.recordedOn span) (packet.notes before)
  enter : ∀ metadata fields pollFlowId flows,
    packet.content = .body (.threadBegin metadata fields pollFlowId flows) →
    packet.kind = some (.event TrackEvent.typeSliceBegin none) ∧
      ∃ span shown, packet.span = some span ∧
        packet.notes before =
          some (text "level", .text (levelValue metadata.level).2.1) :: shown ∧
        if env.config.spanMode = .threadTracks then
          Recounts env (state.recordedBefore span packet.writtenAt) shown
        else shown = []
  poll : ∀ uuid pollFlowId flows, packet.content = .body (.pollBegin uuid pollFlowId flows) →
    packet.notes before = []
  exit : ∀ uuid flows, packet.content = .body (.enterEnd uuid flows) → packet.notes before = []

/-- The flows were queued on the span of the packet. -/
def Emitted.Owns (env : Env) (state : State) (packet : Emitted) (sent : List FlowEnd) : Prop :=
  ∀ flow ∈ sent, ∃ span, packet.span = some span ∧
    flow ∈ (state.queuedOn span).map (endOf env.bases)

/-- The packets of a span tell its fields. Its slices on threads have the one flow that goes
with the span, and all other flows in a packet are queued on the span of the packet. -/
structure FieldsFaithful (env : Env) (state : State) : Prop where
  tells : Holds (Emitted.Tells env state) state.trace.packets
  polls : env.config.spanMode.emitThreadSlices = true → ∃ poll : Nat → Option Nat,
    (∀ span other id, poll span = some id → poll other = some id → span = other) ∧
    (∀ queued ∈ state.spans.queued, ∀ span,
      poll span ≠ some (env.bases.flowId (flowId queued.2.1))) ∧
    ∀ packet ∈ state.trace.packets, packet.content.pollFlow.isSome = true →
      ∃ span id sent, packet.span = some span ∧ poll span = some id ∧
        packet.ends = .start id :: sent ∧ packet.Owns env state sent
  flows : ∀ packet ∈ state.trace.packets,
    (env.config.spanMode.emitThreadSlices = true → packet.content.pollFlow = none) →
      packet.Owns env state packet.ends

/-- No slice shows a field whose name starts where another text does that is a name of a field
in the packets of the thread. -/
def Unambiguous (env : Env) (packets : List Emitted) : Prop :=
  ∀ packet ∈ packets,
    Distinct env.memory (Named packets packet.thread) (packet.content.shownFields env.config)

instance (env : Env) (packets : List Emitted) : Decidable (Unambiguous env packets) := by
  unfold Unambiguous Distinct Named
  infer_instance

section Tells

variable {env : Env} {state : State} {frames : Frames} {before after : List Emitted}
  {packet : Emitted}

/-- The annotations of a slice, where no name is taken for another. -/
theorem Glosses.notes (h : Glosses env state) (hnames : Unambiguous env state.trace.packets)
    (hsplit : state.trace.packets = before ++ packet :: after) {body : Body}
    (hcontent : packet.content = .body body) {shown : List (Bytes × NoteValue)}
    (hshown : shownOf env.memory env.config body = some shown) :
    packet.notes before = shown.map some := by
  refine h.plain before packet after hsplit body hcontent shown hshown ?_
  have hmem : packet ∈ state.trace.packets := by simp [hsplit]
  have hdistinct := hnames packet hmem
  rw [hcontent] at hdistinct
  refine hdistinct.mono fun name hname => hname.mono fun other hother => ?_
  rw [hsplit, ← List.singleton_append, ← List.append_assoc]
  exact List.mem_append_left _ hother

theorem tells_of_glosses (hglosses : Glosses env state) (hlegible : Legible env state)
    (hshown : Shown env state frames) (hannotations : env.config.debugAnnotations = true)
    (hstored : ∀ record ∈ state.recorded, ∀ visit ∈ record.2.2, visit.2.stored.isSome = true)
    (hnames : Unambiguous env state.trace.packets) :
    Holds (Emitted.Tells env state) state.trace.packets := by
  intro before packet after hsplit
  have hmem : packet ∈ state.trace.packets := by simp [hsplit]
  have hnotes : ∀ {body}, packet.content = .body body → ∀ {shown},
      shownOf env.memory env.config body = some shown → packet.notes before = shown.map some :=
    fun hcontent _ hshown => hglosses.notes hnames hsplit hcontent hshown
  have hkind : ∀ {body}, packet.content = .body body →
      packet.kind = some (kindOf env.memory env.bases body) := (hlegible.reads hmem).body _
  constructor
  · intro uuid flows fields hcontent
    obtain ⟨span, hspan⟩ := hlegible.span hmem (by rw [hcontent]; rfl)
    have hlast := (hshown.last packet hmem span hspan (by rw [hcontent]; rfl)).2
    have hshows := hshown.fields packet hmem span hspan
    rw [hcontent, hlast] at hshows
    change fields = _ at hshows
    refine ⟨hkind hcontent, span, hspan, fields, ?_, ?_⟩
    · rw [hshows]
      exact overlay_overlays (stored_recordedOn hstored)
    · rw [hnotes hcontent rfl, FieldNames.shownFields, if_pos hannotations, List.map_map]
      rfl
  · intro metadata fields pollFlowId flows hcontent
    obtain ⟨span, hspan⟩ := hlegible.span hmem (by rw [hcontent]; rfl)
    have hshows := hshown.fields packet hmem span hspan
    rw [hcontent] at hshows
    change fields = _ at hshows
    refine ⟨hkind hcontent, span, _, hspan, hnotes hcontent rfl, ?_⟩
    rw [FieldNames.shownFields, hannotations, Bool.true_and]
    split
    · rename_i hmode
      rw [if_pos (by rw [hmode]; rfl), List.map_map]
      refine ⟨fields, ?_, rfl⟩
      rw [hshows]
      exact overlay_overlays (stored_recordedBefore hstored)
    · rename_i hmode
      rw [if_neg (by simpa using hmode)]
      rfl
  · exact fun uuid pollFlowId flows hcontent => hnotes hcontent rfl
  · exact fun uuid flows hcontent => hnotes hcontent rfl

theorem pollFlow_boundary {content : Content} {shown : Option Nat}
    (h : content.pollFlow = some shown) : content.boundary = true := by
  cases content with
  | body body => cases body <;> first | rfl | cases h
  | _ => cases h

theorem pollEnds_eq (content : Content) :
    content.pollEnds env = content.pollFlow.elim [] (PacketFields.pollEnds env.bases) := by
  cases content with
  | body body => cases body <;> rfl
  | _ => rfl

theorem content_of_last {content : Content} (h : content.last = true) :
    ∃ uuid flows fields, content = .body (.lifetimeEnd uuid flows fields) := by
  cases content with
  | body body =>
      cases body with
      | lifetimeEnd uuid flows fields => exact ⟨uuid, flows, fields, rfl⟩
      | _ => cases h
  | _ => cases h

theorem owns_of_flows (hflows : OwnFlows state frames)
    (hmem : packet ∈ state.trace.packets) :
    packet.Owns env state (packet.content.flows.map (endOf env.bases)) := by
  intro sent hsent
  obtain ⟨flow, hflow, rfl⟩ := List.mem_map.1 hsent
  obtain ⟨span, hspan, hqueued⟩ := hflows.packets packet hmem flow hflow
  exact ⟨span, hspan, List.mem_map_of_mem hqueued⟩

end Tells

/-- While the formatters do what is asked of them, no name is taken for another, and the ids of
flows have not come round: spans show their own fields and flows, each field once, in the order
of the first records and with the last value. -/
theorem fields_faithful {env : Env} (hannotations : env.config.debugAnnotations = true)
    {nextSequenceId : Nat} {labels : List (system env).Label} {config : (system env).Config}
    (hrun : System.run labels (System.idle (State.new nextSequenceId)) = some config)
    (hstored : ∀ record ∈ config.state.recorded, ∀ visit ∈ record.2.2,
      visit.2.stored.isSome = true)
    (hnames : Unambiguous env config.state.trace.packets)
    (hdraws : config.state.shared.nextFlowId < 2 ^ 64) : FieldsFaithful env config.state := by
  have hpremises := (excuses_kept env).join (taken_kept env)
  have hfields : KeepsInv env AnyCall (Known env) fun state frames =>
      ((Excuses env state frames ∧ Taken env state frames) ∧ Records env state frames) ∧
        Shown env state frames := (hpremises.join (records_kept env)).join (shown_kept env)
  have hspans := ((hfields.join ((polls_kept env).over fun h => ⟨h.1, h.2.1.1⟩)).join
    ((ownFlows_kept env).over And.left)).join ((legible_kept env).over fun _ => trivial)
  have hglosses := (preambles_kept env).join (glosses_kept env)
  obtain ⟨frames, ⟨-, ⟨⟨⟨⟨-, hshown⟩, poll, hpolls⟩, hflows⟩, hlegible⟩, -, hglosses⟩, -⟩ :=
    known_run (hspans.join (hglosses.over And.left))
      ⟨⟨⟨⟨⟨⟨⟨excuses_new env nextSequenceId, taken_new env nextSequenceId⟩,
        records_new env nextSequenceId⟩, shown_new env nextSequenceId⟩,
        ⟨_, polls_new env nextSequenceId⟩⟩, ownFlows_new nextSequenceId⟩,
        legible_new env nextSequenceId⟩, preambles_new nextSequenceId,
        glosses_new env nextSequenceId⟩
      (System.obeys_true labels _) hrun
  have hdrawn : ∀ {flow flow'}, flow < config.state.shared.nextFlowId →
      flow' < config.state.shared.nextFlowId →
      env.bases.flowId flow = env.bases.flowId flow' → flow = flow' :=
    fun hlt hlt' heq => drawValue_injective env.bases.flowIdBase_lt (by omega) (by omega) heq
  refine ⟨tells_of_glosses hglosses hlegible hshown hannotations hstored hnames, fun hslices => ?_,
    fun packet hmem hpoll => ?_⟩
  · refine ⟨fun span => (poll span).map env.bases.flowId, ?_, ?_, ?_⟩
    · intro span other id hspan hother
      obtain ⟨flow, hflow, rfl⟩ := Option.map_eq_some_iff.1 hspan
      obtain ⟨flow', hflow', heq⟩ := Option.map_eq_some_iff.1 hother
      obtain rfl := hdrawn (hpolls.below span flow hflow).1 (hpolls.below other flow' hflow').1
        heq.symm
      exact hpolls.distinct span other flow hflow hflow'
    · intro queued hmem span hspan
      obtain ⟨flow, hflow, heq⟩ := Option.map_eq_some_iff.1 hspan
      obtain ⟨hlt, hapart⟩ := hpolls.queued queued hmem
      obtain rfl := hdrawn (hpolls.below span flow hflow).1 hlt heq
      exact hapart span hflow
    · intro packet hmem hpoll
      obtain ⟨shown, hcontent⟩ := Option.isSome_iff_exists.1 hpoll
      obtain ⟨span, hspan⟩ := hlegible.span hmem (pollFlow_boundary hcontent)
      have hshown := (hpolls.packets packet hmem span shown hspan hcontent).2
      obtain ⟨flow, hflow⟩ := Option.isSome_iff_exists.1 (hshown.drawn hslices)
      refine ⟨span, env.bases.flowId flow, _, hspan, congrArg (Option.map _) hflow, ?_,
        owns_of_flows hflows hmem⟩
      rw [(hlegible.reads hmem).ends, pollEnds_eq, hcontent, hshown.shown, if_pos hslices, hflow]
      rfl
  · have hnone : packet.content.pollEnds env = [] := by
      rw [pollEnds_eq]
      cases hcontent : packet.content.pollFlow with
      | none => rfl
      | some shown =>
          obtain ⟨span, hspan⟩ := hlegible.span hmem (pollFlow_boundary hcontent)
          have hshown := (hpolls.packets packet hmem span shown hspan hcontent).2.shown
          have hslices : ¬ env.config.spanMode.emitThreadSlices = true := by
            intro hslices
            rw [hpoll hslices] at hcontent
            cases hcontent
          rw [hshown, if_neg hslices]
          rfl
    rw [(hlegible.reads hmem).ends, hnone]
    exact owns_of_flows hflows hmem

def recordEnv : Env := { sampleEnv with config := ⟨.both, true, false, false, false, false⟩ }

def recordChoice : Choice :=
  { sampleChoice with visits := [(sampleMetadata.name, .i64 (Int.ofNat 7))] }

/-- A span with what is recorded on it, and a slice. -/
def recordedWith (choice : Choice) : Option (system recordEnv).Config :=
  System.run
    ([(Call.newSpan 1 sampleMetadata none, 39), (.record 1, 6), (.enter 1, 13), (.exit 1, 12),
      (.close 1, 12)].flatMap fun callback =>
        .call 1 callback.1 :: List.replicate callback.2 (.act 1 choice) ++ [.ret 1])
    (System.idle (State.new 65536))

/-- The run ends with the last packet of its first span, and this is what it tells. -/
def EndsWith (packets : List Emitted) (shown : List (Option (Bytes × NoteValue))) : Prop :=
  ∃ packet ∈ packets.getLast?, packet.span = some 0 ∧ packet.content.last = true ∧
    packet.kind = some (.event TrackEvent.typeSliceEnd (some 7)) ∧
      packet.notes packets.dropLast = shown

/-- What is asked of the run, and what comes of it. -/
structure RecordsOk (choice : Choice) (shown : List (Option (Bytes × NoteValue)))
    (config : (system recordEnv).Config) : Prop where
  stored : ∀ record ∈ config.state.recorded, ∀ visit ∈ record.2.2, visit.2.stored.isSome = true
  draws : config.state.shared.nextFlowId = 1
  noError : config.state.shared.hasError = false
  accepted : config.state.contexts.refused = false
  recorded : config.state.recordedOn 0 = [choice.visits]
  shown : EndsWith config.state.trace.packets shown

instance (choice : Choice) (shown : List (Option (Bytes × NoteValue)))
    (config : (system recordEnv).Config) : Decidable (RecordsOk choice shown config) :=
  have : Decidable (EndsWith config.state.trace.packets shown) := by
    unfold EndsWith
    infer_instance
  decidable_of_iff (_ ∧ _ ∧ _ ∧ _ ∧ _ ∧ _)
    ⟨fun ⟨stored, draws, noError, accepted, recorded, shown⟩ =>
      ⟨stored, draws, noError, accepted, recorded, shown⟩,
    fun h => ⟨h.stored, h.draws, h.noError, h.accepted, h.recorded, h.shown⟩⟩

theorem recorded_ok : (recordedWith recordChoice).map (fun config =>
    decide (RecordsOk recordChoice [some ([112, 111, 108, 108], .int 7)] config ∧
      Unambiguous recordEnv config.state.trace.packets ∧
      config.state.trace.packets.map Emitted.ends = [[], [], [], [], [], [.start 9], [], []])) =
    some true := by
  decide +kernel

theorem fields_faithful_recorded : ∃ config, recordedWith recordChoice = some config ∧
    config.state.recordedOn 0 = [recordChoice.visits] ∧ FieldsFaithful recordEnv config.state ∧
    EndsWith config.state.trace.packets [some ([112, 111, 108, 108], .int 7)] ∧
    config.state.trace.packets.map Emitted.ends = [[], [], [], [], [], [.start 9], [], []] := by
  obtain ⟨config, hrun, htells⟩ := Option.map_eq_some_iff.1 recorded_ok
  rw [decide_eq_true_eq] at htells
  obtain ⟨hok, hnames, hends⟩ := htells
  exact ⟨config, hrun, hok.recorded,
    fields_faithful rfl hrun hok.stored hnames (by rw [hok.draws]; decide), hok.shown, hends⟩

/-- Two fields, whose names are a word and its first two letters at the same address. -/
def wordsChoice : Choice :=
  { sampleChoice with visits := [(sampleMetadata.name, .i64 (Int.ofNat 7)),
      (⟨sampleMetadata.name.ptr, 2, sampleMetadata.name.ptr_ne⟩, .i64 (Int.ofNat 8))] }

theorem words_ok : (recordedWith wordsChoice).map (fun config =>
    decide (RecordsOk wordsChoice
      [some ([112, 111, 108, 108], .int 7), some ([112, 111, 108, 108], .int 8)] config)) =
    some true := by
  decide +kernel

/-- The last packet of the span has the one name twice and the other one not at all. -/
theorem fields_collide : ∃ config, recordedWith wordsChoice = some config ∧
    RecordsOk wordsChoice
      [some ([112, 111, 108, 108], .int 7), some ([112, 111, 108, 108], .int 8)] config ∧
    ¬ FieldsFaithful recordEnv config.state := by
  obtain ⟨config, hrun, hok⟩ := Option.map_eq_some_iff.1 words_ok
  rw [decide_eq_true_eq] at hok
  refine ⟨config, hrun, hok, fun hfaithful => ?_⟩
  obtain ⟨packet, hlast, hspan, hend, -, hnotes⟩ := hok.shown
  have htells := hfaithful.tells _ packet [] (List.dropLast_append_getLast? packet hlast).symm
  obtain ⟨uuid, flows, fields, hcontent⟩ := content_of_last hend
  obtain ⟨-, span, hsome, hrecounts⟩ := htells.last uuid flows fields hcontent
  rw [hspan, Option.some.injEq] at hsome
  subst hsome
  have hnames := hrecounts.names
  rw [hok.recorded, hnotes] at hnames
  exact absurd hnames (by decide +kernel)

end TracingPerfetto.Layer
