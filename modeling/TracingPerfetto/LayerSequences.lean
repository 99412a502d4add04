import TracingPerfetto.LayerContexts
import TracingPerfetto.SequenceRuns

/-!
What an action does to the writers of the threads, and what a write puts into the trace.
-/

namespace TracingPerfetto.Layer

open TracingPerfetto.Proto (Op)
open TracingPerfetto.Runtime TracingPerfetto.Sequence TracingPerfetto.TrackEvents
open TracingPerfetto.Counters TracingPerfetto.Threads
open TracingPerfetto.SequenceRuns
open TracingPerfetto.SpanStore (SpanId)

/-! ## The packet of a content -/

/-- What the process descriptor asks for. -/
def answersOf (env : Env) (answers : Answers) : Content → Answers
  | .processDescriptor uuid =>
      { answers with claimsProcess := true, processUuid := env.bases.uuid uuid }
  | _ => answers

/-- A clock snapshot restarts the deltas first. -/
def preparedFor (answers : Answers) (writer : SequenceWriter) : Content → SequenceWriter
  | .clockSnapshot => writer.readSnapshotClock answers
  | _ => writer

/-- What a content writes. -/
def Content.encode (env : Env) (answers : Answers) (writer : SequenceWriter) :
    Content → Encode (List Op)
  | .clockSnapshot =>
      pure (SequenceWriter.clockSnapshotCalls env.domain answers
        (writer.readSnapshotClock answers).sequence.lastTimestampNs
        (writer.readSnapshotClock answers).sequence.clockAnchorNs)
  | .processDescriptor uuid =>
      pure (SequenceWriter.processDescriptorCalls (answersOf env answers (.processDescriptor uuid))
        ((SequenceWriter.commandLine env.config answers).getD []))
  | .threadDescriptor =>
      pure (SequenceWriter.threadDescriptorCalls answers writer.sequence.threadTrackUuid)
  | .body shown => shown.encode env.memory env.config env.bases

section Content

variable {env : Env} {answers : Answers} {content : Content} {writer writer' : SequenceWriter}

theorem writeContent_wrote (h : writeContent env answers content writer = some writer') :
    ∃ packet, Wrote env.domain (answersOf env answers content) (preparedFor answers writer content)
      (content.encode env answers writer) writer' packet := by
  cases content with
  | clockSnapshot =>
      rw [writeContent, SequenceWriter.clockSnapshot] at h
      obtain ⟨packet, -, hwrote⟩ := writes_writePacket _ _ _ _ _ h
      exact ⟨packet, hwrote⟩
  | processDescriptor uuid =>
      simp only [writeContent, SequenceWriter.processDescriptor, Bool.not_true,
        Bool.false_eq_true, if_false, Option.bind_eq_bind, Option.bind_eq_some_iff] at h
      obtain ⟨arguments, harguments, h⟩ := h
      obtain ⟨packet, -, hwrote⟩ := writes_writePacket _ _ _ _ _ h
      have hsame : SequenceWriter.commandLine env.config answers = some arguments := harguments
      refine ⟨packet, ?_⟩
      rw [Content.encode, hsame]
      exact hwrote
  | threadDescriptor =>
      rw [writeContent, SequenceWriter.threadDescriptor] at h
      obtain ⟨packet, -, hwrote⟩ := writes_writePacket _ _ _ _ _ h
      exact ⟨packet, hwrote⟩
  | body body =>
      rw [writeContent] at h
      obtain ⟨packet, -, hwrote⟩ := writes_writePacket _ _ _ _ _ h
      exact ⟨packet, hwrote⟩

theorem preparedFor_tables :
    (preparedFor answers writer content).sequence.tables = writer.sequence.tables := by
  cases content with
  | clockSnapshot =>
      simp only [preparedFor, SequenceWriter.readSnapshotClock,
        (timestamp_sequence writer answers).1]
  | _ => rfl

theorem preparedFor_timestampNs {raw : Nat} (h : writer.timestampNs = some raw) :
    (preparedFor answers writer content).timestampNs = some raw := by
  cases content with
  | clockSnapshot =>
      simp [preparedFor, SequenceWriter.readSnapshotClock, SequenceWriter.timestamp, h]
  | _ => exact h

/-- What a sequence keeps of itself. -/
structure SameSequence (sequence sequence' : SequenceState) : Prop where
  sequenceId : sequence'.sequenceId = sequence.sequenceId
  threadTrackUuid : sequence'.threadTrackUuid = sequence.threadTrackUuid
  initialized : sequence'.initialized = sequence.initialized

theorem preparedFor_same :
    SameSequence writer.sequence (preparedFor answers writer content).sequence ∧
      (preparedFor answers writer content).sequence.firstPacketDone =
        writer.sequence.firstPacketDone := by
  cases content with
  | clockSnapshot =>
      simp only [preparedFor, SequenceWriter.readSnapshotClock,
        (timestamp_sequence writer answers).1]
      exact ⟨⟨rfl, rfl, rfl⟩, trivial⟩
  | _ => exact ⟨⟨rfl, rfl, rfl⟩, rfl⟩

theorem header_same (domain : ClockDomain) (answers : Answers) (sequence : SequenceState)
    (raw : Nat) : SameSequence sequence (sequence.header domain answers raw).2 ∧
      (sequence.header domain answers raw).2.firstPacketDone = true := by
  rw [SequenceState.header]
  by_cases hdone : sequence.firstPacketDone = true
  · rw [if_pos hdone]
    exact ⟨⟨rfl, rfl, rfl⟩, hdone⟩
  · rw [if_neg hdone]
    exact ⟨⟨rfl, rfl, rfl⟩, rfl⟩

theorem packet_same {domain : ClockDomain} {encode : Encode (List Op)} {packet : Written}
    (h : Wrote domain answers writer encode writer' packet) :
    SameSequence writer.sequence writer'.sequence ∧ writer'.sequence.firstPacketDone = true := by
  obtain ⟨⟨hid, huuid, hinitialized⟩, hdone⟩ :=
    header_same domain answers writer.sequence (writer.timestamp answers).1
  exact ⟨⟨(congrArg SequenceState.sequenceId h.sequence).trans hid,
    (congrArg SequenceState.threadTrackUuid h.sequence).trans huuid,
    (congrArg SequenceState.initialized h.sequence).trans hinitialized⟩,
    (congrArg SequenceState.firstPacketDone h.sequence).trans hdone⟩

/-- What a written packet is, as seen from the writer before it. -/
structure Finishes (env : Env) (answers : Answers) (content : Content)
    (writer writer' : SequenceWriter) (packet : Written) : Prop where
  header : ∃ ready, SameSequence writer.sequence ready ∧
    ready.firstPacketDone = writer.sequence.firstPacketDone ∧ ∃ answers' raw,
      packet.header = (ready.header env.domain answers' raw).1
  body : ∃ tables, packet.body = (content.encode env answers writer tables).1
  interned : ∃ tables : InternTables, packet.interned = tables.emitInternedData.1
  same : SameSequence writer.sequence writer'.sequence
  done : writer'.sequence.firstPacketDone = true
  timestampNs : ∀ raw, writer.timestampNs = some raw → writer'.timestampNs = some raw

theorem writeContent_finishes (h : writeContent env answers content writer = some writer')
    {packet : Written} (hlast : writer'.written.getLast? = some packet) :
    Finishes env answers content writer writer' packet := by
  obtain ⟨wrote, hwrote⟩ := writeContent_wrote h
  obtain ⟨hsame, hdone⟩ := @preparedFor_same answers content writer
  obtain ⟨hsame', hdone'⟩ := packet_same hwrote
  rw [hwrote.written, List.getLast?_concat, Option.some.injEq] at hlast
  subst hlast
  refine ⟨⟨_, hsame, hdone, _, _, hwrote.header⟩, ⟨_, hwrote.body⟩, ⟨_, hwrote.interned⟩,
    ⟨hsame'.sequenceId.trans hsame.sequenceId,
      hsame'.threadTrackUuid.trans hsame.threadTrackUuid,
      hsame'.initialized.trans hsame.initialized⟩, hdone', fun raw hraw => ?_⟩
  rw [hwrote.timestampNs, SequenceWriter.timestamp, preparedFor_timestampNs hraw]

end Content

/-! ## The writers of the threads -/

/-- Where the context of a thread comes from. -/
inductive ContextAfter (env : Env) (state : State) (thread : ThreadId) (action : Act)
    (choice : Choice) (trace' : Trace) (other : ThreadId) (context' : ThreadCtx) : Prop where
  | kept (context : ThreadCtx) (hlive : state.contexts.live other = some context)
      (hwriter : context'.writer = context.writer) (hopened : context'.openedAt = context.openedAt)
      (htrack : context'.trackUuid = context.trackUuid)
  | inserted (sequenceId uuid anchor : Nat) (hother : other = thread)
      (haction : action = .context (.insert sequenceId uuid anchor))
      (h : context' = ThreadCtx.new sequenceId uuid (env.bases.uuid uuid) anchor)
  | opened (context : ThreadCtx) (hlive : state.contexts.live other = some context)
      (hother : other = thread) (haction : action = .sequence .newWriter)
      (h : context' = { context with writer := SequenceWriter.new context.writer.sequence })
  | marked (context : ThreadCtx) (hlive : state.contexts.live other = some context)
      (hother : other = thread) (haction : action = .sequence .markInitialized)
      (h : context' = { context with writer := context.writer.markInitialized })
  | cached (context : ThreadCtx) (hlive : state.contexts.live other = some context)
      (hother : other = thread) (name : StaticStr) (uuid : Nat)
      (haction : action = .sequence (.cacheCounterTrack name uuid))
      (h : context' = { context with writer := { context.writer with
        sequence := context.writer.sequence.withTables
          (context.writer.sequence.tables.cacheCounterTrack name uuid) } })
  | stamped (context : ThreadCtx) (hlive : state.contexts.live other = some context)
      (hother : other = thread) (haction : action = .sequence .timestamp)
      (h : context' = context.timestamp state.time choice.answers)
  | wrote (context : ThreadCtx) (hlive : state.contexts.live other = some context)
      (hother : other = thread) (span : Option Nat) (calledAt : Nat) (content : Content)
      (haction : action = .sequence (.write span calledAt content)) (timestamp : Nat)
      (htimestamp : context.writer.timestampNs = some timestamp) (writer : SequenceWriter)
      (written : Written)
      (hfinishes : Finishes env choice.answers content context.writer writer written)
      (h : context' = { context with writer := writer })
      (htrace : trace'.packets = state.trace.packets ++
        [⟨thread, span, content, timestamp, calledAt, context.openedAt, state.time, written⟩])

section Contexts

variable {env : Env} {state state' : State} {thread other : ThreadId} {choice : Choice}
  {context context' : ThreadCtx}

theorem live_set {contexts : Contexts} {tls : Tls}
    (h : (contexts.set thread tls).live other = some context') :
    other = thread ∧ tls = .live context' ∨
      other ≠ thread ∧ contexts.live other = some context' := by
  rw [live_tls] at h
  by_cases hother : other = thread
  · subst hother
    rw [Borrowed.set_self] at h
    exact .inl ⟨rfl, h⟩
  · rw [Borrowed.set_other hother] at h
    exact .inr ⟨hother, live_tls.2 h⟩

/-- The caches of a thread are not its writer. -/
structure SameWriter (context context' : ThreadCtx) : Prop where
  writer : context'.writer = context.writer
  openedAt : context'.openedAt = context.openedAt
  trackUuid : context'.trackUuid = context.trackUuid

theorem onLive_writer {α : Type} {contexts contexts' : Contexts}
    {action : ThreadCtx → α × ThreadCtx} {reply : α}
    (h : contexts.onLive thread action = some (reply, contexts'))
    (haction : ∀ context, SameWriter context (action context).2)
    (hlive : contexts'.live other = some context') :
    ∃ context, contexts.live other = some context ∧ SameWriter context context' := by
  obtain ⟨context, hcontext, -, rfl⟩ := onLive_cases h
  rcases live_set hlive with ⟨rfl, heq⟩ | ⟨-, hold⟩
  · cases heq
    exact ⟨context, hcontext, haction context⟩
  · exact ⟨context', hold, ⟨rfl, rfl, rfl⟩⟩

theorem context_writer {action : ContextAct} {bases : IdBases} {contexts contexts' : Contexts}
    {reply : action.Reply} (h : action.perform bases thread contexts = some (reply, contexts'))
    (hlive : contexts'.live other = some context') :
    (∃ context, contexts.live other = some context ∧ SameWriter context context') ∨
      ∃ sequenceId uuid anchor, other = thread ∧ action = .insert sequenceId uuid anchor ∧
        context' = ThreadCtx.new sequenceId uuid (bases.uuid uuid) anchor := by
  have hsame : contexts' = contexts → (∃ context, contexts.live other = some context ∧
      SameWriter context context') ∨ ∃ sequenceId uuid anchor, other = thread ∧
        action = .insert sequenceId uuid anchor ∧
          context' = ThreadCtx.new sequenceId uuid (bases.uuid uuid) anchor := by
    rintro rfl
    exact .inl ⟨context', hlive, ⟨rfl, rfl, rfl⟩⟩
  cases action with
  | lookup =>
      simp only [ContextAct.perform, Option.some.injEq] at h
      cases htls : contexts.tls thread with
      | live context =>
          simp only [htls] at h
          by_cases hborrowed : context.borrowed = true
          · simp only [hborrowed, if_true, Prod.mk.injEq] at h
            refine .inl ⟨context', ?_, ⟨rfl, rfl, rfl⟩⟩
            rw [← h.2] at hlive
            exact hlive
          · rw [Bool.not_eq_true] at hborrowed
            simp only [hborrowed, Bool.false_eq_true, if_false, Prod.mk.injEq] at h
            rw [← h.2] at hlive
            rcases live_set hlive with ⟨rfl, heq⟩ | ⟨-, hold⟩
            · cases heq
              exact .inl ⟨context, live_tls.2 htls, ⟨rfl, rfl, rfl⟩⟩
            · exact .inl ⟨context', hold, ⟨rfl, rfl, rfl⟩⟩
      | unset =>
          simp only [htls, Prod.mk.injEq] at h
          exact hsame h.2.symm
      | destroyed =>
          simp only [htls, Prod.mk.injEq] at h
          refine .inl ⟨context', ?_, ⟨rfl, rfl, rfl⟩⟩
          rw [← h.2] at hlive
          exact hlive
  | insert sequenceId uuid anchor =>
      simp only [ContextAct.perform, Option.some.injEq, Prod.mk.injEq, true_and] at h
      subst h
      rcases live_set hlive with ⟨rfl, heq⟩ | ⟨-, hold⟩
      · cases heq
        exact .inr ⟨sequenceId, uuid, anchor, rfl, rfl, rfl⟩
      · exact .inl ⟨context', hold, ⟨rfl, rfl, rfl⟩⟩
  | dropGuard => exact .inl (onLive_writer h (fun _ => ⟨rfl, rfl, rfl⟩) hlive)
  | takeRetained =>
      refine .inl (onLive_writer h (fun context => ?_) hlive)
      rw [ThreadCtx.takeRetained]
      split <;> exact ⟨rfl, rfl, rfl⟩
  | returnRetained retained =>
      refine .inl (onLive_writer h (fun context => ?_) hlive)
      simp only [ThreadCtx.returnRetained]
      split <;> exact ⟨rfl, rfl, rfl⟩
  | cachedTrack key =>
      refine .inl (onLive_writer h (fun context => ?_) hlive)
      rw [ThreadCtx.cachedTrack]
      split
      · split <;> exact ⟨rfl, rfl, rfl⟩
      · exact ⟨rfl, rfl, rfl⟩
  | cachePool key pool localUuid =>
      exact .inl (onLive_writer h (fun _ => ⟨rfl, rfl, rfl⟩) hlive)
  | evict => exact .inl (onLive_writer h (fun _ => ⟨rfl, rfl, rfl⟩) hlive)
  | releaseLocal pool uuid =>
      refine .inl (onLive_writer h (fun context => ?_) hlive)
      rw [ThreadCtx.releaseLocal]
      split
      · split <;> exact ⟨rfl, rfl, rfl⟩
      · exact ⟨rfl, rfl, rfl⟩
  | destroy =>
      simp only [ContextAct.perform, Option.some.injEq] at h
      cases htls : contexts.tls thread with
      | live context =>
          simp only [htls, Prod.mk.injEq] at h
          rw [← h.2] at hlive
          rcases live_set hlive with ⟨-, heq⟩ | ⟨-, hold⟩
          · cases heq
          · exact .inl ⟨context', hold, ⟨rfl, rfl, rfl⟩⟩
      | unset | destroyed =>
          simp only [htls, Prod.mk.injEq] at h
          rw [← h.2] at hlive
          rcases live_set hlive with ⟨-, heq⟩ | ⟨-, hold⟩
          · cases heq
          · exact .inl ⟨context', hold, ⟨rfl, rfl, rfl⟩⟩

theorem context_after {action : Act} {reply : action.Reply}
    (h : perform env thread action choice state = some (reply, state'))
    (hlive : state'.contexts.live other = some context') :
    ContextAfter env state thread action choice state'.trace other context' := by
  have hkept : state.contexts.live other = some context' →
      ContextAfter env state thread action choice state'.trace other context' :=
    fun hold => .kept context' hold rfl rfl rfl
  cases action with
  | shared | pools | format | registry =>
      simp only [perform, Option.some.injEq, Prod.mk.injEq] at h
      rw [← h.2] at hlive
      exact hkept hlive
  | spans =>
      simp only [perform, Option.bind_eq_bind, Option.bind_eq_some_iff, Option.some.injEq,
        Prod.mk.injEq] at h
      obtain ⟨_, _, _, rfl⟩ := h
      exact hkept hlive
  | context act =>
      simp only [perform, Option.bind_eq_bind, Option.bind_eq_some_iff, Option.some.injEq,
        Prod.mk.injEq] at h
      obtain ⟨⟨_, contexts⟩, hact, -, rfl⟩ := h
      rcases context_writer hact hlive with ⟨context, hold, hwriter, hopened, htrack⟩ |
        ⟨sequenceId, uuid, anchor, rfl, rfl, rfl⟩
      · exact .kept context hold hwriter hopened htrack
      · exact .inserted sequenceId uuid anchor rfl rfl rfl
  | sequence act =>
      simp only [perform, Option.bind_eq_bind, Option.bind_eq_some_iff, Option.some.injEq,
        Prod.mk.injEq] at h
      obtain ⟨⟨_, contexts, trace⟩, hact, -, rfl⟩ := h
      change contexts.live other = some context' at hlive
      cases act with
      | readClock =>
          simp only [SequenceAct.perform, Option.some.injEq, Prod.mk.injEq] at hact
          rw [← hact.2.1] at hlive
          exact hkept hlive
      | initialized | threadTrackUuid | counterTrackUuid =>
          simp only [SequenceAct.perform, Option.bind_eq_bind, Option.bind_eq_some_iff,
            Option.some.injEq, Prod.mk.injEq] at hact
          obtain ⟨_, _, _, rfl, _⟩ := hact
          exact hkept hlive
      | newWriter =>
          simp only [SequenceAct.perform, Option.bind_eq_bind, Option.bind_eq_some_iff,
            Option.some.injEq, Prod.mk.injEq] at hact
          obtain ⟨context, hcontext, -, rfl, rfl⟩ := hact
          rcases live_set hlive with ⟨rfl, heq⟩ | ⟨-, hold⟩
          · cases heq
            exact .opened context hcontext rfl rfl rfl
          · exact hkept hold
      | markInitialized =>
          simp only [SequenceAct.perform, Option.bind_eq_bind, Option.bind_eq_some_iff,
            Option.some.injEq, Prod.mk.injEq] at hact
          obtain ⟨context, hcontext, -, rfl, rfl⟩ := hact
          rcases live_set hlive with ⟨rfl, heq⟩ | ⟨-, hold⟩
          · cases heq
            exact .marked context hcontext rfl rfl rfl
          · exact hkept hold
      | cacheCounterTrack name uuid =>
          simp only [SequenceAct.perform, Option.bind_eq_bind, Option.bind_eq_some_iff,
            Option.some.injEq, Prod.mk.injEq] at hact
          obtain ⟨context, hcontext, -, rfl, rfl⟩ := hact
          rcases live_set hlive with ⟨rfl, heq⟩ | ⟨-, hold⟩
          · cases heq
            exact .cached context hcontext rfl name uuid rfl rfl
          · exact hkept hold
      | timestamp =>
          simp only [SequenceAct.perform, Option.bind_eq_bind, Option.bind_eq_some_iff,
            Option.some.injEq, Prod.mk.injEq] at hact
          obtain ⟨context, hcontext, -, rfl, -⟩ := hact
          rcases live_set hlive with ⟨rfl, heq⟩ | ⟨-, hold⟩
          · cases heq
            exact .stamped context hcontext rfl rfl rfl
          · exact hkept hold
      | write span calledAt content =>
          simp only [SequenceAct.perform, Option.bind_eq_bind, Option.bind_eq_some_iff,
            Option.some.injEq, Prod.mk.injEq] at hact
          obtain ⟨context, hcontext, timestamp, htimestamp, writer, hwrite, written, hlast, -, rfl,
            rfl⟩ := hact
          rcases live_set hlive with ⟨rfl, heq⟩ | ⟨-, hold⟩
          · cases heq
            exact .wrote context hcontext rfl span calledAt content rfl timestamp htimestamp writer
              written (writeContent_finishes hwrite hlast) rfl rfl
          · exact hkept hold

theorem perform_content {span : Option Nat} {calledAt : Nat} {content : Content} {reply : Unit}
    (h : perform env thread (.sequence (.write span calledAt content)) choice state =
      some (reply, state')) :
    ∃ context writer timestamp written, state.contexts.live thread = some context ∧
      context.writer.timestampNs = some timestamp ∧
      writeContent env choice.answers content context.writer = some writer ∧
      writer.written.getLast? = some written ∧
      state'.contexts =
        state.contexts.set thread (.live { context with writer := writer }) ∧
      state'.trace.packets = state.trace.packets ++
        [⟨thread, span, content, timestamp, calledAt, context.openedAt, state.time, written⟩] := by
  simp only [perform, SequenceAct.perform, Option.bind_eq_bind, Option.bind_eq_some_iff,
    Option.some.injEq, Prod.mk.injEq] at h
  obtain ⟨_, ⟨context, hlive, timestamp, htimestamp, writer, hwrite, written, hlast, rfl⟩, -,
    rfl⟩ := h
  exact ⟨context, writer, timestamp, written, hlive, htimestamp, hwrite, hlast, rfl, rfl⟩

theorem perform_finishes {span : Option Nat} {calledAt : Nat} {content : Content} {reply : Unit}
    (h : perform env thread (.sequence (.write span calledAt content)) choice state =
      some (reply, state')) :
    ∃ context writer timestamp written, state.contexts.live thread = some context ∧
      context.writer.timestampNs = some timestamp ∧
      Finishes env choice.answers content context.writer writer written ∧
      state'.trace.packets = state.trace.packets ++
        [⟨thread, span, content, timestamp, calledAt, context.openedAt, state.time, written⟩] := by
  obtain ⟨context, writer, timestamp, written, hlive, htimestamp, hwrite, hlast, -, hpackets⟩ :=
    perform_content h
  exact ⟨context, writer, timestamp, written, hlive, htimestamp,
    writeContent_finishes hwrite hlast, hpackets⟩

end Contexts

end TracingPerfetto.Layer
