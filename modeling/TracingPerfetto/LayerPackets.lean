import TracingPerfetto.FieldNames
import TracingPerfetto.LayerSequences
import TracingPerfetto.LayerSpans

/-!
The packets of the layer, as their reader has them. Every packet in the trace is the work of
a writer, so that its fields say what the callback wrote it for.
-/

namespace TracingPerfetto.Layer

open TracingPerfetto.Wire (Field)
open TracingPerfetto.Proto (Op)
open TracingPerfetto.Schema
open TracingPerfetto.Runtime TracingPerfetto.Sequence TracingPerfetto.TrackEvents
open TracingPerfetto.Counters TracingPerfetto.Threads
open TracingPerfetto.PacketFields

/-! ## What is read -/

def Emitted.fields (packet : Emitted) : List Field := Op.fields packet.written.calls

def Emitted.kind (packet : Emitted) : Option Kind := readKind packet.fields

def Emitted.ends (packet : Emitted) : List FlowEnd := flowEnds packet.fields

/-! ## What is written -/

/-- The start of the flow that the polls of a span share. -/
def Content.pollEnds (env : Env) : Content → List FlowEnd
  | .body (.threadBegin _ _ pollFlowId _) | .body (.pollBegin _ pollFlowId _) =>
      PacketFields.pollEnds env.bases pollFlowId
  | _ => []

/-- The fields say what the packet was written for. -/
structure Emitted.Reads (env : Env) (packet : Emitted) : Prop where
  ends : packet.ends =
    packet.content.pollEnds env ++ packet.content.flows.map (endOf env.bases)
  body : ∀ body, packet.content = .body body →
    packet.kind = some (kindOf env.memory env.bases body)
  snapshot : packet.content = .clockSnapshot → ∃ clocks,
    ClockSnapshot.customClockId ∈ clocks ∧ packet.kind = some (.snapshot clocks)
  process : ∀ uuid, packet.content = .processDescriptor uuid →
    packet.kind = some (.process (env.bases.uuid uuid))
  thread : packet.content = .threadDescriptor → ∃ answers uuid,
    packet.written.body = SequenceWriter.threadDescriptorCalls answers uuid ∧
      packet.kind = some (.thread uuid)

/-- A writer has finished the packet. -/
def Emitted.Finished (env : Env) (packet : Emitted) : Prop :=
  ∃ answers writer writer', Finishes env answers packet.content writer writer' packet.written

section Reads

variable {env : Env} {packet : Emitted}

theorem Emitted.Finished.enclosed (h : packet.Finished env) : Enclosed packet.written := by
  obtain ⟨answers, writer, writer', hfinishes⟩ := h
  obtain ⟨ready, -, -, answers', raw, hheader⟩ := hfinishes.header
  exact ⟨⟨_, _, _, _, hheader⟩, hfinishes.interned⟩

theorem Emitted.Finished.reads (h : packet.Finished env) : packet.Reads env := by
  have henclosed := h.enclosed
  obtain ⟨answers, writer, writer', hfinishes⟩ := h
  obtain ⟨tables, hbody⟩ := hfinishes.body
  have hkind : packet.kind = readKind (Op.fields packet.written.body) := henclosed.readKind
  have hends : packet.ends = flowEnds (Op.fields packet.written.body) := henclosed.flowEnds
  rw [hbody] at hkind hends
  constructor
  · rw [hends]
    cases hcontent : packet.content with
    | clockSnapshot | processDescriptor | threadDescriptor => rfl
    | body body =>
        rw [Content.encode, (body_reads body tables).2]
        cases body <;> rfl
  · intro body hcontent
    rw [hkind, hcontent, Content.encode, (body_reads body tables).1]
  · intro hcontent
    obtain ⟨clocks, hclock, hreads⟩ := clockSnapshot_reads env.domain answers
      (writer.readSnapshotClock answers).sequence.lastTimestampNs
      (writer.readSnapshotClock answers).sequence.clockAnchorNs
    refine ⟨clocks, hclock, ?_⟩
    rw [hkind, hcontent]
    exact hreads
  · intro uuid hcontent
    rw [hkind, hcontent]
    rfl
  · intro hcontent
    rw [hcontent] at hkind hbody
    exact ⟨_, _, hbody, hkind⟩

theorem kindOf_follows (body : Body) :
    (kindOf env.memory env.bases body).follows = true ∧
      (kindOf env.memory env.bases body).introduces = none := by
  cases body <;> exact ⟨rfl, rfl⟩

/-- A packet that is no descriptor of a process or a thread has a body. -/
theorem Emitted.Reads.follows (h : packet.Reads env) {kind : Kind} (hkind : packet.kind = some kind)
    (hfollows : kind.follows = true) : ∃ body, packet.content = .body body ∧
      kind = kindOf env.memory env.bases body := by
  cases hcontent : packet.content with
  | clockSnapshot =>
      obtain ⟨clocks, -, hshown⟩ := h.snapshot hcontent
      rw [hkind] at hshown
      cases hshown
      cases hfollows
  | processDescriptor uuid =>
      have hshown := h.process uuid hcontent
      rw [hkind] at hshown
      cases hshown
      cases hfollows
  | threadDescriptor =>
      obtain ⟨answers, uuid, -, hshown⟩ := h.thread hcontent
      rw [hkind] at hshown
      cases hshown
      cases hfollows
  | body body =>
      have hshown := h.body body hcontent
      rw [hkind] at hshown
      exact ⟨body, rfl, Option.some.inj hshown⟩

end Reads

/-! ## Runs -/

/-- All packets are the work of writers, and those with flows or for the boundary of a span
are for a span. -/
structure Legible (env : Env) (state : State) : Prop where
  finished : ∀ packet ∈ state.trace.packets, packet.Finished env
  spans : ∀ packet ∈ state.trace.packets, packet.span = none →
    packet.content.flows = [] ∧ packet.content.boundary = false

section Legible

variable {env : Env} {state state' : State}

theorem Legible.reads (h : Legible env state) {packet : Emitted}
    (hmem : packet ∈ state.trace.packets) : packet.Reads env :=
  (h.finished packet hmem).reads

/-- A packet for the boundary of a span is for a span. -/
theorem Legible.span (h : Legible env state) {packet : Emitted}
    (hmem : packet ∈ state.trace.packets) (hboundary : packet.content.boundary = true) :
    ∃ span, packet.span = some span := by
  refine Option.ne_none_iff_exists'.1 fun hnone => ?_
  rw [(h.spans packet hmem hnone).2] at hboundary
  cases hboundary

theorem legible_kept (env : Env) :
    KeepsInv env AnyCall Always fun state _ => Legible env state where
  act := by
    intro state frames thread frame rest action choice reply state' _ h _ hpre hperform _
    by_cases hwrite : ∃ span calledAt content, action = .sequence (.write span calledAt content)
    · obtain ⟨span, calledAt, content, rfl⟩ := hwrite
      obtain ⟨context, writer, timestamp, written, -, -, hfinishes, hpackets⟩ :=
        perform_finishes hperform
      obtain ⟨-, -, -, hspan⟩ := hpre
      constructor
      · rw [hpackets]
        intro packet hmem
        rcases List.mem_append.1 hmem with hold | hnew
        · exact h.finished packet hold
        · rw [List.mem_singleton] at hnew
          subst hnew
          exact ⟨_, _, _, hfinishes⟩
      · rw [hpackets]
        intro packet hmem hnone
        rcases List.mem_append.1 hmem with hold | hnew
        · exact h.spans packet hold hnone
        · rw [List.mem_singleton] at hnew
          subst hnew
          change span = none at hnone
          subst hnone
          exact ⟨hspan.1, hspan.2.1⟩
    · have hpackets := perform_packets hperform
        fun span calledAt content heq => hwrite ⟨span, calledAt, content, heq⟩
      exact ⟨hpackets ▸ h.finished, hpackets ▸ h.spans⟩
  ret := fun _ h _ _ _ => h
  call := by
    intro state frames thread call prog state' _ h _ _ hcall _
    simp only [system, Layer.call, Option.bind_eq_bind, Option.bind_eq_some_iff,
      Option.some.injEq, Prod.mk.injEq] at hcall
    obtain ⟨_, -, -, rfl⟩ := hcall
    exact ⟨h.finished, h.spans⟩

theorem legible_new (env : Env) (nextSequenceId : Nat) :
    Legible env (State.new nextSequenceId) where
  finished := fun _ hmem => by cases hmem
  spans := fun _ hmem => by cases hmem

end Legible

end TracingPerfetto.Layer
