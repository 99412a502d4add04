import TracingPerfetto.LayerSequences
import TracingPerfetto.LayerSpans

/-!
The timestamps of the packets: each is a reading of the clock that the callback has taken
after the packets of the thread before it, so a sequence never goes back in time, whatever
the formatters of the user do in between.
-/

namespace TracingPerfetto.Layer

open TracingPerfetto.Runtime TracingPerfetto.Sequence TracingPerfetto.TrackEvents
open TracingPerfetto.Counters TracingPerfetto.Threads
open TracingPerfetto.SequenceRuns
open TracingPerfetto.SpanStore (SpanId)

/-- The raw clock does not go back, whoever reads it. -/
def Trace.Monotone (trace : Trace) : Prop :=
  ∀ reading ∈ trace.readings, ∀ later ∈ trace.readings, reading.1 ≤ later.1 →
    reading.2 ≤ later.2

/-- The timestamp that a writer has taken is a reading, and no packet of the thread has a
later one. -/
structure ThreadCtx.Dated (state : State) (thread : ThreadId) (context : ThreadCtx)
    (raw : Nat) : Prop where
  read : (context.openedAt, raw) ∈ state.trace.readings
  before : context.openedAt < state.time
  latest : ∀ packet ∈ state.trace.packets, packet.thread = thread →
    packet.openedAt ≤ context.openedAt

structure Emitted.Dated (state : State) (packet : Emitted) : Prop where
  read : (packet.openedAt, packet.timestamp) ∈ state.trace.readings
  opened : packet.openedAt ≤ packet.writtenAt
  before : packet.writtenAt < state.time

/-- Packets in the order in which they are written. -/
structure Emitted.Follows (packet later : Emitted) : Prop where
  writtenAt : packet.writtenAt < later.writtenAt
  openedAt : packet.thread = later.thread → packet.openedAt ≤ later.openedAt

structure Dates (state : State) : Prop where
  live : ∀ thread context, state.contexts.live thread = some context →
    ∀ raw, context.writer.timestampNs = some raw → context.Dated state thread raw
  packets : ∀ packet ∈ state.trace.packets, packet.Dated state
  ordered : state.trace.packets.Pairwise Emitted.Follows

section Dates

variable {env : Env} {state state' : State} {thread : ThreadId} {choice : Choice}

theorem readings_mono {action : Act} {reply : action.Reply}
    (h : perform env thread action choice state = some (reply, state')) {reading : Nat × Nat}
    (hmem : reading ∈ state.trace.readings) : reading ∈ state'.trace.readings := by
  cases action with
  | shared | pools | format | registry =>
      simp only [perform, Option.some.injEq, Prod.mk.injEq] at h
      rw [← h.2]
      exact hmem
  | spans | context =>
      simp only [perform, Option.bind_eq_bind, Option.bind_eq_some_iff, Option.some.injEq,
        Prod.mk.injEq] at h
      obtain ⟨_, _, _, rfl⟩ := h
      exact hmem
  | sequence act =>
      simp only [perform, Option.bind_eq_bind, Option.bind_eq_some_iff, Option.some.injEq,
        Prod.mk.injEq] at h
      obtain ⟨⟨_, contexts, trace⟩, hact, -, rfl⟩ := h
      cases act with
      | readClock =>
          simp only [SequenceAct.perform, Option.some.injEq, Prod.mk.injEq] at hact
          rw [← hact.2.2]
          exact List.mem_append_left _ hmem
      | timestamp =>
          simp only [SequenceAct.perform, Option.bind_eq_bind, Option.bind_eq_some_iff,
            Option.some.injEq, Prod.mk.injEq] at hact
          obtain ⟨context, -, -, -, rfl⟩ := hact
          simp only
          split
          · exact hmem
          · exact List.mem_append_left _ hmem
      | write span calledAt content =>
          simp only [SequenceAct.perform, Option.bind_eq_bind, Option.bind_eq_some_iff,
            Option.some.injEq, Prod.mk.injEq] at hact
          obtain ⟨_, _, _, _, _, _, _, _, _, _, rfl⟩ := hact
          exact hmem
      | _ =>
          simp only [SequenceAct.perform, Option.bind_eq_bind, Option.bind_eq_some_iff,
            Option.some.injEq, Prod.mk.injEq] at hact
          obtain ⟨context, -, -, -, rfl⟩ := hact
          exact hmem

theorem timestamp_reads {context : ThreadCtx} {reply : Unit}
    (h : perform env thread (.sequence .timestamp) choice state = some (reply, state'))
    (hlive : state.contexts.live thread = some context)
    (hnone : context.writer.timestampNs = none) :
    (state.time, choice.answers.rawClock) ∈ state'.trace.readings := by
  simp only [perform, SequenceAct.perform, Option.bind_eq_bind, Option.bind_eq_some_iff,
    Option.some.injEq, Prod.mk.injEq] at h
  obtain ⟨_, ⟨found, hfound, -, -, rfl⟩, -, rfl⟩ := h
  rw [hlive, Option.some.injEq] at hfound
  subst hfound
  simp [hnone]

theorem packet_written {span : Option Nat} {calledAt : Nat} {content : Content} {reply : Unit}
    (hperform : perform env thread (.sequence (.write span calledAt content)) choice state =
      some (reply, state')) :
    ∃ context packet, state.contexts.live thread = some context ∧
      state'.trace.packets = state.trace.packets ++ [packet] ∧ packet.thread = thread ∧
      packet.calledAt = calledAt ∧ packet.openedAt = context.openedAt := by
  simp only [perform, SequenceAct.perform, Option.bind_eq_bind, Option.bind_eq_some_iff,
    Option.some.injEq, Prod.mk.injEq] at hperform
  obtain ⟨_, ⟨context, hcontext, timestamp, -, writer, -, written, -, rfl⟩, -, rfl⟩ := hperform
  exact ⟨context, _, hcontext, rfl, rfl, rfl, rfl⟩

/-- The packets after a step are dated, if the writers before it are. -/
theorem Dates.packets_step (h : Dates state) {action : Act} {reply : action.Reply}
    (hperform : perform env thread action choice state = some (reply, state')) :
    (∀ packet ∈ state'.trace.packets, packet.Dated state') ∧
      state'.trace.packets.Pairwise Emitted.Follows := by
  have htime := perform_time hperform
  have hkept : ∀ packet ∈ state.trace.packets, packet.Dated state' := by
    intro packet hmem
    obtain ⟨hread, hopened, hbefore⟩ := h.packets packet hmem
    exact ⟨readings_mono hperform hread, hopened, by omega⟩
  by_cases hwrite : ∃ span calledAt content, action = .sequence (.write span calledAt content)
  · obtain ⟨span, calledAt, content, rfl⟩ := hwrite
    obtain ⟨context, writer, timestamp, written, hlive, htimestamp, -, hpackets⟩ :=
      perform_finishes hperform
    obtain ⟨hread, hbefore, hlatest⟩ := h.live thread context hlive timestamp htimestamp
    rw [hpackets]
    constructor
    · intro packet hmem
      rcases List.mem_append.1 hmem with hold | hnew
      · exact hkept packet hold
      · rw [List.mem_singleton] at hnew
        subst hnew
        exact ⟨readings_mono hperform hread, hbefore.le, htime ▸ Nat.lt_succ_self _⟩
    · rw [List.pairwise_append]
      refine ⟨h.ordered, List.pairwise_singleton _ _, fun packet hmem later hlater => ?_⟩
      rw [List.mem_singleton] at hlater
      subst hlater
      exact ⟨(h.packets packet hmem).before, hlatest packet hmem⟩
  · rw [perform_packets hperform
      fun span calledAt content heq => hwrite ⟨span, calledAt, content, heq⟩]
    exact ⟨hkept, h.ordered⟩

theorem Dates.live_step (h : Dates state) {action : Act} {reply : action.Reply}
    (hperform : perform env thread action choice state = some (reply, state'))
    {other : ThreadId} {context' : ThreadCtx}
    (hlive : state'.contexts.live other = some context') {raw : Nat}
    (hraw : context'.writer.timestampNs = some raw) : context'.Dated state' other raw := by
  have htime := perform_time hperform
  -- a writer that keeps its timestamp, where no packet is written
  have hkept : ∀ context, state.contexts.live other = some context →
      context.writer.timestampNs = some raw → context'.openedAt = context.openedAt →
      state'.trace.packets = state.trace.packets → context'.Dated state' other raw := by
    intro context hcontext hsame hopened hpackets
    obtain ⟨hread, hbefore, hlatest⟩ := h.live other context hcontext raw hsame
    refine ⟨?_, by omega, ?_⟩
    · rw [hopened]
      exact readings_mono hperform hread
    · rw [hpackets, hopened]
      exact hlatest
  cases context_after hperform hlive with
  | kept context hcontext hwriter hopened htrack =>
      rw [hwriter] at hraw
      by_cases hwrite : ∃ span calledAt content, action = .sequence (.write span calledAt content)
      · obtain ⟨span, calledAt, content, rfl⟩ := hwrite
        obtain ⟨written, writer, timestamp, bytes, hwrites, htimestamp, -, hpackets⟩ :=
          perform_finishes hperform
        obtain ⟨hread, hbefore, hlatest⟩ := h.live other context hcontext raw hraw
        rw [← hopened] at hread hbefore hlatest
        refine ⟨readings_mono hperform hread, by omega, fun packet hmem hthread => ?_⟩
        rw [hpackets] at hmem
        rcases List.mem_append.1 hmem with hold | hnew
        · exact hlatest packet hold hthread
        · rw [List.mem_singleton] at hnew
          subst hnew
          change thread = other at hthread
          subst hthread
          rw [hcontext, Option.some.injEq] at hwrites
          rw [hopened, hwrites]
      · exact hkept context hcontext hraw hopened (perform_packets hperform
          fun span calledAt content heq => hwrite ⟨span, calledAt, content, heq⟩)
  | inserted sequenceId uuid anchor hother haction heq =>
      subst heq
      cases hraw
  | opened context hcontext hother haction heq =>
      subst heq
      cases hraw
  | marked context hcontext hother haction heq =>
      subst heq haction
      exact hkept context hcontext hraw rfl (perform_packets hperform (by simp))
  | cached context hcontext hother name uuid haction heq =>
      subst heq haction
      exact hkept context hcontext hraw rfl (perform_packets hperform (by simp))
  | stamped context hcontext hother haction heq =>
      subst haction hother
      have hpackets : state'.trace.packets = state.trace.packets :=
        perform_packets hperform (by simp)
      cases hbefore : context.writer.timestampNs with
      | some old =>
          have hsame : context.timestamp state.time choice.answers = context := by
            rw [ThreadCtx.timestamp, hbefore]
          rw [hsame] at heq
          subst heq
          exact hkept _ hcontext hraw rfl hpackets
      | none =>
          have hread := timestamp_reads hperform hcontext hbefore
          rw [ThreadCtx.timestamp, hbefore] at heq
          subst heq
          cases hraw
          refine ⟨hread, htime ▸ Nat.lt_succ_self _, fun packet hmem hthread => ?_⟩
          rw [hpackets] at hmem
          obtain ⟨-, hopened, hwritten⟩ := h.packets packet hmem
          exact hopened.trans hwritten.le
  | wrote context hcontext hother span calledAt content haction timestamp htimestamp writer written
      hfinishes heq htrace =>
      subst heq hother
      have hsame := hfinishes.timestampNs timestamp htimestamp
      rw [hsame, Option.some.injEq] at hraw
      subst hraw
      obtain ⟨hread, hbefore, hlatest⟩ := h.live other context hcontext timestamp htimestamp
      refine ⟨readings_mono hperform hread, ?_, fun packet hmem hthread => ?_⟩
      · change context.openedAt < state'.time
        omega
      · rw [htrace] at hmem
        rcases List.mem_append.1 hmem with hold | hnew
        · exact hlatest packet hold hthread
        · rw [List.mem_singleton] at hnew
          subst hnew
          exact le_rfl

end Dates

theorem dates_kept (env : Env) : KeepsInv env AnyCall Always fun state _ => Dates state where
  act := by
    intro state frames thread frame rest action choice reply state' _ h _ _ hperform _
    obtain ⟨hpackets, hordered⟩ := h.packets_step hperform
    exact ⟨fun _ _ hlive _ hraw => h.live_step hperform hlive hraw, hpackets, hordered⟩
  ret := fun _ h _ _ _ => h
  call := by
    intro state frames thread call prog state' _ h _ _ hcall _
    simp only [system, Layer.call, Option.bind_eq_bind, Option.bind_eq_some_iff,
      Option.some.injEq, Prod.mk.injEq] at hcall
    obtain ⟨_, -, -, rfl⟩ := hcall
    refine ⟨fun thread context hlive raw hraw => ?_, fun packet hmem => ?_, h.ordered⟩
    · obtain ⟨hread, hbefore, hlatest⟩ := h.live thread context hlive raw hraw
      exact ⟨hread, Nat.lt_succ_of_lt hbefore, hlatest⟩
    · obtain ⟨hread, hopened, hbefore⟩ := h.packets packet hmem
      exact ⟨hread, hopened, Nat.lt_succ_of_lt hbefore⟩

theorem dates_new (nextSequenceId : Nat) : Dates (State.new nextSequenceId) where
  live := fun _ _ hlive => by cases hlive
  packets := fun _ hmem => by cases hmem
  ordered := .nil

theorem Dates.timestamp_le {state : State} (h : Dates state) (hclock : state.trace.Monotone)
    {before middle after : List Emitted} {packet later : Emitted}
    (hpackets : state.trace.packets = before ++ packet :: middle ++ later :: after)
    (hthread : packet.thread = later.thread) : packet.timestamp ≤ later.timestamp := by
  have hfollows : packet.Follows later := by
    have hordered := h.ordered
    rw [hpackets, List.pairwise_append] at hordered
    exact hordered.2.2 packet (by simp) later List.mem_cons_self
  have hread := (h.packets packet (by simp [hpackets])).read
  have hlater := (h.packets later (by simp [hpackets])).read
  exact hclock _ hread _ hlater (hfollows.openedAt hthread)

end TracingPerfetto.Layer
