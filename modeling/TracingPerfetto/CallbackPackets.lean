import TracingPerfetto.Pacing
import TracingPerfetto.ProcessDescriptor

/-!
The packets of a callback stand together among those of its thread, with one reading of the
clock for all of them, whatever callbacks its formatters make in the meantime: a callback has
one writer, and as long as it has it no other callback of the thread gets the context.
-/

namespace TracingPerfetto.Layer

open TracingPerfetto.Runtime TracingPerfetto.Sequence TracingPerfetto.TrackEvents
open TracingPerfetto.Counters TracingPerfetto.Threads
open TracingPerfetto.SequenceRuns
open TracingPerfetto.SpanStore (SpanId)

/-! ## The writer of a callback -/

def Act.retimes : Act → Bool
  | .sequence .newWriter | .sequence .timestamp | .context (.insert _ _ _) => true
  | _ => false

section Writers

variable {env : Env} {state state' : State} {thread other : ThreadId} {frame : Frame}
  {action : Act} {choice : Choice} {reply : action.Reply}

theorem retimes_context (hpre : pre env frame action) (h : action.retimes = true) :
    frame.context = true ∨ frame.vacant = true := by
  cases action with
  | sequence act =>
      cases act with
      | newWriter | timestamp => exact .inl hpre.1
      | _ => cases h
  | context act =>
      cases act with
      | insert => exact .inr hpre.1
      | _ => cases h
  | _ => cases h

structure SameTime (context context' : ThreadCtx) : Prop where
  timestampNs : context'.writer.timestampNs = context.writer.timestampNs
  openedAt : context'.openedAt = context.openedAt

theorem sameTime_after {context' : ThreadCtx}
    (hperform : perform env thread action choice state = some (reply, state'))
    (hlive : state'.contexts.live other = some context')
    (hretimes : other = thread → action.retimes = false) :
    ∃ context, state.contexts.live other = some context ∧ SameTime context context' := by
  cases context_after hperform hlive with
  | kept context hcontext hwriter hopened htrack =>
      exact ⟨context, hcontext, congrArg SequenceWriter.timestampNs hwriter, hopened⟩
  | inserted sequenceId uuid anchor hother haction heq =>
      rw [haction] at hretimes
      cases hretimes hother
  | opened context hcontext hother haction heq | stamped context hcontext hother haction heq =>
      rw [haction] at hretimes
      cases hretimes hother
  | marked context hcontext hother haction heq | cached context hcontext hother _ _ haction heq =>
      rw [heq]
      exact ⟨context, hcontext, rfl, rfl⟩
  | wrote context hcontext hother span calledAt content haction timestamp htimestamp writer written
      hfinishes heq htrace =>
      rw [heq]
      exact ⟨context, hcontext,
        (hfinishes.timestampNs timestamp htimestamp).trans htimestamp.symm, rfl⟩

theorem timestamp_after {context' : ThreadCtx} {reply : Unit}
    (hperform : perform env thread (.sequence .timestamp) choice state = some (reply, state'))
    (hlive : state'.contexts.live thread = some context') :
    ∃ context, state.contexts.live thread = some context ∧
      context' = context.timestamp state.time choice.answers := by
  simp only [perform, SequenceAct.perform, Option.bind_eq_bind, Option.bind_eq_some_iff,
    Option.some.injEq, Prod.mk.injEq] at hperform
  obtain ⟨_, ⟨context, hold, -, rfl, -⟩, -, rfl⟩ := hperform
  rcases live_set hlive with ⟨-, heq⟩ | ⟨hother, -⟩
  · cases heq
    exact ⟨context, hold, rfl⟩
  · exact absurd rfl hother

end Writers

/-! ## Packets and callbacks -/

/-- What the callbacks in progress have to do with the packets of their thread. -/
structure Sits (state : State) (thread : ThreadId) (ghost : Frame × Bool × Bool) : Prop where
  called : ghost.1.calledAt < state.time
  closed : ghost.2.1 = false → ghost.1.phase = .closed
  held : ghost.1.phase ≠ .closed → ghost.1.context = true
  unsent : ghost.2.1 = false ∨ ghost.2.2 = false ∧ ghost.1.phase ≠ .closed →
    ∀ packet ∈ state.trace.packets, packet.thread = thread → packet.calledAt ≠ ghost.1.calledAt
  fresh : ghost.2.2 = false → ghost.1.phase ≠ .closed → ∀ context,
    state.contexts.live thread = some context → context.writer.timestampNs = none
  stamped : ghost.2.2 = true → ghost.1.phase ≠ .closed ∧ ∀ context,
    state.contexts.live thread = some context → context.writer.timestampNs ≠ none ∧
      ∀ packet ∈ state.trace.packets, packet.thread = thread →
        (packet.openedAt = context.openedAt ↔ packet.calledAt = ghost.1.calledAt)

section Sits

variable {env : Env} {state state' : State} {thread : ThreadId} {frame frame' : Frame}
  {opened stamped : Bool}

/-- A step that neither opens nor closes the writer of the callback, and sends no packet
of it. -/
theorem Sits.step (h : Sits state thread (frame, opened, stamped))
    (hcalled : frame'.calledAt = frame.calledAt)
    (hphase : frame'.phase = .closed ↔ frame.phase = .closed)
    (hheld : frame.context = true → frame'.context = true) (htime : state'.time = state.time + 1)
    (hpackets : ∀ packet ∈ state'.trace.packets, packet.thread = thread →
      packet ∈ state.trace.packets ∨ packet.calledAt ≠ frame.calledAt ∧ frame.context = false)
    (hcontext : frame.context = true → ∀ context', state'.contexts.live thread = some context' →
      ∃ context, state.contexts.live thread = some context ∧ SameTime context context') :
    Sits state' thread (frame', opened, stamped) where
  called := by
    change frame'.calledAt < state'.time
    rw [hcalled, htime]
    exact Nat.lt_succ_of_lt h.called
  closed := fun hopened => hphase.2 (h.closed hopened)
  held := fun hopen => hheld (h.held fun hclosed => hopen (hphase.2 hclosed))
  unsent := by
    intro hbefore packet hmem hthread
    change packet.calledAt ≠ frame'.calledAt
    rw [hcalled]
    rcases hpackets packet hmem hthread with hold | ⟨hother, -⟩
    · exact h.unsent (hbefore.imp_right fun hfresh =>
        ⟨hfresh.1, fun hclosed => hfresh.2 (hphase.2 hclosed)⟩) packet hold hthread
    · exact hother
  fresh := by
    intro hfresh hopen context' hlive
    have hbefore : frame.phase ≠ .closed := fun hclosed => hopen (hphase.2 hclosed)
    obtain ⟨context, hold, hsame⟩ := hcontext (h.held hbefore) context' hlive
    exact hsame.timestampNs.trans (h.fresh hfresh hbefore context hold)
  stamped := by
    intro hstamped
    obtain ⟨hopen, hwriter⟩ := h.stamped hstamped
    refine ⟨fun hclosed => hopen (hphase.1 hclosed), fun context' hlive => ?_⟩
    obtain ⟨context, hold, hsame⟩ := hcontext (h.held hopen) context' hlive
    obtain ⟨hsome, hiff⟩ := hwriter context hold
    refine ⟨hsame.timestampNs ▸ hsome, fun packet hmem hthread => ?_⟩
    change packet.openedAt = context'.openedAt ↔ packet.calledAt = frame'.calledAt
    rw [hsame.openedAt, hcalled]
    rcases hpackets packet hmem hthread with hmem' | ⟨-, hcontextless⟩
    · exact hiff packet hmem' hthread
    · exact absurd ((h.held hopen).symm.trans hcontextless) (by simp)

theorem Sits.aside {other : ThreadId} {ghost : Frame × Bool × Bool} {action : Act}
    {choice : Choice} {reply : action.Reply} (h : Sits state other ghost)
    (hpre : pre env frame action)
    (hperform : perform env thread action choice state = some (reply, state'))
    (hapart : other = thread → ghost.1.calledAt ≠ frame.calledAt ∧
      (ghost.1.context = true → frame.context = false ∧ frame.vacant = false)) :
    Sits state' other ghost := by
  rcases ghost with ⟨value, opened, stamped⟩
  refine h.step rfl Iff.rfl id (perform_time hperform) ?_ ?_
  · intro packet hmem hthread
    by_cases hwrite : ∃ span calledAt content, action = .sequence (.write span calledAt content)
    · obtain ⟨span, calledAt, content, rfl⟩ := hwrite
      obtain ⟨hcontext, hcalledAt, -⟩ := hpre
      obtain ⟨-, written, -, hpackets, hwritten, hwrittenBy, -⟩ := packet_written hperform
      rw [hpackets, List.mem_append, List.mem_singleton] at hmem
      rcases hmem with hold | rfl
      · exact .inl hold
      · obtain ⟨hother, hheld⟩ := hapart (hthread.symm.trans hwritten)
        refine .inr ⟨fun heq => hother (heq.symm.trans (hwrittenBy.trans hcalledAt)), ?_⟩
        by_contra hvalue
        rw [Bool.not_eq_false] at hvalue
        exact absurd (hcontext.symm.trans (hheld hvalue).1) (by simp)
    · rw [perform_packets hperform
        fun span calledAt content heq => hwrite ⟨span, calledAt, content, heq⟩] at hmem
      exact .inl hmem
  · intro hvalue context' hlive
    refine sameTime_after hperform hlive fun heq => ?_
    by_contra hretimes
    rw [Bool.not_eq_false] at hretimes
    obtain ⟨hcontext, hvacant⟩ := (hapart heq).2 hvalue
    rcases retimes_context hpre hretimes with hheld | hheld
    · exact absurd (hheld.symm.trans hcontext) (by simp)
    · exact absurd (hheld.symm.trans hvacant) (by simp)

section Act

variable {action : Act} {choice : Choice} {reply : action.Reply}

theorem Sits.quiet (h : Sits state thread (frame, opened, stamped))
    (hperform : perform env thread action choice state = some (reply, state'))
    (hphase : (next frame action reply).phase = .closed ↔ frame.phase = .closed)
    (hheld : frame.context = true → (next frame action reply).context = true)
    (hretimes : action.retimes = false)
    (hwrite : ∀ span calledAt content, action ≠ .sequence (.write span calledAt content)) :
    Sits state' thread (next frame action reply, opened, stamped) := by
  refine h.step (next_call action reply).calledAt hphase hheld (perform_time hperform) ?_ ?_
  · intro packet hmem _
    rw [perform_packets hperform hwrite] at hmem
    exact .inl hmem
  · exact fun _ context' hlive => sameTime_after hperform hlive fun _ => hretimes

/-- The callback has no writer after the action. -/
theorem Sits.without (h : Sits state thread (frame, opened, stamped))
    (hperform : perform env thread action choice state = some (reply, state'))
    (hphase : (next frame action reply).phase = .closed)
    (hwrite : ∀ span calledAt content, action ≠ .sequence (.write span calledAt content)) :
    Sits state' thread (next frame action reply, opened, false) where
  called := by
    change (next frame action reply).calledAt < state'.time
    rw [(next_call action reply).calledAt, perform_time hperform]
    exact Nat.lt_succ_of_lt h.called
  closed := fun _ => hphase
  held := fun hopen => absurd hphase hopen
  unsent := by
    intro hbefore packet hmem hthread
    change packet.calledAt ≠ (next frame action reply).calledAt
    rw [(next_call action reply).calledAt]
    rw [perform_packets hperform hwrite] at hmem
    rcases hbefore with hopened | ⟨-, hopen⟩
    · exact h.unsent (.inl hopened) packet hmem hthread
    · exact absurd hphase hopen
  fresh := fun _ hopen => absurd hphase hopen
  stamped := fun hstamped => by cases hstamped

end Act

theorem Sits.newWriter {choice : Choice} {reply : Unit}
    (h : Sits state thread (frame, false, stamped)) (hcontext : frame.context = true)
    (hperform : perform env thread (.sequence .newWriter) choice state = some (reply, state')) :
    Sits state' thread ({ frame with phase := .fresh }, true, false) where
  called := by
    change frame.calledAt < state'.time
    rw [perform_time hperform]
    exact Nat.lt_succ_of_lt h.called
  closed := fun hopened => by cases hopened
  held := fun _ => hcontext
  unsent := by
    intro _ packet hmem hthread
    rw [perform_packets hperform (by simp)] at hmem
    exact h.unsent (.inl rfl) packet hmem hthread
  fresh := by
    intro _ _ context' hlive
    simp only [perform, SequenceAct.perform, Option.bind_eq_bind, Option.bind_eq_some_iff,
      Option.some.injEq, Prod.mk.injEq] at hperform
    obtain ⟨_, ⟨context, -, -, rfl, -⟩, -, rfl⟩ := hperform
    rcases live_set hlive with ⟨-, heq⟩ | ⟨hother, -⟩
    · cases heq
      rfl
    · exact absurd rfl hother
  stamped := fun hstamped => by cases hstamped

/-- The first timestamp of a writer is later than all packets of the thread. -/
theorem Sits.timestamp {choice : Choice} {reply : Unit} {frame' : Frame}
    (h : Sits state thread (frame, opened, stamped)) (hopen : frame.phase ≠ .closed)
    (hdated : ∀ packet ∈ state.trace.packets, packet.openedAt < state.time)
    (hcalled : frame'.calledAt = frame.calledAt) (hcontext : frame'.context = frame.context)
    (hphase : frame'.phase ≠ .closed)
    (hperform : perform env thread (.sequence .timestamp) choice state = some (reply, state')) :
    Sits state' thread (frame', opened, true) where
  called := by
    change frame'.calledAt < state'.time
    rw [hcalled, perform_time hperform]
    exact Nat.lt_succ_of_lt h.called
  closed := fun hopened => absurd (h.closed hopened) hopen
  held := fun _ => hcontext.trans (h.held hopen)
  unsent := by
    rintro (hopened | ⟨hstamped, -⟩)
    · exact absurd (h.closed hopened) hopen
    · cases hstamped
  fresh := fun hstamped => by cases hstamped
  stamped := by
    refine fun _ => ⟨hphase, fun context' hlive => ?_⟩
    have hpackets := perform_packets hperform (by simp)
    obtain ⟨context, hold, rfl⟩ := timestamp_after hperform hlive
    cases hstamped : stamped with
    | true =>
        obtain ⟨hsome, hiff⟩ := (h.stamped hstamped).2 context hold
        obtain ⟨raw, hraw⟩ := Option.ne_none_iff_exists'.1 hsome
        have hsame : context.timestamp state.time choice.answers = context := by
          simp only [ThreadCtx.timestamp, hraw]
        rw [hsame, hpackets]
        refine ⟨hsome, fun packet hmem hthread => ?_⟩
        change _ ↔ packet.calledAt = frame'.calledAt
        rw [hcalled]
        exact hiff packet hmem hthread
    | false =>
        have hnone := h.fresh hstamped hopen context hold
        simp only [ThreadCtx.timestamp, hnone]
        refine ⟨by simp, fun packet hmem hthread => ?_⟩
        rw [hpackets] at hmem
        have hlater := hdated packet hmem
        have hother := h.unsent (.inr ⟨hstamped, hopen⟩) packet hmem hthread
        change packet.openedAt = state.time ↔ packet.calledAt = frame'.calledAt
        rw [hcalled]
        exact ⟨fun heq => absurd heq hlater.ne, fun heq => absurd heq hother⟩

theorem Sits.write {choice : Choice} {reply : Unit} {frame' : Frame} {span : Option Nat}
    {content : Content} (h : Sits state thread (frame, opened, true))
    (hcalled : frame'.calledAt = frame.calledAt) (hcontext : frame'.context = frame.context)
    (hphase : frame'.phase ≠ .closed)
    (hperform : perform env thread (.sequence (.write span frame.calledAt content)) choice state =
      some (reply, state')) :
    Sits state' thread (frame', opened, true) where
  called := by
    change frame'.calledAt < state'.time
    rw [hcalled, perform_time hperform]
    exact Nat.lt_succ_of_lt h.called
  closed := fun hopened => absurd (h.closed hopened) (h.stamped rfl).1
  held := fun _ => hcontext.trans (h.held (h.stamped rfl).1)
  unsent := by
    rintro (hopened | ⟨hstamped, -⟩)
    · exact absurd (h.closed hopened) (h.stamped rfl).1
    · cases hstamped
  fresh := fun hstamped => by cases hstamped
  stamped := by
    refine fun _ => ⟨hphase, fun context' hlive => ?_⟩
    obtain ⟨context, written, hold, hpackets, -, hcalledAt, hopenedAt⟩ := packet_written hperform
    obtain ⟨before, hbefore, hsame⟩ := sameTime_after hperform hlive fun _ => rfl
    rw [hold, Option.some.injEq] at hbefore
    subst hbefore
    obtain ⟨hsome, hiff⟩ := (h.stamped rfl).2 context hold
    refine ⟨hsame.timestampNs ▸ hsome, fun packet hmem hthread => ?_⟩
    change packet.openedAt = context'.openedAt ↔ packet.calledAt = frame'.calledAt
    rw [hsame.openedAt, hcalled]
    rw [hpackets, List.mem_append, List.mem_singleton] at hmem
    rcases hmem with hmem | rfl
    · exact hiff packet hmem hthread
    · exact ⟨fun _ => hcalledAt, fun _ => hopenedAt⟩

theorem Sits.act {action : Act} {choice : Choice} {reply : action.Reply}
    (h : Sits state thread (frame, opened, stamped))
    (hdated : ∀ packet ∈ state.trace.packets, packet.openedAt < state.time)
    (hpre : pre env frame action) (hsingle : single.pre opened action)
    (hpacing : pacing.pre stamped action)
    (hperform : perform env thread action choice state = some (reply, state')) :
    Sits state' thread (next frame action reply,
      (single.both pacing).next (opened, stamped) action reply) := by
  have hsame : opened = (opened || false) := (Bool.or_false opened).symm
  cases hstarts : action.starts with
  | false =>
      obtain ⟨hphase, hheld⟩ := next_phase frame action reply hstarts
      have hghost : (single.both pacing).next (opened, stamped) action reply =
          (opened, stamped) := by
        cases action with
        | sequence act => cases act <;> first | exact congrArg₂ _ hsame.symm rfl | cases hstarts
        | context act => cases act <;> first | exact congrArg₂ _ hsame.symm rfl | cases hstarts
        | _ => exact congrArg₂ _ hsame.symm rfl
      rw [hghost]
      refine h.quiet hperform (by rw [hphase]) hheld ?_ ?_
      · cases action with
        | sequence act => cases act <;> first | rfl | cases hstarts
        | context act => cases act <;> first | rfl | cases hstarts
        | _ => rfl
      · rintro span calledAt content rfl
        cases hstarts
  | true =>
      cases action with
      | shared act =>
          change Sits state' thread (_, opened || false, stamped)
          rw [← hsame]
          cases act with
          | claimProcessDescriptor =>
              have hopened : frame.phase = .opened := hpre
              refine h.quiet hperform ?_ id rfl (by simp)
              cases reply <;> simp [next, hopened]
          | processTrackUuid =>
              refine h.quiet hperform ?_ id rfl (by simp)
              change (if frame.phase = .claimed then Phase.named reply else frame.phase) = _ ↔ _
              split
              · rename_i hclaimed
                simp [hclaimed]
              · exact Iff.rfl
          | _ => cases hstarts
      | context act =>
          cases act with
          | dropGuard =>
              change Sits state' thread (_, opened || false, false)
              rw [← hsame]
              exact h.without hperform rfl (by simp)
          | insert sequenceId uuid anchor =>
              change Sits state' thread (_, opened || false, false)
              rw [← hsame]
              exact h.without hperform hpre.2.2 (by simp)
          | _ => cases hstarts
      | sequence act =>
          cases act with
          | newWriter =>
              obtain rfl : opened = false := hsingle rfl
              exact h.newWriter hpre.1 hperform
          | initialized =>
              change Sits state' thread (_, opened || false, stamped)
              rw [← hsame]
              obtain ⟨-, hphase⟩ := hpre
              have hopen : frame.phase ≠ .closed := by
                rcases hphase with hphase | hphase <;> simp [hphase]
              refine h.quiet hperform ⟨fun hclosed => ?_, fun hclosed => absurd hclosed hopen⟩ id
                rfl (by simp)
              cases reply <;> cases hclosed
          | markInitialized =>
              change Sits state' thread (_, opened || false, stamped)
              rw [← hsame]
              obtain ⟨-, hphase⟩ := hpre
              exact h.quiet hperform (by simp [next, hphase]) id rfl (by simp)
          | timestamp =>
              change Sits state' thread (_, opened || false, true)
              rw [← hsame]
              obtain ⟨-, hphase⟩ := hpre
              refine h.timestamp ?_ hdated rfl rfl ?_ hperform
              · rcases hphase with hphase | hphase <;> simp [hphase]
              · rcases hphase with hphase | hphase <;> simp [next, hphase]
          | write span calledAt content =>
              obtain rfl : stamped = true := hpacing rfl
              change Sits state' thread (_, opened || false, true)
              rw [← hsame]
              obtain ⟨-, rfl, hemits, -⟩ := hpre
              obtain ⟨hcall, -, hcontext, -⟩ := wrote_same frame content
              refine h.write hcall.calledAt hcontext.context ?_ hperform
              rcases content with _ | uuid | _ | body
              · exact fun hclosed => by cases hclosed
              · exact fun hclosed => by cases hclosed
              · exact fun hclosed => by cases hclosed
              · have hready : frame.phase = .ready := hemits.1
                cases body <;> simp [next, Frame.wrote, hready]
          | _ => cases hstarts
      | _ => cases hstarts

end Sits

/-- The packets of a thread by callbacks: those with one reading of the clock are those of
one callback. -/
structure Grouped (state : State) (ghosts : ThreadId → List (Frame × Bool × Bool)) : Prop where
  frames : Every (Sits state) ghosts
  nested : ∀ thread, (ghosts thread).Pairwise fun ghost below =>
    below.1.calledAt < ghost.1.calledAt
  called : ∀ packet ∈ state.trace.packets, packet.calledAt < state.time
  together : ∀ packet ∈ state.trace.packets, ∀ later ∈ state.trace.packets,
    packet.thread = later.thread →
      (packet.openedAt = later.openedAt ↔ packet.calledAt = later.calledAt)

theorem grouped_new (nextSequenceId : Nat) : Grouped (State.new nextSequenceId) fun _ => [] where
  frames := fun _ _ hmem => by cases hmem
  nested := fun _ => .nil
  called := fun _ hmem => by cases hmem
  together := fun _ hmem => by cases hmem

theorem Grouped.packets_step {env : Env} {state state' : State}
    {ghosts : ThreadId → List (Frame × Bool × Bool)} {thread : ThreadId} {frame : Frame}
    {opened stamped : Bool} {action : Act} {choice : Choice} {reply : action.Reply}
    (h : Grouped state ghosts) (hsits : Sits state thread (frame, opened, stamped))
    (hpre : pre env frame action) (hpacing : pacing.pre stamped action)
    (hperform : perform env thread action choice state = some (reply, state')) :
    (∀ packet ∈ state'.trace.packets, packet.calledAt < state'.time) ∧
      ∀ packet ∈ state'.trace.packets, ∀ later ∈ state'.trace.packets,
        packet.thread = later.thread →
          (packet.openedAt = later.openedAt ↔ packet.calledAt = later.calledAt) := by
  by_cases hwrite : ∃ span calledAt content, action = .sequence (.write span calledAt content)
  · obtain ⟨span, calledAt, content, rfl⟩ := hwrite
    obtain ⟨-, hcalled, -⟩ := hpre
    obtain ⟨context, written, hlive, hpackets, hwrittenBy, hwritten, hopened⟩ :=
      packet_written hperform
    obtain ⟨-, hiff⟩ := (hsits.stamped (hpacing rfl)).2 context hlive
    have hnew : ∀ packet ∈ state.trace.packets, packet.thread = written.thread →
        (packet.openedAt = written.openedAt ↔ packet.calledAt = written.calledAt) := by
      intro packet hold hsame
      rw [hopened, hwritten, hcalled]
      exact hiff packet hold (hsame.trans hwrittenBy)
    rw [hpackets, perform_time hperform]
    refine ⟨fun packet hmem => ?_, fun packet hmem later hlater hsame => ?_⟩
    · rw [List.mem_append, List.mem_singleton] at hmem
      rcases hmem with hold | rfl
      · exact Nat.lt_succ_of_lt (h.called packet hold)
      · rw [hwritten, hcalled]
        exact Nat.lt_succ_of_lt hsits.called
    · rw [List.mem_append, List.mem_singleton] at hmem hlater
      rcases hmem with hold | rfl <;> rcases hlater with hold' | rfl
      · exact h.together packet hold later hold' hsame
      · exact hnew packet hold hsame
      · have hflip := hnew later hold' hsame.symm
        exact eq_comm.trans (hflip.trans eq_comm)
      · exact ⟨fun _ => rfl, fun _ => rfl⟩
  · rw [perform_packets hperform
      fun span calledAt content heq => hwrite ⟨span, calledAt, content, heq⟩,
      perform_time hperform]
    exact ⟨fun packet hmem => Nat.lt_succ_of_lt (h.called packet hmem), h.together⟩

theorem grouped_kept (env : Env) : KeepsBoth env (single.both pacing) (fun _ => (false, false))
    AnyCall (fun state ghosts => Known env state (Threads.firsts ghosts) ∧ Dates state)
    Grouped where
  act := by
    rintro state ghosts thread ⟨frame, opened, stamped⟩ rest action choice reply state'
      ⟨hknown, hdates⟩ h hthread ⟨hpre, hsingle, hpacing⟩ hperform -
    change perform env thread action choice state = some (reply, state') at hperform
    change pre env frame action at hpre
    have htop := firsts_cons hthread
    have hsits := h.frames thread (frame, opened, stamped) (by simp [hthread])
    have hnested := h.nested thread
    rw [hthread, List.pairwise_cons] at hnested
    have hdated : ∀ packet ∈ state.trace.packets, packet.openedAt < state.time := by
      intro packet hmem
      have hpacket := hdates.packets packet hmem
      exact hpacket.opened.trans_lt hpacket.before
    have hcalledAt : (next frame action reply).calledAt = frame.calledAt :=
      (next_call action reply).calledAt
    obtain ⟨hcalled, htogether⟩ := h.packets_step hsits hpre hpacing hperform
    refine ⟨?_, pairwise_step h.nested hthread fun value hmem hlt => hcalledAt ▸ hlt, hcalled,
      htogether⟩
    apply every_update
    · intro value hvalue
      rcases List.mem_cons.1 hvalue with rfl | hbelow
      · exact hsits.act hdated hpre hsingle hpacing hperform
      · have hmem : value ∈ ghosts thread := by
          rw [hthread]
          exact List.mem_cons_of_mem _ hbelow
        exact (h.frames thread value hmem).aside hpre hperform fun _ =>
          ⟨(hnested.1 value hbelow).ne, hknown.borrowed.above htop (List.mem_map_of_mem hbelow)⟩
    · intro other hother value hvalue
      exact (h.frames other value hvalue).aside hpre hperform fun heq => absurd heq hother
  ret := fun _ h hthread _ _ =>
    ⟨h.frames.pop hthread, pairwise_pop h.nested hthread, h.called, h.together⟩
  call := by
    intro state ghosts thread call prog state' _ h _ _ hcall _
    simp only [system, Layer.call, Option.bind_eq_bind, Option.bind_eq_some_iff,
      Option.some.injEq, Prod.mk.injEq] at hcall
    obtain ⟨_, -, -, rfl⟩ := hcall
    refine ⟨h.frames.push ?_ ?_, fun other => ?_,
      fun packet hmem => Nat.lt_succ_of_lt (h.called packet hmem), h.together⟩
    · exact ⟨Nat.lt_succ_self _, fun _ => rfl, fun hopen => absurd rfl hopen,
        fun _ packet hmem _ => (h.called packet hmem).ne, fun _ hopen => absurd rfl hopen,
        fun hstamped => by cases hstamped⟩
    · exact fun _ _ hold => ⟨Nat.lt_succ_of_lt hold.called, hold.closed, hold.held, hold.unsent,
        hold.fresh, hold.stamped⟩
    · apply pairwise_update h.nested
      exact List.pairwise_cons.2 ⟨fun value hmem => (h.frames thread value hmem).called,
        h.nested thread⟩

/-- The packets of a thread do not go back in time, and those of a callback stand together,
with one reading of the clock. -/
theorem packets_grouped {env : Env} {nextSequenceId : Nat} {labels : List (system env).Label}
    {config : (system env).Config}
    (hrun : System.run labels (System.idle (State.new nextSequenceId)) = some config)
    {before middle after : List Emitted} {packet later : Emitted}
    (hpackets : config.state.trace.packets = before ++ packet :: middle ++ later :: after)
    (hthread : packet.thread = later.thread) :
    (config.state.trace.Monotone → packet.timestamp ≤ later.timestamp) ∧
      (packet.openedAt = later.openedAt ↔ packet.calledAt = later.calledAt) ∧
      (packet.calledAt = later.calledAt → ∀ between ∈ middle, between.thread = packet.thread →
        between.calledAt = packet.calledAt) := by
  have hboth := (((dates_kept env).firsts fun _ => (false, false)).over fun _ => trivial).join
    (grouped_kept env)
  obtain ⟨ghosts, ⟨-, hdates, hgrouped⟩, -⟩ :=
    (KeepsBoth.rule hboth (single_pacing_call env)).run
      ⟨known_new env nextSequenceId, dates_new nextSequenceId, grouped_new nextSequenceId⟩
      (System.tracks_idle (State.new nextSequenceId)) (System.obeys_true labels _) hrun
  have hmem : ∀ between ∈ packet :: middle ++ [later], between ∈ config.state.trace.packets := by
    intro between hbetween
    rw [hpackets]
    simp only [List.mem_append, List.mem_cons, List.cons_append] at hbetween ⊢
    tauto
  have htogether := hgrouped.together packet (hmem packet (by simp)) later (hmem later (by simp))
    hthread
  refine ⟨fun hclock => hdates.timestamp_le hclock hpackets hthread, htogether, ?_⟩
  intro hcall between hbetween hsame
  have hordered := hdates.ordered
  rw [hpackets, List.append_assoc, List.pairwise_append] at hordered
  obtain ⟨-, hrest, -⟩ := hordered
  rw [List.cons_append, List.pairwise_cons, List.pairwise_append] at hrest
  obtain ⟨hfirst, -, -, hlast⟩ := hrest
  have hle := (hfirst between (by simp [hbetween])).openedAt hsame.symm
  have hge := (hlast between hbetween later List.mem_cons_self).openedAt (hsame.trans hthread)
  have hopened := htogether.2 hcall
  exact (hgrouped.together between (hmem between (by simp [hbetween])) packet
    (hmem packet (by simp)) hsame).1 (by omega)

theorem together_called : (together.map fun config =>
    config.state.trace.packets.map fun packet => (packet.thread, packet.calledAt)) =
      some ((1, 0) :: ([(2, 23), (2, 23), (2, 23), (2, 23)] ++
        (1, 0) :: [(1, 0), (1, 0), (1, 0)])) := by decide +kernel

/-- A callback with those of another thread between its packets. -/
theorem packets_grouped_together : ∃ config packet middle later after, together = some config ∧
    config.state.trace.packets = [] ++ packet :: middle ++ later :: after ∧
    packet.openedAt = later.openedAt ∧ ∀ between ∈ middle, between.thread = packet.thread →
      between.calledAt = packet.calledAt := by
  obtain ⟨config, hrun, hcalled⟩ := Option.map_eq_some_iff.1 together_called
  obtain ⟨packet, rest, hpackets, hpacket, hrest⟩ := List.map_eq_cons_iff.1 hcalled
  obtain ⟨middle, tail, rfl, -, htail⟩ := List.map_eq_append_iff.1 hrest
  obtain ⟨later, after, rfl, hlater, -⟩ := List.map_eq_cons_iff.1 htail
  have hsame := hpacket.trans hlater.symm
  rw [Prod.mk.injEq] at hsame
  have hsplit : config.state.trace.packets = [] ++ packet :: middle ++ later :: after := hpackets
  obtain ⟨-, hopened, hmiddle⟩ := packets_grouped hrun hsplit hsame.1
  exact ⟨config, packet, middle, later, after, hrun, hsplit, hopened.2 hsame.2,
    hmiddle hsame.2⟩

end TracingPerfetto.Layer
