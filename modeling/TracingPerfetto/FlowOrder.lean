import TracingPerfetto.FlowDelivery
import TracingPerfetto.PacketTimes
import TracingPerfetto.SpanPackets

/-!
In which order the two ends of a flow are emitted, in every span mode: an end is queued on
each of the two spans, the start first, and goes out with the next packet of that span that
takes flows along.
-/

namespace TracingPerfetto.Layer

open TracingPerfetto.Runtime TracingPerfetto.Sequence TracingPerfetto.TrackEvents
open TracingPerfetto.Counters TracingPerfetto.Threads
open TracingPerfetto.PacketFields (FlowEnd endOf)
open TracingPerfetto.SpanStore (SpanId)

/-! ## What is queued and not sent is still there -/

/-- Of a span that is not gone, each queued flow is in its entry or sent. -/
structure Carries (state : State) (frames : Frames) : Prop where
  issued : ∀ queued ∈ state.spans.queued, queued.1 < state.registry.nextInstance
  creating : Every (fun _ frame => frame.Creating →
    ∀ queued ∈ state.spans.queued, queued.1 ≠ frame.instance_) frames
  entry : ∀ spanId entry, state.spans.entries spanId = some entry →
    ∀ flow ∈ state.queuedOn entry.instance_,
      flow ∈ entry.data.pendingFlows ∨ flow ∈ state.sentOn entry.instance_
  clearing : Every (fun _ frame => ∀ found, frame.Clearing found →
    ∀ flow ∈ found.data.pendingFlows, flow ∈ state.sentOn found.entry.instance_) frames
  taken : Every (fun _ frame => frame.finished = false → ∀ found, frame.taken = some found →
    ∀ flow ∈ state.queuedOn found.entry.instance_,
      flow ∈ found.data.pendingFlows ∨ flow ∈ state.sentOn found.entry.instance_) frames

section Carries

variable {env : Env} {state state' : State} {frames : Frames} {thread : ThreadId}
  {frame : Frame} {rest : List Frame}

theorem sentOn_mono {action : Act} {choice : Choice} {reply : action.Reply}
    (h : perform env thread action choice state = some (reply, state')) {span : Nat}
    {flow : PendingFlow} (hmem : flow ∈ state.sentOn span) : flow ∈ state'.sentOn span := by
  by_cases hwrite : ∃ span calledAt content, action = .sequence (.write span calledAt content)
  · obtain ⟨written, calledAt, content, rfl⟩ := hwrite
    obtain ⟨packet, hpackets, -⟩ := perform_write h
    rw [sentOn_write hpackets]
    exact List.mem_append_left _ hmem
  · rw [State.sentOn, perform_packets h
      fun span calledAt content heq => hwrite ⟨span, calledAt, content, heq⟩]
    exact hmem

theorem queuedOn_before {action : Act} {choice : Choice} {reply : action.Reply}
    (h : perform env thread action choice state = some (reply, state')) {span : Nat}
    {flow : PendingFlow} (hmem : flow ∈ state'.queuedOn span) :
    flow ∈ state.queuedOn span ∨ ∃ found, action = .spans (.pushFlow found flow) ∧
      found.entry.instance_ = span := by
  by_cases hpush : ∃ found flow, action = .spans (.pushFlow found flow)
  · obtain ⟨found, pushed, rfl⟩ := hpush
    rw [queuedOn_push (perform_pushFlow h)] at hmem
    rcases List.mem_append.1 hmem with hold | hnew
    · exact .inl hold
    · split at hnew
      · rename_i hspan
        rw [List.mem_singleton] at hnew
        subst hnew
        exact .inr ⟨found, rfl, hspan⟩
      · cases hnew
  · rw [State.queuedOn, perform_queued h fun found flow heq => hpush ⟨found, flow, heq⟩] at hmem
    exact .inl hmem

/-- Flows are sent and not cleared by the packet that sends them only. -/
theorem clearing_after {action : Act} {reply : action.Reply} (hpre : pre env frame action)
    {found : Found} (h : (next frame action reply).Clearing found) :
    frame.Clearing found ∨ ∃ span calledAt content,
      action = .sequence (.write (some span) calledAt content) := by
  by_cases hspans : ∃ act, action = .spans act
  · obtain ⟨act, rfl⟩ := hspans
    obtain ⟨hguard, hexclusive, hsent, hseen⟩ := h
    cases act with
    | get | getMut | put | dropRef | dropMut => cases hsent
    | pushFlow shown flow =>
        obtain ⟨-, -, -, hnot, -⟩ := hpre
        change frame.sent = true at hsent
        rw [hnot] at hsent
        cases hsent
    | hasFollowsFrom =>
        obtain ⟨-, -, hnot⟩ := hpre
        change frame.sent = true at hsent
        rw [hnot] at hsent
        cases hsent
    | take =>
        obtain ⟨⟨hnone, -⟩, -⟩ := hpre
        have hguard' : frame.guard = some found := by
          cases reply <;> exact hguard
        rw [hnone] at hguard'
        cases hguard'
    | insert | noteFollowsFrom => exact .inl ⟨hguard, hexclusive, hsent, hseen⟩
  · have hsame := next_same_spans frame action reply fun act heq => hspans ⟨act, heq⟩
    by_cases hwrite : ∃ span calledAt content,
        action = .sequence (.write (some span) calledAt content)
    · exact .inr hwrite
    · refine .inl ⟨hsame.guard.symm.trans h.guard, hsame.exclusive.symm.trans h.exclusive, ?_,
        hsame.seen.symm.trans h.seen⟩
      by_cases hnone : ∃ calledAt content, action = .sequence (.write none calledAt content)
      · obtain ⟨calledAt, content, rfl⟩ := hnone
        exact h.sent
      · rw [← next_sent action reply (fun act heq => hspans ⟨act, heq⟩) ?_]
        · exact h.sent
        · intro span calledAt content heq
          cases span with
          | none => exact hnone ⟨calledAt, content, heq⟩
          | some span => exact hwrite ⟨span, calledAt, content, heq⟩

theorem Carries.clearing_step (h : Carries state frames)
    (hthread : frames thread = frame :: rest) {action : Act} {choice : Choice}
    {reply : action.Reply} (hpre : pre env frame action)
    (hperform : perform env thread action choice state = some (reply, state')) {found : Found}
    (hclear : (next frame action reply).Clearing found) :
    ∀ flow ∈ found.data.pendingFlows, flow ∈ state'.sentOn found.entry.instance_ := by
  intro flow hflow
  rcases clearing_after hpre hclear with hbefore | ⟨span, calledAt, content, rfl⟩
  · exact sentOn_mono hperform
      (h.clearing thread frame (Guards.top_mem hthread) found hbefore flow hflow)
  · have hsame := next_same_spans frame (.sequence (.write (some span) calledAt content)) reply
      (by simp)
    have hguard := hsame.guard.symm.trans hclear.guard
    obtain ⟨packet, hpackets, -, hspan, rfl, -⟩ := perform_write hperform
    obtain ⟨-, -, -, hwrites⟩ := hpre
    cases hwrites with
    | begin spanId metadata metadata' parent uuid visits hcall hnone hsource hcontent =>
        rw [hnone] at hguard
        cases hguard
    | slice shown hshown hexclusive hsource hsent hasked hlast hvisits hshows hflows =>
        rw [hshown, Option.some.injEq] at hguard
        subst hguard hsource
        have hseen := hsame.seen.symm.trans hclear.seen
        rw [sentOn_write hpackets, if_pos hspan, hflows, hseen, if_pos rfl]
        exact List.mem_append_right _ hflow
    | lifetimeEnd shown hshown hnone hunfinished hsource hsent hshows hflows =>
        rw [hnone] at hguard
        cases hguard

theorem carries_kept (env : Env) :
    KeepsInv env AnyCall
      (fun state frames => Known env state frames ∧ Excuses env state frames ∧
        Taken env state frames)
      Carries where
  act := by
    rintro state frames thread frame rest action choice reply state' ⟨hknown, -, htaken⟩ h hthread
      hpre hperform -
    have hmem : frame ∈ frames thread := Guards.top_mem hthread
    have hsent : ∀ {span flow}, flow ∈ state.sentOn span → flow ∈ state'.sentOn span :=
      sentOn_mono hperform
    -- the queued flows are the old ones, or one more on the span of a guard
    have hqueued : ∀ queued ∈ state'.spans.queued, queued ∈ state.spans.queued ∨
        ∃ spanId entry, state.spans.entries spanId = some entry ∧
          queued.1 = entry.instance_ := by
      intro queued hqueued
      by_cases hpush : ∃ found flow, action = .spans (.pushFlow found flow)
      · obtain ⟨found, pushed, rfl⟩ := hpush
        rw [perform_pushFlow hperform] at hqueued
        rcases List.mem_append.1 hqueued with hold | hnew
        · exact .inl hold
        · rw [List.mem_singleton] at hnew
          subst hnew
          exact .inr ⟨_, _, hknown.guards.entry thread frame hmem found hpre.1, rfl⟩
      · rw [perform_queued hperform fun found flow heq => hpush ⟨found, flow, heq⟩] at hqueued
        exact .inl hqueued
    refine ⟨fun queued hmem' => ?_, ?_, fun spanId entry hentry flow hflow => ?_, ?_, ?_⟩
    · rw [perform_issued hperform]
      rcases hqueued queued hmem' with hbefore | ⟨spanId, entry, hentry, heq⟩
      · exact h.issued queued hbefore
      · rw [heq]
        exact (hknown.made hentry).issued
    · refine h.creating.step_apart hknown.ledger.distinct hthread ?_ ?_
      · intro hnew queued hmem'
        have hcreating := creating_before action reply hnew
        change queued.1 ≠ (next frame action reply).instance_
        rw [(next_call action reply).instance_]
        rcases hqueued queued hmem' with hbefore | ⟨spanId, entry, hentry, heq⟩
        · exact h.creating thread frame hmem hcreating queued hbefore
        · rw [heq]
          exact hknown.creating_apart hmem hcreating hentry
      · intro other value hvalue _ hbefore hnew queued hmem'
        rcases hqueued queued hmem' with hold | ⟨spanId, entry, hentry, heq⟩
        · exact hbefore hnew queued hold
        · rw [heq]
          exact hknown.creating_apart hvalue hnew hentry
    · cases entry_after hknown.guards hthread hpre hperform hentry with
      | kept hbefore hapart =>
          rcases queuedOn_before hperform hflow with hqueued | ⟨found, rfl, heq⟩
          · exact (h.entry spanId entry hbefore flow hqueued).imp_right hsent
          · have hguarded := hknown.guards.entry thread frame hmem found hpre.1
            exact absurd (hknown.same_span hguarded hbefore heq) (hapart found flow rfl)
      | inserted metadata parent data tier hcall hinsert heq =>
          subst heq
          obtain ⟨-, -, -, hinserted, hfinished, -⟩ := hinsert
          have hcreating : frame.Creating :=
            ⟨hfinished, hinserted, spanId, metadata, parent, hcall⟩
          rcases queuedOn_before hperform hflow with hqueued | ⟨found, rfl, heq⟩
          · obtain ⟨queued, hmem', -⟩ := List.mem_map.1 hqueued
            rw [List.mem_filter, decide_eq_true_eq] at hmem'
            exact absurd hmem'.2 (h.creating thread frame hmem hcreating queued hmem'.1)
          · have hguarded := hknown.guards.entry thread frame hmem found hpre.1
            exact absurd heq (hknown.creating_apart hmem hcreating hguarded)
      | changed found hguard hbefore hinstance hpoll hflows hkept hpushed htrack =>
          rw [hinstance] at hflow ⊢
          rcases queuedOn_before hperform hflow with hqueued | ⟨shown, hpush, -⟩
          · rcases h.entry spanId found.entry hbefore flow hqueued with hpending | hsentOn
            · rcases hkept flow hpending with hleft | hclear
              · exact .inl hleft
              · exact .inr (hsent (h.clearing thread frame hmem found hclear flow hpending))
            · exact .inr (hsent hsentOn)
          · subst hpush
            have hsame := hpre.1
            rw [hguard, Option.some.injEq] at hsame
            subst hsame
            exact .inl (hpushed flow rfl)
    · refine h.clearing.step hthread ?_ ?_
      · exact fun found hclear => h.clearing_step hthread hpre hperform hclear
      · exact fun _ _ hvalue found hclear flow hflow => hsent (hvalue found hclear flow hflow)
    · refine h.taken.step_apart hknown.ledger.distinct hthread ?_ ?_
      · intro hunfinished found hfound flow hflow
        have hunfinished' := unfinished_before action reply hunfinished
        rcases queuedOn_before hperform hflow with hqueued | ⟨shown, rfl, heq⟩
        · rcases taken_after hperform hfound with hbefore | ⟨-, hentry⟩
          · exact (h.taken thread frame hmem hunfinished' found hbefore flow hqueued).imp_right
              hsent
          · exact (h.entry found.spanId found.entry hentry flow hqueued).imp_right hsent
        · have hnone := (htaken thread frame hmem hunfinished' found hfound).guard
          rw [hpre.1] at hnone
          cases hnone
      · intro other value hvalue _ hbefore hunfinished found hfound flow hflow
        rcases queuedOn_before hperform hflow with hqueued | ⟨shown, rfl, heq⟩
        · exact (hbefore hunfinished found hfound flow hqueued).imp_right hsent
        · have hguarded := hknown.guards.entry thread frame hmem shown hpre.1
          exact absurd heq.symm (htaken.apart hknown hvalue hunfinished hfound hguarded)
  ret := by
    rintro state frames thread frame rest - h hthread - -
    exact ⟨h.issued, h.creating.pop hthread, h.entry, h.clearing.pop hthread,
      h.taken.pop hthread⟩
  call := by
    rintro state frames thread call prog state' ⟨hknown, -⟩ h - - hcall -
    obtain ⟨registry, -, hadmits, rfl, -⟩ := hknown.ledger.call_admits hcall
    refine ⟨fun queued hmem => (h.issued queued hmem).trans_le hadmits.issued,
      h.creating.push (fun _ queued hmem => ?_) fun _ _ hvalue => hvalue, h.entry,
      h.clearing.push (fun _ hclear => ?_) fun _ _ hvalue => hvalue,
      h.taken.push (fun _ _ hfound => by cases hfound) fun _ _ hvalue => hvalue⟩
    · have hlt := h.issued queued hmem
      change queued.1 ≠ state.registry.nextInstance
      omega
    · cases hclear.guard

theorem carries_new (nextSequenceId : Nat) : Carries (State.new nextSequenceId) fun _ => [] where
  issued := fun _ hmem => by cases hmem
  creating := fun _ _ hmem => by cases hmem
  entry := fun _ _ hentry => by cases hentry
  clearing := fun _ _ hmem => by cases hmem
  taken := fun _ _ hmem => by cases hmem

end Carries

/-! ## The order of the ends of a flow -/

/-- A flow is sent after it is queued, and with the next packet of its span that takes flows
along; its end is queued after its start. -/
structure Ordered (state : State) (frames : Frames) : Prop where
  queuedAt : ∀ queued ∈ state.spans.queued, queued.2.2 < state.time
  sentAfter : ∀ packet ∈ state.trace.packets, ∀ flow ∈ packet.content.flows,
    ∃ queued ∈ state.spans.queued, packet.span = some queued.1 ∧ queued.2.1 = flow ∧
      queued.2.2 < packet.writtenAt
  promptly : ∀ queued ∈ state.spans.queued, ∀ before packet after,
    state.trace.packets = before ++ packet :: after → packet.span = some queued.1 →
    packet.content.boundary = true → queued.2.2 < packet.writtenAt →
    ∃ sent ∈ before ++ [packet], sent.span = some queued.1 ∧ queued.2.1 ∈ sent.content.flows
  edges : ∀ queued ∈ state.spans.queued, ∀ flow, queued.2.1 = .terminate flow →
    ∃ start ∈ state.spans.queued, start.2.1 = .start flow ∧ start.2.2 < queued.2.2
  started : Every (fun _ frame => ∀ flow, frame.started = some flow →
    ∃ start ∈ state.spans.queued, start.2.1 = .start flow) frames

section Ordered

variable {env : Env} {state state' : State} {frames : Frames} {thread : ThreadId}
  {frame : Frame} {rest : List Frame}

theorem mem_sentOn {span : Nat} {flow : PendingFlow} (h : flow ∈ state.sentOn span) :
    ∃ packet ∈ state.trace.packets, packet.span = some span ∧ flow ∈ packet.content.flows := by
  obtain ⟨packet, hmem, hflow⟩ := List.mem_flatMap.1 h
  rw [List.mem_filter, decide_eq_true_eq] at hmem
  exact ⟨packet, hmem.1, hmem.2, hflow⟩

theorem mem_queuedOn {span : Nat} {flow : PendingFlow} (h : flow ∈ state.queuedOn span) :
    ∃ queued ∈ state.spans.queued, queued.1 = span ∧ queued.2.1 = flow := by
  obtain ⟨queued, hmem, rfl⟩ := List.mem_map.1 h
  rw [List.mem_filter, decide_eq_true_eq] at hmem
  exact ⟨queued, hmem.1, hmem.2, rfl⟩

theorem queuedOn_of_mem {queued : Nat × PendingFlow × Nat} (h : queued ∈ state.spans.queued) :
    queued.2.1 ∈ state.queuedOn queued.1 := by
  refine List.mem_map.2 ⟨queued, ?_, rfl⟩
  rw [List.mem_filter, decide_eq_true_eq]
  exact ⟨h, rfl⟩

/-- Nothing that is queued is left behind by a packet that takes flows along. -/
theorem Carries.boundary_sends (h : Carries state frames) (hknown : Known env state frames)
    (hnotices : Notices env state frames) (hthread : frames thread = frame :: rest)
    {span calledAt : Nat} {content : Content}
    (hpre : pre env frame (.sequence (.write (some span) calledAt content)))
    (hboundary : content.boundary = true) {flow : PendingFlow}
    (hflow : flow ∈ state.queuedOn span) : flow ∈ content.flows ∨ flow ∈ state.sentOn span := by
  have hmem : frame ∈ frames thread := Guards.top_mem hthread
  obtain ⟨-, -, -, hwrites⟩ := hpre
  cases hwrites with
  | begin spanId metadata metadata' parent uuid visits hcall hguard hsource hcontent =>
      rw [hcontent] at hboundary
      cases hboundary
  | slice found hguard hexclusive hsource hsent hasked hlast hvisits hshows hflows =>
      subst hsource
      have hentry := hknown.guards.entry thread frame hmem found hguard
      rcases h.entry found.spanId found.entry hentry flow hflow with hpending | hbefore
      · cases hseen : frame.seen with
        | true =>
            rw [hflows, hseen, if_pos rfl]
            exact .inl hpending
        | false =>
            have hnil := hnotices.asked thread frame hmem found hguard (hasked hboundary) hseen
            change flow ∈ found.data.pendingFlows at hpending
            rw [hnil] at hpending
            cases hpending
      · exact .inr hbefore
  | lifetimeEnd found hfound hguard hunfinished hsource hsent hshows hflows =>
      subst hsource
      rw [hflows]
      exact h.taken thread frame hmem hunfinished found hfound flow hflow

theorem next_started {action : Act} {reply : action.Reply} {flow : Nat}
    (h : (next frame action reply).started = some flow) :
    frame.started = some flow ∨ ∃ found, action = .spans (.pushFlow found (.start flow)) := by
  by_cases hspans : ∃ act, action = .spans act
  · obtain ⟨act, rfl⟩ := hspans
    cases act with
    | pushFlow found pushed =>
        cases pushed with
        | start started =>
            cases h
            exact .inr ⟨found, rfl⟩
        | terminate _ => exact .inl h
    | take => cases reply <;> exact .inl h
    | _ => exact .inl h
  · rw [(next_same_spans frame action reply fun act heq => hspans ⟨act, heq⟩).started] at h
    exact .inl h

theorem ordered_kept (env : Env) :
    KeepsInv env AnyCall
      (fun state frames => Known env state frames ∧ Carries state frames ∧
        Notices env state frames ∧ OwnFlows state frames ∧ Dates state)
      Ordered where
  act := by
    rintro state frames thread frame rest action choice reply state'
      ⟨hknown, hcarries, hnotices, -, hdates⟩ h hthread hpre hperform ⟨-, -, -, hown, -⟩
    have hmem : frame ∈ frames thread := Guards.top_mem hthread
    have htime := perform_time hperform
    have hquiet : (∀ span calledAt content, action ≠ .sequence (.write span calledAt content)) →
        state'.trace.packets = state.trace.packets := perform_packets hperform
    -- an action that queues a flow writes no packet
    by_cases hpush : ∃ found flow, action = .spans (.pushFlow found flow)
    · obtain ⟨found, pushed, rfl⟩ := hpush
      have hqueued := perform_pushFlow hperform
      have hpackets : state'.trace.packets = state.trace.packets := hquiet (by simp)
      have hmono : ∀ queued ∈ state.spans.queued, queued ∈ state'.spans.queued := by
        rw [hqueued]
        exact fun queued hold => List.mem_append_left _ hold
      have hcases : ∀ queued ∈ state'.spans.queued, queued ∈ state.spans.queued ∨
          queued = (found.entry.instance_, pushed, state.time) := by
        intro queued hmem'
        rw [hqueued] at hmem'
        exact (List.mem_append.1 hmem').imp_right List.mem_singleton.1
      constructor
      · intro queued hmem'
        rcases hcases queued hmem' with hold | rfl
        · have hlt := h.queuedAt queued hold
          omega
        · exact htime ▸ Nat.lt_succ_self _
      · rw [hpackets]
        intro packet hpacket flow hflow
        obtain ⟨queued, hold, hrest⟩ := h.sentAfter packet hpacket flow hflow
        exact ⟨queued, hmono queued hold, hrest⟩
      · rw [hpackets]
        intro queued hmem' before packet after hsplit hspan hboundary hlt
        rcases hcases queued hmem' with hold | rfl
        · exact h.promptly queued hold before packet after hsplit hspan hboundary hlt
        · have hwritten := (hdates.packets packet (by simp [hsplit])).before
          change state.time < packet.writtenAt at hlt
          omega
      · intro queued hmem' flow hterminate
        rcases hcases queued hmem' with hold | rfl
        · obtain ⟨start, hstart, hrest⟩ := h.edges queued hold flow hterminate
          exact ⟨start, hmono start hstart, hrest⟩
        · obtain ⟨-, -, -, -, -, -, -, hstarted, -⟩ := hpre
          obtain ⟨start, hstart, heq⟩ :=
            h.started thread frame hmem flow (hstarted flow hterminate)
          exact ⟨start, hmono start hstart, heq, h.queuedAt start hstart⟩
      · refine h.started.step hthread ?_ ?_
        · intro flow hstarted
          rcases next_started hstarted with hold | ⟨shown, heq⟩
          · obtain ⟨start, hstart, heq⟩ := h.started thread frame hmem flow hold
            exact ⟨start, hmono start hstart, heq⟩
          · cases heq
            refine ⟨(found.entry.instance_, .start flow, state.time), ?_, rfl⟩
            rw [hqueued]
            exact List.mem_append_right _ List.mem_cons_self
        · intro _ _ hvalue flow hstarted
          obtain ⟨start, hstart, heq⟩ := hvalue flow hstarted
          exact ⟨start, hmono start hstart, heq⟩
    · have hqueued := perform_queued hperform fun found flow heq => hpush ⟨found, flow, heq⟩
      have hstarted : Every (fun _ frame => ∀ flow, frame.started = some flow →
          ∃ start ∈ state'.spans.queued, start.2.1 = .start flow)
          (Function.update frames thread (next frame action reply :: rest)) := by
        rw [hqueued]
        refine h.started.step hthread (fun flow hstarted => ?_) fun _ _ hvalue => hvalue
        rcases next_started hstarted with hold | ⟨found, heq⟩
        · exact h.started thread frame hmem flow hold
        · exact absurd ⟨found, _, heq⟩ hpush
      refine ⟨?_, ?_, ?_, ?_, hstarted⟩
      · rw [hqueued]
        intro queued hmem'
        have hlt := h.queuedAt queued hmem'
        omega
      · intro packet hpacket flow hflow
        by_cases hold : packet ∈ state.trace.packets
        · rw [hqueued]
          exact h.sentAfter packet hold flow hflow
        · have hwritten : packet.writtenAt = state.time := by
            by_cases hwrite : ∃ span calledAt content,
                action = .sequence (.write span calledAt content)
            · obtain ⟨span, calledAt, content, rfl⟩ := hwrite
              obtain ⟨new, hpackets, -, -, -, hwritten⟩ := perform_write hperform
              rw [hpackets] at hpacket
              rcases List.mem_append.1 hpacket with hbefore | hnew
              · exact absurd hbefore hold
              · rw [List.mem_singleton] at hnew
                rw [hnew, hwritten]
            · rw [perform_packets hperform fun span calledAt content heq =>
                hwrite ⟨span, calledAt, content, heq⟩] at hpacket
              exact absurd hpacket hold
          obtain ⟨span, hspan, hflow'⟩ := hown.packets packet hpacket flow hflow
          obtain ⟨queued, hmem', rfl, heq⟩ := mem_queuedOn hflow'
          refine ⟨queued, hmem', hspan, heq, ?_⟩
          rw [hqueued] at hmem'
          rw [hwritten]
          exact h.queuedAt queued hmem'
      · rw [hqueued]
        by_cases hwrite : ∃ span calledAt content,
            action = .sequence (.write span calledAt content)
        · obtain ⟨span, calledAt, content, rfl⟩ := hwrite
          obtain ⟨new, hpackets, -, hnew, rfl, -⟩ := perform_write hperform
          intro queued hmem' before packet after hsplit hspan hboundary hlt
          rw [hpackets] at hsplit
          -- the packet is the new one, or one of those before
          rcases List.eq_nil_or_concat after with rfl | ⟨after, last, rfl⟩
          · obtain ⟨rfl, hlast⟩ := List.append_inj' hsplit rfl
            obtain rfl := (List.cons.inj hlast).1
            rw [hspan] at hnew
            subst hnew
            rcases hcarries.boundary_sends hknown hnotices hthread hpre hboundary
                (queuedOn_of_mem hmem') with hflow | hbefore
            · exact ⟨new, by simp, hspan, hflow⟩
            · obtain ⟨sent, hsent, hrest⟩ := mem_sentOn hbefore
              exact ⟨sent, List.mem_append_left _ hsent, hrest⟩
          · rw [List.concat_eq_append, ← List.cons_append, ← List.append_assoc] at hsplit
            obtain ⟨hbefore, -⟩ := List.append_inj' hsplit rfl
            exact h.promptly queued hmem' before packet after hbefore hspan hboundary hlt
        · rw [perform_packets hperform
            fun span calledAt content heq => hwrite ⟨span, calledAt, content, heq⟩]
          exact h.promptly
      · rw [hqueued]
        exact h.edges
  ret := fun _ h hthread _ _ =>
    ⟨h.queuedAt, h.sentAfter, h.promptly, h.edges, h.started.pop hthread⟩
  call := by
    rintro state frames thread call prog state' ⟨hknown, -⟩ h - - hcall -
    obtain ⟨registry, -, -, rfl, -⟩ := hknown.ledger.call_admits hcall
    exact ⟨fun queued hmem => Nat.lt_succ_of_lt (h.queuedAt queued hmem), h.sentAfter,
      h.promptly, h.edges,
      h.started.push (fun _ hstarted => by cases hstarted) fun _ _ hvalue => hvalue⟩

theorem ordered_new (nextSequenceId : Nat) : Ordered (State.new nextSequenceId) fun _ => [] where
  queuedAt := fun _ hmem => by cases hmem
  sentAfter := fun _ hmem => by cases hmem
  promptly := fun _ hmem => by cases hmem
  edges := fun _ hmem => by cases hmem
  started := fun _ _ hmem => by cases hmem

end Ordered

section Reads

variable {env : Env} {packet : Emitted}

theorem Emitted.Reads.shows (h : packet.Reads env) {flow : PendingFlow}
    (hflow : flow ∈ packet.content.flows) : endOf env.bases flow ∈ packet.ends := by
  rw [h.ends]
  exact List.mem_append_right _ (List.mem_map_of_mem hflow)

/-- Polls start flows; an end is one of a queued flow. -/
theorem Emitted.Reads.terminates (h : packet.Reads env) {id : Nat}
    (hread : .terminate id ∈ packet.ends) :
    ∃ flow, .terminate flow ∈ packet.content.flows ∧ env.bases.flowId flow = id := by
  rw [h.ends] at hread
  rcases List.mem_append.1 hread with hpoll | hqueued
  · have hstarts : ∀ shown : Option Nat,
        FlowEnd.terminate id ∉ PacketFields.pollEnds env.bases shown := by
      intro shown
      cases shown <;> simp [PacketFields.pollEnds]
    cases hcontent : packet.content with
    | body body =>
        rw [hcontent] at hpoll
        cases body with
        | threadBegin | pollBegin => exact absurd hpoll (hstarts _)
        | _ => cases hpoll
    | _ =>
        rw [hcontent] at hpoll
        cases hpoll
  · obtain ⟨flow, hflow, heq⟩ := List.mem_map.1 hqueued
    cases flow with
    | start flow => cases heq
    | terminate flow =>
        cases heq
        exact ⟨flow, hflow, rfl⟩

end Reads

/-- An end of a flow is read in a packet only after its start was queued. If the span of the
start has taken its flows along in the meantime, the start is read in a packet of it before,
and with a clock that does not go back its timestamp is not later when that was over before
the end's packet was opened. -/
theorem flows_ordered {env : Env} {nextSequenceId : Nat} {labels : List (system env).Label}
    {config : (system env).Config}
    (hrun : System.run labels (System.idle (State.new nextSequenceId)) = some config)
    {before after : List Emitted} {packet : Emitted} {id : Nat}
    (hpackets : config.state.trace.packets = before ++ packet :: after)
    (hread : .terminate id ∈ packet.ends) :
    ∃ flow, env.bases.flowId flow = id ∧
      ∃ start ∈ config.state.spans.queued, start.2.1 = .start flow ∧
        start.2.2 < packet.writtenAt ∧
        ∀ boundary ∈ before, boundary.span = some start.1 → boundary.content.boundary = true →
          start.2.2 < boundary.writtenAt → ∃ sent ∈ before, sent.span = some start.1 ∧
            .start id ∈ sent.ends ∧
            (config.state.trace.Monotone → boundary.writtenAt ≤ packet.openedAt →
              sent.timestamp ≤ packet.timestamp) := by
  have hpremises := (excuses_kept env).join (taken_kept env)
  have hbase := (((hpremises.join (carries_kept env)).join
    ((notices_kept env).over And.left)).join ((ownFlows_kept env).over And.left)).join
    ((dates_kept env).over fun _ => trivial)
  have hall := (hbase.join ((ordered_kept env).over fun h =>
    ⟨h.1, h.2.1.1.1.2, h.2.1.1.2, h.2.1.2, h.2.2⟩)).join
      ((legible_kept env).over fun _ => trivial)
  obtain ⟨frames, ⟨-, ⟨⟨-, hdates⟩, hordered⟩, hlegible⟩, -⟩ :=
    known_run hall
      ⟨⟨⟨⟨⟨⟨⟨excuses_new env nextSequenceId, taken_new env nextSequenceId⟩,
        carries_new nextSequenceId⟩, notices_new env nextSequenceId⟩,
        ownFlows_new nextSequenceId⟩, dates_new nextSequenceId⟩, ordered_new nextSequenceId⟩,
        legible_new env nextSequenceId⟩
      (System.obeys_true labels _) hrun
  have hmem : packet ∈ config.state.trace.packets := by simp [hpackets]
  obtain ⟨flow, hflow, rfl⟩ := (hlegible.reads hmem).terminates hread
  obtain ⟨queued, hqueued, -, hterminate, hafter⟩ := hordered.sentAfter packet hmem _ hflow
  obtain ⟨start, hstart, hflow', hlt⟩ := hordered.edges queued hqueued flow hterminate
  refine ⟨flow, rfl, start, hstart, hflow', hlt.trans hafter,
    fun boundary hboundary hspan hcontent hlater => ?_⟩
  obtain ⟨earlier, middle, rfl⟩ := List.append_of_mem hboundary
  rw [List.append_assoc, List.cons_append] at hpackets
  obtain ⟨sent, hsent, hspan', hsends⟩ :=
    hordered.promptly start hstart earlier boundary _ hpackets hspan hcontent hlater
  have hsent' : sent ∈ earlier ++ boundary :: middle := by
    rcases List.mem_append.1 hsent with hold | hlast
    · exact List.mem_append_left _ hold
    · rw [List.mem_singleton] at hlast
      subst hlast
      exact List.mem_append_right _ List.mem_cons_self
  have htrace : sent ∈ config.state.trace.packets := by
    rw [hpackets]
    rcases List.mem_append.1 hsent' with hold | hlast
    · exact List.mem_append_left _ hold
    · apply List.mem_append_right
      rcases List.mem_cons.1 hlast with rfl | hlast
      · exact List.mem_cons_self
      · simp [hlast]
  have hshown := (hlegible.reads htrace).shows (hflow' ▸ hsends)
  refine ⟨sent, hsent', hspan', hshown, fun hclock hopened => ?_⟩
  have hdated := hdates.packets sent htrace
  have hwritten : sent.writtenAt ≤ boundary.writtenAt := by
    rcases List.mem_append.1 hsent with hold | hlast
    · have hpairs := hdates.ordered
      rw [hpackets, List.pairwise_append] at hpairs
      exact (hpairs.2.2 sent hold boundary List.mem_cons_self).writtenAt.le
    · rw [List.mem_singleton] at hlast
      rw [hlast]
  refine hclock _ hdated.read _ (hdates.packets packet hmem).read ?_
  exact (hdated.opened.trans hwritten).trans hopened

instance (trace : Trace) : Decidable trace.Monotone := by
  unfold Trace.Monotone
  infer_instance

def startsFlow : PendingFlow → Bool
  | .start _ => true
  | .terminate _ => false

/-- The last packet ends a flow, and its predecessor has been closed before that. -/
def EndsLast (config : (system flowEnv).Config) : Prop :=
  config.state.trace.Monotone ∧
    ∃ packet ∈ config.state.trace.packets.getLast?.toList, packet.ends = [.terminate 9] ∧
      ∃ boundary ∈ config.state.trace.packets.dropLast, boundary.span = some 0 ∧
        boundary.content.boundary = true ∧ boundary.writtenAt ≤ packet.openedAt ∧
          ∀ queued ∈ config.state.spans.queued, startsFlow queued.2.1 = true →
            queued.1 = 0 ∧ queued.2.2 < boundary.writtenAt

instance (config : (system flowEnv).Config) : Decidable (EndsLast config) := by
  unfold EndsLast
  infer_instance

theorem followed_endsLast : (followed.map fun config => decide (EndsLast config)) = some true := by
  decide +kernel

theorem flows_ordered_followed : ∃ config before packet, followed = some config ∧
    config.state.trace.packets = before ++ [packet] ∧ packet.ends = [.terminate 9] ∧
      ∃ sent ∈ before, sent.span = some 0 ∧ .start 9 ∈ sent.ends ∧
        sent.timestamp ≤ packet.timestamp := by
  obtain ⟨config, hrun, hends⟩ := Option.map_eq_some_iff.1 followed_endsLast
  rw [decide_eq_true_eq] at hends
  obtain ⟨hclock, packet, hlast, hread, boundary, hboundary, hspan, hcontent, hopened, hqueued⟩ :=
    hends
  obtain ⟨before, hpackets⟩ := List.getLast?_eq_some_iff.1 (Option.mem_toList.1 hlast)
  rw [hpackets, List.dropLast_concat] at hboundary
  obtain ⟨flow, -, start, hstart, hflow, -, hbefore⟩ :=
    flows_ordered hrun hpackets (hread ▸ List.mem_cons_self)
  obtain ⟨hfirst, hlater⟩ := hqueued start hstart (by rw [hflow]; rfl)
  obtain ⟨sent, hsent, hspan', hstarts, htimes⟩ :=
    hbefore boundary hboundary (hfirst ▸ hspan) hcontent hlater
  exact ⟨config, before, packet, hrun, hpackets, hread, sent, hsent, hfirst ▸ hspan', hstarts,
    htimes hclock hopened⟩

/-! ## A follower that is closed first -/

/-- The start of each flow is read before its end, and not later. -/
def Trace.Causal (trace : Trace) : Prop :=
  ∀ before packet after, trace.packets = before ++ packet :: after →
    ∀ id, .terminate id ∈ packet.ends → ∃ start ∈ before,
      .start id ∈ start.ends ∧ start.timestamp ≤ packet.timestamp

/-- The second span follows from the first, and is closed while the first is still open. -/
def overtaken : Option (system flowEnv).Config :=
  System.run
    ([(Call.newSpan 1 sampleMetadata none, 34), (.newSpan 2 sampleMetadata none, 19),
      (.followsFrom 2 1, 22), (.close 2, 12)].flatMap fun callback =>
        .call 1 callback.1 :: List.replicate callback.2 (.act 1 sampleChoice) ++ [.ret 1])
    (System.idle (State.new 65536))

/-- The clock a little later. -/
def laterChoice : Choice :=
  { sampleChoice with answers := { sampleChoice.answers with rawClock := 150 } }

/-- Another thread closes the second span. When it has opened the packet, the first span is
closed, and then the packet is written. -/
def overlapped : Option (system flowEnv).Config :=
  System.run
    ([(Call.newSpan 1 sampleMetadata none, 34), (.newSpan 2 sampleMetadata none, 19),
      (.followsFrom 2 1, 22)].flatMap (fun callback =>
        .call 1 callback.1 :: List.replicate callback.2 (.act 1 sampleChoice) ++ [.ret 1]) ++
      .call 2 (.close 2) :: List.replicate 16 (.act 2 sampleChoice) ++
        .call 1 (.close 1) :: List.replicate 12 (.act 1 laterChoice) ++
          [.ret 1, .act 2 sampleChoice])
    (System.idle (State.new 65536))

/-- The last packet has an end of a flow. Its start is read nowhere before, or later. -/
def Overtakes (config : (system flowEnv).Config) : Prop :=
  config.state.shared.hasError = false ∧ config.state.contexts.refused = false ∧
    config.state.trace.Monotone ∧
    ∃ packet ∈ config.state.trace.packets.getLast?.toList, .terminate 9 ∈ packet.ends ∧
      ∀ start ∈ config.state.trace.packets.dropLast, .start 9 ∈ start.ends →
        packet.timestamp < start.timestamp

instance (config : (system flowEnv).Config) : Decidable (Overtakes config) := by
  unfold Overtakes
  infer_instance

/-- In the second run the start is read before the end. -/
def StartsFirst (config : (system flowEnv).Config) : Prop :=
  ∃ start ∈ config.state.trace.packets.dropLast, .start 9 ∈ start.ends

instance (config : (system flowEnv).Config) : Decidable (StartsFirst config) := by
  unfold StartsFirst
  infer_instance

theorem not_causal {config : (system flowEnv).Config} (h : Overtakes config) :
    config.state.Clean ∧ config.state.trace.Monotone ∧ ¬ config.state.trace.Causal := by
  obtain ⟨herror, hrefused, hclock, packet, hlast, hends, hlater⟩ := h
  obtain ⟨before, hpackets⟩ := List.getLast?_eq_some_iff.1 (Option.mem_toList.1 hlast)
  rw [hpackets, List.dropLast_concat] at hlater
  refine ⟨⟨herror, hrefused⟩, hclock, fun hcausal => ?_⟩
  obtain ⟨start, hstart, hstarts, htimes⟩ := hcausal before packet [] hpackets 9 hends
  exact absurd htimes (Nat.not_le.2 (hlater start hstart hstarts))

theorem overtaken_overtakes :
    (overtaken.map fun config => decide (Overtakes config ∧ ¬ StartsFirst config)) =
      some true := by
  decide +kernel

theorem overlapped_overtakes :
    (overlapped.map fun config => decide (Overtakes config ∧ StartsFirst config)) =
      some true := by
  decide +kernel

/-- One follower ends the flow before anything has started it, another one with an earlier
timestamp than the start's, although the clock does not go back. -/
theorem end_before_start :
    (∃ config, overtaken = some config ∧ ¬ StartsFirst config ∧ config.state.Clean ∧
      config.state.trace.Monotone ∧ ¬ config.state.trace.Causal) ∧
    ∃ config, overlapped = some config ∧ StartsFirst config ∧ config.state.Clean ∧
      config.state.trace.Monotone ∧ ¬ config.state.trace.Causal := by
  constructor
  · obtain ⟨config, hrun, hends⟩ := Option.map_eq_some_iff.1 overtaken_overtakes
    rw [decide_eq_true_eq] at hends
    exact ⟨config, hrun, hends.2, not_causal hends.1⟩
  · obtain ⟨config, hrun, hends⟩ := Option.map_eq_some_iff.1 overlapped_overtakes
    rw [decide_eq_true_eq] at hends
    exact ⟨config, hrun, hends.2, not_causal hends.1⟩

end TracingPerfetto.Layer
