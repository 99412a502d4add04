import TracingPerfetto.SpanFields

/-!
The flows in the packets of a span are its own: those that are queued on it, and the poll
flow that was drawn for it.
-/

namespace TracingPerfetto.Layer

open TracingPerfetto.Runtime TracingPerfetto.Sequence TracingPerfetto.TrackEvents
open TracingPerfetto.Counters TracingPerfetto.Threads
open TracingPerfetto.SpanStore (SpanId)

/-! ## What becomes of an entry -/

/-- Where an entry comes from: it was there, it is new, or a callback has changed it under
its guard. A change leaves the track and the poll flow alone, adds the flow that is queued,
and takes away the flows that have been sent. -/
inductive EntryAfter (env : Env) (state : State) (frame : Frame) (action : Act)
    (spanId : SpanId) (entry : Entry) : Prop where
  | kept (h : state.spans.entries spanId = some entry)
      (hapart : ∀ found flow, action = .spans (.pushFlow found flow) → found.spanId ≠ spanId)
  | inserted (metadata : Metadata) (parent : Option SpanId) (data : SpanData) (tier : Tier)
      (hcall : frame.call = .newSpan spanId metadata parent)
      (hpre : pre env frame (.spans (.insert spanId frame.instance_ data)))
      (h : entry = ⟨frame.instance_, data, tier⟩)
  | changed (found : Found) (hguard : frame.guard = some found)
      (hold : state.spans.entries spanId = some found.entry)
      (hinstance : entry.instance_ = found.entry.instance_)
      (hpoll : entry.data.pollFlowId = found.data.pollFlowId)
      (hflows : ∀ flow ∈ entry.data.pendingFlows, flow ∈ found.data.pendingFlows ∨
        action = .spans (.pushFlow found flow))
      (hkept : ∀ flow ∈ found.data.pendingFlows, flow ∈ entry.data.pendingFlows ∨
        frame.Clearing found)
      (hpushed : ∀ flow, action = .spans (.pushFlow found flow) →
        flow ∈ entry.data.pendingFlows)
      (htrack : entry.data.trackUuid = found.data.trackUuid)

section EntryAfter

variable {env : Env} {state state' : State} {frames : Frames} {thread : ThreadId}
  {frame : Frame} {rest : List Frame}

theorem pushFlow_flows {data : SpanData} {flow pushed : PendingFlow}
    (h : flow ∈ (data.pushFlow pushed).pendingFlows) :
    flow ∈ data.pendingFlows ∨ flow = pushed := by
  rcases data with ⟨_, _, _ | retained⟩
  · cases h
  · rcases List.mem_append.1 h with hold | hnew
    · exact .inl hold
    · exact .inr (List.mem_singleton.1 hnew)

theorem pushFlow_pollFlowId (data : SpanData) (pushed : PendingFlow) :
    (data.pushFlow pushed).pollFlowId = data.pollFlowId := by
  rcases data with ⟨_, _, _ | retained⟩
  · rfl
  · rfl

theorem pushFlow_trackUuid (data : SpanData) (pushed : PendingFlow) :
    (data.pushFlow pushed).trackUuid = data.trackUuid := by
  rcases data with ⟨_, _, _ | retained⟩
  · rfl
  · rfl

theorem entry_after (h : Guards env state frames) (hthread : frames thread = frame :: rest)
    {action : Act} {choice : Choice} {reply : action.Reply} (hpre : pre env frame action)
    (hperform : perform env thread action choice state = some (reply, state')) {spanId : SpanId}
    {entry : Entry} (hentry : state'.spans.entries spanId = some entry) :
    EntryAfter env state frame action spanId entry := by
  have hmem : frame ∈ frames thread := Guards.top_mem hthread
  have hsame : state'.spans.entries = state.spans.entries →
      (∀ found flow, action ≠ .spans (.pushFlow found flow)) →
      EntryAfter env state frame action spanId entry := by
    intro heq hpush
    rw [heq] at hentry
    exact .kept hentry fun found flow haction => absurd haction (hpush found flow)
  by_cases hspans : ∃ act, action = .spans act
  · obtain ⟨act, rfl⟩ := hspans
    obtain ⟨spans, haction, rfl⟩ := perform_spans_act hperform
    change spans.entries spanId = some entry at hentry
    cases act with
    | insert created instance_ data =>
        have hinsertion := hpre
        obtain ⟨-, ⟨metadata, parent, hcall⟩, rfl, -⟩ := hpre
        simp only [SpanAct.perform, Option.map_eq_some_iff, Prod.mk.injEq, true_and] at haction
        obtain ⟨inserted, hinsert, rfl⟩ := haction
        obtain ⟨-, hentries, -⟩ := insert_spec hinsert
        rw [hentries, Function.update_apply] at hentry
        split at hentry
        · rename_i heq
          subst heq
          rw [Option.some.injEq] at hentry
          exact .inserted metadata parent data _ hcall hinsertion hentry.symm
        · exact .kept hentry (by simp)
    | get spanId => exact hsame (get_spec haction).1 (by simp)
    | getMut spanId =>
        rcases getMut_spec haction with ⟨shown, -, -, -, -, rfl⟩ | ⟨-, -, rfl⟩
        · exact .kept hentry (by simp)
        · exact .kept hentry (by simp)
    | put found =>
        obtain ⟨shown, hguard, hexclusive, hchanges, hstores, -⟩ := hpre
        simp only [SpanAct.perform, Option.some.injEq, Prod.mk.injEq, true_and] at haction
        subst haction
        simp only [Spans.setEntry, Function.update_apply] at hentry
        split at hentry
        · rename_i heq
          cases hentry
          have hold := h.entry thread frame hmem shown hguard
          rw [← hchanges.spanId, ← heq] at hold
          refine .changed shown hguard hold hchanges.instance_ hstores.pollFlowId
            (fun flow hflow => ?_) (fun flow hflow => ?_) (fun flow hpush => by cases hpush)
            hchanges.trackUuid
          · change flow ∈ found.data.pendingFlows at hflow
            rcases hchanges.flows with ⟨-, hflows⟩ | ⟨-, -, hnil⟩
            · exact .inl (hflows ▸ hflow)
            · rw [hnil] at hflow
              cases hflow
          · rcases hchanges.flows with ⟨-, hflows⟩ | ⟨hsent, hseen, -⟩
            · refine .inl ?_
              change flow ∈ found.data.pendingFlows
              exact hflows ▸ hflow
            · exact .inr ⟨hguard, hexclusive, hsent, hseen⟩
        · exact .kept hentry (by simp)
    | pushFlow found pushed =>
        obtain ⟨hguard, -, -, -, -, -, hretained, -⟩ := hpre
        simp only [SpanAct.perform, Option.some.injEq, Prod.mk.injEq, true_and] at haction
        subst haction
        simp only [Spans.setEntry, Function.update_apply] at hentry
        split at hentry
        · rename_i heq
          cases hentry
          have hold := h.entry thread frame hmem found hguard
          rw [← heq] at hold
          have hpending : (found.withData (found.data.pushFlow pushed)).entry.data.pendingFlows =
              found.data.pendingFlows ++ [pushed] := pushFlow_pending pushed hretained
          refine .changed found hguard hold rfl (pushFlow_pollFlowId _ _) (fun flow hflow => ?_)
            (fun flow hflow => ?_) (fun flow hpush => ?_) (pushFlow_trackUuid _ _)
          · rcases pushFlow_flows hflow with hbefore | rfl
            · exact .inl hbefore
            · exact .inr rfl
          · rw [hpending]
            exact .inl (List.mem_append_left _ hflow)
          · cases hpush
            rw [hpending]
            exact List.mem_append_right _ List.mem_cons_self
        · rename_i hne
          refine .kept hentry fun shown flow hpush => ?_
          cases hpush
          exact Ne.symm hne
    | dropRef found =>
        simp only [SpanAct.perform, Option.some.injEq, Prod.mk.injEq, true_and] at haction
        subst haction
        refine hsame ?_ (by simp)
        simp only [releaseRef]
        split <;> rfl
    | take other =>
        obtain ⟨-, -, -, hcases⟩ := take_spec haction
        rcases hcases with ⟨shown, -, -, -, -, hentries⟩ | ⟨-, -, hentries⟩
        · rw [hentries, Function.update_apply] at hentry
          split at hentry
          · cases hentry
          · exact .kept hentry (by simp)
        · exact hsame hentries (by simp)
    | dropMut | noteFollowsFrom | hasFollowsFrom =>
        simp only [SpanAct.perform, Option.some.injEq, Prod.mk.injEq] at haction
        obtain ⟨-, rfl⟩ := haction
        exact .kept hentry (by simp)
  · refine hsame ?_ fun found flow heq => hspans ⟨_, heq⟩
    rw [perform_spans hperform fun act heq => hspans ⟨act, heq⟩]

theorem taken_after {action : Act} {choice : Choice} {reply : action.Reply}
    (hperform : perform env thread action choice state = some (reply, state')) {found : Found}
    (h : (next frame action reply).taken = some found) :
    frame.taken = some found ∨ (∃ spanId, action = .spans (.take spanId)) ∧
      state.spans.entries found.spanId = some found.entry := by
  by_cases htake : ∃ spanId, action = .spans (.take spanId)
  · obtain ⟨spanId, rfl⟩ := htake
    obtain ⟨spans, haction, rfl⟩ := perform_spans_act hperform
    obtain ⟨-, -, -, ⟨shown, rfl, rfl, hentry, -⟩ | ⟨rfl, -⟩⟩ := take_spec haction
    · cases h
      exact .inr ⟨⟨_, rfl⟩, hentry⟩
    · cases h
  · rw [(next_taken action reply fun spanId heq => htake ⟨spanId, heq⟩).1] at h
    exact .inl h

end EntryAfter

/-! ## The flows of a span -/

/-- Flows are queued on the span that has them. -/
structure OwnFlows (state : State) (frames : Frames) : Prop where
  entry : ∀ spanId entry, state.spans.entries spanId = some entry →
    ∀ flow ∈ entry.data.pendingFlows, flow ∈ state.queuedOn entry.instance_
  taken : Every (fun _ frame => ∀ found, frame.taken = some found →
    ∀ flow ∈ found.data.pendingFlows, flow ∈ state.queuedOn found.entry.instance_) frames
  packets : ∀ packet ∈ state.trace.packets, ∀ flow ∈ packet.content.flows,
    ∃ span, packet.span = some span ∧ flow ∈ state.queuedOn span

section OwnFlows

variable {env : Env} {state state' : State} {frames : Frames} {thread : ThreadId}
  {frame : Frame} {rest : List Frame}

theorem perform_pushFlow {found : Found} {flow : PendingFlow} {choice : Choice} {reply : Unit}
    (h : perform env thread (.spans (.pushFlow found flow)) choice state =
      some (reply, state')) :
    state'.spans.queued = state.spans.queued ++ [(found.entry.instance_, flow, state.time)] := by
  obtain ⟨spans, haction, rfl⟩ := perform_spans_act h
  simp only [SpanAct.perform, Option.some.injEq, Prod.mk.injEq, true_and] at haction
  subst haction
  rfl

theorem queuedOn_mono {action : Act} {choice : Choice} {reply : action.Reply}
    (h : perform env thread action choice state = some (reply, state')) {span : Nat}
    {flow : PendingFlow} (hmem : flow ∈ state.queuedOn span) : flow ∈ state'.queuedOn span := by
  by_cases hpush : ∃ found flow, action = .spans (.pushFlow found flow)
  · obtain ⟨found, pushed, rfl⟩ := hpush
    rw [State.queuedOn, perform_pushFlow h, List.filter_append, List.map_append]
    exact List.mem_append_left _ hmem
  · rw [State.queuedOn, perform_queued h fun found flow heq => hpush ⟨found, flow, heq⟩]
    exact hmem

theorem ownFlows_kept (env : Env) : KeepsInv env AnyCall (Known env) OwnFlows where
  act := by
    rintro state frames thread frame rest action choice reply state' hknown h hthread hpre
      hperform -
    have hmem : frame ∈ frames thread := Guards.top_mem hthread
    have hmono : ∀ {span flow}, flow ∈ state.queuedOn span → flow ∈ state'.queuedOn span :=
      queuedOn_mono hperform
    constructor
    · intro spanId entry hentry flow hflow
      cases entry_after hknown.guards hthread hpre hperform hentry with
      | kept hold _ => exact hmono (h.entry spanId entry hold flow hflow)
      | inserted metadata parent data tier hcall hinsert heq =>
          subst heq
          obtain ⟨-, -, -, -, -, hflows, -⟩ := hinsert
          change flow ∈ data.pendingFlows at hflow
          rw [hflows] at hflow
          cases hflow
      | changed found hguard hold hinstance hpoll hflows hkept hpushed htrack =>
          rw [hinstance]
          rcases hflows flow hflow with hbefore | rfl
          · exact hmono (h.entry spanId found.entry hold flow hbefore)
          · rw [State.queuedOn, perform_pushFlow hperform, List.filter_append, List.map_append]
            apply List.mem_append_right
            simp
    · refine h.taken.step hthread ?_ fun _ _ hvalue found hfound flow hflow =>
        hmono (hvalue found hfound flow hflow)
      intro found hfound flow hflow
      apply hmono
      rcases taken_after hperform hfound with hold | ⟨-, hentry⟩
      · exact h.taken thread frame hmem found hold flow hflow
      · exact h.entry found.spanId found.entry hentry flow hflow
    · intro packet hpacket flow hflow
      have hkept : packet ∈ state.trace.packets → ∃ span, packet.span = some span ∧
          flow ∈ state'.queuedOn span := by
        intro hold
        obtain ⟨span, hspan, hqueued⟩ := h.packets packet hold flow hflow
        exact ⟨span, hspan, hmono hqueued⟩
      by_cases hwrite : ∃ span calledAt content, action = .sequence (.write span calledAt content)
      · obtain ⟨span, calledAt, content, rfl⟩ := hwrite
        obtain ⟨new, hpackets, -, hspan, rfl, -⟩ := perform_write hperform
        rw [hpackets] at hpacket
        rcases List.mem_append.1 hpacket with hold | hlast
        · exact hkept hold
        · rw [List.mem_singleton] at hlast
          subst hlast
          obtain ⟨-, -, -, hwrites⟩ := hpre
          cases span with
          | none =>
              rw [hwrites.1] at hflow
              cases hflow
          | some span =>
              refine ⟨span, hspan, hmono ?_⟩
              cases hwrites with
              | begin spanId metadata metadata' parent uuid visits hcall hguard hsource hcontent =>
                  rw [hcontent] at hflow
                  cases hflow
              | slice found hguard hexclusive hsource hsent hasked hlast hvisits hshows hflows =>
                  subst hsource
                  rw [hflows] at hflow
                  split at hflow
                  · have hentry := hknown.guards.entry thread frame hmem found hguard
                    exact h.entry _ _ hentry flow hflow
                  · cases hflow
              | lifetimeEnd found hfound hguard hunfinished hsource hsent hshows hflows =>
                  subst hsource
                  rw [hflows] at hflow
                  exact h.taken thread frame hmem found hfound flow hflow
      · rw [perform_packets hperform
          fun span calledAt content heq => hwrite ⟨span, calledAt, content, heq⟩] at hpacket
        exact hkept hpacket
  ret := fun _ h hthread _ _ => ⟨h.entry, h.taken.pop hthread, h.packets⟩
  call := by
    intro state frames thread call prog state' hknown h _ _ hcall _
    obtain ⟨registry, -, -, rfl, -⟩ := hknown.ledger.call_admits hcall
    exact ⟨h.entry, h.taken.push (fun _ hfound => by cases hfound) fun _ _ hvalue => hvalue,
      h.packets⟩

theorem ownFlows_new (nextSequenceId : Nat) :
    OwnFlows (State.new nextSequenceId) fun _ => [] where
  entry := fun _ _ hentry => by cases hentry
  taken := fun _ _ hmem => by cases hmem
  packets := fun _ hmem => by cases hmem

end OwnFlows

/-! ## The poll flow of a span -/

/-- The poll flow in a packet that has a place for one. -/
def Content.pollFlow : Content → Option (Option Nat)
  | .body (.threadBegin _ _ shown _) | .body (.pollBegin _ shown _) => some shown
  | _ => none

/-- A poll flow goes with a span where the slices of threads are emitted. -/
structure PollOf (env : Env) (poll : Nat → Option Nat) (span : Nat) (shown : Option Nat) :
    Prop where
  drawn : env.config.spanMode.emitThreadSlices = true → (poll span).isSome = true
  shown : shown = if env.config.spanMode.emitThreadSlices then poll span else none

/-- The poll flows of the spans: each is drawn by the callback that creates the span, and
for nothing else. -/
structure Polls (env : Env) (poll : Nat → Option Nat) (state : State) (frames : Frames) :
    Prop where
  entry : ∀ spanId entry, state.spans.entries spanId = some entry →
    PollOf env poll entry.instance_ entry.data.pollFlowId
  taken : Every (fun _ frame => frame.finished = false → ∀ found, frame.taken = some found →
    PollOf env poll found.entry.instance_ found.data.pollFlowId) frames
  creating : Every (fun _ frame => frame.Creating → frame.drawn = poll frame.instance_) frames
  drawn : Every (fun _ frame => ∀ flow, frame.drawn = some flow →
    flow < state.shared.nextFlowId ∧ ∀ span, poll span = some flow →
      ∃ spanId metadata parent, frame.call = .newSpan spanId metadata parent) frames
  below : ∀ span flow, poll span = some flow →
    flow < state.shared.nextFlowId ∧ span < state.registry.nextInstance
  distinct : ∀ span other flow, poll span = some flow → poll other = some flow → span = other
  packets : ∀ packet ∈ state.trace.packets, ∀ span shown, packet.span = some span →
    packet.content.pollFlow = some shown → Made state frames span ∧ PollOf env poll span shown
  queued : ∀ queued ∈ state.spans.queued, flowId queued.2.1 < state.shared.nextFlowId ∧
    ∀ span, poll span ≠ some (flowId queued.2.1)

section Polls

variable {env : Env} {poll : Nat → Option Nat} {state state' : State} {frames : Frames}
  {thread : ThreadId} {frame : Frame} {rest : List Frame}

theorem perform_nextFlowId {action : Act} {choice : Choice} {reply : action.Reply}
    (h : perform env thread action choice state = some (reply, state'))
    (haction : action ≠ .shared .allocFlowId) :
    state'.shared.nextFlowId = state.shared.nextFlowId := by
  cases action with
  | shared act =>
      simp only [perform, Option.some.injEq, Prod.mk.injEq] at h
      rw [← h.2]
      cases act with
      | allocFlowId => exact absurd rfl haction
      | processTrackUuid | counterTrackUuid =>
          simp only [SharedAct.perform]
          split <;> rfl
      | _ => rfl
  | pools | format | registry =>
      simp only [perform, Option.some.injEq, Prod.mk.injEq] at h
      rw [← h.2]
      rfl
  | spans | context | sequence =>
      simp only [perform, Option.bind_eq_bind, Option.bind_eq_some_iff, Option.some.injEq,
        Prod.mk.injEq] at h
      obtain ⟨_, _, _, rfl⟩ := h
      rfl

theorem next_drawn (action : Act) (reply : action.Reply)
    (haction : action ≠ .shared .allocFlowId) :
    (next frame action reply).drawn = frame.drawn := by
  cases action with
  | shared act =>
      cases act with
      | allocFlowId => exact absurd rfl haction
      | _ => rfl
  | pools act => cases act <;> rfl
  | spans act =>
      cases act with
      | take => cases reply <;> rfl
      | _ => rfl
  | context act =>
      cases act with
      | lookup | cachedTrack | evict | releaseLocal => cases reply <;> rfl
      | _ => rfl
  | sequence act =>
      cases act with
      | write span calledAt content =>
          cases content with
          | body body => cases body <;> rfl
          | _ => rfl
      | _ => rfl
  | registry act => cases act <;> rfl
  | format span => rfl

/-- A packet with a poll flow shows the one of its entry. -/
theorem Polls.written (h : Polls env poll state frames) (hknown : Known env state frames)
    (htaken : Taken env state frames) (hthread : frames thread = frame :: rest)
    {span calledAt : Nat} {content : Content}
    (hpre : pre env frame (.sequence (.write (some span) calledAt content)))
    {shown : Option Nat} (hshown : content.pollFlow = some shown) :
    Made state frames span ∧ PollOf env poll span shown := by
  have hmem : frame ∈ frames thread := Guards.top_mem hthread
  have hpoll : ∀ found : Found, content.Shows found.data → shown = found.data.pollFlowId := by
    intro found hshows
    cases content with
    | body body =>
        cases body with
        | threadBegin =>
            cases hshown
            exact hshows.2
        | pollBegin =>
            cases hshown
            exact hshows
        | _ => cases hshown
    | _ => cases hshown
  obtain ⟨-, -, -, hwrites⟩ := hpre
  cases hwrites with
  | begin spanId metadata metadata' parent uuid visits hcall hguard hsource hcontent =>
      rw [hcontent] at hshown
      cases hshown
  | slice found hguard hexclusive hsource hsent hasked hlast hvisits hshows hflows =>
      subst hsource
      rw [hpoll found hshows]
      have hentry := hknown.guards.entry thread frame hmem found hguard
      exact ⟨hknown.made hentry, h.entry _ _ hentry⟩
  | lifetimeEnd found hfound hguard hunfinished hsource hsent hshows hflows =>
      subst hsource
      rw [hpoll found hshows]
      exact ⟨htaken.made hknown hmem hunfinished hfound,
        h.taken thread frame hmem hunfinished found hfound⟩

theorem pollOf_update {span other flow : Nat} {shown : Option Nat} (hne : other ≠ span)
    (h : PollOf env poll other shown) :
    PollOf env (Function.update poll span (some flow)) other shown := by
  constructor
  · rw [Function.update_of_ne hne]
    exact h.drawn
  · rw [Function.update_of_ne hne]
    exact h.shown

theorem Polls.allocPoll (h : Polls env poll state frames) (hknown : Known env state frames)
    (htaken : Taken env state frames) (hthread : frames thread = frame :: rest)
    (hcreating : frame.Creating) {choice : Choice} {flow : Nat}
    (hperform : perform env thread (.shared .allocFlowId) choice state = some (flow, state')) :
    Polls env (Function.update poll frame.instance_ (some flow)) state'
      (Function.update frames thread (next frame (.shared .allocFlowId) flow :: rest)) := by
  have hmem : frame ∈ frames thread := Guards.top_mem hthread
  have hact : ∀ {span}, Made state frames span → Made state'
      (Function.update frames thread (next frame (.shared .allocFlowId) flow :: rest)) span :=
    fun hmade => hmade.act hthread hperform
  simp only [perform, SharedAct.perform, Option.some.injEq, Prod.mk.injEq] at hperform
  obtain ⟨rfl, rfl⟩ := hperform
  have hother : ∀ {span flow : Nat}, flow < state.shared.nextFlowId →
      Function.update poll frame.instance_ (some state.shared.nextFlowId) span = some flow →
      poll span = some flow := by
    intro span flow hlt hpoll
    rw [Function.update_apply] at hpoll
    split at hpoll
    · rw [Option.some.injEq] at hpoll
      omega
    · exact hpoll
  constructor
  · intro spanId entry hentry
    exact pollOf_update (hknown.creating_apart hmem hcreating hentry)
      (h.entry spanId entry hentry)
  · refine h.taken.step_apart hknown.ledger.distinct hthread ?_ ?_
    · intro hunfinished found hfound
      exact pollOf_update
        (htaken.creating_apart hknown hmem hcreating hmem hunfinished hfound)
        (h.taken thread frame hmem hunfinished found hfound)
    · intro other value hvalue _ hold hunfinished found hfound
      exact pollOf_update
        (htaken.creating_apart hknown hmem hcreating hvalue hunfinished hfound)
        (hold hunfinished found hfound)
  · refine h.creating.step_apart hknown.ledger.distinct hthread ?_ ?_
    · intro _
      exact (Function.update_self frame.instance_ (some state.shared.nextFlowId) poll).symm
    · intro other value hvalue hdistinct hold hnew
      rw [Function.update_of_ne
        (hknown.creating_distinct hmem hcreating hvalue hnew hdistinct)]
      exact hold hnew
  · refine h.drawn.step hthread ?_ ?_
    · intro drawn hdrawn
      cases hdrawn
      exact ⟨Nat.lt_succ_self _, fun _ _ => hcreating.call⟩
    · intro other value hold drawn hdrawn
      obtain ⟨hlt, hcall⟩ := hold drawn hdrawn
      exact ⟨Nat.lt_succ_of_lt hlt, fun span hpoll => hcall span (hother hlt hpoll)⟩
  · intro span flow hpoll
    rw [Function.update_apply] at hpoll
    split at hpoll
    · rename_i hspan
      cases hpoll
      obtain ⟨spanId, metadata, parent, hcall⟩ := hcreating.call
      obtain ⟨span', hspan', hinstance⟩ :=
        (hknown.ledger.filed thread frame hmem hcreating.unfinished).creates hcall
      rw [hspan, ← hinstance]
      exact ⟨Nat.lt_succ_self _, hknown.ledger.issued _ span' hspan'⟩
    · obtain ⟨hlt, hissued⟩ := h.below span flow hpoll
      exact ⟨Nat.lt_succ_of_lt hlt, hissued⟩
  · intro span other flow hpoll hpoll'
    by_cases hlt : flow < state.shared.nextFlowId
    · exact h.distinct span other flow (hother hlt hpoll) (hother hlt hpoll')
    · have hnew : ∀ {span}, Function.update poll frame.instance_
          (some state.shared.nextFlowId) span = some flow → span = frame.instance_ := by
        intro span hvalue
        by_contra hne
        rw [Function.update_of_ne hne] at hvalue
        exact hlt (h.below span flow hvalue).1
      rw [hnew hpoll, hnew hpoll']
  · intro packet hpacket span shown hspan hshown
    obtain ⟨hmade, hpoll⟩ := h.packets packet hpacket span shown hspan hshown
    refine ⟨hact hmade, pollOf_update ?_ hpoll⟩
    exact (hmade.creating thread frame hmem hcreating).symm
  · intro queued hqueued
    obtain ⟨hlt, hapart⟩ := h.queued queued hqueued
    exact ⟨Nat.lt_succ_of_lt hlt, fun span hpoll => hapart span (hother hlt hpoll)⟩

/-- A flow that is drawn for an edge is nobody's poll flow. -/
theorem Polls.allocOther (h : Polls env poll state frames)
    (hthread : frames thread = frame :: rest) (hcreating : ¬ frame.Creating) {choice : Choice}
    {flow : Nat}
    (hperform : perform env thread (.shared .allocFlowId) choice state = some (flow, state')) :
    Polls env poll state'
      (Function.update frames thread (next frame (.shared .allocFlowId) flow :: rest)) := by
  have hmem : frame ∈ frames thread := Guards.top_mem hthread
  have hact : ∀ {span}, Made state frames span → Made state'
      (Function.update frames thread (next frame (.shared .allocFlowId) flow :: rest)) span :=
    fun hmade => hmade.act hthread hperform
  simp only [perform, SharedAct.perform, Option.some.injEq, Prod.mk.injEq] at hperform
  obtain ⟨rfl, rfl⟩ := hperform
  constructor
  · exact h.entry
  · exact h.taken.step hthread (h.taken thread frame hmem) fun _ _ hvalue => hvalue
  · refine h.creating.step hthread (fun hnew => ?_) fun _ _ hvalue => hvalue
    exact absurd ⟨hnew.unfinished, hnew.inserted, hnew.call⟩ hcreating
  · refine h.drawn.step hthread ?_ ?_
    · intro drawn hdrawn
      cases hdrawn
      refine ⟨Nat.lt_succ_self _, fun span hpoll => ?_⟩
      have hlt := (h.below span _ hpoll).1
      exact absurd hlt (Nat.lt_irrefl _)
    · intro other value hold drawn hdrawn
      obtain ⟨hlt, hcall⟩ := hold drawn hdrawn
      exact ⟨Nat.lt_succ_of_lt hlt, hcall⟩
  · intro span flow hpoll
    obtain ⟨hlt, hissued⟩ := h.below span flow hpoll
    exact ⟨Nat.lt_succ_of_lt hlt, hissued⟩
  · exact h.distinct
  · intro packet hpacket span shown hspan hshown
    obtain ⟨hmade, hpoll⟩ := h.packets packet hpacket span shown hspan hshown
    exact ⟨hact hmade, hpoll⟩
  · intro queued hqueued
    obtain ⟨hlt, hapart⟩ := h.queued queued hqueued
    exact ⟨Nat.lt_succ_of_lt hlt, hapart⟩

theorem Polls.queued_after (h : Polls env poll state frames)
    (hthread : frames thread = frame :: rest) {action : Act} {choice : Choice}
    {reply : action.Reply} (hpre : pre env frame action)
    (hperform : perform env thread action choice state = some (reply, state'))
    {queued : Nat × PendingFlow × Nat} (hmem : queued ∈ state'.spans.queued) :
    flowId queued.2.1 < state.shared.nextFlowId ∧
      ∀ span, poll span ≠ some (flowId queued.2.1) := by
  by_cases hpush : ∃ found flow, action = .spans (.pushFlow found flow)
  · obtain ⟨found, pushed, rfl⟩ := hpush
    rw [perform_pushFlow hperform] at hmem
    rcases List.mem_append.1 hmem with hold | hnew
    · exact h.queued queued hold
    · rw [List.mem_singleton] at hnew
      subst hnew
      obtain ⟨-, -, -, -, -, hdrawn, -, -, spanId, follows, hcall⟩ := hpre
      obtain ⟨hlt, hcalls⟩ := h.drawn thread frame (Guards.top_mem hthread) _ hdrawn
      refine ⟨hlt, fun span hpoll => ?_⟩
      obtain ⟨created, metadata, parent, hnew⟩ := hcalls span hpoll
      rw [hcall] at hnew
      cases hnew
  · rw [perform_queued hperform fun found flow heq => hpush ⟨found, flow, heq⟩] at hmem
    exact h.queued queued hmem

theorem Polls.step (h : Polls env poll state frames) (hknown : Known env state frames)
    (htaken : Taken env state frames) (hthread : frames thread = frame :: rest) {action : Act}
    {choice : Choice} {reply : action.Reply} (haction : action ≠ .shared .allocFlowId)
    (hpre : pre env frame action)
    (hperform : perform env thread action choice state = some (reply, state')) :
    Polls env poll state' (Function.update frames thread (next frame action reply :: rest)) := by
  have hmem : frame ∈ frames thread := Guards.top_mem hthread
  have hflow := perform_nextFlowId hperform haction
  have hdrawn := @next_drawn frame action reply haction
  constructor
  · intro spanId entry hentry
    cases entry_after hknown.guards hthread hpre hperform hentry with
    | kept hold _ => exact h.entry spanId entry hold
    | inserted metadata parent data tier hcall hinsert heq =>
        subst heq
        obtain ⟨-, -, -, hinserted, hfinished, -, -, -, hbegins⟩ := hinsert
        have hpoll : frame.drawn = poll frame.instance_ :=
          h.creating thread frame hmem ⟨hfinished, hinserted, spanId, metadata, parent, hcall⟩
        constructor
        · intro hslices
          rw [← hpoll]
          exact hbegins.drawn hslices
        · rw [← hpoll]
          exact hbegins.pollFlowId
    | changed found hguard hold hinstance hpoll hflows hkept hpushed htrack =>
        rw [hinstance, hpoll]
        exact h.entry spanId found.entry hold
  · refine h.taken.step hthread ?_ fun _ _ hvalue => hvalue
    intro hunfinished found hfound
    rcases taken_after hperform hfound with hold | ⟨-, hentry⟩
    · exact h.taken thread frame hmem (unfinished_before action reply hunfinished) found hold
    · exact h.entry found.spanId found.entry hentry
  · refine h.creating.step hthread (fun hnew => ?_) fun _ _ hvalue => hvalue
    rw [hdrawn, (next_call action reply).instance_]
    exact h.creating thread frame hmem (creating_before action reply hnew)
  · rw [hflow]
    refine h.drawn.step hthread ?_ fun _ _ hvalue => hvalue
    rw [hdrawn, (next_call action reply).call]
    exact h.drawn thread frame hmem
  · rw [hflow, perform_issued hperform]
    exact h.below
  · exact h.distinct
  · intro packet hpacket span shown hspan hshown
    have hkept : packet ∈ state.trace.packets → Made state'
        (Function.update frames thread (next frame action reply :: rest)) span ∧
          PollOf env poll span shown := by
      intro hold
      obtain ⟨hmade, hpoll⟩ := h.packets packet hold span shown hspan hshown
      exact ⟨hmade.act hthread hperform, hpoll⟩
    by_cases hwrite : ∃ span calledAt content, action = .sequence (.write span calledAt content)
    · obtain ⟨written, calledAt, content, rfl⟩ := hwrite
      obtain ⟨new, hpackets, -, hnew, rfl, -⟩ := perform_write hperform
      rw [hpackets] at hpacket
      rcases List.mem_append.1 hpacket with hold | hlast
      · exact hkept hold
      · rw [List.mem_singleton] at hlast
        subst hlast
        rw [hspan] at hnew
        subst hnew
        obtain ⟨hmade, hpoll⟩ := h.written hknown htaken hthread hpre hshown
        exact ⟨hmade.act hthread hperform, hpoll⟩
    · rw [perform_packets hperform
        fun span calledAt content heq => hwrite ⟨span, calledAt, content, heq⟩] at hpacket
      exact hkept hpacket
  · intro queued hqueued
    rw [hflow]
    exact h.queued_after hthread hpre hperform hqueued

theorem polls_kept (env : Env) :
    KeepsInv env AnyCall
      (fun state frames => Known env state frames ∧ Excuses env state frames ∧
        Taken env state frames)
      (fun state frames => ∃ poll, Polls env poll state frames) where
  act := by
    rintro state frames thread frame rest action choice reply state' ⟨hknown, -, htaken⟩
      ⟨poll, h⟩ hthread hpre hperform -
    by_cases halloc : action = .shared .allocFlowId
    · subst halloc
      have hdraws : perform env thread (.shared .allocFlowId) choice state =
          some (reply, state') := hperform
      by_cases hcreating : frame.Creating
      · exact ⟨_, h.allocPoll hknown htaken hthread hcreating hdraws⟩
      · exact ⟨poll, h.allocOther hthread hcreating hdraws⟩
    · exact ⟨poll, h.step hknown htaken hthread halloc hpre hperform⟩
  ret := by
    rintro state frames thread frame rest - ⟨poll, h⟩ hthread - -
    refine ⟨poll, h.entry, h.taken.pop hthread, h.creating.pop hthread, h.drawn.pop hthread,
      h.below, h.distinct, fun packet hpacket span shown hspan hshown => ?_, h.queued⟩
    obtain ⟨hmade, hpoll⟩ := h.packets packet hpacket span shown hspan hshown
    exact ⟨⟨hmade.issued, hmade.creating.pop hthread⟩, hpoll⟩
  call := by
    rintro state frames thread call prog state' ⟨hknown, -⟩ ⟨poll, h⟩ - - hcall -
    obtain ⟨registry, -, hadmits, rfl, -⟩ := hknown.ledger.call_admits hcall
    refine ⟨poll, h.entry, h.taken.push (fun _ _ hfound => by cases hfound)
        fun _ _ hvalue => hvalue,
      h.creating.push (fun _ => ?_) fun _ _ hvalue => hvalue,
      h.drawn.push (fun _ hdrawn => by cases hdrawn) fun _ _ hvalue => hvalue,
      fun span flow hpoll => ?_, h.distinct,
      fun packet hpacket span shown hspan hshown => ?_, h.queued⟩
    · change none = poll state.registry.nextInstance
      cases hpoll : poll state.registry.nextInstance with
      | none => rfl
      | some flow =>
          have hlt := (h.below _ flow hpoll).2
          omega
    · obtain ⟨hlt, hissued⟩ := h.below span flow hpoll
      exact ⟨hlt, hissued.trans_le hadmits.issued⟩
    · obtain ⟨hmade, hpoll⟩ := h.packets packet hpacket span shown hspan hshown
      exact ⟨hmade.call hadmits, hpoll⟩

theorem polls_new (env : Env) (nextSequenceId : Nat) :
    Polls env (fun _ => none) (State.new nextSequenceId) fun _ => [] where
  entry := fun _ _ hentry => by cases hentry
  taken := fun _ _ hmem => by cases hmem
  creating := fun _ _ hmem => by cases hmem
  drawn := fun _ _ hmem => by cases hmem
  below := fun _ _ hpoll => by cases hpoll
  distinct := fun _ _ _ hpoll => by cases hpoll
  packets := fun _ hmem => by cases hmem
  queued := fun _ hmem => by cases hmem

end Polls

end TracingPerfetto.Layer
