import TracingPerfetto.LayerFlows
import TracingPerfetto.LayerPackets
import TracingPerfetto.Reentrancy

/-!
Everybody who gets hold of an entry sees the flows that are queued on it, because the
lock of the entry passes on that there are flows at all. So each packet of a span takes
along what is queued, and nothing is left when the span is closed.
-/

namespace TracingPerfetto.Layer

open TracingPerfetto.Runtime TracingPerfetto.Sequence TracingPerfetto.TrackEvents
open TracingPerfetto.Counters TracingPerfetto.Threads
open TracingPerfetto.PacketFields (FlowEnd endOf)
open TracingPerfetto.SpanStore (SpanId activeShard)

/-! ## Who knows that there are flows -/

/-- Whoever gets the lock next, or has it, knows that there are flows. -/
def Spans.Noticed (spans : Spans) (lock : Lock) : Prop :=
  spans.passes lock = true ∨ ∃ thread, spans.owner lock = some thread ∧ spans.knows thread = true

section Notices

variable {env : Env} {state state' : State} {frames : Frames} {thread : ThreadId}
  {frame frame' : Frame} {rest : List Frame} {found : Found}

theorem perform_learns {action : Act} {choice : Choice} {reply : action.Reply}
    (h : perform env thread action choice state = some (reply, state')) :
    Learns state.spans state'.spans := by
  by_cases hspans : ∃ act, action = .spans act
  · obtain ⟨act, rfl⟩ := hspans
    obtain ⟨spans, hact, rfl⟩ := perform_spans_act h
    change Learns state.spans spans
    cases act with
    | insert spanId instance_ data =>
        simp only [SpanAct.perform, Option.map_eq_some_iff, Prod.mk.injEq, true_and] at hact
        obtain ⟨inserted, hinsert, rfl⟩ := hact
        exact (insert_spec hinsert).2.2.2.1
    | get spanId => exact (get_spec hact).2.1
    | getMut spanId =>
        rcases getMut_spec hact with ⟨shown, -, -, -, -, rfl⟩ | ⟨-, -, rfl⟩
        · have hlearns := learns_learn state.spans thread (shown.lock env)
          exact ⟨hlearns.knows, hlearns.passes⟩
        · exact .refl _
    | put found | pushFlow found flow =>
        simp only [SpanAct.perform, Option.some.injEq, Prod.mk.injEq, true_and] at hact
        subst hact
        exact ⟨fun _ h => h, fun _ h => h⟩
    | dropRef found =>
        simp only [SpanAct.perform, Option.some.injEq, Prod.mk.injEq, true_and] at hact
        subst hact
        simp only [releaseRef]
        split
        · have hlearns := learns_pass state.spans thread (.fast (activeShard found.spanId))
          exact ⟨hlearns.knows, hlearns.passes⟩
        · have hlearns := learns_pass state.spans thread (.map (env.mapShard found.spanId))
          exact ⟨hlearns.knows, hlearns.passes⟩
    | dropMut found =>
        simp only [SpanAct.perform, Option.some.injEq, Prod.mk.injEq, true_and] at hact
        subst hact
        have hlearns := learns_pass state.spans thread
          (Spans.lockOf env.mapShard found.spanId found.entry.tier)
        exact ⟨hlearns.knows, hlearns.passes⟩
    | take spanId => exact (take_spec hact).2.1
    | noteFollowsFrom =>
        simp only [SpanAct.perform, Option.some.injEq, Prod.mk.injEq, true_and] at hact
        subst hact
        refine ⟨fun other hknows => ?_, fun _ h => h⟩
        simp only [Function.update_apply]
        split
        · rfl
        · exact hknows
    | hasFollowsFrom =>
        simp only [SpanAct.perform, Option.some.injEq, Prod.mk.injEq] at hact
        obtain ⟨-, rfl⟩ := hact
        refine ⟨fun other hknows => ?_, fun _ h => h⟩
        simp only [Function.update_apply]
        split
        · rename_i heq
          rw [← heq, hknows, Bool.true_or]
        · exact hknows
  · rw [perform_spans h fun act heq => hspans ⟨act, heq⟩]
    exact .refl _

theorem Spans.Noticed.mono {spans spans' : Spans} {lock : Lock} (h : spans.Noticed lock)
    (hlearns : Learns spans spans') (howner : spans'.owner lock = spans.owner lock) :
    spans'.Noticed lock := by
  rcases h with hpasses | ⟨holder, hholder, hknows⟩
  · exact .inl (hlearns.passes lock hpasses)
  · exact .inr ⟨holder, howner.trans hholder, hlearns.knows holder hknows⟩

theorem Spans.Noticed.lock {spans : Spans} {lock taken : Lock} (h : spans.Noticed lock)
    (hfree : spans.free taken = true) : (spans.lock thread taken).Noticed lock := by
  have hlearns := learns_learn spans thread taken
  by_cases heq : lock = taken
  · subst heq
    rcases h with hpasses | ⟨holder, hholder, -⟩
    · exact .inl hpasses
    · rw [free_owner hfree] at hholder
      cases hholder
  · refine h.mono ⟨hlearns.knows, hlearns.passes⟩ ?_
    simp [Spans.lock, heq]

/-- The owner passes on what it knows. -/
theorem Spans.Noticed.unlock {spans : Spans} {lock dropped : Lock} (h : spans.Noticed lock)
    (howner : spans.owner dropped = some thread) :
    (spans.unlock thread dropped).Noticed lock := by
  have hlearns := learns_pass spans thread dropped
  by_cases heq : lock = dropped
  · subst heq
    rcases h with hpasses | ⟨holder, hholder, hknows⟩
    · exact .inl (hlearns.passes lock hpasses)
    · rw [howner, Option.some.injEq] at hholder
      subst hholder
      exact .inl (pass_passes _ lock hknows)
  · refine h.mono ⟨hlearns.knows, hlearns.passes⟩ ?_
    simp [Spans.unlock, Spans.pass, heq]

theorem noticed_kept {action : Act} {choice : Choice} {reply : action.Reply}
    (hguards : Guards env state frames) (hthread : frames thread = frame :: rest)
    (hpre : pre env frame action)
    (hperform : perform env thread action choice state = some (reply, state')) {lock : Lock}
    (h : state.spans.Noticed lock) : state'.spans.Noticed lock := by
  have hmem : frame ∈ frames thread := Guards.top_mem hthread
  have hlearns := perform_learns hperform
  by_cases hspans : ∃ act, action = .spans act
  · obtain ⟨act, rfl⟩ := hspans
    obtain ⟨spans, hact, rfl⟩ := perform_spans_act hperform
    change spans.Noticed lock
    cases act with
    | insert spanId instance_ data =>
        simp only [SpanAct.perform, Option.map_eq_some_iff, Prod.mk.injEq, true_and] at hact
        obtain ⟨inserted, hinsert, rfl⟩ := hact
        exact h.mono hlearns (congrFun (insert_spec hinsert).2.2.1.owner lock)
    | get spanId =>
        obtain ⟨-, -, -, ⟨shown, -, -, -, ⟨-, hfree, rfl⟩ | ⟨-, -, howner, -⟩⟩ | ⟨-, -, rfl⟩⟩ :=
          get_spec hact
        · exact h.lock hfree
        · exact h.mono hlearns (congrFun howner lock)
        · exact h
    | getMut spanId =>
        rcases getMut_spec hact with ⟨shown, -, -, -, hfree, rfl⟩ | ⟨-, -, rfl⟩
        · exact h.lock hfree
        · exact h
    | put found | pushFlow found flow | noteFollowsFrom | hasFollowsFrom =>
        simp only [SpanAct.perform, Option.some.injEq, Prod.mk.injEq] at hact
        obtain ⟨-, rfl⟩ := hact
        exact h.mono hlearns rfl
    | dropRef found =>
        obtain ⟨hguard, hexclusive⟩ := hpre
        simp only [SpanAct.perform, Option.some.injEq, Prod.mk.injEq, true_and] at hact
        subst hact
        cases htier : found.entry.tier with
        | fast =>
            have howner := hguards.owner thread frame hmem found hguard
              (by simp [Found.sole, htier])
            have hlock : found.lock env = .fast (activeShard found.spanId) := by
              simp [Found.lock, htier, Spans.lockOf]
            rw [releaseRef, htier]
            exact h.unlock (hlock ▸ howner)
        | overflow =>
            refine h.mono hlearns ?_
            rw [releaseRef, htier]
            rfl
    | dropMut found =>
        obtain ⟨hguard, hexclusive, -⟩ := hpre
        simp only [SpanAct.perform, Option.some.injEq, Prod.mk.injEq, true_and] at hact
        subst hact
        exact h.unlock (hguards.owner thread frame hmem found hguard (by rw [hexclusive]; rfl))
    | take spanId => exact h.mono hlearns (congrFun (take_spec hact).1.owner lock)
  · rw [perform_spans hperform fun act heq => hspans ⟨act, heq⟩]
    exact h

end Notices

/-- Flows in an entry are no secret to those who have its lock. -/
structure Notices (env : Env) (state : State) (frames : Frames) : Prop where
  entry : ∀ spanId entry, state.spans.entries spanId = some entry →
    entry.data.pendingFlows ≠ [] → state.spans.Noticed (Found.lock env ⟨spanId, entry⟩)
  noted : Every (fun thread frame => frame.noted = true → state.spans.knows thread = true) frames
  guard : Every (fun thread frame => ∀ found, frame.guard = some found →
    frame.exclusive = true → found.data.pendingFlows ≠ [] →
      state.spans.knows thread = true) frames
  asked : Every (fun _ frame => ∀ found, frame.guard = some found → frame.asked = true →
    frame.seen = false → found.data.pendingFlows = []) frames

section Notices

variable {env : Env} {state state' : State} {frames : Frames} {thread : ThreadId}
  {frame frame' : Frame} {rest : List Frame}

theorem Notices.step (h : Notices env state frames) (hthread : frames thread = frame :: rest)
    (hlearns : Learns state.spans state'.spans)
    (hentry : ∀ spanId entry, state'.spans.entries spanId = some entry →
      entry.data.pendingFlows ≠ [] → state'.spans.Noticed (Found.lock env ⟨spanId, entry⟩))
    (hnoted : frame'.noted = true → state'.spans.knows thread = true)
    (hguard : ∀ found, frame'.guard = some found → frame'.exclusive = true →
      found.data.pendingFlows ≠ [] → state'.spans.knows thread = true)
    (hasked : ∀ found, frame'.guard = some found → frame'.asked = true → frame'.seen = false →
      found.data.pendingFlows = []) :
    Notices env state' (Function.update frames thread (frame' :: rest)) where
  entry := hentry
  noted := h.noted.step hthread hnoted fun other _ hvalue hnoted =>
    hlearns.knows other (hvalue hnoted)
  guard := h.guard.step hthread hguard fun other _ hvalue found hfound hexclusive hpending =>
    hlearns.knows other (hvalue found hfound hexclusive hpending)
  asked := h.asked.step hthread hasked fun _ _ hvalue => hvalue

theorem notices_spans {action : SpanAct} {choice : Choice} {reply : action.Reply}
    (h : Notices env state frames) (hguards : Guards env state frames)
    (hthread : frames thread = frame :: rest) (hpre : pre env frame (.spans action))
    (hperform : perform env thread (.spans action) choice state = some (reply, state')) :
    Notices env state'
      (Function.update frames thread (next frame (.spans action) reply :: rest)) := by
  have hmem : frame ∈ frames thread := Guards.top_mem hthread
  have hlearns := perform_learns hperform
  have hnoticed : ∀ {lock : Lock}, state.spans.Noticed lock → state'.spans.Noticed lock :=
    fun hlock => noticed_kept hguards hthread hpre hperform hlock
  have hold : ∀ spanId entry, state.spans.entries spanId = some entry →
      entry.data.pendingFlows ≠ [] → state'.spans.Noticed (Found.lock env ⟨spanId, entry⟩) :=
    fun spanId entry hentry hpending => hnoticed (h.entry spanId entry hentry hpending)
  have hnoted : frame.noted = true → state'.spans.knows thread = true :=
    fun hvalue => hlearns.knows thread (h.noted thread frame hmem hvalue)
  have hguarded : ∀ found, frame.guard = some found → frame.exclusive = true →
      found.data.pendingFlows ≠ [] → state'.spans.knows thread = true :=
    fun found hguard hexclusive hpending =>
      hlearns.knows thread (h.guard thread frame hmem found hguard hexclusive hpending)
  obtain ⟨spans, haction, rfl⟩ := perform_spans_act hperform
  cases action with
  | insert spanId instance_ data =>
      obtain ⟨⟨hguard, -⟩, -, -, -, -, hflows, -⟩ := hpre
      simp only [SpanAct.perform, Option.map_eq_some_iff, Prod.mk.injEq, true_and] at haction
      obtain ⟨inserted, hinsert, rfl⟩ := haction
      obtain ⟨-, hentries, -⟩ := insert_spec hinsert
      refine h.step hthread hlearns ?_ hnoted hguarded fun found hfound => ?_
      · intro other entry hentry hpending
        rw [show inserted.entries = _ from hentries, Function.update_apply] at hentry
        split at hentry
        · cases hentry
          exact absurd hflows hpending
        · exact hold other entry hentry hpending
      · change frame.guard = some found at hfound
        rw [hguard] at hfound
        cases hfound
  | get spanId =>
      obtain ⟨hentries, -⟩ := get_spec haction
      refine h.step hthread hlearns ?_ hnoted (fun _ _ hexclusive => by cases hexclusive)
        fun _ _ hasked => by cases hasked
      intro other entry hentry
      rw [show spans.entries = _ from hentries] at hentry
      exact hold other entry hentry
  | getMut spanId =>
      rcases getMut_spec haction with ⟨shown, rfl, rfl, hentry, hfree, rfl⟩ | ⟨rfl, -, rfl⟩
      · refine h.step hthread hlearns hold hnoted ?_ fun _ _ hasked => by cases hasked
        rintro found hfound - hpending
        cases hfound
        rcases h.entry _ _ hentry hpending with hpasses | ⟨holder, hholder, -⟩
        · exact learn_knows thread _ hpasses
        · have hnone := free_owner hfree
          rw [show state.spans.owner (shown.lock env) = _ from hholder] at hnone
          cases hnone
      · exact h.step hthread hlearns hold hnoted (fun _ hfound => by cases hfound)
          fun _ hfound => by cases hfound
  | put found =>
      obtain ⟨shown, hguard, hexclusive, hchanges, -⟩ := hpre
      simp only [SpanAct.perform, Option.some.injEq, Prod.mk.injEq, true_and] at haction
      subst haction
      have hshown := hguards.entry thread frame hmem shown hguard
      have hflows : found.data.pendingFlows ≠ [] → found.data.pendingFlows =
          shown.data.pendingFlows := by
        intro hpending
        rcases hchanges.flows with ⟨-, hsame⟩ | ⟨-, -, hnil⟩
        · exact hsame
        · exact absurd hnil hpending
      refine h.step hthread hlearns ?_ hnoted ?_ ?_
      · intro other entry hentry hpending
        simp only [Spans.setEntry, Function.update_apply] at hentry
        split at hentry
        · rename_i heq
          cases hentry
          have hlock : Found.lock env ⟨other, found.entry⟩ =
              Found.lock env ⟨shown.spanId, shown.entry⟩ := by
            rw [Found.lock, Found.lock, heq, hchanges.spanId, hchanges.tier]
          rw [hlock]
          apply hold _ _ hshown
          have hsame := hflows hpending
          intro hnil
          exact hpending (hsame.trans hnil)
        · exact hold other entry hentry hpending
      · rintro next hnext - hpending
        cases hnext
        exact hguarded shown hguard hexclusive fun hnil => hpending ((hflows hpending).trans hnil)
      · rintro next hnext hasked hseen
        cases hnext
        have hnil := h.asked thread frame hmem shown hguard hasked hseen
        by_contra hpending
        exact hpending ((hflows hpending).trans hnil)
  | pushFlow found flow =>
      obtain ⟨hguard, hexclusive, hnotes, -, hasked, -⟩ := hpre
      simp only [SpanAct.perform, Option.some.injEq, Prod.mk.injEq, true_and] at haction
      subst haction
      have howner := hguards.owner thread frame hmem found hguard (by rw [hexclusive]; rfl)
      refine h.step hthread hlearns ?_ hnoted (fun _ _ _ _ => hnoted hnotes) ?_
      · intro other entry hentry hpending
        simp only [Spans.setEntry, Function.update_apply] at hentry
        split at hentry
        · rename_i heq
          cases hentry
          subst heq
          exact .inr ⟨thread, howner, hnoted hnotes⟩
        · exact hold other entry hentry hpending
      · rintro next - hvalue
        change frame.asked = true at hvalue
        rw [hasked] at hvalue
        cases hvalue
  | dropRef found =>
      simp only [SpanAct.perform, Option.some.injEq, Prod.mk.injEq, true_and] at haction
      subst haction
      refine h.step hthread hlearns ?_ hnoted (fun _ hfound => by cases hfound)
        fun _ hfound => by cases hfound
      intro other entry hentry
      apply hold
      simp only [releaseRef] at hentry
      split at hentry <;> exact hentry
  | dropMut found =>
      simp only [SpanAct.perform, Option.some.injEq, Prod.mk.injEq, true_and] at haction
      subst haction
      exact h.step hthread hlearns hold hnoted (fun _ hfound => by cases hfound)
        fun _ hfound => by cases hfound
  | take spanId =>
      obtain ⟨⟨hguard, -⟩, -⟩ := hpre
      have hguard' : (next frame (.spans (.take spanId)) reply).guard = none := by
        cases reply <;> exact hguard
      have hnoted' : (next frame (.spans (.take spanId)) reply).noted = frame.noted := by
        cases reply <;> rfl
      obtain ⟨-, -, -, hcases⟩ := take_spec haction
      refine h.step hthread hlearns ?_ (fun hvalue => hnoted (hnoted'.symm.trans hvalue)) ?_ ?_
      · intro other entry hentry
        rcases hcases with ⟨shown, -, -, -, -, hentries⟩ | ⟨-, -, hentries⟩
        · rw [show spans.entries = _ from hentries, Function.update_apply] at hentry
          split at hentry
          · cases hentry
          · exact hold other entry hentry
        · rw [show spans.entries = _ from hentries] at hentry
          exact hold other entry hentry
      · intro found hfound
        change (next frame (.spans (.take spanId)) reply).guard = some found at hfound
        rw [hguard'] at hfound
        cases hfound
      · intro found hfound
        change (next frame (.spans (.take spanId)) reply).guard = some found at hfound
        rw [hguard'] at hfound
        cases hfound
  | noteFollowsFrom =>
      simp only [SpanAct.perform, Option.some.injEq, Prod.mk.injEq, true_and] at haction
      subst haction
      exact h.step hthread hlearns hold (fun _ => Function.update_self ..) hguarded
        (h.asked thread frame hmem)
  | hasFollowsFrom =>
      obtain ⟨-, hexclusive, -⟩ := hpre
      simp only [SpanAct.perform, Option.some.injEq, Prod.mk.injEq] at haction
      obtain ⟨rfl, rfl⟩ := haction
      refine h.step hthread hlearns hold hnoted hguarded ?_
      rintro found hguard - hseen
      by_contra hpending
      have hknows := h.guard thread frame hmem found hguard hexclusive hpending
      change (state.spans.knows thread || _) = false at hseen
      rw [hknows] at hseen
      cases hseen

theorem notices_kept (env : Env) : KeepsInv env AnyCall (Known env) (Notices env) where
  act := by
    intro state frames thread frame rest action choice reply state' hknown h hthread hpre hperform
      _
    by_cases hspans : ∃ act, action = .spans act
    · obtain ⟨act, rfl⟩ := hspans
      exact notices_spans h hknown.guards hthread hpre hperform
    · have hspans' : ∀ act, action ≠ .spans act := fun act heq => hspans ⟨act, heq⟩
      have hsame := next_same_spans frame action reply hspans'
      have hstore := perform_spans hperform hspans'
      have hmem : frame ∈ frames thread := Guards.top_mem hthread
      refine h.step hthread (perform_learns hperform) (hstore ▸ h.entry) ?_ ?_ ?_
      · intro hnoted
        rw [hstore]
        exact h.noted thread frame hmem (hsame.noted.symm.trans hnoted)
      · intro found hguard hexclusive
        rw [hstore]
        exact h.guard thread frame hmem found (hsame.guard.symm.trans hguard)
          (hsame.exclusive.symm.trans hexclusive)
      · intro found hguard hasked hseen
        exact h.asked thread frame hmem found (hsame.guard.symm.trans hguard)
          (hsame.asked.symm.trans hasked) (hsame.seen.symm.trans hseen)
  ret := fun _ h hthread _ _ =>
    ⟨h.entry, h.noted.pop hthread, h.guard.pop hthread, h.asked.pop hthread⟩
  call := by
    intro state frames thread call prog state' hknown h _ _ hcall _
    obtain ⟨registry, -, -, rfl, -⟩ := hknown.ledger.call_admits hcall
    exact ⟨h.entry, h.noted.push (fun hnoted => by cases hnoted) fun _ _ hvalue => hvalue,
      h.guard.push (fun _ hfound => by cases hfound) fun _ _ hvalue => hvalue,
      h.asked.push (fun _ hfound => by cases hfound) fun _ _ hvalue => hvalue⟩

theorem notices_new (env : Env) (nextSequenceId : Nat) :
    Notices env (State.new nextSequenceId) fun _ => [] where
  entry := fun _ _ hentry => by cases hentry
  noted := fun _ _ hmem => by cases hmem
  guard := fun _ _ hmem => by cases hmem
  asked := fun _ _ hmem => by cases hmem

end Notices

/-! ## Nothing is passed over -/

/-- The flows that were queued on a span before a time. -/
def State.queuedBefore (state : State) (span time : Nat) : List PendingFlow :=
  (state.spans.queued.filter fun queued => queued.1 = span ∧ queued.2.2 < time).map
    fun queued => queued.2.1

/-- The packets of a span have taken along all that was queued on it before. -/
structure Prompt (state : State) : Prop where
  queuedAt : ∀ queued ∈ state.spans.queued, queued.2.2 < state.time
  writtenAt : ∀ packet ∈ state.trace.packets, packet.writtenAt < state.time
  taken : state.Clean → ∀ before packet after span,
    state.trace.packets = before ++ packet :: after → packet.span = some span →
    packet.content.boundary = true →
    flowsOf (before ++ [packet]) span = state.queuedBefore span packet.writtenAt

section Prompt

variable {env : Env} {state state' : State} {frames : Frames} {thread : ThreadId}
  {frame : Frame} {rest : List Frame}

theorem queuedBefore_all {span time : Nat}
    (h : ∀ queued ∈ state.spans.queued, queued.2.2 < time) :
    state.queuedBefore span time = state.queuedOn span := by
  rw [State.queuedBefore, State.queuedOn]
  congr 1
  apply List.filter_congr
  intro queued hmem
  simp [h queued hmem]

theorem queuedBefore_kept {action : Act} {choice : Choice} {reply : action.Reply}
    (hperform : perform env thread action choice state = some (reply, state')) {span time : Nat}
    (htime : time ≤ state.time) :
    state'.queuedBefore span time = state.queuedBefore span time := by
  by_cases hpush : ∃ found flow, action = .spans (.pushFlow found flow)
  · obtain ⟨found, flow, rfl⟩ := hpush
    obtain ⟨spans, hact, rfl⟩ := perform_spans_act hperform
    simp only [SpanAct.perform, Option.some.injEq, Prod.mk.injEq, true_and] at hact
    subst hact
    simp only [State.queuedBefore, List.filter_append, List.map_append]
    simp [Nat.not_lt.2 htime]
  · rw [State.queuedBefore, State.queuedBefore,
      perform_queued hperform fun found flow heq => hpush ⟨found, flow, heq⟩]

/-- A packet of a span takes along what is queued. -/
theorem boundary_sends {span : Nat} {calledAt : Nat} {content : Content}
    (hknown : Known env state frames) (hnotices : Notices env state frames)
    (haccount : Account state frames) (hthread : frames thread = frame :: rest)
    (hpre : pre env frame (.sequence (.write (some span) calledAt content)))
    (hboundary : content.boundary = true) :
    state.sentOn span ++ content.flows = state.queuedOn span := by
  have hmem : frame ∈ frames thread := Guards.top_mem hthread
  obtain ⟨-, -, -, hwrites⟩ := hpre
  cases hwrites with
  | begin spanId metadata metadata' parent uuid visits hcall hguard hsource hcontent =>
      rw [hcontent] at hboundary
      cases hboundary
  | slice found hguard hexclusive hsource hsent hasked hlast hvisits hshows hflows =>
      subst hsource
      have hentry := hknown.guards.entry thread frame hmem found hguard
      obtain ⟨-, hwhole⟩ :=
        (haccount.entry found.spanId found.entry hentry).own Frame.Clearing.guard hknown.guards
        hthread hguard hexclusive
      have hbefore : state.queuedOn found.entry.instance_ =
          state.sentOn found.entry.instance_ ++ found.data.pendingFlows := by
        apply hwhole
        intro hclear
        rw [hclear.sent] at hsent
        cases hsent
      cases hseen : frame.seen with
      | true => rw [hflows, hseen, if_pos rfl, hbefore]
      | false =>
          have hnil := hnotices.asked thread frame hmem found hguard (hasked hboundary) hseen
          rw [hflows, hseen, if_neg Bool.false_ne_true, hbefore, hnil]
  | lifetimeEnd found hfound hguard hunfinished hsource hsent hshows hflows =>
      subst hsource
      have hbefore := haccount.taken thread frame hmem hunfinished found hfound
      rw [hflows, hbefore, hsent, if_neg Bool.false_ne_true]

theorem prompt_kept (env : Env) :
    KeepsInv env AnyCall (fun state frames => Known env state frames ∧
        ((Excuses env state frames ∧ Taken env state frames) ∧
          (state.Clean → Account state frames)) ∧ Notices env state frames)
      fun state _ => Prompt state where
  act := by
    rintro state frames thread frame rest action choice reply state'
      ⟨hknown, ⟨-, haccount⟩, hnotices⟩ h hthread hpre hperform -
    have htime := perform_time hperform
    have hqueued : ∀ span time, time ≤ state.time →
        state'.queuedBefore span time = state.queuedBefore span time :=
      fun _ _ => queuedBefore_kept hperform
    refine ⟨fun queued hmem => ?_, fun packet hmem => ?_, fun hclean' => ?_⟩
    · by_cases hpush : ∃ found flow, action = .spans (.pushFlow found flow)
      · obtain ⟨found, flow, rfl⟩ := hpush
        obtain ⟨spans, hact, rfl⟩ := perform_spans_act hperform
        simp only [SpanAct.perform, Option.some.injEq, Prod.mk.injEq, true_and] at hact
        subst hact
        rcases List.mem_append.1 hmem with hold | hnew
        · exact Nat.lt_succ_of_lt (h.queuedAt queued hold)
        · rw [List.mem_singleton] at hnew
          subst hnew
          exact Nat.lt_succ_self _
      · rw [perform_queued hperform fun found flow heq => hpush ⟨found, flow, heq⟩] at hmem
        have hbefore := h.queuedAt queued hmem
        omega
    · by_cases hwrite : ∃ span calledAt content, action = .sequence (.write span calledAt content)
      · obtain ⟨span, calledAt, content, rfl⟩ := hwrite
        obtain ⟨new, hpackets, -, -, -, hwritten⟩ := perform_write hperform
        rw [hpackets] at hmem
        rcases List.mem_append.1 hmem with hold | hnew
        · have hbefore := h.writtenAt packet hold
          omega
        · rw [List.mem_singleton] at hnew
          subst hnew
          omega
      · rw [perform_packets hperform
          fun span calledAt content heq => hwrite ⟨span, calledAt, content, heq⟩] at hmem
        have hbefore := h.writtenAt packet hmem
        omega
    · have hclean := clean_before hperform hclean'
      have hkept : ∀ before packet after span,
          state.trace.packets = before ++ packet :: after → packet.span = some span →
          packet.content.boundary = true →
          flowsOf (before ++ [packet]) span = state'.queuedBefore span packet.writtenAt := by
        intro before packet after span hpackets hspan hboundary
        have hmem : packet ∈ state.trace.packets := by simp [hpackets]
        rw [hqueued _ _ (h.writtenAt packet hmem).le]
        exact h.taken hclean before packet after span hpackets hspan hboundary
      by_cases hwrite : ∃ span calledAt content, action = .sequence (.write span calledAt content)
      · obtain ⟨span, calledAt, content, rfl⟩ := hwrite
        obtain ⟨new, hpackets, -, hnew, rfl, hwritten⟩ := perform_write hperform
        intro before packet after other hsplit hspan hboundary
        rw [hpackets] at hsplit
        -- the packet is the new one, or one of those before
        rcases List.eq_nil_or_concat after with rfl | ⟨after, last, rfl⟩
        · obtain ⟨rfl, hlast⟩ := List.append_inj' hsplit rfl
          obtain rfl := (List.cons.inj hlast).1
          rw [hspan] at hnew
          subst hnew
          have hsends := boundary_sends hknown hnotices (haccount hclean) hthread hpre
            hboundary
          rw [hqueued _ _ hwritten.le, hwritten, queuedBefore_all h.queuedAt,
            ← hsends, State.sentOn, flowsOf, flowsOf, List.filter_append, List.flatMap_append]
          simp [hspan]
        · rw [List.concat_eq_append, ← List.cons_append, ← List.append_assoc] at hsplit
          obtain ⟨hbefore, -⟩ := List.append_inj' hsplit rfl
          exact hkept before packet after other hbefore hspan hboundary
      · rw [perform_packets hperform
          fun span calledAt content heq => hwrite ⟨span, calledAt, content, heq⟩]
        exact hkept
  ret := fun _ h _ _ _ => h
  call := by
    rintro state frames thread call prog state' ⟨hknown, -⟩ h - - hcall -
    obtain ⟨registry, -, -, rfl, -⟩ := hknown.ledger.call_admits hcall
    refine ⟨fun queued hmem => ?_, fun packet hmem => ?_, fun hclean => ?_⟩
    · exact Nat.lt_succ_of_lt (h.queuedAt queued hmem)
    · exact Nat.lt_succ_of_lt (h.writtenAt packet hmem)
    · exact h.taken ⟨hclean.noError, hclean.accepted⟩

end Prompt

/-! ## All flows of a span -/

/-- The registry has had the span, and has forgotten it: its `on_close` is over. -/
structure State.Closed (state : State) (span : Nat) : Prop where
  issued : span < state.registry.nextInstance
  gone : ∀ spanId found, state.registry.spans spanId = some found → found.instance_ ≠ span

/-- Nobody has the entry of a closed span. -/
theorem absent_of_closed {env : Env} {state : State} {frames : Frames} {span : Nat}
    (hknown : Known env state frames) (htaken : Taken env state frames)
    (h : state.Closed span) : Absent state frames span := by
  constructor
  · intro spanId entry hentry heq
    obtain ⟨found, hfound, hinstance⟩ := hknown.guards.registered spanId entry hentry
    exact h.gone spanId found hfound (hinstance.trans heq)
  · intro thread frame hmem hunfinished found hfound heq
    obtain ⟨-, -, -, ⟨span', hspan', hinstance⟩, -⟩ := htaken thread frame hmem hunfinished found
      hfound
    exact h.gone _ span' hspan' (hinstance.trans heq)

/-- Flows go out in the order in which they were queued. -/
theorem Account.sent_initial {state : State} {frames : Frames} (h : Account state frames)
    (span : Nat) : state.sentOn span <+: state.queuedOn span := by
  by_cases hentry : ∃ spanId entry, state.spans.entries spanId = some entry ∧
      entry.instance_ = span
  · obtain ⟨spanId, entry, hentry, rfl⟩ := hentry
    cases h.entry spanId entry hentry with
    | whole _ h => exact ⟨_, h.symm⟩
    | partly _ _ _ _ h => exact h ▸ List.prefix_rfl
  · by_cases htaken : ∃ thread, ∃ frame ∈ frames thread, frame.finished = false ∧
        ∃ found, frame.taken = some found ∧ found.entry.instance_ = span
    · obtain ⟨thread, frame, hmem, hunfinished, found, hfound, rfl⟩ := htaken
      exact ⟨_, (h.taken thread frame hmem hunfinished found hfound).symm⟩
    · have habsent : Absent state frames span := by
        constructor
        · exact fun spanId entry hsome heq => hentry ⟨spanId, entry, hsome, heq⟩
        · exact fun thread frame hmem hunfinished found hfound heq =>
            htaken ⟨thread, frame, hmem, hunfinished, found, hfound, heq⟩
      rw [h.settled span habsent]

/-! ## The ends of flows in the packets -/

/-- The ends of flows that are read in a packet, behind the one of its poll. -/
def Emitted.sent (env : Env) (packet : Emitted) : List FlowEnd :=
  packet.ends.drop (packet.content.pollEnds env).length

/-- The ends of flows that are read in the packets of a span. -/
def endsOn (env : Env) (packets : List Emitted) (span : Nat) : List FlowEnd :=
  (packets.filter fun packet => packet.span = some span).flatMap (Emitted.sent env)

section Ends

variable {env : Env} {packet : Emitted} {packets : List Emitted}

theorem Emitted.Reads.sent (h : packet.Reads env) :
    packet.sent env = packet.content.flows.map (endOf env.bases) := by
  rw [Emitted.sent, h.ends, List.drop_left]

theorem pollEnds_boundary {content : Content} (h : content.boundary = false) :
    content.pollEnds env = [] := by
  cases content with
  | body body => cases body <;> first | rfl | cases h
  | _ => rfl

theorem endsOn_eq (h : ∀ packet ∈ packets, packet.Reads env) (span : Nat) :
    endsOn env packets span = (flowsOf packets span).map (endOf env.bases) := by
  rw [endsOn, flowsOf, List.map_flatMap, List.flatMap_def, List.flatMap_def]
  congr 1
  exact List.map_congr_left fun packet hmem => (h packet (List.mem_of_mem_filter hmem)).sent

end Ends

/-- As long as no write fails and no callback is refused its context: what is read in the
packets of a span is the flows that were queued on it, in that order, each packet taking along
all that are there, and those of a closed span all of them. -/
theorem flows_delivered {env : Env} (hslices : env.config.spanMode.emitSpanSlices = true)
    {nextSequenceId : Nat} {labels : List (system env).Label} {config : (system env).Config}
    (hrun : System.run labels (System.idle (State.new nextSequenceId)) = some config)
    (hclean : config.state.Clean) :
    (∀ span, config.state.Closed span → endsOn env config.state.trace.packets span =
      (config.state.queuedOn span).map (endOf env.bases)) ∧
    (∀ span, endsOn env config.state.trace.packets span <+:
      (config.state.queuedOn span).map (endOf env.bases)) ∧
    (∀ before packet after span, config.state.trace.packets = before ++ packet :: after →
      packet.span = some span → packet.content.boundary = true →
      endsOn env (before ++ [packet]) span =
        (config.state.queuedBefore span packet.writtenAt).map (endOf env.bases)) ∧
    ∀ packet ∈ config.state.trace.packets,
      packet.ends = packet.content.pollEnds env ++ packet.sent env ∧
        (packet.span = none → packet.ends = []) := by
  have hpremises := (excuses_kept env).join (taken_kept env)
  have hnotices := (hpremises.join (account_kept hslices)).join ((notices_kept env).over And.left)
  have hstart : Prompt (State.new nextSequenceId) := by
    refine ⟨fun _ hmem => ?_, fun _ hmem => ?_, fun _ before _ _ _ hpackets => ?_⟩
    · cases hmem
    · cases hmem
    · simp [State.new] at hpackets
  obtain ⟨frames, ⟨hknown, ⟨⟨⟨⟨-, htaken⟩, haccount⟩, -⟩, hprompt⟩, hlegible⟩, -⟩ :=
    known_run ((hnotices.join (prompt_kept env)).join ((legible_kept env).over fun _ => trivial))
      ⟨⟨⟨⟨⟨excuses_new env nextSequenceId, taken_new env nextSequenceId⟩,
        fun _ => account_new nextSequenceId⟩, notices_new env nextSequenceId⟩, hstart⟩,
        legible_new env nextSequenceId⟩
      (System.obeys_true labels _) hrun
  have hreads : ∀ packet ∈ config.state.trace.packets, packet.Reads env :=
    fun packet hmem => hlegible.reads hmem
  refine ⟨fun span hclosed => ?_, fun span => ?_, ?_, fun packet hmem => ⟨?_, fun hnone => ?_⟩⟩
  · have hsettled := (haccount hclean).settled span (absent_of_closed hknown htaken hclosed)
    rw [endsOn_eq hreads, hsettled]
    rfl
  · rw [endsOn_eq hreads]
    exact ((haccount hclean).sent_initial span).map _
  · intro before packet after span hpackets hspan hboundary
    rw [endsOn_eq fun other hmem => hreads other ?_,
      hprompt.taken hclean before packet after span hpackets hspan hboundary]
    rw [hpackets, ← List.singleton_append, ← List.append_assoc]
    exact List.mem_append_left _ hmem
  · rw [(hreads packet hmem).sent]
    exact (hreads packet hmem).ends
  · obtain ⟨hflows, hboundary⟩ := hlegible.spans packet hmem hnone
    rw [(hreads packet hmem).ends, hflows, pollEnds_boundary hboundary]
    rfl

/-! ## Two spans that are closed -/

/-- Spans are created under these ids only. -/
def Creates (created : SpanId → Prop) (_ : ThreadId) (call : Call) (_ : State) : Prop :=
  ∀ spanId metadata parent, call = .newSpan spanId metadata parent → created spanId

theorem created_run {env : Env} {created : SpanId → Prop} {nextSequenceId : Nat}
    {labels : List (system env).Label} {config : (system env).Config}
    (hobeys : System.Obeys (Creates created) labels (System.idle (State.new nextSequenceId)))
    (hrun : System.run labels (System.idle (State.new nextSequenceId)) = some config) :
    ∀ spanId found, config.state.registry.spans spanId = some found → created spanId := by
  have hkept : KeepsInv env (Creates created) (Known env) fun state _ =>
      ∀ spanId found, state.registry.spans spanId = some found → created spanId := by
    constructor
    · intro state frames thread frame rest action choice reply state' _ h _ _ hperform _ spanId
        found hfound
      by_cases hfinish : ∃ call, action = .registry (.finish call)
      · obtain ⟨call, rfl⟩ := hfinish
        simp only [perform, Option.some.injEq, Prod.mk.injEq] at hperform
        obtain ⟨-, rfl⟩ := hperform
        obtain ⟨children, hspans⟩ := finish_spans thread state.registry call spanId
        change (RegistryAct.perform thread (.finish call) state.registry).2.spans spanId = _
          at hfound
        rw [hspans] at hfound
        split at hfound
        · cases hfound
        · obtain ⟨span, hspan, -⟩ := Option.map_eq_some_iff.1 hfound
          exact h spanId span hspan
      · rw [perform_registry hperform fun call heq => hfinish ⟨call, heq⟩] at hfound
        exact h spanId found hfound
    · exact fun _ h _ _ _ => h
    · intro state frames thread call prog state' hknown h _ hcreates hcall _ spanId found hfound
      obtain ⟨registry, -, hadmits, rfl, -⟩ := hknown.ledger.call_admits hcall
      rcases hadmits.made spanId found hfound with
        ⟨span, hspan, -⟩ | ⟨-, -, -, metadata, parent, rfl⟩
      · exact h spanId span hspan
      · exact hcreates spanId metadata parent rfl
  obtain ⟨frames, ⟨-, hcreated⟩, -⟩ :=
    known_run hkept (fun _ _ hfound => by cases hfound) hobeys hrun
  exact hcreated

def flowEnv : Env := { sampleEnv with config := ⟨.spanTracks, true, false, false, false, false⟩ }

/-- Two spans, the second of which follows from the first; then both are closed. -/
def followedLabels : List (system flowEnv).Label :=
  [(Call.newSpan 1 sampleMetadata none, 34), (.newSpan 2 sampleMetadata none, 19),
    (.followsFrom 2 1, 22), (.close 1, 12), (.close 2, 13)].flatMap fun callback =>
      .call 1 callback.1 :: List.replicate callback.2 (.act 1 sampleChoice) ++ [.ret 1]

def followed : Option (system flowEnv).Config :=
  System.run followedLabels (System.idle (State.new 65536))

/-- What is asked of the run. -/
def Delivers (config : (system flowEnv).Config) : Prop :=
  config.state.shared.hasError = false ∧ config.state.contexts.refused = false ∧
    config.state.registry.nextInstance = 2 ∧
    ([1, 2].all fun spanId => (config.state.registry.spans spanId).isNone) = true ∧
    config.state.queuedOn 0 = [.start 0] ∧ config.state.queuedOn 1 = [.terminate 0] ∧
    config.state.trace.packets.flatMap Emitted.ends =
      [.start 9, .terminate 9]

instance (config : (system flowEnv).Config) : Decidable (Delivers config) := by
  unfold Delivers
  infer_instance

theorem followed_delivers : (followed.map fun config => decide (Delivers config)) = some true := by
  decide +kernel

/-- A test of the id that a span is created under. -/
def createsIn (created : List SpanId) (_ : ThreadId) (call : Call) (_ : State) : Bool :=
  match call with
  | .newSpan spanId _ _ => decide (spanId ∈ created)
  | _ => true

theorem creates_of_createsIn {created : List SpanId} (thread : ThreadId) (call : Call)
    (state : State) (h : createsIn created thread call state = true) :
    Creates (fun spanId => spanId ∈ created) thread call state := by
  rintro spanId metadata parent rfl
  exact of_decide_eq_true h

theorem followed_creates : System.Obeys (Creates fun spanId => spanId ∈ [1, 2]) followedLabels
    (System.idle (State.new 65536)) :=
  System.obeys_of_allPass creates_of_createsIn (by decide +kernel)

theorem followed_closed {config : (system flowEnv).Config} (hrun : followed = some config)
    (hdelivers : Delivers config) {span : Nat} (hspan : span < 2) :
    config.state.Closed span := by
  refine ⟨hdelivers.2.2.1 ▸ hspan, fun spanId found hfound => ?_⟩
  have hnone := List.all_eq_true.1 hdelivers.2.2.2.1 spanId
    (created_run followed_creates hrun spanId found hfound)
  rw [hfound] at hnone
  cases hnone

/-- Both spans are closed, and each packet with an end of the flow has been sent. -/
theorem flows_delivered_followed : ∃ config, followed = some config ∧
    config.state.Closed 0 ∧ config.state.Closed 1 ∧
    endsOn flowEnv config.state.trace.packets 0 = [.start 9] ∧
    endsOn flowEnv config.state.trace.packets 1 = [.terminate 9] ∧
    config.state.trace.packets.flatMap Emitted.ends = [.start 9, .terminate 9] := by
  obtain ⟨config, hrun, hok⟩ := Option.map_eq_some_iff.1 followed_delivers
  rw [decide_eq_true_eq] at hok
  obtain ⟨herror, hrefused, -, -, hfirst, hsecond, hends⟩ := id hok
  have hclosed := fun span (hspan : span < 2) => followed_closed hrun hok hspan
  obtain ⟨hdelivered, -⟩ := flows_delivered rfl hrun ⟨herror, hrefused⟩
  refine ⟨config, hrun, hclosed 0 (by decide), hclosed 1 (by decide), ?_, ?_, hends⟩
  · rw [hdelivered 0 (hclosed 0 (by decide)), hfirst]
    rfl
  · rw [hdelivered 1 (hclosed 1 (by decide)), hsecond]
    rfl

end TracingPerfetto.Layer
