import TracingPerfetto.LayerSpans

/-!
The account of flows: what is queued on a span is what its packets have taken along, and
what its entry still has.
-/

namespace TracingPerfetto.Layer

open TracingPerfetto.Runtime TracingPerfetto.Sequence TracingPerfetto.TrackEvents
open TracingPerfetto.Counters TracingPerfetto.Threads
open TracingPerfetto.SpanStore (SpanId)

/-! ## The account of a span -/

/-- The flows that have been queued on a span. -/
def State.queuedOn (state : State) (span : Nat) : List PendingFlow :=
  (state.spans.queued.filter fun queued => queued.1 = span).map fun queued => queued.2.1

/-- The flows in the packets of a span. -/
def flowsOf (packets : List Emitted) (span : Nat) : List PendingFlow :=
  (packets.filter fun packet => packet.span = some span).flatMap fun packet =>
    packet.content.flows

def State.sentOn (state : State) (span : Nat) : List PendingFlow :=
  flowsOf state.trace.packets span

theorem perform_queued {env : Env} {state state' : State} {thread : ThreadId} {action : Act}
    {choice : Choice} {reply : action.Reply}
    (h : perform env thread action choice state = some (reply, state'))
    (haction : ∀ found flow, action ≠ .spans (.pushFlow found flow)) :
    state'.spans.queued = state.spans.queued := by
  by_cases hspans : ∃ act, action = .spans act
  · obtain ⟨act, rfl⟩ := hspans
    obtain ⟨spans, hact, rfl⟩ := perform_spans_act h
    cases act with
    | insert spanId instance_ data =>
        simp only [SpanAct.perform, Option.map_eq_some_iff, Prod.mk.injEq, true_and] at hact
        obtain ⟨inserted, hinsert, rfl⟩ := hact
        exact (insert_spec hinsert).2.2.2.2
    | get spanId => exact (get_spec hact).2.2.1
    | getMut spanId =>
        rcases getMut_spec hact with ⟨shown, -, -, -, -, rfl⟩ | ⟨-, -, rfl⟩
        · rfl
        · rfl
    | put found | dropMut found | noteFollowsFrom | hasFollowsFrom =>
        simp only [SpanAct.perform, Option.some.injEq, Prod.mk.injEq] at hact
        obtain ⟨-, rfl⟩ := hact
        rfl
    | dropRef found =>
        simp only [SpanAct.perform, Option.some.injEq, Prod.mk.injEq, true_and] at hact
        subst hact
        simp only [releaseRef]
        split <;> rfl
    | take spanId => exact (take_spec hact).2.2.1
    | pushFlow found flow => exact absurd rfl (haction found flow)
  · rw [perform_spans h fun act heq => hspans ⟨act, heq⟩]

/-! ## The account -/

/-- The flows of the entry are sent, and not cleared yet. -/
structure Frame.Clearing (frame : Frame) (found : Found) : Prop where
  guard : frame.guard = some found
  exclusive : frame.exclusive = true
  sent : frame.sent = true
  seen : frame.seen = true

/-- What is queued on the span of an entry is sent, or still there. -/
abbrev Balance (state : State) : Frames → Found → Prop :=
  Share Frame.Clearing
    (fun found => state.queuedOn found.entry.instance_ =
      state.sentOn found.entry.instance_ ++ found.data.pendingFlows)
    fun _ found => state.queuedOn found.entry.instance_ = state.sentOn found.entry.instance_

/-- Nobody has the entry of the span: not the store, and no callback that closes it. -/
structure Absent (state : State) (frames : Frames) (span : Nat) : Prop where
  entry : ∀ spanId entry, state.spans.entries spanId = some entry → entry.instance_ ≠ span
  taken : Every (fun _ frame => frame.finished = false → ∀ found, frame.taken = some found →
    found.entry.instance_ ≠ span) frames

structure Account (state : State) (frames : Frames) : Prop where
  entry : ∀ spanId entry, state.spans.entries spanId = some entry →
    Balance state frames ⟨spanId, entry⟩
  taken : Every (fun _ frame => frame.finished = false → ∀ found, frame.taken = some found →
    state.queuedOn found.entry.instance_ = state.sentOn found.entry.instance_ ++
      if frame.sent then [] else found.data.pendingFlows) frames
  settled : ∀ span, Absent state frames span → state.queuedOn span = state.sentOn span

section Account

variable {env : Env} {state state' : State} {frames : Frames} {thread : ThreadId}
  {frame frame' : Frame} {rest : List Frame} {found : Found}

theorem clearing_same (hguard : frame'.guard = frame.guard)
    (hexclusive : frame'.exclusive = frame.exclusive) (hsent : frame'.sent = frame.sent)
    (hseen : frame'.seen = frame.seen) (found : Found) :
    frame'.Clearing found ↔ frame.Clearing found := by
  constructor
  · intro hclear
    exact ⟨hguard.symm.trans hclear.guard, hexclusive.symm.trans hclear.exclusive,
      hsent.symm.trans hclear.sent, hseen.symm.trans hclear.seen⟩
  · intro hclear
    exact ⟨hguard.trans hclear.guard, hexclusive.trans hclear.exclusive,
      hsent.trans hclear.sent, hseen.trans hclear.seen⟩

theorem clearing_none (hbefore : frame.guard = none ∨ frame.exclusive = false ∨
      frame.sent = false ∨ frame.seen = false)
    (hafter : frame'.guard = none ∨ frame'.sent = false) (found : Found) :
    frame'.Clearing found ↔ frame.Clearing found := by
  constructor
  · rintro ⟨hguard, -, hsent, -⟩
    rcases hafter with hnone | hfalse
    · rw [hnone] at hguard
      cases hguard
    · rw [hfalse] at hsent
      cases hsent
  · rintro ⟨hguard, hexclusive, hsent, hseen⟩
    rcases hbefore with hnone | hfalse | hfalse | hfalse
    · rw [hnone] at hguard
      cases hguard
    · rw [hfalse] at hexclusive
      cases hexclusive
    · rw [hfalse] at hsent
      cases hsent
    · rw [hfalse] at hseen
      cases hseen

theorem Balance.step (h : Balance state frames found) (hthread : frames thread = frame :: rest)
    (hclear : frame'.Clearing found ↔ frame.Clearing found)
    (hqueued : state'.queuedOn found.entry.instance_ = state.queuedOn found.entry.instance_)
    (hsent : state'.sentOn found.entry.instance_ = state.sentOn found.entry.instance_) :
    Balance state' (Function.update frames thread (frame' :: rest)) found := by
  refine Share.step h hthread hclear ?_ ?_ ?_
  · intro hwhole
    rw [hqueued, hsent, hwhole]
  · intro _ hcleared
    rw [hqueued, hsent, hcleared]
  · intro _ hcleared
    rw [hqueued, hsent, hcleared]

theorem Absent.before {span : Nat}
    (h : Absent state' (Function.update frames thread (frame' :: rest)) span)
    (hthread : frames thread = frame :: rest)
    (hentries : ∀ spanId entry, state.spans.entries spanId = some entry →
      ∃ spanId' entry', state'.spans.entries spanId' = some entry' ∧
        entry'.instance_ = entry.instance_)
    (htaken : frame'.taken = frame.taken) (hfinished : frame'.finished = frame.finished) :
    Absent state frames span := by
  constructor
  · intro spanId entry hentry
    obtain ⟨spanId', entry', hentry', hsame⟩ := hentries spanId entry hentry
    rw [← hsame]
    exact h.entry spanId' entry' hentry'
  · intro other value hmem hunfinished shown hshown
    by_cases hother : other = thread
    · subst hother
      have hvalues := h.taken other
      rw [Function.update_self] at hvalues
      rw [hthread] at hmem
      rcases List.mem_cons.1 hmem with rfl | hrest
      · rw [← htaken] at hshown
        rw [← hfinished] at hunfinished
        exact hvalues frame' List.mem_cons_self hunfinished shown hshown
      · exact hvalues value (List.mem_cons_of_mem _ hrest) hunfinished shown hshown
    · have hvalues := h.taken other
      rw [Function.update_of_ne hother] at hvalues
      exact hvalues value hmem hunfinished shown hshown

theorem Account.quiet (h : Account state frames) (hthread : frames thread = frame :: rest)
    (hentries : state'.spans.entries = state.spans.entries)
    (hqueued : ∀ span, state'.queuedOn span = state.queuedOn span)
    (hsentOn : ∀ span, state'.sentOn span = state.sentOn span)
    (hclear : ∀ found, frame'.Clearing found ↔ frame.Clearing found)
    (htaken : frame'.taken = frame.taken) (hfinished : frame'.finished = frame.finished)
    (hsent : ∀ found, frame.finished = false → frame.taken = some found →
      frame'.sent = frame.sent) :
    Account state' (Function.update frames thread (frame' :: rest)) := by
  constructor
  · intro spanId entry hentry
    rw [hentries] at hentry
    exact (h.entry spanId entry hentry).step hthread (hclear _) (hqueued _) (hsentOn _)
  · refine h.taken.step hthread ?_ ?_
    · rw [hfinished, htaken]
      intro hunfinished shown hshown
      rw [hsent shown hunfinished hshown, hqueued, hsentOn]
      exact h.taken thread frame (Guards.top_mem hthread) hunfinished shown hshown
    · intro _ value hvalue hunfinished shown hshown
      rw [hqueued, hsentOn]
      exact hvalue hunfinished shown hshown
  · intro span habsent
    rw [hqueued, hsentOn]
    apply h.settled
    exact habsent.before hthread
      (fun spanId entry hentry => ⟨spanId, entry, by rw [hentries, hentry], rfl⟩) htaken hfinished

/-! What is sent and queued after a step. -/

theorem sentOn_write {packet : Emitted}
    (hpackets : state'.trace.packets = state.trace.packets ++ [packet]) (span : Nat) :
    state'.sentOn span = state.sentOn span ++
      if packet.span = some span then packet.content.flows else [] := by
  rw [State.sentOn, State.sentOn, hpackets, flowsOf, List.filter_append, List.flatMap_append]
  congr 1
  by_cases hspan : packet.span = some span
  · simp [hspan]
  · simp [hspan]

theorem queuedOn_push {queued : Nat × PendingFlow × Nat}
    (hqueued : state'.spans.queued = state.spans.queued ++ [queued]) (span : Nat) :
    state'.queuedOn span = state.queuedOn span ++
      if queued.1 = span then [queued.2.1] else [] := by
  rw [State.queuedOn, State.queuedOn, hqueued, List.filter_append, List.map_append]
  congr 1
  by_cases hspan : queued.1 = span
  · simp [hspan]
  · simp [hspan]

/-- The flows go out with a slice of the span. -/
theorem Account.slice (h : Account state frames) (hknown : Known env state frames)
    (htaken : Taken env state frames) (hthread : frames thread = frame :: rest)
    (hguards : Guards env state' (Function.update frames thread (frame' :: rest)))
    (hspans : state'.spans = state.spans) {packet : Emitted}
    (hpackets : state'.trace.packets = state.trace.packets ++ [packet])
    (hspan : packet.span = some found.entry.instance_) (hguard : frame.guard = some found)
    (hexclusive : frame.exclusive = true) (hsent : frame.sent = false)
    (hflows : packet.content.flows = if frame.seen then found.data.pendingFlows else [])
    (hsame : SameSpans frame frame') (hfinished : frame'.finished = frame.finished)
    (hsent' : frame'.sent = true) :
    Account state' (Function.update frames thread (frame' :: rest)) := by
  have hmem : frame ∈ frames thread := Guards.top_mem hthread
  have hentry := hknown.guards.entry thread frame hmem found hguard
  have hqueued : ∀ span, state'.queuedOn span = state.queuedOn span := by
    intro span
    rw [State.queuedOn, hspans]
    rfl
  have hothers : ∀ span, span ≠ found.entry.instance_ →
      state'.sentOn span = state.sentOn span := by
    intro span hne
    rw [sentOn_write hpackets, if_neg, List.append_nil]
    rw [hspan, Option.some.injEq]
    exact Ne.symm hne
  have hsentOn : state'.sentOn found.entry.instance_ = state.sentOn found.entry.instance_ ++
      if frame.seen then found.data.pendingFlows else [] := by
    rw [sentOn_write hpackets, if_pos hspan, hflows]
  have hunclear : ¬ frame.Clearing found := by
    intro hclear
    rw [hclear.sent] at hsent
    cases hsent
  obtain ⟨-, hwhole⟩ :=
    (h.entry found.spanId found.entry hentry).own Frame.Clearing.guard hknown.guards hthread
    hguard hexclusive
  have hbefore : state.queuedOn found.entry.instance_ =
      state.sentOn found.entry.instance_ ++ found.data.pendingFlows := hwhole hunclear
  constructor
  · intro spanId entry hentry'
    rw [hspans] at hentry'
    by_cases hinstance : entry.instance_ = found.entry.instance_
    · have heq := hknown.same_span hentry' hentry hinstance
      subst heq
      rw [hentry, Option.some.injEq] at hentry'
      subst hentry'
      refine Share.of_own Frame.Clearing.guard hguards (Function.update_self ..)
        (hsame.guard.trans hguard)
        (hsame.exclusive.trans hexclusive) ?_ ?_
      · intro hclear
        have hseen := hclear.seen
        rw [hsame.seen] at hseen
        rw [hqueued, hsentOn, hseen]
        exact hbefore
      · intro hnot
        have hseen : frame.seen = false := by
          by_contra hseen
          rw [Bool.not_eq_false] at hseen
          exact hnot ⟨hsame.guard.trans hguard, hsame.exclusive.trans hexclusive, hsent',
            hsame.seen.trans hseen⟩
        rw [hqueued, hsentOn, hseen]
        simpa using hbefore
    · refine (h.entry spanId entry hentry').step hthread ?_ (hqueued _) (hothers _ hinstance)
      constructor
      · intro hclear
        have heq := hclear.guard
        rw [hsame.guard, hguard, Option.some.injEq] at heq
        exact absurd (congrArg (fun found => found.entry.instance_) heq).symm hinstance
      · intro hclear
        have heq := hclear.guard
        rw [hguard, Option.some.injEq] at heq
        exact absurd (congrArg (fun found => found.entry.instance_) heq).symm hinstance
  · refine h.taken.step_apart hknown.ledger.distinct hthread ?_ ?_
    · rw [hfinished, hsame.taken]
      intro hunfinished shown hshown
      have hnone := (htaken thread frame hmem hunfinished shown hshown).guard
      rw [hguard] at hnone
      cases hnone
    · intro other value hvalue _ hold hunfinished shown hshown
      rw [hqueued, hothers _ (htaken.apart hknown hvalue hunfinished hshown hentry)]
      exact hold hunfinished shown hshown
  · intro span habsent
    rw [hqueued, hothers]
    · apply h.settled
      refine habsent.before hthread (fun spanId entry hentry => ⟨spanId, entry, ?_, rfl⟩)
        hsame.taken hfinished
      rw [hspans, hentry]
    · rintro rfl
      exact habsent.entry found.spanId found.entry (by rw [hspans, hentry]) rfl

theorem Account.lifetimeEnd (h : Account state frames) (hknown : Known env state frames)
    (htaken : Taken env state frames) (hthread : frames thread = frame :: rest)
    (hspans : state'.spans = state.spans) {packet : Emitted}
    (hpackets : state'.trace.packets = state.trace.packets ++ [packet])
    (hspan : packet.span = some found.entry.instance_) (hfound : frame.taken = some found)
    (hguard : frame.guard = none) (hunfinished : frame.finished = false)
    (hsent : frame.sent = false) (hflows : packet.content.flows = found.data.pendingFlows)
    (hsame : SameSpans frame frame') (hfinished : frame'.finished = frame.finished)
    (hsent' : frame'.sent = true) :
    Account state' (Function.update frames thread (frame' :: rest)) := by
  have hmem : frame ∈ frames thread := Guards.top_mem hthread
  have hqueued : ∀ span, state'.queuedOn span = state.queuedOn span := by
    intro span
    rw [State.queuedOn, hspans]
    rfl
  have hothers : ∀ span, span ≠ found.entry.instance_ →
      state'.sentOn span = state.sentOn span := by
    intro span hne
    rw [sentOn_write hpackets, if_neg, List.append_nil]
    rw [hspan, Option.some.injEq]
    exact Ne.symm hne
  constructor
  · intro spanId entry hentry
    rw [hspans] at hentry
    have hne := (htaken.apart hknown hmem hunfinished hfound hentry).symm
    refine (h.entry spanId entry hentry).step hthread ?_ (hqueued _) (hothers _ hne)
    constructor
    · intro hclear
      have heq := hclear.guard
      rw [hsame.guard, hguard] at heq
      cases heq
    · intro hclear
      have heq := hclear.guard
      rw [hguard] at heq
      cases heq
  · refine h.taken.step_apart hknown.ledger.distinct hthread ?_ ?_
    · rw [hfinished, hsame.taken]
      intro _ shown hshown
      rw [hfound, Option.some.injEq] at hshown
      subst hshown
      have hbefore := h.taken thread frame hmem hunfinished found hfound
      rw [hsent, if_neg Bool.false_ne_true] at hbefore
      rw [hqueued, sentOn_write hpackets, if_pos hspan, hflows, hsent', if_pos rfl, hbefore,
        List.append_nil]
    · intro other value hvalue hdistinct hold hunfinished' shown hshown
      rw [hqueued, hothers _ (htaken.distinct hknown hmem hunfinished hfound hvalue hunfinished'
        hshown hdistinct)]
      exact hold hunfinished' shown hshown
  · intro span habsent
    rw [hqueued, hothers]
    · apply h.settled
      refine habsent.before hthread (fun spanId entry hentry => ⟨spanId, entry, ?_, rfl⟩)
        hsame.taken hfinished
      rw [hspans, hentry]
    · rintro rfl
      refine habsent.taken thread frame' ?_ (hfinished.trans hunfinished) found
        (hsame.taken.trans hfound) rfl
      rw [Function.update_self]
      exact List.mem_cons_self

/-- The data of an entry changes under its guard: the flows that were sent are cleared, or a
flow is queued. -/
theorem Account.replace (h : Account state frames) (hknown : Known env state frames)
    (htaken : Taken env state frames) (hthread : frames thread = frame :: rest) {next : Found}
    (hguards : Guards env state' (Function.update frames thread (frame' :: rest)))
    (hentries : state'.spans.entries =
      Function.update state.spans.entries found.spanId (some next.entry))
    (hpackets : state'.trace.packets = state.trace.packets) (hguard : frame.guard = some found)
    (hspanId : next.spanId = found.spanId)
    (hinstance : next.entry.instance_ = found.entry.instance_)
    (hguard' : frame'.guard = some next) (hexclusive' : frame'.exclusive = true)
    (hsent' : frame'.sent = false) (htaken' : frame'.taken = frame.taken)
    (hfinished : frame'.finished = frame.finished)
    (hqueued : ∀ span, span ≠ found.entry.instance_ →
      state'.queuedOn span = state.queuedOn span)
    (hbalance : state'.queuedOn found.entry.instance_ =
      state.sentOn found.entry.instance_ ++ next.data.pendingFlows) :
    Account state' (Function.update frames thread (frame' :: rest)) := by
  have hmem : frame ∈ frames thread := Guards.top_mem hthread
  have hentry := hknown.guards.entry thread frame hmem found hguard
  have hsentOn : ∀ span, state'.sentOn span = state.sentOn span := by
    intro span
    rw [State.sentOn, hpackets]
    rfl
  constructor
  · intro spanId entry hentry'
    rw [hentries, Function.update_apply] at hentry'
    split at hentry'
    · rename_i heq
      cases hentry'
      have hnext : (⟨spanId, next.entry⟩ : Found) = next := by rw [heq, ← hspanId]
      rw [hnext]
      refine Share.of_own Frame.Clearing.guard hguards (Function.update_self ..) hguard'
        hexclusive' ?_ ?_
      · intro hclear
        have hsent := hclear.sent
        rw [hsent'] at hsent
        cases hsent
      · intro _
        rw [hinstance, hsentOn]
        exact hbalance
    · rename_i hne
      have hother : entry.instance_ ≠ found.entry.instance_ := by
        intro heq
        exact hne (hknown.same_span hentry' hentry heq)
      refine (h.entry spanId entry hentry').step hthread ?_ (hqueued _ hother) (hsentOn _)
      constructor
      · intro hclear
        have heq := hclear.guard
        rw [hguard', Option.some.injEq] at heq
        exact absurd (congrArg Found.spanId heq) fun heq => hne (heq.symm.trans hspanId)
      · intro hclear
        have heq := hclear.guard
        rw [hguard, Option.some.injEq] at heq
        exact absurd (congrArg Found.spanId heq).symm hne
  · refine h.taken.step_apart hknown.ledger.distinct hthread ?_ ?_
    · rw [hfinished, htaken']
      intro hunfinished shown hshown
      have hnone := (htaken thread frame hmem hunfinished shown hshown).guard
      rw [hguard] at hnone
      cases hnone
    · intro other value hvalue _ hold hunfinished shown hshown
      rw [hsentOn, hqueued _ (htaken.apart hknown hvalue hunfinished hshown hentry)]
      exact hold hunfinished shown hshown
  · intro span habsent
    rw [hsentOn, hqueued]
    · apply h.settled
      refine habsent.before hthread (fun spanId entry hold => ?_) htaken' hfinished
      by_cases heq : spanId = found.spanId
      · subst heq
        rw [hentry, Option.some.injEq] at hold
        subst hold
        exact ⟨found.spanId, next.entry, by rw [hentries, Function.update_self], hinstance⟩
      · exact ⟨spanId, entry, by rw [hentries, Function.update_of_ne heq, hold], rfl⟩
    · rintro rfl
      refine habsent.entry found.spanId next.entry ?_ hinstance
      rw [hentries, Function.update_self]

theorem Account.insert (h : Account state frames) (hknown : Known env state frames)
    (htaken : Taken env state frames) (hthread : frames thread = frame :: rest)
    {spanId : SpanId} {metadata : Metadata} {parent : Option SpanId} {data : SpanData}
    {tier : Tier} (hcall : frame.call = .newSpan spanId metadata parent)
    (hfinished : frame.finished = false) (hinserted : frame.inserted = false)
    (hentries : state'.spans.entries = Function.update state.spans.entries spanId
      (some ⟨frame.instance_, data, tier⟩))
    (hqueued : state'.spans.queued = state.spans.queued)
    (hpackets : state'.trace.packets = state.trace.packets) (hguard : frame.guard = none)
    (hguard' : frame'.guard = none) (htaken' : frame'.taken = frame.taken)
    (hfinished' : frame'.finished = frame.finished) (hflows : data.pendingFlows = []) :
    Account state' (Function.update frames thread (frame' :: rest)) := by
  have hmem : frame ∈ frames thread := Guards.top_mem hthread
  have hnone := hknown.guards.creating thread frame hmem hfinished hinserted spanId metadata
    parent hcall
  have hqueuedOn : ∀ span, state'.queuedOn span = state.queuedOn span := by
    intro span
    rw [State.queuedOn, hqueued]
    rfl
  have hsentOn : ∀ span, state'.sentOn span = state.sentOn span := by
    intro span
    rw [State.sentOn, hpackets]
    rfl
  have hunguarded : ∀ found : Found, frame'.Clearing found ↔ frame.Clearing found := by
    intro found
    constructor
    · intro hclear
      have heq := hclear.guard
      rw [hguard'] at heq
      cases heq
    · intro hclear
      have heq := hclear.guard
      rw [hguard] at heq
      cases heq
  have hcreating : frame.Creating := ⟨hfinished, hinserted, spanId, metadata, parent, hcall⟩
  have habsent : Absent state frames frame.instance_ := by
    constructor
    · intro other entry hentry
      exact hknown.creating_apart hmem hcreating hentry
    · intro other value hvalue hunfinished found hfound
      exact htaken.creating_apart hknown hmem hcreating hvalue hunfinished hfound
  constructor
  · intro other entry hentry
    rw [hentries, Function.update_apply] at hentry
    split at hentry
    · rename_i heq
      cases hentry
      subst heq
      refine .whole (fun thread' value hvalue hclear => ?_) ?_
      · by_cases hthread' : thread' = thread
        · subst hthread'
          rw [Function.update_self] at hvalue
          rcases List.mem_cons.1 hvalue with rfl | hrest
          · have hshown := hclear.guard
            rw [hguard'] at hshown
            cases hshown
          · have hshown := hknown.guards.entry thread' value (Guards.rest_mem hthread hrest) _
              hclear.guard
            rw [hnone] at hshown
            cases hshown
        · rw [Function.update_of_ne hthread'] at hvalue
          have hshown := hknown.guards.entry thread' value hvalue _ hclear.guard
          rw [hnone] at hshown
          cases hshown
      · change state'.queuedOn frame.instance_ =
          state'.sentOn frame.instance_ ++ data.pendingFlows
        rw [hqueuedOn, hsentOn, hflows, List.append_nil]
        exact h.settled _ habsent
    · exact (h.entry other entry hentry).step hthread (hunguarded _) (hqueuedOn _) (hsentOn _)
  · refine h.taken.step hthread ?_ ?_
    · rw [hfinished', htaken']
      intro hunfinished found hfound
      have hclose := (htaken thread frame hmem hunfinished found hfound).call
      rw [hcall] at hclose
      cases hclose
    · intro _ value hvalue hunfinished found hfound
      rw [hqueuedOn, hsentOn]
      exact hvalue hunfinished found hfound
  · intro span' habsent'
    rw [hqueuedOn, hsentOn]
    apply h.settled
    refine habsent'.before hthread (fun other entry hentry => ⟨other, entry, ?_, rfl⟩) htaken'
      hfinished'
    rw [hentries, Function.update_of_ne]
    · exact hentry
    · rintro rfl
      rw [hnone] at hentry
      cases hentry

/-- A closing callback takes the entry with what is left in it. -/
theorem Account.take (h : Account state frames) (hthread : frames thread = frame :: rest)
    (hentry : state.spans.entries found.spanId = some found.entry)
    (hapart : ∀ other, ∀ value ∈ frames other, ∀ shown, value.guard = some shown →
      shown.spanId ≠ found.spanId)
    (hentries : state'.spans.entries = Function.update state.spans.entries found.spanId none)
    (hqueued : state'.spans.queued = state.spans.queued)
    (hpackets : state'.trace.packets = state.trace.packets) (hguard : frame.guard = none)
    (hunfinished : frame.finished = false) (hnone : frame.taken = none)
    (hguard' : frame'.guard = none) (htaken' : frame'.taken = some found)
    (hfinished' : frame'.finished = frame.finished) (hsent' : frame'.sent = false) :
    Account state' (Function.update frames thread (frame' :: rest)) := by
  have hqueuedOn : ∀ span, state'.queuedOn span = state.queuedOn span := by
    intro span
    rw [State.queuedOn, hqueued]
    rfl
  have hsentOn : ∀ span, state'.sentOn span = state.sentOn span := by
    intro span
    rw [State.sentOn, hpackets]
    rfl
  constructor
  · intro spanId entry hentry'
    rw [hentries, Function.update_apply] at hentry'
    split at hentry'
    · cases hentry'
    · refine (h.entry spanId entry hentry').step hthread ?_ (hqueuedOn _) (hsentOn _)
      constructor
      · intro hclear
        have heq := hclear.guard
        rw [hguard'] at heq
        cases heq
      · intro hclear
        have heq := hclear.guard
        rw [hguard] at heq
        cases heq
  · refine h.taken.step hthread ?_ ?_
    · rw [htaken', hsent']
      rintro - shown hshown
      cases hshown
      rw [hqueuedOn, hsentOn, if_neg Bool.false_ne_true]
      cases h.entry found.spanId found.entry hentry with
      | whole _ h => exact h
      | partly other value hvalue hclear _ =>
          exact absurd rfl (hapart other value hvalue _ hclear.guard)
    · intro _ value hvalue hvunfinished shown hshown
      rw [hqueuedOn, hsentOn]
      exact hvalue hvunfinished shown hshown
  · intro span habsent
    rw [hqueuedOn, hsentOn]
    apply h.settled
    constructor
    · rintro spanId entry hentry' rfl
      by_cases heq : spanId = found.spanId
      · subst heq
        rw [hentry, Option.some.injEq] at hentry'
        subst hentry'
        refine habsent.taken thread frame' ?_ (hfinished'.trans hunfinished) found htaken' rfl
        rw [Function.update_self]
        exact List.mem_cons_self
      · refine habsent.entry spanId entry ?_ rfl
        rw [hentries, Function.update_of_ne heq, hentry']
    · intro other value hvalue hvunfinished shown hshown
      by_cases hother : other = thread
      · subst hother
        rw [hthread] at hvalue
        rcases List.mem_cons.1 hvalue with rfl | hrest
        · rw [hnone] at hshown
          cases hshown
        · refine habsent.taken other value ?_ hvunfinished shown hshown
          rw [Function.update_self]
          exact List.mem_cons_of_mem _ hrest
      · refine habsent.taken other value ?_ hvunfinished shown hshown
        rwa [Function.update_of_ne hother]

/-- A closing callback does not end before the flows are sent. -/
theorem Account.finish (h : Account state frames) (htaken : Taken env state frames)
    (hexcuses : Excuses env state frames) (hclean : state.Clean)
    (hslices : env.config.spanMode.emitSpanSlices = true)
    (hthread : frames thread = frame :: rest) (hspans : state'.spans = state.spans)
    (hpackets : state'.trace.packets = state.trace.packets)
    (hunfinished : frame.finished = false) (hsettled : frame.Settled) :
    Account state' (Function.update frames thread ({ frame with finished := true } :: rest)) := by
  have hmem : frame ∈ frames thread := Guards.top_mem hthread
  have hqueuedOn : ∀ span, state'.queuedOn span = state.queuedOn span := by
    intro span
    rw [State.queuedOn, hspans]
    rfl
  have hsentOn : ∀ span, state'.sentOn span = state.sentOn span := by
    intro span
    rw [State.sentOn, hpackets]
    rfl
  constructor
  · intro spanId entry hentry
    rw [hspans] at hentry
    refine (h.entry spanId entry hentry).step hthread ?_ (hqueuedOn _) (hsentOn _)
    apply clearing_same <;> rfl
  · refine h.taken.step hthread (fun hfinished => by cases hfinished) ?_
    intro _ value hvalue hvunfinished shown hshown
    rw [hqueuedOn, hsentOn]
    exact hvalue hvunfinished shown hshown
  · intro span habsent
    rw [hqueuedOn, hsentOn]
    by_cases htook : ∃ found, frame.taken = some found ∧ found.entry.instance_ = span
    · obtain ⟨found, hfound, rfl⟩ := htook
      obtain ⟨-, -, hcall, -, htracked⟩ := htaken thread frame hmem hunfinished found hfound
      rw [Frame.Settled, hcall] at hsettled
      have hsent : frame.sent = true := by
        rcases hsettled.2 found hfound with hsent | hexcused | hnone
        · exact hsent
        · exact absurd hclean (hexcuses.excused thread frame hmem hexcused)
        · rcases htracked hnone with hmode | hnot
          · rw [hmode] at hslices
            cases hslices
          · exact absurd hclean hnot
      have hbefore := h.taken thread frame hmem hunfinished found hfound
      rwa [hsent, if_pos rfl, List.append_nil] at hbefore
    · apply h.settled
      constructor
      · intro spanId entry hentry
        exact habsent.entry spanId entry (by rw [hspans, hentry])
      · intro other value hvalue hvunfinished shown hshown heq
        by_cases hother : other = thread
        · subst hother
          rw [hthread] at hvalue
          rcases List.mem_cons.1 hvalue with rfl | hrest
          · exact htook ⟨shown, hshown, heq⟩
          · refine habsent.taken other value ?_ hvunfinished shown hshown heq
            rw [Function.update_self]
            exact List.mem_cons_of_mem _ hrest
        · refine habsent.taken other value ?_ hvunfinished shown hshown heq
          rwa [Function.update_of_ne hother]

theorem pushFlow_pending {data : SpanData} (flow : PendingFlow) (h : data.retained ≠ none) :
    (data.pushFlow flow).pendingFlows = data.pendingFlows ++ [flow] := by
  obtain ⟨retained, hretained⟩ := Option.ne_none_iff_exists'.1 h
  simp [SpanData.pushFlow, SpanData.pendingFlows, hretained]

theorem queuedOn_same (h : state'.spans.queued = state.spans.queued) (span : Nat) :
    state'.queuedOn span = state.queuedOn span := by
  rw [State.queuedOn, h]
  rfl

theorem sentOn_same (h : state'.trace.packets = state.trace.packets) (span : Nat) :
    state'.sentOn span = state.sentOn span := by
  rw [State.sentOn, h]
  rfl

theorem next_sent (action : Act) (reply : action.Reply) (hspans : ∀ act, action ≠ .spans act)
    (hwrite : ∀ span calledAt content, action ≠ .sequence (.write span calledAt content)) :
    (next frame action reply).sent = frame.sent := by
  cases action with
  | shared act => cases act <;> rfl
  | pools act => cases act <;> rfl
  | spans act => exact absurd rfl (hspans act)
  | context act =>
      cases act with
      | lookup | cachedTrack | evict | releaseLocal => cases reply <;> rfl
      | _ => rfl
  | sequence act =>
      cases act with
      | write span calledAt content => exact absurd rfl (hwrite span calledAt content)
      | _ => rfl
  | registry act => cases act <;> rfl
  | format => rfl

theorem account_spans {action : SpanAct} {choice : Choice} {reply : action.Reply}
    (h : Account state frames) (hknown : Known env state frames)
    (htaken : Taken env state frames) (hthread : frames thread = frame :: rest)
    (hpre : pre env frame (.spans action))
    (hperform : perform env thread (.spans action) choice state = some (reply, state'))
    (hguards : Guards env state'
      (Function.update frames thread (next frame (.spans action) reply :: rest))) :
    Account state'
      (Function.update frames thread (next frame (.spans action) reply :: rest)) := by
  have hmem : frame ∈ frames thread := Guards.top_mem hthread
  have hpackets := sentOn_same (perform_packets hperform (by simp))
  have hguarded : ∀ shown, frame.guard = some shown → ∀ found, frame.finished = false →
      frame.taken ≠ some found := by
    intro shown hguard found hunfinished hfound
    rw [(htaken thread frame hmem hunfinished found hfound).guard] at hguard
    cases hguard
  have hlooking : frame.took = false → ∀ found, frame.finished = false →
      frame.taken ≠ some found := by
    intro htook found hunfinished hfound
    rw [(htaken thread frame hmem hunfinished found hfound).took] at htook
    cases htook
  obtain ⟨spans, haction, rfl⟩ := perform_spans_act hperform
  cases action with
  | insert spanId instance_ data =>
      obtain ⟨⟨hguard, -⟩, ⟨metadata, parent, hcall⟩, rfl, hinserted, hfinished, hflows, -⟩ := hpre
      simp only [SpanAct.perform, Option.map_eq_some_iff, Prod.mk.injEq, true_and] at haction
      obtain ⟨inserted, hinsert, rfl⟩ := haction
      obtain ⟨-, hentries, -, -, hqueued⟩ := insert_spec hinsert
      exact h.insert hknown htaken hthread hcall hfinished hinserted hentries hqueued rfl hguard
        hguard rfl rfl hflows
  | get spanId =>
      obtain ⟨⟨hguard, -, -, htook, -⟩, -⟩ := hpre
      obtain ⟨hentries, -, hqueued, -⟩ := get_spec haction
      exact h.quiet hthread hentries (queuedOn_same hqueued) hpackets
        (clearing_none (.inl hguard) (.inr rfl)) rfl rfl
        fun found hunfinished hfound => absurd hfound (hlooking htook found hunfinished)
  | getMut spanId =>
      obtain ⟨⟨hguard, -, -, htook, -⟩, -⟩ := hpre
      have hsame : spans.entries = state.spans.entries ∧ spans.queued = state.spans.queued := by
        rcases getMut_spec haction with ⟨shown, -, -, -, -, rfl⟩ | ⟨-, -, rfl⟩
        · exact ⟨rfl, rfl⟩
        · exact ⟨rfl, rfl⟩
      exact h.quiet hthread hsame.1 (queuedOn_same hsame.2) hpackets
        (clearing_none (.inl hguard) (.inr rfl)) rfl rfl
        fun found hunfinished hfound => absurd hfound (hlooking htook found hunfinished)
  | put found =>
      obtain ⟨shown, hguard, hexclusive, hchanges, -⟩ := hpre
      simp only [SpanAct.perform, Option.some.injEq, Prod.mk.injEq, true_and] at haction
      subst haction
      have hentry := hknown.guards.entry thread frame hmem shown hguard
      obtain ⟨hcleared, hwhole⟩ :=
        (h.entry shown.spanId shown.entry hentry).own Frame.Clearing.guard hknown.guards
        hthread hguard hexclusive
      refine h.replace hknown htaken hthread hguards ?_ rfl hguard hchanges.spanId
        hchanges.instance_ rfl hexclusive rfl rfl rfl (fun _ _ => rfl) ?_
      · rw [← hchanges.spanId]
        rfl
      · rcases hchanges.flows with ⟨hsent, hflows⟩ | ⟨hsent, hseen, hflows⟩
        · rw [hflows]
          apply hwhole
          intro hclear
          rw [hclear.sent] at hsent
          cases hsent
        · rw [hflows, List.append_nil]
          exact hcleared ⟨hguard, hexclusive, hsent, hseen⟩
  | pushFlow found flow =>
      obtain ⟨hguard, hexclusive, -, hsent, -, -, hretained, -⟩ := hpre
      simp only [SpanAct.perform, Option.some.injEq, Prod.mk.injEq, true_and] at haction
      subst haction
      have hentry := hknown.guards.entry thread frame hmem found hguard
      obtain ⟨-, hwhole⟩ :=
        (h.entry found.spanId found.entry hentry).own Frame.Clearing.guard hknown.guards
        hthread hguard hexclusive
      have hbefore : state.queuedOn found.entry.instance_ =
          state.sentOn found.entry.instance_ ++ found.data.pendingFlows := by
        apply hwhole
        intro hclear
        rw [hclear.sent] at hsent
        cases hsent
      have hpending : (found.withData (found.data.pushFlow flow)).data.pendingFlows =
          found.data.pendingFlows ++ [flow] := pushFlow_pending flow hretained
      refine h.replace hknown htaken hthread hguards rfl rfl hguard rfl rfl rfl
        hexclusive hsent rfl rfl (fun span hne => ?_) ?_
      · rw [queuedOn_push rfl, if_neg (Ne.symm hne), List.append_nil]
      · rw [queuedOn_push rfl, if_pos rfl, hpending, hbefore, List.append_assoc]
  | dropRef found =>
      obtain ⟨hguard, hexclusive⟩ := hpre
      simp only [SpanAct.perform, Option.some.injEq, Prod.mk.injEq, true_and] at haction
      subst haction
      have hsame : (releaseRef env.mapShard thread found state.spans).entries =
          state.spans.entries ∧
          (releaseRef env.mapShard thread found state.spans).queued = state.spans.queued := by
        simp only [releaseRef]
        split
        · exact ⟨rfl, rfl⟩
        · exact ⟨rfl, rfl⟩
      exact h.quiet hthread hsame.1 (queuedOn_same hsame.2) hpackets
        (clearing_none (.inr (.inl hexclusive)) (.inl rfl)) rfl rfl
        fun shown hunfinished hshown => absurd hshown (hguarded found hguard shown hunfinished)
  | dropMut found =>
      obtain ⟨hguard, hexclusive, hsent, -⟩ := hpre
      simp only [SpanAct.perform, Option.some.injEq, Prod.mk.injEq, true_and] at haction
      subst haction
      have hbefore : frame.sent = false ∨ frame.seen = false := by
        cases hvalue : frame.sent with
        | false => exact .inl rfl
        | true => exact .inr (hsent hvalue)
      exact h.quiet hthread rfl (fun _ => rfl) hpackets
        (clearing_none (.inr (.inr hbefore)) (.inl rfl)) rfl rfl
        fun shown hunfinished hshown => absurd hshown (hguarded found hguard shown hunfinished)
  | take spanId =>
      obtain ⟨⟨hguard, -⟩, hcall, htook, hfinished⟩ := hpre
      have hnone : frame.taken = none := by
        by_contra hsome
        obtain ⟨found, hfound⟩ := Option.ne_none_iff_exists'.1 hsome
        exact hlooking htook found hfinished hfound
      obtain ⟨-, -, hqueued, ⟨⟨_, entry⟩, rfl, rfl, hentry, hfree, hentries⟩ |
        ⟨rfl, -, hentries⟩⟩ := take_spec haction
      · exact h.take hthread hentry (free_apart hknown.guards hentry hfree) hentries hqueued rfl
          hguard hfinished hnone hguard rfl rfl rfl
      · exact h.quiet hthread hentries (queuedOn_same hqueued) hpackets
          (clearing_none (.inl hguard) (.inl hguard)) hnone.symm rfl fun _ _ _ => rfl
  | noteFollowsFrom =>
      simp only [SpanAct.perform, Option.some.injEq, Prod.mk.injEq, true_and] at haction
      subst haction
      exact h.quiet hthread rfl (fun _ => rfl) hpackets
        (clearing_same rfl rfl rfl rfl) rfl rfl fun _ _ _ => rfl
  | hasFollowsFrom =>
      obtain ⟨-, -, hsent⟩ := hpre
      simp only [SpanAct.perform, Option.some.injEq, Prod.mk.injEq] at haction
      obtain ⟨-, rfl⟩ := haction
      exact h.quiet hthread rfl (fun _ => rfl) hpackets
        (clearing_none (.inr (.inr (.inl hsent))) (.inr hsent)) rfl rfl fun _ _ _ => rfl

theorem account_write {span : Option Nat} {calledAt : Nat} {content : Content} {choice : Choice}
    {reply : Unit} (h : Account state frames) (hknown : Known env state frames)
    (htaken : Taken env state frames) (hthread : frames thread = frame :: rest)
    (hpre : pre env frame (.sequence (.write span calledAt content)))
    (hperform : perform env thread (.sequence (.write span calledAt content)) choice state =
      some (reply, state'))
    (hguards : Guards env state' (Function.update frames thread
      (next frame (.sequence (.write span calledAt content)) reply :: rest))) :
    Account state' (Function.update frames thread
      (next frame (.sequence (.write span calledAt content)) reply :: rest)) := by
  have hmem : frame ∈ frames thread := Guards.top_mem hthread
  obtain ⟨-, -, -, hwrites⟩ := hpre
  obtain ⟨packet, hpackets, -, hspan, rfl, -⟩ := perform_write hperform
  have hspans := perform_spans hperform (by simp)
  obtain ⟨-, hsame, -, hfinished⟩ :=
    @next_sequence frame (.write span calledAt packet.content) reply
  have hquiet : (∀ other, state'.sentOn other = state.sentOn other) →
      (∀ found, (next frame (.sequence (.write span calledAt packet.content)) reply).Clearing found
        ↔ frame.Clearing found) →
      (∀ found, frame.finished = false → frame.taken = some found →
        (next frame (.sequence (.write span calledAt packet.content)) reply).sent =
          frame.sent) → Account state' (Function.update frames thread
          (next frame (.sequence (.write span calledAt packet.content)) reply :: rest)) :=
    fun hsentOn hclear hsent => h.quiet hthread (by rw [hspans])
      (queuedOn_same (by rw [hspans])) hsentOn hclear hsame.taken hfinished hsent
  have hflowless : packet.content.flows = [] → ∀ other, state'.sentOn other =
      state.sentOn other := by
    intro hflows other
    rw [sentOn_write hpackets, hflows, ite_self, List.append_nil]
  cases span with
  | none =>
      exact hquiet (hflowless hwrites.1) (clearing_same hsame.guard hsame.exclusive rfl hsame.seen)
        fun _ _ _ => rfl
  | some span =>
      cases hwrites with
      | begin spanId metadata metadata' parent uuid visits hcall hguard hsource hcontent =>
          refine hquiet (hflowless (by rw [hcontent]; rfl))
            (clearing_none (.inl hguard) (.inl (hsame.guard.trans hguard))) ?_
          intro found hunfinished hfound
          have hclose := (htaken thread frame hmem hunfinished found hfound).call
          rw [hcall] at hclose
          cases hclose
      | slice found hguard hexclusive hsource hsent hasked hlast hvisits hshows hflows =>
          subst hsource
          exact h.slice hknown htaken hthread hguards hspans hpackets hspan hguard hexclusive hsent
            hflows hsame hfinished rfl
      | lifetimeEnd found hfound hguard hunfinished hsource hsent hshows hflows =>
          subst hsource
          exact h.lifetimeEnd hknown htaken hthread hspans hpackets hspan hfound hguard hunfinished
            hsent hflows hsame hfinished rfl

end Account

theorem account_kept {env : Env} (hslices : env.config.spanMode.emitSpanSlices = true) :
    KeepsInv env AnyCall
      (fun state frames => Known env state frames ∧ Excuses env state frames ∧
        Taken env state frames)
      fun state frames => state.Clean → Account state frames where
  act := by
    rintro state frames thread frame rest action choice reply state' ⟨hknown, hexcuses, htaken⟩ h
      hthread hpre hperform ⟨hknown', -, -⟩ hclean'
    have hclean := clean_before hperform hclean'
    have haccount := h hclean
    by_cases hspans : ∃ act, action = .spans act
    · obtain ⟨act, rfl⟩ := hspans
      exact account_spans haccount hknown htaken hthread hpre hperform hknown'.guards
    · have hspans' : ∀ act, action ≠ .spans act := fun act heq => hspans ⟨act, heq⟩
      have hstore := perform_spans hperform hspans'
      by_cases hwrite : ∃ span calledAt content, action = .sequence (.write span calledAt content)
      · obtain ⟨span, calledAt, content, rfl⟩ := hwrite
        exact account_write haccount hknown htaken hthread hpre hperform hknown'.guards
      · have hwrite' : ∀ span calledAt content,
            action ≠ .sequence (.write span calledAt content) :=
          fun span calledAt content heq => hwrite ⟨span, calledAt, content, heq⟩
        have hpackets := perform_packets hperform hwrite'
        by_cases hfinish : ∃ call, action = .registry (.finish call)
        · obtain ⟨call, rfl⟩ := hfinish
          obtain ⟨rfl, -, -, -, -, hsettled, hfinished⟩ := hpre
          exact haccount.finish htaken hexcuses hclean hslices hthread hstore hpackets hfinished
            hsettled
        · have hother : ∀ call, action ≠ .registry (.finish call) :=
            fun call heq => hfinish ⟨call, heq⟩
          have hsame := next_same_spans frame action reply hspans'
          have hsent := @next_sent frame action reply hspans' hwrite'
          exact haccount.quiet hthread (by rw [hstore]) (queuedOn_same (by rw [hstore]))
            (sentOn_same hpackets) (clearing_same hsame.guard hsame.exclusive hsent hsame.seen)
            hsame.taken (next_finished action reply hother) fun _ _ _ => hsent
  ret := by
    rintro state frames thread frame rest - h hthread hfinal - hclean
    have haccount := h hclean
    constructor
    · intro spanId entry hentry
      refine (haccount.entry spanId entry hentry).pop hthread fun hclear => ?_
      have hguard := hclear.guard
      rw [hfinal.guard] at hguard
      cases hguard
    · exact haccount.taken.pop hthread
    · intro span habsent
      apply haccount.settled
      refine ⟨habsent.entry, fun other value hvalue hunfinished found hfound => ?_⟩
      by_cases hother : other = thread
      · subst hother
        rw [hthread] at hvalue
        rcases List.mem_cons.1 hvalue with rfl | hrest
        · rw [hfinal.finished] at hunfinished
          cases hunfinished
        · refine habsent.taken other value ?_ hunfinished found hfound
          rwa [Function.update_self]
      · refine habsent.taken other value ?_ hunfinished found hfound
        rwa [Function.update_of_ne hother]
  call := by
    rintro state frames thread call prog state' ⟨hknown, -⟩ h - - hcall - hclean
    obtain ⟨registry, -, -, rfl, -⟩ := hknown.ledger.call_admits hcall
    have haccount := h ⟨hclean.noError, hclean.accepted⟩
    constructor
    · intro spanId entry hentry
      refine (haccount.entry spanId entry hentry).push (fun hclear => ?_) id fun _ => id
      cases hclear.guard
    · exact haccount.taken.push (fun _ _ hfound => by cases hfound) fun _ _ hvalue => hvalue
    · intro span habsent
      apply haccount.settled
      refine ⟨habsent.entry, fun other value hvalue => habsent.taken other value ?_⟩
      by_cases hother : other = thread
      · subst hother
        rw [Function.update_self]
        exact List.mem_cons_of_mem _ hvalue
      · rwa [Function.update_of_ne hother]

theorem account_new (nextSequenceId : Nat) : Account (State.new nextSequenceId) fun _ => [] where
  entry := fun _ _ hentry => by cases hentry
  taken := fun _ _ hmem => by cases hmem
  settled := fun _ _ => rfl

end TracingPerfetto.Layer
