import TracingPerfetto.LayerCallbacks

/-!
The registry and the callbacks in progress: which spans they have a handle of, which
span is being created or closed, and that a callback is interrupted only while it runs
a formatter.
-/

namespace TracingPerfetto.Layer

open TracingPerfetto.Runtime TracingPerfetto.Sequence TracingPerfetto.TrackEvents
open TracingPerfetto.Counters TracingPerfetto.Threads
open TracingPerfetto.SpanStore (SpanId)

abbrev Frames := ThreadId → List Frame

/-- The callback that a call starts. -/
def enter (_ : ThreadId) (call : Call) (state : State) : Frame :=
  Frame.start call state.registry.nextInstance state.time

/-- How steps of the layer keep an invariant. -/
abbrev KeepsInv (env : Env) (allowed : ThreadId → Call → State → Prop)
    (base inv : State → Frames → Prop) : Prop :=
  System.Preserves (system env) (protocol env) Final enter allowed base inv

abbrev Always : State → Frames → Prop := fun _ _ => True

abbrev AnyCall : ThreadId → Call → State → Prop := fun _ _ _ => True

/-! ## What an action leaves alone -/

/-- The same callback. -/
structure SameCall (frame next : Frame) : Prop where
  call : next.call = frame.call
  instance_ : next.instance_ = frame.instance_
  calledAt : next.calledAt = frame.calledAt

/-- The same hold of the store. -/
structure SameSpans (frame next : Frame) : Prop where
  guard : next.guard = frame.guard
  exclusive : next.exclusive = frame.exclusive
  noted : next.noted = frame.noted
  started : next.started = frame.started
  asked : next.asked = frame.asked
  seen : next.seen = frame.seen
  inserted : next.inserted = frame.inserted
  took : next.took = frame.took
  taken : next.taken = frame.taken

/-- The same hold of the context. -/
structure SameContext (frame next : Frame) : Prop where
  context : next.context = frame.context
  vacant : next.vacant = frame.vacant

section Next

variable {frame : Frame}

theorem wrote_same (frame : Frame) (content : Content) :
    SameCall frame (frame.wrote content) ∧ SameSpans frame (frame.wrote content) ∧
      SameContext frame (frame.wrote content) ∧
      (frame.wrote content).finished = frame.finished := by
  rcases content with _ | _ | _ | body
  · exact ⟨⟨rfl, rfl, rfl⟩, ⟨rfl, rfl, rfl, rfl, rfl, rfl, rfl, rfl, rfl⟩, ⟨rfl, rfl⟩, rfl⟩
  · exact ⟨⟨rfl, rfl, rfl⟩, ⟨rfl, rfl, rfl, rfl, rfl, rfl, rfl, rfl, rfl⟩, ⟨rfl, rfl⟩, rfl⟩
  · exact ⟨⟨rfl, rfl, rfl⟩, ⟨rfl, rfl, rfl, rfl, rfl, rfl, rfl, rfl, rfl⟩, ⟨rfl, rfl⟩, rfl⟩
  · cases body <;>
      exact ⟨⟨rfl, rfl, rfl⟩, ⟨rfl, rfl, rfl, rfl, rfl, rfl, rfl, rfl, rfl⟩, ⟨rfl, rfl⟩, rfl⟩

theorem next_sequence (action : SequenceAct) (reply : action.Reply) :
    SameCall frame (next frame (.sequence action) reply) ∧
      SameSpans frame (next frame (.sequence action) reply) ∧
      SameContext frame (next frame (.sequence action) reply) ∧
      (next frame (.sequence action) reply).finished = frame.finished := by
  cases action with
  | write span calledAt content =>
      obtain ⟨hcall, hspans, hcontext, hfinished⟩ := wrote_same frame content
      exact ⟨⟨hcall.call, hcall.instance_, hcall.calledAt⟩,
        ⟨hspans.guard, hspans.exclusive, hspans.noted, hspans.started, hspans.asked, hspans.seen,
          hspans.inserted, hspans.took, hspans.taken⟩,
        ⟨hcontext.context, hcontext.vacant⟩, hfinished⟩
  | _ => exact ⟨⟨rfl, rfl, rfl⟩, ⟨rfl, rfl, rfl, rfl, rfl, rfl, rfl, rfl, rfl⟩, ⟨rfl, rfl⟩, rfl⟩

theorem next_shared (action : SharedAct) (reply : action.Reply) :
    SameCall frame (next frame (.shared action) reply) ∧
      SameSpans frame (next frame (.shared action) reply) ∧
      SameContext frame (next frame (.shared action) reply) ∧
      (next frame (.shared action) reply).finished = frame.finished := by
  cases action <;>
    exact ⟨⟨rfl, rfl, rfl⟩, ⟨rfl, rfl, rfl, rfl, rfl, rfl, rfl, rfl, rfl⟩, ⟨rfl, rfl⟩, rfl⟩

theorem next_pools (action : PoolAct) (reply : action.Reply) :
    SameCall frame (next frame (.pools action) reply) ∧
      SameSpans frame (next frame (.pools action) reply) ∧
      SameContext frame (next frame (.pools action) reply) ∧
      (next frame (.pools action) reply).finished = frame.finished := by
  cases action <;>
    exact ⟨⟨rfl, rfl, rfl⟩, ⟨rfl, rfl, rfl, rfl, rfl, rfl, rfl, rfl, rfl⟩, ⟨rfl, rfl⟩, rfl⟩

theorem next_context (action : ContextAct) (reply : action.Reply) :
    SameCall frame (next frame (.context action) reply) ∧
      SameSpans frame (next frame (.context action) reply) ∧
      (next frame (.context action) reply).finished = frame.finished := by
  cases action with
  | lookup | cachedTrack | evict | releaseLocal =>
      cases reply <;> exact ⟨⟨rfl, rfl, rfl⟩, ⟨rfl, rfl, rfl, rfl, rfl, rfl, rfl, rfl, rfl⟩, rfl⟩
  | _ => exact ⟨⟨rfl, rfl, rfl⟩, ⟨rfl, rfl, rfl, rfl, rfl, rfl, rfl, rfl, rfl⟩, rfl⟩

theorem next_spans (action : SpanAct) (reply : action.Reply) :
    SameCall frame (next frame (.spans action) reply) ∧
      SameContext frame (next frame (.spans action) reply) ∧
      (next frame (.spans action) reply).finished = frame.finished := by
  cases action with
  | take => cases reply <;> exact ⟨⟨rfl, rfl, rfl⟩, ⟨rfl, rfl⟩, rfl⟩
  | _ => exact ⟨⟨rfl, rfl, rfl⟩, ⟨rfl, rfl⟩, rfl⟩

theorem next_call (action : Act) (reply : action.Reply) :
    SameCall frame (next frame action reply) := by
  cases action with
  | shared action => exact (next_shared action reply).1
  | pools action => exact (next_pools action reply).1
  | spans action => exact (next_spans action reply).1
  | context action => exact (next_context action reply).1
  | sequence action => exact (next_sequence action reply).1
  | registry action => cases action <;> exact ⟨rfl, rfl, rfl⟩
  | format => exact ⟨rfl, rfl, rfl⟩

theorem next_finished (action : Act) (reply : action.Reply)
    (haction : ∀ call, action ≠ .registry (.finish call)) :
    (next frame action reply).finished = frame.finished := by
  cases action with
  | shared action => exact (next_shared action reply).2.2.2
  | pools action => exact (next_pools action reply).2.2.2
  | spans action => exact (next_spans action reply).2.2
  | context action => exact (next_context action reply).2.2
  | sequence action => exact (next_sequence action reply).2.2.2
  | registry action =>
      cases action with
      | span spanId => rfl
      | finish call => exact absurd rfl (haction call)
  | format => rfl

theorem unfinished_before (action : Act) (reply : action.Reply)
    (h : (next frame action reply).finished = false) : frame.finished = false := by
  by_cases hfinish : ∃ call, action = .registry (.finish call)
  · obtain ⟨call, rfl⟩ := hfinish
    cases h
  · rwa [next_finished action reply fun call heq => hfinish ⟨call, heq⟩] at h

theorem not_taken_before (action : Act) (reply : action.Reply)
    (h : (next frame action reply).took = false) : frame.took = false := by
  cases action with
  | shared action => rwa [(next_shared action reply).2.1.took] at h
  | pools action => rwa [(next_pools action reply).2.1.took] at h
  | context action => rwa [(next_context action reply).2.1.took] at h
  | sequence action => rwa [(next_sequence action reply).2.1.took] at h
  | spans action =>
      cases action with
      | take => cases reply <;> cases h
      | _ => exact h
  | registry action => cases action <;> exact h
  | format => exact h

end Next

/-! ## The ledger -/

/-- The spans that the registry takes for busy with callbacks. -/
def Registry.busy (registry : Registry) (spanId : SpanId) : List ThreadId :=
  match registry.spans spanId with
  | some span => span.busy
  | none => []

namespace Frame

/-- A callback in progress that has a handle of the span. -/
def handles (spanId : SpanId) (frame : Frame) : Bool :=
  !frame.finished && frame.call.handle == some spanId

/-- The span that a callback is creating or closing. -/
def solo (frame : Frame) : Option (SpanId × Bool) :=
  if frame.finished then none
  else
    match frame.call with
    | .newSpan spanId _ _ => some (spanId, false)
    | .close spanId => some (spanId, true)
    | _ => none

/-- A callback that is interrupted. -/
structure Waiting (frame : Frame) : Prop where
  vacant : frame.vacant = false
  calm : frame.phase.calm = true
  finished : frame.finished = false
  guard : frame.guard = none ∨ frame.exclusive = true ∧ ∃ spanId, frame.call = .record spanId

/-- No two callbacks create, or close, one span. -/
def Distinct (frame other : Frame) : Prop :=
  ∀ key, frame.solo = some key → other.solo ≠ some key

theorem Distinct.symm {frame other : Frame} (h : frame.Distinct other) : other.Distinct frame :=
  fun key hother hframe => h key hframe hother

/-- The span of a callback is known to the registry, as one that it creates or closes. -/
structure Filed (registry : Registry) (frame : Frame) : Prop where
  creates : ∀ {spanId metadata parent}, frame.call = .newSpan spanId metadata parent →
    ∃ span, registry.spans spanId = some span ∧ span.instance_ = frame.instance_
  closes : ∀ {spanId}, frame.call = .close spanId →
    ∃ span, registry.spans spanId = some span ∧ span.closing = true

end Frame

structure Ledger (state : State) (frames : Frames) : Prop where
  busy : ∀ spanId thread, (state.registry.busy spanId).count thread =
    (frames thread).countP (Frame.handles spanId)
  filed : Every (fun _ frame => frame.finished = false → frame.Filed state.registry) frames
  closing : ∀ spanId span, state.registry.spans spanId = some span → span.closing = true →
    span.busy = [] ∧ span.entered = []
  issued : ∀ spanId span, state.registry.spans spanId = some span →
    span.instance_ < state.registry.nextInstance
  instances : ∀ spanId span spanId' span', state.registry.spans spanId = some span →
    state.registry.spans spanId' = some span' → span.instance_ = span'.instance_ →
    spanId = spanId'
  distinct : Apart Frame.Distinct frames
  depth : ∀ thread, state.registry.depth thread =
    (frames thread).countP fun frame => !frame.finished
  waiting : ∀ thread, (frames thread).Pairwise fun frame below =>
    below.Waiting ∧ frame.call ≠ .exitThread

section Registry

variable {thread : ThreadId} {registry registry' : Registry} {spanId : SpanId} {call : Call}

theorem modify_spans (change : Registered → Registered) (other : SpanId) :
    (registry.modify spanId change).spans other =
      if other = spanId then (registry.spans spanId).map change else registry.spans other :=
  Function.update_apply ..

/-! What the registry does before a callback. -/

theorem accept_newSpan {metadata : Metadata} {parent : Option SpanId}
    (h : registry.accept thread (.newSpan spanId metadata parent) = some registry') :
    registry.spans spanId = none ∧ registry'.nextInstance = registry.nextInstance + 1 ∧
      registry'.depth = registry.depth ∧
      registry'.spans spanId =
        some ⟨registry.nextInstance, metadata, parent, [], 0, [thread], false⟩ ∧
      ∀ other, other ≠ spanId → ∃ children : Nat → Nat, registry'.spans other =
        (registry.spans other).map fun span =>
          { span with children := children span.children } := by
  simp only [Registry.accept] at h
  split at h
  · simp at h
  · rename_i hnew
    simp only [Bool.or_eq_true, decide_eq_true_eq, not_or, Option.not_isSome_iff_eq_none] at hnew
    cases parent with
    | none =>
        simp only [Option.some.injEq] at h
        subst h
        refine ⟨hnew.1, rfl, rfl, Function.update_self .., fun other hother => ⟨id, ?_⟩⟩
        simp [Function.update_of_ne hother]
    | some parent =>
        simp only at h
        split at h
        · rename_i hparent
          simp only [Bool.and_eq_true, decide_eq_true_eq, ne_eq] at hparent
          simp only [Option.some.injEq] at h
          subst h
          refine ⟨hnew.1, rfl, rfl, ?_, fun other hother => ?_⟩
          · rw [modify_spans, if_neg (fun heq => hparent.1 heq.symm)]
            exact Function.update_self ..
          · rw [modify_spans]
            split
            · rename_i heq
              subst heq
              exact ⟨fun children => children + 1, by simp [Function.update_of_ne hother]⟩
            · exact ⟨id, by simp [Function.update_of_ne hother]⟩
        · simp at h

theorem alive_spans (h : registry.alive spanId = true) :
    ∃ span, registry.spans spanId = some span ∧ span.closing = false := by
  rw [Registry.alive] at h
  split at h
  · rename_i span hspan
    exact ⟨span, hspan, by simpa using h⟩
  · simp at h

/-- A callback with a handle of a span that exists. -/
theorem accept_handle (h : registry.accept thread call = some registry')
    (hcall : call.handle = some spanId)
    (hnew : ∀ metadata parent, call ≠ .newSpan spanId metadata parent) :
    ∃ span, registry.spans spanId = some span ∧
      (span.closing = false ∨ thread ∈ span.entered) ∧
      ∃ entered : List ThreadId → List ThreadId, registry' = registry.modify spanId fun span =>
        { span with entered := entered span.entered, busy := thread :: span.busy } := by
  cases call with
  | newSpan other metadata parent =>
      simp only [Call.handle, Option.some.injEq] at hcall
      subst hcall
      exact absurd rfl (hnew metadata parent)
  | record other | followsFrom other follows =>
      simp only [Call.handle, Option.some.injEq] at hcall
      subst hcall
      simp only [Registry.accept] at h
      split at h
      · rename_i halive
        obtain ⟨span, hspan, hclosing⟩ := alive_spans halive
        simp only [Option.some.injEq] at h
        exact ⟨span, hspan, .inl hclosing, id, h.symm⟩
      · simp at h
  | enter other =>
      simp only [Call.handle, Option.some.injEq] at hcall
      subst hcall
      simp only [Registry.accept] at h
      split at h
      · rename_i halive
        obtain ⟨span, hspan, hclosing⟩ := alive_spans halive
        simp only [Option.some.injEq] at h
        exact ⟨span, hspan, .inl hclosing, fun entered => thread :: entered, h.symm⟩
      · simp at h
  | exit other =>
      simp only [Call.handle, Option.some.injEq] at hcall
      subst hcall
      simp only [Registry.accept] at h
      split at h
      · rename_i span hspan
        split at h
        · rename_i hentered
          simp only [Option.some.injEq] at h
          exact ⟨span, hspan, .inr hentered, fun entered => entered.erase thread, h.symm⟩
        · simp at h
      · simp at h
  | close | event | exitThread => simp [Call.handle] at hcall

theorem accept_close (h : registry.accept thread (.close spanId) = some registry') :
    ∃ span, registry.spans spanId = some span ∧ span.closing = false ∧ span.entered = [] ∧
      span.busy = [] ∧ registry' = registry.modify spanId fun span =>
        { span with closing := true } := by
  simp only [Registry.accept] at h
  split at h
  · rename_i span hspan
    split at h
    · rename_i hidle
      simp only [Bool.and_eq_true, Bool.not_eq_eq_eq_not, Bool.not_true, List.isEmpty_iff,
        decide_eq_true_eq] at hidle
      simp only [Option.some.injEq] at h
      exact ⟨span, hspan, hidle.1.1.1, hidle.1.1.2, hidle.1.2, h.symm⟩
    · simp at h
  · simp at h

/-- What the registry does after a callback. -/
theorem finish_spans (thread : ThreadId) (registry : Registry) (call : Call) (spanId : SpanId) :
    ∃ children : Nat → Nat,
    (RegistryAct.perform thread (.finish call) registry).2.spans spanId =
      if call = .close spanId then none
      else (registry.spans spanId).map fun span =>
        { span with
          busy := if call.handle = some spanId then span.busy.erase thread else span.busy
          children := children span.children } := by
  cases call with
  | close closed =>
      simp only [RegistryAct.perform, Call.close.injEq, Call.handle, reduceCtorEq, if_false]
      split
      · rename_i parent hparent
        rw [modify_spans]
        by_cases hspan : closed = spanId
        · subst hspan
          refine ⟨id, ?_⟩
          by_cases hself : closed = parent
          · subst hself
            simp
          · simp [hself]
        · by_cases hother : spanId = parent
          · subst hother
            exact ⟨fun children => children - 1,
              by simp [hspan, Function.update_of_ne (Ne.symm hspan)]⟩
          · exact ⟨id, by simp [hspan, hother, Function.update_of_ne (Ne.symm hspan)]⟩
      · by_cases hspan : closed = spanId
        · subst hspan
          exact ⟨id, by simp⟩
        · exact ⟨id, by simp [hspan, Function.update_of_ne (Ne.symm hspan)]⟩
  | newSpan busy | record busy | followsFrom busy | enter busy | exit busy =>
      refine ⟨id, ?_⟩
      simp only [RegistryAct.perform, Call.handle, modify_spans, reduceCtorEq, if_false,
        Option.some.injEq]
      by_cases hspan : spanId = busy
      · subst hspan
        simp
      · simp [hspan, Ne.symm hspan]
  | event | exitThread =>
      refine ⟨id, ?_⟩
      simp [RegistryAct.perform, Call.handle]

theorem finish_nextInstance (call : Call) :
    (RegistryAct.perform thread (.finish call) registry).2.nextInstance =
      registry.nextInstance := by
  cases call <;> simp only [RegistryAct.perform, Call.handle] <;> (try split) <;> rfl

theorem finish_depth (call : Call) :
    (RegistryAct.perform thread (.finish call) registry).2.depth =
      Function.update registry.depth thread (registry.depth thread - 1) := by
  cases call <;> simp only [RegistryAct.perform, Call.handle] <;> (try split) <;> rfl

end Registry

/-! ## The steps of the layer keep the ledger -/

theorem perform_registry {env : Env} {thread : ThreadId} {action : Act} {choice : Choice}
    {state state' : State} {reply : action.Reply}
    (h : perform env thread action choice state = some (reply, state'))
    (haction : ∀ call, action ≠ .registry (.finish call)) : state'.registry = state.registry := by
  cases action with
  | shared action | pools action | format =>
      simp only [perform, Option.some.injEq, Prod.mk.injEq] at h
      rw [← h.2]
      rfl
  | spans action | context action | sequence action =>
      simp only [perform, Option.bind_eq_bind, Option.bind_eq_some_iff, Option.some.injEq,
        Prod.mk.injEq] at h
      obtain ⟨_, _, _, rfl⟩ := h
      rfl
  | registry action =>
      simp only [perform, Option.some.injEq, Prod.mk.injEq] at h
      rw [← h.2]
      cases action with
      | span spanId => rfl
      | finish call => exact absurd rfl (haction call)

namespace Ledger

variable {state state' : State} {frames : Frames} {thread : ThreadId} {frame frame' : Frame}
  {rest : List Frame}

theorem countP_top {p : Frame → Bool} (hthread : frames thread = frame :: rest)
    (htop : p frame' = p frame) (other : ThreadId) :
    (Function.update frames thread (frame' :: rest) other).countP p = (frames other).countP p := by
  by_cases hother : other = thread
  · subst hother
    rw [Function.update_self, hthread, List.countP_cons, List.countP_cons, htop]
  · rw [Function.update_of_ne hother]

/-- A step that leaves the registry and the callback as they are. -/
theorem same (h : Ledger state frames) (hthread : frames thread = frame :: rest)
    (hregistry : state'.registry = state.registry) (hcall : SameCall frame frame')
    (hfinished : frame'.finished = frame.finished) :
    Ledger state' (Function.update frames thread (frame' :: rest)) where
  busy := by
    intro spanId other
    rw [hregistry, h.busy, countP_top hthread]
    rw [Frame.handles, Frame.handles, hcall.call, hfinished]
  filed := by
    rw [hregistry]
    apply h.filed.step hthread _ fun _ _ hold => hold
    intro hunfinished
    have hold := h.filed thread frame (by rw [hthread]; exact List.mem_cons_self)
      (hfinished.symm.trans hunfinished)
    refine ⟨fun hcreates => ?_, fun hcloses => ?_⟩
    · rw [hcall.call] at hcreates
      rw [hcall.instance_]
      exact hold.creates hcreates
    · rw [hcall.call] at hcloses
      exact hold.closes hcloses
  closing := by
    rw [hregistry]
    exact h.closing
  issued := by
    rw [hregistry]
    exact h.issued
  instances := by
    rw [hregistry]
    exact h.instances
  distinct := by
    apply h.distinct.step Frame.Distinct.symm hthread
    intro other hdistinct key hkey
    rw [Frame.solo, hcall.call, hfinished] at hkey
    exact hdistinct key hkey
  depth := by
    intro other
    rw [hregistry, h.depth, countP_top hthread]
    rw [hfinished]
  waiting := by
    apply pairwise_step h.waiting hthread
    rintro below - ⟨hwaiting, hexit⟩
    rw [hcall.call]
    exact ⟨hwaiting, hexit⟩

/-- A callback of the thread has a handle. -/
theorem handled (h : Ledger state frames) {spanId : SpanId} (hmem : frame ∈ frames thread)
    (hhandles : frame.handles spanId = true) :
    ∃ span, state.registry.spans spanId = some span ∧ thread ∈ span.busy := by
  have hcount := h.busy spanId thread
  have hpos : 0 < (frames thread).countP (Frame.handles spanId) :=
    List.countP_pos_iff.2 ⟨frame, hmem, hhandles⟩
  rw [← hcount, List.count_pos_iff, Registry.busy] at hpos
  split at hpos
  · rename_i span hspan
    exact ⟨span, hspan, hpos⟩
  · simp at hpos

theorem not_closing (h : Ledger state frames) {spanId : SpanId} {span : Registered}
    (hmem : frame ∈ frames thread) (hhandles : frame.handles spanId = true)
    (hspan : state.registry.spans spanId = some span) : span.closing = false := by
  obtain ⟨found, hfound, hbusy⟩ := h.handled hmem hhandles
  rw [hspan, Option.some.injEq] at hfound
  subst hfound
  by_contra hclosing
  rw [Bool.not_eq_false] at hclosing
  rw [(h.closing spanId span hspan hclosing).1] at hbusy
  simp at hbusy

theorem finish (h : Ledger state frames) (hthread : frames thread = frame :: rest)
    (hunfinished : frame.finished = false)
    (hregistry : state'.registry =
      (RegistryAct.perform thread (.finish frame.call) state.registry).2) :
    Ledger state' (Function.update frames thread ({ frame with finished := true } :: rest)) := by
  have hmem : frame ∈ frames thread := by
    rw [hthread]
    exact List.mem_cons_self
  have hsame : ∀ spanId span', (RegistryAct.perform thread (.finish frame.call)
      state.registry).2.spans spanId = some span' → ∃ span,
      state.registry.spans spanId = some span ∧ span'.instance_ = span.instance_ ∧
        span'.closing = span.closing ∧ span'.entered = span.entered ∧
        (span.busy = [] → span'.busy = []) := by
    intro spanId span' hspan'
    obtain ⟨children, hspans⟩ := finish_spans thread state.registry frame.call spanId
    rw [hspans] at hspan'
    split at hspan'
    · simp at hspan'
    · obtain ⟨span, hspan, rfl⟩ := Option.map_eq_some_iff.1 hspan'
      refine ⟨span, hspan, rfl, rfl, rfl, fun hbusy => ?_⟩
      simp [hbusy]
  constructor
  · intro spanId other
    obtain ⟨children, hspans⟩ := finish_spans thread state.registry frame.call spanId
    have hcount := h.busy spanId other
    rw [Registry.busy] at hcount
    rw [hregistry, Registry.busy, hspans]
    have htop : Frame.handles spanId { frame with finished := true } = false := rfl
    by_cases hclose : frame.call = .close spanId
    · -- the span that is closed has no handles left
      rw [if_pos hclose]
      obtain ⟨span, hspan, hclosing⟩ := (h.filed thread frame hmem hunfinished).closes hclose
      rw [hspan] at hcount
      simp only [(h.closing spanId span hspan hclosing).1, List.count_nil] at hcount
      have hframe : Frame.handles spanId frame = false := by
        simp [Frame.handles, hclose, Call.handle]
      rw [countP_top hthread (htop.trans hframe.symm), ← hcount]
      rfl
    · rw [if_neg hclose]
      by_cases hhandle : frame.call.handle = some spanId
      · have hframe : Frame.handles spanId frame = true := by
          simp [Frame.handles, hunfinished, hhandle]
        obtain ⟨span, hspan, hbusy⟩ := h.handled hmem hframe
        rw [hspan] at hcount
        simp only [hspan, Option.map_some, hhandle, if_true]
        by_cases hother : other = thread
        · subst hother
          rw [Function.update_self, List.countP_cons, htop, List.count_erase_self, hcount, hthread,
            List.countP_cons, hframe]
          simp
        · rw [Function.update_of_ne hother, ← hcount, List.count_erase_of_ne hother]
      · have hframe : Frame.handles spanId frame = false := by
          simp [Frame.handles, hhandle]
        rw [countP_top hthread (htop.trans hframe.symm), ← hcount]
        cases state.registry.spans spanId <;> simp [hhandle]
  · rw [hregistry]
    refine h.filed.step_apart h.distinct hthread ?_ ?_
    · exact fun hfinished => absurd hfinished (by simp)
    · intro other value hmember hdistinct hfiled hvalue
      have hkept : ∀ spanId span, state.registry.spans spanId = some span →
          frame.call ≠ .close spanId → ∃ span', (RegistryAct.perform thread (.finish frame.call)
            state.registry).2.spans spanId = some span' ∧ span'.instance_ = span.instance_ ∧
            span'.closing = span.closing := by
        intro spanId span hspan hclose
        obtain ⟨children, hspans⟩ := finish_spans thread state.registry frame.call spanId
        rw [if_neg hclose, hspan] at hspans
        exact ⟨_, hspans, rfl, rfl⟩
      constructor
      · intro spanId metadata parent hcall
        obtain ⟨span, hspan, hinstance⟩ := (hfiled hvalue).creates hcall
        have hclose : frame.call ≠ .close spanId := by
          intro hclose
          have hhandles : value.handles spanId = true := by
            simp [Frame.handles, hvalue, hcall, Call.handle]
          obtain ⟨span', hspan', hclosing⟩ := (h.filed thread frame hmem hunfinished).closes hclose
          rw [h.not_closing hmember hhandles hspan'] at hclosing
          simp at hclosing
        obtain ⟨span', hspan', hinstance', -⟩ := hkept spanId span hspan hclose
        exact ⟨span', hspan', hinstance'.trans hinstance⟩
      · intro spanId hcall
        obtain ⟨span, hspan, hclosing⟩ := (hfiled hvalue).closes hcall
        have hclose : frame.call ≠ .close spanId := by
          intro hclose
          apply hdistinct (spanId, true)
          · simp [Frame.solo, hunfinished, hclose]
          · simp [Frame.solo, hvalue, hcall]
        obtain ⟨span', hspan', -, hclosing'⟩ := hkept spanId span hspan hclose
        exact ⟨span', hspan', hclosing'.trans hclosing⟩
  · rw [hregistry]
    intro spanId span' hspan' hclosing
    obtain ⟨span, hspan, -, hclosing', hentered, hbusy⟩ := hsame spanId span' hspan'
    rw [hclosing'] at hclosing
    obtain ⟨hidle, hleft⟩ := h.closing spanId span hspan hclosing
    exact ⟨hbusy hidle, hentered.trans hleft⟩
  · rw [hregistry]
    intro spanId span' hspan'
    obtain ⟨span, hspan, hinstance, -⟩ := hsame spanId span' hspan'
    rw [hinstance, finish_nextInstance]
    exact h.issued spanId span hspan
  · rw [hregistry]
    intro first span₁ second span₂ hfirst hsecond heq
    obtain ⟨old₁, hold₁, hinstance₁, -⟩ := hsame first span₁ hfirst
    obtain ⟨old₂, hold₂, hinstance₂, -⟩ := hsame second span₂ hsecond
    rw [hinstance₁, hinstance₂] at heq
    exact h.instances first old₁ second old₂ hold₁ hold₂ heq
  · apply h.distinct.step Frame.Distinct.symm hthread
    intro other _ key hkey
    simp [Frame.solo] at hkey
  · intro other
    rw [hregistry, finish_depth]
    by_cases hother : other = thread
    · subst hother
      rw [Function.update_self, Function.update_self, h.depth, hthread]
      simp [hunfinished]
    · rw [Function.update_of_ne hother, Function.update_of_ne hother, h.depth]
  · exact pairwise_step h.waiting hthread fun _ _ hwaiting => hwaiting

theorem ret (h : Ledger state frames) (hthread : frames thread = frame :: rest)
    (hfinished : frame.finished = true) :
    Ledger state (Function.update frames thread rest) := by
  have hcount : ∀ p : Frame → Bool, p frame = false → ∀ other,
      (Function.update frames thread rest other).countP p = (frames other).countP p := by
    intro p hp other
    by_cases hother : other = thread
    · subst hother
      rw [Function.update_self, hthread, List.countP_cons, hp]
      rfl
    · rw [Function.update_of_ne hother]
  constructor
  · intro spanId other
    rw [h.busy, hcount]
    simp [Frame.handles, hfinished]
  · exact h.filed.pop hthread
  · exact h.closing
  · exact h.issued
  · exact h.instances
  · exact h.distinct.pop hthread
  · intro other
    rw [h.depth, hcount]
    simp [hfinished]
  · exact pairwise_pop h.waiting hthread

/-- A thread that can be called into is idle or waits. -/
theorem ready_waiting {env : Env} {values : List Frame}
    (h : System.Ready (system env) (protocol env) values) :
    values = [] ∨ ∃ frame rest, values = frame :: rest ∧ frame.Waiting := by
  rcases h with hnil | ⟨frame, rest, action, heq, huser, hpre⟩
  · exact .inl hnil
  · obtain ⟨span, rfl⟩ : ∃ span, action = .format span := by
      cases action with
      | format span => exact ⟨span, rfl⟩
      | _ => cases huser
    obtain ⟨hvacant, hcalm, hfinished, hguard, -⟩ := hpre
    exact .inr ⟨frame, rest, heq, hvacant, hcalm, hfinished, hguard⟩

/-- What the registry does for a call that it admits. -/
structure Admits (thread : ThreadId) (call : Call) (registry registry' : Registry) : Prop where
  busy : ∀ spanId, registry'.busy spanId =
    if call.handle = some spanId then thread :: registry.busy spanId else registry.busy spanId
  kept : ∀ spanId span, registry.spans spanId = some span → ∃ span',
    registry'.spans spanId = some span' ∧ span'.instance_ = span.instance_ ∧
      (span.closing = true → span'.closing = true)
  made : ∀ spanId span', registry'.spans spanId = some span' →
    (∃ span, registry.spans spanId = some span ∧ span'.instance_ = span.instance_) ∨
      registry.spans spanId = none ∧ span'.instance_ = registry.nextInstance ∧
        registry'.nextInstance = registry.nextInstance + 1 ∧
        ∃ metadata parent, call = .newSpan spanId metadata parent
  issued : registry.nextInstance ≤ registry'.nextInstance
  closing : ∀ spanId span', registry'.spans spanId = some span' → span'.closing = true →
    span'.busy = [] ∧ span'.entered = []
  creates : ∀ {spanId metadata parent}, call = .newSpan spanId metadata parent →
    registry.spans spanId = none ∧ ∃ span, registry'.spans spanId = some span ∧
      span.instance_ = registry.nextInstance
  closes : ∀ {spanId}, call = .close spanId →
    (∃ span, registry.spans spanId = some span ∧ span.closing = false) ∧
      ∃ span, registry'.spans spanId = some span ∧ span.closing = true
  depth : registry'.depth = registry.depth
  exits : call = .exitThread → registry.depth thread = 0

theorem admits_newSpan {registry registry' : Registry} {spanId : SpanId} {metadata : Metadata}
    {parent : Option SpanId}
    (hclosing : ∀ spanId span, registry.spans spanId = some span → span.closing = true →
      span.busy = [] ∧ span.entered = [])
    (h : registry.accept thread (.newSpan spanId metadata parent) = some registry') :
    Admits thread (.newSpan spanId metadata parent) registry registry' := by
  obtain ⟨hnone, hnext, hdepth, hself, hothers⟩ := accept_newSpan h
  constructor
  · intro other
    simp only [Call.handle, Option.some.injEq, Registry.busy]
    by_cases hother : spanId = other
    · subst hother
      simp [hself, hnone]
    · obtain ⟨children, hspans⟩ := hothers other (Ne.symm hother)
      rw [hspans, if_neg hother]
      cases registry.spans other <;> rfl
  · intro other span hspan
    have hother : other ≠ spanId := by
      rintro rfl
      rw [hnone] at hspan
      cases hspan
    obtain ⟨children, hspans⟩ := hothers other hother
    rw [hspan] at hspans
    exact ⟨_, hspans, rfl, id⟩
  · intro other span' hspan'
    by_cases hother : other = spanId
    · subst hother
      rw [hself, Option.some.injEq] at hspan'
      subst hspan'
      exact .inr ⟨hnone, rfl, hnext, metadata, parent, rfl⟩
    · obtain ⟨children, hspans⟩ := hothers other hother
      rw [hspans] at hspan'
      obtain ⟨span, hspan, rfl⟩ := Option.map_eq_some_iff.1 hspan'
      exact .inl ⟨span, hspan, rfl⟩
  · omega
  · intro other span' hspan' hclosing'
    by_cases hother : other = spanId
    · subst hother
      rw [hself, Option.some.injEq] at hspan'
      subst hspan'
      cases hclosing'
    · obtain ⟨children, hspans⟩ := hothers other hother
      rw [hspans] at hspan'
      obtain ⟨span, hspan, rfl⟩ := Option.map_eq_some_iff.1 hspan'
      exact hclosing other span hspan hclosing'
  · rintro spanId' metadata' parent' heq
    cases heq
    exact ⟨hnone, _, hself, rfl⟩
  · simp
  · exact hdepth
  · simp

theorem admits_handle {registry registry' : Registry} {spanId : SpanId} {call : Call}
    (hclosing : ∀ spanId span, registry.spans spanId = some span → span.closing = true →
      span.busy = [] ∧ span.entered = [])
    (hhandle : call.handle = some spanId)
    (hnew : ∀ spanId metadata parent, call ≠ .newSpan spanId metadata parent)
    (h : registry.accept thread call = some registry') : Admits thread call registry registry' := by
  obtain ⟨span, hspan, hopen, entered, rfl⟩ := accept_handle h hhandle (hnew spanId)
  have hunclosed : span.closing = false := by
    rcases hopen with hfalse | hmem
    · exact hfalse
    · by_contra htrue
      rw [Bool.not_eq_false] at htrue
      rw [(hclosing spanId span hspan htrue).2] at hmem
      cases hmem
  constructor
  · intro other
    rw [hhandle]
    simp only [Option.some.injEq, Registry.busy, modify_spans]
    by_cases hother : other = spanId
    · subst hother
      simp [hspan]
    · rw [if_neg hother, if_neg (Ne.symm hother)]
  · intro other found hfound
    rw [modify_spans]
    by_cases hother : other = spanId
    · subst hother
      rw [if_pos rfl, hfound]
      exact ⟨_, rfl, rfl, id⟩
    · rw [if_neg hother]
      exact ⟨found, hfound, rfl, id⟩
  · intro other found hfound
    rw [modify_spans] at hfound
    by_cases hother : other = spanId
    · subst hother
      rw [if_pos rfl, hspan, Option.map_some, Option.some.injEq] at hfound
      subst hfound
      exact .inl ⟨span, hspan, rfl⟩
    · rw [if_neg hother] at hfound
      exact .inl ⟨found, hfound, rfl⟩
  · exact Nat.le_refl _
  · intro other found hfound hclosed
    rw [modify_spans] at hfound
    by_cases hother : other = spanId
    · subst hother
      rw [if_pos rfl, hspan, Option.map_some, Option.some.injEq] at hfound
      subst hfound
      rw [hunclosed] at hclosed
      cases hclosed
    · rw [if_neg hother] at hfound
      exact hclosing other found hfound hclosed
  · exact fun heq => absurd heq (hnew _ _ _)
  · rintro other rfl
    simp [Call.handle] at hhandle
  · rfl
  · rintro rfl
    simp [Call.handle] at hhandle

theorem admits_close {registry registry' : Registry} {spanId : SpanId}
    (hclosing : ∀ spanId span, registry.spans spanId = some span → span.closing = true →
      span.busy = [] ∧ span.entered = [])
    (h : registry.accept thread (.close spanId) = some registry') :
    Admits thread (.close spanId) registry registry' := by
  obtain ⟨span, hspan, hopen, hentered, hbusy, rfl⟩ := accept_close h
  constructor
  · intro other
    simp only [Registry.busy, modify_spans, Call.handle, reduceCtorEq, if_false]
    by_cases hother : other = spanId
    · subst hother
      simp [hspan]
    · rw [if_neg hother]
  · intro other found hfound
    rw [modify_spans]
    by_cases hother : other = spanId
    · subst hother
      rw [if_pos rfl, hfound]
      exact ⟨_, rfl, rfl, fun _ => rfl⟩
    · rw [if_neg hother]
      exact ⟨found, hfound, rfl, id⟩
  · intro other found hfound
    rw [modify_spans] at hfound
    by_cases hother : other = spanId
    · subst hother
      rw [if_pos rfl, hspan, Option.map_some, Option.some.injEq] at hfound
      subst hfound
      exact .inl ⟨span, hspan, rfl⟩
    · rw [if_neg hother] at hfound
      exact .inl ⟨found, hfound, rfl⟩
  · exact Nat.le_refl _
  · intro other found hfound hclosed
    rw [modify_spans] at hfound
    by_cases hother : other = spanId
    · subst hother
      rw [if_pos rfl, hspan, Option.map_some, Option.some.injEq] at hfound
      subst hfound
      exact ⟨hbusy, hentered⟩
    · rw [if_neg hother] at hfound
      exact hclosing other found hfound hclosed
  · simp
  · rintro other heq
    cases heq
    refine ⟨⟨span, hspan, hopen⟩, ?_⟩
    rw [modify_spans, if_pos rfl, hspan]
    exact ⟨_, rfl, rfl⟩
  · rfl
  · simp

theorem admits_self {registry : Registry} {call : Call}
    (hclosing : ∀ spanId span, registry.spans spanId = some span → span.closing = true →
      span.busy = [] ∧ span.entered = [])
    (hhandle : call.handle = none) (hclose : ∀ spanId, call ≠ .close spanId)
    (hexits : call = .exitThread → registry.depth thread = 0) :
    Admits thread call registry registry where
  busy := by simp [hhandle]
  kept := fun _ span hspan => ⟨span, hspan, rfl, id⟩
  made := fun _ span hspan => .inl ⟨span, hspan, rfl⟩
  issued := Nat.le_refl _
  closing := hclosing
  creates := by
    rintro spanId metadata parent rfl
    simp [Call.handle] at hhandle
  closes := fun heq => absurd heq (hclose _)
  depth := rfl
  exits := hexits

theorem accept_admits (h : Ledger state frames) {call : Call} {registry : Registry}
    (haccept : state.registry.accept thread call = some registry) :
    Admits thread call state.registry registry := by
  cases call with
  | newSpan => exact admits_newSpan h.closing haccept
  | record | followsFrom | enter | exit =>
      exact admits_handle h.closing rfl (by simp) haccept
  | close => exact admits_close h.closing haccept
  | event =>
      simp only [Registry.accept, Option.some.injEq] at haccept
      subst haccept
      exact admits_self h.closing rfl (by simp) (by simp)
  | exitThread =>
      simp only [Registry.accept] at haccept
      split at haccept
      · rename_i hdepth
        simp only [Option.some.injEq] at haccept
        subst haccept
        exact admits_self h.closing rfl (by simp) fun _ => hdepth
      · simp at haccept

theorem call_admits {env : Env} (h : Ledger state frames) {call : Call} {prog : Program Unit}
    (hcall : Layer.call env thread call state = some (prog, state')) :
    ∃ registry, state.registry.accept thread call = some registry ∧
      Admits thread call state.registry registry ∧
      state' = { state.tick with registry := { registry with
        depth := Function.update registry.depth thread (registry.depth thread + 1) } } ∧
      prog = (do
        call.program env state.time state.registry.nextInstance
        act (.registry (.finish call))) := by
  simp only [Layer.call, Option.bind_eq_bind, Option.bind_eq_some_iff, Option.some.injEq,
    Prod.mk.injEq] at hcall
  obtain ⟨registry, haccept, rfl, rfl⟩ := hcall
  exact ⟨registry, haccept, h.accept_admits haccept, rfl, rfl⟩

/-- No callback in progress creates or closes what the new one does. -/
theorem push_distinct (h : Ledger state frames) {call : Call} {registry : Registry}
    (hadmits : Admits thread call state.registry registry) :
    Every (fun _ value => (enter thread call state).Distinct value) frames := by
  intro other value hmem key hkey hvalue
  by_cases hfinished : value.finished = true
  · simp [Frame.solo, hfinished] at hvalue
  · rw [Bool.not_eq_true] at hfinished
    have hfiled := h.filed other value hmem hfinished
    cases call with
    | newSpan spanId metadata parent =>
        have hkey' : key = (spanId, false) := by
          simpa [enter, Frame.start, Frame.solo] using hkey.symm
        subst hkey'
        obtain ⟨hnone, -⟩ := hadmits.creates rfl
        cases hold : value.call <;> simp [Frame.solo, hfinished, hold] at hvalue
        subst hvalue
        obtain ⟨span, hspan, -⟩ := hfiled.creates hold
        rw [hnone] at hspan
        cases hspan
    | close spanId =>
        have hkey' : key = (spanId, true) := by
          simpa [enter, Frame.start, Frame.solo] using hkey.symm
        subst hkey'
        obtain ⟨⟨found, hfound, hopen⟩, -⟩ := hadmits.closes rfl
        cases hold : value.call <;> simp [Frame.solo, hfinished, hold] at hvalue
        subst hvalue
        obtain ⟨span, hspan, hclosing⟩ := hfiled.closes hold
        rw [hfound, Option.some.injEq] at hspan
        subst hspan
        rw [hopen] at hclosing
        cases hclosing
    | _ => simp [enter, Frame.start, Frame.solo] at hkey

theorem call {env : Env} (h : Ledger state frames) {call : Call} {prog : Program Unit}
    (hready : System.Ready (system env) (protocol env) (frames thread))
    (hcall : Layer.call env thread call state = some (prog, state')) :
    Ledger state' (Function.update frames thread (enter thread call state :: frames thread)) := by
  obtain ⟨registry, -, hadmits, rfl, -⟩ := h.call_admits hcall
  have hcount : ∀ (p : Frame → Bool) other,
      (Function.update frames thread (enter thread call state :: frames thread) other).countP p =
        (frames other).countP p +
          if other = thread ∧ p (enter thread call state) = true then 1 else 0 := by
    intro p other
    by_cases hother : other = thread
    · subst hother
      rw [Function.update_self, List.countP_cons]
      simp
    · rw [Function.update_of_ne hother]
      simp [hother]
  constructor
  · intro spanId other
    have hbusy := hadmits.busy spanId
    have hold := h.busy spanId other
    change (registry.busy spanId).count other = _
    rw [hbusy, hcount]
    by_cases hhandle : call.handle = some spanId
    · have hnew : (enter thread call state).handles spanId = true := by
        simp [Frame.handles, enter, Frame.start, hhandle]
      rw [if_pos hhandle, List.count_cons, hold, hnew]
      simp [eq_comm (a := other)]
    · rw [if_neg hhandle, hold]
      simp [Frame.handles, enter, Frame.start, hhandle]
  · refine h.filed.push ?_ ?_
    · intro _
      constructor
      · intro spanId metadata parent hnew
        exact (hadmits.creates hnew).2
      · intro spanId hclose
        exact (hadmits.closes hclose).2
    · intro other value hfiled hvalue
      have hold := hfiled hvalue
      constructor
      · intro spanId metadata parent hnew
        obtain ⟨span, hspan, hinstance⟩ := hold.creates hnew
        obtain ⟨span', hspan', hinstance', -⟩ := hadmits.kept spanId span hspan
        exact ⟨span', hspan', hinstance'.trans hinstance⟩
      · intro spanId hclose
        obtain ⟨span, hspan, hclosing⟩ := hold.closes hclose
        obtain ⟨span', hspan', -, hclosing'⟩ := hadmits.kept spanId span hspan
        exact ⟨span', hspan', hclosing' hclosing⟩
  · exact hadmits.closing
  · intro spanId span' hspan'
    change span'.instance_ < registry.nextInstance
    rcases hadmits.made spanId span' hspan' with ⟨span, hspan, hinstance⟩ | ⟨-, hinstance, hnext, -⟩
    · have := h.issued spanId span hspan
      have := hadmits.issued
      omega
    · omega
  · intro first span₁ second span₂ hfirst hsecond heq
    rcases hadmits.made first span₁ hfirst with ⟨old₁, hold₁, hinstance₁⟩ |
        ⟨hnone₁, hinstance₁, -, metadata₁, parent₁, hnew₁⟩ <;>
      rcases hadmits.made second span₂ hsecond with ⟨old₂, hold₂, hinstance₂⟩ |
        ⟨hnone₂, hinstance₂, -, metadata₂, parent₂, hnew₂⟩
    · exact h.instances first old₁ second old₂ hold₁ hold₂ (by omega)
    · have := h.issued first old₁ hold₁
      omega
    · have := h.issued second old₂ hold₂
      omega
    · rw [hnew₁] at hnew₂
      cases hnew₂
      rfl
  · exact h.distinct.push Frame.Distinct.symm (h.push_distinct hadmits)
  · intro other
    rw [hcount]
    change Function.update registry.depth thread (registry.depth thread + 1) other = _
    rw [hadmits.depth]
    by_cases hother : other = thread
    · subst hother
      rw [Function.update_self, h.depth]
      simp [enter, Frame.start]
    · rw [Function.update_of_ne hother, h.depth]
      simp [hother]
  · apply pairwise_update h.waiting
    have hwaiting := h.waiting thread
    rcases ready_waiting hready with hnil | ⟨top, below, heq, htop⟩
    · simp [hnil]
    · have hexit : (enter thread call state).call ≠ .exitThread := by
        intro hexit
        have hdepth := hadmits.exits hexit
        rw [h.depth, heq, List.countP_cons, htop.finished] at hdepth
        simp at hdepth
      rw [heq] at hwaiting ⊢
      refine List.pairwise_cons.2 ⟨fun value hmem => ⟨?_, hexit⟩, hwaiting⟩
      rcases List.mem_cons.1 hmem with rfl | hbelow
      · exact htop
      · exact ((List.pairwise_cons.1 hwaiting).1 value hbelow).1

end Ledger

theorem ledger_new (nextSequenceId : Nat) : Ledger (State.new nextSequenceId) fun _ => [] where
  busy := fun _ _ => rfl
  filed := fun _ _ hmem => by cases hmem
  closing := fun _ _ hspan => by cases hspan
  issued := fun _ _ hspan => by cases hspan
  instances := fun _ _ _ _ hspan => by cases hspan
  distinct := ⟨fun _ => List.Pairwise.nil, fun _ _ _ _ hmem => by cases hmem⟩
  depth := fun _ => rfl
  waiting := fun _ => List.Pairwise.nil

theorem ledger_kept (env : Env) : KeepsInv env AnyCall Always Ledger where
  act := by
    intro state frames thread frame rest action choice reply state' _ h hthread hpre hperform _
    by_cases hfinish : ∃ call, action = .registry (.finish call)
    · obtain ⟨call, rfl⟩ := hfinish
      obtain ⟨rfl, -, -, -, -, -, hfinished⟩ := hpre
      apply h.finish hthread hfinished
      simp only [perform, Option.some.injEq, Prod.mk.injEq] at hperform
      rw [← hperform.2]
    · have haction : ∀ call, action ≠ .registry (.finish call) :=
        fun call heq => hfinish ⟨call, heq⟩
      exact h.same hthread (perform_registry hperform haction) (next_call action reply)
        (next_finished action reply haction)
  ret := fun _ h hthread hfinal _ => h.ret hthread hfinal.finished
  call := fun _ h hready _ hcall _ => h.call hready hcall

end TracingPerfetto.Layer
