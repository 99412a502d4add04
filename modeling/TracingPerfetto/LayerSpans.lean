import TracingPerfetto.LayerEntries

/-!
Who has a span: the callback that creates it, then its entry in the store, at times in the
hands of one callback, and last the callback that closes it.
-/

namespace TracingPerfetto.Layer

open TracingPerfetto.Runtime TracingPerfetto.Sequence TracingPerfetto.TrackEvents
open TracingPerfetto.Counters TracingPerfetto.Threads
open TracingPerfetto.SpanStore (SpanId)

/-! ## Runs in which nothing goes wrong -/

/-- No write has failed, and no callback was refused its context. -/
structure State.Clean (state : State) : Prop where
  noError : state.shared.hasError = false
  accepted : state.contexts.refused = false

section Performs

variable {env : Env} {state state' : State} {thread : ThreadId} {action : Act} {choice : Choice}
  {reply : action.Reply}

theorem perform_packets (h : perform env thread action choice state = some (reply, state'))
    (haction : ∀ span calledAt content, action ≠ .sequence (.write span calledAt content)) :
    state'.trace.packets = state.trace.packets := by
  cases action with
  | shared | pools | format | registry =>
      simp only [perform, Option.some.injEq, Prod.mk.injEq] at h
      rw [← h.2]
      rfl
  | spans | context =>
      simp only [perform, Option.bind_eq_bind, Option.bind_eq_some_iff, Option.some.injEq,
        Prod.mk.injEq] at h
      obtain ⟨_, _, _, rfl⟩ := h
      rfl
  | sequence act =>
      simp only [perform, Option.bind_eq_bind, Option.bind_eq_some_iff, Option.some.injEq,
        Prod.mk.injEq] at h
      obtain ⟨⟨_, contexts, trace⟩, hact, -, rfl⟩ := h
      cases act with
      | readClock =>
          simp only [SequenceAct.perform, Option.some.injEq, Prod.mk.injEq] at hact
          rw [← hact.2.2]
      | write span calledAt content => exact absurd rfl (haction span calledAt content)
      | timestamp =>
          simp only [SequenceAct.perform, Option.bind_eq_bind, Option.bind_eq_some_iff,
            Option.some.injEq, Prod.mk.injEq] at hact
          obtain ⟨context, -, -, -, rfl⟩ := hact
          simp only
          split <;> rfl
      | _ =>
          simp only [SequenceAct.perform, Option.bind_eq_bind, Option.bind_eq_some_iff,
            Option.some.injEq, Prod.mk.injEq] at hact
          obtain ⟨context, -, -, -, rfl⟩ := hact
          rfl

theorem perform_write {span : Option Nat} {calledAt : Nat} {content : Content} {reply : Unit}
    (h : perform env thread (.sequence (.write span calledAt content)) choice state =
      some (reply, state')) :
    ∃ packet, state'.trace.packets = state.trace.packets ++ [packet] ∧ packet.thread = thread ∧
      packet.span = span ∧ packet.content = content ∧ packet.writtenAt = state.time := by
  simp only [perform, SequenceAct.perform, Option.bind_eq_bind, Option.bind_eq_some_iff,
    Option.some.injEq, Prod.mk.injEq] at h
  obtain ⟨_, ⟨context, -, timestamp, -, writer, -, written, -, rfl⟩, -, rfl⟩ := h
  exact ⟨_, rfl, rfl, rfl, rfl, rfl⟩

theorem perform_time (h : perform env thread action choice state = some (reply, state')) :
    state'.time = state.time + 1 := by
  cases action with
  | shared | pools | format | registry =>
      simp only [perform, Option.some.injEq, Prod.mk.injEq] at h
      rw [← h.2]
      rfl
  | spans | context | sequence =>
      simp only [perform, Option.bind_eq_bind, Option.bind_eq_some_iff, Option.some.injEq,
        Prod.mk.injEq] at h
      obtain ⟨_, _, _, rfl⟩ := h
      rfl

theorem clean_before (h : perform env thread action choice state = some (reply, state'))
    (hclean : state'.Clean) : state.Clean := by
  constructor
  · by_contra herror
    rw [Bool.not_eq_false] at herror
    have hafter := hclean.noError
    rw [error_kept h herror] at hafter
    cases hafter
  · by_contra hrefused
    rw [Bool.not_eq_false] at hrefused
    have hafter := hclean.accepted
    rw [refused_kept h hrefused] at hafter
    cases hafter

end Performs

/-! ## Excuses -/

/-- A callback has an excuse, or a span no track, only after something has gone wrong. -/
structure Excuses (env : Env) (state : State) (frames : Frames) : Prop where
  excused : Every (fun _ frame => frame.excused = true → ¬ state.Clean) frames
  tracked : ∀ spanId entry, state.spans.entries spanId = some entry →
    entry.data.trackUuid = none → env.config.spanMode = .threadTracks ∨ ¬ state.Clean

theorem next_excused {env : Env} {state state' : State} {thread : ThreadId} {action : Act}
    {choice : Choice} {reply : action.Reply} {frame : Frame}
    (hperform : perform env thread action choice state = some (reply, state'))
    (h : (next frame action reply).excused = true) :
    frame.excused = true ∨ ¬ state'.Clean := by
  cases action with
  | shared action =>
      cases action with
      | hasError =>
          simp only [perform, SharedAct.perform, Option.some.injEq, Prod.mk.injEq] at hperform
          obtain ⟨rfl, rfl⟩ := hperform
          simp only [next, Bool.or_eq_true] at h
          rcases h with hbefore | hfailed
          · exact .inl hbefore
          · refine .inr fun hclean => ?_
            have hnone := hclean.noError
            change state.shared.hasError = false at hnone
            rw [hfailed] at hnone
            cases hnone
      | _ => exact .inl h
  | pools action => cases action <;> exact .inl h
  | context action =>
      cases action with
      | lookup =>
          cases reply with
          | refused =>
              simp only [perform, Option.bind_eq_bind, Option.bind_eq_some_iff, Option.some.injEq,
                Prod.mk.injEq] at hperform
              obtain ⟨⟨_, contexts⟩, hlookup, rfl, rfl⟩ := hperform
              refine .inr fun hclean => ?_
              rcases Borrowed.lookup_cases hlookup with ⟨hmissing, -⟩ | ⟨hacquired, -⟩ |
                ⟨-, -, -, hrefused⟩
              · cases hmissing
              · cases hacquired
              · have haccepted := hclean.accepted
                change contexts.refused = false at haccepted
                rw [hrefused] at haccepted
                cases haccepted
          | _ => exact .inl h
      | cachedTrack | evict | releaseLocal => cases reply <;> exact .inl h
      | _ => exact .inl h
  | spans action =>
      cases action with
      | take => cases reply <;> exact .inl h
      | _ => exact .inl h
  | sequence action =>
      cases action with
      | write span calledAt content =>
          cases content with
          | body body => cases body <;> exact .inl h
          | _ => exact .inl h
      | _ => exact .inl h
  | registry action => cases action <;> exact .inl h
  | format => exact .inl h

theorem excuses_kept (env : Env) : KeepsInv env AnyCall (Known env) (Excuses env) where
  act := by
    intro state frames thread frame rest action choice reply state' hknown h hthread hpre hperform
      _
    have hmem : frame ∈ frames thread := Guards.top_mem hthread
    have hbefore : ∀ {P : Prop}, P ∨ ¬ state.Clean → P ∨ ¬ state'.Clean :=
      fun hor => hor.imp_right fun hnot hclean => hnot (clean_before hperform hclean)
    constructor
    · refine h.excused.step hthread ?_ ?_
      · intro hexcused hclean
        rcases next_excused hperform hexcused with hold | hnot
        · exact h.excused thread frame hmem hold (clean_before hperform hclean)
        · exact hnot hclean
      · exact fun _ _ hvalue hexcused hclean => hvalue hexcused (clean_before hperform hclean)
    · intro spanId entry hentry htrack
      cases entries_act hknown.guards hthread hpre hperform with
      | same heq => exact hbefore (h.tracked spanId entry (heq ▸ hentry) htrack)
      | inserted other metadata parent data tier hcall hinsert hnone heq =>
          rw [heq, Function.update_apply] at hentry
          split at hentry
          · cases hentry
            obtain ⟨-, -, -, -, -, -, hpublish, -⟩ := hinsert
            rcases hpublish with hsome | hmode | hexcused
            · exact absurd htrack hsome
            · exact .inl hmode
            · exact hbefore (.inr (h.excused thread frame hmem hexcused))
          · exact hbefore (h.tracked spanId entry hentry htrack)
      | replaced found next hguard hold hsame heq =>
          rw [heq, Function.update_apply] at hentry
          split at hentry
          · cases hentry
            exact hbefore (h.tracked _ _ hold (hsame.trackUuid.symm.trans htrack))
          · exact hbefore (h.tracked spanId entry hentry htrack)
      | taken other hcall hfinished htook heq =>
          rw [heq, Function.update_apply] at hentry
          split at hentry
          · cases hentry
          · exact hbefore (h.tracked spanId entry hentry htrack)
  ret := fun _ h hthread _ _ => ⟨h.excused.pop hthread, h.tracked⟩
  call := by
    intro state frames thread call prog state' hknown h _ _ hcall _
    obtain ⟨registry, -, -, rfl, -⟩ := hknown.ledger.call_admits hcall
    have hclean : ∀ {P : Prop}, P ∨ ¬ state.Clean → P ∨ ¬ State.Clean { state.tick with
        registry := { registry with
          depth := Function.update registry.depth thread (registry.depth thread + 1) } } :=
      fun hor => hor.imp_right fun hnot hclean => hnot ⟨hclean.noError, hclean.accepted⟩
    constructor
    · refine h.excused.push (fun hexcused => by cases hexcused) ?_
      exact fun _ _ hvalue hexcused hclean => hvalue hexcused ⟨hclean.noError, hclean.accepted⟩
    · exact fun spanId entry hentry htrack => hclean (h.tracked spanId entry hentry htrack)

theorem excuses_new (env : Env) (nextSequenceId : Nat) :
    Excuses env (State.new nextSequenceId) fun _ => [] where
  excused := fun _ _ hmem => by cases hmem
  tracked := fun _ _ hentry => by cases hentry

/-! ## Entries that have been taken -/

theorem next_taken {frame : Frame} (action : Act) (reply : action.Reply)
    (haction : ∀ spanId, action ≠ .spans (.take spanId)) :
    (next frame action reply).taken = frame.taken ∧
      (next frame action reply).took = frame.took := by
  by_cases hspans : ∃ act, action = .spans act
  · obtain ⟨act, rfl⟩ := hspans
    cases act with
    | take spanId => exact absurd rfl (haction spanId)
    | _ => exact ⟨rfl, rfl⟩
  · have hsame := next_same_spans frame action reply fun act heq => hspans ⟨act, heq⟩
    exact ⟨hsame.taken, hsame.took⟩

theorem next_unguarded {env : Env} {frame : Frame} {action : Act} {reply : action.Reply}
    (hpre : pre env frame action) (htook : frame.took = true) (hguard : frame.guard = none) :
    (next frame action reply).guard = none := by
  by_cases hspans : ∃ act, action = .spans act
  · obtain ⟨act, rfl⟩ := hspans
    cases act with
    | get spanId =>
        obtain ⟨⟨-, -, -, hbefore, -⟩, -⟩ := hpre
        rw [htook] at hbefore
        cases hbefore
    | getMut spanId =>
        obtain ⟨⟨-, -, -, hbefore, -⟩, -⟩ := hpre
        rw [htook] at hbefore
        cases hbefore
    | put found =>
        obtain ⟨shown, hshown, -⟩ := hpre
        rw [hguard] at hshown
        cases hshown
    | pushFlow found flow =>
        obtain ⟨hshown, -⟩ := hpre
        rw [hguard] at hshown
        cases hshown
    | take spanId => cases reply <;> exact hguard
    | dropRef | dropMut => rfl
    | insert | noteFollowsFrom | hasFollowsFrom => exact hguard
  · rw [(next_same_spans frame action reply fun act heq => hspans ⟨act, heq⟩).guard]
    exact hguard

/-- A callback closes the span whose entry it has. -/
structure Frame.Closes (env : Env) (state : State) (frame : Frame) (found : Found) : Prop where
  took : frame.took = true
  guard : frame.guard = none
  call : frame.call = .close found.spanId
  registered : ∃ span, state.registry.spans found.spanId = some span ∧
    span.instance_ = found.entry.instance_
  tracked : found.data.trackUuid = none → env.config.spanMode = .threadTracks ∨ ¬ state.Clean

def Taken (env : Env) (state : State) (frames : Frames) : Prop :=
  Every (fun _ frame => frame.finished = false → ∀ found, frame.taken = some found →
    frame.Closes env state found) frames

theorem taken_kept (env : Env) :
    KeepsInv env AnyCall (fun state frames => Known env state frames ∧ Excuses env state frames)
      (Taken env) where
  act := by
    rintro state frames thread frame rest action choice reply state' ⟨hknown, hexcuses⟩ h hthread
      hpre hperform -
    have hmem : frame ∈ frames thread := Guards.top_mem hthread
    have hclean : ∀ {P : Prop}, P ∨ ¬ state.Clean → P ∨ ¬ state'.Clean :=
      fun hor => hor.imp_right fun hnot hclean => hnot (clean_before hperform hclean)
    by_cases hfinish : ∃ call, action = .registry (.finish call)
    · obtain ⟨call, rfl⟩ := hfinish
      obtain ⟨rfl, -, -, -, -, -, hfinished⟩ := hpre
      refine h.step_apart hknown.ledger.distinct hthread (fun hvalue => by cases hvalue) ?_
      intro other value hvalue hdistinct hold hunfinished found htaken
      obtain ⟨htook, hguard, hcall, ⟨span, hspan, hinstance⟩, htracked⟩ :=
        hold hunfinished found htaken
      refine ⟨htook, hguard, hcall, ?_, fun hnone => hclean (htracked hnone)⟩
      have hopen : frame.call ≠ .close found.spanId := by
        intro hclose
        apply hdistinct (found.spanId, true)
        · simp [Frame.solo, hfinished, hclose]
        · simp [Frame.solo, hunfinished, hcall]
      obtain ⟨children, hkept⟩ := finish_spans thread state.registry frame.call found.spanId
      rw [if_neg hopen, hspan] at hkept
      simp only [perform, Option.some.injEq, Prod.mk.injEq] at hperform
      rw [← hperform.2]
      exact ⟨_, hkept, hinstance⟩
    · have hother : ∀ call, action ≠ .registry (.finish call) :=
        fun call heq => hfinish ⟨call, heq⟩
      have hregistry := perform_registry hperform hother
      refine Every.step h hthread ?_ ?_
      · intro hunfinished found htaken
        have hbefore := unfinished_before action reply hunfinished
        change (next frame action reply).taken = some found at htaken
        by_cases htake : ∃ spanId, action = .spans (.take spanId)
        · obtain ⟨spanId, rfl⟩ := htake
          obtain ⟨⟨hguard, -⟩, hcall, -⟩ := hpre
          obtain ⟨spans, haction, rfl⟩ := perform_spans_act hperform
          obtain ⟨-, -, -, ⟨shown, rfl, rfl, hentry, -⟩ | ⟨rfl, -⟩⟩ := take_spec haction
          · cases htaken
            refine ⟨rfl, hguard, hcall, hknown.guards.registered _ _ hentry, fun hnone => ?_⟩
            exact hclean (hexcuses.tracked _ _ hentry hnone)
          · cases htaken
        · obtain ⟨hsame, hsame'⟩ := @next_taken frame action reply
            fun spanId heq => htake ⟨spanId, heq⟩
          rw [hsame] at htaken
          obtain ⟨htook, hguard, hcall, hspan, htracked⟩ :=
            h thread frame hmem hbefore found htaken
          refine ⟨hsame'.trans htook, next_unguarded hpre htook hguard,
            (next_call action reply).call.trans hcall, ?_,
            fun hnone => hclean (htracked hnone)⟩
          rw [hregistry]
          exact hspan
      · intro other value hold hunfinished found htaken
        obtain ⟨htook, hguard, hcall, hspan, htracked⟩ := hold hunfinished found htaken
        refine ⟨htook, hguard, hcall, ?_, fun hnone => hclean (htracked hnone)⟩
        rw [hregistry]
        exact hspan
  ret := fun _ h hthread _ _ => Every.pop h hthread
  call := by
    rintro state frames thread call prog state' ⟨hknown, -⟩ h - - hcall -
    obtain ⟨registry, -, hadmits, rfl, -⟩ := hknown.ledger.call_admits hcall
    refine Every.push h (fun _ _ htaken => by cases htaken) ?_
    intro other value hold hunfinished found htaken
    obtain ⟨htook, hguard, hclose, ⟨span, hspan, hinstance⟩, htracked⟩ :=
      hold hunfinished found htaken
    obtain ⟨span', hspan', hinstance', -⟩ := hadmits.kept _ _ hspan
    exact ⟨htook, hguard, hclose, ⟨span', hspan', hinstance'.trans hinstance⟩,
      fun hnone => (htracked hnone).imp_right fun hnot hclean =>
        hnot ⟨hclean.noError, hclean.accepted⟩⟩

theorem taken_new (env : Env) (nextSequenceId : Nat) :
    Taken env (State.new nextSequenceId) fun _ => [] :=
  fun _ _ hmem => by cases hmem

/-! ## Instances -/

section Instances

variable {env : Env} {state : State} {frames : Frames} {thread : ThreadId} {frame : Frame}
  {found : Found}

theorem Known.same_span (h : Known env state frames) {spanId spanId' : SpanId}
    {entry entry' : Entry} (hentry : state.spans.entries spanId = some entry)
    (hentry' : state.spans.entries spanId' = some entry')
    (hinstance : entry.instance_ = entry'.instance_) : spanId = spanId' := by
  obtain ⟨span, hspan, hsame⟩ := h.guards.registered spanId entry hentry
  obtain ⟨span', hspan', hsame'⟩ := h.guards.registered spanId' entry' hentry'
  apply h.ledger.instances spanId span spanId' span' hspan hspan'
  rw [hsame, hsame', hinstance]

/-- An entry that a callback has taken is not in the store. -/
theorem Taken.apart (h : Taken env state frames) (hknown : Known env state frames)
    {other : ThreadId} {value : Frame} (hmem : value ∈ frames other)
    (hunfinished : value.finished = false) (htaken : value.taken = some found) {spanId : SpanId}
    {entry : Entry} (hentry : state.spans.entries spanId = some entry) :
    found.entry.instance_ ≠ entry.instance_ := by
  intro hinstance
  obtain ⟨htook, -, hcall, ⟨span, hspan, hsame⟩, -⟩ := h other value hmem hunfinished found htaken
  obtain ⟨span', hspan', hsame'⟩ := hknown.guards.registered spanId entry hentry
  have heq : found.spanId = spanId := by
    apply hknown.ledger.instances _ span _ span' hspan hspan'
    rw [hsame, hsame', hinstance]
  subst heq
  rw [hknown.guards.closing other value hmem hunfinished htook found.spanId hcall] at hentry
  cases hentry

/-- Two callbacks have not taken entries of one span. -/
theorem Taken.distinct (h : Taken env state frames) (hknown : Known env state frames)
    {other : ThreadId} {value : Frame} {shown : Found} (hframe : frame ∈ frames thread)
    (hunfinished : frame.finished = false) (htaken : frame.taken = some found)
    (hvalue : value ∈ frames other) (hunfinished' : value.finished = false)
    (htaken' : value.taken = some shown) (hdistinct : frame.Distinct value) :
    shown.entry.instance_ ≠ found.entry.instance_ := by
  intro hinstance
  obtain ⟨-, -, hcall, ⟨span, hspan, hsame⟩, -⟩ :=
    h thread frame hframe hunfinished found htaken
  obtain ⟨-, -, hcall', ⟨span', hspan', hsame'⟩, -⟩ :=
    h other value hvalue hunfinished' shown htaken'
  have heq : shown.spanId = found.spanId := by
    apply hknown.ledger.instances _ span' _ span hspan' hspan
    rw [hsame, hsame', hinstance]
  apply hdistinct (found.spanId, true)
  · simp [Frame.solo, hunfinished, hcall]
  · simp [Frame.solo, hunfinished', hcall', heq]

/-- A callback that is creating a span. -/
structure Frame.Creating (frame : Frame) : Prop where
  unfinished : frame.finished = false
  inserted : frame.inserted = false
  call : ∃ spanId metadata parent, frame.call = .newSpan spanId metadata parent

theorem Known.creating_apart (h : Known env state frames) (hmem : frame ∈ frames thread)
    (hcreating : frame.Creating) {spanId : SpanId} {entry : Entry}
    (hentry : state.spans.entries spanId = some entry) : entry.instance_ ≠ frame.instance_ := by
  intro heq
  obtain ⟨created, metadata, parent, hcall⟩ := hcreating.call
  obtain ⟨span, hspan, hinstance⟩ :=
    (h.ledger.filed thread frame hmem hcreating.unfinished).creates hcall
  obtain ⟨span', hspan', hinstance'⟩ := h.guards.registered spanId entry hentry
  have hsame : spanId = created := by
    apply h.ledger.instances _ span' _ span hspan' hspan
    rw [hinstance', heq, hinstance]
  subst hsame
  rw [h.guards.creating thread frame hmem hcreating.unfinished hcreating.inserted spanId metadata
    parent hcall] at hentry
  cases hentry

theorem Taken.creating_apart (h : Taken env state frames) (hknown : Known env state frames)
    (hmem : frame ∈ frames thread) (hcreating : frame.Creating) {other : ThreadId}
    {value : Frame} (hvalue : value ∈ frames other) (hunfinished : value.finished = false)
    (hfound : value.taken = some found) : found.entry.instance_ ≠ frame.instance_ := by
  intro heq
  obtain ⟨created, metadata, parent, hcall⟩ := hcreating.call
  obtain ⟨span, hspan, hinstance⟩ :=
    (hknown.ledger.filed thread frame hmem hcreating.unfinished).creates hcall
  obtain ⟨-, -, hclose, ⟨span', hspan', hinstance'⟩, -⟩ :=
    h other value hvalue hunfinished found hfound
  have hsame : found.spanId = created := by
    apply hknown.ledger.instances _ span' _ span hspan' hspan
    rw [hinstance', heq, hinstance]
  obtain ⟨span'', hspan'', hclosing⟩ :=
    (hknown.ledger.filed other value hvalue hunfinished).closes hclose
  have hhandles : frame.handles found.spanId = true := by
    simp [Frame.handles, hcreating.unfinished, hcall, Call.handle, hsame]
  rw [hknown.ledger.not_closing hmem hhandles hspan''] at hclosing
  cases hclosing

theorem Known.creating_distinct (h : Known env state frames) (hmem : frame ∈ frames thread)
    (hcreating : frame.Creating) {other : ThreadId} {value : Frame} (hvalue : value ∈ frames other)
    (hcreating' : value.Creating) (hdistinct : frame.Distinct value) :
    value.instance_ ≠ frame.instance_ := by
  intro heq
  obtain ⟨created, metadata, parent, hcall⟩ := hcreating.call
  obtain ⟨created', metadata', parent', hcall'⟩ := hcreating'.call
  obtain ⟨span, hspan, hinstance⟩ :=
    (h.ledger.filed thread frame hmem hcreating.unfinished).creates hcall
  obtain ⟨span', hspan', hinstance'⟩ :=
    (h.ledger.filed other value hvalue hcreating'.unfinished).creates hcall'
  have hsame : created' = created := by
    apply h.ledger.instances _ span' _ span hspan' hspan
    rw [hinstance', heq, hinstance]
  apply hdistinct (created, false)
  · simp [Frame.solo, hcreating.unfinished, hcall]
  · simp [Frame.solo, hcreating'.unfinished, hcall', hsame]

end Instances

/-! ## Entries in the hands of a callback -/

/-- What holds of an entry: `whole` as long as nobody works on it, `partly` while one
callback does, under its guard. -/
inductive Share (works : Frame → Found → Prop) (whole : Found → Prop)
    (partly : Frame → Found → Prop) (frames : Frames) (found : Found) : Prop where
  | whole (hnone : Every (fun _ frame => ¬ works frame found) frames) (h : whole found)
  | partly (thread : ThreadId) (frame : Frame) (hmem : frame ∈ frames thread)
      (hworks : works frame found) (h : partly frame found)

section Share

variable {env : Env} {state : State} {frames : Frames} {thread : ThreadId}
  {frame frame' : Frame} {rest : List Frame} {found : Found} {works : Frame → Found → Prop}
  {whole whole' : Found → Prop} {partly partly' : Frame → Found → Prop}

/-- The share of the callback that has the guard. -/
theorem Share.own (h : Share works whole partly frames found)
    (hguarded : ∀ {frame found}, works frame found → frame.guard = some found)
    (hguards : Guards env state frames) (hthread : frames thread = frame :: rest)
    (hguard : frame.guard = some found) (hexclusive : frame.exclusive = true) :
    (works frame found → partly frame found) ∧ (¬ works frame found → whole found) := by
  cases h with
  | whole hnone h =>
      exact ⟨fun hworks => absurd hworks (hnone thread frame (Guards.top_mem hthread)), fun _ => h⟩
  | partly other value hmem hworks h =>
      obtain ⟨hbelow, hothers⟩ := hguards.apart_of_exclusive hthread hguard hexclusive
      by_cases hother : other = thread
      · subst hother
        rw [hthread] at hmem
        rcases List.mem_cons.1 hmem with rfl | hrest
        · exact ⟨fun _ => h, fun hnot => absurd hworks hnot⟩
        · exact absurd rfl (hbelow value hrest found (hguarded hworks))
      · exact absurd rfl (hothers other hother value hmem found (hguarded hworks))

theorem Share.of_own (hguarded : ∀ {frame found}, works frame found → frame.guard = some found)
    (hguards : Guards env state frames) (hthread : frames thread = frame :: rest)
    (hguard : frame.guard = some found) (hexclusive : frame.exclusive = true)
    (hpartly : works frame found → partly frame found)
    (hwhole : ¬ works frame found → whole found) : Share works whole partly frames found := by
  by_cases hworks : works frame found
  · exact .partly thread frame (Guards.top_mem hthread) hworks (hpartly hworks)
  · refine .whole ?_ (hwhole hworks)
    obtain ⟨hbelow, hothers⟩ := hguards.apart_of_exclusive hthread hguard hexclusive
    intro other value hmem hvalue
    by_cases hother : other = thread
    · subst hother
      rw [hthread] at hmem
      rcases List.mem_cons.1 hmem with rfl | hrest
      · exact hworks hvalue
      · exact hbelow value hrest found (hguarded hvalue) rfl
    · exact hothers other hother value hmem found (hguarded hvalue) rfl

/-- A step of a callback that does not begin or end its work on this entry. -/
theorem Share.step (h : Share works whole partly frames found)
    (hthread : frames thread = frame :: rest) (hworks : works frame' found ↔ works frame found)
    (hwhole : whole found → whole' found)
    (htop : works frame found → partly frame found → partly' frame' found)
    (hpartly : ∀ value, partly value found → partly' value found) :
    Share works whole' partly' (Function.update frames thread (frame' :: rest)) found := by
  cases h with
  | whole hnone h =>
      refine .whole (hnone.step hthread ?_ fun _ _ hvalue => hvalue) (hwhole h)
      rw [hworks]
      exact hnone thread frame (Guards.top_mem hthread)
  | partly other value hmem hvalue h =>
      by_cases hother : other = thread
      · subst hother
        rw [hthread] at hmem
        rcases List.mem_cons.1 hmem with rfl | hrest
        · refine .partly other frame' ?_ (hworks.2 hvalue) (htop hvalue h)
          rw [Function.update_self]
          exact List.mem_cons_self
        · refine .partly other value ?_ hvalue (hpartly value h)
          rw [Function.update_self]
          exact List.mem_cons_of_mem _ hrest
      · refine .partly other value ?_ hvalue (hpartly value h)
        rwa [Function.update_of_ne hother]

theorem Share.push {new : Frame} (h : Share works whole partly frames found)
    (hnew : ¬ works new found) (hwhole : whole found → whole' found)
    (hpartly : ∀ value, partly value found → partly' value found) :
    Share works whole' partly' (Function.update frames thread (new :: frames thread)) found := by
  cases h with
  | whole hnone h => exact .whole (hnone.push hnew fun _ _ hvalue => hvalue) (hwhole h)
  | partly other value hmem hvalue h =>
      refine .partly other value ?_ hvalue (hpartly value h)
      by_cases hother : other = thread
      · subst hother
        rw [Function.update_self]
        exact List.mem_cons_of_mem _ hmem
      · rwa [Function.update_of_ne hother]

theorem Share.pop (h : Share works whole partly frames found)
    (hthread : frames thread = frame :: rest) (hnot : ¬ works frame found) :
    Share works whole partly (Function.update frames thread rest) found := by
  cases h with
  | whole hnone h => exact .whole (hnone.pop hthread) h
  | partly other value hmem hvalue h =>
      refine .partly other value ?_ hvalue h
      by_cases hother : other = thread
      · subst hother
        rw [hthread] at hmem
        rw [Function.update_self]
        rcases List.mem_cons.1 hmem with rfl | hrest
        · exact absurd hvalue hnot
        · exact hrest
      · rwa [Function.update_of_ne hother]

end Share

end TracingPerfetto.Layer
