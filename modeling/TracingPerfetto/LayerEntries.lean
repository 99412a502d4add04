import TracingPerfetto.LayerGuards
import Mathlib.Data.Finset.Card

/-!
What becomes of the entries of the store, and that the registry keeps a span as long as
another span hangs off it.
-/

namespace TracingPerfetto.Layer

open TracingPerfetto.Runtime TracingPerfetto.Sequence TracingPerfetto.TrackEvents
open TracingPerfetto.Counters TracingPerfetto.Threads
open TracingPerfetto.SpanStore (SpanId)

/-! ## Spans and their parents -/

/-- The spans that hang off each span: they are as many as the registry has counted, and
a span that is being closed has none. -/
structure Registry.Kin (registry : Registry) (kids : SpanId → Finset SpanId) : Prop where
  hangs : ∀ parent spanId, spanId ∈ kids parent ↔
    ∃ span, registry.spans spanId = some span ∧ span.parent = some parent
  counted : ∀ parent span, registry.spans parent = some span →
    span.children = (kids parent).card
  rooted : ∀ parent, registry.spans parent = none → kids parent = ∅
  closing : ∀ spanId span, registry.spans spanId = some span → span.closing = true →
    span.children = 0

namespace Registry

variable {registry registry' : Registry} {kids : SpanId → Finset SpanId} {thread : ThreadId}
  {call : Call}

structure KeepsKin (change : Registered → Registered) : Prop where
  parent : ∀ span, (change span).parent = span.parent
  children : ∀ span, (change span).children = span.children
  closing : ∀ span, (change span).closing = true → span.closing = true ∨ span.children = 0

theorem Kin.map (h : registry.Kin kids)
    (hspans : ∀ spanId, ∃ change, KeepsKin change ∧
      registry'.spans spanId = (registry.spans spanId).map change) : registry'.Kin kids := by
  have hback : ∀ spanId span', registry'.spans spanId = some span' →
      ∃ span, registry.spans spanId = some span ∧ span'.parent = span.parent ∧
        span'.children = span.children ∧
        (span'.closing = true → span.closing = true ∨ span.children = 0) := by
    intro spanId span' hspan'
    obtain ⟨change, hchange, heq⟩ := hspans spanId
    rw [heq, Option.map_eq_some_iff] at hspan'
    obtain ⟨span, hspan, rfl⟩ := hspan'
    exact ⟨span, hspan, hchange.parent span, hchange.children span, hchange.closing span⟩
  constructor
  · intro parent spanId
    rw [h.hangs]
    constructor
    · rintro ⟨span, hspan, hparent⟩
      obtain ⟨change, hchange, heq⟩ := hspans spanId
      exact ⟨change span, by rw [heq, hspan]; rfl, (hchange.parent span).trans hparent⟩
    · rintro ⟨span', hspan', hparent⟩
      obtain ⟨span, hspan, hsame, -⟩ := hback spanId span' hspan'
      exact ⟨span, hspan, hsame.symm.trans hparent⟩
  · intro parent span' hspan'
    obtain ⟨span, hspan, -, hchildren, -⟩ := hback parent span' hspan'
    exact hchildren.trans (h.counted parent span hspan)
  · intro parent hparent
    obtain ⟨change, -, heq⟩ := hspans parent
    rw [heq, Option.map_eq_none_iff] at hparent
    exact h.rooted parent hparent
  · intro spanId span' hspan' hclosing
    obtain ⟨span, hspan, -, hchildren, hbefore⟩ := hback spanId span' hspan'
    rw [hchildren]
    rcases hbefore hclosing with hclosing | hnone
    · exact h.closing spanId span hspan hclosing
    · exact hnone

theorem Kin.modify (h : registry.Kin kids) {spanId : SpanId}
    {change : Registered → Registered} (hchange : KeepsKin change) :
    (registry.modify spanId change).Kin kids := by
  apply h.map
  intro other
  by_cases hother : other = spanId
  · subst hother
    exact ⟨change, hchange, by rw [modify_spans, if_pos rfl]⟩
  · exact ⟨id, ⟨fun _ => rfl, fun _ => rfl, fun _ => .inl⟩, by simp [modify_spans, hother]⟩

theorem accept_added {spanId : SpanId} {metadata : Metadata} {parent : Option SpanId}
    (h : registry.accept thread (.newSpan spanId metadata parent) = some registry') :
    registry.spans spanId = none ∧
      (∀ other, parent = some other → ∃ span, registry.spans other = some span ∧
        span.closing = false) ∧
      ∀ other, registry'.spans other =
        if other = spanId then
          some ⟨registry.nextInstance, metadata, parent, [], 0, [thread], false⟩
        else (registry.spans other).map fun span =>
          { span with
            children := if parent = some other then span.children + 1 else span.children } := by
  simp only [Registry.accept] at h
  split at h
  · cases h
  · rename_i hnew
    simp only [Bool.or_eq_true, decide_eq_true_eq, not_or, Option.not_isSome_iff_eq_none] at hnew
    refine ⟨hnew.1, ?_⟩
    cases parent with
    | none =>
        simp only [Option.some.injEq] at h
        subst h
        refine ⟨by simp, fun other => ?_⟩
        by_cases hother : other = spanId
        · subst hother
          simp
        · simp [hother]
    | some parent =>
        simp only at h
        split at h
        · rename_i hparent
          simp only [Bool.and_eq_true, decide_eq_true_eq, ne_eq] at hparent
          simp only [Option.some.injEq] at h
          subst h
          obtain ⟨span, hspan, hclosing⟩ := alive_spans hparent.2
          refine ⟨?_, fun other => ?_⟩
          · rintro _ heq
            cases heq
            exact ⟨span, hspan, hclosing⟩
          · rw [modify_spans]
            by_cases hother : other = spanId
            · subst hother
              rw [if_neg (Ne.symm hparent.1), if_pos rfl]
              exact Function.update_self ..
            · by_cases heq : other = parent
              · subst heq
                simp [hother]
              · simp [hother, heq, Ne.symm heq]
        · cases h

theorem Kin.newSpan (h : registry.Kin kids) {spanId : SpanId} {metadata : Metadata}
    {parent : Option SpanId}
    (haccept : registry.accept thread (.newSpan spanId metadata parent) = some registry') :
    registry'.Kin fun other =>
      if parent = some other then insert spanId (kids other) else kids other := by
  obtain ⟨hnone, hparent, hspans⟩ := accept_added haccept
  have hstranger : ∀ other, spanId ∉ kids other := by
    intro other hmem
    obtain ⟨span, hspan, -⟩ := (h.hangs other spanId).1 hmem
    rw [hnone] at hspan
    cases hspan
  constructor
  · intro other child
    rw [hspans child]
    by_cases hchild : child = spanId
    · subst hchild
      simp only [if_true, Option.some.injEq, exists_eq_left']
      split
      · rename_i heq
        simp [heq]
      · rename_i hne
        simp [hne, hstranger]
    · simp only [hchild, if_false, Option.map_eq_some_iff, exists_exists_and_eq_and]
      rw [← h.hangs]
      split
      · rw [Finset.mem_insert]
        simp [hchild]
      · rfl
  · intro other span' hspan'
    rw [hspans] at hspan'
    split at hspan'
    · rename_i heq
      subst heq
      cases hspan'
      have hother : parent ≠ some other := by
        intro hsome
        obtain ⟨span, hspan, -⟩ := hparent other hsome
        rw [hnone] at hspan
        cases hspan
      rw [if_neg hother, h.rooted other hnone]
      rfl
    · rw [Option.map_eq_some_iff] at hspan'
      obtain ⟨span, hspan, rfl⟩ := hspan'
      simp only
      split
      · rw [Finset.card_insert_of_notMem (hstranger other), h.counted other span hspan]
      · exact h.counted other span hspan
  · intro other hother
    rw [hspans] at hother
    split at hother
    · cases hother
    · rw [Option.map_eq_none_iff] at hother
      rw [if_neg]
      · exact h.rooted other hother
      · intro hsome
        obtain ⟨span, hspan, -⟩ := hparent other hsome
        rw [hother] at hspan
        cases hspan
  · intro other span' hspan' hclosing
    rw [hspans] at hspan'
    split at hspan'
    · cases hspan'
      cases hclosing
    · rw [Option.map_eq_some_iff] at hspan'
      obtain ⟨span, hspan, rfl⟩ := hspan'
      simp only
      rw [if_neg]
      · exact h.closing other span hspan hclosing
      · intro hsome
        obtain ⟨found, hfound, hopen⟩ := hparent other hsome
        rw [hspan, Option.some.injEq] at hfound
        subst hfound
        rw [hopen] at hclosing
        cases hclosing

theorem accept_parent (h : registry.accept thread call = some registry') {spanId : SpanId}
    {span : Registered} (hspan : registry.spans spanId = some span) :
    ∃ span', registry'.spans spanId = some span' ∧ span'.parent = span.parent := by
  have hmodify : ∀ other (change : Registered → Registered),
      (∀ found, (change found).parent = found.parent) →
      ∃ span', (registry.modify other change).spans spanId = some span' ∧
        span'.parent = span.parent := by
    intro other change hchange
    rw [modify_spans]
    split
    · rename_i heq
      subst heq
      exact ⟨change span, by rw [hspan]; rfl, hchange span⟩
    · exact ⟨span, hspan, rfl⟩
  cases call with
  | newSpan other metadata parent =>
      obtain ⟨hnone, -, hspans⟩ := accept_added h
      rw [hspans, if_neg, hspan]
      · exact ⟨_, rfl, rfl⟩
      · rintro rfl
        rw [hnone] at hspan
        cases hspan
  | record other | followsFrom other _ | enter other | exit other =>
      obtain ⟨-, -, -, entered, rfl⟩ := accept_handle h rfl (by simp)
      exact hmodify _ _ fun _ => rfl
  | close other =>
      obtain ⟨-, -, -, -, -, rfl⟩ := accept_close h
      exact hmodify _ _ fun _ => rfl
  | event | exitThread =>
      simp only [Registry.accept] at h
      first
      | (simp only [Option.some.injEq] at h; exact ⟨span, h ▸ hspan, rfl⟩)
      | (split at h
         · simp only [Option.some.injEq] at h
           exact ⟨span, h ▸ hspan, rfl⟩
         · cases h)

theorem Kin.accept (h : registry.Kin kids)
    (haccept : registry.accept thread call = some registry') : ∃ kids', registry'.Kin kids' := by
  cases call with
  | newSpan spanId metadata parent => exact ⟨_, h.newSpan haccept⟩
  | record spanId | followsFrom spanId _ | enter spanId | exit spanId =>
      obtain ⟨-, -, -, entered, rfl⟩ := accept_handle haccept rfl (by simp)
      exact ⟨kids, h.modify ⟨fun _ => rfl, fun _ => rfl, fun _ => .inl⟩⟩
  | close spanId =>
      simp only [Registry.accept] at haccept
      split at haccept
      · rename_i span hspan
        split at haccept
        · rename_i hidle
          simp only [Bool.and_eq_true, decide_eq_true_eq] at hidle
          simp only [Option.some.injEq] at haccept
          subst haccept
          refine ⟨kids, h.map fun other => ?_⟩
          by_cases hother : other = spanId
          · subst hother
            refine ⟨fun found => { found with closing := found.closing || found.children = 0 },
              ⟨fun _ => rfl, fun _ => rfl, ?_⟩, ?_⟩
            · intro found hclosing
              simpa using hclosing
            · rw [modify_spans, if_pos rfl, hspan]
              simp [hidle.2]
          · exact ⟨id, ⟨fun _ => rfl, fun _ => rfl, fun _ => .inl⟩, by simp [modify_spans, hother]⟩
        · cases haccept
      · cases haccept
  | event metadata span =>
      simp only [Registry.accept, Option.some.injEq] at haccept
      exact ⟨kids, haccept ▸ h⟩
  | exitThread =>
      simp only [Registry.accept] at haccept
      split at haccept
      · simp only [Option.some.injEq] at haccept
        exact ⟨kids, haccept ▸ h⟩
      · cases haccept

/-- A span that is closed leaves its parent. -/
theorem Kin.finish (h : registry.Kin kids)
    (hclose : ∀ spanId, call = .close spanId →
      ∃ span, registry.spans spanId = some span ∧ span.closing = true) :
    ∃ kids', (RegistryAct.perform thread (.finish call) registry).2.Kin kids' := by
  by_cases hcall : ∃ spanId, call = .close spanId
  · obtain ⟨spanId, rfl⟩ := hcall
    obtain ⟨span, hspan, hclosing⟩ := hclose spanId rfl
    have hchildless : kids spanId = ∅ := by
      rw [← Finset.card_eq_zero, ← h.counted spanId span hspan]
      exact h.closing spanId span hspan hclosing
    have hspans : ∀ other, (RegistryAct.perform thread (.finish (.close spanId)) registry).2.spans
        other = if other = spanId then none else (registry.spans other).map fun found =>
          { found with
            children := if span.parent = some other then found.children - 1
              else found.children } := by
      intro other
      simp only [RegistryAct.perform, hspan, Option.bind_some]
      cases hparent : span.parent with
      | none =>
          simp only [reduceCtorEq, if_false, Function.update_apply]
          split
          · rfl
          · simp
      | some parent =>
          have hself : parent ≠ spanId := by
            rintro rfl
            have hmem := (h.hangs parent parent).2 ⟨span, hspan, hparent⟩
            rw [hchildless] at hmem
            cases hmem
          simp only [modify_spans, Function.update_apply, Option.some.injEq]
          by_cases hother : other = spanId
          · subst hother
            simp [Ne.symm hself]
          · by_cases heq : other = parent
            · subst heq
              simp [hother]
            · simp [hother, heq, Ne.symm heq]
    refine ⟨fun other => (kids other).erase spanId, ?_, ?_, ?_, ?_⟩
    · intro other child
      rw [Finset.mem_erase, hspans child, h.hangs]
      by_cases hchild : child = spanId
      · simp [hchild]
      · simp [hchild]
    · intro other span' hspan'
      rw [hspans] at hspan'
      split at hspan'
      · cases hspan'
      · rw [Option.map_eq_some_iff] at hspan'
        obtain ⟨found, hfound, rfl⟩ := hspan'
        simp only
        split
        · rename_i hparent
          rw [Finset.card_erase_of_mem ((h.hangs other spanId).2 ⟨span, hspan, hparent⟩),
            h.counted other found hfound]
        · rename_i hparent
          rw [Finset.erase_eq_of_notMem, h.counted other found hfound]
          intro hmem
          obtain ⟨found', hfound', hparent'⟩ := (h.hangs other spanId).1 hmem
          rw [hspan, Option.some.injEq] at hfound'
          exact hparent (hfound' ▸ hparent')
    · intro other hother
      rw [hspans] at hother
      split at hother
      · rename_i heq
        rw [heq, hchildless]
        rfl
      · rw [Option.map_eq_none_iff] at hother
        rw [h.rooted other hother]
        rfl
    · intro other span' hspan' hclosing'
      rw [hspans] at hspan'
      split at hspan'
      · cases hspan'
      · rw [Option.map_eq_some_iff] at hspan'
        obtain ⟨found, hfound, rfl⟩ := hspan'
        simp only [h.closing other found hfound hclosing']
        split <;> rfl
  · refine ⟨kids, h.map fun other => ?_⟩
    have hsame : ∀ spanId, ∃ change, KeepsKin change ∧ (registry.modify spanId fun span =>
        { span with busy := span.busy.erase thread }).spans other =
          (registry.spans other).map change := by
      intro spanId
      by_cases hother : other = spanId
      · subst hother
        exact ⟨fun span => { span with busy := span.busy.erase thread },
          ⟨fun _ => rfl, fun _ => rfl, fun _ => .inl⟩, by rw [modify_spans, if_pos rfl]⟩
      · exact ⟨id, ⟨fun _ => rfl, fun _ => rfl, fun _ => .inl⟩, by simp [modify_spans, hother]⟩
    cases call with
    | close spanId => exact absurd ⟨spanId, rfl⟩ hcall
    | newSpan spanId _ _ | record spanId | followsFrom spanId _ | enter spanId | exit spanId =>
        exact hsame spanId
    | event | exitThread =>
        exact ⟨id, ⟨fun _ => rfl, fun _ => rfl, fun _ => .inl⟩, by
          simp [RegistryAct.perform, Call.handle]⟩

end Registry

/-- Parents are there as long as spans that hang off them, and a callback that creates a
span knows the parent that the registry has for it. -/
structure Family (state : State) (frames : Frames) : Prop where
  kin : ∃ kids, state.registry.Kin kids
  filed : Every (fun _ frame => frame.finished = false → ∀ spanId metadata parent,
    frame.call = .newSpan spanId metadata parent →
      ∃ span, state.registry.spans spanId = some span ∧ span.parent = parent) frames

theorem Family.parent_open {state : State} {frames : Frames} (h : Family state frames)
    {spanId parent : SpanId} {span found : Registered}
    (hspan : state.registry.spans spanId = some span) (hparent : span.parent = some parent)
    (hfound : state.registry.spans parent = some found) : found.closing = false := by
  obtain ⟨kids, hkin⟩ := h.kin
  have hmem := (hkin.hangs parent spanId).2 ⟨span, hspan, hparent⟩
  by_contra hclosing
  rw [Bool.not_eq_false] at hclosing
  have hcount := hkin.closing parent found hfound hclosing
  rw [hkin.counted parent found hfound, Finset.card_eq_zero] at hcount
  rw [hcount] at hmem
  cases hmem

theorem family_kept (env : Env) : KeepsInv env AnyCall Ledger Family where
  act := by
    intro state frames thread frame rest action choice reply state' hledger h hthread hpre hperform
      _
    have hmem : frame ∈ frames thread := by
      rw [hthread]
      exact List.mem_cons_self
    by_cases hfinish : ∃ call, action = .registry (.finish call)
    · obtain ⟨call, rfl⟩ := hfinish
      obtain ⟨rfl, -, -, -, -, -, hfinished⟩ := hpre
      simp only [perform, Option.some.injEq, Prod.mk.injEq] at hperform
      obtain ⟨-, rfl⟩ := hperform
      obtain ⟨kids, hkin⟩ := h.kin
      have hkept : ∀ other, ∀ value ∈ frames other, value.finished = false →
          ∀ spanId metadata parent, value.call = .newSpan spanId metadata parent →
            ∃ span, (RegistryAct.perform thread (.finish frame.call) state.registry).2.spans
              spanId = some span ∧ span.parent = parent := by
        intro other value hvalue hunfinished spanId metadata parent hcall
        obtain ⟨span, hspan, hparent⟩ :=
          h.filed other value hvalue hunfinished spanId metadata parent hcall
        obtain ⟨children, hspans⟩ := finish_spans thread state.registry frame.call spanId
        have hopen : frame.call ≠ .close spanId := by
          intro hclose
          obtain ⟨found, hfound, hclosing⟩ :=
            (hledger.filed thread frame hmem hfinished).closes hclose
          have hhandles : value.handles spanId = true := by
            simp [Frame.handles, hunfinished, hcall, Call.handle]
          rw [hledger.not_closing hvalue hhandles hfound] at hclosing
          cases hclosing
        rw [hspans, if_neg hopen, hspan]
        exact ⟨_, rfl, hparent⟩
      constructor
      · exact hkin.finish fun spanId hcall =>
          (hledger.filed thread frame hmem hfinished).closes hcall
      · apply every_update
        · intro value hvalue hunfinished
          rcases List.mem_cons.1 hvalue with rfl | hrest
          · cases hunfinished
          · have hvalue' : value ∈ frames thread := by
              rw [hthread]
              exact List.mem_cons_of_mem _ hrest
            exact hkept thread value hvalue' hunfinished
        · exact fun other _ value hvalue hunfinished => hkept other value hvalue hunfinished
    · have hother : ∀ call, action ≠ .registry (.finish call) :=
        fun call heq => hfinish ⟨call, heq⟩
      have hregistry := perform_registry hperform hother
      constructor
      · rw [hregistry]
        exact h.kin
      · rw [hregistry]
        have hcall : ((protocol env).next frame action reply).call = frame.call :=
          (next_call action reply).call
        have hfinished : ((protocol env).next frame action reply).finished = frame.finished :=
          next_finished action reply hother
        refine h.filed.step hthread ?_ fun _ _ hvalue => hvalue
        rw [hcall, hfinished]
        exact h.filed thread frame hmem
  ret := fun _ h hthread _ _ => ⟨h.kin, h.filed.pop hthread⟩
  call := by
    intro state frames thread call prog state' hledger h _ _ hcall _
    obtain ⟨registry, haccept, hadmits, rfl, -⟩ := hledger.call_admits hcall
    obtain ⟨kids, hkin⟩ := h.kin
    constructor
    · obtain ⟨kids', hkin'⟩ := hkin.accept haccept
      exact ⟨kids', hkin'.hangs, hkin'.counted, hkin'.rooted, hkin'.closing⟩
    · refine h.filed.push ?_ fun _ value hvalue hunfinished spanId metadata parent hnew => ?_
      · rintro - spanId metadata parent hnew
        cases hnew
        obtain ⟨-, -, hspans⟩ := Registry.accept_added haccept
        exact ⟨_, (hspans spanId).trans (if_pos rfl), rfl⟩
      · obtain ⟨span, hspan, hparent⟩ := hvalue hunfinished spanId metadata parent hnew
        obtain ⟨span', hspan', hsame⟩ := Registry.accept_parent haccept hspan
        exact ⟨span', hspan', hsame.trans hparent⟩

theorem family_new (nextSequenceId : Nat) : Family (State.new nextSequenceId) fun _ => [] where
  kin := ⟨fun _ => ∅, by constructor <;> simp [State.new]⟩
  filed := fun _ _ hmem => by cases hmem

/-! ## Entries -/

/-- What does not change as long as an entry is there. -/
structure SameEntry (entry entry' : Entry) : Prop where
  instance_ : entry'.instance_ = entry.instance_
  tier : entry'.tier = entry.tier
  trackPool : entry'.data.trackPool = entry.data.trackPool
  trackUuid : entry'.data.trackUuid = entry.data.trackUuid

/-- What an action of a callback does to the entries. -/
inductive EntryStep (env : Env) (frame frame' : Frame)
    (entries entries' : SpanId → Option Entry) : Prop where
  | same (h : entries' = entries)
  | inserted (spanId : SpanId) (metadata : Metadata) (parent : Option SpanId) (data : SpanData)
      (tier : Tier) (hcall : frame.call = .newSpan spanId metadata parent)
      (hpre : pre env frame (.spans (.insert spanId frame.instance_ data)))
      (hnone : entries spanId = none)
      (h : entries' = Function.update entries spanId (some ⟨frame.instance_, data, tier⟩))
  | replaced (found next : Found) (hguard : frame.guard = some found)
      (hold : entries found.spanId = some found.entry) (hsame : SameEntry found.entry next.entry)
      (h : entries' = Function.update entries found.spanId (some next.entry))
  | taken (spanId : SpanId) (hcall : frame.call = .close spanId)
      (hfinished : frame.finished = false) (htook : frame'.took = true)
      (h : entries' = Function.update entries spanId none)

section Entries

variable {env : Env} {state state' : State} {frames : Frames} {thread : ThreadId}
  {frame : Frame} {rest : List Frame} {action : Act} {choice : Choice} {reply : action.Reply}

theorem entries_act (h : Guards env state frames) (hthread : frames thread = frame :: rest)
    (hpre : pre env frame action)
    (hperform : perform env thread action choice state = some (reply, state')) :
    EntryStep env frame (next frame action reply) state.spans.entries state'.spans.entries := by
  have hmem := Guards.top_mem hthread
  by_cases hspans : ∃ act, action = .spans act
  · obtain ⟨act, rfl⟩ := hspans
    obtain ⟨spans, haction, rfl⟩ := perform_spans_act hperform
    cases act with
    | insert spanId instance_ data =>
        have hinsertion := hpre
        obtain ⟨-, ⟨metadata, parent, hcall⟩, rfl, hinserted, hfinished, -⟩ := hpre
        simp only [SpanAct.perform, Option.map_eq_some_iff, Prod.mk.injEq, true_and] at haction
        obtain ⟨inserted, hinsert, rfl⟩ := haction
        obtain ⟨-, hentries, -⟩ := insert_spec hinsert
        exact .inserted spanId metadata parent data _ hcall hinsertion
          (h.creating thread frame hmem hfinished hinserted spanId metadata parent hcall) hentries
    | get spanId => exact .same (get_spec haction).1
    | getMut spanId =>
        rcases getMut_spec haction with ⟨shown, -, -, -, -, rfl⟩ | ⟨-, -, rfl⟩
        · exact .same rfl
        · exact .same rfl
    | put found =>
        obtain ⟨shown, hguard, -, hchanges, -⟩ := hpre
        simp only [SpanAct.perform, Option.some.injEq, Prod.mk.injEq, true_and] at haction
        subst haction
        refine .replaced shown found hguard (h.entry thread frame hmem shown hguard)
          ⟨hchanges.instance_, hchanges.tier, hchanges.trackPool, hchanges.trackUuid⟩ ?_
        rw [← hchanges.spanId]
        rfl
    | pushFlow found flow =>
        obtain ⟨hguard, -⟩ := hpre
        simp only [SpanAct.perform, Option.some.injEq, Prod.mk.injEq, true_and] at haction
        subst haction
        exact .replaced found (found.withData (found.data.pushFlow flow)) hguard
          (h.entry thread frame hmem found hguard) ⟨rfl, rfl, rfl, rfl⟩ rfl
    | dropRef found =>
        simp only [SpanAct.perform, Option.some.injEq, Prod.mk.injEq, true_and] at haction
        subst haction
        refine .same ?_
        simp only [releaseRef]
        split <;> rfl
    | dropMut found =>
        simp only [SpanAct.perform, Option.some.injEq, Prod.mk.injEq, true_and] at haction
        subst haction
        exact .same rfl
    | take spanId =>
        obtain ⟨-, hcall, -, hfinished⟩ := hpre
        obtain ⟨-, -, -, hcases⟩ := take_spec haction
        rcases hcases with ⟨shown, rfl, -, -, -, hentries⟩ | ⟨-, -, hentries⟩
        · exact .taken spanId hcall hfinished rfl hentries
        · exact .same hentries
    | noteFollowsFrom | hasFollowsFrom =>
        simp only [SpanAct.perform, Option.some.injEq, Prod.mk.injEq] at haction
        obtain ⟨-, rfl⟩ := haction
        exact .same rfl
  · have haction : ∀ act, action ≠ .spans act := fun act heq => hspans ⟨act, heq⟩
    exact .same (by rw [perform_spans hperform haction])

theorem error_kept (hperform : perform env thread action choice state = some (reply, state'))
    (h : state.shared.hasError = true) : state'.shared.hasError = true := by
  cases action with
  | shared action =>
      simp only [perform, Option.some.injEq, Prod.mk.injEq] at hperform
      obtain ⟨-, rfl⟩ := hperform
      cases action with
      | hasError | allocSequenceId | allocUuid | allocFlowId | claimProcessDescriptor => exact h
      | processTrackUuid | counterTrackUuid =>
          simp only [SharedAct.perform]
          split <;> exact h
  | pools | format | registry =>
      simp only [perform, Option.some.injEq, Prod.mk.injEq] at hperform
      obtain ⟨-, rfl⟩ := hperform
      exact h
  | spans | context =>
      simp only [perform, Option.bind_eq_bind, Option.bind_eq_some_iff, Option.some.injEq,
        Prod.mk.injEq] at hperform
      obtain ⟨_, -, -, rfl⟩ := hperform
      exact h
  | sequence =>
      simp only [perform, Option.bind_eq_bind, Option.bind_eq_some_iff, Option.some.injEq,
        Prod.mk.injEq] at hperform
      obtain ⟨_, -, -, rfl⟩ := hperform
      simp [h]

theorem refused_kept (hperform : perform env thread action choice state = some (reply, state'))
    (h : state.contexts.refused = true) : state'.contexts.refused = true := by
  have hlive : ∀ {α : Type} {act : ThreadCtx → α × ThreadCtx} {value : α} {contexts' : Contexts},
      state.contexts.onLive thread act = some (value, contexts') → contexts'.refused = true := by
    intro α act value contexts' honLive
    obtain ⟨context, -, -, rfl⟩ := onLive_cases honLive
    exact h
  cases action with
  | shared | pools | format | registry =>
      simp only [perform, Option.some.injEq, Prod.mk.injEq] at hperform
      obtain ⟨-, rfl⟩ := hperform
      exact h
  | spans =>
      simp only [perform, Option.bind_eq_bind, Option.bind_eq_some_iff, Option.some.injEq,
        Prod.mk.injEq] at hperform
      obtain ⟨_, -, -, rfl⟩ := hperform
      exact h
  | context act =>
      simp only [perform, Option.bind_eq_bind, Option.bind_eq_some_iff, Option.some.injEq,
        Prod.mk.injEq] at hperform
      obtain ⟨⟨_, contexts⟩, hact, -, rfl⟩ := hperform
      cases act with
      | lookup =>
          rcases Borrowed.lookup_cases hact with ⟨-, -, rfl⟩ | ⟨-, -, -, -, hsame⟩ |
            ⟨-, -, -, hrefused⟩
          · exact h
          · exact hsame.trans h
          · exact hrefused
      | insert sequenceId uuid anchor =>
          simp only [ContextAct.perform, Option.some.injEq, Prod.mk.injEq] at hact
          obtain ⟨-, rfl⟩ := hact
          exact h
      | destroy =>
          simp only [ContextAct.perform, Option.some.injEq] at hact
          split at hact <;> (obtain ⟨-, rfl⟩ := Prod.mk.inj hact; exact h)
      | _ => exact hlive hact
  | sequence act =>
      simp only [perform, Option.bind_eq_bind, Option.bind_eq_some_iff, Option.some.injEq,
        Prod.mk.injEq] at hperform
      obtain ⟨⟨_, contexts, trace⟩, hact, -, rfl⟩ := hperform
      cases act with
      | readClock =>
          simp only [SequenceAct.perform, Option.some.injEq, Prod.mk.injEq] at hact
          rw [← hact.2.1]
          exact h
      | write =>
          simp only [SequenceAct.perform, Option.bind_eq_bind, Option.bind_eq_some_iff,
            Option.some.injEq, Prod.mk.injEq] at hact
          obtain ⟨context, -, _, -, _, -, _, -, -, rfl, -⟩ := hact
          exact h
      | _ =>
          simp only [SequenceAct.perform, Option.bind_eq_bind, Option.bind_eq_some_iff,
            Option.some.injEq, Prod.mk.injEq] at hact
          obtain ⟨context, -, -, rfl, -⟩ := hact
          exact h

theorem EntryStep.kept {entries entries' : SpanId → Option Entry}
    {frame' : Frame} (h : EntryStep env frame frame' entries entries') {spanId : SpanId}
    {entry : Entry} (hentry : entries spanId = some entry)
    (hclose : frame.call = .close spanId → frame.finished = true ∨ frame'.took = false) :
    ∃ entry', entries' spanId = some entry' ∧ SameEntry entry entry' := by
  cases h with
  | same h => exact ⟨entry, by rw [h, hentry], rfl, rfl, rfl, rfl⟩
  | inserted other metadata parent data tier hcall hpre hnone h =>
      refine ⟨entry, ?_, rfl, rfl, rfl, rfl⟩
      rw [h, Function.update_of_ne]
      · exact hentry
      · rintro rfl
        rw [hnone] at hentry
        cases hentry
  | replaced found next hguard hold hsame h =>
      by_cases hother : spanId = found.spanId
      · subst hother
        rw [hold, Option.some.injEq] at hentry
        subst hentry
        exact ⟨next.entry, by rw [h, Function.update_self], hsame⟩
      · exact ⟨entry, by rw [h, Function.update_of_ne hother, hentry], rfl, rfl, rfl, rfl⟩
  | taken other hcall hfinished htook h =>
      refine ⟨entry, ?_, rfl, rfl, rfl, rfl⟩
      rw [h, Function.update_of_ne]
      · exact hentry
      · rintro rfl
        rcases hclose hcall with hdone | hnot
        · rw [hdone] at hfinished
          cases hfinished
        · rw [htook] at hnot
          cases hnot

/-- The spans that cannot be closed by others while a callback is in progress. -/
def Call.keeps (call : Call) (spanId : SpanId) : Prop :=
  call.handle = some spanId ∨ call = .close spanId ∨
    ∃ child metadata, call = .newSpan child metadata (some spanId)

theorem Call.keeps.not_closed (hledger : Ledger state frames) (hfamily : Family state frames)
    {other : ThreadId} {value : Frame} {spanId : SpanId} (hframe : frame ∈ frames thread)
    (hvalue : value ∈ frames other) (hunfinished : value.finished = false)
    (hdistinct : frame.Distinct value) (hkeeps : value.call.keeps spanId)
    (hclose : frame.call = .close spanId) : frame.finished = true := by
  by_contra hfinished
  rw [Bool.not_eq_true] at hfinished
  obtain ⟨span, hspan, hclosing⟩ := (hledger.filed thread frame hframe hfinished).closes hclose
  rcases hkeeps with hhandle | hclose' | ⟨child, metadata, hnew⟩
  · have hhandles : value.handles spanId = true := by
      simp [Frame.handles, hunfinished, hhandle]
    rw [hledger.not_closing hvalue hhandles hspan] at hclosing
    cases hclosing
  · apply hdistinct (spanId, true)
    · simp [Frame.solo, hfinished, hclose]
    · simp [Frame.solo, hunfinished, hclose']
  · obtain ⟨found, hfound, hparent⟩ :=
      hfamily.filed other value hvalue hunfinished child metadata _ hnew
    rw [hfamily.parent_open hfound hparent hspan] at hclosing
    cases hclosing

end Entries

/-! ## Everything together -/

/-- What is known of the registry, the contexts and the guards. -/
structure Known (env : Env) (state : State) (frames : Frames) : Prop where
  ledger : Ledger state frames
  family : Family state frames
  borrowed : Borrowed state frames
  guards : Guards env state frames

theorem known_kept (env : Env) : KeepsInv env AnyCall Always (Known env) where
  act := by
    intro _ _ _ _ _ _ _ _ _ _ h hthread hpre hperform _
    have hledger := (ledger_kept env).act trivial h.ledger hthread hpre hperform trivial
    exact ⟨hledger, (family_kept env).act h.ledger h.family hthread hpre hperform hledger,
      (borrowed_kept env).act h.ledger h.borrowed hthread hpre hperform hledger,
      (guards_kept env).act h.ledger h.guards hthread hpre hperform hledger⟩
  ret := by
    intro _ _ _ _ _ _ h hthread hfinal _
    have hledger := (ledger_kept env).ret trivial h.ledger hthread hfinal trivial
    exact ⟨hledger, (family_kept env).ret h.ledger h.family hthread hfinal hledger,
      (borrowed_kept env).ret h.ledger h.borrowed hthread hfinal hledger,
      (guards_kept env).ret h.ledger h.guards hthread hfinal hledger⟩
  call := by
    intro _ _ _ _ _ _ _ h hready _ hcall _
    have hledger := (ledger_kept env).call trivial h.ledger hready trivial hcall trivial
    exact ⟨hledger, (family_kept env).call h.ledger h.family hready trivial hcall hledger,
      (borrowed_kept env).call h.ledger h.borrowed hready trivial hcall hledger,
      (guards_kept env).call h.ledger h.guards hready trivial hcall hledger⟩

theorem known_new (env : Env) (nextSequenceId : Nat) :
    Known env (State.new nextSequenceId) fun _ => [] :=
  ⟨ledger_new nextSequenceId, family_new nextSequenceId, borrowed_new nextSequenceId,
    guards_new nextSequenceId⟩

theorem known_run {env : Env} {allowed : ThreadId → Call → State → Prop}
    {inv : State → Frames → Prop} (hkept : KeepsInv env allowed (Known env) inv)
    {nextSequenceId : Nat} (hstart : inv (State.new nextSequenceId) fun _ => [])
    {labels : List (system env).Label} {config : (system env).Config}
    (hobeys : System.Obeys allowed labels (System.idle (State.new nextSequenceId)))
    (hrun : System.run labels (System.idle (State.new nextSequenceId)) = some config) :
    ∃ frames, (Known env config.state frames ∧ inv config.state frames) ∧
      System.Tracks (protocol env) Final config frames := by
  have hboth := (known_kept env).when.and hkept
  refine (hboth.rule ?_).run ⟨known_new env nextSequenceId, hstart⟩
    (System.tracks_idle (State.new nextSequenceId)) hobeys hrun
  intro thread call state prog state' hcall
  simp only [system, Layer.call, Option.bind_eq_bind, Option.bind_eq_some_iff, Option.some.injEq,
    Prod.mk.injEq] at hcall
  obtain ⟨_, -, rfl, -⟩ := hcall
  exact keeps_call call

end TracingPerfetto.Layer
