import TracingPerfetto.Completion
import TracingPerfetto.Pacing
import TracingPerfetto.Reentrancy

/-!
Callbacks come to an end. Only a search of the store ever waits, for a lock that another
callback has; and as long as formatters that run with a lock look up no other span, that
callback waits for nothing itself.
-/

namespace TracingPerfetto.Layer

open TracingPerfetto.Runtime TracingPerfetto.Sequence TracingPerfetto.TrackEvents
open TracingPerfetto.Counters TracingPerfetto.Threads
open TracingPerfetto.SequenceRuns
open TracingPerfetto.SpanStore (SpanId activeShard)

/-! ## The timestamps of the writers -/

def Act.opens : Act → Bool
  | .sequence .newWriter | .context (.insert _ _ _) => true
  | _ => false

/-- A callback that has its timestamp has the context, and the timestamp is there. -/
def Stamped (state : State) (thread : ThreadId) (ghost : Frame × Bool) : Prop :=
  ghost.2 = true → ghost.1.context = true ∧ ∀ context,
    state.contexts.live thread = some context → context.writer.timestampNs.isSome = true

section Stamped

variable {env : Env} {state state' : State} {frames : Frames} {thread other : ThreadId}
  {frame : Frame} {rest : List Frame} {action : Act} {choice : Choice} {reply : action.Reply}

theorem timestamp_kept {context' : ThreadCtx}
    (hperform : perform env thread action choice state = some (reply, state'))
    (hlive : state'.contexts.live other = some context')
    (hbefore : ∀ context, state.contexts.live other = some context →
      context.writer.timestampNs.isSome = true)
    (hopens : other = thread → action.opens = false) :
    context'.writer.timestampNs.isSome = true := by
  cases context_after hperform hlive with
  | kept context hcontext hwriter hopened htrack =>
      rw [hwriter]
      exact hbefore context hcontext
  | inserted sequenceId uuid anchor hother haction heq =>
      rw [haction] at hopens
      cases hopens hother
  | opened context hcontext hother haction heq =>
      rw [haction] at hopens
      cases hopens hother
  | marked context hcontext hother haction heq =>
      rw [heq]
      exact hbefore context hcontext
  | cached context hcontext hother name uuid haction heq =>
      rw [heq]
      exact hbefore context hcontext
  | stamped context hcontext hother haction heq =>
      have hsome := hbefore context hcontext
      obtain ⟨raw, hraw⟩ := Option.isSome_iff_exists.1 hsome
      rw [heq, ThreadCtx.timestamp, hraw]
      exact hsome
  | wrote context hcontext hother span calledAt content haction timestamp htimestamp writer written
      hfinishes heq htrace =>
      rw [heq]
      exact Option.isSome_iff_exists.2 ⟨timestamp, hfinishes.timestampNs timestamp htimestamp⟩

theorem timestamp_taken {context' : ThreadCtx} {reply : Unit}
    (hperform : perform env thread (.sequence .timestamp) choice state = some (reply, state'))
    (hlive : state'.contexts.live thread = some context') :
    context'.writer.timestampNs.isSome = true := by
  simp only [perform, SequenceAct.perform, Option.bind_eq_bind, Option.bind_eq_some_iff,
    Option.some.injEq, Prod.mk.injEq] at hperform
  obtain ⟨_, ⟨context, -, -, rfl, -⟩, -, rfl⟩ := hperform
  rcases live_set hlive with ⟨-, heq⟩ | ⟨hother, -⟩
  · cases heq
    rw [ThreadCtx.timestamp]
    split
    · rename_i hraw
      rw [hraw]
      rfl
    · rfl
  · exact absurd rfl hother

theorem context_kept (h : frame.context = true) (hdrop : action ≠ .context .dropGuard) :
    (next frame action reply).context = true := by
  by_cases hcontext : ∃ act, action = .context act
  · obtain ⟨act, rfl⟩ := hcontext
    cases act with
    | lookup | cachedTrack | evict | releaseLocal => cases reply <;> first | exact h | rfl
    | dropGuard => exact absurd rfl hdrop
    | insert => rfl
    | _ => exact h
  · rw [(next_same_context action reply fun act heq => hcontext ⟨act, heq⟩).context]
    exact h

theorem pacing_opens {stamped : Bool} (h : pacing.next stamped action reply = true) :
    action = .sequence .timestamp ∨
      stamped = true ∧ action.opens = false ∧ action ≠ .context .dropGuard := by
  cases action with
  | sequence act =>
      cases act with
      | timestamp => exact .inl rfl
      | newWriter => cases h
      | _ => exact .inr ⟨h, rfl, by simp⟩
  | context act =>
      cases act with
      | insert | dropGuard => cases h
      | _ => exact .inr ⟨h, rfl, by simp⟩
  | _ => exact .inr ⟨h, rfl, by simp⟩

theorem opens_context (hpre : pre env frame action) (hopens : action.opens = true) :
    frame.context = true ∨ frame.vacant = true := by
  cases action with
  | sequence act =>
      cases act with
      | newWriter => exact .inl hpre.1
      | _ => cases hopens
  | context act =>
      cases act with
      | insert => exact .inr hpre.1
      | _ => cases hopens
  | _ => cases hopens

end Stamped

theorem stamped_kept (env : Env) {allowed : ThreadId → Call → State → Prop} :
    KeepsBoth env pacing (fun _ => false) allowed
      (fun state ghosts => Known env state (firsts ghosts)) fun state =>
        Every (Stamped state) where
  act := by
    rintro state ghosts thread ⟨frame, stamped⟩ rest action choice reply state' hknown h hthread
      ⟨hpre, -⟩ hperform -
    change perform env thread action choice state = some (reply, state') at hperform
    change pre env frame action at hpre
    have htop := firsts_cons hthread
    have hstamped := h thread (frame, stamped) (by rw [hthread]; exact List.mem_cons_self)
    apply every_update
    · intro value hvalue
      rcases List.mem_cons.1 hvalue with rfl | hbelow
      · intro hafter
        rcases pacing_opens hafter with rfl | ⟨hbefore, hopens, hdrop⟩
        · exact ⟨hpre.1, fun context' hlive => timestamp_taken hperform hlive⟩
        · obtain ⟨hcontext, htimestamp⟩ := hstamped hbefore
          exact ⟨context_kept hcontext hdrop, fun context' hlive =>
            timestamp_kept hperform hlive htimestamp fun _ => hopens⟩
      · intro hvalueStamped
        obtain ⟨hcontext, htimestamp⟩ := h thread value
          (by rw [hthread]; exact List.mem_cons_of_mem _ hbelow) hvalueStamped
        refine ⟨hcontext, fun context' hlive =>
          timestamp_kept hperform hlive htimestamp fun _ => ?_⟩
        obtain ⟨hother, hvacant⟩ :=
          hknown.borrowed.above htop (List.mem_map_of_mem hbelow) hcontext
        by_contra hopens
        rw [Bool.not_eq_false] at hopens
        rcases opens_context hpre hopens with hheld | hheld
        · exact absurd (hheld.symm.trans hother) (by simp)
        · exact absurd (hheld.symm.trans hvacant) (by simp)
    · intro other hother value hvalue hvalueStamped
      obtain ⟨hcontext, htimestamp⟩ := h other value hvalue hvalueStamped
      exact ⟨hcontext, fun context' hlive =>
        timestamp_kept hperform hlive htimestamp fun heq => absurd heq hother⟩
  ret := fun _ h hthread _ _ => h.pop hthread
  call := by
    intro state ghosts thread call prog state' _ h _ _ hcall _
    change Layer.call env thread call state = some (prog, state') at hcall
    simp only [Layer.call, Option.bind_eq_bind, Option.bind_eq_some_iff, Option.some.injEq,
      Prod.mk.injEq] at hcall
    obtain ⟨_, -, -, rfl⟩ := hcall
    exact h.push (fun hstamped => by cases hstamped) fun _ _ hvalue => hvalue

/-! ## What can be performed -/

section Performs

variable {env : Env} {state : State} {frames : Frames} {thread : ThreadId} {frame : Frame}
  {spans : Spans} {time : Nat} {fresh : Bool}

theorem Borrowed.live (h : Borrowed state frames) (hmem : frame ∈ frames thread)
    (hcontext : frame.context = true) :
    ∃ context, state.contexts.live thread = some context := by
  have hstatus := h.held thread frame hmem hcontext
  rw [State.status] at hstatus
  cases htls : state.contexts.tls thread with
  | live context => exact ⟨context, live_tls.2 htls⟩
  | unset | destroyed =>
      rw [htls] at hstatus
      cases hstatus

theorem context_performs {action : ContextAct} (h : Borrowed state frames)
    (hmem : frame ∈ frames thread) (hpre : pre env frame (.context action)) :
    (action.perform env.bases thread state.contexts).isSome = true := by
  cases action with
  | lookup | insert | destroy => rfl
  | dropGuard | cachePool | releaseLocal =>
      obtain ⟨context, hlive⟩ := h.live hmem hpre.1
      simp [ContextAct.perform, Contexts.onLive, hlive]
  | takeRetained | returnRetained | cachedTrack | evict =>
      obtain ⟨context, hlive⟩ := h.live hmem hpre
      simp [ContextAct.perform, Contexts.onLive, hlive]

/-- A packet that is too long for its length, or has an argument that is no text. -/
def Act.panics (env : Env) (state : State) (thread : ThreadId) (answers : Answers) :
    Act → Prop
  | .sequence (.write _ _ content) => ∀ context, state.contexts.live thread = some context →
      writeContent env answers content context.writer = none
  | _ => False

theorem sequence_performs {action : SequenceAct} {answers : Answers} (h : Borrowed state frames)
    (hmem : frame ∈ frames thread) (hpre : pre env frame (.sequence action)) {stamped : Bool}
    (hstamped : Stamped state thread (frame, stamped))
    (hpaced : (Act.sequence action).writes = true → stamped = true)
    (hpanics : ¬ (Act.sequence action).panics env state thread answers) :
    (action.perform env thread time answers (state.contexts, state.trace)).isSome = true := by
  cases action with
  | readClock => rfl
  | newWriter | initialized | markInitialized | cacheCounterTrack | timestamp =>
      obtain ⟨context, hlive⟩ := h.live hmem hpre.1
      simp [SequenceAct.perform, hlive]
  | threadTrackUuid | counterTrackUuid =>
      obtain ⟨context, hlive⟩ := h.live hmem hpre
      simp [SequenceAct.perform, hlive]
  | write span calledAt content =>
      obtain ⟨hcontext, htimestamp⟩ := hstamped (hpaced rfl)
      obtain ⟨context, hlive⟩ := h.live hmem hcontext
      obtain ⟨raw, hraw⟩ := Option.isSome_iff_exists.1 (htimestamp context hlive)
      have hwrites : writeContent env answers content context.writer ≠ none := by
        intro hnone
        refine hpanics fun other hother => ?_
        rw [hlive, Option.some.injEq] at hother
        rw [← hother]
        exact hnone
      obtain ⟨writer, hwriter⟩ := Option.ne_none_iff_exists'.1 hwrites
      obtain ⟨packet, hwrote⟩ := writeContent_wrote hwriter
      simp [SequenceAct.perform, hlive, hraw, hwriter, hwrote.written]

theorem performs {action : Act} {choice : Choice} (h : Borrowed state frames)
    (hmem : frame ∈ frames thread) (hpre : pre env frame action) {stamped : Bool}
    (hstamped : Stamped state thread (frame, stamped))
    (hpaced : action.writes = true → stamped = true)
    (hpanics : ¬ action.panics env state thread choice.answers)
    (hwaits : ∀ act, action = .spans act →
      act.perform env.mapShard thread state.time choice.fresh state.spans ≠ none) :
    ∃ reply state', perform env thread action choice state = some (reply, state') := by
  cases action with
  | shared | pools | registry | format => exact ⟨_, _, rfl⟩
  | spans act =>
      obtain ⟨⟨reply, spans⟩, hspans⟩ := Option.ne_none_iff_exists'.1 (hwaits act rfl)
      exact ⟨reply, _, by simp [perform, hspans]; rfl⟩
  | context act =>
      obtain ⟨⟨reply, contexts⟩, hcontexts⟩ :=
        Option.isSome_iff_exists.1 (context_performs h hmem hpre)
      exact ⟨reply, _, by simp [perform, hcontexts]; rfl⟩
  | sequence act =>
      have hsome : (act.perform env thread state.time choice.answers
          (state.contexts, state.trace)).isSome = true :=
        sequence_performs h hmem hpre hstamped hpaced hpanics
      obtain ⟨⟨reply, contexts, trace⟩, hsequence⟩ := Option.isSome_iff_exists.1 hsome
      exact ⟨reply, _, by simp [perform, hsequence]; rfl⟩

theorem holder_of_not_free {lock : Lock} (h : spans.free lock = false) :
    ∃ other, spans.holds other lock = true := by
  cases lock with
  | fast shard =>
      simp only [Spans.free, Option.isNone_eq_false_iff, Option.isSome_iff_exists] at h
      obtain ⟨other, howner⟩ := h
      exact ⟨other, by simp [Spans.holds, howner]⟩
  | map shard =>
      simp only [Spans.free, Bool.and_eq_false_iff, Option.isNone_eq_false_iff,
        Option.isSome_iff_exists, List.isEmpty_eq_false_iff] at h
      rcases h with ⟨other, howner⟩ | hreaders
      · exact ⟨other, by simp [Spans.holds, howner]⟩
      · obtain ⟨other, hother⟩ := List.exists_mem_of_ne_nil _ hreaders
        exact ⟨other, by simp [Spans.holds, hother]⟩

theorem owner_of_not_none {lock : Lock} (h : ¬ (spans.owner lock).isNone = true) :
    ∃ other, spans.holds other lock = true := by
  rw [Bool.not_eq_true, Option.isNone_eq_false_iff, Option.isSome_iff_exists] at h
  obtain ⟨other, howner⟩ := h
  cases lock <;> exact ⟨other, by simp [Spans.holds, howner]⟩

/-- An action that waits looks up a span, and waits for a thread that holds a lock. -/
theorem waits_for {action : SpanAct} (hpre : pre env frame (.spans action))
    (hnone : action.perform env.mapShard thread time fresh spans = none) :
    (∃ spanId, frame.MayLookUp env spanId) ∧ ∃ other lock, spans.holds other lock = true := by
  have hfree : ∀ lock, ¬ spans.free lock = true → ∃ other lock, spans.holds other lock = true := by
    intro lock hlock
    rw [Bool.not_eq_true] at hlock
    obtain ⟨other, hother⟩ := holder_of_not_free hlock
    exact ⟨other, lock, hother⟩
  cases action with
  | insert spanId instance_ data =>
      refine ⟨⟨spanId, hpre.1⟩, ?_⟩
      simp only [SpanAct.perform, Option.map_eq_none_iff, insertSpan] at hnone
      split at hnone
      · cases hnone
      · rename_i hlocks
        rw [Bool.and_eq_true, not_and_or] at hlocks
        exact hlocks.elim (hfree _) (hfree _)
  | get spanId =>
      refine ⟨⟨spanId, hpre.1⟩, ?_⟩
      have howner : ∀ lock, ¬ (spans.owner lock).isNone = true →
          ∃ other lock, spans.holds other lock = true := fun lock hlock =>
        (owner_of_not_none hlock).imp fun other hother => ⟨lock, hother⟩
      simp only [SpanAct.perform, getSpan] at hnone
      split at hnone
      · split at hnone
        · split at hnone
          · cases hnone
          · split at hnone
            · cases hnone
            · exact howner _ ‹_›
        · split at hnone
          · cases hnone
          · exact howner _ ‹_›
      · exact hfree _ ‹_›
  | getMut spanId =>
      refine ⟨⟨spanId, hpre.1⟩, ?_⟩
      simp only [SpanAct.perform, getMutSpan] at hnone
      split at hnone
      · split at hnone
        · split at hnone
          · cases hnone
          · exact hfree _ ‹_›
        · split at hnone
          · cases hnone
          · exact hfree _ ‹_›
      · exact hfree _ ‹_›
  | take spanId =>
      refine ⟨⟨spanId, hpre.1⟩, ?_⟩
      simp only [SpanAct.perform, takeSpan] at hnone
      split at hnone
      · split at hnone
        · split at hnone
          · cases hnone
          · exact hfree _ ‹_›
        · split at hnone
          · cases hnone
          · exact hfree _ ‹_›
      · exact hfree _ ‹_›
  | _ => cases hnone

end Performs

/-! ## Locks across formatters -/

/-- A formatter that runs while its thread holds a lock of the store makes no call that
looks up a span. -/
def Aloof (env : Env) (thread : ThreadId) (call : Call) (state : State) : Prop :=
  state.registry.depth thread = 0 ∨ (∀ lock, state.spans.holds thread lock = false) ∨
    (call.LooksUp state thread → call.lookups env = [])

def Stopped (state : State) (thread : ThreadId) (frame : Frame) (below : List Frame) : Prop :=
  (frame.call.needsContext = true ∧
      (state.status thread = some none ∨ ∃ value ∈ below, value.context = true)) ∨
    state.shared.hasError = true ∧ frame.checked = false ∧ ∀ spanId, frame.call ≠ .close spanId

/-- A callback that looks nothing up while a callback below it has a guard. -/
def Aside (env : Env) (state : State) (thread : ThreadId) (frame : Frame)
    (below : List Frame) : Prop :=
  frame.finished = false → Stopped state thread frame below ∨ frame.call.lookups env = [] ∨
    ∀ value ∈ below, value.guard = none

theorem Stopped.mono {state state' : State} {thread : ThreadId} {frame frame' : Frame}
    {below : List Frame} (h : Stopped state thread frame below) (hcall : frame'.call = frame.call)
    (hstatus : state.status thread = some none → state'.status thread = some none)
    (herror : state.shared.hasError = true → frame.checked = false →
      state'.shared.hasError = true ∧ frame'.checked = false) :
    Stopped state' thread frame' below := by
  rw [Stopped, hcall]
  rcases h with ⟨hcontext, hgone | hbelow⟩ | ⟨hfailed, hchecked, hopen⟩
  · exact .inl ⟨hcontext, .inl (hstatus hgone)⟩
  · exact .inl ⟨hcontext, .inr hbelow⟩
  · obtain ⟨hfailed', hchecked'⟩ := herror hfailed hchecked
    exact .inr ⟨hfailed', hchecked', hopen⟩

theorem Known.not_stopped {env : Env} {state : State} {frames : Frames} {thread : ThreadId}
    {frame : Frame} {rest : List Frame} {spanId : SpanId} (h : Known env state frames)
    (hthread : frames thread = frame :: rest) (hlooks : frame.MayLookUp env spanId) :
    ¬ Stopped state thread frame rest := by
  obtain ⟨-, -, hcontext, -, -, hchecked⟩ := hlooks
  have hmem := Guards.top_mem hthread
  rintro (⟨hneeds, hrefused⟩ | ⟨-, hunchecked, hopen⟩)
  · have hheld : frame.context = true := by
      rcases hcontext with hfree | hheld
      · rw [hneeds] at hfree
        cases hfree
      · exact hheld
    rcases hrefused with hgone | ⟨other, hother, hborrowed⟩
    · rw [h.borrowed.held thread frame hmem hheld] at hgone
      cases hgone
    · have halone := h.borrowed.alone thread
      rw [hthread, List.pairwise_cons] at halone
      rw [halone.1 other hother hheld] at hborrowed
      cases hborrowed
  · rcases hchecked with hchecked | hclose
    · rw [hunchecked] at hchecked
      cases hchecked
    · exact hopen spanId hclose

theorem Known.stopped_call {env : Env} {state : State} {frames : Frames} {thread : ThreadId}
    {call : Call} (h : Known env state frames) (hlooks : ¬ call.LooksUp state thread) :
    Stopped state thread (enter thread call state) (frames thread) := by
  rw [Call.LooksUp, not_and_or] at hlooks
  rcases hlooks with hfailed | hrefused
  · simp only [not_forall, exists_prop, not_exists] at hfailed
    exact .inr ⟨hfailed.1, rfl, hfailed.2⟩
  · simp only [not_forall, exists_prop, not_and_or, ne_eq, not_not] at hrefused
    obtain ⟨hcontext, hgone | hborrowed⟩ := hrefused
    · exact .inl ⟨hcontext, .inl hgone⟩
    · exact .inl ⟨hcontext, .inr (h.borrowed.holder thread hborrowed)⟩

theorem Known.idle_of_depth {env : Env} {state : State} {frames : Frames} {thread : ThreadId}
    (h : Known env state frames)
    (hready : System.Ready (system env) (protocol env) (frames thread))
    (hdepth : state.registry.depth thread = 0) : frames thread = [] := by
  rcases Ledger.ready_waiting hready with hnil | ⟨frame, rest, hthread, hframe⟩
  · exact hnil
  · rw [h.ledger.depth, hthread, List.countP_cons, hframe.finished] at hdepth
    simp at hdepth

theorem aside_kept (env : Env) :
    KeepsInv env (Aloof env) (Known env) fun state => Stacked (Aside env state) where
  act := by
    intro state frames thread frame rest action choice reply state' hknown h hthread hpre hperform
      _
    change perform env thread action choice state = some (reply, state') at hperform
    have hmem : frame ∈ frames thread := Guards.top_mem hthread
    have hcall : ((protocol env).next frame action reply).call = frame.call :=
      (next_call action reply).call
    have hstatus : ∀ other, state.status other = some none → state'.status other = some none :=
      fun other => destroyed_kept hknown.borrowed hmem hpre hperform
    refine h.step hthread ?_ ?_
    · intro hfinished
      rw [hcall]
      rcases h thread frame rest (by rw [hthread]) (unfinished_before action reply hfinished) with
        hstopped | hlookups | hbelow
      · exact .inl (hstopped.mono hcall (hstatus thread) fun herror hchecked =>
          ⟨error_kept hperform herror, unchecked_kept hperform herror hchecked⟩)
      · exact .inr (.inl hlookups)
      · exact .inr (.inr hbelow)
    · intro other value below _ _ hvalue hfinished
      rcases hvalue hfinished with hstopped | hrest
      · exact .inl (hstopped.mono rfl (hstatus other) fun herror hchecked =>
          ⟨error_kept hperform herror, hchecked⟩)
      · exact .inr hrest
  ret := fun _ h hthread _ _ => h.pop hthread
  call := by
    intro state frames thread call prog state' hknown h hready haloof hcall _
    obtain ⟨registry, -, -, rfl, -⟩ := hknown.ledger.call_admits hcall
    refine h.push ?_ ?_
    · intro _
      rcases haloof with hdepth | hfree | hlooks
      · rw [hknown.idle_of_depth hready hdepth]
        exact .inr (.inr fun value hvalue => by cases hvalue)
      · refine .inr (.inr fun value hvalue => Option.eq_none_iff_forall_ne_some.2 ?_)
        intro found hfound
        have hholds := hknown.holds hvalue hfound (hknown.waiting hready value hvalue)
        rw [hfree] at hholds
        cases hholds
      · by_cases hstops : call.LooksUp state thread
        · exact .inr (.inl (hlooks hstops))
        · exact .inl ((hknown.stopped_call hstops).mono rfl id fun herror hchecked =>
            ⟨herror, hchecked⟩)
    · intro other value below _ hvalue hfinished
      exact (hvalue hfinished).imp_left fun hstopped => hstopped.mono rfl id
        fun herror hchecked => ⟨herror, hchecked⟩

theorem Known.looks_free {env : Env} {state : State} {frames : Frames} {thread : ThreadId}
    {frame : Frame} {rest : List Frame} {spanId : SpanId} (h : Known env state frames)
    (hthread : frames thread = frame :: rest) (haside : Aside env state thread frame rest)
    (hlooks : frame.MayLookUp env spanId) (lock : Lock) :
    state.spans.holds thread lock = false := by
  rw [Bool.eq_false_iff]
  intro hholds
  obtain ⟨value, hvalue, found, hfound, -⟩ := h.holder hthread hlooks.1 hholds
  rcases haside hlooks.2.2.2.2.1 with hstopped | hlookups | hbelow
  · exact h.not_stopped hthread hlooks hstopped
  · have hspan := hlooks.2.1
    rw [hlookups] at hspan
    cases hspan
  · rw [hbelow value hvalue] at hfound
    cases hfound

/-! ## The spans that are being closed -/

/-- Somebody is about to close each span that the registry has given up. -/
def Closers (state : State) (frames : Frames) : Prop :=
  ∀ spanId span, state.registry.spans spanId = some span → span.closing = true →
    ∃ thread, ∃ frame ∈ frames thread, frame.finished = false ∧ frame.call = .close spanId

theorem modify_closing {registry : Registry} {spanId other : SpanId}
    {change : Registered → Registered} {span' : Registered}
    (h : (registry.modify spanId change).spans other = some span')
    (hclosing : span'.closing = true) (hchange : ∀ span, (change span).closing = span.closing) :
    ∃ span, registry.spans other = some span ∧ span.closing = true := by
  rw [modify_spans] at h
  split at h
  · rename_i heq
    obtain ⟨span, hspan, rfl⟩ := Option.map_eq_some_iff.1 h
    rw [hchange] at hclosing
    exact ⟨span, heq ▸ hspan, hclosing⟩
  · exact ⟨span', h, hclosing⟩

theorem accept_closing {thread : ThreadId} {registry registry' : Registry} {call : Call}
    {spanId : SpanId} {span' : Registered} (h : registry.accept thread call = some registry')
    (hspan : registry'.spans spanId = some span') (hclosing : span'.closing = true) :
    call = .close spanId ∨ ∃ span, registry.spans spanId = some span ∧ span.closing = true := by
  cases call with
  | newSpan created metadata parent =>
      right
      have hadded : ∀ span, Function.update registry.spans created
          (some ⟨registry.nextInstance, metadata, parent, [], 0, [thread], false⟩) spanId =
            some span → span.closing = true → registry.spans spanId = some span := by
        intro span hadded hgone
        rw [Function.update_apply] at hadded
        split at hadded
        · cases hadded
          cases hgone
        · exact hadded
      simp only [Registry.accept] at h
      split at h
      · cases h
      · split at h
        · cases h
          exact ⟨span', hadded span' hspan hclosing, hclosing⟩
        · split at h
          · cases h
            obtain ⟨span, hfound, hgone⟩ := modify_closing hspan hclosing fun _ => rfl
            exact ⟨span, hadded span hfound hgone, hgone⟩
          · cases h
  | enter | record | followsFrom =>
      simp only [Registry.accept] at h
      split at h
      · cases h
        exact .inr (modify_closing hspan hclosing fun _ => rfl)
      · cases h
  | exit exited =>
      simp only [Registry.accept] at h
      split at h
      · split at h
        · cases h
          exact .inr (modify_closing hspan hclosing fun _ => rfl)
        · cases h
      · cases h
  | close closed =>
      by_cases hclosed : closed = spanId
      · exact .inl (congrArg _ hclosed)
      · obtain ⟨_, -, -, -, -, rfl⟩ := accept_close h
        rw [modify_spans, if_neg (Ne.symm hclosed)] at hspan
        exact .inr ⟨span', hspan, hclosing⟩
  | event =>
      cases h
      exact .inr ⟨span', hspan, hclosing⟩
  | exitThread =>
      simp only [Registry.accept] at h
      split at h
      · cases h
        exact .inr ⟨span', hspan, hclosing⟩
      · cases h

theorem closers_kept (env : Env) : KeepsInv env AnyCall (Known env) Closers where
  act := by
    intro state frames thread frame rest action choice reply state' _ h hthread hpre hperform _
    change perform env thread action choice state = some (reply, state') at hperform
    change pre env frame action at hpre
    have hcall : ((protocol env).next frame action reply).call = frame.call :=
      (next_call action reply).call
    by_cases hfinish : ∃ call, action = .registry (.finish call)
    · obtain ⟨call, rfl⟩ := hfinish
      obtain ⟨rfl, -⟩ := hpre
      simp only [perform, Option.some.injEq, Prod.mk.injEq] at hperform
      intro spanId span' hspan hclosing
      rw [← hperform.2] at hspan
      obtain ⟨children, hspans⟩ := finish_spans thread state.registry frame.call spanId
      rw [hspans] at hspan
      split at hspan
      · cases hspan
      · rename_i hopen
        obtain ⟨span, hfound, rfl⟩ := Option.map_eq_some_iff.1 hspan
        obtain ⟨other, hwitness⟩ := h spanId span hfound hclosing
        exact ⟨other, Guards.witness_step hthread (fun htop => absurd htop.2 hopen) hwitness⟩
    · have hother : ∀ call, action ≠ .registry (.finish call) :=
        fun call heq => hfinish ⟨call, heq⟩
      intro spanId span hspan hclosing
      rw [perform_registry hperform hother] at hspan
      obtain ⟨other, hwitness⟩ := h spanId span hspan hclosing
      refine ⟨other, Guards.witness_step hthread (fun htop => ⟨?_, ?_⟩) hwitness⟩
      · rw [show ((protocol env).next frame action reply).finished = frame.finished from
          next_finished action reply hother]
        exact htop.1
      · exact hcall.trans htop.2
  ret := by
    intro state frames thread frame rest _ h hthread hfinal _ spanId span hspan hclosing
    obtain ⟨other, value, hvalue, hfinished, hcall⟩ := h spanId span hspan hclosing
    refine ⟨other, value, ?_, hfinished, hcall⟩
    by_cases hother : other = thread
    · subst hother
      rw [hthread] at hvalue
      rw [Function.update_self]
      rcases List.mem_cons.1 hvalue with rfl | hrest
      · rw [hfinal.finished] at hfinished
        cases hfinished
      · exact hrest
    · rw [Function.update_of_ne hother]
      exact hvalue
  call := by
    intro state frames thread call prog state' hknown h _ _ hcall _
    obtain ⟨registry, haccept, -, rfl, -⟩ := hknown.ledger.call_admits hcall
    intro spanId span hspan hclosing
    rcases accept_closing haccept hspan hclosing with rfl | ⟨span, hfound, hgone⟩
    · exact ⟨thread, enter thread (.close spanId) state, by simp, rfl, rfl⟩
    · obtain ⟨other, value, hvalue, hwitness⟩ := h spanId span hfound hgone
      refine ⟨other, value, ?_, hwitness⟩
      by_cases hother : other = thread
      · subst hother
        rw [Function.update_self]
        exact List.mem_cons_of_mem _ hvalue
      · rw [Function.update_of_ne hother]
        exact hvalue

/-! ## The end of the callbacks -/

/-- What a thread is about to write cannot be encoded, with the answers that it gets. -/
def Panics (env : Env) (config : (system env).Config) (thread : ThreadId) (answers : Answers) :
    Prop :=
  ∃ action program programs, config.frames thread = .act action program :: programs ∧
    action.panics env config.state thread answers

/-- No lock is held, no context is borrowed, and the entries are those of open spans. -/
structure AtRest (state : State) : Prop where
  unlocked : ∀ lock, state.spans.free lock = true
  returned : ∀ thread, state.status thread ≠ some (some true)
  stored : ∀ spanId entry, state.spans.entries spanId = some entry → ∃ span,
    state.registry.spans spanId = some span ∧ span.instance_ = entry.instance_ ∧
      span.closing = false

/-- What is known of the callbacks in progress, and of their timestamps. -/
def Advancing (env : Env) (state : State) (ghosts : ThreadId → List (Frame × Bool)) : Prop :=
  Known env state (firsts ghosts) ∧
    (Stacked (Aside env state) (firsts ghosts) ∧ Closers state (firsts ghosts)) ∧
      Every (Stamped state) ghosts

theorem Known.atRest {env : Env} {state : State} (h : Known env state fun _ => [])
    (hclosers : Closers state fun _ => []) : AtRest state where
  unlocked := by
    intro lock
    by_contra hheld
    rw [Bool.not_eq_true] at hheld
    obtain ⟨other, hother⟩ := holder_of_not_free hheld
    obtain ⟨value, hvalue, -⟩ := h.guards_of_holds hother
    cases hvalue
  returned := by
    intro thread hborrowed
    obtain ⟨value, hvalue, -⟩ := h.borrowed.holder thread hborrowed
    cases hvalue
  stored := by
    intro spanId entry hentry
    obtain ⟨span, hspan, hinstance⟩ := h.guards.registered spanId entry hentry
    refine ⟨span, hspan, hinstance, ?_⟩
    by_contra hclosing
    rw [Bool.not_eq_false] at hclosing
    obtain ⟨thread, value, hvalue, -⟩ := hclosers spanId span hspan hclosing
    cases hvalue

theorem advancing_rule (env : Env) :
    System.RuleWhen (system env) ((protocol env).both pacing) (fun ghost => Final ghost.1)
      (Aloof env) (Advancing env) := by
  have hframes := (aside_kept env).join ((closers_kept env).when.over fun h => h.1)
  have hboth : KeepsBoth env pacing (fun _ => false) (Aloof env)
      (fun state ghosts => Known env state (firsts ghosts)) fun state ghosts =>
        (Stacked (Aside env state) (firsts ghosts) ∧ Closers state (firsts ghosts)) ∧
          Every (Stamped state) ghosts :=
    (hframes.firsts fun _ => false).join ((stamped_kept env).over fun h => h.1)
  exact hboth.rule paced_call

def Tracked (env : Env) (config : (system env).Config) : Prop :=
  ∃ ghosts, Advancing env config.state ghosts ∧
    System.Tracks ((protocol env).both pacing) (fun ghost => Final ghost.1) config ghosts

/-- A callback in progress goes on, panics, or waits on a thread without locks for a
thread that has one. -/
theorem Tracked.thread_goes {env : Env} {config : (system env).Config} {thread : ThreadId}
    (choices : ThreadId → (system env).Choice) {ghosts : ThreadId → List (Frame × Bool)}
    (hknown : Known env config.state (firsts ghosts))
    (hstamped : Every (Stamped config.state) ghosts)
    (htracks : System.Tracks ((protocol env).both pacing) (fun ghost => Final ghost.1) config
      ghosts) (hbusy : config.frames thread ≠ []) :
    (∃ next, System.GoesBy choices config next) ∨
      Panics env config thread (choices thread).answers ∨
      ∃ frame rest spanId, firsts ghosts thread = frame :: rest ∧ frame.MayLookUp env spanId ∧
        ∃ other lock, config.state.spans.holds other lock = true := by
  have hthread := htracks thread
  obtain ⟨prog, programs, hprograms⟩ := List.exists_cons_of_ne_nil hbusy
  rw [hprograms] at hthread
  obtain ⟨⟨frame, stamped⟩, rest, hkeeps, -, hghosts⟩ := List.forall₂_cons_left_iff.1 hthread
  have hfirsts := firsts_cons hghosts
  cases prog with
  | done value => exact .inl (System.goes_ret hprograms)
  | act action program =>
      obtain ⟨⟨hpre, hpaced⟩, -⟩ := hkeeps
      change pre env frame action at hpre
      by_cases hpanics : action.panics env config.state thread (choices thread).answers
      · exact .inr (.inl ⟨action, program, programs, hprograms, hpanics⟩)
      · by_cases hwaits : ∃ act, action = .spans act ∧
            act.perform env.mapShard thread config.state.time (choices thread).fresh
              config.state.spans = none
        · obtain ⟨act, rfl, hnone⟩ := hwaits
          obtain ⟨⟨spanId, hlooks⟩, hholder⟩ := waits_for hpre hnone
          exact .inr (.inr ⟨frame, _, spanId, hfirsts, hlooks, hholder⟩)
        · left
          have hmem : frame ∈ firsts ghosts thread := by
            rw [hfirsts]
            exact List.mem_cons_self
          have htop := hstamped thread (frame, stamped) (by rw [hghosts]; exact List.mem_cons_self)
          obtain ⟨reply, state', hperform⟩ : ∃ reply state',
              perform env thread action (choices thread) config.state = some (reply, state') :=
            performs hknown.borrowed hmem hpre htop hpaced hpanics
              fun act heq hnone => hwaits ⟨act, heq, hnone⟩
          exact System.goes_act hprograms hperform

theorem Tracked.goes {env : Env} {config : (system env).Config} (h : Tracked env config)
    (choices : ThreadId → (system env).Choice) :
    (∃ next, System.GoesBy choices config next) ∨
      ((∀ thread, config.frames thread = []) ∧ AtRest config.state ∨
        ∃ thread, Panics env config thread (choices thread).answers) := by
  obtain ⟨ghosts, ⟨hknown, ⟨haside, hclosers⟩, hstamped⟩, htracks⟩ := h
  by_cases hidle : ∀ thread, config.frames thread = []
  · have hghosts : firsts ghosts = fun _ => [] := by
      funext thread
      have hthread := htracks thread
      rw [hidle thread] at hthread
      rw [firsts, List.forall₂_nil_left_iff.1 hthread]
      rfl
    rw [hghosts] at hknown hclosers
    exact .inr (.inl ⟨hidle, hknown.atRest hclosers⟩)
  · obtain ⟨thread, hbusy⟩ := not_forall.1 hidle
    rcases Tracked.thread_goes choices hknown hstamped htracks hbusy with hgoes | hpanics |
      ⟨-, -, -, -, -, other, lock, hholds⟩
    · exact .inl hgoes
    · exact .inr (.inr ⟨thread, hpanics⟩)
    · -- the thread that has the lock does not wait itself
      have hother : config.frames other ≠ [] := by
        intro hnil
        have hghosts := htracks other
        rw [hnil] at hghosts
        have hfirsts : firsts ghosts other = [] := by
          rw [firsts, List.forall₂_nil_left_iff.1 hghosts, List.map_nil]
        have howns := hknown.guards_of_holds hholds
        obtain ⟨value, hvalue, -⟩ := howns
        rw [hfirsts] at hvalue
        cases hvalue
      rcases Tracked.thread_goes choices hknown hstamped htracks hother with hgoes | hpanics |
        ⟨frame, rest, spanId, hfirsts, hlooks, -⟩
      · exact .inl hgoes
      · exact .inr (.inr ⟨other, hpanics⟩)
      · have hfree := hknown.looks_free hfirsts (haside other frame rest (by rw [hfirsts])) hlooks
          lock
        rw [hholds] at hfree
        cases hfree

/-- As long as formatters that run with a lock look up no span, all callbacks come to an
end, in every order of their steps. Whatever the clocks and the formatters are about to answer
to each thread, where no callback goes on with its answers there is none, or one panics with
them. -/
theorem callbacks_end {env : Env} {nextSequenceId : Nat} {labels : List (system env).Label}
    {config : (system env).Config}
    (hobeys : System.Obeys (Aloof env) labels (System.idle (State.new nextSequenceId)))
    (hrun : System.run labels (System.idle (State.new nextSequenceId)) = some config) :
    System.Ends (fun (choices : ThreadId → Choice) (last : (system env).Config) =>
      (∀ thread, last.frames thread = []) ∧ AtRest last.state ∨
        ∃ thread, Panics env last thread (choices thread).answers) config := by
  have hstart : Advancing env (State.new nextSequenceId) fun _ => [] :=
    ⟨known_new env nextSequenceId, ⟨fun _ _ _ hsuffix => by simp [firsts] at hsuffix,
      fun _ _ hspan => by cases hspan⟩, fun _ _ hmem => by cases hmem⟩
  have htracked : Tracked env config :=
    (advancing_rule env).run hstart (System.tracks_idle (State.new nextSequenceId))
      hobeys hrun
  obtain ⟨threads, hthreads⟩ := System.run_threads ⟨∅, fun _ _ => rfl⟩ hrun
  exact System.ends (fun hconfig hgoes => (advancing_rule env).goes hconfig hgoes)
    (fun _ hconfig => Tracked.goes hconfig) htracked hthreads

/-! ## Formatters that call the layer -/

def keepsAloof (env : Env) (thread : ThreadId) (call : Call) (state : State) : Bool :=
  state.registry.depth thread == 0 || (call.lookups env).isEmpty

theorem aloof_of_keepsAloof {env : Env} {thread : ThreadId} {call : Call} {state : State}
    (h : keepsAloof env thread call state = true) : Aloof env thread call state := by
  rw [keepsAloof, Bool.or_eq_true, beq_iff_eq, List.isEmpty_iff] at h
  exact h.imp_right fun hlookups => .inr fun _ => hlookups

theorem nested_event_isSome : (nested (.event sampleMetadata none) 12).isSome = true := by
  decide +kernel

theorem callbacks_end_nested : ∃ config, nested (.event sampleMetadata none) 12 = some config ∧
    System.Ends (fun (choices : ThreadId → Choice) (last : (system sampleEnv).Config) =>
      (∀ thread, last.frames thread = []) ∧ AtRest last.state ∨
        ∃ thread, Panics sampleEnv last thread (choices thread).answers) config := by
  obtain ⟨config, hrun⟩ := Option.isSome_iff_exists.1 nested_event_isSome
  have hobeys : System.Obeys (Aloof sampleEnv)
      (formatting ++ .call 1 (.event sampleMetadata none) ::
        List.replicate 12 (.act 1 sampleChoice)) (System.idle (State.new 65536)) :=
    System.obeys_of_allPass (fun _ _ _ => aloof_of_keepsAloof) (by decide +kernel)
  exact ⟨config, hrun, callbacks_end hobeys hrun⟩

def waits (env : Env) (config : (system env).Config) (thread : ThreadId) : Bool :=
  match config.frames thread with
  | .act (.spans action) _ :: _ => !(config.state.spans.locks env.mapShard action).all
      config.state.spans.free
  | _ => false

/-- Two threads record on a span each, and each formatter on the span of the other. -/
def crossed : Option (system sampleEnv).Config :=
  System.run
    ([(1, Call.newSpan 1 sampleMetadata none), (2, .newSpan 2 sampleMetadata none)].flatMap
        (fun (thread, call) => .call thread call ::
          List.replicate 14 (.act thread sampleChoice) ++ [.ret thread]) ++
      [(1, Call.record 1, 2), (2, .record 2, 2), (1, .record 2, 1), (2, .record 1, 1)].flatMap
        fun (thread, call, steps) => .call thread call ::
          List.replicate steps (.act thread sampleChoice))
    (System.idle (State.new 65536))

/-- Without the condition threads wait for each other. -/
example : crossed.map (fun config => (waits sampleEnv config 1, waits sampleEnv config 2)) =
    some (true, true) := by decide +kernel

end TracingPerfetto.Layer
