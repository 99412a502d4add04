import TracingPerfetto.Pacing
import TracingPerfetto.SpanFields
import TracingPerfetto.TrackDescriptors

/-!
The store mirrors the registry of the spans. A callback that creates a span owes it an
entry, and is quit of that only by a write error, or by a formatter that panics or whose
text cannot be stored.
-/

namespace TracingPerfetto.Layer

open TracingPerfetto.Runtime TracingPerfetto.Sequence TracingPerfetto.TrackEvents
open TracingPerfetto.Counters TracingPerfetto.Threads
open TracingPerfetto.SpanStore (SpanId)

/-- The span that a callback creates. -/
def Call.creates : Call → Option SpanId
  | .newSpan spanId _ _ => some spanId
  | _ => none

/-- A callback need not insert any more. -/
def fulfils : (action : Act) → action.Reply → Bool
  | .shared .hasError, failed => failed
  | .registry (.span _), known => known.isNone
  | .format none, visits => visits.panic
  | .format (some _), visits => visits.any fun visit => visit.2.stored.isNone
  | .spans (.insert _ _ _), _ => true
  | _, _ => false

/-- The ghost value is the span whose entry is still to be inserted. -/
def owing : Protocol Act Act.Reply (Option SpanId) where
  pre owed
    | .registry (.finish _) => owed = none
    | .registry (.span spanId) => ∀ created, owed = some created → spanId = created
    | _ => True
  next owed action reply := if fulfils action reply then none else owed

/-! ## The programs of the callbacks -/

section Programs

variable {α β : Type} {spanId : SpanId}

theorem owes_nothing (program : Program α) :
    owing.Keeps (fun _ owed => owed = none) none program := by
  induction program with
  | done value => rfl
  | act action next ih =>
      refine ⟨?_, fun reply => ?_⟩
      · cases action with
        | registry act =>
            cases act with
            | span spanId =>
                intro created howed
                cases howed
            | finish call => rfl
        | _ => trivial
      · have hnext : owing.next none action reply = none := ite_self _
        rw [hnext]
        exact ih reply

/-- A part of a callback after which the entry of the span is not owed any more. -/
def Meets (spanId : SpanId) (program : Program α) : Prop :=
  owing.Keeps (fun _ owed => owed = none) (some spanId) program

theorem meets_then {action : Act} {rest : action.Reply → Program β}
    (hpre : owing.pre (some spanId) action)
    (hrest : ∀ reply, fulfils action reply = false → Meets spanId (rest reply)) :
    Meets spanId (act action >>= rest) := by
  refine ⟨hpre, fun reply => ?_⟩
  cases hfulfils : fulfils action reply with
  | true =>
      have hnext : owing.next (some spanId) action reply = none := if_pos hfulfils
      rw [hnext]
      exact owes_nothing _
  | false =>
      have hnext : owing.next (some spanId) action reply = some spanId :=
        if_neg (Bool.eq_false_iff.1 hfulfils)
      rw [hnext]
      exact hrest reply hfulfils

theorem meets_insert (instance_ : Nat) (data : SpanData) :
    Meets spanId (act (.spans (.insert spanId instance_ data))) :=
  ⟨trivial, fun _ => rfl⟩

/-- An action that is none of the registry's. -/
def Act.internal : Act → Bool
  | .registry _ => false
  | _ => true

theorem plain_private (action : Act) (h : action.plain = true) : action.internal = true := by
  cases action with
  | registry act => cases h
  | _ => rfl

theorem meets_after {program : Program α} {rest : α → Program β}
    (h : program.All fun action => action.internal = true)
    (hrest : ∀ value, Meets spanId (rest value)) : Meets spanId (program >>= rest) := by
  induction program with
  | done value => exact hrest value
  | act action next ih =>
      change Meets spanId (Layer.act action >>= fun reply => next reply >>= rest)
      refine meets_then ?_ fun reply _ => ih reply (h.2 reply)
      cases action with
      | registry act => cases h.1
      | _ => trivial

theorem storable_of_record (memory : StaticMemory) {visits : Visits}
    (hvisits : (visits.any fun visit => visit.2.stored.isNone) = false)
    (fields : List (StaticStr × FieldValue)) :
    (StoreVisitor.record memory fields visits).2 = false := by
  induction visits generalizing fields with
  | nil => rfl
  | cons first visits ih =>
      rcases first with ⟨name, visit⟩
      rw [List.any_cons, Bool.or_eq_false_iff] at hvisits
      obtain ⟨value, hvalue⟩ := Option.isSome_iff_exists.1 (Option.isNone_eq_false_iff.1 hvisits.1)
      simp only [StoreVisitor.record, hvalue]
      exact ih hvisits.2 _

theorem meets_newRetained {env : Env} {instance_ : Nat}
    {rest : Option (Option RetainedSpanData) → Program β}
    (hrest : ∀ retained, Meets spanId (rest (some retained))) :
    Meets spanId (newRetained env instance_ >>= rest) := by
  rw [newRetained]
  split
  · rw [Prog.bind_bind]
    refine meets_after (all_takeRetainedSpan plain_private) fun retained => ?_
    have hstored : ∀ (stored : RetainedSpanData) (panicked : Bool), panicked = false →
        Meets spanId ((if panicked = true then pure none
          else if env.config.spanMode.emitThreadSlices = true then do
            let flow ← act (.shared .allocFlowId)
            pure (some (some { stored with pollFlowId := some flow }))
          else pure (some (some stored))) >>= rest) := by
      intro stored panicked hpanicked
      rw [if_neg (Bool.eq_false_iff.1 hpanicked)]
      split
      · exact meets_then trivial fun flow _ => hrest _
      · exact hrest _
    cases env.config.debugAnnotations && env.config.spanMode == .threadTracks with
    | true =>
        exact meets_then trivial fun visits hvisits =>
          hstored _ _ (storable_of_record env.memory hvisits retained.fields)
    | false => exact hstored retained false rfl
  · exact hrest none

theorem meets_beginLifetime {env : Env} {calledAt instance_ : Nat} {metadata : Metadata}
    {key : TrackKey} {data : SpanData} :
    Meets spanId (beginLifetime env calledAt spanId instance_ metadata key data) := by
  have hwrite : ∀ span calledAt content, content.slices = false →
      Act.internal (.sequence (.write span calledAt content)) = true := fun _ _ _ _ => rfl
  have hend : ∀ data : SpanData, Meets spanId (do
      act (.spans (.insert spanId instance_ data))
      dropGuard) :=
    fun data => ⟨trivial, fun _ => owes_nothing _⟩
  refine meets_after (all_claimTrack plain_private key) fun claim => ?_
  have hbegin : ∀ uuid, Meets spanId (do
      ensureInitialized calledAt
      act (.sequence .timestamp)
      let visits ← visitAttributes env
      write (some instance_) calledAt (.body (.lifetimeBegin uuid metadata visits))
      if visits.panic then dropGuard
      else do
        act (.spans (.insert spanId instance_
          { data with trackPool := claim.map fun claim => claim.1.val, trackUuid := some uuid }))
        dropGuard) := by
    intro uuid
    refine meets_after (all_ensureInitialized plain_private hwrite calledAt) fun _ =>
      meets_then trivial fun _ _ => ?_
    rw [visitAttributes]
    split
    · refine meets_then trivial fun visits hvisits => meets_then trivial fun _ _ => ?_
      have hcalm : visits.panic = false := hvisits
      rw [if_neg (Bool.eq_false_iff.1 hcalm)]
      exact hend _
    · exact meets_then trivial fun _ _ => hend _
  refine meets_then trivial fun _ _ => ?_
  cases claim.bind Prod.snd with
  | some uuid => exact hbegin uuid
  | none => exact meets_after (all_createSpanTrack plain_private hwrite calledAt key) hbegin

theorem meets_onNewSpan (env : Env) (calledAt instance_ : Nat) (parent : Option SpanId) :
    Meets spanId (onNewSpan env calledAt spanId instance_ parent) := by
  refine meets_then trivial fun failed hfailed => ?_
  cases failed with
  | true => cases hfailed
  | false =>
      refine meets_then (fun created howed => Option.some.inj howed) fun known hknown => ?_
      cases known with
      | none => cases hknown
      | some metadata =>
          refine meets_newRetained fun retained => ?_
          have hrest : ∀ parentUuid, Meets spanId (do
              let acquired ← acquire
              if acquired then
                beginLifetime env calledAt spanId instance_ metadata
                  ⟨metadata.name, parentUuid⟩ (SpanData.new retained)
              else act (.spans (.insert spanId instance_ (SpanData.new retained)))) := by
            intro parentUuid
            refine meets_after (all_acquire plain_private) fun acquired => ?_
            cases acquired with
            | true => exact meets_beginLifetime
            | false => exact meets_insert _ _
          change Meets spanId (if !env.config.spanMode.emitSpanSlices then _ else _)
          split
          · exact meets_insert _ _
          · refine meets_after (all_enclosingTrack plain_private parent) fun enclosing => ?_
            cases enclosing with
            | some uuid => exact hrest uuid
            | none => exact meets_then trivial fun uuid _ => hrest uuid

end Programs

theorem owing_call (env : Env) (call : Call) (calledAt instance_ : Nat) :
    owing.Keeps (fun _ _ => True) call.creates (do
      call.program env calledAt instance_
      act (.registry (.finish call))) := by
  have hprogram : owing.Keeps (fun _ owed => owed = none) call.creates
      (call.program env calledAt instance_) := by
    cases call with
    | newSpan spanId metadata parent => exact meets_onNewSpan env calledAt instance_ parent
    | _ => exact owes_nothing _
  exact (hprogram.mono fun _ owed howed => ⟨howed, fun _ => trivial⟩).bind

/-! ## Runs without harm -/

/-- No write has failed, no formatter has panicked, and what the fields of the spans were
given can be stored. -/
structure State.Unharmed (state : State) : Prop where
  written : state.shared.hasError = false
  calm : state.panicked = false
  storable : ∀ recorded ∈ state.recorded, (recorded.2.2.any fun visit => visit.2.stored.isNone) =
    false

instance (state : State) : Decidable state.Unharmed :=
  decidable_of_iff (state.shared.hasError = false ∧ state.panicked = false ∧
      ∀ recorded ∈ state.recorded,
        (recorded.2.2.any fun visit => visit.2.stored.isNone) = false)
    ⟨fun h => ⟨h.1, h.2.1, h.2.2⟩, fun h => ⟨h.written, h.calm, h.storable⟩⟩

section Steps

variable {env : Env} {state state' : State} {thread : ThreadId} {action : Act} {choice : Choice}
  {reply : action.Reply} {frame : Frame}

theorem panicked_kept (h : perform env thread action choice state = some (reply, state'))
    (hpanicked : state.panicked = true) : state'.panicked = true := by
  cases action with
  | shared | pools | registry =>
      simp only [perform, Option.some.injEq, Prod.mk.injEq] at h
      rw [← h.2]
      exact hpanicked
  | spans | context | sequence =>
      simp only [perform, Option.bind_eq_bind, Option.bind_eq_some_iff, Option.some.injEq,
        Prod.mk.injEq] at h
      obtain ⟨_, _, _, rfl⟩ := h
      exact hpanicked
  | format span =>
      simp only [perform, Option.some.injEq, Prod.mk.injEq] at h
      rw [← h.2]
      exact Bool.or_eq_true_iff.2 (.inl hpanicked)

/-- Harm is not undone. -/
theorem State.Unharmed.before (h : state'.Unharmed)
    (hperform : perform env thread action choice state = some (reply, state')) :
    state.Unharmed where
  written := by
    by_contra herror
    rw [Bool.not_eq_false] at herror
    exact absurd ((error_kept hperform herror).symm.trans h.written) (by simp)
  calm := by
    by_contra hpanicked
    rw [Bool.not_eq_false] at hpanicked
    exact absurd ((panicked_kept hperform hpanicked).symm.trans h.calm) (by simp)
  storable := by
    intro recorded hmem
    apply h.storable
    by_cases hformat : ∃ span, action = .format (some span)
    · obtain ⟨span, rfl⟩ := hformat
      rw [perform_format hperform]
      exact List.mem_append_left _ hmem
    · rw [perform_recorded hperform fun span heq => hformat ⟨span, heq⟩]
      exact hmem

theorem entry_of_fulfils {spanId : SpanId} {span : Registered}
    (hpre : pre env frame action) (howing : owing.pre (some spanId) action)
    (hperform : perform env thread action choice state = some (reply, state'))
    (hunharmed : state'.Unharmed) (hcreates : frame.call.creates = some spanId)
    (hspan : state.registry.spans spanId = some span) (hfulfils : fulfils action reply = true) :
    ∃ entry, state'.spans.entries spanId = some entry := by
  cases action with
  | shared action =>
      cases action with
      | hasError =>
          simp only [perform, SharedAct.perform, Option.some.injEq, Prod.mk.injEq] at hperform
          obtain ⟨hreply, rfl⟩ := hperform
          rw [fulfils, ← hreply] at hfulfils
          exact absurd (hfulfils.symm.trans hunharmed.written) (by simp)
      | _ => cases hfulfils
  | registry action =>
      cases action with
      | span asked =>
          obtain rfl := howing spanId rfl
          simp only [perform, RegistryAct.perform, Option.some.injEq, Prod.mk.injEq] at hperform
          rw [fulfils, ← hperform.1, hspan] at hfulfils
          cases hfulfils
      | finish => cases hfulfils
  | format asked =>
      cases asked with
      | none =>
          simp only [perform, Option.some.injEq, Prod.mk.injEq] at hperform
          obtain ⟨rfl, rfl⟩ := hperform
          have hcalm := (Bool.or_eq_false_iff.1 hunharmed.calm).2
          exact absurd (hfulfils.symm.trans hcalm) (by simp)
      | some asked =>
          have hstorable := hunharmed.storable (asked, state.time, reply)
            (by rw [perform_format hperform]; simp)
          exact absurd (hfulfils.symm.trans hstorable) (by simp)
  | spans action =>
      cases action with
      | insert inserted instance_ data =>
          obtain ⟨-, ⟨metadata, parent, hcall⟩, -⟩ := hpre
          rw [hcall] at hcreates
          cases hcreates
          obtain ⟨spans, haction, rfl⟩ := perform_spans_act hperform
          simp only [SpanAct.perform, Option.map_eq_some_iff, Prod.mk.injEq, true_and] at haction
          obtain ⟨after, hinsert, rfl⟩ := haction
          obtain ⟨-, hentries, -⟩ := insert_spec hinsert
          exact ⟨_, (congrFun hentries spanId).trans (Function.update_self ..)⟩
      | _ => cases hfulfils
  | _ => cases hfulfils

theorem accept_open {registry registry' : Registry} {call : Call} {spanId : SpanId}
    {span' : Registered} (h : registry.accept thread call = some registry')
    (hspan : registry'.spans spanId = some span') (hopen : span'.closing = false) :
    call.creates = some spanId ∨
      ∃ span, registry.spans spanId = some span ∧ span.closing = false := by
  have hmodify : ∀ (other : SpanId) (change : Registered → Registered),
      registry' = registry.modify other change →
      (∀ span, (change span).closing = false → span.closing = false) →
        ∃ span, registry.spans spanId = some span ∧ span.closing = false := by
    rintro other change rfl hchange
    rw [modify_spans] at hspan
    split at hspan
    · rename_i heq
      obtain ⟨span, hfound, rfl⟩ := Option.map_eq_some_iff.1 hspan
      exact ⟨span, heq ▸ hfound, hchange span hopen⟩
    · exact ⟨span', hspan, hopen⟩
  cases call with
  | newSpan created metadata parent =>
      by_cases hcreated : spanId = created
      · exact .inl (congrArg some hcreated.symm)
      · obtain ⟨-, -, -, -, hothers⟩ := accept_newSpan h
        obtain ⟨children, hother⟩ := hothers spanId hcreated
        rw [hother] at hspan
        obtain ⟨span, hfound, rfl⟩ := Option.map_eq_some_iff.1 hspan
        exact .inr ⟨span, hfound, hopen⟩
  | record handled | followsFrom handled | enter handled | exit handled =>
      obtain ⟨-, -, -, entered, hregistry⟩ := accept_handle h rfl (by simp)
      exact .inr (hmodify _ _ hregistry fun _ hafter => hafter)
  | close closed =>
      obtain ⟨-, -, -, -, -, hregistry⟩ := accept_close h
      exact .inr (hmodify _ _ hregistry fun _ hafter => by cases hafter)
  | event =>
      cases h
      exact .inr ⟨span', hspan, hopen⟩
  | exitThread =>
      simp only [Registry.accept] at h
      split at h
      · cases h
        exact .inr ⟨span', hspan, hopen⟩
      · cases h

theorem open_before {spanId : SpanId} {span' : Registered}
    (hperform : perform env thread action choice state = some (reply, state'))
    (hspan : state'.registry.spans spanId = some span') (hopen : span'.closing = false) :
    ∃ span, state.registry.spans spanId = some span ∧ span.closing = false := by
  by_cases hfinish : ∃ call, action = .registry (.finish call)
  · obtain ⟨call, rfl⟩ := hfinish
    simp only [perform, Option.some.injEq, Prod.mk.injEq] at hperform
    rw [← hperform.2] at hspan
    obtain ⟨children, hspans⟩ := finish_spans thread state.registry call spanId
    rw [hspans] at hspan
    split at hspan
    · cases hspan
    · obtain ⟨span, hfound, rfl⟩ := Option.map_eq_some_iff.1 hspan
      exact ⟨span, hfound, hopen⟩
  · rw [perform_registry hperform fun call heq => hfinish ⟨call, heq⟩] at hspan
    exact ⟨span', hspan, hopen⟩

end Steps

/-! ## The store and the registry -/

/-- A callback owes an entry to the span that it creates, as long as it is not over. -/
def Owes (ghost : Frame × Option SpanId) : Prop :=
  ∀ spanId, ghost.2 = some spanId →
    ghost.1.call.creates = some spanId ∧ ghost.1.finished = false

/-- Each open span has its entry, or somebody owes it. -/
structure Mirrors (state : State) (ghosts : ThreadId → List (Frame × Option SpanId)) : Prop where
  owes : Every (fun _ => Owes) ghosts
  entries : state.Unharmed → ∀ spanId span, state.registry.spans spanId = some span →
    span.closing = false → (∃ entry, state.spans.entries spanId = some entry) ∨
      ∃ thread, ∃ ghost ∈ ghosts thread, ghost.2 = some spanId

theorem mirrors_new (nextSequenceId : Nat) : Mirrors (State.new nextSequenceId) fun _ => [] where
  owes := fun _ _ hmem => by cases hmem
  entries := fun _ _ _ hspan => by cases hspan

theorem mirrors_kept (env : Env) : KeepsBoth env owing Call.creates AnyCall
    (fun state ghosts => Known env state (Threads.firsts ghosts)) Mirrors where
  act := by
    rintro state ghosts thread ⟨frame, owed⟩ rest action choice reply state' hknown h hthread
      ⟨hpre, howing⟩ hperform -
    change perform env thread action choice state = some (reply, state') at hperform
    change pre env frame action at hpre
    change owing.pre owed action at howing
    have htop := firsts_cons hthread
    have howes : Owes (frame, owed) := h.owes thread (frame, owed) (by simp [hthread])
    refine ⟨h.owes.step hthread ?_ fun _ _ hother => hother, fun hunharmed => ?_⟩
    · intro spanId hnext
      change (if fulfils action reply then none else owed) = some spanId at hnext
      split at hnext
      · cases hnext
      · obtain ⟨hcreates, hfinished⟩ := howes spanId hnext
        refine ⟨(congrArg Call.creates (next_call action reply).call).trans hcreates, ?_⟩
        refine (next_finished action reply fun call heq => ?_).trans hfinished
        subst heq
        cases howing.symm.trans hnext
    · intro spanId span' hspan' hopen'
      obtain ⟨span, hspan, hopen⟩ := open_before hperform hspan' hopen'
      rcases h.entries (hunharmed.before hperform) spanId span hspan hopen with
        ⟨entry, hentry⟩ | ⟨other, ghost, hmem, howed⟩
      · left
        have hstep := entries_act hknown.guards htop hpre hperform
        obtain ⟨entry', hentry', -⟩ := hstep.kept hentry fun hcloses => by
          by_contra hrunning
          rw [not_or, Bool.not_eq_true] at hrunning
          have hfiled := hknown.ledger.filed thread frame (by simp [htop]) hrunning.1
          obtain ⟨found, hfound, hclosing⟩ := hfiled.closes hcloses
          rw [hspan, Option.some.injEq] at hfound
          subst hfound
          exact absurd (hopen.symm.trans hclosing) (by simp)
        exact ⟨entry', hentry'⟩
      · have hkept : ∀ values, ghost ∈ values → other = thread → ∃ thread', ∃ ghost' ∈
            Function.update ghosts thread values thread', ghost'.2 = some spanId := by
          rintro values hvalues rfl
          exact ⟨other, ghost, by rwa [Function.update_self], howed⟩
        by_cases hother : other = thread
        · rw [hother, hthread] at hmem
          rcases List.mem_cons.1 hmem with rfl | hbelow
          · cases howed
            cases hfulfils : fulfils action reply with
            | true =>
                exact .inl (entry_of_fulfils hpre howing hperform hunharmed
                  (howes spanId rfl).1 hspan hfulfils)
            | false =>
                refine .inr ⟨thread, _, by rw [Function.update_self]; exact List.mem_cons_self, ?_⟩
                exact if_neg (Bool.eq_false_iff.1 hfulfils)
          · exact .inr (hkept _ (List.mem_cons_of_mem _ hbelow) hother)
        · exact .inr ⟨other, ghost, by rwa [Function.update_of_ne hother], howed⟩
  ret := by
    rintro state ghosts thread ⟨frame, owed⟩ rest - h hthread hfinal -
    refine ⟨h.owes.pop hthread, fun hunharmed spanId span hspan hopen => ?_⟩
    refine (h.entries hunharmed spanId span hspan hopen).imp_right ?_
    rintro ⟨other, ghost, hmem, howed⟩
    refine ⟨other, ghost, ?_, howed⟩
    by_cases hother : other = thread
    · subst hother
      rw [Function.update_self]
      rw [hthread] at hmem
      rcases List.mem_cons.1 hmem with rfl | hbelow
      · obtain ⟨-, hrunning⟩ := h.owes other (frame, owed) (by simp [hthread]) spanId howed
        exact absurd (hrunning.symm.trans hfinal.finished) (by simp)
      · exact hbelow
    · rwa [Function.update_of_ne hother]
  call := by
    intro state ghosts thread call prog state' hknown h _ _ hcall _
    obtain ⟨registry, haccept, -, rfl, -⟩ := hknown.ledger.call_admits hcall
    refine ⟨h.owes.push (fun spanId howed => ⟨howed, rfl⟩) fun _ _ hother => hother, ?_⟩
    intro hunharmed spanId span' hspan' hopen'
    have hbefore : state.Unharmed := ⟨hunharmed.written, hunharmed.calm, hunharmed.storable⟩
    rcases accept_open haccept hspan' hopen' with hcreates | ⟨span, hspan, hopen⟩
    · refine .inr ⟨thread, (enter thread call state, call.creates), ?_, hcreates⟩
      rw [Function.update_self]
      exact List.mem_cons_self
    · refine (h.entries hbefore spanId span hspan hopen).imp_right ?_
      rintro ⟨other, ghost, hmem, howed⟩
      refine ⟨other, ghost, ?_, howed⟩
      by_cases hother : other = thread
      · subst hother
        rw [Function.update_self]
        exact List.mem_cons_of_mem _ hmem
      · rwa [Function.update_of_ne hother]

/-- The registry has made no call for the span that is not over, if it knows the span. -/
def Registry.Quiet (registry : Registry) (spanId : SpanId) : Prop :=
  ∀ span ∈ registry.spans spanId, span.busy = [] ∧ span.closing = false

instance (registry : Registry) (spanId : SpanId) : Decidable (registry.Quiet spanId) := by
  unfold Registry.Quiet
  infer_instance

/-- In a run without harm the store has exactly the spans of the registry, apart from those
with a callback in progress. -/
theorem store_mirrors_registry {env : Env} {nextSequenceId : Nat}
    {labels : List (system env).Label} {config : (system env).Config}
    (hrun : System.run labels (System.idle (State.new nextSequenceId)) = some config)
    (hunharmed : config.state.Unharmed) {spanId : SpanId}
    (hquiet : config.state.registry.Quiet spanId) :
    (config.state.spans.entries spanId).map Entry.instance_ =
      (config.state.registry.spans spanId).map Registered.instance_ := by
  obtain ⟨ghosts, ⟨hknown, hmirrors⟩, -⟩ :=
    ((mirrors_kept env).rule (owing_call env)).run
      ⟨known_new env nextSequenceId, mirrors_new nextSequenceId⟩
      (System.tracks_idle (State.new nextSequenceId)) (System.obeys_true labels _) hrun
  cases hentry : config.state.spans.entries spanId with
  | some entry =>
      obtain ⟨span, hspan, hinstance⟩ := hknown.guards.registered spanId entry hentry
      rw [hspan]
      exact congrArg some hinstance.symm
  | none =>
      cases hspan : config.state.registry.spans spanId with
      | none => rfl
      | some span =>
          obtain ⟨hidle, hopen⟩ := hquiet span hspan
          rcases hmirrors.entries hunharmed spanId span hspan hopen with
            ⟨entry, hfound⟩ | ⟨thread, ghost, hmem, howed⟩
          · cases hentry.symm.trans hfound
          · -- the callback that owes the entry still has the span
            obtain ⟨hcreates, hrunning⟩ := hmirrors.owes thread ghost hmem spanId howed
            have hhandles : ghost.1.handles spanId = true := by
              cases hcall : ghost.1.call with
              | newSpan created metadata parent =>
                  rw [hcall] at hcreates
                  cases hcreates
                  simp [Frame.handles, hcall, hrunning, Call.handle]
              | _ =>
                  rw [hcall] at hcreates
                  cases hcreates
            obtain ⟨found, hfound, hbusy⟩ := hknown.ledger.handled
              (List.mem_map_of_mem hmem) hhandles
            rw [hspan, Option.some.injEq] at hfound
            subst hfound
            rw [hidle] at hbusy
            cases hbusy

theorem nestedSpans_unharmed : (nestedSpans.map fun config => decide (config.state.Unharmed ∧
    config.state.registry.Quiet 2 ∧ config.state.registry.Quiet 3)) = some true := by
  decide +kernel

/-- A span that is closed, and one that is open. -/
theorem store_mirrors_registry_nested : ∃ config, nestedSpans = some config ∧
    (config.state.spans.entries 2).map Entry.instance_ =
      (config.state.registry.spans 2).map Registered.instance_ ∧
    (config.state.spans.entries 3).map Entry.instance_ =
      (config.state.registry.spans 3).map Registered.instance_ := by
  obtain ⟨config, hrun, hholds⟩ := Option.map_eq_some_iff.1 nestedSpans_unharmed
  obtain ⟨hunharmed, hclosed, hopen⟩ := of_decide_eq_true hholds
  exact ⟨config, hrun, store_mirrors_registry hrun hunharmed hclosed,
    store_mirrors_registry hrun hunharmed hopen⟩

end TracingPerfetto.Layer
