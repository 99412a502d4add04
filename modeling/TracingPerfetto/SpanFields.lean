import TracingPerfetto.FlowDelivery
import TracingPerfetto.StoredFields
import Mathlib.Data.List.Dedup

/-!
What is recorded on a span and what its packets show of it: each name once, in the order
of the first records, with the value of the last one, and nothing that was recorded on
another span.
-/

namespace TracingPerfetto.Layer

open TracingPerfetto.Wire (Bytes)
open TracingPerfetto.Runtime TracingPerfetto.Sequence TracingPerfetto.TrackEvents
open TracingPerfetto.Counters TracingPerfetto.Threads
open TracingPerfetto.SpanStore (SpanId)

/-! ## Records on top of each other -/

/-- The fields that a span has after the `record` calls on it. -/
def overlay (memory : StaticMemory) (log : List Visits) : List (StaticStr × FieldValue) :=
  log.foldl (fun fields visits => (StoreVisitor.record memory fields visits).1) []

/-- Each name once, where it stood first. -/
def firsts (names : List Bytes) : List Bytes := names.reverse.dedup.reverse

/-- One field for each name, in the order of the first visits, with the value of the last. -/
structure Overlays (memory : StaticMemory) (visits : Visits)
    (fields : List (StaticStr × FieldValue)) : Prop where
  names : fields.map (fun field => memory.text field.1) =
    firsts (visits.map fun visit => memory.text visit.1)
  last : ∀ name value, (name, value) ∈ fields → ∃ before visit after,
    visits = before ++ visit :: after ∧ memory.text visit.1 = memory.text name ∧
      visit.2.stored = some value ∧
      ∀ later ∈ after, memory.text later.1 ≠ memory.text name

section Overlay

variable {memory : StaticMemory} {fields : List (StaticStr × FieldValue)}

theorem set_names (name : StaticStr) (value : FieldValue) :
    (StoreVisitor.set memory name value fields).map (fun field => memory.text field.1) =
      if memory.text name ∈ fields.map (fun field => memory.text field.1)
      then fields.map fun field => memory.text field.1
      else fields.map (fun field => memory.text field.1) ++ [memory.text name] := by
  induction fields with
  | nil => rfl
  | cons first fields ih =>
      rcases first with ⟨known, old⟩
      rw [StoreVisitor.set]
      by_cases hsame : memory.text known = memory.text name
      · rw [if_pos hsame, if_pos]
        · rfl
        · rw [List.map_cons, ← hsame]
          exact List.mem_cons_self
      · rw [if_neg hsame, List.map_cons, ih, List.map_cons]
        by_cases hmem : memory.text name ∈ fields.map fun field => memory.text field.1
        · rw [if_pos hmem, if_pos (List.mem_cons_of_mem _ hmem)]
        · rw [if_neg hmem, if_neg, List.cons_append]
          rw [List.mem_cons, not_or]
          exact ⟨Ne.symm hsame, hmem⟩

theorem mem_set {name known : StaticStr} {value kept : FieldValue}
    (hnodup : (fields.map fun field => memory.text field.1).Nodup)
    (h : (known, kept) ∈ StoreVisitor.set memory name value fields) :
    memory.text known = memory.text name ∧ kept = value ∨
      memory.text known ≠ memory.text name ∧ (known, kept) ∈ fields := by
  induction fields with
  | nil =>
      rw [StoreVisitor.set, List.mem_singleton] at h
      cases h
      exact .inl ⟨rfl, rfl⟩
  | cons first fields ih =>
      rcases first with ⟨first, old⟩
      rw [List.map_cons, List.nodup_cons] at hnodup
      rw [StoreVisitor.set] at h
      by_cases hsame : memory.text first = memory.text name
      · rw [if_pos hsame] at h
        rcases List.mem_cons.1 h with heq | hmem
        · cases heq
          exact .inl ⟨hsame, rfl⟩
        · refine .inr ⟨fun heq => hnodup.1 ?_, List.mem_cons_of_mem _ hmem⟩
          have hname : memory.text known ∈ fields.map fun field => memory.text field.1 :=
            List.mem_map_of_mem hmem
          rwa [heq, ← hsame] at hname
      · rw [if_neg hsame] at h
        rcases List.mem_cons.1 h with heq | hmem
        · cases heq
          exact .inr ⟨hsame, List.mem_cons_self⟩
        · rcases ih hnodup.2 hmem with hnew | ⟨hne, hold⟩
          · exact .inl hnew
          · exact .inr ⟨hne, List.mem_cons_of_mem _ hold⟩

theorem nodup_firsts (names : List Bytes) : (firsts names).Nodup :=
  List.nodup_reverse.2 (List.nodup_dedup _)

theorem firsts_concat (names : List Bytes) (name : Bytes) :
    firsts (names ++ [name]) =
      if name ∈ firsts names then firsts names else firsts names ++ [name] := by
  rw [firsts, firsts, List.reverse_append, List.reverse_singleton, List.singleton_append]
  by_cases hmem : name ∈ names
  · rw [List.dedup_cons_of_mem (List.mem_reverse.2 hmem), if_pos]
    simpa using hmem
  · rw [List.dedup_cons_of_notMem (fun h => hmem (List.mem_reverse.1 h)), List.reverse_cons, if_neg]
    simpa using hmem

theorem Overlays.set {visits : Visits} (h : Overlays memory visits fields) {name : StaticStr}
    {visit : FieldVisit} {value : FieldValue} (hvalue : visit.stored = some value) :
    Overlays memory (visits ++ [(name, visit)]) (StoreVisitor.set memory name value fields) := by
  have hnodup : (fields.map fun field => memory.text field.1).Nodup := by
    rw [h.names]
    exact nodup_firsts _
  constructor
  · rw [set_names, h.names, List.map_append, List.map_singleton, firsts_concat]
  · intro known kept hmem
    rcases mem_set hnodup hmem with ⟨hsame, rfl⟩ | ⟨hne, hold⟩
    · exact ⟨visits, (name, visit), [], rfl, hsame.symm, hvalue, by simp⟩
    · obtain ⟨before, last, after, rfl, hname, hstored, hlater⟩ := h.last known kept hold
      refine ⟨before, last, after ++ [(name, visit)], by simp, hname, hstored, ?_⟩
      intro later hmem
      rcases List.mem_append.1 hmem with hafter | hnew
      · exact hlater later hafter
      · rw [List.mem_singleton] at hnew
        subst hnew
        exact Ne.symm hne

theorem Overlays.record {visits : Visits} (h : Overlays memory visits fields) {more : Visits}
    (hstored : ∀ visit ∈ more, visit.2.stored.isSome = true) :
    Overlays memory (visits ++ more) (StoreVisitor.record memory fields more).1 := by
  induction more generalizing visits fields with
  | nil =>
      rw [List.append_nil]
      exact h
  | cons first more ih =>
      rcases first with ⟨name, visit⟩
      rw [List.forall_mem_cons] at hstored
      obtain ⟨value, hvalue⟩ := Option.isSome_iff_exists.1 hstored.1
      have hset : Overlays memory (visits ++ [(name, visit)])
          (StoreVisitor.set memory name value fields) := h.set hvalue
      have hrest := ih hset hstored.2
      rw [List.append_assoc, List.singleton_append] at hrest
      change visit.stored = some value at hvalue
      rw [StoreVisitor.record, hvalue]
      exact hrest

theorem overlay_overlays {log : List Visits}
    (hstored : ∀ visits ∈ log, ∀ visit ∈ visits, visit.2.stored.isSome = true) :
    Overlays memory log.flatten (overlay memory log) := by
  induction log using List.reverseRecOn with
  | nil => exact ⟨rfl, fun _ _ hmem => by cases hmem⟩
  | append_singleton log visits ih =>
      rw [overlay, List.foldl_concat, List.flatten_append, List.flatten_singleton]
      apply Overlays.record
      · apply ih
        exact fun visits hmem => hstored visits (List.mem_append_left _ hmem)
      · exact hstored visits (by simp)

end Overlay

/-! ## What is recorded -/

/-- The `record` calls on a span. -/
def State.recordedOn (state : State) (span : Nat) : List Visits :=
  (state.recorded.filter fun record => record.1 = span).map fun record => record.2.2

def State.recordedBefore (state : State) (span time : Nat) : List Visits :=
  (state.recorded.filter fun record => record.1 = span ∧ record.2.1 < time).map
    fun record => record.2.2

/-- The fields in a packet of a span, where it shows them. -/
def Content.ShowsFields (fields : List (StaticStr × FieldValue)) : Content → Prop
  | .body (.lifetimeEnd _ _ shown) | .body (.threadBegin _ shown _ _) => shown = fields
  | _ => True

section Recorded

variable {env : Env} {state state' : State} {frames : Frames} {thread : ThreadId}
  {frame : Frame} {rest : List Frame}

theorem perform_recorded {action : Act} {choice : Choice} {reply : action.Reply}
    (h : perform env thread action choice state = some (reply, state'))
    (haction : ∀ span, action ≠ .format (some span)) : state'.recorded = state.recorded := by
  cases action with
  | shared | pools | registry =>
      simp only [perform, Option.some.injEq, Prod.mk.injEq] at h
      rw [← h.2]
      rfl
  | spans | context | sequence =>
      simp only [perform, Option.bind_eq_bind, Option.bind_eq_some_iff, Option.some.injEq,
        Prod.mk.injEq] at h
      obtain ⟨_, _, _, rfl⟩ := h
      rfl
  | format span =>
      cases span with
      | none =>
          simp only [perform, Option.some.injEq, Prod.mk.injEq] at h
          rw [← h.2]
          exact List.append_nil _
      | some span => exact absurd rfl (haction span)

theorem perform_format {span : Nat} {choice : Choice} {visits : Visits}
    (h : perform env thread (.format (some span)) choice state = some (visits, state')) :
    state'.recorded = state.recorded ++ [(span, state.time, visits)] := by
  simp only [perform, Option.some.injEq, Prod.mk.injEq] at h
  obtain ⟨rfl, rfl⟩ := h
  rfl

theorem recordedOn_same (h : state'.recorded = state.recorded) (span : Nat) :
    state'.recordedOn span = state.recordedOn span := by
  rw [State.recordedOn, h]
  rfl

theorem recordedOn_format {other time : Nat} {visits : Visits}
    (h : state'.recorded = state.recorded ++ [(other, time, visits)]) (span : Nat) :
    state'.recordedOn span = state.recordedOn span ++ if other = span then [visits] else [] := by
  rw [State.recordedOn, State.recordedOn, h, List.filter_append, List.map_append]
  congr 1
  by_cases hspan : other = span
  · simp [hspan]
  · simp [hspan]

theorem recordedBefore_all {span time : Nat}
    (h : ∀ record ∈ state.recorded, record.2.1 < time) :
    state.recordedBefore span time = state.recordedOn span := by
  rw [State.recordedBefore, State.recordedOn]
  congr 1
  apply List.filter_congr
  intro record hmem
  simp [h record hmem]

theorem recordedBefore_kept {action : Act} {choice : Choice} {reply : action.Reply}
    (hperform : perform env thread action choice state = some (reply, state')) {span time : Nat}
    (htime : time ≤ state.time) :
    state'.recordedBefore span time = state.recordedBefore span time := by
  by_cases hformat : ∃ other, action = .format (some other)
  · obtain ⟨other, rfl⟩ := hformat
    rw [State.recordedBefore, State.recordedBefore, perform_format hperform, List.filter_append,
      List.map_append]
    simp [Nat.not_lt.2 htime]
  · rw [State.recordedBefore, State.recordedBefore,
      perform_recorded hperform fun other heq => hformat ⟨other, heq⟩]

end Recorded

/-! ## The fields of the entries -/

/-- Visits through the guard are not in the entry yet. -/
structure Frame.Storing (frame : Frame) (found : Found) : Prop where
  guard : frame.guard = some found
  exclusive : frame.exclusive = true
  visits : frame.visits ≠ none

/-- An entry shows what is recorded on its span. -/
abbrev Stored (env : Env) (state : State) : Frames → Found → Prop :=
  Share Frame.Storing
    (fun found => found.data.fields =
      overlay env.memory (state.recordedOn found.entry.instance_))
    fun frame found =>
      (StoreVisitor.record env.memory found.data.fields (frame.visits.getD [])).1 =
        overlay env.memory (state.recordedOn found.entry.instance_)

/-- The span is there, and not being created any more. -/
structure Made (state : State) (frames : Frames) (span : Nat) : Prop where
  issued : span < state.registry.nextInstance
  creating : Every (fun _ frame => frame.Creating → frame.instance_ ≠ span) frames

/-- Nobody can record on the span any more. -/
structure Over (state : State) (frames : Frames) (span : Nat) : Prop extends
    Made state frames span where
  entry : ∀ spanId entry, state.spans.entries spanId = some entry → entry.instance_ ≠ span

structure Records (env : Env) (state : State) (frames : Frames) : Prop where
  entry : ∀ spanId entry, state.spans.entries spanId = some entry →
    Stored env state frames ⟨spanId, entry⟩
  creating : Every (fun _ frame => frame.Creating →
    state.recordedOn frame.instance_ = frame.visits.toList) frames
  taken : Every (fun _ frame => frame.finished = false → ∀ found, frame.taken = some found →
    found.data.fields = overlay env.memory (state.recordedOn found.entry.instance_)) frames
  issued : ∀ record ∈ state.recorded, record.1 < state.registry.nextInstance

section Records

variable {env : Env} {state state' : State} {frames : Frames} {thread : ThreadId}
  {frame frame' : Frame} {rest : List Frame} {found : Found}

theorem overlay_concat (memory : StaticMemory) (log : List Visits) (visits : Visits) :
    overlay memory (log ++ [visits]) =
      (StoreVisitor.record memory (overlay memory log) visits).1 :=
  List.foldl_concat ..

theorem storing_same (hguard : frame'.guard = frame.guard)
    (hexclusive : frame'.exclusive = frame.exclusive) (hvisits : frame'.visits = frame.visits)
    (found : Found) : frame'.Storing found ↔ frame.Storing found := by
  constructor
  · intro hstoring
    exact ⟨hguard.symm.trans hstoring.guard, hexclusive.symm.trans hstoring.exclusive,
      fun hnone => hstoring.visits (hvisits.trans hnone)⟩
  · intro hstoring
    exact ⟨hguard.trans hstoring.guard, hexclusive.trans hstoring.exclusive,
      fun hnone => hstoring.visits (hvisits.symm.trans hnone)⟩

theorem storing_none
    (hbefore : frame.guard = none ∨ frame.exclusive = false ∨ frame.visits = none)
    (hafter : frame'.guard = none ∨ frame'.exclusive = false ∨ frame'.visits = none)
    (found : Found) : frame'.Storing found ↔ frame.Storing found := by
  have hnot : ∀ value : Frame, value.guard = none ∨ value.exclusive = false ∨
      value.visits = none → ¬ value.Storing found := by
    rintro value (hnone | hfalse | hnone) ⟨hguard, hexclusive, hvisits⟩
    · rw [hnone] at hguard
      cases hguard
    · rw [hfalse] at hexclusive
      cases hexclusive
    · exact hvisits hnone
  exact ⟨fun hstoring => absurd hstoring (hnot frame' hafter),
    fun hstoring => absurd hstoring (hnot frame hbefore)⟩

/-- A step of a callback that stores nothing in this entry. -/
theorem Stored.step (h : Stored env state frames found) (hthread : frames thread = frame :: rest)
    (hstoring : frame'.Storing found ↔ frame.Storing found)
    (hvisits : frame.Storing found → frame'.visits = frame.visits)
    (hrecorded : state'.recordedOn found.entry.instance_ =
      state.recordedOn found.entry.instance_) :
    Stored env state' (Function.update frames thread (frame' :: rest)) found := by
  refine Share.step h hthread hstoring ?_ ?_ ?_
  · intro hwhole
    rw [hrecorded, hwhole]
  · intro hframe hpartly
    rw [hrecorded, hvisits hframe, hpartly]
  · intro _ hpartly
    rw [hrecorded, hpartly]

theorem Records.step (h : Records env state frames) (hthread : frames thread = frame :: rest)
    (hrecorded : state'.recorded = state.recorded)
    (hissued : state.registry.nextInstance ≤ state'.registry.nextInstance)
    (hentry : ∀ spanId entry, state'.spans.entries spanId = some entry →
      Stored env state' (Function.update frames thread (frame' :: rest)) ⟨spanId, entry⟩)
    (hcreating : frame'.Creating → state.recordedOn frame'.instance_ = frame'.visits.toList)
    (htaken : frame'.finished = false → ∀ found, frame'.taken = some found →
      found.data.fields = overlay env.memory (state.recordedOn found.entry.instance_)) :
    Records env state' (Function.update frames thread (frame' :: rest)) := by
  constructor
  · exact hentry
  · refine h.creating.step hthread ?_ ?_
    · intro hnew
      rw [recordedOn_same hrecorded]
      exact hcreating hnew
    · intro _ value hvalue hnew
      rw [recordedOn_same hrecorded]
      exact hvalue hnew
  · refine h.taken.step hthread ?_ ?_
    · intro hunfinished shown hshown
      rw [recordedOn_same hrecorded]
      exact htaken hunfinished shown hshown
    · intro _ value hvalue hunfinished shown hshown
      rw [recordedOn_same hrecorded]
      exact hvalue hunfinished shown hshown
  · intro record hmem
    rw [hrecorded] at hmem
    exact (h.issued record hmem).trans_le hissued

/-- The records of a span go through the guard of its entry. -/
theorem Records.formatGuarded (h : Records env state frames) (hknown : Known env state frames)
    (htaken : Taken env state frames) (hthread : frames thread = frame :: rest)
    (hguards : Guards env state' (Function.update frames thread (frame' :: rest)))
    {visits : Visits} (hspans : state'.spans = state.spans)
    (hregistry : state'.registry = state.registry)
    (hrecorded : state'.recorded =
      state.recorded ++ [(found.entry.instance_, state.time, visits)])
    (hguard : frame.guard = some found) (hexclusive : frame.exclusive = true)
    (hvisits : frame.visits = none) (hcreating : ¬ frame'.Creating)
    (hguard' : frame'.guard = some found) (hexclusive' : frame'.exclusive = true)
    (hvisits' : frame'.visits = some visits) (htaken' : frame'.taken = frame.taken)
    (hfinished' : frame'.finished = frame.finished) :
    Records env state' (Function.update frames thread (frame' :: rest)) := by
  have hmem : frame ∈ frames thread := Guards.top_mem hthread
  have hentry := hknown.guards.entry thread frame hmem found hguard
  have hothers : ∀ span, span ≠ found.entry.instance_ →
      state'.recordedOn span = state.recordedOn span := by
    intro span hne
    rw [recordedOn_format hrecorded, if_neg (Ne.symm hne), List.append_nil]
  have hunstored : ¬ frame.Storing found := fun hstoring => hstoring.visits hvisits
  obtain ⟨-, hwhole⟩ := (h.entry found.spanId found.entry hentry).own Frame.Storing.guard
    hknown.guards hthread hguard hexclusive
  have hfields : found.data.fields =
      overlay env.memory (state.recordedOn found.entry.instance_) := hwhole hunstored
  constructor
  · intro spanId entry hentry'
    rw [hspans] at hentry'
    by_cases hinstance : entry.instance_ = found.entry.instance_
    · have heq := hknown.same_span hentry' hentry hinstance
      subst heq
      rw [hentry, Option.some.injEq] at hentry'
      subst hentry'
      refine Share.of_own Frame.Storing.guard hguards (Function.update_self ..) hguard'
        hexclusive' (fun _ => ?_) fun hnot => ?_
      · change (StoreVisitor.record env.memory found.data.fields (frame'.visits.getD [])).1 =
          overlay env.memory (state'.recordedOn found.entry.instance_)
        rw [recordedOn_format hrecorded, if_pos rfl, overlay_concat, ← hfields, hvisits']
        rfl
      · exact absurd ⟨hguard', hexclusive', by simp [hvisits']⟩ hnot
    · refine (h.entry spanId entry hentry').step hthread ?_ ?_ (hothers _ hinstance)
      · have hother : ∀ value : Frame, value.guard = some found →
            ¬ value.Storing ⟨spanId, entry⟩ := by
          rintro value hvalue ⟨hsame, -, -⟩
          rw [hvalue, Option.some.injEq] at hsame
          exact hinstance (congrArg (fun found => found.entry.instance_) hsame).symm
        exact ⟨fun hstoring => absurd hstoring (hother frame' hguard'),
          fun hstoring => absurd hstoring (hother frame hguard)⟩
      · exact fun hstoring => absurd hvisits hstoring.visits
  · refine h.creating.step_apart hknown.ledger.distinct hthread
      (fun hnew => absurd hnew hcreating) ?_
    intro other value hvalue _ hold hnew
    rw [hothers _ (hknown.creating_apart hvalue hnew hentry).symm]
    exact hold hnew
  · refine h.taken.step_apart hknown.ledger.distinct hthread ?_ ?_
    · rw [hfinished', htaken']
      intro hunfinished shown hshown
      have hnone := (htaken thread frame hmem hunfinished shown hshown).guard
      rw [hguard] at hnone
      cases hnone
    · intro other value hvalue _ hold hunfinished shown hshown
      rw [hothers _ (htaken.apart hknown hvalue hunfinished hshown hentry)]
      exact hold hunfinished shown hshown
  · intro record hrecord
    rw [hregistry]
    rw [hrecorded] at hrecord
    rcases List.mem_append.1 hrecord with hold | hnew
    · exact h.issued record hold
    · rw [List.mem_singleton] at hnew
      subst hnew
      obtain ⟨span, hspan, hinstance⟩ := hknown.guards.registered _ _ hentry
      rw [← hinstance]
      exact hknown.ledger.issued _ span hspan

/-- The fields that a span is created with come before its entry. -/
theorem Records.formatCreating (h : Records env state frames) (hknown : Known env state frames)
    (htaken : Taken env state frames) (hthread : frames thread = frame :: rest)
    {visits : Visits} (hspans : state'.spans = state.spans)
    (hregistry : state'.registry = state.registry)
    (hrecorded : state'.recorded = state.recorded ++ [(frame.instance_, state.time, visits)])
    (hcreating : frame.Creating) (hguard : frame.guard = none) (hvisits : frame.visits = none)
    (hguard' : frame'.guard = none) (hinstance' : frame'.instance_ = frame.instance_)
    (hvisits' : frame'.visits = some visits) (htaken' : frame'.taken = frame.taken)
    (hfinished' : frame'.finished = frame.finished) :
    Records env state' (Function.update frames thread (frame' :: rest)) := by
  have hmem : frame ∈ frames thread := Guards.top_mem hthread
  have hothers : ∀ span, span ≠ frame.instance_ →
      state'.recordedOn span = state.recordedOn span := by
    intro span hne
    rw [recordedOn_format hrecorded, if_neg (Ne.symm hne), List.append_nil]
  constructor
  · intro spanId entry hentry
    rw [hspans] at hentry
    refine (h.entry spanId entry hentry).step hthread (storing_none (.inl hguard) (.inl hguard')
      _) ?_ (hothers _ (hknown.creating_apart hmem hcreating hentry))
    exact fun hstoring => absurd hvisits hstoring.visits
  · refine h.creating.step_apart hknown.ledger.distinct hthread ?_ ?_
    · intro _
      rw [hinstance', recordedOn_format hrecorded, if_pos rfl,
        h.creating thread frame hmem hcreating, hvisits, hvisits']
      rfl
    · intro other value hvalue hdistinct hold hnew
      rw [hothers _ (hknown.creating_distinct hmem hcreating hvalue hnew hdistinct)]
      exact hold hnew
  · refine h.taken.step_apart hknown.ledger.distinct hthread ?_ ?_
    · rw [hfinished', htaken']
      intro hunfinished shown hshown
      rw [hothers _ (htaken.creating_apart hknown hmem hcreating hmem hunfinished hshown)]
      exact h.taken thread frame hmem hunfinished shown hshown
    · intro other value hvalue _ hold hunfinished shown hshown
      rw [hothers _ (htaken.creating_apart hknown hmem hcreating hvalue hunfinished hshown)]
      exact hold hunfinished shown hshown
  · intro record hrecord
    rw [hregistry]
    rw [hrecorded] at hrecord
    rcases List.mem_append.1 hrecord with hold | hnew
    · exact h.issued record hold
    · rw [List.mem_singleton] at hnew
      subst hnew
      obtain ⟨created, metadata, parent, hcall⟩ := hcreating.call
      obtain ⟨span, hspan, hinstance⟩ :=
        (hknown.ledger.filed thread frame hmem hcreating.unfinished).creates hcall
      rw [← hinstance]
      exact hknown.ledger.issued _ span hspan

theorem pushFlow_fields (data : SpanData) (flow : PendingFlow) :
    (data.pushFlow flow).fields = data.fields := by
  rcases data with ⟨_, _, _ | retained⟩
  · rfl
  · rfl

theorem records_spans {action : SpanAct} {choice : Choice} {reply : action.Reply}
    (h : Records env state frames) (hknown : Known env state frames)
    (hthread : frames thread = frame :: rest) (hpre : pre env frame (.spans action))
    (hperform : perform env thread (.spans action) choice state = some (reply, state'))
    (hguards : Guards env state'
      (Function.update frames thread (next frame (.spans action) reply :: rest))) :
    Records env state'
      (Function.update frames thread (next frame (.spans action) reply :: rest)) := by
  have hmem : frame ∈ frames thread := Guards.top_mem hthread
  have hkeeps : ∀ spanId entry, state.spans.entries spanId = some entry →
      ((next frame (.spans action) reply).Storing ⟨spanId, entry⟩ ↔
        frame.Storing ⟨spanId, entry⟩) →
      (frame.Storing ⟨spanId, entry⟩ →
        (next frame (.spans action) reply).visits = frame.visits) →
      Stored env state' (Function.update frames thread
        (next frame (.spans action) reply :: rest)) ⟨spanId, entry⟩ := by
    intro spanId entry hentry hstoring hvisits
    refine (h.entry spanId entry hentry).step hthread hstoring hvisits ?_
    exact recordedOn_same (perform_recorded hperform (by simp)) _
  have hcreating := h.creating thread frame hmem
  have htop := h.taken thread frame hmem
  obtain ⟨spans, haction, rfl⟩ := perform_spans_act hperform
  cases action with
  | insert spanId instance_ data =>
      obtain ⟨⟨hguard, -⟩, ⟨metadata, parent, hcall⟩, rfl, hinserted, hfinished, -, -, -,
        hbegins⟩ :=
        hpre
      simp only [SpanAct.perform, Option.map_eq_some_iff, Prod.mk.injEq, true_and] at haction
      obtain ⟨inserted, hinsert, rfl⟩ := haction
      obtain ⟨-, hentries, -⟩ := insert_spec hinsert
      have hnone := hknown.guards.creating thread frame hmem hfinished hinserted spanId metadata
        parent hcall
      refine h.step hthread rfl le_rfl ?_ (fun hnew => ?_) htop
      · intro other entry hentry
        rw [show inserted.entries = _ from hentries, Function.update_apply] at hentry
        split at hentry
        · rename_i heq
          cases hentry
          subst heq
          refine .whole ?_ ?_
          · have hnobody : Every (fun _ value => ∀ data tier, ¬ value.Storing
                ⟨other, ⟨frame.instance_, data, tier⟩⟩) frames := by
              intro thread' value hvalue data tier hstoring
              have hshown := hknown.guards.entry thread' value hvalue _ hstoring.guard
              rw [hnone] at hshown
              cases hshown
            refine hnobody.step hthread ?_ fun _ _ hvalue => hvalue _ _
            intro hstoring
            have hshown := hstoring.guard
            change frame.guard = _ at hshown
            rw [hguard] at hshown
            cases hshown
          · have hlog : state.recordedOn frame.instance_ = frame.visits.toList :=
              hcreating ⟨hfinished, hinserted, other, metadata, parent, hcall⟩
            change data.fields = overlay env.memory (state.recordedOn frame.instance_)
            rw [hbegins.fields, hlog]
            cases frame.visits with
            | none => rfl
            | some visits => rfl
        · have hguard' : (next frame (.spans (.insert spanId frame.instance_ data)) reply).guard =
              none := hguard
          refine hkeeps other entry hentry (storing_none (.inl hguard) (.inl hguard') _) ?_
          intro hstoring
          have hshown := hstoring.guard
          rw [hguard] at hshown
          cases hshown
      · cases hnew.inserted
  | get spanId =>
      obtain ⟨⟨hguard, -⟩, -⟩ := hpre
      obtain ⟨hentries, -⟩ := get_spec haction
      refine h.step hthread rfl le_rfl ?_ (fun hnew => hcreating ⟨hnew.unfinished, hnew.inserted,
        hnew.call⟩) htop
      intro other entry hentry
      rw [show spans.entries = _ from hentries] at hentry
      exact hkeeps other entry hentry (storing_none (.inl hguard) (.inr (.inl rfl)) _) fun _ => rfl
  | getMut spanId =>
      obtain ⟨⟨hguard, -⟩, hvisits⟩ := hpre
      have hentries : spans.entries = state.spans.entries := by
        rcases getMut_spec haction with ⟨shown, -, -, -, -, rfl⟩ | ⟨-, -, rfl⟩
        · rfl
        · rfl
      refine h.step hthread rfl le_rfl ?_ (fun hnew => hcreating ⟨hnew.unfinished, hnew.inserted,
        hnew.call⟩) htop
      intro other entry hentry
      rw [show spans.entries = _ from hentries] at hentry
      have hvisits' : (next frame (.spans (.getMut spanId)) reply).visits = none := hvisits
      exact hkeeps other entry hentry (storing_none (.inl hguard) (.inr (.inr hvisits')) _)
        fun _ => rfl
  | put found =>
      obtain ⟨shown, hguard, hexclusive, hchanges, hstores, hown⟩ := hpre
      simp only [SpanAct.perform, Option.some.injEq, Prod.mk.injEq, true_and] at haction
      subst haction
      have hentry := hknown.guards.entry thread frame hmem shown hguard
      obtain ⟨hstoring, hwhole⟩ := (h.entry shown.spanId shown.entry hentry).own
        Frame.Storing.guard hknown.guards hthread hguard hexclusive
      refine h.step hthread rfl le_rfl ?_ (fun hnew => ?_) htop
      · intro other entry hentry'
        simp only [Spans.setEntry, Function.update_apply] at hentry'
        split at hentry'
        · rename_i heq
          cases hentry'
          refine Share.of_own Frame.Storing.guard hguards (Function.update_self ..) ?_ hexclusive
            (fun hnew => absurd rfl hnew.visits) fun _ => ?_
          · change some found = some ⟨other, found.entry⟩
            rw [heq]
          · change found.data.fields =
              overlay env.memory (state.recordedOn found.entry.instance_)
            rw [hstores.fields, hchanges.instance_]
            by_cases hvisits : frame.visits = none
            · rw [hvisits]
              exact hwhole fun hnew => hnew.visits hvisits
            · exact hstoring ⟨hguard, hexclusive, hvisits⟩
        · rename_i hne
          have hother : ∀ (value : Frame) (next : Found), value.guard = some next →
              next.spanId = found.spanId → ¬ value.Storing ⟨other, entry⟩ := by
            rintro value next hvalue hspanId ⟨hsame, -, -⟩
            rw [hvalue, Option.some.injEq] at hsame
            subst hsame
            exact hne hspanId
          have hbefore := hother frame shown hguard hchanges.spanId.symm
          have hafter := hother (next frame (.spans (.put found)) reply) found rfl rfl
          exact hkeeps other entry hentry' (iff_of_false hafter hbefore)
            fun hstoring => absurd hstoring hbefore
      · obtain ⟨created, metadata, parent, hcall⟩ := hnew.call
        rcases hown with hvisits | ⟨spanId, hrecord⟩
        · change state.recordedOn frame.instance_ = []
          rw [hcreating ⟨hnew.unfinished, hnew.inserted, hnew.call⟩, hvisits]
          rfl
        · change frame.call = _ at hcall
          rw [hrecord] at hcall
          cases hcall
  | pushFlow found flow =>
      obtain ⟨hguard, hexclusive, -⟩ := hpre
      simp only [SpanAct.perform, Option.some.injEq, Prod.mk.injEq, true_and] at haction
      subst haction
      have hentry := hknown.guards.entry thread frame hmem found hguard
      obtain ⟨hstoring, hwhole⟩ := (h.entry found.spanId found.entry hentry).own
        Frame.Storing.guard hknown.guards hthread hguard hexclusive
      have hfields : (found.withData (found.data.pushFlow flow)).data.fields =
          found.data.fields := pushFlow_fields _ _
      refine h.step hthread rfl le_rfl ?_ (fun hnew => hcreating ⟨hnew.unfinished, hnew.inserted,
        hnew.call⟩) htop
      intro other entry hentry'
      simp only [Spans.setEntry, Function.update_apply] at hentry'
      split at hentry'
      · rename_i heq
        cases hentry'
        subst heq
        refine Share.of_own Frame.Storing.guard hguards (Function.update_self ..) rfl hexclusive
          (fun hnew => ?_) fun hnot => ?_
        · change (StoreVisitor.record env.memory
            (found.withData (found.data.pushFlow flow)).data.fields (frame.visits.getD [])).1 = _
          rw [hfields]
          exact hstoring ⟨hguard, hexclusive, hnew.visits⟩
        · change (found.withData (found.data.pushFlow flow)).data.fields = _
          rw [hfields]
          exact hwhole fun hold => hnot ⟨rfl, hexclusive, hold.visits⟩
      · rename_i hne
        have hother : ∀ (value : Frame) (next : Found), value.guard = some next →
            next.spanId = found.spanId → ¬ value.Storing ⟨other, entry⟩ := by
          rintro value next hvalue hspanId ⟨hsame, -, -⟩
          rw [hvalue, Option.some.injEq] at hsame
          subst hsame
          exact hne hspanId
        have hbefore := hother frame found hguard rfl
        have hafter := hother (next frame (.spans (.pushFlow found flow)) reply) _ rfl rfl
        exact hkeeps other entry hentry' (iff_of_false hafter hbefore)
          fun hstoring => absurd hstoring hbefore
  | dropRef found =>
      obtain ⟨-, hexclusive⟩ := hpre
      simp only [SpanAct.perform, Option.some.injEq, Prod.mk.injEq, true_and] at haction
      subst haction
      refine h.step hthread rfl le_rfl ?_ (fun hnew => hcreating ⟨hnew.unfinished, hnew.inserted,
        hnew.call⟩) htop
      intro other entry hentry
      have hold : state.spans.entries other = some entry := by
        simp only [releaseRef] at hentry
        split at hentry <;> exact hentry
      exact hkeeps other entry hold (storing_none (.inr (.inl hexclusive)) (.inl rfl) _)
        fun _ => rfl
  | dropMut found =>
      obtain ⟨-, -, -, hvisits⟩ := hpre
      simp only [SpanAct.perform, Option.some.injEq, Prod.mk.injEq, true_and] at haction
      subst haction
      refine h.step hthread rfl le_rfl ?_ (fun hnew => hcreating ⟨hnew.unfinished, hnew.inserted,
        hnew.call⟩) htop
      intro other entry hentry
      exact hkeeps other entry hentry (storing_none (.inr (.inr hvisits)) (.inl rfl) _)
        fun _ => rfl
  | take spanId =>
      obtain ⟨⟨hguard, -⟩, hcall, htook, hfinished⟩ := hpre
      have hguard' : (next frame (.spans (.take spanId)) reply).guard = none := by
        cases reply <;> exact hguard
      have hcall' := (@next_call frame (.spans (.take spanId)) reply).call
      obtain ⟨-, -, -, hcases⟩ := take_spec haction
      refine h.step hthread rfl le_rfl ?_ ?_ ?_
      · intro other entry hentry
        have hold : state.spans.entries other = some entry := by
          rcases hcases with ⟨shown, -, -, -, -, hentries⟩ | ⟨-, -, hentries⟩
          · rw [show spans.entries = _ from hentries, Function.update_apply] at hentry
            split at hentry
            · cases hentry
            · exact hentry
          · rwa [show spans.entries = _ from hentries] at hentry
        refine hkeeps other entry hold (storing_none (.inl hguard) (.inl hguard') _) ?_
        intro hstoring
        have hshown := hstoring.guard
        rw [hguard] at hshown
        cases hshown
      · intro hnew
        obtain ⟨created, metadata, parent, hnewSpan⟩ := hnew.call
        have hclose := hcall'.symm.trans hnewSpan
        rw [hcall] at hclose
        cases hclose
      · rcases hcases with ⟨⟨_, entry⟩, rfl, rfl, hentry, hfree, -⟩ | ⟨rfl, -⟩
        · rintro - found hfound
          cases hfound
          cases h.entry _ entry hentry with
          | whole _ h => exact h
          | partly other value hvalue hstoring _ =>
              exact absurd rfl (free_apart hknown.guards hentry hfree other value hvalue _
                hstoring.guard)
        · rintro - found hfound
          cases hfound
  | noteFollowsFrom =>
      simp only [SpanAct.perform, Option.some.injEq, Prod.mk.injEq, true_and] at haction
      subst haction
      refine h.step hthread rfl le_rfl ?_ (fun hnew => hcreating ⟨hnew.unfinished, hnew.inserted,
        hnew.call⟩) htop
      intro other entry hentry
      refine hkeeps other entry hentry ?_ fun _ => rfl
      apply storing_same <;> rfl
  | hasFollowsFrom =>
      simp only [SpanAct.perform, Option.some.injEq, Prod.mk.injEq] at haction
      obtain ⟨-, rfl⟩ := haction
      refine h.step hthread rfl le_rfl ?_ (fun hnew => hcreating ⟨hnew.unfinished, hnew.inserted,
        hnew.call⟩) htop
      intro other entry hentry
      refine hkeeps other entry hentry ?_ fun _ => rfl
      apply storing_same <;> rfl

theorem next_visits (action : Act) (reply : action.Reply) (hspans : ∀ act, action ≠ .spans act)
    (hformat : ∀ span, action ≠ .format (some span)) :
    (next frame action reply).visits = frame.visits := by
  cases action with
  | shared act => cases act <;> rfl
  | pools act => cases act <;> rfl
  | spans act => exact absurd rfl (hspans act)
  | context act =>
      cases act with
      | lookup | cachedTrack | evict | releaseLocal => cases reply <;> rfl
      | _ => rfl
  | sequence act =>
      cases act with
      | write span calledAt content =>
          cases content with
          | body body => cases body <;> rfl
          | _ => rfl
      | _ => rfl
  | registry act => cases act <;> rfl
  | format span =>
      cases span with
      | none => rfl
      | some span => exact absurd rfl (hformat span)

/-- A callback is creating a span only as long as it has not filed its entry. -/
theorem creating_before (action : Act) (reply : action.Reply)
    (h : (next frame action reply).Creating) : frame.Creating := by
  refine ⟨unfinished_before action reply h.unfinished, ?_, ?_⟩
  · by_cases hspans : ∃ act, action = .spans act
    · obtain ⟨act, rfl⟩ := hspans
      have hinserted := h.inserted
      cases act with
      | insert => cases hinserted
      | take => cases reply <;> exact hinserted
      | _ => exact hinserted
    · rw [← (next_same_spans frame action reply fun act heq => hspans ⟨act, heq⟩).inserted]
      exact h.inserted
  · rw [← (next_call action reply).call]
    exact h.call

theorem perform_issued {action : Act} {choice : Choice} {reply : action.Reply}
    (h : perform env thread action choice state = some (reply, state')) :
    state'.registry.nextInstance = state.registry.nextInstance := by
  by_cases hfinish : ∃ call, action = .registry (.finish call)
  · obtain ⟨call, rfl⟩ := hfinish
    simp only [perform, Option.some.injEq, Prod.mk.injEq] at h
    rw [← h.2]
    exact finish_nextInstance call
  · rw [perform_registry h fun call heq => hfinish ⟨call, heq⟩]

theorem records_kept (env : Env) :
    KeepsInv env AnyCall
      (fun state frames => Known env state frames ∧ Excuses env state frames ∧
        Taken env state frames)
      (Records env) where
  act := by
    rintro state frames thread frame rest action choice reply state' ⟨hknown, -, htaken⟩ h hthread
      hpre hperform ⟨hknown', -, -⟩
    have hmem : frame ∈ frames thread := Guards.top_mem hthread
    have hkept : (∀ call, action ≠ .registry (.finish call)) →
        state'.registry = state.registry := perform_registry hperform
    by_cases hspans : ∃ act, action = .spans act
    · obtain ⟨act, rfl⟩ := hspans
      exact records_spans h hknown hthread hpre hperform hknown'.guards
    · have hspans' : ∀ act, action ≠ .spans act := fun act heq => hspans ⟨act, heq⟩
      have hstore := perform_spans hperform hspans'
      have hsame := next_same_spans frame action reply hspans'
      by_cases hformat : ∃ span, action = .format (some span)
      · obtain ⟨span, rfl⟩ := hformat
        obtain ⟨-, -, hfinished, hguard, hvisiting⟩ := hpre
        obtain ⟨hvisits, hvisiting⟩ := hvisiting span rfl
        have hregistry := hkept (by simp)
        have hrecorded := @perform_format env _ _ thread _ _ _ hperform
        rcases hvisiting with ⟨found, hfound, rfl⟩ | ⟨hnone, rfl, hinserted, hcall⟩
        · rcases hguard with hnone | ⟨hexclusive, recorded, hrecord⟩
          · rw [hnone] at hfound
            cases hfound
          · refine h.formatGuarded hknown htaken hthread hknown'.guards hstore hregistry hrecorded
              hfound hexclusive hvisits ?_ hfound hexclusive rfl rfl rfl
            rintro ⟨-, -, created, metadata, parent, hnew⟩
            change frame.call = _ at hnew
            rw [hrecord] at hnew
            cases hnew
        · exact h.formatCreating hknown htaken hthread hstore hregistry hrecorded
            ⟨hfinished, hinserted, hcall⟩ hnone hvisits hnone rfl rfl rfl rfl
      · have hformat' : ∀ span, action ≠ .format (some span) :=
          fun span heq => hformat ⟨span, heq⟩
        have hrecorded := perform_recorded hperform hformat'
        have hvisits := @next_visits frame action reply hspans' hformat'
        refine h.step hthread hrecorded (perform_issued hperform).ge ?_ ?_ ?_
        · intro spanId entry hentry
          rw [hstore] at hentry
          exact (h.entry spanId entry hentry).step hthread
            (storing_same hsame.guard hsame.exclusive hvisits _) (fun _ => hvisits)
            (recordedOn_same hrecorded _)
        · intro hnew
          rw [show (protocol env).next frame action reply = next frame action reply from rfl,
            (next_call action reply).instance_, hvisits]
          exact h.creating thread frame hmem (creating_before action reply hnew)
        · intro hunfinished found hfound
          exact h.taken thread frame hmem (unfinished_before action reply hunfinished) found
            (hsame.taken.symm.trans hfound)
  ret := by
    rintro state frames thread frame rest - h hthread hfinal -
    refine ⟨fun spanId entry hentry => ?_, h.creating.pop hthread, h.taken.pop hthread, h.issued⟩
    refine (h.entry spanId entry hentry).pop hthread fun hstoring => ?_
    have hguard := hstoring.guard
    rw [hfinal.guard] at hguard
    cases hguard
  call := by
    rintro state frames thread call prog state' ⟨hknown, -⟩ h - - hcall -
    obtain ⟨registry, -, hadmits, rfl, -⟩ := hknown.ledger.call_admits hcall
    refine ⟨fun spanId entry hentry => ?_, h.creating.push (fun _ => ?_) fun _ _ hvalue => hvalue,
      h.taken.push (fun _ _ hfound => by cases hfound) fun _ _ hvalue => hvalue, ?_⟩
    · refine (h.entry spanId entry hentry).push (fun hstoring => ?_) id fun _ => id
      cases hstoring.guard
    · change State.recordedOn _ state.registry.nextInstance = []
      rw [State.recordedOn, List.map_eq_nil_iff, List.filter_eq_nil_iff]
      intro record hrecord
      have hlt := h.issued record hrecord
      simp only [decide_eq_true_eq]
      omega
    · intro record hrecord
      exact (h.issued record hrecord).trans_le hadmits.issued

theorem records_new (env : Env) (nextSequenceId : Nat) :
    Records env (State.new nextSequenceId) fun _ => [] where
  entry := fun _ _ hentry => by cases hentry
  creating := fun _ _ hmem => by cases hmem
  taken := fun _ _ hmem => by cases hmem
  issued := fun _ hmem => by cases hmem

end Records

/-! ## The fields in the packets -/

section Shown

variable {env : Env} {state state' : State} {frames : Frames} {thread : ThreadId}
  {frame : Frame} {rest : List Frame} {span : Nat}

theorem Made.act {action : Act} {choice : Choice} {reply : action.Reply}
    (h : Made state frames span) (hthread : frames thread = frame :: rest)
    (hperform : perform env thread action choice state = some (reply, state')) :
    Made state' (Function.update frames thread (next frame action reply :: rest)) span := by
  refine ⟨?_, h.creating.step hthread (fun hnew => ?_) fun _ _ hvalue => hvalue⟩
  · rw [perform_issued hperform]
    exact h.issued
  · rw [(next_call action reply).instance_]
    exact h.creating thread frame (Guards.top_mem hthread) (creating_before action reply hnew)

theorem Made.call {call : Call} {registry : Registry} (h : Made state frames span)
    (hadmits : Ledger.Admits thread call state.registry registry) :
    Made { state.tick with registry := { registry with
        depth := Function.update registry.depth thread (registry.depth thread + 1) } }
      (Function.update frames thread (enter thread call state :: frames thread)) span := by
  refine ⟨h.issued.trans_le hadmits.issued, h.creating.push (fun _ => ?_) fun _ _ hvalue => hvalue⟩
  have hlt := h.issued
  change state.registry.nextInstance ≠ span
  omega

theorem Over.act {action : Act} {choice : Choice} {reply : action.Reply}
    (h : Over state frames span) (hknown : Known env state frames)
    (hthread : frames thread = frame :: rest) (hpre : pre env frame action)
    (hperform : perform env thread action choice state = some (reply, state')) :
    Over state' (Function.update frames thread (next frame action reply :: rest)) span := by
  have hmem : frame ∈ frames thread := Guards.top_mem hthread
  refine ⟨h.toMade.act hthread hperform, fun spanId entry hentry => ?_⟩
  cases entries_act hknown.guards hthread hpre hperform with
  | same heq => exact h.entry spanId entry (heq ▸ hentry)
  | inserted other metadata parent data tier hcall hinsert hnone heq =>
      rw [heq, Function.update_apply] at hentry
      split at hentry
      · cases hentry
        obtain ⟨-, -, -, hinserted, hfinished, -⟩ := hinsert
        exact h.creating thread frame hmem ⟨hfinished, hinserted, other, metadata, parent, hcall⟩
      · exact h.entry spanId entry hentry
  | replaced found next hguard hold hsame heq =>
      rw [heq, Function.update_apply] at hentry
      split at hentry
      · cases hentry
        rw [hsame.instance_]
        exact h.entry _ _ hold
      · exact h.entry spanId entry hentry
  | taken other hcall hfinished htook heq =>
      rw [heq, Function.update_apply] at hentry
      split at hentry
      · cases hentry
      · exact h.entry spanId entry hentry

/-- Nothing is recorded on a span that is over. -/
theorem Over.recorded {action : Act} {choice : Choice} {reply : action.Reply}
    (h : Over state frames span) (hknown : Known env state frames)
    (hthread : frames thread = frame :: rest) (hpre : pre env frame action)
    (hperform : perform env thread action choice state = some (reply, state')) :
    state'.recordedOn span = state.recordedOn span := by
  have hmem : frame ∈ frames thread := Guards.top_mem hthread
  by_cases hformat : ∃ other, action = .format (some other)
  · obtain ⟨other, rfl⟩ := hformat
    rw [recordedOn_format (perform_format hperform), if_neg, List.append_nil]
    obtain ⟨-, -, hfinished, -, hvisiting⟩ := hpre
    obtain ⟨-, hvisiting⟩ := hvisiting other rfl
    rcases hvisiting with ⟨found, hfound, rfl⟩ | ⟨-, rfl, hinserted, hcall⟩
    · exact h.entry _ _ (hknown.guards.entry thread frame hmem found hfound)
    · exact h.creating thread frame hmem ⟨hfinished, hinserted, hcall⟩
  · exact recordedOn_same (perform_recorded hperform fun other heq => hformat ⟨other, heq⟩) span

theorem Known.made (h : Known env state frames) {spanId : SpanId} {entry : Entry}
    (hentry : state.spans.entries spanId = some entry) : Made state frames entry.instance_ := by
  constructor
  · obtain ⟨span, hspan, hinstance⟩ := h.guards.registered spanId entry hentry
    rw [← hinstance]
    exact h.ledger.issued _ span hspan
  · intro other value hvalue hnew
    exact (h.creating_apart hvalue hnew hentry).symm

theorem Taken.made (h : Taken env state frames) (hknown : Known env state frames)
    (hmem : frame ∈ frames thread) (hunfinished : frame.finished = false) {found : Found}
    (hfound : frame.taken = some found) : Made state frames found.entry.instance_ := by
  constructor
  · obtain ⟨-, -, -, ⟨span, hspan, hinstance⟩, -⟩ := h thread frame hmem hunfinished found hfound
    rw [← hinstance]
    exact hknown.ledger.issued _ span hspan
  · intro other value hvalue hnew
    exact (h.creating_apart hknown hvalue hnew hmem hunfinished hfound).symm

/-- What the packets of spans show was recorded on them before, and nothing is recorded after
the last of them. -/
structure Shown (env : Env) (state : State) (frames : Frames) : Prop where
  recordedAt : ∀ record ∈ state.recorded, record.2.1 < state.time
  writtenAt : ∀ packet ∈ state.trace.packets, packet.writtenAt < state.time
  fields : ∀ packet ∈ state.trace.packets, ∀ span, packet.span = some span →
    packet.content.ShowsFields
      (overlay env.memory (state.recordedBefore span packet.writtenAt))
  last : ∀ packet ∈ state.trace.packets, ∀ span, packet.span = some span →
    packet.content.last = true →
      Over state frames span ∧
        state.recordedBefore span packet.writtenAt = state.recordedOn span

theorem shows_recorded {calledAt : Nat} {content : Content} (hknown : Known env state frames)
    (hrecords : Records env state frames) (htaken : Taken env state frames)
    (hthread : frames thread = frame :: rest)
    (hpre : pre env frame (.sequence (.write (some span) calledAt content))) :
    content.ShowsFields (overlay env.memory (state.recordedOn span)) ∧
      (content.last = true → Over state frames span) := by
  have hmem : frame ∈ frames thread := Guards.top_mem hthread
  have hshown : ∀ found : Found, content.Shows found.data →
      found.data.fields = overlay env.memory (state.recordedOn found.entry.instance_) →
      content.ShowsFields (overlay env.memory (state.recordedOn found.entry.instance_)) := by
    intro found hshows hfields
    rw [← hfields]
    cases content with
    | body body =>
        cases body with
        | threadBegin => exact hshows.1
        | lifetimeEnd => exact hshows
        | _ => trivial
    | _ => trivial
  obtain ⟨-, -, -, hwrites⟩ := hpre
  cases hwrites with
  | begin spanId metadata metadata' parent uuid visits hcall hguard hsource hcontent =>
      rw [hcontent]
      exact ⟨trivial, fun hlast => by cases hlast⟩
  | slice found hguard hexclusive hsource hsent hasked hlast hvisits hshows hflows =>
      subst hsource
      refine ⟨hshown found hshows ?_, fun hvalue => ?_⟩
      · have hentry := hknown.guards.entry thread frame hmem found hguard
        obtain ⟨-, hwhole⟩ := (hrecords.entry found.spanId found.entry hentry).own
          Frame.Storing.guard hknown.guards hthread hguard hexclusive
        exact hwhole fun hstoring => hstoring.visits hvisits
      · rw [hlast] at hvalue
        cases hvalue
  | lifetimeEnd found hfound hguard hunfinished hsource hsent hshows hflows =>
      subst hsource
      refine ⟨hshown found hshows (hrecords.taken thread frame hmem hunfinished found hfound),
        fun _ => ?_⟩
      refine ⟨htaken.made hknown hmem hunfinished hfound, fun spanId entry hentry => ?_⟩
      exact (htaken.apart hknown hmem hunfinished hfound hentry).symm

theorem shown_kept (env : Env) :
    KeepsInv env AnyCall
      (fun state frames => Known env state frames ∧ (Excuses env state frames ∧
        Taken env state frames) ∧ Records env state frames)
      (Shown env) where
  act := by
    rintro state frames thread frame rest action choice reply state'
      ⟨hknown, ⟨-, htaken⟩, hrecords⟩ h hthread hpre hperform -
    have htime := perform_time hperform
    have hquiet : (∀ span, action ≠ .format (some span)) → state'.recorded = state.recorded :=
      perform_recorded hperform
    have hbefore : ∀ span time, time ≤ state.time →
        state'.recordedBefore span time = state.recordedBefore span time :=
      fun _ _ => recordedBefore_kept hperform
    have hkept : ∀ packet ∈ state.trace.packets, ∀ span, packet.span = some span →
        packet.content.ShowsFields
          (overlay env.memory (state'.recordedBefore span packet.writtenAt)) ∧
        (packet.content.last = true →
          Over state' (Function.update frames thread (next frame action reply :: rest)) span ∧
            state'.recordedBefore span packet.writtenAt = state'.recordedOn span) := by
      intro packet hmem span hspan
      rw [hbefore _ _ (h.writtenAt packet hmem).le]
      refine ⟨h.fields packet hmem span hspan, fun hlast => ?_⟩
      obtain ⟨hover, heq⟩ := h.last packet hmem span hspan hlast
      refine ⟨hover.act hknown hthread hpre hperform, ?_⟩
      rw [hover.recorded hknown hthread hpre hperform, heq]
    have hnew : ∀ packet ∈ state'.trace.packets, packet.writtenAt < state'.time ∧
        ∀ span, packet.span = some span →
        packet.content.ShowsFields
          (overlay env.memory (state'.recordedBefore span packet.writtenAt)) ∧
        (packet.content.last = true →
          Over state' (Function.update frames thread (next frame action reply :: rest)) span ∧
            state'.recordedBefore span packet.writtenAt = state'.recordedOn span) := by
      intro packet hmem
      by_cases hwrite : ∃ span calledAt content, action = .sequence (.write span calledAt content)
      · obtain ⟨written, calledAt, content, rfl⟩ := hwrite
        obtain ⟨new, hpackets, -, hnewSpan, rfl, hwritten⟩ := perform_write hperform
        rw [hpackets] at hmem
        rcases List.mem_append.1 hmem with hold | hlast
        · exact ⟨by have hlt := h.writtenAt packet hold; omega, hkept packet hold⟩
        · rw [List.mem_singleton] at hlast
          subst hlast
          refine ⟨by omega, fun span hspan => ?_⟩
          rw [hspan] at hnewSpan
          subst hnewSpan
          obtain ⟨hfields, hover⟩ := shows_recorded hknown hrecords htaken hthread hpre
          have hall : state'.recordedBefore span packet.writtenAt = state.recordedOn span := by
            rw [hbefore _ _ hwritten.le, hwritten, recordedBefore_all h.recordedAt]
          have hrecorded : state'.recordedOn span = state.recordedOn span :=
            recordedOn_same (hquiet (by simp)) span
          rw [hall, hrecorded]
          exact ⟨hfields, fun hlast => ⟨(hover hlast).act hknown hthread hpre hperform, rfl⟩⟩
      · rw [perform_packets hperform
          fun span calledAt content heq => hwrite ⟨span, calledAt, content, heq⟩] at hmem
        exact ⟨by have hlt := h.writtenAt packet hmem; omega, hkept packet hmem⟩
    refine ⟨fun record hmem => ?_, fun packet hmem => (hnew packet hmem).1,
      fun packet hmem span hspan => ((hnew packet hmem).2 span hspan).1,
      fun packet hmem span hspan => ((hnew packet hmem).2 span hspan).2⟩
    by_cases hformat : ∃ span, action = .format (some span)
    · obtain ⟨span, rfl⟩ := hformat
      rw [@perform_format env _ _ thread _ _ _ hperform] at hmem
      rcases List.mem_append.1 hmem with hold | hlast
      · have hlt := h.recordedAt record hold
        omega
      · rw [List.mem_singleton] at hlast
        subst hlast
        change state.time < state'.time
        omega
    · rw [hquiet fun span heq => hformat ⟨span, heq⟩] at hmem
      have hlt := h.recordedAt record hmem
      omega
  ret := by
    rintro state frames thread frame rest - h hthread - -
    refine ⟨h.recordedAt, h.writtenAt, h.fields, fun packet hmem span hspan hlast => ?_⟩
    obtain ⟨hover, heq⟩ := h.last packet hmem span hspan hlast
    exact ⟨⟨⟨hover.issued, hover.creating.pop hthread⟩, hover.entry⟩, heq⟩
  call := by
    rintro state frames thread call prog state' ⟨hknown, -⟩ h - - hcall -
    obtain ⟨registry, -, hadmits, rfl, -⟩ := hknown.ledger.call_admits hcall
    refine ⟨fun record hmem => Nat.lt_succ_of_lt (h.recordedAt record hmem),
      fun packet hmem => Nat.lt_succ_of_lt (h.writtenAt packet hmem), h.fields,
      fun packet hmem span hspan hlast => ?_⟩
    obtain ⟨hover, heq⟩ := h.last packet hmem span hspan hlast
    exact ⟨⟨hover.toMade.call hadmits, hover.entry⟩, heq⟩

theorem shown_new (env : Env) (nextSequenceId : Nat) :
    Shown env (State.new nextSequenceId) fun _ => [] where
  recordedAt := fun _ hmem => by cases hmem
  writtenAt := fun _ hmem => by cases hmem
  fields := fun _ hmem => by cases hmem
  last := fun _ hmem => by cases hmem

end Shown

end TracingPerfetto.Layer
