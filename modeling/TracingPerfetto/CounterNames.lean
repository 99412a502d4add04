import TracingPerfetto.CounterTracks
import TracingPerfetto.TrackDescriptors

/-!
The tracks of the counters over the runs of the layer. A track goes with the address of a
field's name, on every thread; so it goes with the name itself only as far as equal names
are at one address.
-/

namespace TracingPerfetto.Layer

open TracingPerfetto.Wire (Bytes Field messages varints)
open TracingPerfetto.Proto TracingPerfetto.Schema TracingPerfetto.Emit
open TracingPerfetto.Runtime TracingPerfetto.Sequence TracingPerfetto.TrackEvents
open TracingPerfetto.Interning TracingPerfetto.SequenceRuns
open TracingPerfetto.Counters TracingPerfetto.Threads
open TracingPerfetto.CounterTracks (Sample Sampled VisitSampled integerOf doubleOf)
open TracingPerfetto.SpanStore (SpanId)

/-! ## The names of the samples -/

theorem integerOf_name {entry : StaticStr × FieldVisit} {field : StaticStr × Nat}
    (h : integerOf entry = some field) : field.1 = entry.1 ∧ isNumeric entry.2 = true := by
  obtain ⟨name, visit⟩ := entry
  cases visit with
  | i64 | u64 =>
      cases h
      exact ⟨rfl, rfl⟩
  | _ => cases h

theorem doubleOf_name {entry : StaticStr × FieldVisit} {field : StaticStr × Nat}
    (h : doubleOf entry = some field) : field.1 = entry.1 ∧ isNumeric entry.2 = true := by
  obtain ⟨name, visit⟩ := entry
  cases visit with
  | f64 =>
      cases h
      exact ⟨rfl, rfl⟩
  | _ => cases h

section Samples

variable (memory : StaticMemory) (bases : IdBases)

/-- Samples are of counter fields. -/
def AllCounters (samples : List Sample) : Prop :=
  ∀ sample ∈ samples, isCounterName memory sample.name = true

theorem recordVisit_counters (visitor : EventVisitor) (name : StaticStr) (visit : FieldVisit)
    (tables : InternTables) :
    ∃ integers doubles, VisitSampled bases tables.counterTrackCache [(name, visit)]
      visitor.counterCount
      (visitor.recordVisit memory bases name visit tables).1.2.counterCount
      (visitor.recordVisit memory bases name visit tables).1.1 integers doubles ∧
      AllCounters memory (integers ++ doubles) := by
  obtain ⟨integers, doubles, hsampled⟩ :=
    CounterTracks.recordVisit_sampled bases memory visitor name visit tables
  refine ⟨integers, doubles, hsampled, fun sample hmem => ?_⟩
  cases hcounter : isCounter memory name visit with
  | false =>
      -- the visitor has counted nothing
      have hcount := hsampled.count
      rw [recordVisit_other memory bases visitor name visit tables hcounter] at hcount
      have hpositive := List.length_pos_of_mem hmem
      rw [List.length_append] at hpositive
      omega
  | true =>
      have hname : sample.name = name := by
        rcases List.mem_append.1 hmem with hinteger | hdouble
        · obtain ⟨entry, hentry, hfield⟩ := List.mem_filterMap.1
            (hsampled.integersOf.subset (List.mem_map_of_mem hinteger))
          rw [List.mem_singleton.1 hentry] at hfield
          exact (integerOf_name hfield).1
        · obtain ⟨entry, hentry, hfield⟩ := List.mem_filterMap.1
            (hsampled.doublesOf.subset (List.mem_map_of_mem hdouble))
          rw [List.mem_singleton.1 hentry] at hfield
          exact (doubleOf_name hfield).1
      rw [hname]
      exact (Bool.and_eq_true _ _ ▸ hcounter).2

/-- What all visits of an event sample. -/
structure RecordSampled (cache : PtrMap Nat) (visits : Visits) (calls : List Op)
    (integers doubles : List Sample) : Prop where
  sampled : Sampled bases (Op.fields calls) integers doubles
  integersOf : (integers.map Sample.field).Sublist (visits.filterMap integerOf)
  doublesOf : (doubles.map Sample.field).Sublist (visits.filterMap doubleOf)
  cached : CounterTracks.Cached cache (integers ++ doubles)
  counters : AllCounters memory (integers ++ doubles)

theorem record_counters (visitor : EventVisitor) (visits : Visits) (tables : InternTables) :
    ∃ integers doubles, RecordSampled memory bases tables.counterTrackCache visits
      (visitor.record memory bases visits tables).1.1 integers doubles := by
  induction visits generalizing visitor tables with
  | nil =>
      exact ⟨[], [], ⟨rfl, rfl, rfl, rfl⟩, List.nil_sublist _, List.nil_sublist _,
        CounterTracks.cached_nil _, fun _ hmem => by cases hmem⟩
  | cons first visits ih =>
      obtain ⟨name, visit⟩ := first
      obtain ⟨integers, doubles, hfirst, hcounters⟩ :=
        recordVisit_counters memory bases visitor name visit tables
      have hcached := hfirst.integersCached.append hfirst.doublesCached
      have happend : (name, visit) :: visits = [(name, visit)] ++ visits := rfl
      rw [record_cons]
      by_cases hpanics : visitor.visitPanics memory name visit = true
      · have hone : [(name, visit)].Sublist ((name, visit) :: visits) :=
          List.Sublist.cons_cons _ (List.nil_sublist visits)
        rw [if_pos hpanics, List.append_nil]
        exact ⟨integers, doubles, hfirst.sampled, hfirst.integersOf.trans (hone.filterMap _),
          hfirst.doublesOf.trans (hone.filterMap _), hcached, hcounters⟩
      · rw [if_neg hpanics]
        obtain ⟨integers', doubles', hrest⟩ := ih
          (visitor.recordVisit memory bases name visit tables).1.2
          (visitor.recordVisit memory bases name visit tables).2
        rw [(recordVisit_visited memory bases visitor name visit tables).cache] at hrest
        have hmem : ∀ sample ∈ (integers ++ integers') ++ (doubles ++ doubles'),
            sample ∈ integers ++ doubles ∨ sample ∈ integers' ++ doubles' := by
          intro sample hsample
          simp only [List.mem_append] at hsample ⊢
          tauto
        refine ⟨integers ++ integers', doubles ++ doubles', ?_, ?_, ?_, fun sample hsample => ?_,
          fun sample hsample => ?_⟩
        · rw [Op.fields_append]
          exact hfirst.sampled.append hrest.sampled
        · rw [happend, List.map_append, List.filterMap_append]
          exact hfirst.integersOf.append hrest.integersOf
        · rw [happend, List.map_append, List.filterMap_append]
          exact hfirst.doublesOf.append hrest.doublesOf
        · exact (hmem sample hsample).elim (hcached sample) (hrest.cached sample)
        · exact (hmem sample hsample).elim (hcounters sample) (hrest.counters sample)

/-- The samples of an event: of its counter fields, each on the track that goes with the
field's name. -/
structure CountsOn (on : StaticStr → Option Nat) (values : Visits) (event : List Field)
    (integers doubles : List Sample) : Prop where
  sampled : Sampled bases event integers doubles
  integersOf : (integers.map Sample.field).Sublist (values.filterMap integerOf)
  doublesOf : (doubles.map Sample.field).Sublist (values.filterMap doubleOf)
  counters : AllCounters memory (integers ++ doubles)
  on : ∀ sample ∈ integers ++ doubles, on sample.name = some sample.uuid

theorem CountsOn.name_mem {on : StaticStr → Option Nat} {values : Visits} {event : List Field}
    {integers doubles : List Sample} (h : CountsOn memory bases on values event integers doubles)
    {sample : Sample} (hmem : sample ∈ integers ++ doubles) :
    sample.name ∈ (counterVisits memory values).map Prod.fst := by
  have hname := h.counters sample hmem
  have hvisit : ∃ entry ∈ values, sample.name = entry.1 ∧ isNumeric entry.2 = true := by
    rcases List.mem_append.1 hmem with hinteger | hdouble
    · obtain ⟨entry, hentry, hfield⟩ := List.mem_filterMap.1
        (h.integersOf.subset (List.mem_map_of_mem hinteger))
      exact ⟨entry, hentry, integerOf_name hfield⟩
    · obtain ⟨entry, hentry, hfield⟩ := List.mem_filterMap.1
        (h.doublesOf.subset (List.mem_map_of_mem hdouble))
      exact ⟨entry, hentry, doubleOf_name hfield⟩
  obtain ⟨entry, hentry, heq, hnumeric⟩ := hvisit
  refine List.mem_map.2 ⟨entry, List.mem_filter.2 ⟨hentry, ?_⟩, heq.symm⟩
  rw [isCounter, hnumeric, ← heq, hname]
  rfl

theorem instant_counts (config : Config) (uuid : Option Nat) (metadata : Metadata)
    (values : Visits) (tables : InternTables) :
    ∃ event integers doubles,
      messages TracePacket.trackEvent
        (Op.fields ((Body.instant uuid metadata values).encode memory config bases tables).1) =
          [event] ∧
      CountsOn memory bases (fun name => tables.counterTrackCache name.ptr) values event integers
        doubles := by
  obtain ⟨integers, doubles, hrecord⟩ := record_counters memory bases
    (eventVisitor memory config metadata) values (writeMetadata memory config metadata tables).2
  have hhead : Sampled bases (Op.fields ([Emit.instant] ++
      (uuid.map fun uuid => trackUuid (bases.uuid uuid)).toList ++
        (writeMetadata memory config metadata tables).1)) [] [] := by
    have htrack : Sampled bases (Op.fields ([Emit.instant] ++
        (uuid.map fun uuid => trackUuid (bases.uuid uuid)).toList)) [] [] := by
      cases uuid <;> exact ⟨rfl, rfl, rfl, rfl⟩
    rw [Op.fields_append]
    exact htrack.append (CounterTracks.writeMetadata_quiet metadata tables)
  have hname : ∀ (condition : Bool) (named : InternTables), Sampled bases
      (Op.fields (onlyIf condition (do
        let name ← InternTables.internEventName memory metadata.name
        pure [nameIid name]) named).1) [] [] := by
    intro condition named
    cases condition <;> exact ⟨rfl, rfl, rfl, rfl⟩
  refine ⟨_, integers, doubles, rfl, ?_, hrecord.integersOf, hrecord.doublesOf, hrecord.counters,
    ?_⟩
  · change Sampled bases (Op.fields (_ ++ (EventVisitor.record memory bases
      (eventVisitor memory config metadata) values
        (writeMetadata memory config metadata tables).2).1.1 ++ _)) integers doubles
    rw [Op.fields_append, Op.fields_append]
    exact (hhead.append hrecord.sampled).quiet (hname _ _)
  · have hcached := hrecord.cached
    rwa [writeMetadata_cache] at hcached

end Samples

/-! ## What a write does to the cache -/

section Writes

variable {env : Env} {state state' : State} {thread : ThreadId} {choice : Choice}
  {answers : Answers} {content : Content} {writer writer' : SequenceWriter}

theorem content_cache (tables : InternTables) :
    (content.encode env answers writer tables).2.counterTrackCache = tables.counterTrackCache := by
  cases content with
  | body body => exact CounterTracks.encode_cache body tables
  | _ => rfl

theorem perform_body {span : Option Nat} {calledAt : Nat} {content : Content} {reply : Unit}
    (h : perform env thread (.sequence (.write span calledAt content)) choice state =
      some (reply, state')) :
    ∃ context writer packet tables, state.contexts.live thread = some context ∧
      state'.contexts = state.contexts.set thread (.live { context with writer := writer }) ∧
      writer.sequence.tables.counterTrackCache =
        context.writer.sequence.tables.counterTrackCache ∧
      tables.counterTrackCache = context.writer.sequence.tables.counterTrackCache ∧
      state'.trace.packets = state.trace.packets ++ [packet] ∧ packet.content = content ∧
      packet.written.body = (content.encode env choice.answers context.writer tables).1 ∧
      packet.Finished env := by
  obtain ⟨context, writer, timestamp, written, hlive, -, hwrite, hlast, hcontexts, hpackets⟩ :=
    perform_content h
  have hfinishes := writeContent_finishes hwrite hlast
  obtain ⟨packet, hwrote⟩ := writeContent_wrote hwrite
  rw [hwrote.written, List.getLast?_concat, Option.some.injEq] at hlast
  subst hlast
  refine ⟨context, writer, _, _, hlive, hcontexts, ?_, ?_, hpackets, rfl, hwrote.body,
    ⟨_, _, _, hfinishes⟩⟩
  · rw [wrote_cache hwrote, content_cache, preparedFor_tables]
  · rw [preparedFor_tables]

end Writes

/-! ## Tracks by addresses -/

/-- The counter fields that a packet describes, or of which its event has numbers. -/
def Emitted.counterNames (memory : StaticMemory) (packet : Emitted) : List StaticStr :=
  match packet.content with
  | .body (.counterDescriptor _ name _) => [name]
  | .body (.instant _ _ values) => (counterVisits memory values).map Prod.fst
  | _ => []

theorem counterName_append (rest : Bytes) : counterName (text "counter." ++ rest) = rest := by
  rw [counterName, if_pos (by simp), List.drop_left]

/-- The counters in a packet are on the tracks that go with their names. -/
structure Emitted.Counts (env : Env) (on : StaticStr → Option Nat) (packet : Emitted) :
    Prop where
  described : ∀ uuid name process,
    packet.content = .body (.counterDescriptor uuid name process) → on name = some uuid ∧
      ∃ shown, packet.kind =
          some (.counterTrack (env.bases.uuid uuid) shown (env.bases.uuid process)) ∧
        ∀ rest, env.memory.text name = text "counter." ++ rest → shown = rest
  sampled : ∀ uuid metadata values, packet.content = .body (.instant uuid metadata values) →
    ∃ event integers doubles,
      messages TracePacket.trackEvent (Op.fields packet.written.body) = [event] ∧
      CountsOn env.memory env.bases on values event integers doubles

theorem Emitted.Counts.mono {env : Env} {on on' : StaticStr → Option Nat} {packet : Emitted}
    (h : packet.Counts env on) (hon : ∀ name ∈ packet.counterNames env.memory, ∀ uuid,
      on name = some uuid → on' name = some uuid) : packet.Counts env on' where
  described := by
    intro uuid name process hcontent
    obtain ⟨hname, hshown⟩ := h.described uuid name process hcontent
    refine ⟨hon name ?_ uuid hname, hshown⟩
    rw [Emitted.counterNames, hcontent]
    exact List.mem_singleton_self _
  sampled := by
    intro uuid metadata values hcontent
    obtain ⟨event, integers, doubles, hevent, hcounts⟩ := h.sampled uuid metadata values hcontent
    refine ⟨event, integers, doubles, hevent, hcounts.sampled, hcounts.integersOf,
      hcounts.doublesOf, hcounts.counters, fun sample hmem =>
        hon sample.name ?_ _ (hcounts.on sample hmem)⟩
    rw [Emitted.counterNames, hcontent]
    exact hcounts.name_mem env.memory env.bases hmem

/-- Each track goes with one address, for the layer, the caches and the packets alike. -/
structure Counted (env : Env) (state : State) (frames : Frames) : Prop where
  below : ∀ ptr uuid, state.shared.counterTracks ptr = some uuid → uuid < state.shared.nextUuid
  injective : ∀ ptr other uuid, state.shared.counterTracks ptr = some uuid →
    state.shared.counterTracks other = some uuid → ptr = other
  cached : ∀ thread context, state.contexts.live thread = some context → ∀ ptr uuid,
    context.writer.sequence.tables.counterTrackCache ptr = some uuid →
      state.shared.counterTracks ptr = some uuid
  frames : Every (fun _ frame => ∀ ptr uuid, frame.counter = some (ptr, uuid) →
    state.shared.counterTracks ptr = some uuid) frames
  packets : ∀ packet ∈ state.trace.packets,
    packet.Counts env fun name => state.shared.counterTracks name.ptr

section Counted

variable {env : Env} {state state' : State} {frames : Frames} {thread : ThreadId}
  {frame : Frame} {rest : List Frame} {choice : Choice}

theorem counterTracks_after {action : Act} {reply : action.Reply}
    (h : perform env thread action choice state = some (reply, state')) :
    state'.shared.counterTracks = state.shared.counterTracks ∨
      ∃ ptr, action = .shared (.counterTrackUuid ptr) ∧ state.shared.counterTracks ptr = none ∧
        state'.shared.counterTracks =
          state.shared.counterTracks.insert ptr state.shared.nextUuid ∧
        state'.shared.nextUuid = state.shared.nextUuid + 1 := by
  by_cases hshared : ∃ act, action = .shared act
  · obtain ⟨act, rfl⟩ := hshared
    simp only [perform, Option.some.injEq, Prod.mk.injEq] at h
    obtain ⟨-, rfl⟩ := h
    cases act with
    | counterTrackUuid ptr =>
        cases hptr : state.shared.counterTracks ptr with
        | some known =>
            left
            simp only [SharedAct.perform, hptr]
        | none =>
            right
            refine ⟨ptr, rfl, hptr, ?_, ?_⟩
            · simp only [SharedAct.perform, hptr]
            · simp only [SharedAct.perform, hptr]
    | processTrackUuid =>
        left
        simp only [SharedAct.perform]
        split <;> rfl
    | _ => exact .inl rfl
  · exact .inl (shared_same h fun act heq => hshared ⟨act, heq⟩).2.2.1

theorem counterTracks_reply {ptr : Nat} {reply : Nat}
    (h : perform env thread (.shared (.counterTrackUuid ptr)) choice state =
      some (reply, state')) : state'.shared.counterTracks ptr = some reply := by
  simp only [perform, SharedAct.perform, Option.some.injEq, Prod.mk.injEq] at h
  obtain ⟨rfl, rfl⟩ := h
  cases hptr : state.shared.counterTracks ptr with
  | some known => exact hptr
  | none => exact if_pos rfl

theorem counterTracks_kept {action : Act} {reply : action.Reply}
    (h : perform env thread action choice state = some (reply, state')) {ptr uuid : Nat}
    (hptr : state.shared.counterTracks ptr = some uuid) :
    state'.shared.counterTracks ptr = some uuid := by
  rcases counterTracks_after h with hsame | ⟨key, -, hnone, hinsert, -⟩
  · rw [hsame]
    exact hptr
  · have hne : ptr ≠ key := by
      rintro rfl
      rw [hptr] at hnone
      cases hnone
    rw [hinsert, PtrMap.insert, if_neg hne]
    exact hptr

theorem next_counter {action : Act} {reply : action.Reply}
    (haction : ∀ ptr, action ≠ .shared (.counterTrackUuid ptr)) :
    (next frame action reply).counter = frame.counter := by
  cases action with
  | shared act =>
      cases act with
      | counterTrackUuid ptr => exact absurd rfl (haction ptr)
      | _ => rfl
  | pools act => cases act <;> rfl
  | spans act =>
      cases act with
      | take => cases reply <;> rfl
      | _ => rfl
  | context act =>
      cases act with
      | lookup | cachedTrack | evict | releaseLocal => cases reply <;> rfl
      | _ => rfl
  | sequence act =>
      cases act with
      | write span calledAt content =>
          cases content with
          | body body => cases body <;> rfl
          | _ => rfl
      | _ => rfl
  | registry act => cases act <;> rfl
  | format => rfl

theorem Counted.cached_after (h : Counted env state frames) (hmem : frame ∈ frames thread)
    {action : Act} {reply : action.Reply} (hpre : pre env frame action)
    (hperform : perform env thread action choice state = some (reply, state')) {other : ThreadId}
    {context' : ThreadCtx} (hlive : state'.contexts.live other = some context') {ptr uuid : Nat}
    (hcached : context'.writer.sequence.tables.counterTrackCache ptr = some uuid) :
    state.shared.counterTracks ptr = some uuid := by
  by_cases hwrite : ∃ span calledAt content, action = .sequence (.write span calledAt content)
  · obtain ⟨span, calledAt, content, rfl⟩ := hwrite
    obtain ⟨context, writer, -, -, hcontext, hcontexts, hcache, -⟩ := perform_body hperform
    rw [hcontexts] at hlive
    rcases live_set hlive with ⟨-, heq⟩ | ⟨-, hold⟩
    · cases heq
      rw [hcache] at hcached
      exact h.cached thread context hcontext ptr uuid hcached
    · exact h.cached other context' hold ptr uuid hcached
  · cases context_after hperform hlive with
    | kept context hold hwriter =>
        rw [hwriter] at hcached
        exact h.cached other context hold ptr uuid hcached
    | inserted sequenceId track anchor hother haction hnew =>
        subst hnew
        cases hcached
    | opened context hold hother haction hnew | marked context hold hother haction hnew =>
        subst hnew
        exact h.cached other context hold ptr uuid hcached
    | cached context hold hother name track haction hnew =>
        subst hnew haction
        obtain ⟨-, hcounter⟩ := hpre
        simp only [SequenceState.withTables, InternTables.cacheCounterTrack, PtrMap.insert]
          at hcached
        by_cases hptr : ptr = name.ptr
        · rw [if_pos hptr, Option.some.injEq] at hcached
          rw [hptr, ← hcached]
          exact h.frames thread frame hmem name.ptr track hcounter
        · rw [if_neg hptr] at hcached
          exact h.cached other context hold ptr uuid hcached
    | stamped context hold hother haction hnew =>
        subst hnew
        rw [ThreadCtx.timestamp] at hcached
        refine h.cached other context hold ptr uuid ?_
        cases htimestamp : context.writer.timestampNs with
        | none =>
            simp only [htimestamp] at hcached
            exact hcached
        | some raw =>
            simp only [htimestamp] at hcached
            exact hcached
    | wrote context hold hother span calledAt content haction =>
        exact absurd ⟨span, calledAt, content, haction⟩ hwrite

/-- What a packet says of counters is what the layer knows. -/
theorem Counted.packet (h : Counted env state frames) (hmem : frame ∈ frames thread)
    {span : Option Nat} {calledAt : Nat} {content : Content} {reply : Unit}
    (hpre : pre env frame (.sequence (.write span calledAt content)))
    (hperform : perform env thread (.sequence (.write span calledAt content)) choice state =
      some (reply, state')) :
    ∃ packet, state'.trace.packets = state.trace.packets ++ [packet] ∧
      packet.Counts env fun name => state.shared.counterTracks name.ptr := by
  obtain ⟨context, writer, packet, tables, hlive, -, -, htables, hpackets, rfl, hbody,
    hfinished⟩ := perform_body hperform
  obtain ⟨-, -, hemits, -⟩ := hpre
  refine ⟨packet, hpackets, fun uuid name process hcontent => ?_,
    fun uuid metadata values hcontent => ?_⟩
  · rw [hcontent] at hemits
    obtain ⟨-, hcounter, -⟩ := hemits
    refine ⟨h.frames thread frame hmem name.ptr uuid hcounter, _,
      hfinished.reads.body _ hcontent, fun rest htext => ?_⟩
    rw [htext, counterName_append]
  · obtain ⟨event, integers, doubles, hevent, hcounts⟩ :=
      instant_counts env.memory env.bases env.config uuid metadata values tables
    rw [hcontent] at hbody
    change packet.written.body = ((Body.instant uuid metadata values).encode env.memory env.config
      env.bases tables).1 at hbody
    rw [← hbody] at hevent
    refine ⟨event, integers, doubles, hevent, hcounts.sampled, hcounts.integersOf,
      hcounts.doublesOf, hcounts.counters, fun sample hsample => ?_⟩
    have hcached := hcounts.on sample hsample
    rw [htables] at hcached
    exact h.cached thread context hlive _ _ hcached

theorem counted_kept (env : Env) : KeepsInv env AnyCall (Known env) (Counted env) where
  act := by
    rintro state frames thread frame rest action choice reply state' - h hthread hpre hperform -
    change perform env thread action choice state = some (reply, state') at hperform
    change pre env frame action at hpre
    have hmem : frame ∈ frames thread := Guards.top_mem hthread
    have hnext := nextUuid_mono hperform
    have hkept : ∀ {ptr uuid}, state.shared.counterTracks ptr = some uuid →
        state'.shared.counterTracks ptr = some uuid := fun hptr => counterTracks_kept hperform hptr
    have hnew : ∀ ptr uuid, state'.shared.counterTracks ptr = some uuid →
        state.shared.counterTracks ptr = some uuid ∨ state.shared.counterTracks ptr = none ∧
          uuid = state.shared.nextUuid ∧ state'.shared.nextUuid = state.shared.nextUuid + 1 ∧
          action = .shared (.counterTrackUuid ptr) := by
      intro ptr uuid hptr
      rcases counterTracks_after hperform with hsame | ⟨key, haction, hnone, hinsert, hdrawn⟩
      · exact .inl (hsame ▸ hptr)
      · rw [hinsert, PtrMap.insert] at hptr
        by_cases hkey : ptr = key
        · rw [if_pos hkey, Option.some.injEq] at hptr
          exact .inr ⟨hkey ▸ hnone, hptr.symm, hdrawn, hkey ▸ haction⟩
        · rw [if_neg hkey] at hptr
          exact .inl hptr
    constructor
    · intro ptr uuid hptr
      rcases hnew ptr uuid hptr with hold | ⟨-, rfl, hdrawn, -⟩
      · exact (h.below ptr uuid hold).trans_le hnext
      · omega
    · intro ptr other uuid hptr hother
      rcases hnew ptr uuid hptr with hold | ⟨-, rfl, -, haction⟩
      · rcases hnew other uuid hother with hold' | ⟨-, rfl, -, -⟩
        · exact h.injective ptr other uuid hold hold'
        · exact absurd (h.below ptr _ hold) (Nat.lt_irrefl _)
      · rcases hnew other _ hother with hold' | ⟨-, -, -, haction'⟩
        · exact absurd (h.below other _ hold') (Nat.lt_irrefl _)
        · rw [haction] at haction'
          cases haction'
          rfl
    · exact fun other context' hlive ptr uuid hcached =>
        hkept (h.cached_after hmem hpre hperform hlive hcached)
    · refine h.frames.step hthread (fun ptr uuid hcounter => ?_)
        fun _ _ hvalue ptr uuid hcounter => hkept (hvalue ptr uuid hcounter)
      by_cases hlook : ∃ key, action = .shared (.counterTrackUuid key)
      · obtain ⟨key, rfl⟩ := hlook
        change some (key, reply) = some (ptr, uuid) at hcounter
        cases hcounter
        exact counterTracks_reply hperform
      · change (next frame action reply).counter = some (ptr, uuid) at hcounter
        rw [next_counter fun key heq => hlook ⟨key, heq⟩] at hcounter
        exact hkept (h.frames thread frame hmem ptr uuid hcounter)
    · intro packet hpacket
      have hcounts : packet.Counts env fun name => state.shared.counterTracks name.ptr := by
        by_cases hwrite : ∃ span calledAt content,
            action = .sequence (.write span calledAt content)
        · obtain ⟨span, calledAt, content, rfl⟩ := hwrite
          obtain ⟨written, hpackets, hcounts⟩ := h.packet hmem hpre hperform
          rw [hpackets] at hpacket
          rcases List.mem_append.1 hpacket with hold | hlast
          · exact h.packets packet hold
          · rw [List.mem_singleton] at hlast
            exact hlast ▸ hcounts
        · rw [perform_packets hperform
            fun span calledAt content heq => hwrite ⟨span, calledAt, content, heq⟩] at hpacket
          exact h.packets packet hpacket
      exact hcounts.mono fun name _ uuid hname => hkept hname
  ret := fun _ h hthread _ _ => ⟨h.below, h.injective, h.cached, h.frames.pop hthread, h.packets⟩
  call := by
    rintro state frames thread call prog state' hknown h - - hcall -
    obtain ⟨registry, -, -, rfl, -⟩ := hknown.ledger.call_admits hcall
    exact ⟨h.below, h.injective, h.cached,
      h.frames.push (fun _ _ hcounter => by cases hcounter) fun _ _ hvalue => hvalue, h.packets⟩

theorem counted_new (env : Env) (nextSequenceId : Nat) :
    Counted env (State.new nextSequenceId) fun _ => [] where
  below := fun _ _ hptr => by cases hptr
  injective := fun _ _ _ hptr => by cases hptr
  cached := fun _ _ hlive => by cases hlive
  frames := fun _ _ hmem => by cases hmem
  packets := fun _ hmem => by cases hmem

/-! ## Tracks by names -/

/-- The counter fields of a trace. -/
def counterNames (memory : StaticMemory) (packets : List Emitted) : List StaticStr :=
  packets.flatMap (Emitted.counterNames memory)

/-- A counter's name is one track, which has that name. -/
structure CountedByName (env : Env) (packets : List Emitted) (track : Bytes → Option Nat) :
    Prop where
  distinct : ∀ name other uuid uuid', track name = some uuid → track other = some uuid' →
    env.bases.uuid uuid = env.bases.uuid uuid' → name = other
  counts : ∀ packet ∈ packets, packet.Counts env fun name => track (env.memory.text name)

/-- The first counter field with a name. -/
def fieldNamed (memory : StaticMemory) (packets : List Emitted) (bytes : Bytes) :
    Option StaticStr :=
  (counterNames memory packets).find? fun name => memory.text name == bytes

theorem fieldNamed_some {memory : StaticMemory} {packets : List Emitted} {bytes : Bytes}
    {name : StaticStr} (h : fieldNamed memory packets bytes = some name) :
    name ∈ counterNames memory packets ∧ memory.text name = bytes :=
  ⟨List.mem_of_find?_eq_some h,
    eq_of_beq (List.find?_some (p := fun name => memory.text name == bytes) h)⟩

theorem fieldNamed_text {memory : StaticMemory} {packets : List Emitted} {name : StaticStr}
    (h : name ∈ counterNames memory packets) : ∃ other,
    fieldNamed memory packets (memory.text name) = some other ∧
      other ∈ counterNames memory packets ∧ memory.text other = memory.text name := by
  cases hfind : fieldNamed memory packets (memory.text name) with
  | none => exact absurd (beq_self_eq_true _) (List.find?_eq_none.1 hfind name h)
  | some other => exact ⟨other, rfl, fieldNamed_some hfind⟩

/-- Where the counter fields of a run are at one address exactly when they have one name,
the samples go by names: two are on one track exactly when their fields have one name, and
the descriptors of the track have that name. -/
theorem counters_by_name {nextSequenceId : Nat} {labels : List (system env).Label}
    {config : (system env).Config}
    (hrun : System.run labels (System.idle (State.new nextSequenceId)) = some config)
    (hdraws : config.state.shared.nextUuid < 2 ^ 64)
    (hnames : ∀ name ∈ counterNames env.memory config.state.trace.packets,
      ∀ other ∈ counterNames env.memory config.state.trace.packets,
        (name.ptr = other.ptr ↔ env.memory.text name = env.memory.text other)) :
    ∃ track, CountedByName env config.state.trace.packets track := by
  obtain ⟨frames, ⟨-, hcounted⟩, -⟩ := known_run (counted_kept env)
    (counted_new env nextSequenceId) (System.obeys_true labels _) hrun
  refine ⟨fun bytes => (fieldNamed env.memory config.state.trace.packets bytes).bind fun name =>
      config.state.shared.counterTracks name.ptr,
    fun bytes bytes' uuid uuid' htrack htrack' heq => ?_, fun packet hmem => ?_⟩
  · obtain ⟨name, hfind, hptr⟩ := Option.bind_eq_some_iff.1 htrack
    obtain ⟨other, hfind', hptr'⟩ := Option.bind_eq_some_iff.1 htrack'
    obtain ⟨hname, rfl⟩ := fieldNamed_some hfind
    obtain ⟨hother, rfl⟩ := fieldNamed_some hfind'
    have hlt := hcounted.below name.ptr uuid hptr
    have hlt' := hcounted.below other.ptr uuid' hptr'
    have hsame := drawValue_injective env.bases.uuidBase_lt (by omega) (by omega) heq
    subst hsame
    exact (hnames name hname other hother).1 (hcounted.injective _ _ _ hptr hptr')
  · refine (hcounted.packets packet hmem).mono fun name hname uuid hptr => ?_
    have hmember : name ∈ counterNames env.memory config.state.trace.packets :=
      List.mem_flatMap.2 ⟨packet, hmem, hname⟩
    obtain ⟨other, hfind, hother, htext⟩ := fieldNamed_text hmember
    rw [hfind, Option.bind_some, (hnames other hother name hmember).2 htext]
    exact hptr

end Counted

/-! ## Two events -/

/-- The values of an event, and the tracks of its integer samples. -/
def Emitted.samples (packet : Emitted) : Option (Visits × List (List Nat)) :=
  match packet.content with
  | .body (.instant _ _ values) =>
      some (values, (messages TracePacket.trackEvent (Op.fields packet.written.body)).map
        (varints TrackEvent.extraCounterTrackUuids))
  | _ => none

theorem Emitted.Counts.single {env : Env} {on : StaticStr → Option Nat} {packet : Emitted}
    (h : packet.Counts env on) {name : StaticStr} {visit : FieldVisit} {track : Nat}
    (hsamples : packet.samples = some ([(name, visit)], [[track]])) :
    ∃ uuid, on name = some uuid ∧ env.bases.uuid uuid = track := by
  obtain ⟨uuid, metadata, values, hcontent⟩ : ∃ uuid metadata values,
      packet.content = .body (.instant uuid metadata values) := by
    rw [Emitted.samples] at hsamples
    split at hsamples
    · exact ⟨_, _, _, ‹_›⟩
    · cases hsamples
  simp only [Emitted.samples, hcontent, Option.some.injEq, Prod.mk.injEq] at hsamples
  obtain ⟨rfl, htracks⟩ := hsamples
  obtain ⟨event, integers, doubles, hevent, hcounts⟩ := h.sampled uuid metadata _ hcontent
  rw [hevent, List.map_singleton, List.singleton_inj, hcounts.sampled.integerTracks] at htracks
  obtain ⟨sample, rfl, htrack⟩ := List.map_eq_singleton_iff.1 htracks
  have hmem : sample ∈ [sample] ++ doubles := List.mem_append_left _ (List.mem_singleton_self _)
  obtain ⟨entry, hentry, hname⟩ := List.mem_map.1 (hcounts.name_mem env.memory env.bases hmem)
  rw [List.mem_singleton.1 (List.mem_of_mem_filter hentry)] at hname
  have hon := hcounts.on sample hmem
  rw [← hname] at hon
  exact ⟨sample.uuid, hon, htrack⟩

/-- A memory with "counter.depth" at two addresses. -/
def twiceMemory : StaticMemory where
  byte := fun address => (text "pollcounter.depthcounter.depth").getD (address - 16) 0
  poll := (default : StaticMemory).poll
  poll_text := by decide +kernel

def countersEnv : Env :=
  { sampleEnv with config := Counters.sampleConfig, memory := twiceMemory }

def firstDepth : StaticStr := Counters.sampleName

def secondDepth : StaticStr := ⟨33, 13, by decide⟩

/-- Two threads have an event each, with one field. -/
def twoEvents (name other : StaticStr) : Option (system countersEnv).Config :=
  System.run
    ([(1, name, 29), (2, other, 27)].flatMap fun (thread, field, steps) =>
      .call thread (.event ⟨64, field, field, .info, none, none, [field]⟩ none) ::
        List.replicate steps (.act thread { sampleChoice with visits := [(field, .u64 5)] }) ++
          [.ret thread])
    (System.idle (State.new 65536))

/-- What is asked of a run. -/
def Samples (name other : StaticStr) (track otherTrack : Nat)
    (config : (system countersEnv).Config) : Prop :=
  config.state.shared.nextUuid < 8 ∧
    config.state.trace.packets.filterMap Emitted.samples =
      [([(name, .u64 5)], [[track]]), ([(other, .u64 5)], [[otherTrack]])] ∧
    counterNames countersEnv.memory config.state.trace.packets = [name, name, other, other]

instance (name other : StaticStr) (track otherTrack : Nat)
    (config : (system countersEnv).Config) :
    Decidable (Samples name other track otherTrack config) := by
  unfold Samples
  infer_instance

theorem twoEvents_together :
    ((twoEvents firstDepth firstDepth).map fun config =>
      decide (Samples firstDepth firstDepth 6 6 config)) = some true := by
  decide +kernel

theorem twoEvents_apart :
    ((twoEvents firstDepth secondDepth).map fun config =>
      decide (Samples firstDepth secondDepth 6 9 config)) = some true := by
  decide +kernel

theorem counters_by_name_together : ∃ config, twoEvents firstDepth firstDepth = some config ∧
    ∃ track, CountedByName countersEnv config.state.trace.packets track := by
  obtain ⟨config, hrun, hsamples⟩ := Option.map_eq_some_iff.1 twoEvents_together
  rw [decide_eq_true_eq] at hsamples
  obtain ⟨hdraws, -, hnames⟩ := hsamples
  have hone : ∀ name ∈ counterNames countersEnv.memory config.state.trace.packets,
      name = firstDepth := by
    rw [hnames]
    decide
  refine ⟨config, hrun, counters_by_name hrun (hdraws.trans (by decide)) fun name hname other
    hother => ?_⟩
  rw [hone name hname, hone other hother]
  exact ⟨fun _ => rfl, fun _ => rfl⟩

/-- Two events with fields of one name, at two addresses, are on two tracks. -/
theorem counters_apart : ∃ config, twoEvents firstDepth secondDepth = some config ∧
    ¬ ∃ track, CountedByName countersEnv config.state.trace.packets track := by
  obtain ⟨config, hrun, hsamples⟩ := Option.map_eq_some_iff.1 twoEvents_apart
  rw [decide_eq_true_eq] at hsamples
  obtain ⟨-, hevents, -⟩ := hsamples
  refine ⟨config, hrun, ?_⟩
  rintro ⟨track, -, hcounts⟩
  have hsingle : ∀ name uuid, ([(name, .u64 5)], [[uuid]]) ∈
      config.state.trace.packets.filterMap Emitted.samples →
      ∃ drawn, track (countersEnv.memory.text name) = some drawn ∧
        countersEnv.bases.uuid drawn = uuid := by
    intro name uuid hmem
    obtain ⟨packet, hpacket, hshown⟩ := List.mem_filterMap.1 hmem
    exact (hcounts packet hpacket).single hshown
  obtain ⟨drawn, htrack, huuid⟩ := hsingle firstDepth 6 (by simp [hevents])
  obtain ⟨drawn', htrack', huuid'⟩ := hsingle secondDepth 9 (by simp [hevents])
  have htext : countersEnv.memory.text firstDepth = countersEnv.memory.text secondDepth := by
    decide +kernel
  rw [htext, htrack'] at htrack
  cases htrack
  rw [huuid] at huuid'
  cases huuid'

end TracingPerfetto.Layer
