import Mathlib.Data.List.Nodup
import TracingPerfetto.ClockDrift
import TracingPerfetto.Counters

/-!
The tracks of counter samples. A sequence caches the track of every address of a
counter's name that it has announced, and the visitor samples cached names only.
-/

namespace TracingPerfetto.CounterTracks

open TracingPerfetto.Wire TracingPerfetto.Proto TracingPerfetto.Runtime
open TracingPerfetto.Schema TracingPerfetto.Emit TracingPerfetto.Sequence
open TracingPerfetto.Sequence.SequenceWriter TracingPerfetto.SequenceRuns
open TracingPerfetto.TrackEvents TracingPerfetto.Interning TracingPerfetto.Counters
open TracingPerfetto.ClockDrift

/-! ## The samples of an event -/

def fixed64s (id : Nat) (fields : List Field) : List Nat :=
  fields.filterMap fun
    | .fixed64 fieldId value => if fieldId = id then some value else none
    | _ => none

theorem fixed64s_append (id : Nat) (fields more : List Field) :
    fixed64s id (fields ++ more) = fixed64s id fields ++ fixed64s id more :=
  List.filterMap_append

/-- A value on the track of its field's name. -/
structure Sample where
  name : StaticStr
  uuid : Nat
  value : Nat
  deriving DecidableEq, Repr

/-- The extra counters of an event are these samples, uuid by uuid and value by
value. -/
structure Sampled (bases : IdBases) (event : List Field) (integers doubles : List Sample) :
    Prop where
  integerTracks : varints TrackEvent.extraCounterTrackUuids event =
    integers.map fun sample => bases.uuid sample.uuid
  integerValues : varints TrackEvent.extraCounterValues event = integers.map Sample.value
  doubleTracks : varints TrackEvent.extraDoubleCounterTrackUuids event =
    doubles.map fun sample => bases.uuid sample.uuid
  doubleValues : fixed64s TrackEvent.extraDoubleCounterValues event = doubles.map Sample.value

/-- A field as an integer sample. -/
def integerOf : StaticStr × FieldVisit → Option (StaticStr × Nat)
  | (name, .i64 value) => some (name, asU64 value)
  | (name, .u64 value) => some (name, asU64 value)
  | _ => none

/-- A field as a sample of floating point. -/
def doubleOf : StaticStr × FieldVisit → Option (StaticStr × Nat)
  | (name, .f64 bits) => some (name, bits)
  | _ => none

/-- What a sample shows of its field. -/
def Sample.field (sample : Sample) : StaticStr × Nat := (sample.name, sample.value)

def Cached (cache : PtrMap Nat) (samples : List Sample) : Prop :=
  ∀ sample ∈ samples, cache sample.name.ptr = some sample.uuid

theorem cached_nil (cache : PtrMap Nat) : Cached cache [] :=
  fun _ hsample => absurd hsample List.not_mem_nil

theorem cached_singleton {cache : PtrMap Nat} {sample : Sample}
    (h : cache sample.name.ptr = some sample.uuid) : Cached cache [sample] := by
  intro other hother
  rwa [List.mem_singleton.1 hother]

theorem Cached.append {cache : PtrMap Nat} {samples more : List Sample}
    (h : Cached cache samples) (hmore : Cached cache more) : Cached cache (samples ++ more) := by
  intro sample hsample
  rcases List.mem_append.1 hsample with hfirst | hsecond
  · exact h sample hfirst
  · exact hmore sample hsecond

section Event

variable {bases : IdBases} {event more : List Field}
variable {integers doubles integers' doubles' : List Sample}

theorem Sampled.append (h : Sampled bases event integers doubles)
    (hmore : Sampled bases more integers' doubles') :
    Sampled bases (event ++ more) (integers ++ integers') (doubles ++ doubles') := by
  constructor
  · rw [varints_append, h.integerTracks, hmore.integerTracks, List.map_append]
  · rw [varints_append, h.integerValues, hmore.integerValues, List.map_append]
  · rw [varints_append, h.doubleTracks, hmore.doubleTracks, List.map_append]
  · rw [fixed64s_append, h.doubleValues, hmore.doubleValues, List.map_append]

theorem Sampled.quiet (h : Sampled bases event integers doubles)
    (hmore : Sampled bases more [] []) : Sampled bases (event ++ more) integers doubles := by
  have happend := h.append hmore
  rwa [List.append_nil, List.append_nil] at happend

variable (memory : StaticMemory) (bases)

theorem annotated_quiet (nameIid : Nat) (visit : FieldVisit) :
    Sampled bases (Op.fields [visitedField nameIid visit]) [] [] := by
  obtain ⟨value, hannotated⟩ : ∃ value,
      visitedField nameIid visit = annotated nameIid value := by
    cases visit with
    | i128 value =>
        rw [visitedField]
        cases tryI64 value <;> exact ⟨_, rfl⟩
    | u128 value =>
        rw [visitedField]
        cases tryU64 value <;> exact ⟨_, rfl⟩
    | _ => exact ⟨_, rfl⟩
  rw [hannotated]
  exact ⟨rfl, rfl, rfl, rfl⟩

theorem annotate_quiet (write : Bool) (name : StaticStr) (visit : FieldVisit)
    (tables : InternTables) :
    Sampled bases (Op.fields (EventVisitor.annotate memory write name visit tables).1) [] [] := by
  cases write with
  | false => exact ⟨rfl, rfl, rfl, rfl⟩
  | true => exact annotated_quiet bases _ visit

/-- The samples that these visits make, in the visits' order. -/
structure VisitSampled (bases : IdBases) (cache : PtrMap Nat) (visits : Visits)
    (before after : Nat) (calls : List Op) (integers doubles : List Sample) : Prop where
  sampled : Sampled bases (Op.fields calls) integers doubles
  integersOf : (integers.map Sample.field).Sublist (visits.filterMap integerOf)
  doublesOf : (doubles.map Sample.field).Sublist (visits.filterMap doubleOf)
  integersCached : Cached cache integers
  doublesCached : Cached cache doubles
  count : after = before + integers.length + doubles.length
  bound : before ≤ maxExtraCounters → after ≤ maxExtraCounters

theorem visitSampled_quiet {cache : PtrMap Nat} {visits : Visits} {count : Nat}
    {calls : List Op} (h : Sampled bases (Op.fields calls) [] []) :
    VisitSampled bases cache visits count count calls [] [] :=
  ⟨h, List.nil_sublist _, List.nil_sublist _, cached_nil cache, cached_nil cache, rfl, id⟩

theorem recordNumber_sampled (visitor : EventVisitor) (name : StaticStr) (visit : FieldVisit)
    (sample : Nat → List Op) (tables : InternTables)
    (hsample : ∀ uuid, ∃ value,
      Sampled bases (Op.fields (sample (bases.uuid uuid))) [⟨name, uuid, value⟩] [] ∧
          integerOf (name, visit) = some (name, value) ∨
        Sampled bases (Op.fields (sample (bases.uuid uuid))) [] [⟨name, uuid, value⟩] ∧
          doubleOf (name, visit) = some (name, value)) :
    ∃ integers doubles, VisitSampled bases tables.counterTrackCache [(name, visit)]
      visitor.counterCount
      (visitor.recordNumber memory bases name visit sample tables).1.2.counterCount
      (visitor.recordNumber memory bases name visit sample tables).1.1 integers doubles := by
  rcases recordNumber_cases memory bases visitor name visit sample tables with
    ⟨uuid, -, hcount, hcache, heq⟩ | ⟨-, heq⟩
  · rw [heq]
    obtain ⟨value, ⟨hinteger, hvalue⟩ | ⟨hdouble, hvalue⟩⟩ := hsample uuid
    · refine ⟨_, _, hinteger, ?_, List.nil_sublist _, cached_singleton hcache, cached_nil _, rfl,
        fun _ => hcount⟩
      rw [List.filterMap_cons_some hvalue]
      exact List.Sublist.refl _
    · refine ⟨_, _, hdouble, List.nil_sublist _, ?_, cached_nil _, cached_singleton hcache, rfl,
        fun _ => hcount⟩
      rw [List.filterMap_cons_some hvalue]
      exact List.Sublist.refl _
  · rw [heq]
    exact ⟨[], [], visitSampled_quiet bases (annotate_quiet bases memory _ name visit tables)⟩

theorem recordVisit_sampled (visitor : EventVisitor) (name : StaticStr) (visit : FieldVisit)
    (tables : InternTables) :
    ∃ integers doubles, VisitSampled bases tables.counterTrackCache [(name, visit)]
      visitor.counterCount
      (visitor.recordVisit memory bases name visit tables).1.2.counterCount
      (visitor.recordVisit memory bases name visit tables).1.1 integers doubles := by
  have htext : ∀ eventName, Sampled bases (Op.fields [eventName]) [] [] →
      ∃ integers doubles, VisitSampled bases tables.counterTrackCache [(name, visit)]
        visitor.counterCount
        (visitor.recordText memory name visit eventName tables).1.2.counterCount
        (visitor.recordText memory name visit eventName tables).1.1 integers doubles := by
    intro eventName hquiet
    rw [EventVisitor.recordText]
    cases visitor.isMessage memory name with
    | true => exact ⟨[], [], visitSampled_quiet bases hquiet⟩
    | false =>
        exact ⟨[], [], visitSampled_quiet bases (annotate_quiet bases memory _ name visit tables)⟩
  cases visit with
  | i64 value =>
      exact recordNumber_sampled bases memory visitor name _ _ tables fun uuid =>
        ⟨asU64 value, Or.inl ⟨⟨rfl, rfl, rfl, rfl⟩, rfl⟩⟩
  | u64 value =>
      exact recordNumber_sampled bases memory visitor name _ _ tables fun uuid =>
        ⟨asU64 value, Or.inl ⟨⟨rfl, rfl, rfl, rfl⟩, rfl⟩⟩
  | f64 bits =>
      exact recordNumber_sampled bases memory visitor name _ _ tables fun uuid =>
        ⟨bits, Or.inr ⟨⟨rfl, rfl, rfl, rfl⟩, rfl⟩⟩
  | str value => exact htext _ ⟨rfl, rfl, rfl, rfl⟩
  | debug value => exact htext _ ⟨rfl, rfl, rfl, rfl⟩
  | bool value | i128 value | u128 value | bytes value | error value =>
      exact ⟨[], [], visitSampled_quiet bases (annotate_quiet bases memory _ name _ tables)⟩

theorem record_sampled (visitor : EventVisitor) (visits : Visits) (tables : InternTables) :
    ∃ integers doubles, VisitSampled bases tables.counterTrackCache visits visitor.counterCount
      (visitor.record memory bases visits tables).1.2.1.counterCount
      (visitor.record memory bases visits tables).1.1 integers doubles ∧
      (visitor.record memory bases visits tables).2.counterTrackCache =
        tables.counterTrackCache := by
  induction visits generalizing visitor tables with
  | nil => exact ⟨[], [], visitSampled_quiet bases ⟨rfl, rfl, rfl, rfl⟩, rfl⟩
  | cons first visits ih =>
      rcases first with ⟨name, visit⟩
      obtain ⟨integers, doubles, hfirst⟩ :=
        recordVisit_sampled bases memory visitor name visit tables
      have hcache := (recordVisit_visited memory bases visitor name visit tables).cache
      have hone : [(name, visit)].Sublist ((name, visit) :: visits) :=
        List.Sublist.cons_cons _ (List.nil_sublist visits)
      have happend : (name, visit) :: visits = [(name, visit)] ++ visits := rfl
      simp only [EventVisitor.record, bind_run]
      split
      · exact ⟨integers, doubles, ⟨hfirst.sampled,
          hfirst.integersOf.trans (hone.filterMap _), hfirst.doublesOf.trans (hone.filterMap _),
          hfirst.integersCached, hfirst.doublesCached, hfirst.count, hfirst.bound⟩, hcache⟩
      · obtain ⟨integers', doubles', hrest, hcache'⟩ := ih
          (visitor.recordVisit memory bases name visit tables).1.2
          (visitor.recordVisit memory bases name visit tables).2
        rw [hcache] at hrest hcache'
        simp only [bind_run, pure_run]
        refine ⟨integers ++ integers', doubles ++ doubles', ⟨?_, ?_, ?_, ?_, ?_, ?_, ?_⟩, hcache'⟩
        · rw [Op.fields_append]
          exact hfirst.sampled.append hrest.sampled
        · rw [happend, List.map_append, List.filterMap_append]
          exact hfirst.integersOf.append hrest.integersOf
        · rw [happend, List.map_append, List.filterMap_append]
          exact hfirst.doublesOf.append hrest.doublesOf
        · exact hfirst.integersCached.append hrest.integersCached
        · exact hfirst.doublesCached.append hrest.doublesCached
        · rw [hrest.count, hfirst.count, List.length_append, List.length_append]
          omega
        · exact fun hbound => hrest.bound (hfirst.bound hbound)

end Event

/-! ## Announcements -/

/-- The tracks that a packet describes as counters. -/
def announced (packet : List Field) : List Nat :=
  (messages TracePacket.trackDescriptor packet).filterMap fun descriptor =>
    match messages TrackDescriptor.counter descriptor with
    | [] => none
    | _ :: _ => (varints TrackDescriptor.uuid descriptor).head?

def announcedBy (packets : List Written) : List Nat :=
  packets.flatMap fun packet => announced (Op.fields packet.calls)

/-- The names that a callback describes tracks for, with the tracks. -/
def announcements (requests : List LayerRequest) : List (StaticStr × Nat) :=
  requests.filterMap fun
    | .packet _ (.counterDescriptor uuid name _) => some (name, uuid)
    | _ => none

/-- The cache after the requests of a callback. -/
def cachedBy : List LayerRequest → PtrMap Nat → PtrMap Nat
  | [], cache => cache
  | .packet _ _ :: requests, cache => cachedBy requests cache
  | .cacheCounterTrack name uuid :: requests, cache =>
      cachedBy requests (cache.insert name.ptr uuid)

theorem announced_append (fields more : List Field) :
    announced (fields ++ more) = announced fields ++ announced more := by
  rw [announced, messages_append, List.filterMap_append]
  rfl

theorem announcedBy_append (packets more : List Written) :
    announcedBy (packets ++ more) = announcedBy packets ++ announcedBy more :=
  List.flatMap_append

theorem announcements_append (requests more : List LayerRequest) :
    announcements (requests ++ more) = announcements requests ++ announcements more :=
  List.filterMap_append

theorem cachedBy_append (requests more : List LayerRequest) (cache : PtrMap Nat) :
    cachedBy (requests ++ more) cache = cachedBy more (cachedBy requests cache) := by
  induction requests generalizing cache with
  | nil => rfl
  | cons request requests ih =>
      cases request with
      | packet answers body => exact ih cache
      | cacheCounterTrack name uuid => exact ih _

section Served

variable {config : Config} {domain : ClockDomain} {memory : StaticMemory} {bases : IdBases}

theorem announced_wrote {answers : Answers} {writer writer' : SequenceWriter}
    {body : Encode (List Op)} {packet : Written}
    (h : Wrote domain answers writer body writer' packet) :
    announced (Op.fields packet.calls) =
      announced (Op.fields (body writer.sequence.tables).1) := by
  have hheader : announced (Op.fields packet.header) = [] := by
    rw [h.header, SequenceState.header]
    split <;> rfl
  have hinterned : ∀ tables : InternTables,
      announced (Op.fields tables.emitInternedData.1) = [] := by
    intro tables
    simp only [InternTables.emitInternedData]
    split <;> rfl
  rw [Written.calls, Op.fields_append, Op.fields_append, announced_append, announced_append,
    hheader, h.interned, hinterned, h.body, List.append_nil, List.nil_append]

theorem invariant_announced {made : Written → Prop} (earlier : List Written) :
    Invariant domain (fun body => ∀ tables, announced (Op.fields (body tables).1) = []) made
      fun all _ => earlier <+: all ∧ announcedBy all = announcedBy earlier where
  wrote := by
    rintro all answers writer body writer' packet hbody - ⟨hearlier, hknown⟩ hwrote
    constructor
    · exact hearlier.trans (List.prefix_append _ _)
    · rw [announcedBy_append, hknown, announcedBy, announcedBy, List.flatMap_singleton,
        announced_wrote hwrote, hbody, List.append_nil]
  mark := id
  read := fun _ => id
  cache := fun _ _ h => h
  clockSnapshot := fun _ _ _ _ => rfl
  processDescriptor := fun _ _ _ => rfl
  threadDescriptor := fun _ _ _ => rfl

theorem announced_encode (answers : Answers) (body : Body) (tables : InternTables) :
    announced (Op.fields (body.encode memory config bases tables).1) =
      (announcements [.packet answers body]).map fun announcement =>
        bases.uuid announcement.2 := by
  cases body <;> rfl

theorem storedFields_cache (fields : List (StaticStr × FieldValue)) (tables : InternTables) :
    (writeStoredFields memory fields tables).2.counterTrackCache = tables.counterTrackCache := by
  induction fields generalizing tables with
  | nil => rfl
  | cons field fields ih => exact ih _

theorem onlyIf_cache {encode : Encode (List Op)} (condition : Bool) (tables : InternTables)
    (h : ∀ tables, (encode tables).2.counterTrackCache = tables.counterTrackCache) :
    (onlyIf condition encode tables).2.counterTrackCache = tables.counterTrackCache := by
  cases condition with
  | false => rfl
  | true => exact h tables

theorem attributes_cache (visits : Visits) (tables : InternTables) :
    (recordAttributes memory visits tables).2.counterTrackCache = tables.counterTrackCache := by
  induction visits generalizing tables with
  | nil => rfl
  | cons visit visits ih => exact onlyIf_cache _ _ ih

theorem encode_cache (body : Body) (tables : InternTables) :
    (body.encode memory config bases tables).2.counterTrackCache = tables.counterTrackCache := by
  cases body with
  | trackDescriptor uuid name parentUuid => rfl
  | counterDescriptor uuid name parentUuid => rfl
  | lifetimeBegin uuid metadata attributes =>
      exact (onlyIf_cache _ _ (attributes_cache attributes)).trans
        (writeMetadata_cache memory config metadata _)
  | lifetimeEnd uuid flows fields => exact onlyIf_cache _ _ (storedFields_cache fields)
  | threadBegin metadata fields pollFlowId flows =>
      exact (onlyIf_cache _ _ (storedFields_cache fields)).trans
        (writeMetadata_cache memory config metadata _)
  | pollBegin uuid pollFlowId flows => rfl
  | enterEnd uuid flows => rfl
  | instant uuid metadata values =>
      obtain ⟨-, -, -, hcache⟩ := record_sampled bases memory
        (eventVisitor memory config metadata) values
        (writeMetadata memory config metadata tables).2
      refine (onlyIf_cache _ _ fun _ => rfl).trans (hcache.trans ?_)
      exact writeMetadata_cache memory config metadata tables

/-- A packet that is asked for, with the tables that its body sees. -/
structure Asked (body : Encode (List Op)) (writer writer' : SequenceWriter)
    (before : List Written) (packet : Written) (tables : InternTables) : Prop where
  written : writer'.written = before ++ [packet]
  earlier : writer.written <+: before
  known : announcedBy before = announcedBy writer.written
  tracks : announced (Op.fields packet.calls) = announced (Op.fields (body tables).1)
  event : messages TracePacket.trackEvent (Op.fields packet.calls) =
    messages TracePacket.trackEvent (Op.fields (body tables).1)
  cache : tables.counterTrackCache = writer.sequence.tables.counterTrackCache
  cached : writer'.sequence.tables.counterTrackCache = (body tables).2.counterTrackCache

theorem serve_asked {answers : Answers} {writer writer' : SequenceWriter}
    {body : Encode (List Op)}
    (h : SequenceWriter.serve config domain writePacket writer (.packet answers body) =
      some writer') :
    ∃ before packet tables, Asked body writer writer' before packet tables := by
  simp only [SequenceWriter.serve, SequenceWriter.packet, Option.bind_eq_bind,
    Option.bind_eq_some_iff] at h
  obtain ⟨ready, hready, hwrite⟩ := h
  obtain ⟨packet, -, hwrote⟩ := writes_writePacket _ _ _ _ _ hwrite
  have hkept : Keeps (fun all _ => writer.written <+: all ∧
      announcedBy all = announcedBy writer.written) [] ready :=
    (invariant_announced _).ensureInitialized writes_writePacket ⟨List.prefix_rfl, rfl⟩ hready
  obtain ⟨hearlier, hknown⟩ := hkept
  have hheader : messages TracePacket.trackEvent (Op.fields packet.header) = [] := by
    rw [hwrote.header, SequenceState.header]
    split <;> rfl
  have hinterned : ∀ tables : InternTables,
      messages TracePacket.trackEvent (Op.fields tables.emitInternedData.1) = [] := by
    intro tables
    simp only [InternTables.emitInternedData]
    split <;> rfl
  refine ⟨ready.written, packet, ready.sequence.tables, hwrote.written, hearlier, hknown,
    announced_wrote hwrote, ?_, ensureInitialized_cache writes_writePacket hready,
    wrote_cache hwrote⟩
  rw [Written.calls, Op.fields_append, Op.fields_append, messages_append, messages_append,
    hheader, hwrote.interned, hinterned, hwrote.body, List.append_nil, List.nil_append]

theorem serveAll_announced {requests : List LayerRequest} {writer writer' : SequenceWriter}
    (h : (requests.map (LayerRequest.request memory config bases)).foldlM
      (SequenceWriter.serve config domain writePacket) writer = some writer') :
    announcedBy writer'.written = announcedBy writer.written ++
        (announcements requests).map (fun announcement => bases.uuid announcement.2) ∧
      writer'.sequence.tables.counterTrackCache =
        cachedBy requests writer.sequence.tables.counterTrackCache := by
  induction requests generalizing writer with
  | nil =>
      simp only [List.map_nil, List.foldlM_nil, Option.pure_def, Option.some.injEq] at h
      subst h
      exact ⟨(List.append_nil _).symm, rfl⟩
  | cons request requests ih =>
      simp only [List.map_cons, List.foldlM_cons, Option.bind_eq_bind,
        Option.bind_eq_some_iff] at h
      obtain ⟨next, hnext, hrest⟩ := h
      obtain ⟨hannounced, hcache⟩ := ih hrest
      cases request with
      | packet answers body =>
          obtain ⟨before, packet, tables, hasked⟩ := serve_asked hnext
          have hstep : announcedBy next.written = announcedBy writer.written ++
              (announcements [.packet answers body]).map fun announcement =>
                bases.uuid announcement.2 := by
            rw [hasked.written, announcedBy_append, hasked.known, announcedBy, announcedBy,
              List.flatMap_singleton, hasked.tracks, announced_encode answers]
          constructor
          · rw [hannounced, hstep, List.append_assoc, ← List.map_append,
              ← announcements_append, List.singleton_append]
          · rw [hcache, hasked.cached, encode_cache, hasked.cache]
            rfl
      | cacheCounterTrack name uuid =>
          simp only [LayerRequest.request, SequenceWriter.serve, Option.some.injEq] at hnext
          subst hnext
          exact ⟨hannounced, hcache⟩

end Served

/-! ## Runs with events -/

/-- A request of a callback that is no event. -/
def Plain : LayerRequest → Prop
  | .packet _ (.counterDescriptor _ _ _) => False
  | .packet _ (.instant _ _ _) => False
  | .packet _ _ => True
  | .cacheCounterTrack _ _ => False

/-- A callback on a sequence: an event, or one of those that have nothing to do
with counters. -/
inductive Callback where
  | event (answers : Answers) (trackOf : Nat → Nat) (processUuid : Nat) (uuid : Option Nat)
      (metadata : Metadata) (values : Visits)
  | other (requests : List LayerRequest) (plain : ∀ request ∈ requests, Plain request)

def Callback.requests (memory : StaticMemory) (config : Config) (cache : PtrMap Nat) :
    Callback → List LayerRequest
  | .event answers trackOf processUuid uuid metadata values =>
      eventRequests memory config answers trackOf processUuid uuid metadata values cache
  | .other requests _ => requests

/-- What callbacks ask of their sequence, and the packets that it writes for them. -/
abbrev Ran := List (List LayerRequest × List Written)

def runCallbacks (memory : StaticMemory) (config : Config) (bases : IdBases)
    (domain : ClockDomain) :
    SequenceState → List Callback → Option (SequenceState × Ran)
  | current, [] => some (current, [])
  | current, first :: callbacks => do
      let requests := first.requests memory config current.tables.counterTrackCache
      let (next, packets) ← callback config domain writePacket current
        (requests.map (LayerRequest.request memory config bases))
      let (last, rest) ← runCallbacks memory config bases domain next callbacks
      some (last, (requests, packets) :: rest)

def Ran.announcements (ran : Ran) : List (StaticStr × Nat) :=
  CounterTracks.announcements (ran.flatMap Prod.fst)

def Ran.packets (ran : Ran) : List Written := ran.flatMap Prod.snd

/-- The cache holds what was announced, and no address was announced twice. -/
structure Known (made : List (StaticStr × Nat)) (cache : PtrMap Nat) : Prop where
  once : (made.map fun announcement => announcement.1.ptr).Nodup
  cached : ∀ ptr uuid, cache ptr = some uuid ↔
    ∃ announcement ∈ made, announcement.1.ptr = ptr ∧ announcement.2 = uuid

theorem known_new : Known [] fun _ => none :=
  ⟨List.nodup_nil, fun _ _ => by simp⟩

theorem Known.announce {made : List (StaticStr × Nat)} {cache : PtrMap Nat} {name : StaticStr}
    (h : Known made cache) (hnew : cache name.ptr = none) (uuid : Nat) :
    Known (made ++ [(name, uuid)]) (cache.insert name.ptr uuid) := by
  have hfresh : ∀ announcement ∈ made, announcement.1.ptr ≠ name.ptr := by
    intro announcement hmem hptr
    have hcached := (h.cached name.ptr announcement.2).2 ⟨announcement, hmem, hptr, rfl⟩
    rw [hnew] at hcached
    exact Option.some_ne_none _ hcached.symm
  constructor
  · rw [List.map_append, List.nodup_append]
    refine ⟨h.once, List.nodup_singleton _, ?_⟩
    intro ptr hptr other hother
    obtain ⟨announcement, hmem, rfl⟩ := List.mem_map.1 hptr
    rw [List.map_singleton, List.mem_singleton] at hother
    rw [hother]
    exact hfresh announcement hmem
  · intro ptr other
    simp only [PtrMap.insert, List.mem_append, List.mem_singleton]
    by_cases hptr : ptr = name.ptr
    · subst hptr
      rw [if_pos rfl, Option.some.injEq]
      constructor
      · rintro rfl
        exact ⟨_, Or.inr rfl, rfl, rfl⟩
      · rintro ⟨announcement, hmem | rfl, hsame, huuid⟩
        · exact absurd hsame (hfresh announcement hmem)
        · exact huuid
    · rw [if_neg hptr, h.cached]
      constructor
      · rintro ⟨announcement, hmem, heq⟩
        exact ⟨announcement, Or.inl hmem, heq⟩
      · rintro ⟨announcement, hmem | rfl, hsame, huuid⟩
        · exact ⟨announcement, hmem, hsame, huuid⟩
        · exact absurd hsame.symm hptr

theorem known_counterRequests (answers : Answers) (trackOf : Nat → Nat) (processUuid : Nat)
    (names : List StaticStr) {made : List (StaticStr × Nat)} {cache : PtrMap Nat}
    (h : Known made cache) :
    Known (made ++ announcements (counterRequests answers trackOf processUuid names cache))
      (cachedBy (counterRequests answers trackOf processUuid names cache) cache) := by
  induction names generalizing made cache with
  | nil => rwa [counterRequests, announcements, List.filterMap_nil, List.append_nil]
  | cons name names ih =>
      rw [counterRequests]
      cases hcache : cache name.ptr with
      | some uuid => exact ih h
      | none =>
          have hrest := ih (h.announce hcache (trackOf name.ptr))
          rwa [List.append_assoc] at hrest

theorem plain_announcements {requests : List LayerRequest}
    (hplain : ∀ request ∈ requests, Plain request) (cache : PtrMap Nat) :
    announcements requests = [] ∧ cachedBy requests cache = cache := by
  induction requests with
  | nil => exact ⟨rfl, rfl⟩
  | cons request requests ih =>
      rw [List.forall_mem_cons] at hplain
      obtain ⟨hnone, hsame⟩ := ih hplain.2
      cases request with
      | cacheCounterTrack name uuid => exact absurd hplain.1 id
      | packet answers body =>
          refine ⟨?_, hsame⟩
          cases body with
          | counterDescriptor uuid name parentUuid => exact absurd hplain.1 id
          | _ => exact hnone

section Runs

variable {memory : StaticMemory} {config : Config} {bases : IdBases} {domain : ClockDomain}

theorem known_requests (memory : StaticMemory) (config : Config)
    {made : List (StaticStr × Nat)} {cache : PtrMap Nat} (callback : Callback)
    (h : Known made cache) :
    Known (made ++ announcements (callback.requests memory config cache))
      (cachedBy (callback.requests memory config cache) cache) := by
  cases callback with
  | event answers trackOf processUuid uuid metadata values =>
      rw [Callback.requests, eventRequests, announcements_append, cachedBy_append]
      split
      · have hdeclared := known_counterRequests answers trackOf processUuid
          (declaredCounters memory metadata) h
        rwa [← List.append_nil (announcements _)] at hdeclared
      · rw [← List.append_nil made] at h
        exact h
  | other requests plain =>
      obtain ⟨hnone, hsame⟩ := plain_announcements plain cache
      rwa [Callback.requests, hnone, hsame, List.append_nil]

/-- After any callbacks, the announcements are in the packets and in the cache. -/
structure Described (bases : IdBases) (made : List (StaticStr × Nat)) (packets : List Written)
    (sequence : SequenceState) : Prop where
  known : Known made sequence.tables.counterTrackCache
  announced : announcedBy packets =
    made.map fun announcement => bases.uuid announcement.2

theorem callback_described {made : List (StaticStr × Nat)} {packets own : List Written}
    {sequence next : SequenceState} {first : Callback} (h : Described bases made packets sequence)
    (hcallback : callback config domain writePacket sequence
      ((first.requests memory config sequence.tables.counterTrackCache).map
        (LayerRequest.request memory config bases)) = some (next, own)) :
    Described bases
      (made ++ announcements (first.requests memory config sequence.tables.counterTrackCache))
      (packets ++ own) next := by
  simp only [callback, Option.bind_eq_bind, Option.bind_eq_some_iff, Option.some.injEq,
    Prod.mk.injEq] at hcallback
  obtain ⟨writer, hserve, rfl, rfl⟩ := hcallback
  obtain ⟨hannounced, hcache⟩ := serveAll_announced hserve
  constructor
  · rw [hcache]
    exact known_requests memory config first h.known
  · rw [announcedBy_append, h.announced, hannounced, List.map_append]
    rfl

theorem run_described {made : List (StaticStr × Nat)} {packets : List Written}
    {sequence last : SequenceState} {callbacks : List Callback} {ran : Ran}
    (h : Described bases made packets sequence)
    (hrun : runCallbacks memory config bases domain sequence callbacks = some (last, ran)) :
    Described bases (made ++ ran.announcements) (packets ++ ran.packets) last := by
  induction callbacks generalizing made packets sequence ran with
  | nil =>
      simp only [runCallbacks, Option.some.injEq, Prod.mk.injEq] at hrun
      obtain ⟨rfl, rfl⟩ := hrun
      simpa [Ran.announcements, Ran.packets, announcements] using h
  | cons first callbacks ih =>
      simp only [runCallbacks, Option.bind_eq_bind, Option.bind_eq_some_iff, Option.some.injEq,
        Prod.mk.injEq] at hrun
      obtain ⟨⟨next, own⟩, hfirst, ⟨sequence', rest⟩, hrest, rfl, rfl⟩ := hrun
      have hlast := ih (callback_described h hfirst) hrest
      rwa [List.append_assoc, List.append_assoc, Ran.announcements, ← announcements_append]
        at hlast

theorem runCallbacks_append {sequence last : SequenceState} {earlier later : List Callback}
    {ran : Ran}
    (hrun : runCallbacks memory config bases domain sequence (earlier ++ later) =
      some (last, ran)) :
    ∃ next first rest, runCallbacks memory config bases domain sequence earlier =
        some (next, first) ∧
      runCallbacks memory config bases domain next later = some (last, rest) ∧
      first.length = earlier.length ∧ ran = first ++ rest := by
  induction earlier generalizing sequence ran with
  | nil => exact ⟨sequence, [], ran, rfl, hrun, rfl, rfl⟩
  | cons one earlier ih =>
      simp only [List.cons_append, runCallbacks, Option.bind_eq_bind, Option.bind_eq_some_iff,
        Option.some.injEq, Prod.mk.injEq] at hrun
      obtain ⟨⟨middle, own⟩, hone, ⟨sequence', more⟩, hmore, rfl, rfl⟩ := hrun
      obtain ⟨next, first, rest, hearlier, hlater, hlength, rfl⟩ := ih hmore
      refine ⟨next, _ :: first, rest, ?_, hlater, congrArg (· + 1) hlength, rfl⟩
      simp only [runCallbacks, hone, hearlier, Option.bind_eq_bind, Option.bind_some]

theorem writeMetadata_quiet (metadata : Metadata) (tables : InternTables) :
    Sampled bases (Op.fields (writeMetadata memory config metadata tables).1) [] [] := by
  have hlocation : Sampled bases
      (Op.fields (writeSourceLocation memory config metadata tables).1) [] [] := by
    rw [writeSourceLocation]
    cases metadata.file with
    | none => exact ⟨rfl, rfl, rfl, rfl⟩
    | some file =>
        cases metadata.line with
        | none => exact ⟨rfl, rfl, rfl, rfl⟩
        | some line => cases config.sourceLocations <;> exact ⟨rfl, rfl, rfl, rfl⟩
  simp only [writeMetadata, bind_run, pure_run, Op.fields_append, List.append_assoc]
  exact hlocation.quiet ⟨rfl, rfl, rfl, rfl⟩

/-- An event with its samples, from the first eight fields that have a track. -/
structure EventSampled (bases : IdBases) (cache : PtrMap Nat) (values : Visits)
    (event : List Field) (integers doubles : List Sample) : Prop where
  sampled : Sampled bases event integers doubles
  integersOf : (integers.map Sample.field).Sublist (values.filterMap integerOf)
  doublesOf : (doubles.map Sample.field).Sublist (values.filterMap doubleOf)
  cached : Cached cache (integers ++ doubles)
  total : integers.length + doubles.length ≤ maxExtraCounters

theorem instant_sampled (memory : StaticMemory) (config : Config) (bases : IdBases)
    (uuid : Option Nat) (metadata : Metadata) (values : Visits) (tables : InternTables) :
    ∃ event integers doubles,
      messages TracePacket.trackEvent
        (Op.fields ((Body.instant uuid metadata values).encode memory config bases tables).1) =
          [event] ∧
      EventSampled bases tables.counterTrackCache values event integers doubles := by
  obtain ⟨integers, doubles, hvisits, -⟩ := record_sampled bases memory
    (eventVisitor memory config metadata) values (writeMetadata memory config metadata tables).2
  have hhead : Sampled bases (Op.fields ([Emit.instant] ++
      (uuid.map fun uuid => trackUuid (bases.uuid uuid)).toList ++
        (writeMetadata memory config metadata tables).1)) [] [] := by
    have htrack : Sampled bases (Op.fields ([Emit.instant] ++
        (uuid.map fun uuid => trackUuid (bases.uuid uuid)).toList)) [] [] := by
      cases uuid <;> exact ⟨rfl, rfl, rfl, rfl⟩
    rw [Op.fields_append]
    exact htrack.append (writeMetadata_quiet metadata tables)
  have hname : ∀ (condition : Bool) (named : InternTables), Sampled bases
      (Op.fields (onlyIf condition (do
        let name ← InternTables.internEventName memory metadata.name
        pure [nameIid name]) named).1) [] [] := by
    intro condition named
    cases condition <;> exact ⟨rfl, rfl, rfl, rfl⟩
  refine ⟨_, integers, doubles, rfl, ?_, hvisits.integersOf, hvisits.doublesOf, ?_, ?_⟩
  · change Sampled bases (Op.fields (_ ++ (EventVisitor.record memory bases
      (eventVisitor memory config metadata) values
        (writeMetadata memory config metadata tables).2).1.1 ++ _)) integers doubles
    rw [Op.fields_append, Op.fields_append]
    exact (hhead.append hvisits.sampled).quiet (hname _ _)
  · have hcached := hvisits.integersCached.append hvisits.doublesCached
    rwa [writeMetadata_cache] at hcached
  · have hbound := hvisits.bound (Nat.zero_le _)
    rw [hvisits.count] at hbound
    have hstart : (eventVisitor memory config metadata).counterCount = 0 := rfl
    omega

/-- The packet of an event, after everything that its sequence wrote before. -/
theorem event_described {made : List (StaticStr × Nat)} {packets own : List Written}
    {sequence next : SequenceState} {answers : Answers} {trackOf : Nat → Nat}
    {processUuid : Nat} {uuid : Option Nat} {metadata : Metadata} {values : Visits}
    (h : Described bases made packets sequence)
    (hcallback : callback config domain writePacket sequence
      ((eventRequests memory config answers trackOf processUuid uuid metadata values
        sequence.tables.counterTrackCache).map (LayerRequest.request memory config bases)) =
          some (next, own)) :
    ∃ before packet event integers doubles cache, own = before ++ [packet] ∧
      messages TracePacket.trackEvent (Op.fields packet.calls) = [event] ∧
      EventSampled bases cache values event integers doubles ∧
      Known (made ++ announcements (eventRequests memory config answers trackOf processUuid uuid
        metadata values sequence.tables.counterTrackCache)) cache ∧
      announcedBy (packets ++ before) = (made ++ announcements (eventRequests memory config
        answers trackOf processUuid uuid metadata values
          sequence.tables.counterTrackCache)).map fun announcement =>
            bases.uuid announcement.2 := by
  have hknown := known_requests memory config
    (.event answers trackOf processUuid uuid metadata values) h.known
  simp only [Callback.requests] at hknown
  simp only [eventRequests] at hcallback hknown ⊢
  generalize (if config.counters = true then _ else []) = declared at hcallback hknown ⊢
  have hsame : announcements
      (declared ++ [.packet answers (.instant uuid metadata values)]) = announcements declared := by
    rw [announcements_append]
    exact List.append_nil _
  rw [hsame, cachedBy_append] at hknown
  simp only [callback, List.map_append, List.foldlM_append, Option.bind_eq_bind,
    Option.bind_eq_some_iff, Option.some.injEq, Prod.mk.injEq] at hcallback
  obtain ⟨writer, ⟨middle, hdeclared, hlast⟩, rfl, rfl⟩ := hcallback
  obtain ⟨hannounced, hcache⟩ := serveAll_announced hdeclared
  simp only [List.map_cons, List.map_nil, List.foldlM_cons, List.foldlM_nil, Option.pure_def,
    Option.bind_eq_bind, Option.bind_eq_some_iff, Option.some.injEq] at hlast
  obtain ⟨writer, hinstant, rfl⟩ := hlast
  obtain ⟨before, packet, tables, hasked⟩ := serve_asked hinstant
  obtain ⟨event, integers, doubles, hevent, hsampled⟩ :=
    instant_sampled memory config bases uuid metadata values tables
  refine ⟨before, packet, event, integers, doubles, _, hasked.written,
    hasked.event.trans hevent, hsampled, ?_, ?_⟩
  · rw [hsame, hasked.cache, hcache]
    exact hknown
  · rw [hsame, announcedBy_append, hasked.known, hannounced, h.announced, List.map_append]
    rfl

/-- The track of a sample: announced for the address of its field's name, in a packet
before the sample's own and not at a later time. -/
structure SampleDescribed (bases : IdBases) (start : Nat) (made : List (StaticStr × Nat))
    (before : List Written) (packet : Written) (sample : Sample) : Prop where
  address : ∃ announcement ∈ made, announcement.1.ptr = sample.name.ptr ∧
    announcement.2 = sample.uuid
  earlier : ∃ first descriptor rest, before = first ++ descriptor :: rest ∧
    bases.uuid sample.uuid ∈ announced (Op.fields descriptor.calls) ∧
    traceTime start (first ++ [descriptor]) ≤ traceTime start (before ++ [packet])

theorem sample_described {start : Nat} {made : List (StaticStr × Nat)} {cache : PtrMap Nat}
    {before : List Written} {packet : Written} {sample : Sample} (hknown : Known made cache)
    (hannounced : announcedBy before = made.map fun announcement => bases.uuid announcement.2)
    (hcached : cache sample.name.ptr = some sample.uuid) :
    SampleDescribed bases start made before packet sample := by
  obtain ⟨announcement, hmem, hptr, huuid⟩ := (hknown.cached _ _).1 hcached
  have hshown : bases.uuid sample.uuid ∈ announcedBy before := by
    rw [hannounced, ← huuid]
    exact List.mem_map_of_mem hmem
  obtain ⟨descriptor, hdescriptor, htrack⟩ := List.mem_flatMap.1 hshown
  obtain ⟨first, rest, hbefore⟩ := List.append_of_mem hdescriptor
  refine ⟨⟨announcement, hmem, hptr, huuid⟩, first, descriptor, rest, hbefore, htrack, ?_⟩
  apply Nat.add_le_add_left
  apply elapsed_mono
  rw [hbefore, List.append_assoc]
  exact (List.prefix_append_right_inj _).2 (List.cons_prefix_cons.2 ⟨rfl, List.nil_prefix⟩)

/-- Every event of a run has at most eight samples, each on a track announced before;
in the whole run no address is announced twice. -/
theorem samples_described {sequenceId thread anchor start : Nat} {earlier later : List Callback}
    {answers : Answers} {trackOf : Nat → Nat} {processUuid : Nat} {uuid : Option Nat}
    {metadata : Metadata} {values : Visits} {last : SequenceState} {ran : Ran}
    (hrun : runCallbacks memory config bases domain (SequenceState.new sequenceId thread anchor)
      (earlier ++ .event answers trackOf processUuid uuid metadata values :: later) =
        some (last, ran)) :
    (ran.announcements.map fun announcement => announcement.1.ptr).Nodup ∧
    (announcedBy ran.packets = ran.announcements.map fun announcement =>
      bases.uuid announcement.2) ∧
    ∃ first requests own packet rest event integers doubles cache,
      ran = first ++ (requests, own ++ [packet]) :: rest ∧ first.length = earlier.length ∧
      messages TracePacket.trackEvent (Op.fields packet.calls) = [event] ∧
      EventSampled bases cache values event integers doubles ∧
      ∀ sample ∈ integers ++ doubles, SampleDescribed bases start
        (Ran.announcements first ++ announcements requests) (Ran.packets first ++ own) packet
        sample := by
  have hnew : Described bases [] [] (SequenceState.new sequenceId thread anchor) :=
    ⟨known_new, rfl⟩
  have hall := run_described hnew hrun
  refine ⟨hall.known.once, hall.announced, ?_⟩
  obtain ⟨middle, first, others, hearlier, hlater, hlength, rfl⟩ := runCallbacks_append hrun
  have hbefore := run_described hnew hearlier
  simp only [runCallbacks, Option.bind_eq_bind, Option.bind_eq_some_iff, Option.some.injEq,
    Prod.mk.injEq] at hlater
  obtain ⟨⟨next, packets⟩, hevent, ⟨sequence, rest⟩, -, -, rfl⟩ := hlater
  obtain ⟨own, packet, event, integers, doubles, cache, rfl, hmessage, hsampled, hknown,
    hannounced⟩ := event_described hbefore hevent
  refine ⟨first, _, own, packet, rest, event, integers, doubles, cache, rfl, hlength, hmessage,
    hsampled, ?_⟩
  intro sample hsample
  exact sample_described hknown hannounced (hsampled.cached sample hsample)

end Runs

/-- Two events of the counter "counter.depth" around a span's end. -/
def sampleRun : Option (SequenceState × Ran) :=
  runCallbacks Counters.sampleMemory Counters.sampleConfig default (.builtin 6)
    (SequenceState.new 65536 3 100)
    ([.event ⟨140, 9, 9, none, true, 77, 4, [112], [], 5, [116]⟩ (fun _ => 8) 7 none
        Counters.sampleMetadata [(Counters.sampleName, .u64 5)],
      .other [.packet ⟨150, 9, 9, none, true, 77, 4, [112], [], 5, [116]⟩
        (.enterEnd (some 3) [])] (by simp [Plain])] ++
      .event ⟨160, 9, 9, none, true, 77, 4, [112], [], 5, [116]⟩ (fun _ => 8) 7 none
        Counters.sampleMetadata [(Counters.sampleName, .f64 7)] :: [])

theorem sampleRun_isSome : sampleRun.isSome = true := by decide +kernel

theorem samples_described_sample : ∃ last ran, sampleRun = some (last, ran) ∧
    (ran.announcements.map fun announcement => announcement.1.ptr).Nodup ∧
    ∃ first requests own packet rest, ∃ integers doubles : List Sample,
      ran = first ++ (requests, own ++ [packet]) :: rest ∧ first.length = 2 ∧
      integers.length + doubles.length ≤ maxExtraCounters ∧
      ∀ sample ∈ integers ++ doubles, SampleDescribed default 140
        (Ran.announcements first ++ announcements requests) (Ran.packets first ++ own) packet
        sample := by
  obtain ⟨⟨last, ran⟩, hrun⟩ := Option.isSome_iff_exists.1 sampleRun_isSome
  obtain ⟨hnodup, -, first, requests, own, packet, rest, event, integers, doubles, cache, hran,
    hlength, -, hsampled, hdescribed⟩ := samples_described hrun
  exact ⟨last, ran, hrun, hnodup, first, requests, own, packet, rest, integers, doubles, hran,
    hlength, hsampled.total, hdescribed⟩

end TracingPerfetto.CounterTracks
