import TracingPerfetto.Interning

/-!
Counter samples of an event. `on_event` sees to the tracks of the first eight
declared counter fields, and the visitor writes a sample for the first eight recorded
ones that have a track: two limits that need not speak of the same fields.
-/

namespace TracingPerfetto.Counters

open TracingPerfetto.Wire TracingPerfetto.Proto TracingPerfetto.Runtime
open TracingPerfetto.Schema TracingPerfetto.Emit TracingPerfetto.Sequence
open TracingPerfetto.Sequence.SequenceWriter TracingPerfetto.SequenceRuns
open TracingPerfetto.TrackEvents TracingPerfetto.Interning

def isCounterName (memory : StaticMemory) (name : StaticStr) : Bool :=
  (text "counter.").isPrefixOf (memory.text name)

/-- The fields that `on_event` looks up a track for, whatever their types. -/
def declaredCounters (memory : StaticMemory) (metadata : Metadata) : List StaticStr :=
  (metadata.fields.filter (isCounterName memory)).take maxExtraCounters

/-- The loop over the declared counters, with `create_counter_track` for those that
are not cached. `trackOf` is what `Inner::counter_track_uuid` answers. -/
def counterRequests (answers : Answers) (trackOf : Nat → Nat) (processUuid : Nat) :
    List StaticStr → PtrMap Nat → List LayerRequest
  | [], _ => []
  | name :: names, cache =>
      match cache name.ptr with
      | some _ => counterRequests answers trackOf processUuid names cache
      | none =>
          let uuid := trackOf name.ptr
          .packet answers (.counterDescriptor uuid name processUuid) ::
            .cacheCounterTrack name uuid ::
            counterRequests answers trackOf processUuid names (cache.insert name.ptr uuid)

/-- What `on_event` asks of its sequence. -/
def eventRequests (memory : StaticMemory) (config : Config) (answers : Answers)
    (trackOf : Nat → Nat) (processUuid : Nat) (uuid : Option Nat) (metadata : Metadata)
    (values : Visits) (cache : PtrMap Nat) : List LayerRequest :=
  (if config.counters then
      counterRequests answers trackOf processUuid (declaredCounters memory metadata) cache
    else []) ++ [.packet answers (.instant uuid metadata values)]

/-! ## What becomes of each recorded value -/

/-- A visit, and the calls that the visitor makes for it. -/
structure Write where
  name : StaticStr
  visit : FieldVisit
  calls : List Op

section Visitor

variable (memory : StaticMemory) (bases : IdBases)

/-- `event.record`, visit by visit. -/
def trace (visitor : EventVisitor) : Visits → Encode (List Write)
  | [] => pure []
  | (name, visit) :: visits => do
      let first ← visitor.recordVisit memory bases name visit
      if visitor.visitPanics memory name visit then pure [⟨name, visit, first.1⟩]
      else do
        let rest ← trace first.2 visits
        pure (⟨name, visit, first.1⟩ :: rest)

/-- Only a text can become the name of the event. -/
def nameTaken (visitor : EventVisitor) (name : StaticStr) : FieldVisit → Bool
  | .str _ | .debug _ => visitor.isMessage memory name
  | _ => false

/-- The visits that are made: a formatter that panics ends them. -/
def recorded (visitor : EventVisitor) : Visits → Visits
  | [] => []
  | (name, visit) :: visits =>
      if visitor.visitPanics memory name visit then [(name, visit)]
      else
        (name, visit) :: recorded
          { visitor with wroteName := visitor.wroteName || nameTaken memory visitor name visit }
          visits

def eventVisitor (config : Config) (metadata : Metadata) : EventVisitor :=
  EventVisitor.new config.debugAnnotations config.counters
    ((text "event ").isPrefixOf (memory.text metadata.name))

/-- The writes of an event whose packet is opened with these tables. -/
def eventWrites (config : Config) (metadata : Metadata) (values : Visits)
    (tables : InternTables) : List Write :=
  (trace memory bases (eventVisitor memory config metadata) values
    (writeMetadata memory config metadata tables).2).1

end Visitor

/-! ## Where the values belong -/

def isNumeric : FieldVisit → Bool
  | .i64 _ | .u64 _ | .f64 _ | .i128 _ | .u128 _ => true
  | _ => false

/-- The integers that `EventVisitor` never takes for a sample. -/
def isWide : FieldVisit → Bool
  | .i128 _ | .u128 _ => true
  | _ => false

def isCounter (memory : StaticMemory) (name : StaticStr) (visit : FieldVisit) : Bool :=
  isNumeric visit && isCounterName memory name

/-- A numeric value as an extra counter sample. -/
def sampleCalls (uuid : Nat) : FieldVisit → List Op
  | .i64 value | .i128 value => counterI64 uuid value
  | .u64 value | .u128 value => counterI64 uuid value
  | .f64 bits => counterF64 uuid bits
  | _ => []

/-- The value is a sample on the track of its field. -/
def Write.Sampled (bases : IdBases) (cache : PtrMap Nat) (write : Write) : Prop :=
  ∃ uuid, cache write.name.ptr = some uuid ∧
    write.calls = sampleCalls (bases.uuid uuid) write.visit

/-- The value is an annotation. -/
def Write.Annotated (write : Write) : Prop :=
  ∃ nameIid, write.calls = [visitedField nameIid write.visit]

def counterWrites (memory : StaticMemory) (writes : List Write) : List Write :=
  writes.filter fun write => isCounter memory write.name write.visit

def counterVisits (memory : StaticMemory) (visits : Visits) : Visits :=
  visits.filter fun visit => isCounter memory visit.1 visit.2

/-- The first `room` counter values are samples and the others annotations. -/
structure Placed (memory : StaticMemory) (bases : IdBases) (cache : PtrMap Nat) (room : Nat)
    (writes : List Write) : Prop where
  samples : ∀ write ∈ (counterWrites memory writes).take room, write.Sampled bases cache
  annotations : ∀ write ∈ (counterWrites memory writes).drop room, write.Annotated

/-- The first `room` counter values have a track and are of at most 64 bits, and
wider ones after them are wanted as annotations. -/
structure Placeable (memory : StaticMemory) (annotations : Bool) (tracked : Nat → Prop)
    (room : Nat) (visits : Visits) : Prop where
  narrow : ∀ visit ∈ (counterVisits memory visits).take room, isWide visit.2 = false
  tracked : ∀ visit ∈ (counterVisits memory visits).take room, tracked visit.1.ptr
  kept : ∀ visit ∈ (counterVisits memory visits).drop room,
    isWide visit.2 = true → annotations = true

/-! ## One visit -/

section Visit

variable (memory : StaticMemory) (bases : IdBases)

theorem annotate_cache (write : Bool) (name : StaticStr) (visit : FieldVisit)
    (tables : InternTables) :
    (EventVisitor.annotate memory write name visit tables).2.counterTrackCache =
      tables.counterTrackCache := by
  cases write <;> rfl

theorem annotate_true (name : StaticStr) (visit : FieldVisit) (tables : InternTables) :
    ∃ nameIid, (EventVisitor.annotate memory true name visit tables).1 =
      [visitedField nameIid visit] :=
  ⟨_, rfl⟩

theorem recordNumber_cases (visitor : EventVisitor) (name : StaticStr) (visit : FieldVisit)
    (sample : Nat → List Op) (tables : InternTables) :
    (∃ uuid, visitor.isCounter memory name = true ∧ visitor.counterCount < maxExtraCounters ∧
      tables.counterTrackCache name.ptr = some uuid ∧
      visitor.recordNumber memory bases name visit sample tables =
        ((sample (bases.uuid uuid), { visitor with counterCount := visitor.counterCount + 1 }),
          tables)) ∨
    ((visitor.isCounter memory name = true → visitor.counterCount < maxExtraCounters →
        tables.counterTrackCache name.ptr = none) ∧
      visitor.recordNumber memory bases name visit sample tables =
        (((EventVisitor.annotate memory (visitor.isCounter memory name || visitor.annotations)
            name visit tables).1, visitor),
          (EventVisitor.annotate memory (visitor.isCounter memory name || visitor.annotations)
            name visit tables).2)) := by
  simp only [EventVisitor.recordNumber, bind_run, EventVisitor.counterUuid,
    InternTables.counterTrackUuid]
  cases hroom : visitor.isCounter memory name && decide (visitor.counterCount < maxExtraCounters)
  · right
    refine ⟨?_, rfl⟩
    intro hcounter hcount
    simp [hcounter, hcount] at hroom
  · simp only [Bool.and_eq_true, decide_eq_true_eq] at hroom
    cases hcache : tables.counterTrackCache name.ptr with
    | some uuid => exact Or.inl ⟨uuid, hroom.1, hroom.2, rfl, rfl⟩
    | none => exact Or.inr ⟨fun _ _ => rfl, rfl⟩

/-- What a visit does to the visitor and to the cache. -/
structure Visited (visitor : EventVisitor) (name : StaticStr) (visit : FieldVisit)
    (tables : InternTables) (visitor' : EventVisitor) (tables' : InternTables) : Prop where
  cache : tables'.counterTrackCache = tables.counterTrackCache
  annotations : visitor'.annotations = visitor.annotations
  counters : visitor'.counters = visitor.counters
  useMessageAsName : visitor'.useMessageAsName = visitor.useMessageAsName
  wroteName : visitor'.wroteName = (visitor.wroteName || nameTaken memory visitor name visit)

theorem recordNumber_visited (visitor : EventVisitor) (name : StaticStr) (visit : FieldVisit)
    (sample : Nat → List Op) (tables : InternTables)
    (hname : nameTaken memory visitor name visit = false) :
    Visited memory visitor name visit tables
      (visitor.recordNumber memory bases name visit sample tables).1.2
      (visitor.recordNumber memory bases name visit sample tables).2 := by
  rcases recordNumber_cases memory bases visitor name visit sample tables with
    ⟨uuid, -, -, -, heq⟩ | ⟨-, heq⟩
  · rw [heq]
    exact ⟨rfl, rfl, rfl, rfl, by rw [hname, Bool.or_false]⟩
  · rw [heq]
    exact ⟨annotate_cache memory _ name visit tables, rfl, rfl, rfl,
      by rw [hname, Bool.or_false]⟩

theorem recordText_visited (visitor : EventVisitor) (name : StaticStr) (visit : FieldVisit)
    (eventName : Op) (tables : InternTables)
    (hname : nameTaken memory visitor name visit = visitor.isMessage memory name) :
    Visited memory visitor name visit tables
      (visitor.recordText memory name visit eventName tables).1.2
      (visitor.recordText memory name visit eventName tables).2 := by
  simp only [EventVisitor.recordText]
  cases hmessage : visitor.isMessage memory name with
  | true => exact ⟨rfl, rfl, rfl, rfl, by rw [hname, hmessage, Bool.or_true]; rfl⟩
  | false =>
      exact ⟨annotate_cache memory _ name visit tables, rfl, rfl, rfl,
        by rw [hname, hmessage, Bool.or_false]; rfl⟩

theorem recordVisit_visited (visitor : EventVisitor) (name : StaticStr) (visit : FieldVisit)
    (tables : InternTables) :
    Visited memory visitor name visit tables
      (visitor.recordVisit memory bases name visit tables).1.2
      (visitor.recordVisit memory bases name visit tables).2 := by
  cases visit with
  | i64 value | u64 value | f64 value => exact recordNumber_visited _ _ _ _ _ _ _ rfl
  | str value | debug value => exact recordText_visited _ _ _ _ _ _ rfl
  | bool value | i128 value | u128 value | bytes value | error value =>
      exact ⟨annotate_cache memory _ name _ tables, rfl, rfl, rfl,
        (Bool.or_false visitor.wroteName).symm⟩

theorem recordVisit_other (visitor : EventVisitor) (name : StaticStr) (visit : FieldVisit)
    (tables : InternTables) (hother : isCounter memory name visit = false) :
    (visitor.recordVisit memory bases name visit tables).1.2.counterCount =
      visitor.counterCount := by
  have hnumber : ∀ sample : Nat → List Op, isCounterName memory name = false →
      (visitor.recordNumber memory bases name visit sample tables).1.2.counterCount =
        visitor.counterCount := by
    intro sample hname
    rcases recordNumber_cases memory bases visitor name visit sample tables with
      ⟨uuid, hcounter, -⟩ | ⟨-, heq⟩
    · simp only [EventVisitor.isCounter, Bool.and_eq_true] at hcounter
      rw [isCounterName, hcounter.2] at hname
      exact absurd hname (by decide)
    · rw [heq]
  have htext : ∀ eventName,
      (visitor.recordText memory name visit eventName tables).1.2.counterCount =
      visitor.counterCount := by
    intro eventName
    simp only [EventVisitor.recordText]
    split <;> rfl
  cases visit with
  | i64 value | u64 value | f64 value => exact hnumber _ hother
  | str value | debug value => exact htext _
  | bool value | i128 value | u128 value | bytes value | error value => rfl

/-- A wide counter is an annotation at most. -/
theorem recordVisit_wide (visitor : EventVisitor) (name : StaticStr) (visit : FieldVisit)
    (tables : InternTables) (hwide : isWide visit = true) :
    (visitor.recordVisit memory bases name visit tables).1.2.counterCount =
        visitor.counterCount ∧
      (visitor.recordVisit memory bases name visit tables).1.1 =
        (EventVisitor.annotate memory visitor.annotations name visit tables).1 := by
  cases visit with
  | i128 value | u128 value => exact ⟨rfl, rfl⟩
  | _ => exact absurd hwide Bool.false_ne_true

/-- A narrow counter is a sample if there is room and a track, and an annotation
otherwise. -/
theorem recordVisit_narrow (visitor : EventVisitor) (name : StaticStr) (visit : FieldVisit)
    (tables : InternTables) (hcounters : visitor.counters = true)
    (hcounter : isCounter memory name visit = true) (hwide : isWide visit = false) :
    (∃ uuid, visitor.counterCount < maxExtraCounters ∧
      tables.counterTrackCache name.ptr = some uuid ∧
      (visitor.recordVisit memory bases name visit tables).1.1 =
        sampleCalls (bases.uuid uuid) visit ∧
      (visitor.recordVisit memory bases name visit tables).1.2.counterCount =
        visitor.counterCount + 1) ∨
    ((visitor.counterCount < maxExtraCounters →
        tables.counterTrackCache name.ptr = none) ∧
      (visitor.recordVisit memory bases name visit tables).1.1 =
        (EventVisitor.annotate memory true name visit tables).1 ∧
      (visitor.recordVisit memory bases name visit tables).1.2.counterCount =
        visitor.counterCount) := by
  simp only [isCounter, Bool.and_eq_true] at hcounter
  have hname : visitor.isCounter memory name = true := by
    rw [EventVisitor.isCounter, hcounters, Bool.true_and]
    exact hcounter.2
  obtain ⟨sample, hsample, heq⟩ : ∃ sample : Nat → List Op,
      (∀ uuid, sample uuid = sampleCalls uuid visit) ∧
        visitor.recordVisit memory bases name visit =
          visitor.recordNumber memory bases name visit sample := by
    cases visit with
    | i64 value | u64 value | f64 value => exact ⟨_, fun _ => rfl, rfl⟩
    | i128 value | u128 value => simp [isWide] at hwide
    | _ => exact absurd hcounter.1 Bool.false_ne_true
  rcases recordNumber_cases memory bases visitor name visit sample tables with
    ⟨uuid, -, hcount, hcache, hresult⟩ | ⟨hnone, hresult⟩
  · refine Or.inl ⟨uuid, hcount, hcache, ?_, ?_⟩
    · rw [heq, hresult, ← hsample]
    · rw [heq, hresult]
  · refine Or.inr ⟨hnone hname, ?_, ?_⟩
    · rw [heq, hresult, hname, Bool.true_or]
    · rw [heq, hresult]

end Visit

/-! ## All visits of an event -/

section Trace

variable (memory : StaticMemory) (bases : IdBases)

theorem trace_cons (visitor : EventVisitor) (name : StaticStr) (visit : FieldVisit)
    (visits : Visits) (tables : InternTables) :
    (trace memory bases visitor ((name, visit) :: visits) tables).1 =
      ⟨name, visit, (visitor.recordVisit memory bases name visit tables).1.1⟩ ::
        if visitor.visitPanics memory name visit then []
        else (trace memory bases (visitor.recordVisit memory bases name visit tables).1.2 visits
          (visitor.recordVisit memory bases name visit tables).2).1 := by
  simp only [trace, bind_run]
  split <;> rfl

theorem record_cons (visitor : EventVisitor) (name : StaticStr) (visit : FieldVisit)
    (visits : Visits) (tables : InternTables) :
    (visitor.record memory bases ((name, visit) :: visits) tables).1.1 =
      (visitor.recordVisit memory bases name visit tables).1.1 ++
        if visitor.visitPanics memory name visit then []
        else ((visitor.recordVisit memory bases name visit tables).1.2.record memory bases visits
          (visitor.recordVisit memory bases name visit tables).2).1.1 := by
  simp only [EventVisitor.record, bind_run]
  split
  · exact (List.append_nil _).symm
  · rfl

theorem record_trace (visitor : EventVisitor) (visits : Visits) (tables : InternTables) :
    (visitor.record memory bases visits tables).1.1 =
      (trace memory bases visitor visits tables).1.flatMap Write.calls := by
  induction visits generalizing visitor tables with
  | nil => rfl
  | cons first visits ih =>
      rcases first with ⟨name, visit⟩
      rw [record_cons, trace_cons, List.flatMap_cons]
      split
      · rfl
      · rw [ih]

theorem visitPanics_congr {visitor other : EventVisitor} (name : StaticStr)
    (visit : FieldVisit) (hannotations : visitor.annotations = other.annotations)
    (huse : visitor.useMessageAsName = other.useMessageAsName)
    (hwrote : visitor.wroteName = other.wroteName) :
    visitor.visitPanics memory name visit = other.visitPanics memory name visit ∧
      nameTaken memory visitor name visit = nameTaken memory other name visit := by
  have hmessage : visitor.isMessage memory name = other.isMessage memory name := by
    rw [EventVisitor.isMessage, EventVisitor.isMessage, huse, hwrote]
  cases visit <;>
    simp [EventVisitor.visitPanics, nameTaken, hannotations, hmessage]

theorem placed_skip {cache : PtrMap Nat} {room : Nat} {write : Write} {writes : List Write}
    (hother : isCounter memory write.name write.visit = false) :
    Placed memory bases cache room (write :: writes) ↔
      Placed memory bases cache room writes := by
  have hwrites : counterWrites memory (write :: writes) = counterWrites memory writes := by
    rw [counterWrites, List.filter_cons, hother]
    rfl
  constructor
  · rintro ⟨hsamples, hannotations⟩
    rw [hwrites] at hsamples hannotations
    exact ⟨hsamples, hannotations⟩
  · rintro ⟨hsamples, hannotations⟩
    rw [← hwrites] at hsamples hannotations
    exact ⟨hsamples, hannotations⟩

theorem counterWrites_cons {write : Write} {writes : List Write}
    (hcounter : isCounter memory write.name write.visit = true) :
    counterWrites memory (write :: writes) = write :: counterWrites memory writes := by
  rw [counterWrites, List.filter_cons, hcounter]
  rfl

theorem placed_sample {cache : PtrMap Nat} {room : Nat} {write : Write} {writes : List Write}
    (hcounter : isCounter memory write.name write.visit = true) :
    Placed memory bases cache (room + 1) (write :: writes) ↔
      write.Sampled bases cache ∧ Placed memory bases cache room writes := by
  constructor
  · rintro ⟨hsamples, hannotations⟩
    rw [counterWrites_cons memory hcounter] at hsamples hannotations
    rw [List.take_succ_cons, List.forall_mem_cons] at hsamples
    exact ⟨hsamples.1, hsamples.2, hannotations⟩
  · rintro ⟨hsample, hsamples, hannotations⟩
    refine ⟨?_, ?_⟩
    · rw [counterWrites_cons memory hcounter, List.take_succ_cons, List.forall_mem_cons]
      exact ⟨hsample, hsamples⟩
    · rw [counterWrites_cons memory hcounter]
      exact hannotations

theorem placed_ordinary {cache : PtrMap Nat} {write : Write} {writes : List Write}
    (hcounter : isCounter memory write.name write.visit = true) :
    Placed memory bases cache 0 (write :: writes) ↔
      write.Annotated ∧ Placed memory bases cache 0 writes := by
  constructor
  · rintro ⟨-, hannotations⟩
    rw [counterWrites_cons memory hcounter, List.drop_zero, List.forall_mem_cons] at hannotations
    exact ⟨hannotations.1, by simp, hannotations.2⟩
  · rintro ⟨hannotated, -, hannotations⟩
    refine ⟨by simp, ?_⟩
    rw [counterWrites_cons memory hcounter, List.drop_zero, List.forall_mem_cons]
    exact ⟨hannotated, hannotations⟩

theorem placeable_skip {annotations : Bool} {tracked : Nat → Prop} {room : Nat}
    {name : StaticStr} {visit : FieldVisit} {visits : Visits}
    (hother : isCounter memory name visit = false) :
    Placeable memory annotations tracked room ((name, visit) :: visits) ↔
      Placeable memory annotations tracked room visits := by
  have hvisits : counterVisits memory ((name, visit) :: visits) = counterVisits memory visits := by
    rw [counterVisits, List.filter_cons, hother]
    rfl
  constructor
  · rintro ⟨hnarrow, htracked, hkept⟩
    rw [hvisits] at hnarrow htracked hkept
    exact ⟨hnarrow, htracked, hkept⟩
  · rintro ⟨hnarrow, htracked, hkept⟩
    rw [← hvisits] at hnarrow htracked hkept
    exact ⟨hnarrow, htracked, hkept⟩

theorem counterVisits_cons {name : StaticStr} {visit : FieldVisit} {visits : Visits}
    (hcounter : isCounter memory name visit = true) :
    counterVisits memory ((name, visit) :: visits) =
      (name, visit) :: counterVisits memory visits := by
  rw [counterVisits, List.filter_cons, hcounter]
  rfl

theorem placeable_sample {annotations : Bool} {tracked : Nat → Prop} {room : Nat}
    {name : StaticStr} {visit : FieldVisit} {visits : Visits}
    (hcounter : isCounter memory name visit = true) :
    Placeable memory annotations tracked (room + 1) ((name, visit) :: visits) ↔
      (isWide visit = false ∧ tracked name.ptr) ∧
        Placeable memory annotations tracked room visits := by
  constructor
  · rintro ⟨hnarrow, htracked, hkept⟩
    rw [counterVisits_cons memory hcounter] at hnarrow htracked hkept
    rw [List.take_succ_cons, List.forall_mem_cons] at hnarrow htracked
    exact ⟨⟨hnarrow.1, htracked.1⟩, hnarrow.2, htracked.2, hkept⟩
  · rintro ⟨⟨hvisit, hname⟩, hnarrow, htracked, hkept⟩
    refine ⟨?_, ?_, ?_⟩
    · rw [counterVisits_cons memory hcounter, List.take_succ_cons, List.forall_mem_cons]
      exact ⟨hvisit, hnarrow⟩
    · rw [counterVisits_cons memory hcounter, List.take_succ_cons, List.forall_mem_cons]
      exact ⟨hname, htracked⟩
    · rw [counterVisits_cons memory hcounter]
      exact hkept

theorem placeable_ordinary {annotations : Bool} {tracked : Nat → Prop}
    {name : StaticStr} {visit : FieldVisit} {visits : Visits}
    (hcounter : isCounter memory name visit = true) :
    Placeable memory annotations tracked 0 ((name, visit) :: visits) ↔
      (isWide visit = true → annotations = true) ∧
        Placeable memory annotations tracked 0 visits := by
  constructor
  · rintro ⟨-, -, hkept⟩
    rw [counterVisits_cons memory hcounter, List.drop_zero, List.forall_mem_cons] at hkept
    exact ⟨hkept.1, by simp, by simp, hkept.2⟩
  · rintro ⟨hvisit, -, -, hkept⟩
    refine ⟨by simp, by simp, ?_⟩
    rw [counterVisits_cons memory hcounter, List.drop_zero, List.forall_mem_cons]
    exact ⟨hvisit, hkept⟩

theorem annotation_not_sampled {cache : PtrMap Nat} {write : Write} {annotated : Bool}
    {tables : InternTables} (hnumeric : isNumeric write.visit = true)
    (hcalls : write.calls =
      (EventVisitor.annotate memory annotated write.name write.visit tables).1) :
    ¬ write.Sampled bases cache := by
  rintro ⟨uuid, -, hsample⟩
  have hannotation : write.calls.length ≤ 1 := by
    rw [hcalls]
    cases annotated with
    | true => exact Nat.le_refl 1
    | false => exact Nat.zero_le 1
  have hlength : (sampleCalls (bases.uuid uuid) write.visit).length = 2 := by
    rcases write with ⟨name, visit, calls⟩
    cases visit with
    | i64 value | u64 value | f64 value | i128 value | u128 value => rfl
    | _ => exact absurd hnumeric Bool.false_ne_true
  rw [hsample, hlength] at hannotation
  omega

theorem recordVisit_sampled_iff (visitor : EventVisitor) (name : StaticStr) (visit : FieldVisit)
    (tables : InternTables) (hcounters : visitor.counters = true)
    (hcounter : isCounter memory name visit = true)
    (hroom : visitor.counterCount < maxExtraCounters) :
    (Write.Sampled bases tables.counterTrackCache
        ⟨name, visit, (visitor.recordVisit memory bases name visit tables).1.1⟩ ↔
      isWide visit = false ∧ tables.counterTrackCache name.ptr ≠ none) ∧
    (isWide visit = false ∧ tables.counterTrackCache name.ptr ≠ none →
      (visitor.recordVisit memory bases name visit tables).1.2.counterCount =
        visitor.counterCount + 1) := by
  have hnumeric : isNumeric visit = true := by
    simp only [isCounter, Bool.and_eq_true] at hcounter
    exact hcounter.1
  cases hwide : isWide visit with
  | true =>
      obtain ⟨-, hcalls⟩ := recordVisit_wide memory bases visitor name visit tables hwide
      refine ⟨⟨?_, ?_⟩, ?_⟩
      · intro hsampled
        exact absurd hsampled (annotation_not_sampled memory bases hnumeric hcalls)
      · rintro ⟨hfalse, -⟩
        exact absurd hfalse (by decide)
      · rintro ⟨hfalse, -⟩
        exact absurd hfalse (by decide)
  | false =>
      rcases recordVisit_narrow memory bases visitor name visit tables hcounters hcounter
        hwide with ⟨uuid, -, hcache, hcalls, hcount⟩ | ⟨hnone, hcalls, -⟩
      · refine ⟨⟨?_, ?_⟩, ?_⟩
        · intro _
          exact ⟨rfl, by rw [hcache]; exact Option.some_ne_none uuid⟩
        · intro _
          exact ⟨uuid, hcache, hcalls⟩
        · intro _
          exact hcount
      · refine ⟨⟨?_, ?_⟩, ?_⟩
        · intro hsampled
          exact absurd hsampled (annotation_not_sampled memory bases hnumeric hcalls)
        · rintro ⟨-, htracked⟩
          exact absurd (hnone hroom) htracked
        · rintro ⟨-, htracked⟩
          exact absurd (hnone hroom) htracked

theorem recordVisit_annotated_iff (visitor : EventVisitor) (name : StaticStr)
    (visit : FieldVisit) (tables : InternTables) (hcounters : visitor.counters = true)
    (hcounter : isCounter memory name visit = true)
    (hroom : ¬ visitor.counterCount < maxExtraCounters) :
    (Write.Annotated ⟨name, visit, (visitor.recordVisit memory bases name visit tables).1.1⟩ ↔
      (isWide visit = true → visitor.annotations = true)) ∧
    (visitor.recordVisit memory bases name visit tables).1.2.counterCount =
      visitor.counterCount := by
  cases hwide : isWide visit with
  | true =>
      obtain ⟨hcount, hcalls⟩ := recordVisit_wide memory bases visitor name visit tables hwide
      refine ⟨⟨?_, ?_⟩, hcount⟩
      · rintro ⟨nameIid, hannotation⟩ -
        cases hwanted : visitor.annotations with
        | true => rfl
        | false =>
            rw [hcalls, hwanted] at hannotation
            exact absurd hannotation (List.cons_ne_nil _ _).symm
      · intro hwanted
        obtain ⟨nameIid, hannotation⟩ := annotate_true memory name visit tables
        refine ⟨nameIid, ?_⟩
        rw [hcalls, hwanted rfl]
        exact hannotation
  | false =>
      rcases recordVisit_narrow memory bases visitor name visit tables hcounters hcounter
        hwide with ⟨uuid, hcount, -⟩ | ⟨-, hcalls, hcount⟩
      · exact absurd hcount hroom
      · refine ⟨⟨?_, ?_⟩, hcount⟩
        · intro _ hfalse
          exact absurd hfalse Bool.false_ne_true
        · intro _
          obtain ⟨nameIid, hannotation⟩ := annotate_true memory name visit tables
          exact ⟨nameIid, hcalls.trans hannotation⟩

theorem placed_nil (cache : PtrMap Nat) (room : Nat) : Placed memory bases cache room [] :=
  ⟨by simp [counterWrites], by simp [counterWrites]⟩

theorem placeable_nil (annotations : Bool) (tracked : Nat → Prop) (room : Nat) :
    Placeable memory annotations tracked room [] :=
  ⟨by simp [counterVisits], by simp [counterVisits], by simp [counterVisits]⟩

theorem recorded_cons (visitor : EventVisitor) (name : StaticStr) (visit : FieldVisit)
    (visits : Visits) :
    recorded memory visitor ((name, visit) :: visits) =
      (name, visit) :: if visitor.visitPanics memory name visit then []
        else recorded memory { visitor with
          wroteName := visitor.wroteName || nameTaken memory visitor name visit } visits := by
  rw [recorded]
  split <;> rfl

/-- The visitor counts samples up to the limit. -/
theorem trace_placed_iff (visitor other : EventVisitor) (visits : Visits) (tables : InternTables)
    (hcounters : visitor.counters = true) (hannotations : visitor.annotations = other.annotations)
    (huse : visitor.useMessageAsName = other.useMessageAsName)
    (hwrote : visitor.wroteName = other.wroteName) :
    Placed memory bases tables.counterTrackCache (maxExtraCounters - visitor.counterCount)
        (trace memory bases visitor visits tables).1 ↔
      Placeable memory other.annotations (fun ptr => tables.counterTrackCache ptr ≠ none)
        (maxExtraCounters - visitor.counterCount) (recorded memory other visits) := by
  induction visits generalizing visitor other tables with
  | nil =>
      constructor
      · intro _
        exact placeable_nil memory _ _ _
      · intro _
        exact placed_nil memory bases _ _
  | cons first visits ih =>
      rcases first with ⟨name, visit⟩
      have hvisited := recordVisit_visited memory bases visitor name visit tables
      obtain ⟨hpanics, htaken⟩ := visitPanics_congr memory name visit hannotations huse hwrote
      -- The rest of the visits, with the visitor after this one.
      have hrest : ∀ count, (visitor.recordVisit memory bases name visit
            tables).1.2.counterCount = count →
          (Placed memory bases tables.counterTrackCache (maxExtraCounters - count)
              (if visitor.visitPanics memory name visit then []
              else (trace memory bases
                (visitor.recordVisit memory bases name visit tables).1.2 visits
                (visitor.recordVisit memory bases name visit tables).2).1) ↔
            Placeable memory other.annotations
              (fun ptr => tables.counterTrackCache ptr ≠ none) (maxExtraCounters - count)
              (if other.visitPanics memory name visit then []
              else recorded memory { other with
                wroteName := other.wroteName || nameTaken memory other name visit } visits)) := by
        rintro count rfl
        rw [← hpanics]
        split
        · constructor
          · intro _
            exact placeable_nil memory _ _ _
          · intro _
            exact placed_nil memory bases _ _
        · have hnext := ih (visitor.recordVisit memory bases name visit tables).1.2
            { other with wroteName := other.wroteName || nameTaken memory other name visit }
            (visitor.recordVisit memory bases name visit tables).2
            (hvisited.counters.trans hcounters) (hvisited.annotations.trans hannotations)
            (hvisited.useMessageAsName.trans huse)
            (by rw [hvisited.wroteName, hwrote, htaken])
          rw [hvisited.cache] at hnext
          exact hnext
      rw [trace_cons, recorded_cons]
      cases hcounter : isCounter memory name visit with
      | false =>
          rw [placed_skip memory bases hcounter, placeable_skip memory hcounter]
          exact hrest _ (recordVisit_other memory bases visitor name visit tables hcounter)
      | true =>
          by_cases hroom : visitor.counterCount < maxExtraCounters
          · obtain ⟨hsampled, hcount⟩ := recordVisit_sampled_iff memory bases visitor name visit
              tables hcounters hcounter hroom
            obtain ⟨room, hleft⟩ : ∃ room, maxExtraCounters - visitor.counterCount = room + 1 :=
              ⟨maxExtraCounters - visitor.counterCount - 1, by omega⟩
            rw [hleft, placed_sample memory bases hcounter, placeable_sample memory hcounter,
              hsampled]
            refine and_congr_right ?_
            intro hplaceable
            have hrest := hrest _ (hcount hplaceable)
            rwa [Nat.sub_add_eq, hleft, Nat.add_sub_cancel] at hrest
          · obtain ⟨hannotated, hcount⟩ := recordVisit_annotated_iff memory bases visitor name
              visit tables hcounters hcounter hroom
            have hrest := hrest _ hcount
            have hleft : maxExtraCounters - visitor.counterCount = 0 := by omega
            rw [hleft] at hrest ⊢
            rw [placed_ordinary memory bases hcounter, placeable_ordinary memory hcounter,
              hrest, hannotated, hannotations]

end Trace

/-! ## The event on its sequence -/

/-- The cache after the loop over these fields. -/
def cacheAfter (trackOf : Nat → Nat) : List StaticStr → PtrMap Nat → PtrMap Nat
  | [], cache => cache
  | name :: names, cache =>
      match cache name.ptr with
      | some _ => cacheAfter trackOf names cache
      | none => cacheAfter trackOf names (cache.insert name.ptr (trackOf name.ptr))

theorem cacheAfter_ne_none (trackOf : Nat → Nat) (names : List StaticStr) (cache : PtrMap Nat)
    (ptr : Nat) :
    cacheAfter trackOf names cache ptr ≠ none ↔
      cache ptr ≠ none ∨ ptr ∈ names.map StaticStr.ptr := by
  induction names generalizing cache with
  | nil => simp [cacheAfter]
  | cons name names ih =>
      simp only [cacheAfter]
      cases hcache : cache name.ptr with
      | some uuid =>
          rw [ih, List.map_cons, List.mem_cons]
          constructor
          · rintro (hknown | hname)
            · exact Or.inl hknown
            · exact Or.inr (Or.inr hname)
          · rintro (hknown | rfl | hname)
            · exact Or.inl hknown
            · exact Or.inl (by rw [hcache]; exact Option.some_ne_none uuid)
            · exact Or.inr hname
      | none =>
          rw [ih, List.map_cons, List.mem_cons]
          simp only [PtrMap.insert]
          by_cases hptr : ptr = name.ptr
          · simp [hptr]
          · simp [hptr]

section Served

variable {config : Config} {domain : ClockDomain}
variable {write : ClockDomain → Answers → SequenceWriter → Encode (List Op) →
  Option SequenceWriter} {made : Written → Prop}

theorem wrote_cache {answers : Answers} {writer writer' : SequenceWriter}
    {body : Encode (List Op)} {packet : Written}
    (h : Wrote domain answers writer body writer' packet) :
    writer'.sequence.tables.counterTrackCache =
      (body writer.sequence.tables).2.counterTrackCache := by
  have hemit : ∀ tables : InternTables,
      tables.emitInternedData.2.counterTrackCache = tables.counterTrackCache := by
    intro tables
    simp only [InternTables.emitInternedData]
    split <;> rfl
  have htables : writer'.sequence.tables = (body writer.sequence.tables).2.emitInternedData.2 :=
    visible_tables h.sequence
  rw [htables, hemit]

theorem write_pure_cache (hwrites : Writes write made) {answers : Answers}
    {writer writer' : SequenceWriter} {calls : List Op}
    (h : write domain answers writer (pure calls) = some writer') :
    writer'.sequence.tables.counterTrackCache = writer.sequence.tables.counterTrackCache := by
  obtain ⟨packet, -, hwrote⟩ := hwrites _ _ _ _ _ h
  exact wrote_cache hwrote

theorem ensureInitialized_cache (hwrites : Writes write made) {answers : Answers}
    {writer writer' : SequenceWriter}
    (h : SequenceWriter.ensureInitialized config domain write answers writer = some writer') :
    writer'.sequence.tables.counterTrackCache = writer.sequence.tables.counterTrackCache := by
  simp only [SequenceWriter.ensureInitialized] at h
  split at h
  · simp only [Option.some.injEq] at h
    rw [h]
  · simp only [SequenceWriter.initializeSequence, Option.bind_eq_bind,
      Option.bind_eq_some_iff] at h
    obtain ⟨snapshot, hsnapshot, process, hprocess, hthread⟩ := h
    have hread : (readSnapshotClock answers (markInitialized writer)).sequence.tables =
        writer.sequence.tables := by
      have hsequence := (timestamp_sequence (markInitialized writer) answers).1
      have htables := congrArg SequenceState.tables hsequence
      exact htables
    have hfirst := write_pure_cache hwrites hsnapshot
    have hlast := write_pure_cache hwrites hthread
    have hmiddle : process.sequence.tables.counterTrackCache =
        snapshot.sequence.tables.counterTrackCache := by
      simp only [SequenceWriter.processDescriptor] at hprocess
      split at hprocess
      · simp only [Option.some.injEq] at hprocess
        rw [hprocess]
      · simp only [Option.bind_eq_bind, Option.bind_eq_some_iff] at hprocess
        obtain ⟨arguments, -, hprocess⟩ := hprocess
        exact write_pure_cache hwrites hprocess
    rw [hlast, hmiddle, hfirst, hread]

theorem serve_packet (hwrites : Writes write made) {answers : Answers}
    {writer writer' : SequenceWriter} {body : Encode (List Op)}
    (h : SequenceWriter.serve config domain write writer (.packet answers body) =
      some writer') :
    ∃ before packet tables, writer'.written = before ++ [packet] ∧
      tables.counterTrackCache = writer.sequence.tables.counterTrackCache ∧
      packet.body = (body tables).1 ∧
      writer'.sequence.tables.counterTrackCache = (body tables).2.counterTrackCache := by
  simp only [SequenceWriter.serve, SequenceWriter.packet, Option.bind_eq_bind,
    Option.bind_eq_some_iff] at h
  obtain ⟨ready, hready, hwrite⟩ := h
  obtain ⟨packet, -, hwrote⟩ := hwrites _ _ _ _ _ hwrite
  exact ⟨_, packet, ready.sequence.tables, hwrote.written,
    ensureInitialized_cache hwrites hready, hwrote.body, wrote_cache hwrote⟩

variable (memory : StaticMemory) (bases : IdBases)

/-- The tracks of the declared counters are there before the event is written. -/
theorem serve_counterRequests (hwrites : Writes write made) {answers : Answers}
    {trackOf : Nat → Nat} {processUuid : Nat} {names : List StaticStr}
    {more : List LayerRequest} {writer writer' : SequenceWriter}
    (h : ((counterRequests answers trackOf processUuid names
        writer.sequence.tables.counterTrackCache ++ more).map
        (LayerRequest.request memory config bases)).foldlM
      (SequenceWriter.serve config domain write) writer = some writer') :
    ∃ next : SequenceWriter,
      next.sequence.tables.counterTrackCache =
        cacheAfter trackOf names writer.sequence.tables.counterTrackCache ∧
      (more.map (LayerRequest.request memory config bases)).foldlM
        (SequenceWriter.serve config domain write) next = some writer' := by
  induction names generalizing writer with
  | nil => exact ⟨writer, rfl, h⟩
  | cons name names ih =>
      simp only [counterRequests] at h
      simp only [cacheAfter]
      cases hcache : writer.sequence.tables.counterTrackCache name.ptr with
      | some uuid =>
          rw [hcache] at h
          exact ih h
      | none =>
          rw [hcache] at h
          simp only [List.cons_append, List.map_cons, List.foldlM_cons, Option.bind_eq_bind,
            Option.bind_eq_some_iff, LayerRequest.request] at h
          obtain ⟨described, hdescribed, cached, hcached, hrest⟩ := h
          obtain ⟨-, -, tables, -, htables, -, hafter⟩ := serve_packet hwrites hdescribed
          have hafter : described.sequence.tables.counterTrackCache =
              writer.sequence.tables.counterTrackCache := hafter.trans htables
          simp only [SequenceWriter.serve, Option.some.injEq] at hcached
          subst hcached
          have hinsert : (described.sequence.tables.cacheCounterTrack name
              (trackOf name.ptr)).counterTrackCache =
                writer.sequence.tables.counterTrackCache.insert name.ptr (trackOf name.ptr) := by
            rw [← hafter]
            rfl
          rw [← hinsert] at hrest
          obtain ⟨next, hnext, hmore⟩ := ih hrest
          exact ⟨next, hnext.trans (congrArg _ hinsert), hmore⟩

end Served

section Event

variable (memory : StaticMemory) (config : Config) (bases : IdBases)

theorem writeMetadata_cache (metadata : Metadata) (tables : InternTables) :
    (writeMetadata memory config metadata tables).2.counterTrackCache =
      tables.counterTrackCache := by
  have hlocation : (writeSourceLocation memory config metadata tables).2.counterTrackCache =
      tables.counterTrackCache := by
    cases hfile : metadata.file with
    | none => simp [writeSourceLocation, hfile, pure_run]
    | some file =>
        cases hline : metadata.line with
        | none => simp [writeSourceLocation, hfile, hline, pure_run]
        | some line =>
            simp only [writeSourceLocation, hfile, hline]
            cases config.sourceLocations with
            | false => rfl
            | true =>
                simp only [onlyIf, if_true, bind_run, pure_run,
                  InternTables.internSourceLocation]
                split <;> rfl
  have hlevel : ∀ tables, (writeLevel metadata.level tables).2.counterTrackCache =
      tables.counterTrackCache := by
    intro tables
    simp only [writeLevel]
    split <;> split <;> rfl
  simp only [writeMetadata, bind_run, pure_run]
  exact (hlevel _).trans hlocation

theorem instant_writes (uuid : Option Nat) (metadata : Metadata) (values : Visits)
    (tables : InternTables) :
    ∃ head name, ((Body.instant uuid metadata values).encode memory config bases tables).1 =
      [.message TracePacket.trackEvent
        (head ++ (eventWrites memory bases config metadata values tables).flatMap Write.calls ++
          name)] := by
  have hrecord := record_trace memory bases (eventVisitor memory config metadata) values
    (writeMetadata memory config metadata tables).2
  rw [eventWrites, ← hrecord]
  exact Exists.intro _ (Exists.intro _ rfl)

/-- The tables of a thread when it writes the event, if its earlier events have left this
cache. -/
def eventTables (trackOf : Nat → Nat) (metadata : Metadata) (tables : InternTables)
    (cache : PtrMap Nat) : InternTables :=
  { tables with
    counterTrackCache := cacheAfter trackOf (declaredCounters memory metadata) cache }

/-- Whatever the earlier events have cached, the first eight counter values are samples and
the others annotations. -/
def AlwaysPlaced (trackOf : Nat → Nat) (metadata : Metadata) (values : Visits)
    (tables : InternTables) : Prop :=
  ∀ cache, Placed memory bases (eventTables memory trackOf metadata tables cache).counterTrackCache
    maxExtraCounters
    (eventWrites memory bases config metadata values
      (eventTables memory trackOf metadata tables cache))

/-- A track that does not depend on the cache is that of a declared counter. -/
theorem placeable_always {annotations : Bool} {declared : Nat → Prop} {room : Nat}
    {visits : Visits} :
    (∀ cache : PtrMap Nat,
        Placeable memory annotations (fun ptr => cache ptr ≠ none ∨ declared ptr) room visits) ↔
      Placeable memory annotations declared room visits := by
  constructor
  · intro hall
    -- on a fresh sequence nothing is cached
    obtain ⟨hnarrow, htracked, hkept⟩ := hall fun _ => none
    refine ⟨hnarrow, fun visit hvisit => ?_, hkept⟩
    exact (htracked visit hvisit).resolve_left fun hcached => hcached rfl
  · rintro ⟨hnarrow, htracked, hkept⟩ cache
    exact ⟨hnarrow, fun visit hvisit => .inr (htracked visit hvisit), hkept⟩

theorem alwaysPlaced_iff (hcounters : config.counters = true) (trackOf : Nat → Nat)
    (metadata : Metadata) (values : Visits) (tables : InternTables) :
    AlwaysPlaced memory config bases trackOf metadata values tables ↔
      Placeable memory config.debugAnnotations
        (fun ptr => ptr ∈ (declaredCounters memory metadata).map StaticStr.ptr)
        maxExtraCounters (recorded memory (eventVisitor memory config metadata) values) := by
  rw [← placeable_always]
  refine forall_congr' fun cache => ?_
  have hplaced := trace_placed_iff memory bases (eventVisitor memory config metadata)
    (eventVisitor memory config metadata) values
    (writeMetadata memory config metadata (eventTables memory trackOf metadata tables cache)).2
    hcounters rfl rfl rfl
  rw [writeMetadata_cache] at hplaced
  refine hplaced.trans ?_
  simp only [eventTables, cacheAfter_ne_none]
  rfl

/-- Whatever a thread has emitted before, the first eight recorded counters of an event are
samples and the others annotations, exactly when those eight are narrow and among the first
eight that the event declares, and wider ones beyond them meet enabled annotations. -/
theorem counters_placed_iff {domain : ClockDomain} {answers : Answers} {trackOf : Nat → Nat}
    {processUuid : Nat} {uuid : Option Nat} {metadata : Metadata} {values : Visits}
    {sequence sequence' : SequenceState} {written : List Written}
    (hcounters : config.counters = true)
    (hrun : callback config domain writePacket sequence
      ((eventRequests memory config answers trackOf processUuid uuid metadata values
        sequence.tables.counterTrackCache).map (LayerRequest.request memory config bases)) =
          some (sequence', written)) :
    ∃ before packet tables head name, written = before ++ [packet] ∧
      packet.body = [.message TracePacket.trackEvent
        (head ++ (eventWrites memory bases config metadata values
          (eventTables memory trackOf metadata tables
            sequence.tables.counterTrackCache)).flatMap Write.calls ++ name)] ∧
      (AlwaysPlaced memory config bases trackOf metadata values tables ↔
        Placeable memory config.debugAnnotations
          (fun ptr => ptr ∈ (declaredCounters memory metadata).map StaticStr.ptr)
          maxExtraCounters (recorded memory (eventVisitor memory config metadata) values)) := by
  simp only [callback, eventRequests, hcounters, if_true, Option.bind_eq_bind,
    Option.bind_eq_some_iff, Option.some.injEq, Prod.mk.injEq] at hrun
  obtain ⟨writer, hserve, rfl, rfl⟩ := hrun
  obtain ⟨next, hcache, hlast⟩ :=
    serve_counterRequests memory bases writes_writePacket hserve
  simp only [List.map_cons, List.map_nil, List.foldlM_cons, List.foldlM_nil, Option.pure_def,
    Option.bind_eq_bind, Option.bind_eq_some_iff, Option.some.injEq] at hlast
  obtain ⟨writer, hevent, rfl⟩ := hlast
  obtain ⟨before, packet, tables, hwritten, htables, hbody, -⟩ :=
    serve_packet writes_writePacket hevent
  obtain ⟨head, name, hcalls⟩ := instant_writes memory config bases uuid metadata values tables
  have hsame : eventTables memory trackOf metadata tables sequence.tables.counterTrackCache =
      tables := by
    have hdeclared : cacheAfter trackOf (declaredCounters memory metadata)
        sequence.tables.counterTrackCache = tables.counterTrackCache := (htables.trans hcache).symm
    rw [eventTables, hdeclared]
  refine ⟨before, packet, tables, head, name, hwritten, ?_,
    alwaysPlaced_iff memory config bases hcounters trackOf metadata values tables⟩
  rw [hsame]
  exact hbody.trans hcalls

end Event

/-- A memory with the words "poll" at 16 and "counter.depth" at 20. -/
def sampleMemory : StaticMemory where
  byte := fun address => (text "pollcounter.depth").getD (address - 16) 0
  poll := (default : StaticMemory).poll
  poll_text := by decide +kernel

def sampleName : StaticStr := ⟨20, 13, by decide⟩

def sampleMetadata : Metadata := ⟨64, sampleName, sampleName, .info, none, none, [sampleName]⟩

def sampleConfig : Config := ⟨.spanTracks, false, false, false, true, false⟩

/-- The tables once the track of the field is there. -/
def sampleTables : InternTables := InternTables.new.cacheCounterTrack sampleName 8

/-- A counter of 128 bits is lost when annotations are off. -/
theorem wide_counter_lost :
    ¬ AlwaysPlaced sampleMemory sampleConfig default (fun _ => 8) sampleMetadata
      [(sampleName, .u128 5)] InternTables.new := by
  intro halways
  have hplaced := halways fun _ => none
  have hwrites : (eventWrites sampleMemory default sampleConfig sampleMetadata
      [(sampleName, .u128 5)] (eventTables sampleMemory (fun _ => 8) sampleMetadata
        InternTables.new fun _ => none)).map
        (fun write => (write.name, write.visit, write.calls.length)) =
      [(sampleName, .u128 5, 0)] := by decide +kernel
  obtain ⟨write, hone, hwrite⟩ := List.map_eq_singleton_iff.1 hwrites
  simp only [Prod.mk.injEq, List.length_eq_zero_iff] at hwrite
  obtain ⟨hname, hvisit, hcalls⟩ := hwrite
  have hcounter : isCounter sampleMemory write.name write.visit = true := by
    rw [hname, hvisit]
    decide +kernel
  rw [hone] at hplaced
  obtain ⟨uuid, -, hsample⟩ :=
    ((placed_sample sampleMemory default hcounter).1 hplaced).1
  rw [hcalls, hvisit] at hsample
  simp [sampleCalls, counterI64] at hsample

def sampleRun : Option (SequenceState × List Written) :=
  callback sampleConfig (.builtin 6) writePacket (SequenceState.new 65536 3 100)
    ((eventRequests sampleMemory sampleConfig
      ⟨140, 9, 9, none, true, 77, 4, [112], [], 5, [116]⟩ (fun _ => 8) 7 none sampleMetadata
      [(sampleName, .u64 5)] fun _ => none).map
        (LayerRequest.request sampleMemory sampleConfig default))

theorem sampleRun_isSome : sampleRun.isSome = true := by decide +kernel

theorem counters_placed_iff_sample : ∃ sequence written packet tables,
    sampleRun = some (sequence, written) ∧ written.getLast? = some packet ∧
      AlwaysPlaced sampleMemory sampleConfig default (fun _ => 8) sampleMetadata
        [(sampleName, .u64 5)] tables := by
  obtain ⟨⟨sequence, written⟩, hrun⟩ := Option.isSome_iff_exists.1 sampleRun_isSome
  obtain ⟨before, packet, tables, head, name, hwritten, -, hplaced⟩ :=
    counters_placed_iff sampleMemory sampleConfig default (by decide) hrun
  have hrecorded : recorded sampleMemory (eventVisitor sampleMemory sampleConfig sampleMetadata)
      [(sampleName, .u64 5)] = [(sampleName, .u64 5)] := by decide +kernel
  have hdeclared : sampleName.ptr ∈
      (declaredCounters sampleMemory sampleMetadata).map StaticStr.ptr := by decide +kernel
  refine ⟨sequence, written, packet, tables, hrun, ?_, hplaced.2 ?_⟩
  · rw [hwritten]
    exact List.getLast?_concat
  · rw [hrecorded]
    have hcounters : counterVisits sampleMemory [(sampleName, .u64 5)] =
        [(sampleName, .u64 5)] := by decide +kernel
    refine ⟨?_, ?_, ?_⟩
    · rw [hcounters]
      decide
    · rw [hcounters]
      intro visit hvisit
      rw [List.mem_singleton.1 (List.mem_of_mem_take hvisit)]
      exact hdeclared
    · rw [hcounters]
      decide

end TracingPerfetto.Counters
