import Mathlib.Data.List.Forall2
import TracingPerfetto.Counters

/-!
How an event gets its name and its annotations. A "message" that is recorded as a text
names an event that has no name of its own; every other value is an annotation, and an
event that is not named by a message refers to the interned name of its metadata.
-/

namespace TracingPerfetto.EventRouting

open TracingPerfetto.Wire TracingPerfetto.Proto TracingPerfetto.Runtime
open TracingPerfetto.Schema TracingPerfetto.Emit TracingPerfetto.Sequence
open TracingPerfetto.Sequence.SequenceWriter TracingPerfetto.SequenceRuns
open TracingPerfetto.TrackEvents TracingPerfetto.Interning TracingPerfetto.Counters

/-! ## Interners grow -/

/-- The last answer is remembered as it is in the map. -/
def Remembers (interner : Interner) : Prop :=
  interner.lastKey ≠ 0 → interner.map interner.lastKey = some interner.lastIid

/-- No address loses its id. -/
structure Grown (interner interner' : Interner) : Prop where
  remembers : Remembers interner → Remembers interner'
  kept : ∀ key iid, interner.map key = some iid → interner'.map key = some iid

theorem Grown.refl (interner : Interner) : Grown interner interner :=
  ⟨id, fun _ _ => id⟩

theorem Grown.trans {first second third : Interner} (h : Grown first second)
    (hnext : Grown second third) : Grown first third :=
  ⟨fun hfirst => hnext.remembers (h.remembers hfirst),
    fun key iid hkey => hnext.kept key iid (h.kept key iid hkey)⟩

section Intern

variable (memory : StaticMemory) (interner : Interner) (value : StaticStr) (pending : Pending)

theorem intern_grown : Grown interner (interner.intern memory value pending).2.1 := by
  simp only [Interner.intern]
  split
  · exact Grown.refl interner
  · split
    · rename_i iid hmap
      exact ⟨fun _ _ => hmap, fun _ _ => id⟩
    · rename_i hmap
      refine ⟨fun _ _ => by simp [Interner.internMiss, PtrMap.insert], ?_⟩
      intro key iid hkey
      have hne : key ≠ value.ptr := by
        rintro rfl
        rw [hmap] at hkey
        simp at hkey
      simp only [Interner.internMiss, PtrMap.insert, if_neg hne]
      exact hkey

/-- The id that an interning call returns is the one of the address from then on. -/
theorem intern_maps (h : Remembers interner) :
    (interner.intern memory value pending).2.1.map value.ptr =
      some (interner.intern memory value pending).1 := by
  simp only [Interner.intern]
  split
  · rename_i hlast
    have hcached := h (by rw [hlast]; exact value.ptr_ne)
    rwa [hlast] at hcached
  · split
    · rename_i iid hmap
      exact hmap
    · simp [Interner.internMiss, PtrMap.insert]

end Intern

/-- The interners of names, after an encoder. -/
structure NamesGrown (tables tables' : InternTables) : Prop where
  eventNames : Grown tables.eventNames tables'.eventNames
  annotationNames : Grown tables.annotationNames tables'.annotationNames

def Steady {α : Type} (encode : Encode α) : Prop :=
  ∀ tables, NamesGrown tables (encode tables).2

theorem NamesGrown.refl (tables : InternTables) : NamesGrown tables tables :=
  ⟨Grown.refl _, Grown.refl _⟩

theorem NamesGrown.trans {first second third : InternTables} (h : NamesGrown first second)
    (hnext : NamesGrown second third) : NamesGrown first third :=
  ⟨h.eventNames.trans hnext.eventNames, h.annotationNames.trans hnext.annotationNames⟩

/-- Tables with the same interners. -/
theorem namesGrown_same {tables tables' : InternTables}
    (heventNames : tables'.eventNames = tables.eventNames)
    (hannotationNames : tables'.annotationNames = tables.annotationNames) :
    NamesGrown tables tables' :=
  ⟨by rw [heventNames]; exact Grown.refl _, by rw [hannotationNames]; exact Grown.refl _⟩

section Encoders

variable {memory : StaticMemory} {config : Config} {bases : IdBases}

theorem Steady.pure {α : Type} (value : α) : Steady (Pure.pure value : Encode α) :=
  fun tables => NamesGrown.refl tables

theorem Steady.bind {α β : Type} {encode : Encode α} {next : α → Encode β}
    (h : Steady encode) (hnext : ∀ value, Steady (next value)) : Steady (encode >>= next) := by
  intro tables
  rw [bind_run]
  exact (h tables).trans (hnext _ _)

theorem Steady.onlyIf {encode : Encode (List Op)} (h : Steady encode) (condition : Bool) :
    Steady (onlyIf condition encode) := by
  cases condition with
  | true => exact h
  | false => exact Steady.pure []

theorem steady_internEventName (name : StaticStr) :
    Steady (InternTables.internEventName memory name) := fun tables =>
  ⟨intern_grown memory tables.eventNames name tables.newEventNames, Grown.refl _⟩

theorem steady_internAnnotationName (name : StaticStr) :
    Steady (TrackEvents.internAnnotationName memory name) := fun tables =>
  ⟨Grown.refl _, intern_grown memory tables.annotationNames name tables.newAnnotationNames⟩

theorem steady_internCategory (name : StaticStr) :
    Steady (InternTables.internCategory memory name) := fun _ => namesGrown_same rfl rfl

theorem steady_internSourceLocation (callsite : Nat) (file : StaticStr) (line : Nat) :
    Steady (InternTables.internSourceLocation memory callsite file line) := by
  intro tables
  simp only [InternTables.internSourceLocation]
  split <;> exact namesGrown_same rfl rfl

theorem steady_writeLevel (level : Level) : Steady (writeLevel level) := by
  intro tables
  simp only [writeLevel]
  split <;> split <;> exact namesGrown_same rfl rfl

theorem steady_writeSourceLocation (metadata : Metadata) :
    Steady (writeSourceLocation memory config metadata) := by
  rw [writeSourceLocation.eq_def]
  split
  · apply Steady.onlyIf
    exact (steady_internSourceLocation _ _ _).bind fun _ => Steady.pure _
  · exact Steady.pure []

theorem steady_writeMetadata (metadata : Metadata) :
    Steady (writeMetadata memory config metadata) := by
  apply (steady_writeSourceLocation metadata).bind
  intro location
  apply (steady_writeLevel metadata.level).bind
  intro level
  exact (steady_internCategory metadata.target).bind fun _ => Steady.pure _

theorem steady_writeStoredFields (fields : List (StaticStr × FieldValue)) :
    Steady (writeStoredFields memory fields) := by
  induction fields with
  | nil => exact Steady.pure []
  | cons field fields ih =>
      apply (steady_internAnnotationName field.1).bind
      intro nameIid
      exact ih.bind fun _ => Steady.pure _

theorem steady_recordAttributes (visits : Visits) : Steady (recordAttributes memory visits) := by
  induction visits with
  | nil => exact Steady.pure []
  | cons visit visits ih =>
      apply (steady_internAnnotationName visit.1).bind
      intro nameIid
      exact (ih.onlyIf _).bind fun _ => Steady.pure _

theorem steady_annotate (write : Bool) (name : StaticStr) (visit : FieldVisit) :
    Steady (EventVisitor.annotate memory write name visit) := by
  apply Steady.onlyIf
  exact (steady_internAnnotationName name).bind fun _ => Steady.pure _

theorem steady_recordVisit (visitor : EventVisitor) (name : StaticStr) (visit : FieldVisit) :
    Steady (visitor.recordVisit memory bases name visit) := by
  have hnumber : ∀ sample, Steady (visitor.recordNumber memory bases name visit sample) := by
    intro sample tables
    rcases recordNumber_cases memory bases visitor name visit sample tables with
      ⟨uuid, -, -, -, heq⟩ | ⟨-, heq⟩
    · rw [heq]
      exact NamesGrown.refl tables
    · rw [heq]
      exact steady_annotate _ name visit tables
  have htext : ∀ eventName, Steady (visitor.recordText memory name visit eventName) := by
    intro eventName
    rw [EventVisitor.recordText]
    split
    · exact Steady.pure _
    · exact (steady_annotate _ name visit).bind fun _ => Steady.pure _
  cases visit with
  | i64 value | u64 value | f64 value => exact hnumber _
  | str value | debug value => exact htext _
  | _ => exact (steady_annotate _ name _).bind fun _ => Steady.pure _

theorem steady_record (visitor : EventVisitor) (visits : Visits) :
    Steady (visitor.record memory bases visits) := by
  induction visits generalizing visitor with
  | nil => exact Steady.pure _
  | cons visit visits ih =>
      apply (steady_recordVisit visitor visit.1 visit.2).bind
      intro first
      split
      · exact Steady.pure _
      · exact (ih first.2).bind fun _ => Steady.pure _

theorem steady_encode (body : Body) : Steady (body.encode memory config bases) := by
  have hevent : ∀ event : Encode (List Op), Steady event → Steady (trackEvent event) :=
    fun event h => h.bind fun _ => Steady.pure _
  cases body with
  | trackDescriptor | counterDescriptor => exact Steady.pure _
  | enterEnd => exact hevent _ (Steady.pure _)
  | lifetimeBegin uuid metadata attributes =>
      apply hevent
      apply (steady_internEventName metadata.name).bind
      intro name
      apply (steady_writeMetadata metadata).bind
      intro described
      exact ((steady_recordAttributes attributes).onlyIf _).bind fun _ => Steady.pure _
  | lifetimeEnd uuid flows fields =>
      apply hevent
      exact ((steady_writeStoredFields fields).onlyIf _).bind fun _ => Steady.pure _
  | threadBegin metadata fields pollFlowId flows =>
      apply hevent
      apply (steady_internEventName metadata.name).bind
      intro name
      apply (steady_writeMetadata metadata).bind
      intro described
      exact ((steady_writeStoredFields fields).onlyIf _).bind fun _ => Steady.pure _
  | pollBegin uuid pollFlowId flows =>
      apply hevent
      exact (steady_internEventName memory.poll).bind fun _ => Steady.pure _
  | instant uuid metadata values =>
      apply hevent
      apply (steady_writeMetadata metadata).bind
      intro described
      apply (steady_record _ values).bind
      intro recorded
      apply Steady.bind
      · apply Steady.onlyIf
        exact (steady_internEventName metadata.name).bind fun _ => Steady.pure _
      · exact fun _ => Steady.pure _

end Encoders

/-! ## Sequences that a run reaches -/

/-- Both interners of names remember their last answers. -/
def Reached (sequence : SequenceState) : Prop :=
  Remembers sequence.tables.eventNames ∧ Remembers sequence.tables.annotationNames

theorem emit_names (tables : InternTables) : NamesGrown tables tables.emitInternedData.2 := by
  simp only [InternTables.emitInternedData]
  split <;> exact namesGrown_same rfl rfl

theorem NamesGrown.remembers {tables tables' : InternTables} (h : NamesGrown tables tables')
    (hremembers : Remembers tables.eventNames ∧ Remembers tables.annotationNames) :
    Remembers tables'.eventNames ∧ Remembers tables'.annotationNames :=
  ⟨h.eventNames.remembers hremembers.1, h.annotationNames.remembers hremembers.2⟩

theorem wrote_tables {domain : ClockDomain} {answers : Answers}
    {writer writer' : SequenceWriter} {body : Encode (List Op)} {packet : Written}
    (hwrote : Wrote domain answers writer body writer' packet) :
    writer'.sequence.tables = (body writer.sequence.tables).2.emitInternedData.2 :=
  visible_tables hwrote.sequence

theorem invariant_reached {made : Written → Prop} (domain : ClockDomain) :
    Invariant domain Steady made fun _ sequence => Reached sequence where
  wrote := by
    intro all answers writer body writer' packet hsteady _ h hwrote
    rw [Reached, wrote_tables hwrote]
    exact ((hsteady _).trans (emit_names _)).remembers h
  mark := id
  read := fun _ => id
  cache := fun _ _ h => h
  clockSnapshot := fun _ _ _ => Steady.pure _
  processDescriptor := fun _ _ => Steady.pure _
  threadDescriptor := fun _ _ => Steady.pure _

theorem reached_new (sequenceId threadTrackUuid clockAnchorNs : Nat) :
    Reached (SequenceState.new sequenceId threadTrackUuid clockAnchorNs) :=
  ⟨fun h => absurd rfl h, fun h => absurd rfl h⟩

/-! ## What the values of an event are for -/

/-- The value can name an event. -/
def isMessage (memory : StaticMemory) (visit : StaticStr × FieldVisit) : Bool :=
  memory.text visit.1 == text "message" &&
    match visit.2 with
    | .str _ | .debug _ => true
    | _ => false

def messageText : FieldVisit → Bytes
  | .str value => value
  | .debug value => value.chunks.flatten
  | _ => []

/-- The visits that are made, and whether the last of them unwinds: a formatter runs
for a name and for an annotation, and its panic ends the visits. -/
def visited (memory : StaticMemory) (annotations unnamed : Bool) : Visits → Visits × Bool
  | [] => ([], false)
  | visit :: visits =>
      let names := unnamed && isMessage memory visit
      if visit.2.panics && (names || annotations) then ([visit], true)
      else
        let rest := visited memory annotations (unnamed && !names) visits
        (visit :: rest.1, rest.2)

/-- The visit that names an event which has no name of its own. -/
def namedBy (memory : StaticMemory) (unnamed : Bool) (visits : Visits) :
    Option (StaticStr × FieldVisit) :=
  if unnamed then visits.find? (isMessage memory) else none

def otherVisits (memory : StaticMemory) (unnamed : Bool) (visits : Visits) : Visits :=
  if unnamed then visits.eraseP (isMessage memory) else visits

/-- The annotation is the value's, under the id of its field's name. -/
structure Annotates (tables : InternTables) (visit : StaticStr × FieldVisit)
    (note : List Field) : Prop where
  written : ∃ iid, tables.annotationNames.map visit.1.ptr = some iid ∧
    varints DebugAnnotation.nameIid note = [iid] ∧
    messages TrackEvent.debugAnnotations (Op.fields [visitedField iid visit.2]) = [note]

def AllAnnotated (annotations : Bool) (tables : InternTables) (visits : Visits)
    (written : List (List Field)) : Prop :=
  if annotations then List.Forall₂ (Annotates tables) visits written else written = []

theorem Annotates.grown {tables tables' : InternTables} {visit : StaticStr × FieldVisit}
    {note : List Field} (h : Annotates tables visit note)
    (hgrown : NamesGrown tables tables') : Annotates tables' visit note := by
  obtain ⟨iid, hmap, hwritten⟩ := h.written
  exact ⟨iid, hgrown.annotationNames.kept _ _ hmap, hwritten⟩

theorem AllAnnotated.grown {annotations : Bool} {tables tables' : InternTables}
    {visits : Visits} {written : List (List Field)}
    (h : AllAnnotated annotations tables visits written) (hgrown : NamesGrown tables tables') :
    AllAnnotated annotations tables' visits written := by
  cases annotations with
  | false => exact h
  | true => exact List.Forall₂.imp (fun _ _ hone => Annotates.grown hone hgrown) h

theorem AllAnnotated.append {annotations : Bool} {tables : InternTables} {visits more : Visits}
    {written others : List (List Field)} (h : AllAnnotated annotations tables visits written)
    (hmore : AllAnnotated annotations tables more others) :
    AllAnnotated annotations tables (visits ++ more) (written ++ others) := by
  cases annotations with
  | false =>
      simp only [AllAnnotated, Bool.false_eq_true, if_false] at h hmore ⊢
      rw [h, hmore, List.nil_append]
  | true => exact List.rel_append h hmore

theorem allAnnotated_nil (annotations : Bool) (tables : InternTables) :
    AllAnnotated annotations tables [] [] := by
  cases annotations with
  | false => rfl
  | true => exact List.Forall₂.nil

/-- The fields of an event that routing is about. -/
structure Shows (event : List Field) (names : List Bytes) (annotations : List (List Field)) :
    Prop where
  names : texts TrackEvent.name event = names
  iids : varints TrackEvent.nameIid event = []
  annotations : messages TrackEvent.debugAnnotations event = annotations

theorem texts_append (id : Nat) (fields more : List Field) :
    texts id (fields ++ more) = texts id fields ++ texts id more :=
  List.filterMap_append

theorem Shows.append {event more : List Field} {names names' : List Bytes}
    {annotations annotations' : List (List Field)} (h : Shows event names annotations)
    (hmore : Shows more names' annotations') :
    Shows (event ++ more) (names ++ names') (annotations ++ annotations') :=
  ⟨by rw [texts_append, h.names, hmore.names], by rw [varints_append, h.iids, hmore.iids]; rfl,
    by rw [messages_append, h.annotations, hmore.annotations]⟩

section Routing

variable (memory : StaticMemory) (bases : IdBases)

theorem visitedField_shows (iid : Nat) (visit : FieldVisit) :
    ∃ note, Shows (Op.fields [visitedField iid visit]) [] [note] ∧
      varints DebugAnnotation.nameIid note = [iid] := by
  cases visit with
  | i128 value =>
      rw [visitedField]
      cases tryI64 value with
      | some value => exact ⟨_, ⟨rfl, rfl, rfl⟩, rfl⟩
      | none => exact ⟨_, ⟨rfl, rfl, rfl⟩, rfl⟩
  | u128 value =>
      rw [visitedField]
      cases tryU64 value with
      | some value => exact ⟨_, ⟨rfl, rfl, rfl⟩, rfl⟩
      | none => exact ⟨_, ⟨rfl, rfl, rfl⟩, rfl⟩
  | _ => exact ⟨_, ⟨rfl, rfl, rfl⟩, rfl⟩

/-- A value that is not a name. -/
theorem annotate_routed (annotations : Bool) (name : StaticStr) (visit : FieldVisit)
    (tables : InternTables) (h : Remembers tables.annotationNames) :
    ∃ written,
      Shows (Op.fields (EventVisitor.annotate memory annotations name visit tables).1) [] written ∧
      AllAnnotated annotations (EventVisitor.annotate memory annotations name visit tables).2
        [(name, visit)] written := by
  cases annotations with
  | false => exact ⟨[], ⟨rfl, rfl, rfl⟩, rfl⟩
  | true =>
      obtain ⟨note, hshows, hiid⟩ := visitedField_shows
        (TrackEvents.internAnnotationName memory name tables).1 visit
      refine ⟨[note], hshows, List.Forall₂.cons ⟨_, ?_, hiid, hshows.annotations⟩ .nil⟩
      exact intern_maps memory tables.annotationNames name tables.newAnnotationNames h

/-- Whether a message would still name the event. -/
def unnamed (visitor : EventVisitor) : Bool := visitor.useMessageAsName && !visitor.wroteName

/-- The visit names the event. -/
def Names (visitor : EventVisitor) (name : StaticStr) (visit : FieldVisit)
    (tables : InternTables) : Prop :=
  (unnamed visitor && isMessage memory (name, visit)) = true ∧
    ∃ calls, visitor.recordVisit memory bases name visit tables =
      ((calls, { visitor with wroteName := true }), tables) ∧
        Shows (Op.fields calls) [messageText visit] []

/-- The visit is a matter of annotations. -/
def Describes (visitor : EventVisitor) (name : StaticStr) (visit : FieldVisit)
    (tables : InternTables) : Prop :=
  (unnamed visitor && isMessage memory (name, visit)) = false ∧
    visitor.recordVisit memory bases name visit tables =
      (((EventVisitor.annotate memory visitor.annotations name visit tables).1, visitor),
        (EventVisitor.annotate memory visitor.annotations name visit tables).2)

theorem recordNumber_routed (visitor : EventVisitor) (name : StaticStr) (visit : FieldVisit)
    (sample : Nat → List Op) (tables : InternTables) (hcounters : visitor.counters = false) :
    visitor.recordNumber memory bases name visit sample tables =
      (((EventVisitor.annotate memory visitor.annotations name visit tables).1, visitor),
        (EventVisitor.annotate memory visitor.annotations name visit tables).2) := by
  have hcounter : visitor.isCounter memory name = false := by
    rw [EventVisitor.isCounter, hcounters, Bool.false_and]
  rcases recordNumber_cases memory bases visitor name visit sample tables with
    ⟨uuid, hcounted, -⟩ | ⟨-, heq⟩
  · rw [hcounter] at hcounted
    exact absurd hcounted (by decide)
  · rw [heq, hcounter, Bool.false_or]

theorem recordText_routed (visitor : EventVisitor) (name : StaticStr) (visit : FieldVisit)
    (eventName : Op) (tables : InternTables)
    (hmessage : isMessage memory (name, visit) = (memory.text name == text "message"))
    (hshows : Shows (Op.fields [eventName]) [messageText visit] [])
    (hrecord : visitor.recordVisit memory bases name visit =
      visitor.recordText memory name visit eventName) :
    Names memory bases visitor name visit tables ∨
      Describes memory bases visitor name visit tables := by
  have hsame : visitor.isMessage memory name =
      (unnamed visitor && isMessage memory (name, visit)) := by
    rw [hmessage]
    rfl
  rw [Names, Describes, hrecord, EventVisitor.recordText, hsame]
  cases hnames : unnamed visitor && isMessage memory (name, visit) with
  | true => exact Or.inl ⟨rfl, [eventName], rfl, hshows⟩
  | false => exact Or.inr ⟨rfl, rfl⟩

/-- A visit either names the event or is a matter of annotations. -/
theorem recordVisit_routed (visitor : EventVisitor) (name : StaticStr) (visit : FieldVisit)
    (tables : InternTables) (hcounters : visitor.counters = false) :
    Names memory bases visitor name visit tables ∨
      Describes memory bases visitor name visit tables := by
  cases visit with
  | i64 value | u64 value | f64 value =>
      refine Or.inr ⟨by simp [isMessage], ?_⟩
      rw [EventVisitor.recordVisit]
      exact recordNumber_routed memory bases visitor name _ _ tables hcounters
  | str value =>
      exact recordText_routed memory bases visitor name _ (eventNameStr value) tables
        (by simp [isMessage]) ⟨rfl, rfl, rfl⟩ rfl
  | debug value =>
      exact recordText_routed memory bases visitor name _ (eventNameDebug value.chunks) tables
        (by simp [isMessage]) ⟨rfl, rfl, rfl⟩ rfl
  | bool value | i128 value | u128 value | bytes value | error value =>
      exact Or.inr ⟨by simp [isMessage], rfl⟩

theorem visitPanics_eq (visitor : EventVisitor) (name : StaticStr) (visit : FieldVisit) :
    visitor.visitPanics memory name visit = (visit.panics &&
      ((unnamed visitor && isMessage memory (name, visit)) || visitor.annotations)) := by
  cases visit with
  | debug value =>
      simp only [EventVisitor.visitPanics, EventVisitor.isMessage, unnamed, isMessage,
        FieldVisit.panics, FieldVisit.formatted, Bool.and_true]
      exact Bool.and_comm _ _
  | error value =>
      simp only [EventVisitor.visitPanics, isMessage, FieldVisit.panics, FieldVisit.formatted,
        Bool.and_false, Bool.false_or]
      exact Bool.and_comm _ _
  | _ => simp [EventVisitor.visitPanics, FieldVisit.panics, FieldVisit.formatted]

/-- What `event.record` has done with the visits. -/
structure Recorded (visitor : EventVisitor) (visits : Visits)
    (result : (List Op × EventVisitor × Bool) × InternTables) : Prop where
  unwound : result.1.2.2 = (visited memory visitor.annotations (unnamed visitor) visits).2
  wroteName : result.1.2.1.wroteName = (visitor.wroteName || (namedBy memory (unnamed visitor)
    (visited memory visitor.annotations (unnamed visitor) visits).1).isSome)
  shown : ∃ written,
    Shows (Op.fields result.1.1)
      ((namedBy memory (unnamed visitor)
        (visited memory visitor.annotations (unnamed visitor) visits).1).map fun visit =>
          messageText visit.2).toList written ∧
    AllAnnotated visitor.annotations result.2 (otherVisits memory (unnamed visitor)
      (visited memory visitor.annotations (unnamed visitor) visits).1) written

theorem namedBy_nil (names : Bool) : namedBy memory names [] = none := by
  cases names <;> rfl

theorem otherVisits_nil (names : Bool) : otherVisits memory names [] = [] := by
  cases names <;> rfl

theorem namedBy_cons (names : Bool) (visit : StaticStr × FieldVisit) (visits : Visits) :
    namedBy memory names (visit :: visits) =
      if names && isMessage memory visit then some visit
      else namedBy memory names visits := by
  cases names with
  | false => rfl
  | true =>
      simp only [namedBy, if_true, List.find?_cons, Bool.true_and]
      cases isMessage memory visit <;> rfl

theorem otherVisits_cons (names : Bool) (visit : StaticStr × FieldVisit) (visits : Visits) :
    otherVisits memory names (visit :: visits) =
      if names && isMessage memory visit then visits
      else visit :: otherVisits memory names visits := by
  cases names with
  | false => rfl
  | true =>
      simp only [otherVisits, if_true, List.eraseP_cons, Bool.true_and]
      cases isMessage memory visit <;> rfl

theorem record_unwinds (visitor : EventVisitor) (name : StaticStr) (visit : FieldVisit)
    (visits : Visits) (tables : InternTables)
    (hpanics : visitor.visitPanics memory name visit = true) :
    visitor.record memory bases ((name, visit) :: visits) tables =
      (((visitor.recordVisit memory bases name visit tables).1.1,
        (visitor.recordVisit memory bases name visit tables).1.2, true),
        (visitor.recordVisit memory bases name visit tables).2) := by
  simp only [EventVisitor.record, bind_run, hpanics, if_true, pure_run]

theorem record_goes_on (visitor : EventVisitor) (name : StaticStr) (visit : FieldVisit)
    (visits : Visits) (tables : InternTables)
    (hpanics : visitor.visitPanics memory name visit = false) :
    visitor.record memory bases ((name, visit) :: visits) tables =
      (((visitor.recordVisit memory bases name visit tables).1.1 ++
          ((visitor.recordVisit memory bases name visit tables).1.2.record memory bases visits
            (visitor.recordVisit memory bases name visit tables).2).1.1,
        ((visitor.recordVisit memory bases name visit tables).1.2.record memory bases visits
          (visitor.recordVisit memory bases name visit tables).2).1.2),
        ((visitor.recordVisit memory bases name visit tables).1.2.record memory bases visits
          (visitor.recordVisit memory bases name visit tables).2).2) := by
  simp only [EventVisitor.record, bind_run, hpanics, Bool.false_eq_true, if_false, pure_run]

theorem record_routed (visitor : EventVisitor) (visits : Visits) (tables : InternTables)
    (hcounters : visitor.counters = false) (h : Remembers tables.annotationNames) :
    Recorded memory visitor visits (visitor.record memory bases visits tables) := by
  induction visits generalizing visitor tables with
  | nil =>
      refine ⟨rfl, ?_, [], ?_, ?_⟩
      · rw [visited, namedBy_nil]
        exact (Bool.or_false _).symm
      · rw [visited, namedBy_nil]
        exact ⟨rfl, rfl, rfl⟩
      · rw [visited, otherVisits_nil]
        exact allAnnotated_nil _ _
  | cons first visits ih =>
      rcases first with ⟨name, visit⟩
      have hpanics := visitPanics_eq memory visitor name visit
      rcases recordVisit_routed memory bases visitor name visit tables hcounters with
        ⟨hnames, calls, hvisit, hshows⟩ | ⟨hnames, hvisit⟩
      · -- the event has its name now
        have hunnamed : unnamed { visitor with wroteName := true } = false :=
          Bool.and_false visitor.useMessageAsName
        rw [hnames, Bool.true_or, Bool.and_true] at hpanics
        cases hunwinds : visit.panics with
        | true =>
            rw [hunwinds] at hpanics
            have hvisited : visited memory visitor.annotations (unnamed visitor)
                ((name, visit) :: visits) = ([(name, visit)], true) := by
              simp [visited, hunwinds, hnames]
            rw [record_unwinds memory bases visitor name visit visits tables hpanics, hvisit]
            refine ⟨by rw [hvisited], ?_, [], ?_, ?_⟩
            · rw [hvisited, namedBy_cons, if_pos hnames]
              exact (Bool.or_true _).symm
            · rw [hvisited, namedBy_cons, if_pos hnames]
              exact hshows
            · rw [hvisited, otherVisits_cons, if_pos hnames]
              exact allAnnotated_nil _ _
        | false =>
            rw [hunwinds] at hpanics
            have hvisited : visited memory visitor.annotations (unnamed visitor)
                ((name, visit) :: visits) =
                  ((name, visit) :: (visited memory visitor.annotations false visits).1,
                    (visited memory visitor.annotations false visits).2) := by
              simp [visited, hunwinds, hnames]
            have hrest := ih { visitor with wroteName := true } tables hcounters h
            obtain ⟨hunwound, hwrote, written, hshown, hannotated⟩ := hrest
            rw [hunnamed] at hunwound hwrote hshown hannotated
            rw [record_goes_on memory bases visitor name visit visits tables hpanics, hvisit]
            refine ⟨by rw [hvisited]; exact hunwound, ?_, written, ?_, ?_⟩
            · rw [hvisited, namedBy_cons, if_pos hnames]
              exact hwrote.trans (by simp)
            · rw [hvisited, namedBy_cons, if_pos hnames, Op.fields_append]
              exact hshows.append hshown
            · rw [hvisited, otherVisits_cons, if_pos hnames]
              exact hannotated
      · obtain ⟨first, hfirst, hannotated⟩ :=
          annotate_routed memory visitor.annotations name visit tables h
        have hremembers : Remembers (EventVisitor.annotate memory visitor.annotations name visit
            tables).2.annotationNames :=
          (steady_annotate visitor.annotations name visit tables).annotationNames.remembers h
        rw [hnames, Bool.false_or] at hpanics
        cases hunwinds : visit.panics && visitor.annotations with
        | true =>
            rw [hunwinds] at hpanics
            have hvisited : visited memory visitor.annotations (unnamed visitor)
                ((name, visit) :: visits) = ([(name, visit)], true) := by
              rw [visited, hnames, Bool.false_or, if_pos hunwinds]
            rw [record_unwinds memory bases visitor name visit visits tables hpanics, hvisit]
            refine ⟨by rw [hvisited], ?_, first, ?_, ?_⟩
            · rw [hvisited, namedBy_cons, hnames, namedBy_nil]
              exact (Bool.or_false _).symm
            · rw [hvisited, namedBy_cons, hnames, namedBy_nil]
              exact hfirst
            · rw [hvisited, otherVisits_cons, hnames, otherVisits_nil]
              exact hannotated
        | false =>
            rw [hunwinds] at hpanics
            have hvisited : visited memory visitor.annotations (unnamed visitor)
                ((name, visit) :: visits) =
                  ((name, visit) ::
                      (visited memory visitor.annotations (unnamed visitor) visits).1,
                    (visited memory visitor.annotations (unnamed visitor) visits).2) := by
              rw [visited, hnames, Bool.false_or, hunwinds, Bool.not_false, Bool.and_true]
              rfl
            obtain ⟨hunwound, hwrote, written, hshown, hothers⟩ := ih visitor _ hcounters hremembers
            have hgrown : NamesGrown _ (visitor.record memory bases visits (EventVisitor.annotate
                memory visitor.annotations name visit tables).2).2 :=
              steady_record visitor visits _
            rw [record_goes_on memory bases visitor name visit visits tables hpanics, hvisit]
            refine ⟨by rw [hvisited]; exact hunwound, ?_, first ++ written, ?_, ?_⟩
            · rw [hvisited, namedBy_cons, hnames]
              exact hwrote
            · rw [hvisited, namedBy_cons, hnames, Op.fields_append]
              exact hfirst.append hshown
            · rw [hvisited, otherVisits_cons, hnames]
              exact (hannotated.grown hgrown).append hothers

theorem visited_calm (annotations names : Bool) (visits : Visits)
    (h : (visited memory annotations names visits).2 = false) :
    (visited memory annotations names visits).1 = visits := by
  induction visits generalizing names with
  | nil => rfl
  | cons visit visits ih =>
      rw [visited] at h ⊢
      split at h
      · simp at h
      · rename_i hgoes
        rw [if_neg hgoes]
        exact congrArg _ (ih _ h)

theorem writeLevel_shows (level : Level) (tables : InternTables) :
    Shows (Op.fields (writeLevel level tables).1) []
      [[.varint DebugAnnotation.nameIid levelNameIid,
        .varint DebugAnnotation.stringValueIid (levelValue level).1]] :=
  ⟨rfl, rfl, rfl⟩

variable (config : Config)

theorem writeMetadata_shows (metadata : Metadata) (tables : InternTables) :
    Shows (Op.fields (writeMetadata memory config metadata tables).1) []
      [[.varint DebugAnnotation.nameIid levelNameIid,
        .varint DebugAnnotation.stringValueIid (levelValue metadata.level).1]] := by
  have hlocation : ∀ tables,
      Shows (Op.fields (writeSourceLocation memory config metadata tables).1) [] [] := by
    intro tables
    cases hfile : metadata.file with
    | none =>
        simp only [writeSourceLocation, hfile, pure_run]
        exact ⟨rfl, rfl, rfl⟩
    | some file =>
        cases hline : metadata.line with
        | none =>
            simp only [writeSourceLocation, hfile, hline, pure_run]
            exact ⟨rfl, rfl, rfl⟩
        | some line =>
            simp only [writeSourceLocation, hfile, hline]
            cases config.sourceLocations with
            | false => exact ⟨rfl, rfl, rfl⟩
            | true => exact ⟨rfl, rfl, rfl⟩
  simp only [writeMetadata, bind_run, pure_run, Op.fields_append]
  exact ((hlocation tables).append (writeLevel_shows metadata.level _)).append ⟨rfl, rfl, rfl⟩

/-- An event named "event …" by its call site takes its name from a message. -/
def takesMessage (metadata : Metadata) : Bool :=
  (text "event ").isPrefixOf (memory.text metadata.name)

/-- The instant of an event with these visits. -/
structure Routed (metadata : Metadata) (visits : Visits) (unwound : Bool)
    (tables : InternTables) (event : List Field) : Prop where
  message : ∀ visit, namedBy memory (takesMessage memory metadata) visits = some visit →
    texts TrackEvent.name event = [messageText visit.2] ∧ varints TrackEvent.nameIid event = []
  interned : namedBy memory (takesMessage memory metadata) visits = none → unwound = false →
    texts TrackEvent.name event = [] ∧ ∃ iid, varints TrackEvent.nameIid event = [iid] ∧
      tables.eventNames.map metadata.name.ptr = some iid
  nameless : namedBy memory (takesMessage memory metadata) visits = none → unwound = true →
    texts TrackEvent.name event = [] ∧ varints TrackEvent.nameIid event = []
  annotations : ∃ written,
    messages TrackEvent.debugAnnotations event =
      [.varint DebugAnnotation.nameIid levelNameIid,
        .varint DebugAnnotation.stringValueIid (levelValue metadata.level).1] :: written ∧
    AllAnnotated config.debugAnnotations tables
      (otherVisits memory (takesMessage memory metadata) visits) written

theorem Routed.grown {metadata : Metadata} {visits : Visits} {unwound : Bool}
    {tables tables' : InternTables} {event : List Field}
    (h : Routed memory config metadata visits unwound tables event)
    (hgrown : NamesGrown tables tables') :
    Routed memory config metadata visits unwound tables' event := by
  obtain ⟨written, hwritten, hannotated⟩ := h.annotations
  refine ⟨h.message, ?_, h.nameless, written, hwritten, hannotated.grown hgrown⟩
  intro hnone hcalm
  obtain ⟨hnames, iid, hiid, hmap⟩ := h.interned hnone hcalm
  exact ⟨hnames, iid, hiid, hgrown.eventNames.kept _ _ hmap⟩

/-- What the caller adds when no message has named the event. -/
structure NameAdded (metadata : Metadata) (needed : Bool) (tables : InternTables)
    (result : List Op × InternTables) : Prop where
  grown : NamesGrown tables result.2
  names : texts TrackEvent.name (Op.fields result.1) = []
  annotations : messages TrackEvent.debugAnnotations (Op.fields result.1) = []
  quiet : needed = false → varints TrackEvent.nameIid (Op.fields result.1) = []
  interned : needed = true → ∃ iid, varints TrackEvent.nameIid (Op.fields result.1) = [iid] ∧
    result.2.eventNames.map metadata.name.ptr = some iid

theorem name_added (metadata : Metadata) (needed : Bool) (tables : InternTables)
    (h : Remembers tables.eventNames) :
    NameAdded metadata needed tables (onlyIf needed (do
      let name ← InternTables.internEventName memory metadata.name
      pure [nameIid name]) tables) := by
  cases needed with
  | false => exact ⟨NamesGrown.refl tables, rfl, rfl, fun _ => rfl, by simp⟩
  | true =>
      refine ⟨steady_internEventName metadata.name tables, rfl, rfl, by simp, fun _ => ?_⟩
      exact ⟨_, rfl, intern_maps memory tables.eventNames metadata.name tables.newEventNames h⟩

theorem instantEvent_routed (uuid : Option Nat) (metadata : Metadata) (values : Visits)
    (tables : InternTables) (hcounters : config.counters = false)
    (h : Remembers tables.eventNames ∧ Remembers tables.annotationNames) :
    Routed memory config metadata
      (visited memory config.debugAnnotations (takesMessage memory metadata) values).1
      (visited memory config.debugAnnotations (takesMessage memory metadata) values).2
      (instantEvent memory config bases uuid metadata values tables).2
      (Op.fields (instantEvent memory config bases uuid metadata values tables).1) := by
  have hgrown : NamesGrown tables (writeMetadata memory config metadata tables).2 :=
    steady_writeMetadata metadata tables
  have hdescribed := writeMetadata_shows memory config metadata tables
  have hremembers := hgrown.remembers h
  generalize hlevel : writeMetadata memory config metadata tables = described at *
  have hrecord := record_routed memory bases
    (EventVisitor.new config.debugAnnotations config.counters (takesMessage memory metadata))
    values described.2 hcounters hremembers.2
  have hrecorded : NamesGrown described.2 (EventVisitor.record memory bases
      (EventVisitor.new config.debugAnnotations config.counters (takesMessage memory metadata))
      values described.2).2 := steady_record _ values described.2
  have hkept := hrecorded.remembers hremembers
  obtain ⟨hunwound, hwrote, written, hshown, hannotated⟩ := hrecord
  have htakes : unnamed (EventVisitor.new config.debugAnnotations config.counters
      (takesMessage memory metadata)) = takesMessage memory metadata := Bool.and_true _
  have hannotations : (EventVisitor.new config.debugAnnotations config.counters
      (takesMessage memory metadata)).annotations = config.debugAnnotations := rfl
  rw [htakes, hannotations] at hunwound hwrote hshown
  rw [htakes, hannotations] at hannotated
  have hevent : instantEvent memory config bases uuid metadata values tables =
      (let recorded := EventVisitor.record memory bases (EventVisitor.new config.debugAnnotations
          config.counters (takesMessage memory metadata)) values described.2
        let named := onlyIf (!recorded.1.2.1.wroteName && !recorded.1.2.2) (do
          let name ← InternTables.internEventName memory metadata.name
          pure [nameIid name]) recorded.2
        ([Emit.instant] ++ (uuid.map fun uuid => trackUuid (bases.uuid uuid)).toList ++
          described.1 ++ recorded.1.1 ++ named.1, named.2)) := by
    rw [← hlevel]
    rfl
  rw [hevent]
  generalize EventVisitor.record memory bases (EventVisitor.new config.debugAnnotations
    config.counters (takesMessage memory metadata)) values described.2 = recorded at *
  have hadded := name_added memory metadata (!recorded.1.2.1.wroteName && !recorded.1.2.2)
    recorded.2 hkept.1
  simp only
  generalize onlyIf (!recorded.1.2.1.wroteName && !recorded.1.2.2) (do
    let name ← InternTables.internEventName memory metadata.name
    pure [nameIid name]) recorded.2 = named at *
  have hhead : Shows (Op.fields ([Emit.instant] ++
      (uuid.map fun uuid => trackUuid (bases.uuid uuid)).toList)) [] [] := by
    cases uuid <;> exact ⟨rfl, rfl, rfl⟩
  have hbody := (hhead.append hdescribed).append hshown
  rw [← Op.fields_append, ← Op.fields_append] at hbody
  generalize [Emit.instant] ++ (uuid.map fun uuid => trackUuid (bases.uuid uuid)).toList ++
    described.1 ++ recorded.1.1 = body at *
  rw [Op.fields_append]
  have hname : recorded.1.2.1.wroteName = (namedBy memory (takesMessage memory metadata)
      (visited memory config.debugAnnotations (takesMessage memory metadata) values).1).isSome :=
    hwrote.trans (Bool.false_or _)
  refine ⟨?_, ?_, ?_, written, ?_, hannotated.grown hadded.grown⟩
  · intro visit hvisit
    rw [hvisit] at hname hbody
    have hquiet := hadded.quiet (by rw [hname]; rfl)
    constructor
    · rw [texts_append, hbody.names, hadded.names]
      rfl
    · rw [varints_append, hbody.iids, hquiet]
      rfl
  · intro hnone hcalm
    rw [hnone] at hname hbody
    rw [← hunwound] at hcalm
    obtain ⟨iid, hiid, hmap⟩ := hadded.interned (by rw [hname, hcalm]; rfl)
    constructor
    · rw [texts_append, hbody.names, hadded.names]
      rfl
    · exact ⟨iid, by rw [varints_append, hbody.iids, hiid]; rfl, hmap⟩
  · intro hnone hunwinds
    rw [hnone] at hname hbody
    rw [← hunwound] at hunwinds
    have hquiet := hadded.quiet (by rw [hname, hunwinds]; rfl)
    constructor
    · rw [texts_append, hbody.names, hadded.names]
      rfl
    · rw [varints_append, hbody.iids, hquiet]
      rfl
  · rw [messages_append, hbody.annotations, hadded.annotations, List.append_nil]
    rfl

/-- A callback that writes one packet, on a sequence that a run has reached. -/
theorem callback_wrote {domain : ClockDomain} {answers : Answers} {body : Encode (List Op)}
    {sequence sequence' : SequenceState} {written : List Written} (h : Reached sequence)
    (hcallback : callback config domain writePacket sequence [.packet answers body] =
      some (sequence', written)) :
    ∃ (before : List Written) (packet : Written) (ready writer : SequenceWriter),
      written = before ++ [packet] ∧ writer.sequence = sequence' ∧ Reached ready.sequence ∧
      Wrote domain answers ready body writer packet := by
  simp only [callback, List.foldlM_cons, List.foldlM_nil, SequenceWriter.serve,
    SequenceWriter.packet, Option.bind_eq_bind, Option.bind_eq_some_iff, Option.pure_def,
    Option.some.injEq, Prod.mk.injEq] at hcallback
  obtain ⟨writer, ⟨last, ⟨ready, hready, hwrite⟩, rfl⟩, rfl, rfl⟩ := hcallback
  have hnew : Keeps (fun _ sequence => Reached sequence) [] (new sequence) := h
  have hkept := (invariant_reached domain).ensureInitialized writes_writePacket hnew hready
  obtain ⟨packet, -, hwrote⟩ := writes_writePacket _ _ _ _ _ hwrite
  exact ⟨_, packet, ready, last, hwrote.written, rfl, hkept, hwrote⟩

theorem trackEvent_fields {domain : ClockDomain} {answers : Answers} {ready writer : SequenceWriter}
    {event : Encode (List Op)} {packet : Written}
    (h : Wrote domain answers ready (trackEvent event) writer packet) :
    messages TracePacket.trackEvent (Op.fields packet.calls) =
      [Op.fields (event ready.sequence.tables).1] := by
  have hheader : messages TracePacket.trackEvent (Op.fields packet.header) = [] := by
    rw [h.header, SequenceState.header]
    split <;> rfl
  have hinterned : ∀ tables : InternTables,
      messages TracePacket.trackEvent (Op.fields tables.emitInternedData.1) = [] := by
    intro tables
    simp only [InternTables.emitInternedData]
    split <;> rfl
  rw [Written.calls, Op.fields_append, Op.fields_append, messages_append, messages_append,
    hheader, h.interned, hinterned, h.body, List.append_nil, List.nil_append]
  rfl

/-- With counters disabled, an event is named by its first message or by its metadata,
and every other value is an annotation, up to a formatter that panics. -/
theorem event_routed {domain : ClockDomain} {sequenceId threadTrackUuid clockAnchorNs : Nat}
    {callbacks : List (List LayerRequest)} {answers : Answers} {trackOf : Nat → Nat}
    {processUuid : Nat} {uuid : Option Nat} {metadata : Metadata} {values : Visits}
    {sequence sequence' : SequenceState} {earlier : List (List Written)} {written : List Written}
    (hcounters : config.counters = false)
    (hrun : run config domain writePacket
      (SequenceState.new sequenceId threadTrackUuid clockAnchorNs)
      (requests memory config bases callbacks) = some (sequence, earlier))
    (hcallback : callback config domain writePacket sequence
      ((eventRequests memory config answers trackOf processUuid uuid metadata values
        sequence.tables.counterTrackCache).map (LayerRequest.request memory config bases)) =
          some (sequence', written)) :
    ∃ before packet event, written = before ++ [packet] ∧
      messages TracePacket.trackEvent (Op.fields packet.calls) = [event] ∧
      Routed memory config metadata
        (visited memory config.debugAnnotations (takesMessage memory metadata) values).1
        (visited memory config.debugAnnotations (takesMessage memory metadata) values).2
        sequence'.tables event ∧
      ((visited memory config.debugAnnotations (takesMessage memory metadata) values).2 = false →
        (visited memory config.debugAnnotations (takesMessage memory metadata) values).1 =
          values) := by
  have hreached : Reached sequence := by
    refine (invariant_reached domain).run writes_writePacket [] ?_ (reached_new _ _ _) hrun
    intro requests hrequests request hrequest
    simp only [TrackEvents.requests, List.mem_map] at hrequests
    obtain ⟨callback, -, rfl⟩ := hrequests
    obtain ⟨own, -, rfl⟩ := List.mem_map.1 hrequest
    cases own with
    | packet answers body => exact steady_encode body
    | cacheCounterTrack name uuid => trivial
  simp only [eventRequests, hcounters, Bool.false_eq_true, if_false, List.nil_append,
    List.map_cons, List.map_nil, LayerRequest.request] at hcallback
  obtain ⟨before, packet, ready, writer, hwritten, rfl, hready, hwrote⟩ :=
    callback_wrote config hreached hcallback
  refine ⟨before, packet, _, hwritten, trackEvent_fields hwrote, ?_,
    visited_calm memory _ _ values⟩
  have hrouted := instantEvent_routed memory bases config uuid metadata values
    ready.sequence.tables hcounters hready
  rw [wrote_tables hwrote]
  exact hrouted.grown memory config (emit_names _)

end Routing

/-- A memory with the words "poll" at 16, "event x" at 20, "message" at 27 and "depth"
at 34. -/
def wordsMemory : StaticMemory where
  byte := fun address => (text "pollevent xmessagedepth").getD (address - 16) 0
  poll := (default : StaticMemory).poll
  poll_text := by decide +kernel

def eventName : StaticStr := ⟨20, 7, Nat.succ_ne_zero 19⟩

def messageName : StaticStr := ⟨27, 7, by decide⟩

def depthName : StaticStr := ⟨34, 5, by decide⟩

def unnamedEvent : Metadata :=
  ⟨64, eventName, eventName, .info, none, none, [messageName, depthName]⟩

def annotatedConfig : Config := ⟨.spanTracks, true, false, false, false, false⟩

/-- The first event of a sequence. -/
def firstEvent (values : Visits) : Option (SequenceState × List Written) :=
  callback annotatedConfig (.builtin 6) writePacket (SequenceState.new 65536 3 100)
    ((eventRequests wordsMemory annotatedConfig
      ⟨140, 9, 9, none, true, 77, 4, [112], [], 5, [116]⟩ (fun _ => 8) 7 none unnamedEvent
      values fun _ => none).map (LayerRequest.request wordsMemory annotatedConfig default))

def panicking : Visits := [(depthName, .debug ⟨[text "4"], .panic⟩)]

def hello : Visits :=
  [(depthName, .i64 4), (messageName, .debug ⟨[text "hel", text "lo"], .ok⟩),
    (messageName, .str (text "again"))]

/-- An event whose formatter panics before there is a name has none at all. -/
theorem event_left_nameless : ∃ sequence written,
    firstEvent panicking = some (sequence, written) ∧
      ∃ event ∈ written.flatMap fun packet =>
          messages TracePacket.trackEvent (Op.fields packet.calls),
        (texts TrackEvent.name event).length + (varints TrackEvent.nameIid event).length ≠ 1 := by
  have hrun : (firstEvent panicking).map (fun ran => (ran.2.flatMap fun packet =>
      messages TracePacket.trackEvent (Op.fields packet.calls)).map fun event =>
        (texts TrackEvent.name event).length + (varints TrackEvent.nameIid event).length) =
          some [0] := by decide +kernel
  obtain ⟨⟨sequence, written⟩, hsome, hevents⟩ := Option.map_eq_some_iff.1 hrun
  obtain ⟨event, hone, hnames⟩ := List.map_eq_singleton_iff.1 hevents
  refine ⟨sequence, written, hsome, event, ?_, ?_⟩
  · rw [hone]
    exact List.mem_singleton_self event
  · rw [hnames]
    decide

theorem hello_isSome : (firstEvent hello).isSome = true := by decide +kernel

theorem event_routed_hello : ∃ sequence written event,
    firstEvent hello = some (sequence, written) ∧
      Routed wordsMemory annotatedConfig unnamedEvent hello false sequence.tables event := by
  obtain ⟨⟨sequence, written⟩, hrun⟩ := Option.isSome_iff_exists.1 hello_isSome
  have hvisited : visited wordsMemory annotatedConfig.debugAnnotations
      (takesMessage wordsMemory unnamedEvent) hello = (hello, false) := by decide +kernel
  have hstart : run annotatedConfig (.builtin 6) writePacket (SequenceState.new 65536 3 100)
      (requests wordsMemory annotatedConfig default []) =
        some (SequenceState.new 65536 3 100, []) := rfl
  obtain ⟨before, packet, event, -, -, hrouted, -⟩ :=
    event_routed wordsMemory default annotatedConfig rfl hstart hrun
  rw [hvisited] at hrouted
  exact ⟨sequence, written, event, hrun, hrouted⟩

end TracingPerfetto.EventRouting
