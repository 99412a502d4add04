import TracingPerfetto.EventRouting
import TracingPerfetto.StoredFields

/-!
What the reader of a trace makes of the fields of a packet: which kind of packet it is,
which flows begin and end in it, and what its annotations say. Each body reads back as
what it was written for.
-/

namespace TracingPerfetto.PacketFields

open TracingPerfetto.Wire TracingPerfetto.Proto TracingPerfetto.Runtime
open TracingPerfetto.Schema TracingPerfetto.Emit TracingPerfetto.Sequence
open TracingPerfetto.TrackEvents TracingPerfetto.Interning TracingPerfetto.EventRouting
open TracingPerfetto.StoredFields

/-! ## Readers -/

/-- An end of a flow, with the id that a trace has for the flow. -/
inductive FlowEnd where
  | start (id : Nat)
  | terminate (id : Nat)
  deriving DecidableEq, Repr

def flowEnd : Field → Option FlowEnd
  | .fixed64 fieldId value =>
      if fieldId = TrackEvent.flowIds then some (.start value)
      else if fieldId = TrackEvent.terminatingFlowIds then some (.terminate value)
      else none
  | _ => none

def flowEnds (packet : List Field) : List FlowEnd :=
  (messages TracePacket.trackEvent packet).flatMap (List.filterMap flowEnd)

/-- The value of an annotation. Integers of either sign are words of 64 bits. -/
inductive NoteValue where
  | bool (value : Nat)
  | uint (word : Nat)
  | int (word : Nat)
  | double (bits : Nat)
  | text (value : Bytes)
  | interned (iid : Nat)
  deriving DecidableEq, Repr

def noteValue : Field → Option NoteValue
  | .varint fieldId value =>
      if fieldId = DebugAnnotation.boolValue then some (.bool value)
      else if fieldId = DebugAnnotation.uintValue then some (.uint value)
      else if fieldId = DebugAnnotation.intValue then some (.int value)
      else if fieldId = DebugAnnotation.stringValueIid then some (.interned value)
      else none
  | .fixed64 fieldId bits =>
      if fieldId = DebugAnnotation.doubleValue then some (.double bits) else none
  | .bytes fieldId value =>
      if fieldId = DebugAnnotation.stringValue then some (.text value) else none
  | .message _ _ => none

/-- An annotation as it is in the trace, its name by its id. -/
structure Note where
  nameIids : List Nat
  values : List NoteValue
  deriving DecidableEq, Repr

def noteOf (fields : List Field) : Note :=
  ⟨varints DebugAnnotation.nameIid fields, fields.filterMap noteValue⟩

def eventNotes (event : List Field) : List Note :=
  (messages TrackEvent.debugAnnotations event).map noteOf

def notes (packet : List Field) : List Note :=
  (messages TracePacket.trackEvent packet).flatMap eventNotes

def NoteValue.read (values : List (Nat × Bytes)) : NoteValue → Option NoteValue
  | .interned iid => (values.lookup iid).map .text
  | value => some value

/-- An annotation in plain text, by the names and values that the sequence defines. -/
def Note.read (names values : List (Nat × Bytes)) (note : Note) :
    Option (Bytes × NoteValue) :=
  match note.nameIids, note.values with
  | [nameIid], [value] => do
      let name ← names.lookup nameIid
      let value ← value.read values
      pure (name, value)
  | _, _ => none

inductive Kind where
  | snapshot (clocks : List Nat)
  | process (uuid : Nat)
  | thread (uuid : Nat)
  | spanTrack (uuid : Nat) (name : Bytes) (parentUuid : Nat)
  | counterTrack (uuid : Nat) (name : Bytes) (parentUuid : Nat)
  | event (type : Nat) (trackUuid : Option Nat)
  deriving DecidableEq, Repr

/-- The kinds of packets that come after the descriptors of the process and the thread. -/
def Kind.follows : Kind → Bool
  | .spanTrack _ _ _ | .counterTrack _ _ _ | .event _ _ => true
  | _ => false

/-- The process that a packet describes. -/
def Kind.introduces : Kind → Option Nat
  | .process uuid => some uuid
  | _ => none

/-- Tracks of processes and threads say so; of the others those of counters do. -/
def readDescriptor (descriptor : List Field) : Option Kind :=
  match varints TrackDescriptor.uuid descriptor with
  | [uuid] =>
      if !(messages TrackDescriptor.process descriptor).isEmpty then some (.process uuid)
      else if !(messages TrackDescriptor.thread descriptor).isEmpty then some (.thread uuid)
      else
        match texts TrackDescriptor.name descriptor,
          varints TrackDescriptor.parentUuid descriptor with
        | [name], [parentUuid] =>
            if (messages TrackDescriptor.counter descriptor).isEmpty then
              some (.spanTrack uuid name parentUuid)
            else some (.counterTrack uuid name parentUuid)
        | _, _ => none
  | _ => none

/-- An event without a track of its own is on the default track of its sequence. -/
def readEvent (event : List Field) : Option Kind :=
  match varints TrackEvent.type event, varints TrackEvent.trackUuid event with
  | [type], [] => some (.event type none)
  | [type], [uuid] => some (.event type (some uuid))
  | _, _ => none

def snapshotClocks (snapshot : List Field) : List Nat :=
  (messages ClockSnapshot.clocks snapshot).flatMap (varints ClockSnapshot.clockId)

def readKind (packet : List Field) : Option Kind :=
  match messages TracePacket.clockSnapshot packet,
    messages TracePacket.trackDescriptor packet, messages TracePacket.trackEvent packet with
  | [snapshot], [], [] => some (.snapshot (snapshotClocks snapshot))
  | [], [descriptor], [] => readDescriptor descriptor
  | [], [], [event] => readEvent event
  | _, _, _ => none

/-! ## Calls that a reader passes over -/

def number : Field → Nat
  | .varint fieldId _ | .fixed64 fieldId _ | .bytes fieldId _ | .message fieldId _ => fieldId

/-- All calls are for fields with these numbers. -/
def Numbered (numbers : List Nat) (calls : List Op) : Prop :=
  ∀ call ∈ calls, number call.field ∈ numbers

/-- The reader takes fields with these numbers only. -/
def Takes {α : Type} (numbers : List Nat) (read : Field → Option α) : Prop :=
  ∀ field, number field ∉ numbers → read field = none

section Numbered

variable {numbers others : List Nat} {calls more : List Op}

theorem fields_eq_map (calls : List Op) : Op.fields calls = calls.map Op.field := by
  induction calls with
  | nil => rfl
  | cons call calls ih => rw [Op.fields, ih, List.map_cons]

theorem Numbered.mono (h : Numbered numbers calls) (hnumbers : numbers ⊆ others) :
    Numbered others calls := fun call hmem => hnumbers (h call hmem)

theorem Numbered.append (h : Numbered numbers calls) (hmore : Numbered numbers more) :
    Numbered numbers (calls ++ more) :=
  fun call hmem => (List.mem_append.1 hmem).elim (h call) (hmore call)

theorem Numbered.nil : Numbered numbers [] := fun _ hmem => by cases hmem

theorem Numbered.cons {call : Op} (hcall : number call.field ∈ numbers)
    (h : Numbered numbers calls) : Numbered numbers (call :: calls) := by
  intro other hmem
  rcases List.mem_cons.1 hmem with rfl | hmem
  · exact hcall
  · exact h other hmem

theorem annotations_numbered (h : Annotations calls) :
    Numbered [TrackEvent.debugAnnotations] calls := by
  intro call hmem
  obtain ⟨nameIid, value, rfl⟩ := h call hmem
  exact List.mem_singleton_self _

theorem Numbered.passes {α : Type} {read : Field → Option α} (h : Numbered numbers calls)
    (hread : Takes others read) (hdisjoint : ∀ id ∈ numbers, id ∉ others) :
    (Op.fields calls).filterMap read = [] := by
  rw [fields_eq_map, List.filterMap_eq_nil_iff]
  intro field hfield
  obtain ⟨call, hcall, rfl⟩ := List.mem_map.1 hfield
  exact hread _ (hdisjoint _ (h call hcall))

theorem takes_flowEnd :
    Takes [TrackEvent.flowIds, TrackEvent.terminatingFlowIds] flowEnd := by
  intro field hnumber
  cases field with
  | fixed64 fieldId value =>
      simp only [number, List.mem_cons, List.not_mem_nil, or_false, not_or] at hnumber
      simp only [flowEnd, if_neg hnumber.1, if_neg hnumber.2]
  | _ => rfl

theorem Numbered.varints (h : Numbered numbers calls) {id : Nat} (hid : id ∉ numbers) :
    Wire.varints id (Op.fields calls) = [] := by
  have hdisjoint : ∀ other ∈ numbers, other ∉ [id] := by
    intro other hother
    rw [List.mem_singleton]
    rintro rfl
    exact hid hother
  refine h.passes (fun field hnumber => ?_) hdisjoint
  cases field with
  | varint fieldId value => exact if_neg fun heq => hnumber (List.mem_singleton.2 heq)
  | _ => rfl

end Numbered

/-! ## The numbers of the calls of an encoder -/

/-- The fields of annotations, of names of events and of samples. -/
def recordNumbers : List Nat :=
  [TrackEvent.debugAnnotations, TrackEvent.name, TrackEvent.extraCounterTrackUuids,
    TrackEvent.extraCounterValues, TrackEvent.extraDoubleCounterTrackUuids,
    TrackEvent.extraDoubleCounterValues]

section Encoders

variable {memory : StaticMemory} {config : Config} {bases : IdBases}

theorem onlyIf_numbered {numbers : List Nat} {encode : Encode (List Op)} (condition : Bool)
    (h : ∀ tables, Numbered numbers (encode tables).1) (tables : InternTables) :
    Numbered numbers (onlyIf condition encode tables).1 := by
  cases condition with
  | true => exact h tables
  | false => exact Numbered.nil

theorem writeSourceLocation_calls (metadata : Metadata) (tables : InternTables) :
    (writeSourceLocation memory config metadata tables).1 = [] ∨
      ∃ iid, (writeSourceLocation memory config metadata tables).1 = [sourceLocationIid iid] := by
  rw [writeSourceLocation.eq_def]
  cases metadata.file with
  | none => exact .inl rfl
  | some file =>
      cases metadata.line with
      | none => exact .inl rfl
      | some line =>
          cases config.sourceLocations with
          | true => exact .inr ⟨_, rfl⟩
          | false => exact .inl rfl

/-- The level is the one annotation among the metadata. -/
theorem writeMetadata_calls (metadata : Metadata) (tables : InternTables) :
    ∃ location category, (location = [] ∨ ∃ iid, location = [sourceLocationIid iid]) ∧
      (writeMetadata memory config metadata tables).1 = location ++
        [ levelAnnotation levelNameIid (levelValue metadata.level).1] ++ [categoryIid category] :=
  ⟨_, _, writeSourceLocation_calls metadata tables, rfl⟩

theorem writeStoredFields_numbered (fields : List (StaticStr × FieldValue))
    (tables : InternTables) :
    Numbered [TrackEvent.debugAnnotations] (writeStoredFields memory fields tables).1 :=
  annotations_numbered (writeStoredFields_annotations memory fields tables)

theorem visitedField_numbered (nameIid : Nat) (visit : FieldVisit) :
    Numbered [TrackEvent.debugAnnotations] [visitedField nameIid visit] := by
  obtain ⟨value, hvalue⟩ := visitedField_annotated nameIid visit
  rw [hvalue]
  exact Numbered.cons List.mem_cons_self Numbered.nil

theorem recordAttributes_numbered (visits : Visits) (tables : InternTables) :
    Numbered [TrackEvent.debugAnnotations] (recordAttributes memory visits tables).1 := by
  induction visits generalizing tables with
  | nil => exact Numbered.nil
  | cons visit visits ih =>
      change Numbered _ ([visitedField _ visit.2] ++ _)
      exact (visitedField_numbered _ visit.2).append (onlyIf_numbered _ ih _)

theorem annotate_numbered (write : Bool) (name : StaticStr) (visit : FieldVisit)
    (tables : InternTables) :
    Numbered recordNumbers (EventVisitor.annotate memory write name visit tables).1 :=
  onlyIf_numbered write (fun _ => (visitedField_numbered _ visit).mono (by decide)) tables

theorem recordVisit_numbered (visitor : EventVisitor) (name : StaticStr) (visit : FieldVisit)
    (tables : InternTables) :
    Numbered recordNumbers (visitor.recordVisit memory bases name visit tables).1.1 := by
  have hnumber : ∀ sample : Nat → List Op, (∀ uuid, Numbered recordNumbers (sample uuid)) →
      Numbered recordNumbers
        (visitor.recordNumber memory bases name visit sample tables).1.1 := by
    intro sample hsample
    rcases Counters.recordNumber_cases memory bases visitor name visit sample tables with
      ⟨uuid, -, -, -, heq⟩ | ⟨-, heq⟩
    · rw [heq]
      exact hsample _
    · rw [heq]
      exact annotate_numbered _ name visit tables
  have htext : ∀ eventName : Op, number eventName.field = TrackEvent.name →
      Numbered recordNumbers
        (visitor.recordText memory name visit eventName tables).1.1 := by
    intro eventName hname
    rw [EventVisitor.recordText]
    split
    · exact Numbered.cons (hname ▸ (by decide : TrackEvent.name ∈ recordNumbers)) Numbered.nil
    · exact annotate_numbered _ name visit tables
  have htrack : TrackEvent.extraCounterTrackUuids ∈ recordNumbers := by decide
  have hvalue : TrackEvent.extraCounterValues ∈ recordNumbers := by decide
  have hdoubleTrack : TrackEvent.extraDoubleCounterTrackUuids ∈ recordNumbers := by decide
  have hdoubleValue : TrackEvent.extraDoubleCounterValues ∈ recordNumbers := by decide
  cases visit with
  | i64 value | u64 value =>
      exact hnumber _ fun _ => Numbered.cons htrack (Numbered.cons hvalue Numbered.nil)
  | f64 bits =>
      exact hnumber _ fun _ => Numbered.cons hdoubleTrack (Numbered.cons hdoubleValue Numbered.nil)
  | str value | debug value => exact htext _ rfl
  | _ => exact annotate_numbered _ name _ tables

theorem record_numbered (visitor : EventVisitor) (visits : Visits) (tables : InternTables) :
    Numbered recordNumbers (visitor.record memory bases visits tables).1.1 := by
  induction visits generalizing visitor tables with
  | nil => exact Numbered.nil
  | cons visit visits ih =>
      rw [EventVisitor.record, bind_run]
      split
      · exact recordVisit_numbered visitor visit.1 visit.2 tables
      · rw [bind_run]
        exact (recordVisit_numbered visitor visit.1 visit.2 tables).append (ih _ _)

end Encoders

/-! ## Events -/

/-- What the reader of an event gets from some of its calls. -/
structure Reads (calls : List Op) (types tracks : List Nat) (ends : List FlowEnd)
    (shown : List Note) : Prop where
  types : varints TrackEvent.type (Op.fields calls) = types
  tracks : varints TrackEvent.trackUuid (Op.fields calls) = tracks
  ends : (Op.fields calls).filterMap flowEnd = ends
  notes : eventNotes (Op.fields calls) = shown

/-- The end of a flow with its id on the wire. -/
def endOf (bases : IdBases) : PendingFlow → FlowEnd
  | .start flow => .start (bases.flowId flow)
  | .terminate flow => .terminate (bases.flowId flow)

def pollEnds (bases : IdBases) (pollFlowId : Option Nat) : List FlowEnd :=
  (pollFlowId.map fun flow => .start (bases.flowId flow)).toList

def levelNote (level : Level) : Note := ⟨[levelNameIid], [.interned (levelValue level).1]⟩

def eventNumbers : List Nat :=
  [TrackEvent.type, TrackEvent.trackUuid, TrackEvent.flowIds, TrackEvent.terminatingFlowIds]

section Reads

variable {calls more : List Op} {types types' tracks tracks' : List Nat}
  {ends ends' : List FlowEnd} {shown shown' : List Note}

theorem eventNotes_append (fields more : List Field) :
    eventNotes (fields ++ more) = eventNotes fields ++ eventNotes more := by
  rw [eventNotes, messages_append, List.map_append, eventNotes, eventNotes]

theorem Reads.append (h : Reads calls types tracks ends shown)
    (hmore : Reads more types' tracks' ends' shown') :
    Reads (calls ++ more) (types ++ types') (tracks ++ tracks') (ends ++ ends')
      (shown ++ shown') := by
  constructor
  · rw [Op.fields_append, varints_append, h.types, hmore.types]
  · rw [Op.fields_append, varints_append, h.tracks, hmore.tracks]
  · rw [Op.fields_append, List.filterMap_append, h.ends, hmore.ends]
  · rw [Op.fields_append, eventNotes_append, h.notes, hmore.notes]

theorem Reads.nil : Reads [] [] [] [] [] := ⟨rfl, rfl, rfl, rfl⟩

theorem Numbered.reads {numbers : List Nat} (h : Numbered numbers calls)
    (hnumbers : ∀ id ∈ numbers, id ∉ eventNumbers) :
    Reads calls [] [] [] (eventNotes (Op.fields calls)) where
  types := h.varints fun hmem => hnumbers _ hmem (by decide)
  tracks := h.varints fun hmem => hnumbers _ hmem (by decide)
  ends := h.passes takes_flowEnd fun id hmem hend => hnumbers id hmem (by
    simp only [List.mem_cons, List.not_mem_nil, or_false] at hend
    rcases hend with rfl | rfl <;> decide)
  notes := rfl

variable (bases : IdBases)

theorem reads_type (type : Nat) : Reads [.varint TrackEvent.type type] [type] [] [] [] :=
  ⟨rfl, rfl, rfl, rfl⟩

theorem reads_trackUuid (uuid : Nat) : Reads [Emit.trackUuid uuid] [] [uuid] [] [] :=
  ⟨rfl, rfl, rfl, rfl⟩

theorem reads_nameIid (iid : Nat) : Reads [Emit.nameIid iid] [] [] [] [] :=
  ⟨rfl, rfl, rfl, rfl⟩

theorem reads_pendingFlows (flows : List PendingFlow) :
    Reads (writePendingFlows bases flows) [] [] (flows.map (endOf bases)) [] := by
  induction flows with
  | nil => exact Reads.nil
  | cons flow flows ih =>
      have hflow : Reads (writePendingFlows bases [flow]) [] [] [endOf bases flow] [] := by
        cases flow with
        | start flow => exact ⟨rfl, rfl, rfl, rfl⟩
        | terminate flow => exact ⟨rfl, rfl, rfl, rfl⟩
      exact hflow.append ih

theorem reads_pollFlow (pollFlowId : Option Nat) :
    Reads (pollFlow bases pollFlowId) [] [] (pollEnds bases pollFlowId) [] := by
  cases pollFlowId with
  | none => exact Reads.nil
  | some flow => exact reads_pendingFlows bases [.start flow]

theorem reads_uuid (uuid : Option Nat) :
    Reads (uuid.map fun uuid => Emit.trackUuid (bases.uuid uuid)).toList []
      (uuid.map bases.uuid).toList [] [] := by
  cases uuid with
  | none => exact Reads.nil
  | some uuid => exact reads_trackUuid _

variable {memory : StaticMemory} {config : Config}

theorem reads_metadata (metadata : Metadata) (tables : InternTables) :
    Reads (writeMetadata memory config metadata tables).1 [] [] []
      [levelNote metadata.level] := by
  obtain ⟨location, category, hlocation, hcalls⟩ :=
    @writeMetadata_calls memory config metadata tables
  have hsilent : Reads location [] [] [] [] := by
    rcases hlocation with rfl | ⟨iid, rfl⟩
    · exact Reads.nil
    · exact ⟨rfl, rfl, rfl, rfl⟩
  have hlevel : Reads [ levelAnnotation levelNameIid (levelValue metadata.level).1] [] [] []
      [levelNote metadata.level] := ⟨rfl, rfl, rfl, rfl⟩
  have hcategory : Reads [categoryIid category] [] [] [] [] := ⟨rfl, rfl, rfl, rfl⟩
  rw [hcalls]
  exact (hsilent.append hlevel).append hcategory

end Reads

/-! ## Bodies -/

def kindOf (memory : StaticMemory) (bases : IdBases) : Body → Kind
  | .trackDescriptor uuid name parentUuid =>
      .spanTrack (bases.uuid uuid) (memory.text name) (bases.uuid parentUuid)
  | .counterDescriptor uuid name parentUuid =>
      .counterTrack (bases.uuid uuid) (counterName (memory.text name)) (bases.uuid parentUuid)
  | .lifetimeBegin uuid _ _ | .pollBegin uuid _ _ =>
      .event TrackEvent.typeSliceBegin (some (bases.uuid uuid))
  | .lifetimeEnd uuid _ _ => .event TrackEvent.typeSliceEnd (some (bases.uuid uuid))
  | .threadBegin _ _ _ _ => .event TrackEvent.typeSliceBegin none
  | .enterEnd uuid _ => .event TrackEvent.typeSliceEnd (uuid.map bases.uuid)
  | .instant uuid _ _ => .event TrackEvent.typeInstant (uuid.map bases.uuid)

def endsOf (bases : IdBases) : Body → List FlowEnd
  | .lifetimeEnd _ flows _ | .enterEnd _ flows => flows.map (endOf bases)
  | .threadBegin _ _ pollFlowId flows | .pollBegin _ pollFlowId flows =>
      pollEnds bases pollFlowId ++ flows.map (endOf bases)
  | _ => []

section Bodies

variable {memory : StaticMemory} {config : Config} {bases : IdBases}

theorem reads_stored (condition : Bool) (fields : List (StaticStr × FieldValue))
    (tables : InternTables) :
    Reads (onlyIf condition (writeStoredFields memory fields) tables).1 [] [] []
      (eventNotes (Op.fields
        (onlyIf condition (writeStoredFields memory fields) tables).1)) :=
  (onlyIf_numbered condition (writeStoredFields_numbered fields) tables).reads (by decide)

theorem reads_beginEvent (uuid : Nat) (metadata : Metadata) (attributes : Visits)
    (tables : InternTables) : ∃ shown,
      Reads (beginEvent memory config bases uuid metadata attributes tables).1
        [TrackEvent.typeSliceBegin] [bases.uuid uuid] [] shown := by
  have hopen := ((reads_type TrackEvent.typeSliceBegin).append
    (reads_trackUuid (bases.uuid uuid))).append
      (reads_nameIid (InternTables.internEventName memory metadata.name tables).1)
  have hannotated := fun tables =>
    (onlyIf_numbered config.debugAnnotations (@recordAttributes_numbered memory attributes)
      tables).reads (by decide)
  exact ⟨_, (hopen.append (@reads_metadata memory config metadata _)).append (hannotated _)⟩

theorem reads_endEvent (uuid : Nat) (flows : List PendingFlow)
    (fields : List (StaticStr × FieldValue)) (tables : InternTables) :
    Reads (endEvent memory config bases uuid flows fields tables).1
      [TrackEvent.typeSliceEnd] [bases.uuid uuid] (flows.map (endOf bases))
      (eventNotes (Op.fields
        (onlyIf config.debugAnnotations (writeStoredFields memory fields) tables).1)) := by
  have hopen := (reads_type TrackEvent.typeSliceEnd).append (reads_trackUuid (bases.uuid uuid))
  have hevent := (hopen.append (reads_pendingFlows bases flows)).append
    (@reads_stored memory config.debugAnnotations fields tables)
  simp only [List.append_nil, List.nil_append, List.singleton_append] at hevent
  exact hevent

theorem reads_enterThreadEvent (metadata : Metadata) (fields : List (StaticStr × FieldValue))
    (pollFlowId : Option Nat) (flows : List PendingFlow) (tables : InternTables) :
    Reads (enterThreadEvent memory config bases metadata fields pollFlowId flows tables).1
      [TrackEvent.typeSliceBegin] [] (pollEnds bases pollFlowId ++ flows.map (endOf bases))
      (levelNote metadata.level :: eventNotes (Op.fields
        (onlyIf (config.debugAnnotations && config.spanMode == .threadTracks)
          (writeStoredFields memory fields) (writeMetadata memory config metadata
            (InternTables.internEventName memory metadata.name tables).2).2).1)) := by
  have hopen := (reads_type TrackEvent.typeSliceBegin).append
    (reads_nameIid (InternTables.internEventName memory metadata.name tables).1)
  have hdescribed := hopen.append (@reads_metadata memory config metadata
    (InternTables.internEventName memory metadata.name tables).2)
  have hstored := hdescribed.append
    (@reads_stored memory (config.debugAnnotations && config.spanMode == .threadTracks) fields
      (writeMetadata memory config metadata
        (InternTables.internEventName memory metadata.name tables).2).2)
  have hevent := (hstored.append (reads_pollFlow bases pollFlowId)).append
    (reads_pendingFlows bases flows)
  simp only [List.append_nil, List.nil_append, List.singleton_append] at hevent
  exact hevent

theorem reads_enterPollEvent (uuid : Nat) (pollFlowId : Option Nat) (flows : List PendingFlow)
    (tables : InternTables) :
    Reads (enterPollEvent memory bases uuid pollFlowId flows tables).1
      [TrackEvent.typeSliceBegin] [bases.uuid uuid]
      (pollEnds bases pollFlowId ++ flows.map (endOf bases)) [] := by
  have hopen := ((reads_type TrackEvent.typeSliceBegin).append
    (reads_trackUuid (bases.uuid uuid))).append
      (reads_nameIid (InternTables.internEventName memory memory.poll tables).1)
  have hevent := (hopen.append (reads_pollFlow bases pollFlowId)).append
    (reads_pendingFlows bases flows)
  simp only [List.append_nil, List.nil_append, List.singleton_append] at hevent
  exact hevent

theorem reads_exitEvent (uuid : Option Nat) (flows : List PendingFlow) :
    Reads (exitEvent bases uuid flows) [TrackEvent.typeSliceEnd] (uuid.map bases.uuid).toList
      (flows.map (endOf bases)) [] := by
  have hevent := ((reads_type TrackEvent.typeSliceEnd).append (reads_uuid bases uuid)).append
    (reads_pendingFlows bases flows)
  simp only [List.append_nil, List.nil_append] at hevent
  exact hevent

theorem reads_instantEvent (uuid : Option Nat) (metadata : Metadata) (values : Visits)
    (tables : InternTables) : ∃ shown,
      Reads (instantEvent memory config bases uuid metadata values tables).1
        [TrackEvent.typeInstant] (uuid.map bases.uuid).toList [] shown := by
  have hopen := ((reads_type TrackEvent.typeInstant).append (reads_uuid bases uuid)).append
    (@reads_metadata memory config metadata tables)
  have hrecorded := (@record_numbered memory bases
    (EventVisitor.new config.debugAnnotations config.counters
      ((text "event ").isPrefixOf (memory.text metadata.name))) values
        (writeMetadata memory config metadata tables).2).reads (by decide)
  have hnamed : ∀ condition tables, Reads (onlyIf condition (do
      let name ← InternTables.internEventName memory metadata.name
      pure [nameIid name]) tables).1 [] [] [] [] := by
    intro condition tables
    cases condition with
    | true => exact reads_nameIid _
    | false => exact Reads.nil
  have hshown := hopen.append hrecorded
  simp only [List.append_nil, List.nil_append] at hshown
  generalize [levelNote metadata.level] ++ _ = shown at hshown
  have hevent := fun condition tables => hshown.append (hnamed condition tables)
  simp only [List.append_nil] at hevent
  exact ⟨shown, hevent _ _⟩

/-- An event that reads so is a packet of this kind and with these ends. -/
theorem reads_packet (event : Encode (List Op)) (uuid : Option Nat) {tables : InternTables}
    {type : Nat} {ends : List FlowEnd} {shown : List Note}
    (h : Reads (event tables).1 [type] uuid.toList ends shown) :
    readKind (Op.fields (trackEvent event tables).1) = some (.event type uuid) ∧
      flowEnds (Op.fields (trackEvent event tables).1) = ends ∧
      notes (Op.fields (trackEvent event tables).1) = shown := by
  have hmessage : Op.fields (trackEvent event tables).1 =
      [.message TracePacket.trackEvent (Op.fields (event tables).1)] := rfl
  have hevent : messages TracePacket.trackEvent (Op.fields (trackEvent event tables).1) =
      [Op.fields (event tables).1] := rfl
  refine ⟨?_, ?_, ?_⟩
  · rw [hmessage]
    change readEvent (Op.fields (event tables).1) = _
    rw [readEvent, h.types, h.tracks]
    cases uuid <;> rfl
  · rw [flowEnds, hevent, List.flatMap_singleton, h.ends]
  · rw [notes, hevent, List.flatMap_singleton, h.notes]

theorem body_reads (body : Body) (tables : InternTables) :
    readKind (Op.fields (body.encode memory config bases tables).1) =
        some (kindOf memory bases body) ∧
      flowEnds (Op.fields (body.encode memory config bases tables).1) = endsOf bases body := by
  cases body with
  | trackDescriptor | counterDescriptor => exact ⟨rfl, rfl⟩
  | lifetimeBegin uuid metadata attributes =>
      obtain ⟨shown, hreads⟩ :=
        @reads_beginEvent memory config bases uuid metadata attributes tables
      obtain ⟨hkind, hends, -⟩ := reads_packet _ (some (bases.uuid uuid)) hreads
      exact ⟨hkind, hends⟩
  | lifetimeEnd uuid flows fields =>
      obtain ⟨hkind, hends, -⟩ := reads_packet _ (some (bases.uuid uuid))
        (@reads_endEvent memory config bases uuid flows fields tables)
      exact ⟨hkind, hends⟩
  | threadBegin metadata fields pollFlowId flows =>
      obtain ⟨hkind, hends, -⟩ := reads_packet _ none
        (@reads_enterThreadEvent memory config bases metadata fields pollFlowId flows tables)
      exact ⟨hkind, hends⟩
  | pollBegin uuid pollFlowId flows =>
      obtain ⟨hkind, hends, -⟩ := reads_packet _ (some (bases.uuid uuid))
        (@reads_enterPollEvent memory bases uuid pollFlowId flows tables)
      exact ⟨hkind, hends⟩
  | enterEnd uuid flows =>
      obtain ⟨hkind, hends, -⟩ := @reads_packet (pure (exitEvent bases uuid flows)) _ tables _ _ _
        (reads_exitEvent uuid flows)
      exact ⟨hkind, hends⟩
  | instant uuid metadata values =>
      obtain ⟨shown, hreads⟩ :=
        @reads_instantEvent memory config bases uuid metadata values tables
      obtain ⟨hkind, hends, -⟩ := reads_packet _ _ hreads
      exact ⟨hkind, hends⟩

end Bodies

/-! ## Packets -/

/-- The body of the packet is between a header and interned data. -/
structure Enclosed (packet : Written) : Prop where
  header : ∃ domain answers, ∃ sequence : SequenceState, ∃ raw,
    packet.header = (sequence.header domain answers raw).1
  interned : ∃ tables : InternTables, packet.interned = tables.emitInternedData.1

section Enclosed

variable {packet : Written}

/-- Headers have defaults for a message, and the data behind the body is interned data. -/
theorem Enclosed.messages (h : Enclosed packet) {id : Nat}
    (hdefaults : TracePacket.tracePacketDefaults ≠ id) (hinterned : TracePacket.internedData ≠ id) :
    Wire.messages id (Op.fields packet.calls) = Wire.messages id (Op.fields packet.body) := by
  obtain ⟨domain, answers, sequence, raw, hheader⟩ := h.header
  obtain ⟨tables, hdata⟩ := h.interned
  have hnone : Wire.messages id (Op.fields packet.header) = [] := by
    rw [hheader, SequenceState.header]
    split
    · rfl
    · simp [firstPacketCalls, Op.fields, Op.field, Wire.messages, hdefaults]
  have hbehind : Wire.messages id (Op.fields packet.interned) = [] := by
    rw [hdata, InternTables.emitInternedData]
    split
    · simp [InternTables.emitPendingInternedData, Op.fields, Op.field, Wire.messages, hinterned]
    · rfl
  rw [Written.calls, Op.fields_append, Op.fields_append, messages_append, messages_append, hnone,
    hbehind, List.nil_append, List.append_nil]

theorem Enclosed.events (h : Enclosed packet) :
    Wire.messages TracePacket.trackEvent (Op.fields packet.calls) =
      Wire.messages TracePacket.trackEvent (Op.fields packet.body) :=
  h.messages (by decide) (by decide)

theorem Enclosed.readKind (h : Enclosed packet) :
    PacketFields.readKind (Op.fields packet.calls) =
      PacketFields.readKind (Op.fields packet.body) := by
  rw [PacketFields.readKind, PacketFields.readKind, h.events, h.messages (by decide) (by decide),
    h.messages (by decide) (by decide)]

theorem Enclosed.flowEnds (h : Enclosed packet) :
    PacketFields.flowEnds (Op.fields packet.calls) =
      PacketFields.flowEnds (Op.fields packet.body) := by
  rw [PacketFields.flowEnds, PacketFields.flowEnds, h.events]

theorem Enclosed.notes (h : Enclosed packet) :
    PacketFields.notes (Op.fields packet.calls) = PacketFields.notes (Op.fields packet.body) := by
  rw [PacketFields.notes, PacketFields.notes, h.events]

end Enclosed

/-! ## The packets that start a sequence -/

theorem clockSnapshot_reads (domain : ClockDomain) (answers : Answers) (raw anchor : Nat) :
    ∃ clocks, ClockSnapshot.customClockId ∈ clocks ∧
      readKind (Op.fields (SequenceWriter.clockSnapshotCalls domain answers raw anchor)) =
        some (.snapshot clocks) := by
  refine ⟨_, ?_, rfl⟩
  exact List.mem_cons_self

theorem threadDescriptor_reads (answers : Answers) (uuid : Nat) :
    readKind (Op.fields (SequenceWriter.threadDescriptorCalls answers uuid)) =
      some (.thread uuid) := rfl

end TracingPerfetto.PacketFields
