import TracingPerfetto.InternedNames
import TracingPerfetto.PacketFields

/-!
Stored fields in plain text. The names of annotations are ids of a table that the sequence
defines as it goes, and an id stands for a name at the address that it was given to. Where
names at one address are the same text, an annotation reads as its field.
-/

namespace TracingPerfetto.FieldNames

open TracingPerfetto.Wire TracingPerfetto.Proto TracingPerfetto.Runtime
open TracingPerfetto.Schema TracingPerfetto.Emit TracingPerfetto.Sequence
open TracingPerfetto.SequenceRuns TracingPerfetto.TrackEvents TracingPerfetto.Interning
open TracingPerfetto.EventRouting TracingPerfetto.PacketFields

/-! ## Fields and their annotations -/

def wireValue : FieldValue → NoteValue
  | .bool value => .bool value.toNat
  | .i64 value => .int (asU64 value)
  | .u64 value => .uint value
  | .f64 bits => .double bits
  | .str value => .text value

/-- The annotation is the one of the field, under the id of the field's name. -/
def Shows (tables : InternTables) (field : StaticStr × FieldValue) (note : Note) : Prop :=
  ∃ iid, tables.annotationNames.map field.1.ptr = some iid ∧
    note = ⟨[iid], [wireValue field.2]⟩

section Stored

variable {memory : StaticMemory} {config : Config} {bases : IdBases}
  {fields : List (StaticStr × FieldValue)} {tables tables' : InternTables}

theorem storedField_note (nameIid : Nat) (value : FieldValue) :
    eventNotes (Op.fields [storedField nameIid value]) = [⟨[nameIid], [wireValue value]⟩] := by
  cases value <;> rfl

theorem writeStoredFields_shows (hremembers : Remembers tables.annotationNames) :
    List.Forall₂ (Shows (writeStoredFields memory fields tables).2) fields
      (eventNotes (Op.fields (writeStoredFields memory fields tables).1)) := by
  induction fields generalizing tables with
  | nil => exact .nil
  | cons field fields ih =>
      have hfirst := @steady_internAnnotationName memory field.1 tables
      have hrest := @steady_writeStoredFields memory fields
        (TrackEvents.internAnnotationName memory field.1 tables).2
      have hmaps := intern_maps memory tables.annotationNames field.1
        tables.newAnnotationNames hremembers
      have hnotes := eventNotes_append
        (Op.fields [storedField (TrackEvents.internAnnotationName memory field.1 tables).1 field.2])
        (Op.fields (writeStoredFields memory fields
          (TrackEvents.internAnnotationName memory field.1 tables).2).1)
      rw [storedField_note] at hnotes
      rw [StoredFields.writeStoredFields_cons]
      change List.Forall₂ _ _ (eventNotes (Op.fields [_] ++ Op.fields _))
      rw [hnotes]
      refine .cons ⟨_, hrest.annotationNames.kept _ _ hmaps, rfl⟩ ?_
      exact ih (hfirst.annotationNames.remembers hremembers)

theorem stored_shows (condition : Bool) (hremembers : Remembers tables.annotationNames) :
    List.Forall₂ (Shows (onlyIf condition (writeStoredFields memory fields) tables).2)
      (if condition then fields else [])
      (eventNotes (Op.fields
        (onlyIf condition (writeStoredFields memory fields) tables).1)) := by
  cases condition with
  | true => exact writeStoredFields_shows hremembers
  | false => exact .nil

theorem lifetimeEnd_shows (hremembers : Remembers tables.annotationNames) (uuid : Nat)
    (flows : List PendingFlow) :
    List.Forall₂
      (Shows (Body.encode memory config bases (.lifetimeEnd uuid flows fields) tables).2)
      (if config.debugAnnotations then fields else [])
      (notes (Op.fields (Body.encode memory config bases (.lifetimeEnd uuid flows fields)
        tables).1)) := by
  obtain ⟨-, -, hnotes⟩ := reads_packet _ (some (bases.uuid uuid))
    (@reads_endEvent memory config bases uuid flows fields tables)
  rw [Body.encode, hnotes]
  exact stored_shows config.debugAnnotations hremembers

/-- Slices of threads show their fields where there is no other slice to do so. -/
theorem threadBegin_shows (hremembers : Remembers tables.annotationNames) (metadata : Metadata)
    (pollFlowId : Option Nat) (flows : List PendingFlow) :
    ∃ shown, notes (Op.fields (Body.encode memory config bases
        (.threadBegin metadata fields pollFlowId flows) tables).1) =
          levelNote metadata.level :: shown ∧
      List.Forall₂ (Shows (Body.encode memory config bases
          (.threadBegin metadata fields pollFlowId flows) tables).2)
        (if config.debugAnnotations && config.spanMode == .threadTracks then fields else [])
        shown := by
  obtain ⟨-, -, hnotes⟩ := reads_packet _ none
    (@reads_enterThreadEvent memory config bases metadata fields pollFlowId flows tables)
  have hname := @steady_internEventName memory metadata.name tables
  have hmetadata := @steady_writeMetadata memory config metadata
    (InternTables.internEventName memory metadata.name tables).2
  exact ⟨_, hnotes, stored_shows _ ((hname.trans hmetadata).annotationNames.remembers hremembers)⟩

theorem pollBegin_notes (uuid : Nat) (pollFlowId : Option Nat) (flows : List PendingFlow) :
    notes (Op.fields (Body.encode memory config bases (.pollBegin uuid pollFlowId flows)
      tables).1) = [] :=
  (reads_packet _ (some (bases.uuid uuid))
    (@reads_enterPollEvent memory bases uuid pollFlowId flows tables)).2.2

theorem enterEnd_notes (uuid : Option Nat) (flows : List PendingFlow) :
    notes (Op.fields (Body.encode memory config bases (.enterEnd uuid flows) tables).1) = [] :=
  (@reads_packet (pure (exitEvent bases uuid flows)) _ tables _ _ _
    (reads_exitEvent uuid flows)).2.2

end Stored

/-! ## What an id stands for -/

/-- An id stands for the text of a name at the address that it was given to. -/
def Spells (memory : StaticMemory) (allowed : StaticStr → Prop) (interner : Interner)
    (entries : List (Nat × Bytes)) : Prop :=
  ∀ key iid, interner.map key = some iid →
    ∃ name, allowed name ∧ name.ptr = key ∧ (iid, memory.text name) ∈ entries

/-- An encoder interns such names only. -/
def Spelling {α : Type} (memory : StaticMemory) (allowed : StaticStr → Prop)
    (encode : Encode α) : Prop :=
  ∀ defined tables,
    Spells memory allowed tables.annotationNames (defined ++ tables.newAnnotationNames) →
    Spells memory allowed (encode tables).2.annotationNames
      (defined ++ (encode tables).2.newAnnotationNames)

section Spells

variable {memory : StaticMemory} {allowed allowed' : StaticStr → Prop} {interner : Interner}
  {entries entries' : List (Nat × Bytes)}

theorem Spells.mono (h : Spells memory allowed interner entries)
    (hallowed : ∀ name, allowed name → allowed' name) (hentries : entries ⊆ entries') :
    Spells memory allowed' interner entries' := by
  intro key iid hkey
  obtain ⟨name, hname, hptr, hentry⟩ := h key iid hkey
  exact ⟨name, hallowed name hname, hptr, hentries hentry⟩

theorem Spells.intern {defined : List (Nat × Bytes)} {pending : Pending}
    (h : Spells memory allowed interner (defined ++ pending)) {value : StaticStr}
    (hvalue : allowed value) :
    Spells memory allowed (interner.intern memory value pending).2.1
      (defined ++ (interner.intern memory value pending).2.2) := by
  simp only [Interner.intern]
  split
  · exact h
  · cases hmap : interner.map value.ptr with
    | some iid => exact h
    | none =>
        simp only [Interner.internMiss]
        intro key iid hkey
        simp only [PtrMap.insert] at hkey
        split at hkey
        · rename_i heq
          cases hkey
          exact ⟨value, hvalue, heq.symm, by simp⟩
        · obtain ⟨name, hname, hptr, hentry⟩ := h key iid hkey
          exact ⟨name, hname, hptr, by
            rw [← List.append_assoc]
            exact List.mem_append_left _ hentry⟩

variable {config : Config} {bases : IdBases}

theorem Spelling.pure {α : Type} (value : α) :
    Spelling memory allowed (Pure.pure value : Encode α) := fun _ _ h => h

theorem Spelling.bind {α β : Type} {encode : Encode α} {next : α → Encode β}
    (h : Spelling memory allowed encode) (hnext : ∀ value, Spelling memory allowed (next value)) :
    Spelling memory allowed (encode >>= next) := by
  intro defined tables hspells
  rw [bind_run]
  exact hnext _ defined _ (h defined tables hspells)

theorem Spelling.onlyIf {encode : Encode (List Op)} (h : Spelling memory allowed encode)
    (condition : Bool) : Spelling memory allowed (onlyIf condition encode) := by
  cases condition with
  | true => exact h
  | false => exact Spelling.pure []

/-- Tables with the same names of annotations, or more of them to define. -/
theorem spelling_same {α : Type} {encode : Encode α}
    (h : ∀ tables, (encode tables).2.annotationNames = tables.annotationNames ∧
      tables.newAnnotationNames ⊆ (encode tables).2.newAnnotationNames) :
    Spelling memory allowed encode := by
  intro defined tables hspells
  rw [(h tables).1]
  refine hspells.mono (fun _ => id) fun entry hmem => ?_
  exact (List.mem_append.1 hmem).elim (List.mem_append_left _)
    fun hnew => List.mem_append_right _ ((h tables).2 hnew)

theorem spelling_internEventName (name : StaticStr) :
    Spelling memory allowed (InternTables.internEventName memory name) :=
  spelling_same fun _ => ⟨rfl, fun _ => id⟩

theorem spelling_internAnnotationName {name : StaticStr} (hname : allowed name) :
    Spelling memory allowed (TrackEvents.internAnnotationName memory name) :=
  fun _ _ hspells => hspells.intern hname

theorem spelling_writeLevel (level : Level) :
    Spelling memory allowed (writeLevel level) := by
  refine spelling_same fun tables => ?_
  simp only [writeLevel]
  split <;> split <;> exact ⟨rfl, by simp [InternTables.registerLevelName,
    InternTables.registerLevelValue]⟩

theorem spelling_writeMetadata (metadata : Metadata) :
    Spelling memory allowed (writeMetadata memory config metadata) := by
  have hlocation : Spelling memory allowed (writeSourceLocation memory config metadata) := by
    rw [writeSourceLocation.eq_def]
    split
    · apply Spelling.onlyIf
      refine Spelling.bind (spelling_same fun tables => ?_) fun _ => Spelling.pure _
      simp only [InternTables.internSourceLocation]
      split <;> exact ⟨rfl, fun _ => id⟩
    · exact Spelling.pure []
  refine hlocation.bind fun location => ?_
  refine (spelling_writeLevel metadata.level).bind fun level => ?_
  exact Spelling.bind (spelling_same fun _ => ⟨rfl, fun _ => id⟩) fun _ => Spelling.pure _

theorem spelling_writeStoredFields {fields : List (StaticStr × FieldValue)}
    (h : ∀ field ∈ fields, allowed field.1) :
    Spelling memory allowed (writeStoredFields memory fields) := by
  induction fields with
  | nil => exact Spelling.pure []
  | cons field fields ih =>
      rw [List.forall_mem_cons] at h
      refine (spelling_internAnnotationName h.1).bind fun nameIid => ?_
      exact (ih h.2).bind fun _ => Spelling.pure _

theorem spelling_recordAttributes {visits : Visits} (h : ∀ visit ∈ visits, allowed visit.1) :
    Spelling memory allowed (recordAttributes memory visits) := by
  induction visits with
  | nil => exact Spelling.pure []
  | cons visit visits ih =>
      rw [List.forall_mem_cons] at h
      refine (spelling_internAnnotationName h.1).bind fun nameIid => ?_
      exact ((ih h.2).onlyIf _).bind fun _ => Spelling.pure _

theorem spelling_annotate {name : StaticStr} (hname : allowed name) (write : Bool)
    (visit : FieldVisit) :
    Spelling memory allowed (EventVisitor.annotate memory write name visit) := by
  apply Spelling.onlyIf
  exact (spelling_internAnnotationName hname).bind fun _ => Spelling.pure _

theorem spelling_recordVisit (visitor : EventVisitor) {name : StaticStr} (hname : allowed name)
    (visit : FieldVisit) :
    Spelling memory allowed (visitor.recordVisit memory bases name visit) := by
  have hnumber : ∀ sample, Spelling memory allowed
      (visitor.recordNumber memory bases name visit sample) := by
    intro sample defined tables hspells
    rcases Counters.recordNumber_cases memory bases visitor name visit sample tables with
      ⟨uuid, -, -, -, heq⟩ | ⟨-, heq⟩
    · rw [heq]
      exact hspells
    · rw [heq]
      exact spelling_annotate hname _ visit defined tables hspells
  have htext : ∀ eventName, Spelling memory allowed
      (visitor.recordText memory name visit eventName) := by
    intro eventName
    rw [EventVisitor.recordText]
    split
    · exact Spelling.pure _
    · exact (spelling_annotate hname _ visit).bind fun _ => Spelling.pure _
  cases visit with
  | i64 value | u64 value | f64 value => exact hnumber _
  | str value | debug value => exact htext _
  | _ => exact (spelling_annotate hname _ _).bind fun _ => Spelling.pure _

theorem spelling_record (visitor : EventVisitor) {visits : Visits}
    (h : ∀ visit ∈ visits, allowed visit.1) :
    Spelling memory allowed (visitor.record memory bases visits) := by
  induction visits generalizing visitor with
  | nil => exact Spelling.pure _
  | cons visit visits ih =>
      rw [List.forall_mem_cons] at h
      refine (spelling_recordVisit visitor h.1 visit.2).bind fun first => ?_
      split
      · exact Spelling.pure _
      · exact (ih first.2 h.2).bind fun _ => Spelling.pure _

/-- The names of the fields in a body, which may be names of annotations. -/
def fieldNames : Body → List StaticStr
  | .lifetimeBegin _ _ visits | .instant _ _ visits => visits.map Prod.fst
  | .lifetimeEnd _ _ fields | .threadBegin _ fields _ _ => fields.map Prod.fst
  | _ => []

theorem spelling_encode {body : Body} (h : ∀ name ∈ fieldNames body, allowed name) :
    Spelling memory allowed (body.encode memory config bases) := by
  have hevent : ∀ event : Encode (List Op), Spelling memory allowed event →
      Spelling memory allowed (trackEvent event) :=
    fun event hspelling => hspelling.bind fun _ => Spelling.pure _
  cases body with
  | trackDescriptor | counterDescriptor => exact Spelling.pure _
  | enterEnd => exact hevent _ (Spelling.pure _)
  | lifetimeBegin uuid metadata attributes =>
      have hvisits : ∀ visit ∈ attributes, allowed visit.1 :=
        fun visit hmem => h visit.1 (List.mem_map_of_mem hmem)
      apply hevent
      refine (spelling_internEventName metadata.name).bind fun name => ?_
      refine (spelling_writeMetadata metadata).bind fun described => ?_
      exact ((spelling_recordAttributes hvisits).onlyIf _).bind fun _ => Spelling.pure _
  | lifetimeEnd uuid flows fields =>
      have hfields : ∀ field ∈ fields, allowed field.1 :=
        fun field hmem => h field.1 (List.mem_map_of_mem hmem)
      apply hevent
      exact ((spelling_writeStoredFields hfields).onlyIf _).bind fun _ => Spelling.pure _
  | threadBegin metadata fields pollFlowId flows =>
      have hfields : ∀ field ∈ fields, allowed field.1 :=
        fun field hmem => h field.1 (List.mem_map_of_mem hmem)
      apply hevent
      refine (spelling_internEventName metadata.name).bind fun name => ?_
      refine (spelling_writeMetadata metadata).bind fun described => ?_
      exact ((spelling_writeStoredFields hfields).onlyIf _).bind fun _ => Spelling.pure _
  | pollBegin uuid pollFlowId flows =>
      apply hevent
      exact (spelling_internEventName memory.poll).bind fun _ => Spelling.pure _
  | instant uuid metadata values =>
      have hvisits : ∀ visit ∈ values, allowed visit.1 :=
        fun visit hmem => h visit.1 (List.mem_map_of_mem hmem)
      apply hevent
      refine (spelling_writeMetadata metadata).bind fun described => ?_
      refine (spelling_record _ hvisits).bind fun recorded => ?_
      refine Spelling.bind ?_ fun _ => Spelling.pure _
      apply Spelling.onlyIf
      exact (spelling_internEventName metadata.name).bind fun _ => Spelling.pure _

end Spells

/-! ## Sequences -/

/-- The ids of a sequence are defined, and those of annotations stand for such names. -/
structure Glossed (memory : StaticMemory) (allowed : StaticStr → Prop)
    (packets : List Written) (sequence : SequenceState) : Prop where
  consistent : Consistent packets sequence
  remembers : Remembers sequence.tables.annotationNames
  spells : Spells memory allowed sequence.tables.annotationNames
    (definedBy packets .annotationNames ++ sequence.tables.newAnnotationNames)

/-- Where a field's name starts, no other text does that is a name of a field. -/
def Distinct (memory : StaticMemory) (allowed : StaticStr → Prop)
    (fields : List (StaticStr × FieldValue)) : Prop :=
  ∀ name, allowed name → ∀ field ∈ fields, name.ptr = field.1.ptr →
    memory.text name = memory.text field.1

theorem Distinct.mono {memory : StaticMemory} {allowed allowed' : StaticStr → Prop}
    {fields : List (StaticStr × FieldValue)} (h : Distinct memory allowed fields)
    (hallowed : ∀ name, allowed' name → allowed name) : Distinct memory allowed' fields :=
  fun name hname => h name (hallowed name hname)

section Glossed

variable {memory : StaticMemory} {allowed : StaticStr → Prop} {config : Config} {bases : IdBases}
  {domain : ClockDomain} {answers : Answers} {writer writer' : SequenceWriter}
  {encode : Encode (List Op)} {packet : Written} {all : List Written}

theorem Glossed.mono {allowed' : StaticStr → Prop} {sequence : SequenceState}
    (h : Glossed memory allowed all sequence) (hallowed : ∀ name, allowed name → allowed' name) :
    Glossed memory allowed' all sequence :=
  ⟨h.consistent, h.remembers, h.spells.mono hallowed fun _ => id⟩

theorem Glossed.of_tables {sequence sequence' : SequenceState}
    (h : Glossed memory allowed all sequence) (htables : sequence'.tables = sequence.tables) :
    Glossed memory allowed all sequence' := by
  obtain ⟨⟨hok, hresolved⟩, hremembers, hspells⟩ := h
  rw [← htables] at hok hremembers hspells
  exact ⟨⟨hok, hresolved⟩, hremembers, hspells⟩

theorem glossed_new (sequenceId threadTrackUuid clockAnchorNs : Nat) :
    Glossed memory allowed [] (SequenceState.new sequenceId threadTrackUuid clockAnchorNs) :=
  ⟨consistent_new sequenceId threadTrackUuid clockAnchorNs, fun h => absurd rfl h,
    fun _ _ hkey => by cases hkey⟩

/-- A packet defines what its body has left to define. -/
theorem definedBy_wrote (hsound : SoundBody encode)
    (hwrote : Wrote domain answers writer encode writer' packet) (table : Table) :
    definedBy (all ++ [packet]) table =
      entries (definedBy all) (encode writer.sequence.tables).2 table := by
  have hheader : table.definitions (Op.fields packet.header) = [] := by
    rw [hwrote.header]
    exact (header_silent _ _ _ _ table).1
  rw [definedBy_append, entries]
  congr 1
  rw [definedBy, List.flatMap_singleton, Written.calls, Op.fields_append, Op.fields_append,
    definitions_append, definitions_append, hheader, hwrote.body, hsound.definitions,
    hwrote.interned, definitions_emitInternedData]
  rfl

theorem glossed_wrote (hsound : SoundBody encode) (hsteady : Steady encode)
    (hspelling : Spelling memory allowed encode) (h : Glossed memory allowed all writer.sequence)
    (hwrote : Wrote domain answers writer encode writer' packet) :
    Glossed memory allowed (all ++ [packet]) writer'.sequence := by
  have htables := wrote_tables hwrote
  have hspells := hspelling _ _ h.spells
  refine ⟨consistent_wrote hsound h.consistent hwrote, ?_, ?_⟩
  · rw [htables]
    exact ((hsteady _).trans (emit_names _)).annotationNames.remembers h.remembers
  · rw [definedBy_wrote hsound hwrote, htables, (InternedNames.emit_interners _).2.1]
    exact hspells.mono (fun _ => id) fun entry hmem => List.mem_append_left _ hmem

theorem lookup_of_mem {entries : List (Nat × Bytes)} (hnodup : (entries.map Prod.fst).Nodup)
    {iid : Nat} {value : Bytes} (h : (iid, value) ∈ entries) : entries.lookup iid = some value := by
  obtain ⟨before, after, rfl⟩ := List.append_of_mem h
  rw [List.map_append, List.nodup_append] at hnodup
  refine List.lookup_eq_some_iff.2 ⟨before, after, rfl, fun entry hmem => ?_⟩
  rw [bne_iff_ne]
  exact fun heq => hnodup.2.2 entry.1 (List.mem_map_of_mem hmem) iid (by simp) heq.symm

/-- A stored field in plain text. -/
def plain (memory : StaticMemory) (field : StaticStr × FieldValue) : Bytes × NoteValue :=
  (memory.text field.1, wireValue field.2)

theorem read_wireValue (values : List (Nat × Bytes)) (value : FieldValue) :
    (wireValue value).read values = some (wireValue value) := by
  cases value <;> rfl

theorem Shows.read {tables : InternTables} {names values : List (Nat × Bytes)}
    {field : StaticStr × FieldValue} {note : Note} (h : Shows tables field note)
    (hnodup : (names.map Prod.fst).Nodup) (hspells : Spells memory allowed
      tables.annotationNames names) {fields : List (StaticStr × FieldValue)}
    (hdistinct : Distinct memory allowed fields) (hfield : field ∈ fields) :
    note.read names values = some (plain memory field) := by
  obtain ⟨iid, hmap, rfl⟩ := h
  obtain ⟨name, hname, hptr, hentry⟩ := hspells _ _ hmap
  have hlookup := lookup_of_mem hnodup hentry
  rw [hdistinct name hname field hfield hptr] at hlookup
  simp only [Note.read, hlookup, read_wireValue, Option.bind_eq_bind, Option.bind_some]
  rfl

theorem all_read {tables : InternTables} {names values : List (Nat × Bytes)}
    {fields : List (StaticStr × FieldValue)} {shown : List Note}
    (h : List.Forall₂ (Shows tables) fields shown) (hnodup : (names.map Prod.fst).Nodup)
    (hspells : Spells memory allowed tables.annotationNames names)
    (hdistinct : Distinct memory allowed fields) :
    shown.map (Note.read names values) = fields.map fun field => some (plain memory field) := by
  induction h with
  | nil => rfl
  | cons hfirst _ ih =>
      rw [List.map_cons, List.map_cons, hfirst.read hnodup hspells hdistinct List.mem_cons_self,
        ih fun name hname field hmem => hdistinct name hname field (List.mem_cons_of_mem _ hmem)]

theorem levelValue_iid {level other : Level} (h : (levelValue level).1 = (levelValue other).1) :
    level = other := by
  cases level <;> cases other <;> first | rfl | cases h

/-- The level in plain text. -/
theorem levelNote_read {defined : Table → List (Nat × Bytes)} {tables : InternTables}
    (hok : TablesOk defined tables) {level : Level}
    (hname : Known defined tables .annotationNames levelNameIid)
    (hvalue : Known defined tables .annotationValues (levelValue level).1) :
    (levelNote level).read (entries defined tables .annotationNames)
        (entries defined tables .annotationValues) =
      some (text "level", .text (levelValue level).2.1) := by
  obtain ⟨nameEntry, hnameEntry, hnameIid⟩ := List.mem_map.1 hname
  obtain ⟨valueEntry, hvalueEntry, hvalueIid⟩ := List.mem_map.1 hvalue
  have hnamed := hok.levelName.name nameEntry hnameEntry hnameIid
  obtain ⟨other, hother, -⟩ := hok.annotationValues.levels valueEntry hvalueEntry
  rw [hother] at hvalueIid
  obtain rfl := levelValue_iid hvalueIid
  have hnames := lookup_of_mem hok.annotationNames.nodup
    (show (levelNameIid, text "level") ∈ _ from hnameIid ▸ hnamed ▸ hnameEntry)
  have hvalues := lookup_of_mem hok.annotationValues.nodup (hother ▸ hvalueEntry)
  simp only [Note.read, levelNote, NoteValue.read, hnames, hvalues, Option.bind_eq_bind,
    Option.bind_some, Option.map_some]
  rfl

/-- The stored fields that a slice shows. -/
def shownFields (config : Config) : Body → List (StaticStr × FieldValue)
  | .lifetimeEnd _ _ fields => if config.debugAnnotations then fields else []
  | .threadBegin _ fields _ _ =>
      if config.debugAnnotations && config.spanMode == .threadTracks then fields else []
  | _ => []

/-- What the slices of a span show of it, with the level where there is one. -/
def shownOf (memory : StaticMemory) (config : Config) (body : Body) :
    Option (List (Bytes × NoteValue)) :=
  match body with
  | .threadBegin metadata _ _ _ =>
      some ((text "level", .text (levelValue metadata.level).2.1) ::
        (shownFields config body).map (plain memory))
  | .lifetimeEnd _ _ _ | .pollBegin _ _ _ | .enterEnd _ _ =>
      some ((shownFields config body).map (plain memory))
  | _ => none

/-- The annotations of a packet in plain text, by what the packets so far define. -/
def plainNotes (packets : List Written) (packet : Written) : List (Option (Bytes × NoteValue)) :=
  (notes (Op.fields packet.calls)).map
    (Note.read (definedBy packets .annotationNames) (definedBy packets .annotationValues))

theorem note_references {packet : List Field} {note : Note} (h : note ∈ notes packet) :
    (∀ iid ∈ note.nameIids, iid ∈ Table.annotationNames.references packet) ∧
      ∀ iid, .interned iid ∈ note.values → iid ∈ Table.annotationValues.references packet := by
  obtain ⟨event, hevent, hnote⟩ := List.mem_flatMap.1 h
  obtain ⟨fields, hfields, rfl⟩ := List.mem_map.1 hnote
  refine ⟨fun iid hiid => ?_, fun iid hiid => ?_⟩
  · exact List.mem_flatMap.2 ⟨event, hevent, List.mem_flatMap.2 ⟨fields, hfields, hiid⟩⟩
  · refine List.mem_flatMap.2 ⟨event, hevent, List.mem_flatMap.2 ⟨fields, hfields, ?_⟩⟩
    obtain ⟨field, hfield, hvalue⟩ := List.mem_filterMap.1 hiid
    refine List.mem_filterMap.2 ⟨field, hfield, ?_⟩
    cases field with
    | varint fieldId value =>
        simp only [noteValue] at hvalue
        split at hvalue
        · cases hvalue
        · split at hvalue
          · cases hvalue
          · split at hvalue
            · cases hvalue
            · split at hvalue
              · cases hvalue
                rename_i hid
                exact if_pos hid
              · cases hvalue
    | fixed64 fieldId bits | bytes fieldId value =>
        simp only [noteValue] at hvalue
        split at hvalue
        · cases hvalue
        · cases hvalue
    | message fieldId nested => cases hvalue

/-- A slice of a span reads as what it shows of the span. -/
theorem Glossed.reads {body : Body} {shown : List (Bytes × NoteValue)}
    (h : Glossed memory allowed all writer.sequence)
    (hnames : ∀ name ∈ fieldNames body, allowed name)
    (hdistinct : Distinct memory allowed (shownFields config body))
    (hwrote : Wrote domain answers writer (body.encode memory config bases) writer' packet)
    (hshown : shownOf memory config body = some shown) :
    plainNotes (all ++ [packet]) packet = shown.map some := by
  have hsound := @encode_sound memory config bases body
  have hok := (hsound.extends_tables _ _ h.consistent.1).ok
  have hspells := @spelling_encode memory allowed config bases body hnames _ _ h.spells
  have henclosed : Enclosed packet := ⟨⟨_, _, _, _, hwrote.header⟩, ⟨_, hwrote.interned⟩⟩
  have hreferences := hsound.references _ _ h.consistent.1
  rw [plainNotes, definedBy_wrote hsound hwrote, definedBy_wrote hsound hwrote, henclosed.notes,
    hwrote.body]
  cases body with
  | lifetimeEnd uuid flows fields =>
      cases hshown
      rw [all_read (lifetimeEnd_shows h.remembers uuid flows) hok.annotationNames.nodup hspells
        hdistinct]
      exact (List.map_map ..).symm
  | threadBegin metadata fields pollFlowId flows =>
      cases hshown
      obtain ⟨shown, hnotes, hshows⟩ := @threadBegin_shows memory config bases fields
        writer.sequence.tables h.remembers metadata pollFlowId flows
      obtain ⟨hname, hvalue⟩ := note_references (hnotes ▸ List.mem_cons_self)
      rw [hnotes, List.map_cons, List.map_cons,
        levelNote_read hok (hreferences _ _ (hname _ List.mem_cons_self))
          (hreferences _ _ (hvalue _ List.mem_cons_self)),
        all_read hshows hok.annotationNames.nodup hspells hdistinct]
      exact congrArg _ (List.map_map ..).symm
  | pollBegin uuid pollFlowId flows =>
      cases hshown
      rw [pollBegin_notes]
      rfl
  | enterEnd uuid flows =>
      cases hshown
      rw [enterEnd_notes]
      rfl
  | trackDescriptor | counterDescriptor | lifetimeBegin | instant => cases hshown

end Glossed

end TracingPerfetto.FieldNames
