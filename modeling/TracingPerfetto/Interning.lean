import TracingPerfetto.SequenceRuns
import TracingPerfetto.TrackEvents

/-!
Interned ids of a sequence. What a decoder knows of a table is what the packets
so far define; what the writer may refer to is that and the definitions waiting
for the next packet. Every step of a packet body keeps the two in line.
-/

namespace TracingPerfetto.Interning

open TracingPerfetto.Wire TracingPerfetto.Proto TracingPerfetto.Runtime
open TracingPerfetto.Schema TracingPerfetto.Emit TracingPerfetto.Sequence
open TracingPerfetto.Sequence.SequenceWriter TracingPerfetto.SequenceRuns
open TracingPerfetto.TrackEvents

inductive Table where
  | eventNames
  | annotationNames
  | annotationValues
  | categories
  | sourceLocations
  deriving DecidableEq, Repr

/-! ## What a decoder sees -/

def Table.entryId : Table → Nat
  | .eventNames => InternedData.eventNames
  | .annotationNames => InternedData.debugAnnotationNames
  | .annotationValues => InternedData.debugAnnotationStringValues
  | .categories => InternedData.eventCategories
  | .sourceLocations => InternedData.sourceLocations

/-- An entry's iid and its text; the five entry messages share these two ids. -/
def entry (fields : List Field) : Nat × Bytes :=
  ((varints EventName.iid fields).headD 0, (texts EventName.name fields).headD [])

/-- The entries that a packet adds to a table. -/
def Table.definitions (table : Table) (packet : List Field) : List (Nat × Bytes) :=
  ((messages TracePacket.internedData packet).flatMap (messages table.entryId)).map entry

/-- The iids of a table that a track event refers to. -/
def Table.ofEvent (table : Table) (event : List Field) : List Nat :=
  match table with
  | .eventNames => varints TrackEvent.nameIid event
  | .annotationNames =>
      (messages TrackEvent.debugAnnotations event).flatMap (varints DebugAnnotation.nameIid)
  | .annotationValues =>
      (messages TrackEvent.debugAnnotations event).flatMap
        (varints DebugAnnotation.stringValueIid)
  | .categories => varints TrackEvent.categoryIids event
  | .sourceLocations => varints TrackEvent.sourceLocationIid event

def Table.references (table : Table) (packet : List Field) : List Nat :=
  (messages TracePacket.trackEvent packet).flatMap table.ofEvent

theorem ofEvent_append (table : Table) (fields more : List Field) :
    table.ofEvent (fields ++ more) = table.ofEvent fields ++ table.ofEvent more := by
  cases table <;> simp [Table.ofEvent]

theorem definitions_append (table : Table) (fields more : List Field) :
    table.definitions (fields ++ more) =
      table.definitions fields ++ table.definitions more := by
  simp [Table.definitions]

theorem references_append (table : Table) (fields more : List Field) :
    table.references (fields ++ more) = table.references fields ++ table.references more := by
  simp [Table.references]

/-! ## The invariant of the tables -/

def Table.pending (tables : InternTables) : Table → List (Nat × Bytes)
  | .eventNames => tables.newEventNames
  | .annotationNames => tables.newAnnotationNames
  | .annotationValues => tables.newAnnotationValues
  | .categories => tables.newCategories
  | .sourceLocations => tables.newSourceLocations.map fun entry => (entry.1, entry.2.1)

/-- What the packets so far and the next one define. -/
def entries (defined : Table → List (Nat × Bytes)) (tables : InternTables) (table : Table) :
    List (Nat × Bytes) :=
  defined table ++ table.pending tables

/-- The iids at work in a table: no two entries share one, and the table knows no
other. Ids up to `reserved` are not the interner's. -/
structure InternerOk (reserved : Nat) (interner : Interner) (entries : List (Nat × Bytes)) :
    Prop where
  nodup : (entries.map Prod.fst).Nodup
  range : ∀ iid ∈ entries.map Prod.fst, 0 < iid ∧ iid ≤ interner.next
  above : reserved ≤ interner.next
  mapped : ∀ key iid, interner.map key = some iid → iid ∈ entries.map Prod.fst ∧ reserved < iid
  cached : interner.lastKey ≠ 0 →
    interner.lastIid ∈ entries.map Prod.fst ∧ reserved < interner.lastIid

/-- The level values defined so far are those whose bit is set. -/
structure ValuesOk (levelValuesSeen : Nat) (entries : List (Nat × Bytes)) : Prop where
  nodup : (entries.map Prod.fst).Nodup
  levels : ∀ entry ∈ entries, ∃ level,
    entry = ((levelValue level).1, (levelValue level).2.1) ∧
      levelValuesSeen &&& (levelValue level).2.2 ≠ 0
  seen : ∀ level, levelValuesSeen &&& (levelValue level).2.2 ≠ 0 →
    (levelValue level).1 ∈ entries.map Prod.fst

structure LocationsOk (sourceLocations : PtrMap Nat) (next : Nat)
    (entries : List (Nat × Bytes)) : Prop where
  nodup : (entries.map Prod.fst).Nodup
  range : ∀ iid ∈ entries.map Prod.fst, 0 < iid ∧ iid ≤ next
  mapped : ∀ callsite iid, sourceLocations callsite = some iid →
    iid ∈ entries.map Prod.fst

/-- The reserved annotation name is the level's, defined once the level was seen. -/
structure LevelNameOk (levelNameSeen : Bool) (entries : List (Nat × Bytes)) : Prop where
  name : ∀ entry ∈ entries, entry.1 = levelNameIid → entry.2 = text "level"
  seen : levelNameSeen = true ↔ levelNameIid ∈ entries.map Prod.fst

structure TablesOk (defined : Table → List (Nat × Bytes)) (tables : InternTables) : Prop where
  eventNames : InternerOk 0 tables.eventNames (entries defined tables .eventNames)
  categories : InternerOk 0 tables.categories (entries defined tables .categories)
  annotationNames : InternerOk levelNameIid tables.annotationNames
    (entries defined tables .annotationNames)
  levelName : LevelNameOk tables.levelNameSeen (entries defined tables .annotationNames)
  annotationValues : ValuesOk tables.levelValuesSeen
    (entries defined tables .annotationValues)
  sourceLocations : LocationsOk tables.sourceLocations tables.nextSourceLocationIid
    (entries defined tables .sourceLocations)

/-- What may be referred to after a step, and that nothing known is forgotten. -/
structure Extends (defined : Table → List (Nat × Bytes)) (tables tables' : InternTables) :
    Prop where
  ok : TablesOk defined tables'
  grows : ∀ table, entries defined tables table <+: entries defined tables' table

theorem Extends.refl {defined : Table → List (Nat × Bytes)} {tables : InternTables}
    (h : TablesOk defined tables) : Extends defined tables tables :=
  ⟨h, fun _ => List.prefix_rfl⟩

theorem Extends.trans {defined : Table → List (Nat × Bytes)} {first second third : InternTables}
    (h : Extends defined first second) (hnext : Extends defined second third) :
    Extends defined first third :=
  ⟨hnext.ok, fun table => (h.grows table).trans (hnext.grows table)⟩

/-- The iid may be written: it is defined no later than in the packet at hand. -/
def Known (defined : Table → List (Nat × Bytes)) (tables : InternTables) (table : Table)
    (iid : Nat) : Prop :=
  iid ∈ (entries defined tables table).map Prod.fst

theorem Known.mono {defined : Table → List (Nat × Bytes)} {tables tables' : InternTables}
    {table : Table} {iid : Nat} (h : Known defined tables table iid)
    (hextends : Extends defined tables tables') : Known defined tables' table iid :=
  ((hextends.grows table).map Prod.fst).subset h

/-! ## Interning one string -/

theorem InternerOk.intern {reserved : Nat} {interner : Interner} {defined : List (Nat × Bytes)}
    {pending : Pending} (h : InternerOk reserved interner (defined ++ pending))
    (memory : StaticMemory) (value : StaticStr) :
    InternerOk reserved (interner.intern memory value pending).2.1
        (defined ++ (interner.intern memory value pending).2.2) ∧
      pending <+: (interner.intern memory value pending).2.2 ∧
      (interner.intern memory value pending).1 ∈
        (defined ++ (interner.intern memory value pending).2.2).map Prod.fst ∧
      reserved < (interner.intern memory value pending).1 := by
  simp only [Interner.intern]
  split
  · rename_i hlast
    obtain ⟨hmem, habove⟩ := h.cached (by rw [hlast]; exact value.ptr_ne)
    exact ⟨h, List.prefix_rfl, hmem, habove⟩
  · cases hmap : interner.map value.ptr with
    | some iid =>
        obtain ⟨hmem, habove⟩ := h.mapped _ _ hmap
        exact ⟨⟨h.nodup, h.range, h.above, h.mapped, fun _ => ⟨hmem, habove⟩⟩,
          List.prefix_rfl, hmem, habove⟩
    | none =>
        -- The new id is above all ids so far.
        have hfresh : interner.next + 1 ∉ (defined ++ pending).map Prod.fst := by
          intro hmem
          have := (h.range _ hmem).2
          omega
        have habove := h.above
        simp only [Interner.internMiss]
        have hentries : (defined ++ (pending ++ [(interner.next + 1, memory.text value)])).map
            Prod.fst = (defined ++ pending).map Prod.fst ++ [interner.next + 1] := by simp
        refine ⟨⟨?_, ?_, ?_, ?_, ?_⟩, List.prefix_append _ _, ?_, by omega⟩
        · rw [hentries]
          refine List.nodup_append.2 ⟨h.nodup, by simp, ?_⟩
          rintro old hold new hnew rfl
          exact hfresh (List.mem_singleton.1 hnew ▸ hold)
        · rw [hentries]
          intro iid hiid
          obtain hold | hnew := List.mem_append.1 hiid
          · have := h.range iid hold
            exact ⟨this.1, Nat.le_succ_of_le this.2⟩
          · rw [List.mem_singleton.1 hnew]
            exact ⟨by omega, le_rfl⟩
        · exact Nat.le_succ_of_le h.above
        · intro key iid hkey
          rw [hentries]
          simp only [PtrMap.insert] at hkey
          split at hkey
          · simp only [Option.some.injEq] at hkey
            subst hkey
            exact ⟨by simp, Nat.lt_succ_of_le habove⟩
          · obtain ⟨hmem, hiid⟩ := h.mapped _ _ hkey
            exact ⟨List.mem_append_left _ hmem, hiid⟩
        · intro _
          rw [hentries]
          exact ⟨by simp, Nat.lt_succ_of_le habove⟩
        · rw [hentries]
          simp

section Steps

variable {defined : Table → List (Nat × Bytes)} {tables : InternTables}
variable (memory : StaticMemory)

theorem internEventName_extends (h : TablesOk defined tables) (name : StaticStr) :
    Extends defined tables (InternTables.internEventName memory name tables).2 ∧
      Known defined (InternTables.internEventName memory name tables).2 .eventNames
        (InternTables.internEventName memory name tables).1 := by
  obtain ⟨hok, hgrows, hmem, _⟩ := h.eventNames.intern memory name
  refine ⟨⟨⟨hok, h.categories, h.annotationNames, h.levelName, h.annotationValues,
    h.sourceLocations⟩, fun table => ?_⟩, hmem⟩
  cases table with
  | eventNames => exact (List.prefix_append_right_inj _).2 hgrows
  | _ => exact List.prefix_rfl

theorem internCategory_extends (h : TablesOk defined tables) (name : StaticStr) :
    Extends defined tables (InternTables.internCategory memory name tables).2 ∧
      Known defined (InternTables.internCategory memory name tables).2 .categories
        (InternTables.internCategory memory name tables).1 := by
  obtain ⟨hok, hgrows, hmem, _⟩ := h.categories.intern memory name
  refine ⟨⟨⟨h.eventNames, hok, h.annotationNames, h.levelName, h.annotationValues,
    h.sourceLocations⟩, fun table => ?_⟩, hmem⟩
  cases table with
  | categories => exact (List.prefix_append_right_inj _).2 hgrows
  | _ => exact List.prefix_rfl

/-- A miss queues an entry that is not the reserved one. -/
theorem intern_pending (interner : Interner) (value : StaticStr) (pending : Pending) :
    (interner.intern memory value pending).2.2 = pending ∨
      ∃ iid, interner.next < iid ∧
        (interner.intern memory value pending).2.2 = pending ++ [(iid, memory.text value)] := by
  simp only [Interner.intern]
  split
  · exact Or.inl rfl
  · cases interner.map value.ptr with
    | some iid => exact Or.inl rfl
    | none => exact Or.inr ⟨interner.next + 1, by omega, rfl⟩

theorem internAnnotationName_extends (h : TablesOk defined tables) (name : StaticStr) :
    Extends defined tables (TrackEvents.internAnnotationName memory name tables).2 ∧
      Known defined (TrackEvents.internAnnotationName memory name tables).2 .annotationNames
        (TrackEvents.internAnnotationName memory name tables).1 ∧
      levelNameIid < (TrackEvents.internAnnotationName memory name tables).1 := by
  obtain ⟨hok, hgrows, hmem, hreserved⟩ :=
    h.annotationNames.intern memory name
  have habove := h.annotationNames.above
  have hlevel : LevelNameOk tables.levelNameSeen
      (entries defined (TrackEvents.internAnnotationName memory name tables).2
        .annotationNames) := by
    obtain hsame | ⟨iid, hiid, hnew⟩ := intern_pending memory
      tables.annotationNames name tables.newAnnotationNames
    · have hentries : entries defined (TrackEvents.internAnnotationName memory name tables).2
          .annotationNames = entries defined tables .annotationNames :=
        congrArg (defined .annotationNames ++ ·) hsame
      rw [hentries]
      exact ⟨h.levelName.name, h.levelName.seen⟩
    · have hentries : entries defined (TrackEvents.internAnnotationName memory name tables).2
          .annotationNames =
            entries defined tables .annotationNames ++ [(iid, memory.text name)] := by
        rw [entries, entries, List.append_assoc]
        exact congrArg (defined .annotationNames ++ ·) hnew
      have hne : levelNameIid ≠ iid := by omega
      rw [hentries]
      refine ⟨fun known hknown hlevel => ?_, ?_⟩
      · obtain hold | hlast := List.mem_append.1 hknown
        · exact h.levelName.name known hold hlevel
        · rw [List.mem_singleton.1 hlast] at hlevel
          exact absurd hlevel.symm hne
      · rw [List.map_append, List.mem_append]
        simpa [hne] using h.levelName.seen
  refine ⟨⟨⟨h.eventNames, h.categories, hok, hlevel, h.annotationValues, h.sourceLocations⟩,
    fun table => ?_⟩, hmem, hreserved⟩
  cases table with
  | annotationNames => exact (List.prefix_append_right_inj _).2 hgrows
  | _ => exact List.prefix_rfl

theorem internSourceLocation_extends (h : TablesOk defined tables) (callsite : Nat)
    (file : StaticStr) (line : Nat) :
    Extends defined tables
        (InternTables.internSourceLocation memory callsite file line tables).2 ∧
      Known defined (InternTables.internSourceLocation memory callsite file line tables).2
        .sourceLocations
        (InternTables.internSourceLocation memory callsite file line tables).1 := by
  simp only [InternTables.internSourceLocation]
  cases hmap : tables.sourceLocations callsite with
  | some iid => exact ⟨Extends.refl h, h.sourceLocations.mapped _ _ hmap⟩
  | none =>
      obtain ⟨hnodup, hrange, hmapped⟩ := h.sourceLocations
      have hentries : ∀ tables' : InternTables, tables'.newSourceLocations =
          tables.newSourceLocations ++
            [(tables.nextSourceLocationIid + 1, memory.text file, line)] →
          entries defined tables' .sourceLocations = entries defined tables .sourceLocations ++
            [(tables.nextSourceLocationIid + 1, memory.text file)] := by
        intro tables' hnew
        simp [entries, Table.pending, hnew]
      have hmem : tables.nextSourceLocationIid + 1 ∈ ((entries defined tables .sourceLocations ++
          [(tables.nextSourceLocationIid + 1, memory.text file)]).map Prod.fst) := by simp
      refine ⟨⟨⟨h.eventNames, h.categories, h.annotationNames, h.levelName, h.annotationValues,
        ?_⟩, fun table => ?_⟩, ?_⟩
      · rw [hentries _ rfl]
        refine ⟨?_, ?_, ?_⟩
        · rw [List.map_append]
          refine List.nodup_append.2 ⟨hnodup, by simp, ?_⟩
          rintro old hold new hnew rfl
          rw [List.map_singleton, List.mem_singleton] at hnew
          have := (hrange old hold).2
          omega
        · intro iid hiid
          rw [List.map_append, List.mem_append] at hiid
          obtain hold | hnew := hiid
          · have := hrange iid hold
            exact ⟨this.1, Nat.le_succ_of_le this.2⟩
          · rw [List.map_singleton, List.mem_singleton] at hnew
            rw [hnew]
            exact ⟨Nat.succ_pos _, le_rfl⟩
        · intro key iid hkey
          simp only [PtrMap.insert] at hkey
          split at hkey
          · simp only [Option.some.injEq] at hkey
            rw [← hkey]
            exact hmem
          · rw [List.map_append, List.mem_append]
            exact Or.inl (hmapped _ _ hkey)
      · cases table with
        | sourceLocations => exact ⟨_, (hentries _ rfl).symm⟩
        | _ => exact List.prefix_rfl
      · rw [Known, hentries _ rfl]
        exact hmem

theorem registerLevelName_extends (h : TablesOk defined tables)
    (hseen : tables.levelNameSeen = false) :
    Extends defined tables tables.registerLevelName := by
  have hfresh : levelNameIid ∉ (entries defined tables .annotationNames).map Prod.fst := by
    rw [← h.levelName.seen, hseen]
    exact Bool.false_ne_true
  have hentries : entries defined tables.registerLevelName .annotationNames =
      entries defined tables .annotationNames ++ [(levelNameIid, text "level")] := by
    rw [entries, entries, List.append_assoc]
    rfl
  refine ⟨⟨h.eventNames, h.categories, ?_, ?_, h.annotationValues, h.sourceLocations⟩,
    fun table => ?_⟩
  · obtain ⟨hnodup, hrange, habove, hmapped, hcached⟩ := h.annotationNames
    rw [hentries]
    refine ⟨?_, ?_, habove, ?_, ?_⟩
    · rw [List.map_append]
      refine List.nodup_append.2 ⟨hnodup, by simp, ?_⟩
      rintro old hold new hnew rfl
      rw [List.map_singleton, List.mem_singleton] at hnew
      rw [hnew] at hold
      exact hfresh hold
    · intro iid hiid
      rw [List.map_append, List.mem_append] at hiid
      obtain hold | hnew := hiid
      · exact hrange iid hold
      · rw [List.map_singleton, List.mem_singleton] at hnew
        rw [hnew]
        exact ⟨by decide, habove⟩
    · intro key iid hkey
      obtain ⟨hmem, hiid⟩ := hmapped _ _ hkey
      exact ⟨by rw [List.map_append]; exact List.mem_append_left _ hmem, hiid⟩
    · intro hlast
      obtain ⟨hmem, hiid⟩ := hcached hlast
      exact ⟨by rw [List.map_append]; exact List.mem_append_left _ hmem, hiid⟩
  · rw [hentries]
    refine ⟨fun known hknown hlevel => ?_, by simp [InternTables.registerLevelName]⟩
    obtain hold | hlast := List.mem_append.1 hknown
    · exact h.levelName.name known hold hlevel
    · rw [List.mem_singleton.1 hlast]
  · cases table with
    | annotationNames => exact ⟨_, hentries.symm⟩
    | _ => exact List.prefix_rfl

/-- Setting the bit of one level leaves the other levels' bits alone. -/
theorem levelBit_or (seen : Nat) (level other : Level) :
    (seen ||| (levelValue level).2.2) &&& (levelValue other).2.2 ≠ 0 ↔
      seen &&& (levelValue other).2.2 ≠ 0 ∨ other = level := by
  have hbits : (levelValue level).2.2 &&& (levelValue other).2.2 ≠ 0 ↔ other = level := by
    cases level <;> cases other <;> decide
  rw [Nat.and_or_distrib_right, ← hbits]
  simp only [ne_eq, Nat.or_eq_zero_iff]
  tauto

theorem levelValue_iid_inj {level other : Level}
    (h : (levelValue level).1 = (levelValue other).1) : level = other := by
  cases level <;> cases other <;> first | rfl | exact absurd h (by decide)

theorem registerLevelValue_extends (h : TablesOk defined tables) (level : Level)
    (hseen : tables.levelValueSeen (levelValue level).2.2 = false) :
    Extends defined tables (tables.registerLevelValue (levelValue level).2.2
      (levelValue level).1 (levelValue level).2.1) := by
  obtain ⟨hnodup, hlevels, hdefined⟩ := h.annotationValues
  have hunseen : ¬ tables.levelValuesSeen &&& (levelValue level).2.2 ≠ 0 := by
    simpa [InternTables.levelValueSeen] using hseen
  have hentries : entries defined (tables.registerLevelValue (levelValue level).2.2
      (levelValue level).1 (levelValue level).2.1) .annotationValues =
        entries defined tables .annotationValues ++
          [((levelValue level).1, (levelValue level).2.1)] := by
    rw [entries, entries, List.append_assoc]
    rfl
  refine ⟨⟨h.eventNames, h.categories, h.annotationNames, h.levelName, ?_, h.sourceLocations⟩,
    fun table => ?_⟩
  · rw [hentries]
    refine ⟨?_, ?_, ?_⟩
    · rw [List.map_append]
      refine List.nodup_append.2 ⟨hnodup, by simp, ?_⟩
      rintro old hold new hnew rfl
      rw [List.map_singleton, List.mem_singleton] at hnew
      obtain ⟨known, hknown, rfl⟩ := List.mem_map.1 hold
      obtain ⟨other, rfl, hbit⟩ := hlevels known hknown
      rw [levelValue_iid_inj hnew] at hbit
      exact hunseen hbit
    · intro known hknown
      obtain hold | hlast := List.mem_append.1 hknown
      · obtain ⟨other, rfl, hbit⟩ := hlevels known hold
        exact ⟨other, rfl, (levelBit_or _ level other).2 (Or.inl hbit)⟩
      · rw [List.mem_singleton.1 hlast]
        exact ⟨level, rfl, (levelBit_or _ level level).2 (Or.inr rfl)⟩
    · intro other hother
      rw [List.map_append, List.mem_append]
      obtain hbit | rfl := (levelBit_or _ level other).1 hother
      · exact Or.inl (hdefined other hbit)
      · exact Or.inr (by simp)
  · cases table with
    | annotationValues => exact ⟨_, hentries.symm⟩
    | _ => exact List.prefix_rfl

end Steps

/-! ## Packet bodies refer to known iids only -/

/-- The calls of an event refer to known iids only. -/
def Referenced (defined : Table → List (Nat × Bytes)) (tables : InternTables)
    (calls : List Op) : Prop :=
  ∀ table : Table, ∀ iid ∈ table.ofEvent (Op.fields calls), Known defined tables table iid

/-- The calls refer to no iid. -/
def Silent (calls : List Op) : Prop :=
  ∀ table : Table, table.ofEvent (Op.fields calls) = []

section Bodies

variable {defined : Table → List (Nat × Bytes)} {tables tables' : InternTables}
variable (memory : StaticMemory) (config : Config) (bases : IdBases)

theorem Silent.referenced {calls : List Op} (h : Silent calls) :
    Referenced defined tables calls := by
  intro table iid hiid
  simp [h table] at hiid

theorem Referenced.append {calls more : List Op} (h : Referenced defined tables calls)
    (hmore : Referenced defined tables more) : Referenced defined tables (calls ++ more) := by
  intro table iid hiid
  rw [Op.fields_append, ofEvent_append, List.mem_append] at hiid
  exact hiid.elim (h table iid) (hmore table iid)

theorem Referenced.cons {op : Op} {calls : List Op} (h : Referenced defined tables [op])
    (hmore : Referenced defined tables calls) : Referenced defined tables (op :: calls) :=
  h.append hmore

theorem Referenced.mono {calls : List Op} (h : Referenced defined tables calls)
    (hextends : Extends defined tables tables') : Referenced defined tables' calls :=
  fun table iid hiid => (h table iid hiid).mono hextends

/-- The encoder extends what is known, and refers to that only. -/
def Sound (encode : Encode (List Op)) : Prop :=
  ∀ defined tables, TablesOk defined tables →
    Extends defined tables (encode tables).2 ∧
      Referenced defined (encode tables).2 (encode tables).1

theorem Sound.pure {calls : List Op} (h : Silent calls) :
    Sound (Pure.pure calls : Encode (List Op)) :=
  fun _ _ hok => ⟨Extends.refl hok, h.referenced⟩

theorem Sound.onlyIf {encode : Encode (List Op)} (h : Sound encode) (condition : Bool) :
    Sound (onlyIf condition encode) := by
  cases condition with
  | true => exact h
  | false => exact Sound.pure fun table => by cases table <;> rfl

/-- Running one encoder after another. -/
theorem bind_run {α β : Type} (encode : Encode α) (next : α → Encode β)
    (tables : InternTables) :
    (encode >>= next) tables = next (encode tables).1 (encode tables).2 := rfl

theorem pure_run {α : Type} (value : α) (tables : InternTables) :
    (Pure.pure value : Encode α) tables = (value, tables) := rfl

theorem referenced_nameIid {iid : Nat} (h : Known defined tables .eventNames iid) :
    Referenced defined tables [nameIid iid] := by
  intro table known hknown
  cases table <;> simp_all [Table.ofEvent, Op.fields, Op.field, varints, messages, nameIid,
    TrackEvent.nameIid, TrackEvent.categoryIids, TrackEvent.sourceLocationIid,
    TrackEvent.debugAnnotations]

theorem referenced_categoryIid {iid : Nat} (h : Known defined tables .categories iid) :
    Referenced defined tables [categoryIid iid] := by
  intro table known hknown
  cases table <;> simp_all [Table.ofEvent, Op.fields, Op.field, varints, messages, categoryIid,
    TrackEvent.nameIid, TrackEvent.categoryIids, TrackEvent.sourceLocationIid,
    TrackEvent.debugAnnotations]

theorem referenced_sourceLocationIid {iid : Nat}
    (h : Known defined tables .sourceLocations iid) :
    Referenced defined tables [sourceLocationIid iid] := by
  intro table known hknown
  cases table <;> simp_all [Table.ofEvent, Op.fields, Op.field, varints, messages,
    sourceLocationIid, TrackEvent.nameIid, TrackEvent.categoryIids,
    TrackEvent.sourceLocationIid, TrackEvent.debugAnnotations]

theorem referenced_annotated {iid : Nat} {value : Op}
    (h : Known defined tables .annotationNames iid)
    (hname : varints DebugAnnotation.nameIid [value.field] = [])
    (hvalue : ∀ known ∈ varints DebugAnnotation.stringValueIid [value.field],
      Known defined tables .annotationValues known) :
    Referenced defined tables [annotated iid value] := by
  have hnames : varints DebugAnnotation.nameIid [.varint DebugAnnotation.nameIid iid,
      value.field] = [iid] :=
    (varints_append DebugAnnotation.nameIid [.varint DebugAnnotation.nameIid iid]
      [value.field]).trans (by rw [hname]; rfl)
  have hvalues : varints DebugAnnotation.stringValueIid [.varint DebugAnnotation.nameIid iid,
      value.field] = varints DebugAnnotation.stringValueIid [value.field] :=
    varints_append DebugAnnotation.stringValueIid [.varint DebugAnnotation.nameIid iid]
      [value.field]
  have hmessages : messages TrackEvent.debugAnnotations (Op.fields [annotated iid value]) =
      [[.varint DebugAnnotation.nameIid iid, value.field]] := rfl
  intro table known hknown
  cases table with
  | annotationNames =>
      simp only [Table.ofEvent, hmessages, List.flatMap_cons, List.flatMap_nil,
        List.append_nil, hnames, List.mem_singleton] at hknown
      rwa [hknown]
  | annotationValues =>
      simp only [Table.ofEvent, hmessages, List.flatMap_cons, List.flatMap_nil,
        List.append_nil, hvalues] at hknown
      exact hvalue known hknown
  | eventNames | categories | sourceLocations =>
      simp [Table.ofEvent, Op.fields, Op.field, varints, annotated] at hknown

/-- No value of a field is an interned string. -/
def Plain (value : Op) : Prop :=
  varints DebugAnnotation.nameIid [value.field] = [] ∧
    varints DebugAnnotation.stringValueIid [value.field] = []

theorem Plain.referenced {iid : Nat} {value : Op} (h : Plain value)
    (hknown : Known defined tables .annotationNames iid) :
    Referenced defined tables [annotated iid value] :=
  referenced_annotated hknown h.1 (by simp [h.2])

theorem visitedField_plain (iid : Nat) (visit : FieldVisit) :
    ∃ value, visitedField iid visit = annotated iid value ∧ Plain value := by
  cases visit with
  | i128 value =>
      simp only [visitedField]
      cases tryI64 value <;> exact ⟨_, rfl, rfl, rfl⟩
  | u128 value =>
      simp only [visitedField]
      cases tryU64 value <;> exact ⟨_, rfl, rfl, rfl⟩
  | _ => exact ⟨_, rfl, rfl, rfl⟩

theorem storedField_plain (iid : Nat) (value : FieldValue) :
    ∃ written, storedField iid value = annotated iid written ∧ Plain written := by
  cases value <;> exact ⟨_, rfl, rfl, rfl⟩

theorem silent_flows (flows : List PendingFlow) : Silent (writePendingFlows bases flows) := by
  intro table
  induction flows with
  | nil => cases table <;> rfl
  | cons flow flows ih =>
      have hfirst : table.ofEvent (Op.fields (writePendingFlows bases [flow])) = [] := by
        cases flow <;> cases table <;> rfl
      have happend := ofEvent_append table (Op.fields (writePendingFlows bases [flow]))
        (Op.fields (writePendingFlows bases flows))
      rw [hfirst, ih, ← Op.fields_append] at happend
      exact happend

theorem silent_pollFlow (pollFlowId : Option Nat) : Silent (pollFlow bases pollFlowId) := by
  intro table
  cases pollFlowId <;> cases table <;> rfl

theorem silent_trackUuid (uuid : Option Nat) :
    Silent (uuid.map fun uuid => trackUuid (bases.uuid uuid)).toList := by
  intro table
  cases uuid <;> cases table <;> rfl

/-- An event type, with the track of a slice. -/
theorem silent_type (type : Nat) : Silent [.varint TrackEvent.type type] := by
  intro table
  cases table <;> rfl

/-! ### Metadata -/

theorem writeSourceLocation_sound (metadata : Metadata) :
    Sound (writeSourceLocation memory config metadata) := by
  have hnone : Sound (Pure.pure [] : Encode (List Op)) :=
    Sound.pure fun table => by cases table <;> rfl
  cases hfile : metadata.file with
  | none => simpa [writeSourceLocation, hfile] using hnone
  | some file =>
      cases hline : metadata.line with
      | none => simpa [writeSourceLocation, hfile, hline] using hnone
      | some line =>
          simp only [writeSourceLocation, hfile, hline]
          refine Sound.onlyIf (fun defined tables hok => ?_) _
          obtain ⟨hextends, hknown⟩ := internSourceLocation_extends memory hok
            metadata.callsite file line
          exact ⟨hextends, referenced_sourceLocationIid hknown⟩

theorem writeLevel_sound (level : Level) : Sound (writeLevel level) := by
  intro defined tables hok
  have hname : Extends defined tables
      (if tables.levelNameSeen then tables else tables.registerLevelName) := by
    split
    · exact Extends.refl hok
    · rename_i hseen
      exact registerLevelName_extends hok (by simpa using hseen)
  have hnameSeen : (if tables.levelNameSeen then tables
      else tables.registerLevelName).levelNameSeen = true := by
    split
    · assumption
    · rfl
  simp only [writeLevel]
  generalize (if tables.levelNameSeen then tables else tables.registerLevelName) = named at *
  have hvalue : Extends defined named
      (if named.levelValueSeen (levelValue level).2.2 then named
        else named.registerLevelValue (levelValue level).2.2 (levelValue level).1
          (levelValue level).2.1) := by
    split
    · exact Extends.refl hname.ok
    · rename_i hseen
      exact registerLevelValue_extends hname.ok level (by simpa using hseen)
  have hvalueSeen : (levelValue level).1 ∈ (entries defined
      (if named.levelValueSeen (levelValue level).2.2 then named
        else named.registerLevelValue (levelValue level).2.2 (levelValue level).1
          (levelValue level).2.1) .annotationValues).map Prod.fst := by
    split
    · rename_i hseen
      exact hname.ok.annotationValues.seen level
        (by simpa [InternTables.levelValueSeen] using hseen)
    · simp [entries, Table.pending, InternTables.registerLevelValue]
  refine ⟨hname.trans hvalue, referenced_annotated ?_ rfl ?_⟩
  · exact Known.mono (hname.ok.levelName.seen.1 hnameSeen) hvalue
  · intro known hknown
    have hiid : known = (levelValue level).1 := by
      simpa [varints, Op.field] using hknown
    rw [hiid]
    exact hvalueSeen

theorem writeMetadata_sound (metadata : Metadata) :
    Sound (writeMetadata memory config metadata) := by
  intro defined tables hok
  obtain ⟨hlocation, hlocationRefs⟩ := writeSourceLocation_sound memory
    config metadata defined tables hok
  simp only [writeMetadata, bind_run, pure_run]
  generalize writeSourceLocation memory config metadata tables = located at *
  obtain ⟨hlevel, hlevelRefs⟩ := writeLevel_sound metadata.level defined _ hlocation.ok
  generalize writeLevel metadata.level located.2 = leveled at *
  obtain ⟨hcategory, hknown⟩ := internCategory_extends memory hlevel.ok
    metadata.target
  exact ⟨hlocation.trans (hlevel.trans hcategory),
    ((hlocationRefs.mono (hlevel.trans hcategory)).append (hlevelRefs.mono hcategory)).append
      (referenced_categoryIid hknown)⟩

/-! ### Fields -/

theorem writeStoredFields_sound (fields : List (StaticStr × FieldValue)) :
    Sound (writeStoredFields memory fields) := by
  induction fields with
  | nil => exact Sound.pure fun table => by cases table <;> rfl
  | cons field fields ih =>
      obtain ⟨name, value⟩ := field
      intro defined tables hok
      obtain ⟨hname, hknown, _⟩ := internAnnotationName_extends memory hok name
      simp only [writeStoredFields, bind_run, pure_run]
      generalize TrackEvents.internAnnotationName memory name tables = interned at *
      obtain ⟨hrest, hrestRefs⟩ := ih defined _ hname.ok
      obtain ⟨written, hwritten, hplain⟩ := storedField_plain interned.1 value
      rw [hwritten]
      exact ⟨hname.trans hrest,
        Referenced.cons (hplain.referenced (hknown.mono hrest)) hrestRefs⟩

theorem recordAttributes_sound (visits : Visits) : Sound (recordAttributes memory visits) := by
  induction visits with
  | nil => exact Sound.pure fun table => by cases table <;> rfl
  | cons visit visits ih =>
      obtain ⟨name, visit⟩ := visit
      intro defined tables hok
      obtain ⟨hname, hknown, _⟩ := internAnnotationName_extends memory hok name
      simp only [recordAttributes, bind_run, pure_run]
      generalize TrackEvents.internAnnotationName memory name tables = interned at *
      obtain ⟨hrest, hrestRefs⟩ := ih.onlyIf (!visit.panics) defined _ hname.ok
      obtain ⟨written, hwritten, hplain⟩ := visitedField_plain interned.1 visit
      rw [hwritten]
      exact ⟨hname.trans hrest,
        Referenced.cons (hplain.referenced (hknown.mono hrest)) hrestRefs⟩

theorem annotate_sound (write : Bool) (name : StaticStr) (visit : FieldVisit) :
    Sound (EventVisitor.annotate memory write name visit) := by
  refine Sound.onlyIf (fun defined tables hok => ?_) _
  obtain ⟨hname, hknown, _⟩ := internAnnotationName_extends memory hok name
  simp only [bind_run, pure_run]
  obtain ⟨written, hwritten, hplain⟩ := visitedField_plain
    (TrackEvents.internAnnotationName memory name tables).1 visit
  rw [hwritten]
  exact ⟨hname, hplain.referenced hknown⟩

/-- An encoder whose calls come with a result. -/
def SoundWith {α : Type} (encode : Encode (List Op × α)) : Prop :=
  ∀ defined tables, TablesOk defined tables →
    Extends defined tables (encode tables).2 ∧
      Referenced defined (encode tables).2 (encode tables).1.1

theorem SoundWith.pure {α : Type} {calls : List Op} {value : α} (h : Silent calls) :
    SoundWith (Pure.pure (calls, value) : Encode (List Op × α)) :=
  fun _ _ hok => ⟨Extends.refl hok, h.referenced⟩

theorem Sound.with {α : Type} {encode : Encode (List Op)} (h : Sound encode) (value : α) :
    SoundWith (do
      let calls ← encode
      Pure.pure (calls, value)) :=
  fun defined tables hok => h defined tables hok

theorem recordNumber_sound (visitor : EventVisitor) (name : StaticStr) (visit : FieldVisit)
    (sample : Nat → List Op) (hsample : ∀ uuid, Silent (sample uuid)) :
    SoundWith (visitor.recordNumber memory bases name visit sample) := by
  intro defined tables hok
  simp only [EventVisitor.recordNumber, bind_run, EventVisitor.counterUuid]
  have hannotate := fun write => (annotate_sound memory write name visit).with
    visitor defined tables hok
  cases visitor.isCounter memory name && decide (visitor.counterCount < maxExtraCounters) with
  | false => exact hannotate _
  | true =>
      cases tables.counterTrackUuid name with
      | none => exact hannotate _
      | some uuid => exact SoundWith.pure (hsample _) defined tables hok

theorem recordText_sound (visitor : EventVisitor) (name : StaticStr) (visit : FieldVisit)
    (eventName : Op) (hname : Silent [eventName]) :
    SoundWith (visitor.recordText memory name visit eventName) := by
  simp only [EventVisitor.recordText]
  split
  · exact SoundWith.pure hname
  · exact (annotate_sound memory _ name visit).with visitor

theorem recordVisit_sound (visitor : EventVisitor) (name : StaticStr) (visit : FieldVisit) :
    SoundWith (visitor.recordVisit memory bases name visit) := by
  cases visit with
  | i64 value =>
      exact recordNumber_sound memory bases _ _ _ _ fun uuid table => by cases table <;> rfl
  | u64 value =>
      exact recordNumber_sound memory bases _ _ _ _ fun uuid table => by cases table <;> rfl
  | f64 bits =>
      exact recordNumber_sound memory bases _ _ _ _ fun uuid table => by cases table <;> rfl
  | str value => exact recordText_sound memory _ _ _ _ fun table => by cases table <;> rfl
  | debug value => exact recordText_sound memory _ _ _ _ fun table => by cases table <;> rfl
  | bool | i128 | u128 | bytes | error => exact (annotate_sound memory _ name _).with visitor

theorem record_sound (visitor : EventVisitor) (visits : Visits) :
    SoundWith (visitor.record memory bases visits) := by
  induction visits generalizing visitor with
  | nil => exact SoundWith.pure fun table => by cases table <;> rfl
  | cons visit visits ih =>
      obtain ⟨name, visit⟩ := visit
      intro defined tables hok
      obtain ⟨hfirst, hfirstRefs⟩ := recordVisit_sound memory bases
        visitor name visit defined tables hok
      simp only [EventVisitor.record, bind_run]
      generalize visitor.recordVisit memory bases name visit tables = first at *
      split
      · exact ⟨hfirst, hfirstRefs⟩
      · obtain ⟨hrest, hrestRefs⟩ := ih first.1.2 defined _ hfirst.ok
        exact ⟨hfirst.trans hrest, (hfirstRefs.mono hrest).append hrestRefs⟩

/-! ### Events -/

theorem beginEvent_sound (uuid : Nat) (metadata : Metadata) (attributes : Visits) :
    Sound (beginEvent memory config bases uuid metadata attributes) := by
  intro defined tables hok
  obtain ⟨hname, hknown⟩ := internEventName_extends memory hok metadata.name
  simp only [beginEvent, bind_run, pure_run]
  generalize InternTables.internEventName memory metadata.name tables = named at *
  obtain ⟨hdescribed, hdescribedRefs⟩ := writeMetadata_sound memory
    config metadata defined _ hname.ok
  generalize writeMetadata memory config metadata named.2 = described at *
  obtain ⟨hannotated, hannotatedRefs⟩ := (recordAttributes_sound memory
    attributes).onlyIf config.debugAnnotations defined _ hdescribed.ok
  have htyped : Silent [sliceBegin, trackUuid (bases.uuid uuid)] := fun table => by
    cases table <;> rfl
  exact ⟨hname.trans (hdescribed.trans hannotated),
    ((htyped.referenced.append (referenced_nameIid
      (hknown.mono (hdescribed.trans hannotated)))).append
        (hdescribedRefs.mono hannotated)).append hannotatedRefs⟩

theorem endEvent_sound (uuid : Nat) (flows : List PendingFlow)
    (fields : List (StaticStr × FieldValue)) :
    Sound (endEvent memory config bases uuid flows fields) := by
  intro defined tables hok
  simp only [endEvent, bind_run, pure_run]
  obtain ⟨hstored, hstoredRefs⟩ := (writeStoredFields_sound memory
    fields).onlyIf config.debugAnnotations defined _ hok
  have htyped : Silent [sliceEnd, trackUuid (bases.uuid uuid)] := fun table => by
    cases table <;> rfl
  exact ⟨hstored,
    (htyped.referenced.append (silent_flows bases flows).referenced).append hstoredRefs⟩

theorem enterThreadEvent_sound (metadata : Metadata) (fields : List (StaticStr × FieldValue))
    (pollFlowId : Option Nat) (flows : List PendingFlow) :
    Sound (enterThreadEvent memory config bases metadata fields pollFlowId flows) := by
  intro defined tables hok
  obtain ⟨hname, hknown⟩ := internEventName_extends memory hok metadata.name
  simp only [enterThreadEvent, bind_run, pure_run]
  generalize InternTables.internEventName memory metadata.name tables = named at *
  obtain ⟨hdescribed, hdescribedRefs⟩ := writeMetadata_sound memory
    config metadata defined _ hname.ok
  generalize writeMetadata memory config metadata named.2 = described at *
  obtain ⟨hstored, hstoredRefs⟩ := (writeStoredFields_sound memory fields).onlyIf
    (config.debugAnnotations && config.spanMode == .threadTracks)
    defined _ hdescribed.ok
  have htyped : Silent [sliceBegin] := silent_type _
  exact ⟨hname.trans (hdescribed.trans hstored),
    ((((htyped.referenced.append (referenced_nameIid
      (hknown.mono (hdescribed.trans hstored)))).append
        (hdescribedRefs.mono hstored)).append hstoredRefs).append
          (silent_pollFlow bases pollFlowId).referenced).append
            (silent_flows bases flows).referenced⟩

theorem enterPollEvent_sound (uuid : Nat) (pollFlowId : Option Nat)
    (flows : List PendingFlow) :
    Sound (enterPollEvent memory bases uuid pollFlowId flows) := by
  intro defined tables hok
  obtain ⟨hname, hknown⟩ := internEventName_extends memory hok memory.poll
  have htyped : Silent [sliceBegin, trackUuid (bases.uuid uuid)] := fun table => by
    cases table <;> rfl
  exact ⟨hname, ((htyped.referenced.append (referenced_nameIid hknown)).append
    (silent_pollFlow bases pollFlowId).referenced).append (silent_flows bases flows).referenced⟩

theorem exitEvent_silent (uuid : Option Nat) (flows : List PendingFlow) :
    Silent (exitEvent bases uuid flows) := by
  intro table
  have htyped := silent_type TrackEvent.typeSliceEnd table
  have huuid := silent_trackUuid bases uuid table
  have hflows := silent_flows bases flows table
  simp only [exitEvent, Op.fields_append, ofEvent_append, huuid, hflows, List.append_nil]
  exact htyped

theorem instantEvent_sound (uuid : Option Nat) (metadata : Metadata) (values : Visits) :
    Sound (instantEvent memory config bases uuid metadata values) := by
  intro defined tables hok
  simp only [instantEvent, bind_run, pure_run]
  obtain ⟨hdescribed, hdescribedRefs⟩ := writeMetadata_sound memory
    config metadata defined _ hok
  generalize writeMetadata memory config metadata tables = described at *
  obtain ⟨hrecorded, hrecordedRefs⟩ := record_sound memory bases
    (EventVisitor.new config.debugAnnotations config.counters
      ((text "event ").isPrefixOf (memory.text metadata.name))) values defined _ hdescribed.ok
  generalize EventVisitor.record memory bases (EventVisitor.new config.debugAnnotations
    config.counters ((text "event ").isPrefixOf (memory.text metadata.name))) values
      described.2 = recorded at *
  have hnaming : Sound (do
      let name ← InternTables.internEventName memory metadata.name
      Pure.pure [nameIid name]) := by
    intro defined tables hok
    obtain ⟨hname, hknown⟩ := internEventName_extends memory hok metadata.name
    exact ⟨hname, referenced_nameIid hknown⟩
  obtain ⟨hnamed, hnamedRefs⟩ := hnaming.onlyIf
    (!recorded.1.2.1.wroteName && !recorded.1.2.2) defined _ hrecorded.ok
  have htyped : Silent [Emit.instant] := silent_type _
  exact ⟨hdescribed.trans (hrecorded.trans hnamed),
    (((htyped.referenced.append (silent_trackUuid bases uuid).referenced).append
      (hdescribedRefs.mono (hrecorded.trans hnamed))).append
        (hrecordedRefs.mono hnamed)).append hnamedRefs⟩

end Bodies

/-! ## Packets -/

/-- A packet body that defines nothing itself and refers to known iids only. -/
structure SoundBody (encode : Encode (List Op)) : Prop where
  extends_tables : ∀ defined tables, TablesOk defined tables →
    Extends defined tables (encode tables).2
  references : ∀ defined tables, TablesOk defined tables → ∀ table : Table,
    ∀ iid ∈ table.references (Op.fields (encode tables).1),
      Known defined (encode tables).2 table iid
  definitions : ∀ tables, ∀ table : Table,
    table.definitions (Op.fields (encode tables).1) = []

theorem SoundBody.silent {calls : List Op}
    (hreferences : ∀ table : Table, table.references (Op.fields calls) = [])
    (hdefinitions : ∀ table : Table, table.definitions (Op.fields calls) = []) :
    SoundBody (Pure.pure calls : Encode (List Op)) where
  extends_tables := fun _ _ hok => Extends.refl hok
  references := fun _ _ _ table iid hiid => by simp [pure_run, hreferences] at hiid
  definitions := fun _ => hdefinitions

theorem SoundBody.trackEvent {encode : Encode (List Op)} (h : Sound encode) :
    SoundBody (trackEvent encode) where
  extends_tables := fun defined tables hok => (h defined tables hok).1
  references := fun defined tables hok table iid hiid => by
    have hreferences : table.references (Op.fields (TrackEvents.trackEvent encode tables).1) =
        table.ofEvent (Op.fields (encode tables).1) := by
      simp [TrackEvents.trackEvent, bind_run, pure_run, Table.references, Op.fields, Op.field,
        messages]
    rw [hreferences] at hiid
    exact (h defined tables hok).2 table iid hiid
  definitions := fun _ _ => rfl

theorem encode_sound {memory : StaticMemory} {config : Config} {bases : IdBases}
    (body : Body) : SoundBody (body.encode memory config bases) := by
  cases body with
  | trackDescriptor => exact SoundBody.silent (fun _ => rfl) fun _ => rfl
  | counterDescriptor => exact SoundBody.silent (fun _ => rfl) fun _ => rfl
  | lifetimeBegin => exact SoundBody.trackEvent (beginEvent_sound memory config bases _ _ _)
  | lifetimeEnd => exact SoundBody.trackEvent (endEvent_sound memory config bases _ _ _)
  | threadBegin => exact SoundBody.trackEvent (enterThreadEvent_sound memory config bases _ _ _ _)
  | pollBegin => exact SoundBody.trackEvent (enterPollEvent_sound memory bases _ _ _)
  | enterEnd uuid flows =>
      exact SoundBody.trackEvent (Sound.pure (exitEvent_silent bases uuid flows))
  | instant => exact SoundBody.trackEvent (instantEvent_sound memory config bases _ _ _)

/-- What the packets of a sequence define. -/
def definedBy (packets : List Written) (table : Table) : List (Nat × Bytes) :=
  packets.flatMap fun packet => table.definitions (Op.fields packet.calls)

theorem messages_internedEntry (table : Nat) (entries : List (Nat × Bytes)) :
    ∀ id, (messages id (Op.fields (entries.map (InternTables.internedEntry table)))).map entry =
      if table = id then entries else [] := by
  intro id
  induction entries with
  | nil => simp [messages, Op.fields]
  | cons first entries ih =>
      by_cases hid : table = id
      · simp only [messages, hid, if_true] at ih
        simp [messages, Op.fields, Op.field, InternTables.internedEntry, hid, entry, varints,
          texts, EventName.iid, EventName.name, ih]
      · simp only [messages, hid, if_false] at ih
        simp [messages, Op.fields, Op.field, InternTables.internedEntry, hid]
        simpa using ih

theorem messages_sourceLocationEntry (entries : List (Nat × Bytes × Nat)) :
    ∀ id, (messages id (Op.fields (entries.map InternTables.sourceLocationEntry))).map entry =
      if InternedData.sourceLocations = id then
        entries.map fun entry => (entry.1, entry.2.1) else [] := by
  intro id
  induction entries with
  | nil => simp [messages, Op.fields]
  | cons first entries ih =>
      by_cases hid : InternedData.sourceLocations = id
      · simp only [messages, hid, if_true] at ih
        simp [messages, Op.fields, Op.field, InternTables.sourceLocationEntry, hid, entry,
          varints, texts, EventName.iid, EventName.name, SourceLocation.iid,
          SourceLocation.fileName, SourceLocation.lineNumber, ih]
      · simp only [messages, hid, if_false] at ih
        simp [messages, Op.fields, Op.field, InternTables.sourceLocationEntry, hid]
        simpa using ih

/-- The definitions at the end of a packet are the pending ones. -/
theorem definitions_emitInternedData (tables : InternTables) (table : Table) :
    table.definitions (Op.fields tables.emitInternedData.1) = table.pending tables := by
  simp only [InternTables.emitInternedData]
  split
  · simp only [InternTables.emitPendingInternedData, Table.definitions, Op.fields, Op.field,
      messages, List.filterMap_cons, if_true, List.filterMap_nil, List.flatMap_cons,
      List.flatMap_nil, List.append_nil]
    change (messages table.entryId _).map entry = _
    simp only [Op.fields_append, messages_append, List.map_append, messages_internedEntry,
      messages_sourceLocationEntry]
    cases table <;> simp [Table.entryId, Table.pending, InternedData.eventCategories,
      InternedData.eventNames, InternedData.debugAnnotationNames,
      InternedData.debugAnnotationStringValues, InternedData.sourceLocations]
  · rename_i hempty
    simp only [Bool.or_eq_true, Bool.not_eq_true', not_or, Bool.not_eq_false,
      List.isEmpty_iff] at hempty
    obtain ⟨⟨⟨⟨hnames, hannotations⟩, hvalues⟩, hcategories⟩, hlocations⟩ := hempty
    cases table <;> simp [Table.definitions, Table.pending, Op.fields, messages, hnames,
      hannotations, hvalues, hcategories, hlocations]

theorem references_emitInternedData (tables : InternTables) (table : Table) :
    table.references (Op.fields tables.emitInternedData.1) = [] := by
  simp only [InternTables.emitInternedData]
  split <;> rfl

theorem pending_emitInternedData (tables : InternTables) (table : Table) :
    table.pending tables.emitInternedData.2 = [] := by
  simp only [InternTables.emitInternedData]
  split
  · cases table <;> rfl
  · rename_i hempty
    simp only [Bool.or_eq_true, Bool.not_eq_true', not_or, Bool.not_eq_false,
      List.isEmpty_iff] at hempty
    obtain ⟨⟨⟨⟨hnames, hannotations⟩, hvalues⟩, hcategories⟩, hlocations⟩ := hempty
    cases table <;> simp [Table.pending, hnames, hannotations, hvalues, hcategories, hlocations]

/-- Headers neither define nor refer to an iid. -/
theorem header_silent (domain : ClockDomain) (answers : Answers) (sequence : SequenceState)
    (raw : Nat) (table : Table) :
    table.definitions (Op.fields (sequence.header domain answers raw).1) = [] ∧
      table.references (Op.fields (sequence.header domain answers raw).1) = [] := by
  cases hfirst : sequence.firstPacketDone <;>
    simp only [SequenceState.header, hfirst] <;> exact ⟨rfl, rfl⟩

/-- Writing the pending definitions out makes them defined. -/
theorem TablesOk.emit {defined defined' : Table → List (Nat × Bytes)} {tables : InternTables}
    (h : TablesOk defined tables)
    (hdefined : ∀ table, defined' table = defined table ++ table.pending tables) :
    TablesOk defined' tables.emitInternedData.2 := by
  have hentries : ∀ table,
      entries defined' tables.emitInternedData.2 table = entries defined tables table := by
    intro table
    rw [entries, pending_emitInternedData, hdefined, List.append_nil, entries]
  have hkept : ∃ names annotations values categories locations,
      tables.emitInternedData.2 = { tables with
        newEventNames := names
        newAnnotationNames := annotations
        newAnnotationValues := values
        newCategories := categories
        newSourceLocations := locations } := by
    simp only [InternTables.emitInternedData]
    split <;> exact ⟨_, _, _, _, _, rfl⟩
  obtain ⟨names, annotations, values, categories, locations, hkept⟩ := hkept
  have heventNames := hentries .eventNames
  have hcategories := hentries .categories
  have hannotationNames := hentries .annotationNames
  have hannotationValues := hentries .annotationValues
  have hsourceLocations := hentries .sourceLocations
  rw [hkept] at heventNames hcategories hannotationNames hannotationValues hsourceLocations ⊢
  refine ⟨?_, ?_, ?_, ?_, ?_, ?_⟩
  · rw [heventNames]
    exact h.eventNames
  · rw [hcategories]
    exact h.categories
  · rw [hannotationNames]
    exact h.annotationNames
  · rw [hannotationNames]
    exact h.levelName
  · rw [hannotationValues]
    exact h.annotationValues
  · rw [hsourceLocations]
    exact h.sourceLocations

/-- Every iid in use is defined in the same packet or in an earlier one. -/
def Resolved (packets : List Written) : Prop :=
  ∀ before packet after, packets = before ++ packet :: after → ∀ table : Table,
    ∀ iid ∈ table.references (Op.fields packet.calls),
      iid ≠ 0 ∧ iid ∈ (definedBy (before ++ [packet]) table).map Prod.fst

theorem TablesOk.ne_zero {defined : Table → List (Nat × Bytes)} {tables : InternTables}
    {table : Table} {iid : Nat} (h : TablesOk defined tables)
    (hknown : Known defined tables table iid) : iid ≠ 0 := by
  cases table with
  | eventNames => exact Nat.ne_of_gt (h.eventNames.range iid hknown).1
  | categories => exact Nat.ne_of_gt (h.categories.range iid hknown).1
  | annotationNames => exact Nat.ne_of_gt (h.annotationNames.range iid hknown).1
  | sourceLocations => exact Nat.ne_of_gt (h.sourceLocations.range iid hknown).1
  | annotationValues =>
      obtain ⟨entry, hentry, rfl⟩ := List.mem_map.1 hknown
      obtain ⟨level, rfl, _⟩ := h.annotationValues.levels entry hentry
      cases level <;> decide

theorem definedBy_append (packets more : List Written) (table : Table) :
    definedBy (packets ++ more) table = definedBy packets table ++ definedBy more table :=
  List.flatMap_append

theorem resolved_append {packets : List Written} {packet : Written} (h : Resolved packets)
    (hpacket : ∀ table : Table, ∀ iid ∈ table.references (Op.fields packet.calls),
      iid ≠ 0 ∧ iid ∈ (definedBy (packets ++ [packet]) table).map Prod.fst) :
    Resolved (packets ++ [packet]) := by
  intro before other after hsplit
  obtain rfl | ⟨after, last, rfl⟩ := List.eq_nil_or_concat after
  · obtain ⟨rfl, hlast⟩ := List.append_inj' hsplit rfl
    simp only [List.cons.injEq, and_true] at hlast
    rw [← hlast]
    exact hpacket
  · have hsplit' : packets ++ [packet] = (before ++ other :: after) ++ [last] := by
      simpa using hsplit
    exact h before other after (List.append_inj' hsplit' rfl).1

/-- The tables of a sequence match what its packets define, and its packets refer to
nothing else. -/
def Consistent (packets : List Written) (sequence : SequenceState) : Prop :=
  TablesOk (definedBy packets) sequence.tables ∧ Resolved packets

theorem consistent_wrote {domain : ClockDomain} {answers : Answers}
    {writer writer' : SequenceWriter} {encode : Encode (List Op)} {packet : Written}
    {all : List Written} (hsound : SoundBody encode) (h : Consistent all writer.sequence)
    (hwrote : Wrote domain answers writer encode writer' packet) :
    Consistent (all ++ [packet]) writer'.sequence := by
  obtain ⟨hok, hresolved⟩ := h
  obtain ⟨hextends, hreferences, hdefinitions⟩ := hsound
  have hextended := hextends _ _ hok
  have htables : writer'.sequence.tables =
      (encode writer.sequence.tables).2.emitInternedData.2 :=
    visible_tables hwrote.sequence
  have hheader : ∀ table : Table, table.definitions (Op.fields packet.header) = [] ∧
      table.references (Op.fields packet.header) = [] := by
    intro table
    rw [hwrote.header]
    exact header_silent _ _ _ _ table
  have hdefines : ∀ table : Table, table.definitions (Op.fields packet.calls) =
      table.pending (encode writer.sequence.tables).2 := by
    intro table
    rw [Written.calls, Op.fields_append, Op.fields_append, definitions_append,
      definitions_append, (hheader table).1, hwrote.body, hdefinitions, hwrote.interned,
      definitions_emitInternedData]
    rfl
  have hdefined : ∀ table, definedBy (all ++ [packet]) table =
      definedBy all table ++ table.pending (encode writer.sequence.tables).2 := by
    intro table
    rw [definedBy_append, ← hdefines]
    simp [definedBy]
  refine ⟨?_, resolved_append hresolved ?_⟩
  · rw [htables]
    exact hextended.ok.emit hdefined
  · intro table iid hiid
    rw [Written.calls, Op.fields_append, Op.fields_append, references_append,
      references_append, (hheader table).2, hwrote.interned, references_emitInternedData,
      List.nil_append, List.append_nil, hwrote.body] at hiid
    have hknown := hreferences _ _ hok table iid hiid
    refine ⟨hextended.ok.ne_zero hknown, ?_⟩
    rw [hdefined]
    exact hknown

theorem invariant_consistent {made : Written → Prop} (domain : ClockDomain) :
    Invariant domain SoundBody made Consistent where
  wrote := fun hsound _ h hwrote => consistent_wrote hsound h hwrote
  mark := id
  read := fun _ => id
  cache := by
    rintro all sequence name uuid ⟨hok, hresolved⟩
    exact ⟨⟨hok.eventNames, hok.categories, hok.annotationNames, hok.levelName,
      hok.annotationValues, hok.sourceLocations⟩, hresolved⟩
  clockSnapshot := fun _ _ _ => SoundBody.silent (fun _ => rfl) fun _ => rfl
  processDescriptor := fun _ _ => SoundBody.silent (fun _ => rfl) fun _ => rfl
  threadDescriptor := fun _ _ => SoundBody.silent (fun _ => rfl) fun _ => rfl

theorem consistent_new (sequenceId threadTrackUuid clockAnchorNs : Nat) :
    Consistent [] (SequenceState.new sequenceId threadTrackUuid clockAnchorNs) := by
  have hnew : ∀ reserved, InternerOk reserved ⟨fun _ => none, reserved, 0, 0⟩ [] :=
    fun reserved => ⟨List.nodup_nil, by simp, le_rfl, by simp, by simp⟩
  refine ⟨⟨hnew 0, hnew 0, hnew levelNameIid, ⟨by simp [entries, definedBy, Table.pending,
    SequenceState.new, InternTables.new], ?_⟩, ⟨List.nodup_nil, ?_, ?_⟩,
    ⟨List.nodup_nil, ?_, ?_⟩⟩, ?_⟩
  · simp [entries, definedBy, Table.pending, SequenceState.new, InternTables.new]
  · simp [entries, definedBy, Table.pending, SequenceState.new, InternTables.new]
  · simp [SequenceState.new, InternTables.new]
  · simp [entries, definedBy, Table.pending, SequenceState.new, InternTables.new]
  · simp [SequenceState.new, InternTables.new]
  · intro before packet after h
    simp at h

/-- In every run of callbacks on a sequence, interned ids are defined before they
are used, once, and the reserved ids stand for the level and its values only. -/
theorem interned_ids_resolve {memory : StaticMemory} {config : Config} {bases : IdBases}
    {domain : ClockDomain} {sequenceId threadTrackUuid clockAnchorNs : Nat}
    {callbacks : List (List LayerRequest)} {sequence : SequenceState}
    {packets : List (List Written)}
    (hrun : run config domain writePacket
      (SequenceState.new sequenceId threadTrackUuid clockAnchorNs)
      (requests memory config bases callbacks) = some (sequence, packets)) :
    Resolved packets.flatten ∧
    (∀ table, ((definedBy packets.flatten table).map Prod.fst).Nodup) ∧
    (∀ entry ∈ definedBy packets.flatten .annotationNames, entry.1 = levelNameIid →
      entry.2 = text "level") ∧
    (∀ name, levelNameIid <
      (InternTables.internAnnotationName memory name sequence.tables).1) ∧
    ∀ entry ∈ definedBy packets.flatten .annotationValues,
      ∃ level, entry = ((levelValue level).1, (levelValue level).2.1) := by
  have hallowed : ∀ asked ∈ requests memory config bases callbacks, ∀ request ∈ asked,
      Request.Allowed SoundBody request := by
    intro asked hasked request hrequest
    obtain ⟨callback, _, rfl⟩ := List.mem_map.1 hasked
    obtain ⟨layer, _, rfl⟩ := List.mem_map.1 hrequest
    cases layer with
    | packet answers body => exact encode_sound body
    | cacheCounterTrack => exact trivial
  obtain ⟨hok, hresolved⟩ := (invariant_consistent domain).run writes_writePacket [] hallowed
    (consistent_new sequenceId threadTrackUuid clockAnchorNs) hrun
  rw [List.nil_append] at hok hresolved
  have hdefined : ∀ table, definedBy packets.flatten table <+:
      entries (definedBy packets.flatten) sequence.tables table :=
    fun table => List.prefix_append _ _
  refine ⟨hresolved, fun table => ?_, fun entry hentry => ?_, fun name => ?_,
    fun entry hentry => ?_⟩
  · refine ((hdefined table).map Prod.fst).sublist.nodup ?_
    cases table with
    | eventNames => exact hok.eventNames.nodup
    | categories => exact hok.categories.nodup
    | annotationNames => exact hok.annotationNames.nodup
    | annotationValues => exact hok.annotationValues.nodup
    | sourceLocations => exact hok.sourceLocations.nodup
  · exact hok.levelName.name entry ((hdefined _).subset hentry)
  · exact (internAnnotationName_extends memory hok name).2.2
  · obtain ⟨level, hlevel, _⟩ := hok.annotationValues.levels entry ((hdefined _).subset hentry)
    exact ⟨level, hlevel⟩

def sampleName : StaticStr := (default : StaticMemory).poll

def sampleMetadata : Metadata :=
  ⟨64, sampleName, sampleName, .info, some sampleName, some 3, [sampleName]⟩

/-- A span with a field, its end and an event, in two callbacks of one thread. -/
def sampleRun : Option (SequenceState × List (List Written)) :=
  run ⟨.spanTracks, true, false, true, false, false⟩ (.builtin 6) writePacket
    (SequenceState.new 65536 3 100)
    (requests default ⟨.spanTracks, true, false, true, false, false⟩
      default
      [[.packet ⟨140, 9, 9, none, true, 77, 4, [112], [], 5, [116]⟩
          (.trackDescriptor 8 sampleName 7),
        .packet ⟨140, 9, 9, none, true, 77, 4, [112], [], 5, [116]⟩
          (.lifetimeBegin 8 sampleMetadata [(sampleName, .str [97])])],
       [.packet ⟨150, 9, 9, none, true, 77, 4, [112], [], 5, [116]⟩
          (.instant none sampleMetadata [(sampleName, .bool true)]),
        .packet ⟨150, 9, 9, none, true, 77, 4, [112], [], 5, [116]⟩
          (.lifetimeEnd 8 [] [(sampleName, .u64 4)])]])

theorem sampleRun_isSome : sampleRun.isSome = true := by decide +kernel

theorem interned_ids_resolve_sample :
    (∃ sequence packets, sampleRun = some (sequence, packets) ∧ Resolved packets.flatten) ∧
      sampleRun.map (fun ran => Table.annotationNames.references
        (Op.fields ((ran.2.getD 1 []).flatMap Written.calls))) = some [1, 2, 2] := by
  obtain ⟨⟨sequence, packets⟩, hrun⟩ := Option.isSome_iff_exists.1 sampleRun_isSome
  exact ⟨⟨sequence, packets, hrun, (interned_ids_resolve hrun).1⟩, by decide +kernel⟩

end TracingPerfetto.Interning
