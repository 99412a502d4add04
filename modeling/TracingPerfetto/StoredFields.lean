import Mathlib.Data.List.Forall2
import TracingPerfetto.Interning

/-!
Fields that are kept and written later against fields that are written at once. The
two paths name the same ids and write the same values; a formatted text has a length
of its shortest form in one of them and a four-byte length in the other.
-/

namespace TracingPerfetto.StoredFields

open TracingPerfetto.Wire TracingPerfetto.Proto TracingPerfetto.Runtime
open TracingPerfetto.Schema TracingPerfetto.Emit TracingPerfetto.Sequence
open TracingPerfetto.TrackEvents TracingPerfetto.Interning

/-- `attrs.record` with an `AttributeVisitor`: the buffer and the tables after it, if
neither a formatter nor a length assertion panics. -/
def inlineFields (memory : StaticMemory) (visits : Visits) (tables : InternTables)
    (buffer : ProtoBuffer) : Option (ProtoBuffer × InternTables) :=
  let (calls, tables) := recordAttributes memory visits tables
  if visits.panic then none
  else (Op.runAll calls buffer).map fun buffer => (buffer, tables)

/-- A `StoreVisitor`, and `write_stored_fields` of what it keeps. -/
def storedFields (memory : StaticMemory) (visits : Visits) (tables : InternTables)
    (buffer : ProtoBuffer) : Option (ProtoBuffer × InternTables) :=
  let (fields, panicked) := StoreVisitor.record memory [] visits
  let (calls, tables) := writeStoredFields memory fields tables
  if panicked then none
  else (Op.runAll calls buffer).map fun buffer => (buffer, tables)

theorem inlineFields_eq (memory : StaticMemory) (visits : Visits) (tables : InternTables)
    (buffer : ProtoBuffer) :
    inlineFields memory visits tables buffer =
      if visits.panic then none
      else (Op.runAll (recordAttributes memory visits tables).1 buffer).map
        fun buffer => (buffer, (recordAttributes memory visits tables).2) := rfl

theorem storedFields_eq (memory : StaticMemory) (visits : Visits) (tables : InternTables)
    (buffer : ProtoBuffer) :
    storedFields memory visits tables buffer =
      if (StoreVisitor.record memory [] visits).2 then none
      else (Op.runAll (writeStoredFields memory
          (StoreVisitor.record memory [] visits).1 tables).1 buffer).map
        fun buffer => (buffer, (writeStoredFields memory
          (StoreVisitor.record memory [] visits).1 tables).2) := rfl

/-- Both buffers have gained annotations that decode to `fields`. -/
structure SameAnnotations (buffer inline stored : ProtoBuffer) (fields : List Field) : Prop where
  inlineAdds : ∃ added, inline.buf = buffer.buf ++ added ∧ Decodes added fields
  storedAdds : ∃ added, stored.buf = buffer.buf ++ added ∧ Decodes added fields
  length : stored.buf.length ≤ inline.buf.length

/-! ## One value -/

/-- A call that may stand for another: it decodes to the same and is no longer. -/
structure Replaces (op other : Op) : Prop where
  field : other.field = op.field
  inRange : op.InRange → other.InRange
  fits : op.Fits → other.Fits
  length : op.Fits → other.encoded.length ≤ op.encoded.length

theorem Replaces.refl (op : Op) : Replaces op op :=
  ⟨rfl, id, id, fun _ => le_rfl⟩

theorem framed_length (fieldId : Nat) (payload : Bytes) :
    (framed fieldId payload).length =
      (tagBytes fieldId .delimited).length + 4 + payload.length := by
  rw [framed, List.length_append, List.length_append, redundantGroups_length,
    messageLenPrefixSize]
  omega

/-- A text after its length replaces a text inside a scope. -/
theorem replaces_text (fieldId : Nat) (chunks : List Bytes) :
    Replaces (.fmt fieldId chunks) (.string fieldId chunks.flatten) := by
  refine ⟨rfl, ?_, ?_, ?_⟩
  · simp only [Op.InRange]
    exact id
  · simp only [Op.Fits]
    exact fun _ => trivial
  · intro hfits
    simp only [Op.Fits] at hfits
    have hmax : maxMessageLen < 128 ^ 4 := by decide
    have hvarint : (varintBytes chunks.flatten.length).length ≤ 4 :=
      writeVarintLoop_length 10 3 chunks.flatten.length (by omega)
    simp only [Op.encoded, framed_length, List.length_append]
    omega

/-- Inside an annotation. -/
theorem Replaces.annotated {op other : Op} (h : Replaces op other) (nameIid : Nat) :
    Replaces (annotated nameIid op) (annotated nameIid other) := by
  refine ⟨?_, ?_, ?_, ?_⟩
  · simp only [Emit.annotated, Op.field, Op.fields, h.field]
  · simp only [Emit.annotated, Op.InRange, Op.AllInRange, and_true]
    rintro ⟨hmessage, hname, hvalue⟩
    exact ⟨hmessage, hname, h.inRange hvalue⟩
  · simp only [Emit.annotated, Op.Fits, Op.FitAll, true_and, and_true, Op.encodedAll,
      List.append_nil, List.length_append]
    rintro ⟨hvalue, hlen⟩
    have hshorter := h.length hvalue
    exact ⟨h.fits hvalue, by omega⟩
  · simp only [Emit.annotated, Op.Fits, Op.FitAll, true_and, and_true, Op.encoded,
      Op.encodedAll, List.append_nil, framed_length, List.length_append]
    rintro ⟨hvalue, -⟩
    have hshorter := h.length hvalue
    omega

/-- What is kept of a value is written like the value itself. -/
theorem visitedField_replaced {visit : FieldVisit} {value : FieldValue}
    (h : visit.stored = some value) (nameIid : Nat) :
    Replaces (visitedField nameIid visit) (storedField nameIid value) := by
  have htext : ∀ text : Bytes,
      Replaces (annotationDisplay nameIid [text]) (storedField nameIid (.str text)) := by
    intro text
    have hreplaces := (replaces_text DebugAnnotation.stringValue [text]).annotated nameIid
    rwa [List.flatten_singleton] at hreplaces
  cases visit with
  | bool value | i64 value | u64 value | f64 bits | str value =>
      simp only [FieldVisit.stored, Option.some.injEq] at h
      subst h
      exact Replaces.refl _
  | i128 value =>
      simp only [FieldVisit.stored, Option.some.injEq] at h
      subst h
      simp only [visitedField]
      cases tryI64 value with
      | some value => exact Replaces.refl _
      | none => exact htext _
  | u128 value =>
      simp only [FieldVisit.stored, Option.some.injEq] at h
      subst h
      simp only [visitedField]
      cases tryU64 value with
      | some value => exact Replaces.refl _
      | none => exact htext _
  | bytes value =>
      simp only [FieldVisit.stored, Option.some.injEq] at h
      subst h
      exact htext _
  | error formatted | debug formatted =>
      simp only [FieldVisit.stored, Option.ite_none_right_eq_some, Option.some.injEq] at h
      obtain ⟨-, rfl⟩ := h
      exact (replaces_text DebugAnnotation.stringValue formatted.chunks).annotated nameIid

/-- Nothing is kept of a value whose formatter does not return `Ok`. -/
theorem stored_isSome_iff (visit : FieldVisit) :
    visit.stored.isSome = true ↔ visit.panics = false ∧
      ∀ value, visit.formatted = some value → value.outcome ≠ .err := by
  cases visit with
  | error formatted | debug formatted =>
      cases houtcome : formatted.outcome <;>
        simp [FieldVisit.stored, FieldVisit.panics, FieldVisit.formatted, Formatted.panics,
          houtcome]
  | _ => simp [FieldVisit.stored, FieldVisit.panics, FieldVisit.formatted]

/-! ## Lists of values -/

theorem fields_replaced {calls others : List Op} (h : List.Forall₂ Replaces calls others) :
    Op.fields others = Op.fields calls := by
  induction h with
  | nil => rfl
  | cons hop _ ih => simp only [Op.fields, hop.field, ih]

theorem allInRange_replaced {calls others : List Op} (h : List.Forall₂ Replaces calls others)
    (hrange : Op.AllInRange calls) : Op.AllInRange others := by
  induction h with
  | nil => exact hrange
  | cons hop _ ih =>
      simp only [Op.AllInRange] at hrange ⊢
      exact ⟨hop.inRange hrange.1, ih hrange.2⟩

theorem fitAll_replaced {calls others : List Op} (h : List.Forall₂ Replaces calls others)
    (hfits : Op.FitAll calls) :
    Op.FitAll others ∧ (Op.encodedAll others).length ≤ (Op.encodedAll calls).length := by
  induction h with
  | nil => exact ⟨hfits, le_rfl⟩
  | cons hop _ ih =>
      simp only [Op.FitAll] at hfits ⊢
      obtain ⟨hrest, hlen⟩ := ih hfits.2
      refine ⟨⟨hop.fits hfits.1, hrest⟩, ?_⟩
      have hshorter := hop.length hfits.1
      simp only [Op.encodedAll, List.length_append]
      omega

/-- Every call writes an annotation. -/
def Annotations (calls : List Op) : Prop :=
  ∀ op ∈ calls, ∃ nameIid value, op = annotated nameIid value

theorem visitedField_annotated (nameIid : Nat) (visit : FieldVisit) :
    ∃ value, visitedField nameIid visit = annotated nameIid value := by
  cases visit with
  | i128 value =>
      simp only [visitedField]
      cases tryI64 value with
      | some value => exact ⟨_, rfl⟩
      | none => exact ⟨_, rfl⟩
  | u128 value =>
      simp only [visitedField]
      cases tryU64 value with
      | some value => exact ⟨_, rfl⟩
      | none => exact ⟨_, rfl⟩
  | _ => exact ⟨_, rfl⟩

theorem storedField_annotated (nameIid : Nat) (value : FieldValue) :
    ∃ written, storedField nameIid value = annotated nameIid written := by
  cases value <;> exact ⟨_, rfl⟩

theorem Annotations.decodes {calls : List Op} (h : Annotations calls)
    (hrange : Op.AllInRange calls) (hfits : Op.FitAll calls) :
    Decodes (Op.encodedAll calls) (Op.fields calls) := by
  apply Op.decodesEach calls hrange hfits
  clear hrange
  induction calls with
  | nil => simp
  | cons op calls ih =>
      simp only [Op.FitAll] at hfits
      rw [Annotations, List.forall_mem_cons] at h
      rw [List.forall_mem_cons]
      refine ⟨?_, ih h.2 hfits.2⟩
      obtain ⟨⟨nameIid, value, rfl⟩, -⟩ := h
      have hmax : maxMessageLen < 2 ^ 32 := by decide
      have htag : (tagBytes TrackEvent.debugAnnotations .delimited).length = 1 := by decide
      have hlen := hfits.1
      simp only [Emit.annotated, Op.Fits] at hlen
      simp only [Emit.annotated, Op.encoded, framed_length, htag]
      omega

section Visits

variable (memory : StaticMemory)

theorem recordAttributes_cons (name : StaticStr) (visit : FieldVisit) (visits : Visits)
    (tables : InternTables) (hpanics : visit.panics = false) :
    recordAttributes memory ((name, visit) :: visits) tables =
      (visitedField (TrackEvents.internAnnotationName memory name tables).1 visit ::
          (recordAttributes memory visits
            (TrackEvents.internAnnotationName memory name tables).2).1,
        (recordAttributes memory visits
          (TrackEvents.internAnnotationName memory name tables).2).2) := by
  simp only [recordAttributes, hpanics, Bool.not_false, onlyIf, if_true, bind_run, pure_run]

theorem writeStoredFields_cons (name : StaticStr) (value : FieldValue)
    (fields : List (StaticStr × FieldValue)) (tables : InternTables) :
    writeStoredFields memory ((name, value) :: fields) tables =
      (storedField (TrackEvents.internAnnotationName memory name tables).1 value ::
          (writeStoredFields memory fields
            (TrackEvents.internAnnotationName memory name tables).2).1,
        (writeStoredFields memory fields
          (TrackEvents.internAnnotationName memory name tables).2).2) := rfl

theorem panic_cons (name : StaticStr) (visit : FieldVisit) (visits : Visits) :
    Visits.panic ((name, visit) :: visits) = false ↔
      visit.panics = false ∧ Visits.panic visits = false := by
  simp [Visits.panic]

theorem recordAttributes_annotations (visits : Visits) (tables : InternTables)
    (hpanic : visits.panic = false) :
    Annotations (recordAttributes memory visits tables).1 := by
  induction visits generalizing tables with
  | nil =>
      intro op hop
      exact absurd hop List.not_mem_nil
  | cons first visits ih =>
      rcases first with ⟨name, visit⟩
      rw [panic_cons] at hpanic
      rw [recordAttributes_cons memory name visit visits tables hpanic.1, Annotations,
        List.forall_mem_cons]
      exact ⟨⟨_, visitedField_annotated _ visit⟩, ih _ hpanic.2⟩

theorem writeStoredFields_annotations (fields : List (StaticStr × FieldValue))
    (tables : InternTables) : Annotations (writeStoredFields memory fields tables).1 := by
  induction fields generalizing tables with
  | nil =>
      intro op hop
      exact absurd hop List.not_mem_nil
  | cons first fields ih =>
      rcases first with ⟨name, value⟩
      rw [writeStoredFields_cons, Annotations, List.forall_mem_cons]
      exact ⟨⟨_, storedField_annotated _ value⟩, ih _⟩

/-- The fields keep the values of the visits, one for one. -/
def Kept (visits : Visits) (fields : List (StaticStr × FieldValue)) : Prop :=
  List.Forall₂ (fun visit field => field.1 = visit.1 ∧ visit.2.stored = some field.2)
    visits fields

/-- Both paths intern the same names in the same order. -/
theorem Kept.written {visits : Visits} {fields : List (StaticStr × FieldValue)}
    (h : Kept visits fields) (hpanic : visits.panic = false) (tables : InternTables) :
    (writeStoredFields memory fields tables).2 = (recordAttributes memory visits tables).2 ∧
      List.Forall₂ Replaces (recordAttributes memory visits tables).1
        (writeStoredFields memory fields tables).1 := by
  induction h generalizing tables with
  | nil => exact ⟨rfl, .nil⟩
  | @cons visit field visits fields hfirst _ ih =>
      rcases visit with ⟨name, visit⟩
      rcases field with ⟨known, value⟩
      obtain ⟨rfl, hvalue⟩ := hfirst
      rw [panic_cons] at hpanic
      rw [recordAttributes_cons memory _ visit visits tables hpanic.1, writeStoredFields_cons]
      obtain ⟨htables, hrest⟩ := ih hpanic.2
        (TrackEvents.internAnnotationName memory known tables).2
      exact ⟨htables, .cons (visitedField_replaced hvalue _) hrest⟩

theorem set_new (name : StaticStr) (value : FieldValue)
    (fields : List (StaticStr × FieldValue))
    (hnew : ∀ field ∈ fields, memory.text field.1 ≠ memory.text name) :
    StoreVisitor.set memory name value fields = fields ++ [(name, value)] := by
  induction fields with
  | nil => rfl
  | cons first fields ih =>
      rcases first with ⟨known, old⟩
      rw [List.forall_mem_cons] at hnew
      rw [StoreVisitor.set, if_neg hnew.1, ih hnew.2, List.cons_append]

def names (visits : Visits) : List Bytes := visits.map fun visit => memory.text visit.1

theorem record_kept (visits : Visits) (fields : List (StaticStr × FieldValue))
    (hnames : (fields.map (fun field => memory.text field.1) ++ names memory visits).Nodup)
    (hstored : ∀ visit ∈ visits, visit.2.stored.isSome = true) :
    ∃ kept, StoreVisitor.record memory fields visits = (fields ++ kept, false) ∧
      Kept visits kept := by
  induction visits generalizing fields with
  | nil => exact ⟨[], by rw [List.append_nil, StoreVisitor.record], .nil⟩
  | cons first visits ih =>
      rcases first with ⟨name, visit⟩
      rw [List.forall_mem_cons] at hstored
      obtain ⟨value, hvalue⟩ := Option.isSome_iff_exists.1 hstored.1
      have hnew : ∀ field ∈ fields, memory.text field.1 ≠ memory.text name := by
        intro field hfield
        exact (List.nodup_append.1 hnames).2.2 _ (List.mem_map_of_mem hfield) _
          List.mem_cons_self
      have hmore : ((fields ++ [(name, value)]).map (fun field => memory.text field.1) ++
          names memory visits).Nodup := by
        simpa [names] using hnames
      obtain ⟨kept, hrecord, hkept⟩ := ih (fields ++ [(name, value)]) hmore hstored.2
      refine ⟨(name, value) :: kept, ?_, .cons ⟨rfl, hvalue⟩ hkept⟩
      simp only [StoreVisitor.record, hvalue, set_new memory name value fields hnew, hrecord,
        List.append_assoc, List.singleton_append]

theorem record_panics (visits : Visits) (fields : List (StaticStr × FieldValue))
    (hrecord : (StoreVisitor.record memory fields visits).2 = false) :
    ∀ visit ∈ visits, visit.2.stored.isSome = true := by
  induction visits generalizing fields with
  | nil => simp
  | cons first visits ih =>
      rcases first with ⟨name, visit⟩
      rw [List.forall_mem_cons]
      cases hvalue : visit.stored with
      | none => simp [StoreVisitor.record, hvalue] at hrecord
      | some value =>
          simp only [StoreVisitor.record, hvalue] at hrecord
          exact ⟨rfl, ih _ hrecord⟩

end Visits

/-- Where the fields can be written at once, they can be kept and written later, with
the same annotations, exactly when no formatter returns an error. -/
theorem stored_agrees_iff {memory : StaticMemory} {visits : Visits} {tables after : InternTables}
    {buffer inline : ProtoBuffer} (hnames : (names memory visits).Nodup)
    (hrange : Op.AllInRange (recordAttributes memory visits tables).1)
    (hinline : inlineFields memory visits tables buffer = some (inline, after)) :
    (∃ stored, storedFields memory visits tables buffer = some (stored, after) ∧
      SameAnnotations buffer inline stored
        (Op.fields (recordAttributes memory visits tables).1)) ↔
      ∀ visit ∈ visits, ∀ value, visit.2.formatted = some value → value.outcome ≠ .err := by
  rw [inlineFields_eq] at hinline
  simp only [Option.ite_none_left_eq_some, Bool.not_eq_true, Option.map_eq_some_iff, Prod.mk.injEq]
    at hinline
  obtain ⟨hpanic, ran, hrun, rfl, rfl⟩ := hinline
  have hfits := Op.fitAll_of_runAll _ hrun
  rw [Op.runAll_eq _ _ hfits, Option.some.injEq] at hrun
  subst hrun
  constructor
  · rintro ⟨stored, hstored, -⟩
    have hrecord : (StoreVisitor.record memory [] visits).2 = false := by
      rw [storedFields_eq] at hstored
      simp only [Option.ite_none_left_eq_some, Bool.not_eq_true] at hstored
      exact hstored.1
    intro visit hvisit
    exact ((stored_isSome_iff visit.2).1
      (record_panics memory visits [] hrecord visit hvisit)).2
  · intro hok
    have hpanics : ∀ visit ∈ visits, visit.2.panics = false := by
      simpa [Visits.panic] using hpanic
    obtain ⟨kept, hrecord, hkept⟩ := record_kept memory visits [] (by simpa using hnames)
      fun visit hvisit => (stored_isSome_iff visit.2).2 ⟨hpanics visit hvisit, hok visit hvisit⟩
    obtain ⟨htables, hreplaces⟩ := hkept.written memory hpanic tables
    obtain ⟨hfits', hlen⟩ := fitAll_replaced hreplaces hfits
    refine ⟨buffer.append (Op.encodedAll (writeStoredFields memory kept tables).1), ?_,
      ⟨_, rfl, ?_⟩, ⟨_, rfl, ?_⟩, ?_⟩
    · simp only [storedFields_eq, hrecord, List.nil_append, Bool.false_eq_true, if_false,
        Op.runAll_eq _ _ hfits', htables, Option.map_some]
    · exact (recordAttributes_annotations memory visits tables hpanic).decodes hrange hfits
    · rw [← fields_replaced hreplaces]
      exact (writeStoredFields_annotations memory kept tables).decodes
        (allInRange_replaced hreplaces hrange) hfits'
    · simp only [ProtoBuffer.append, List.length_append]
      omega

def sampleVisits (outcome : Outcome) : Visits :=
  [((default : StaticMemory).poll, .debug ⟨[[97], [98]], outcome⟩)]

/-- A formatter that returns `Err` is written at once, and panics when it is kept. -/
theorem stored_panics :
    (inlineFields default (sampleVisits .err) InternTables.new ProtoBuffer.empty).isSome = true ∧
      storedFields default (sampleVisits .err) InternTables.new ProtoBuffer.empty = none := by
  decide +kernel

theorem stored_agrees_iff_ok : ∃ inline stored after,
    inlineFields default (sampleVisits .ok) InternTables.new ProtoBuffer.empty =
        some (inline, after) ∧
      storedFields default (sampleVisits .ok) InternTables.new ProtoBuffer.empty =
        some (stored, after) := by
  have hsome : (inlineFields default (sampleVisits .ok) InternTables.new
      ProtoBuffer.empty).isSome = true := by decide +kernel
  obtain ⟨⟨inline, after⟩, hinline⟩ := Option.isSome_iff_exists.1 hsome
  have hagrees := stored_agrees_iff (by decide +kernel) (by decide +kernel) hinline
  obtain ⟨stored, hstored, -⟩ := hagrees.2 (by decide +kernel)
  exact ⟨inline, stored, after, hinline, hstored⟩

end TracingPerfetto.StoredFields
