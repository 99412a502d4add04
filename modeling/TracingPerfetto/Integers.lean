import TracingPerfetto.Counters
import TracingPerfetto.StoredFields

/-!
What a reader gets back for a recorded integer: from an int, uint or string annotation,
or from a counter sample, whose values the schema declares as signed.
-/

namespace TracingPerfetto.Integers

open TracingPerfetto.Wire TracingPerfetto.Proto TracingPerfetto.Runtime
open TracingPerfetto.Schema TracingPerfetto.Emit TracingPerfetto.Sequence
open TracingPerfetto.TrackEvents TracingPerfetto.Interning TracingPerfetto.Counters

/-! ## The reader -/

/-- A varint as a signed 64-bit integer. -/
def asI64 (bits : Nat) : Int := if bits < 2 ^ 63 then bits else bits - 2 ^ 64

def readDigits (digits : List Char) : Option Nat :=
  if digits.all Char.isDigit && !digits.isEmpty then some (Nat.ofDigitChars 10 digits 0)
  else none

def readSigned : List Char → Option Int
  | '-' :: digits => (readDigits digits).map fun value : Nat => -(value : Int)
  | digits => (readDigits digits).map fun value : Nat => (value : Int)

/-- The decimal number that a text consists of. -/
def readDecimal (value : Bytes) : Option Int :=
  (String.fromUTF8? ⟨value.toArray⟩).bind fun decoded => readSigned decoded.toList

/-- The values of an annotation, as integers. -/
def annotationIntegers (note : List Field) : List (Option Int) :=
  (varints DebugAnnotation.intValue note).map (fun bits => some (asI64 bits)) ++
    (varints DebugAnnotation.uintValue note).map (fun value : Nat => some (value : Int)) ++
    (texts DebugAnnotation.stringValue note).map readDecimal

/-- The integers that the fields of a track event show. -/
def integers (calls : List Op) : List (Option Int) :=
  (messages TrackEvent.debugAnnotations (Op.fields calls)).flatMap annotationIntegers ++
    (varints TrackEvent.extraCounterValues (Op.fields calls)).map fun bits => some (asI64 bits)

theorem asI64_asU64 {value : Int} (hlow : -2 ^ 63 ≤ value) (hhigh : value < 2 ^ 63) :
    asI64 (asU64 value) = value := by
  rw [asI64, asU64]
  rcases Nat.lt_or_ge (value % 2 ^ 64).toNat (2 ^ 63) with hsmall | hlarge
  · rw [if_pos hsmall]
    omega
  · rw [if_neg (Nat.not_lt.2 hlarge)]
    omega

/-- From 2^63 on, the signed reader is off by 2^64. -/
theorem asI64_wraps {value : Nat} (hlow : 2 ^ 63 ≤ value) (hhigh : value < 2 ^ 64) :
    asI64 (asU64 value) = (value : Int) - 2 ^ 64 := by
  rw [asI64, asU64]
  have hlarge : ¬ ((value : Int) % 2 ^ 64).toNat < 2 ^ 63 := by omega
  rw [if_neg hlarge]
  omega

theorem readDigits_toDigits (value : Nat) : readDigits (Nat.toDigits 10 value) = some value := by
  have hdigits : (Nat.toDigits 10 value).all Char.isDigit = true := by
    rw [List.all_eq_true]
    intro digit hdigit
    exact Nat.isDigit_of_mem_toDigits (by decide) (by decide) hdigit
  have hsome : (Nat.toDigits 10 value).isEmpty = false := by
    rw [List.isEmpty_eq_false_iff]
    exact Nat.toDigits_ne_nil
  rw [readDigits, hdigits, hsome]
  simp

theorem fromUTF8_text (value : String) :
    String.fromUTF8? ⟨(text value).toArray⟩ = some value := by
  have hbytes : (⟨(text value).toArray⟩ : ByteArray) = value.toByteArray := rfl
  rw [hbytes, String.fromUTF8?, dif_pos value.isValidUTF8]
  rfl

theorem readDecimal_text (value : String) :
    readDecimal (text value) = readSigned value.toList := by
  rw [readDecimal, fromUTF8_text, Option.bind_some]

theorem readSigned_toDigits (value : Nat) :
    readSigned (Nat.toDigits 10 value) = some (value : Int) := by
  have hminus : ∀ rest, Nat.toDigits 10 value ≠ '-' :: rest := by
    intro rest hrest
    have hmem : '-' ∈ Nat.toDigits 10 value := by
      rw [hrest]
      exact List.mem_cons_self
    have hdigit : Char.isDigit '-' = true :=
      Nat.isDigit_of_mem_toDigits (by decide) (by decide) hmem
    exact absurd hdigit (by decide)
  rw [readSigned, readDigits_toDigits]
  · rfl
  · exact hminus

theorem readDecimal_toString (value : Int) : readDecimal (text (toString value)) = some value := by
  rw [readDecimal_text, Int.toString_eq_repr, Int.repr_eq_if]
  split
  · rename_i hnonneg
    rw [Nat.toList_repr, readSigned_toDigits, Int.toNat_of_nonneg hnonneg]
  · rename_i hneg
    rw [String.toList_append, Nat.toList_repr]
    change readSigned ('-' :: Nat.toDigits 10 (-value).toNat) = some value
    rw [readSigned, readDigits_toDigits, Option.map_some]
    congr 1
    omega

theorem readDecimal_natural (value : Nat) :
    readDecimal (text (toString value)) = some (value : Int) := by
  rw [readDecimal_text, Nat.toString_eq_repr, Nat.toList_repr, readSigned_toDigits]

/-! ## The visitors -/

/-- The integer that a visit records, of the type of its method. -/
def integer : FieldVisit → Option Int
  | .i64 value => if -2 ^ 63 ≤ value ∧ value < 2 ^ 63 then some value else none
  | .u64 value => if value < 2 ^ 64 then some value else none
  | .i128 value => if -2 ^ 127 ≤ value ∧ value < 2 ^ 127 then some value else none
  | .u128 value => if value < 2 ^ 128 then some value else none
  | _ => none

theorem integers_i64 {value : Int} (nameIid : Nat) (hlow : -2 ^ 63 ≤ value)
    (hhigh : value < 2 ^ 63) : integers [annotationI64 nameIid value] = [some value] := by
  have hshown : integers [annotationI64 nameIid value] = [some (asI64 (asU64 value))] := rfl
  rw [hshown, asI64_asU64 hlow hhigh]

theorem integers_u64 (nameIid value : Nat) :
    integers [annotationU64 nameIid value] = [some (value : Int)] := rfl

theorem integers_text (nameIid : Nat) (value : Bytes) :
    integers [annotationDisplay nameIid [value]] = [readDecimal value] ∧
      integers [annotationStr nameIid value] = [readDecimal value] := by
  constructor
  · have hshown :
        integers [annotationDisplay nameIid [value]] = [readDecimal [value].flatten] := rfl
    rw [hshown, List.flatten_singleton]
  · rfl

theorem tryI64_some {value narrow : Int} (h : tryI64 value = some narrow) :
    narrow = value ∧ -2 ^ 63 ≤ value ∧ value < 2 ^ 63 := by
  simp only [tryI64, Option.ite_none_right_eq_some, Option.some.injEq] at h
  exact ⟨h.2.symm, h.1⟩

theorem tryU64_some {value narrow : Nat} (h : tryU64 value = some narrow) : narrow = value := by
  simp only [tryU64, Option.ite_none_right_eq_some, Option.some.injEq] at h
  exact h.2.symm

/-- An integer that both inline visitors annotate reads back. -/
theorem visitedField_integer {visit : FieldVisit} {value : Int} (h : integer visit = some value)
    (nameIid : Nat) : integers [visitedField nameIid visit] = [some value] := by
  cases visit with
  | i64 recorded =>
      simp only [integer, Option.ite_none_right_eq_some, Option.some.injEq] at h
      obtain ⟨⟨hlow, hhigh⟩, rfl⟩ := h
      exact integers_i64 nameIid hlow hhigh
  | u64 recorded =>
      simp only [integer, Option.ite_none_right_eq_some, Option.some.injEq] at h
      obtain ⟨-, rfl⟩ := h
      exact integers_u64 nameIid recorded
  | i128 recorded =>
      simp only [integer, Option.ite_none_right_eq_some, Option.some.injEq] at h
      obtain ⟨-, rfl⟩ := h
      rw [visitedField]
      cases hnarrow : tryI64 recorded with
      | some narrow =>
          obtain ⟨rfl, hlow, hhigh⟩ := tryI64_some hnarrow
          exact integers_i64 nameIid hlow hhigh
      | none => rw [(integers_text nameIid _).1, readDecimal_toString]
  | u128 recorded =>
      simp only [integer, Option.ite_none_right_eq_some, Option.some.injEq] at h
      obtain ⟨-, rfl⟩ := h
      rw [visitedField]
      cases hnarrow : tryU64 recorded with
      | some narrow =>
          rw [tryU64_some hnarrow]
          exact integers_u64 nameIid recorded
      | none => rw [(integers_text nameIid _).1, readDecimal_natural]
  | _ => exact absurd h (by simp [integer])

theorem storedField_integer {visit : FieldVisit} {value : Int} (h : integer visit = some value)
    (nameIid : Nat) : ∃ kept, visit.stored = some kept ∧
      integers [storedField nameIid kept] = [some value] := by
  cases visit with
  | i64 recorded =>
      simp only [integer, Option.ite_none_right_eq_some, Option.some.injEq] at h
      obtain ⟨⟨hlow, hhigh⟩, rfl⟩ := h
      exact ⟨_, rfl, integers_i64 nameIid hlow hhigh⟩
  | u64 recorded =>
      simp only [integer, Option.ite_none_right_eq_some, Option.some.injEq] at h
      obtain ⟨-, rfl⟩ := h
      exact ⟨_, rfl, integers_u64 nameIid recorded⟩
  | i128 recorded =>
      simp only [integer, Option.ite_none_right_eq_some, Option.some.injEq] at h
      obtain ⟨-, rfl⟩ := h
      refine ⟨_, rfl, ?_⟩
      cases hnarrow : tryI64 recorded with
      | some narrow =>
          obtain ⟨rfl, hlow, hhigh⟩ := tryI64_some hnarrow
          exact integers_i64 nameIid hlow hhigh
      | none => exact (integers_text nameIid _).2.trans (by rw [readDecimal_toString])
  | u128 recorded =>
      simp only [integer, Option.ite_none_right_eq_some, Option.some.injEq] at h
      obtain ⟨-, rfl⟩ := h
      refine ⟨_, rfl, ?_⟩
      cases hnarrow : tryU64 recorded with
      | some narrow =>
          rw [tryU64_some hnarrow]
          exact integers_u64 nameIid recorded
      | none => exact (integers_text nameIid _).2.trans (by rw [readDecimal_natural])
  | _ => exact absurd h (by simp [integer])

section Visitors

variable (memory : StaticMemory) (bases : IdBases)

theorem set_slot (name : StaticStr) (value : FieldValue) (fields : List (StaticStr × FieldValue)) :
    ∃ before known after,
      StoreVisitor.set memory name value fields = before ++ (known, value) :: after ∧
        memory.text known = memory.text name ∧
        ∀ field ∈ before, memory.text field.1 ≠ memory.text name := by
  induction fields with
  | nil => exact ⟨[], name, [], rfl, rfl, by simp⟩
  | cons first fields ih =>
      rcases first with ⟨known, old⟩
      rw [StoreVisitor.set]
      split
      · rename_i hknown
        exact ⟨[], known, fields, rfl, hknown, by simp⟩
      · rename_i hother
        obtain ⟨before, slot, after, hset, hslot, hbefore⟩ := ih
        refine ⟨(known, old) :: before, slot, after, by rw [hset]; rfl, hslot, ?_⟩
        rw [List.forall_mem_cons]
        exact ⟨hother, hbefore⟩

theorem writeStoredFields_append (fields more : List (StaticStr × FieldValue))
    (tables : InternTables) : ∃ tables',
      (writeStoredFields memory (fields ++ more) tables).1 =
        (writeStoredFields memory fields tables).1 ++
          (writeStoredFields memory more tables').1 := by
  induction fields generalizing tables with
  | nil => exact ⟨tables, rfl⟩
  | cons first fields ih =>
      rcases first with ⟨name, value⟩
      obtain ⟨tables', hrest⟩ := ih (TrackEvents.internAnnotationName memory name tables).2
      refine ⟨tables', ?_⟩
      rw [List.cons_append, StoredFields.writeStoredFields_cons,
        StoredFields.writeStoredFields_cons, hrest]
      rfl

/-- What a `StoreVisitor` and `write_stored_fields` show of a visit: the annotation of
the slot that the visit has set. -/
def StoredShows (fields : List (StaticStr × FieldValue)) (name : StaticStr)
    (visit : FieldVisit) (tables : InternTables) (value : Int) : Prop :=
  ∃ before known kept after call rest,
    StoreVisitor.record memory fields [(name, visit)] = (before ++ (known, kept) :: after, false) ∧
      memory.text known = memory.text name ∧
      (∀ field ∈ before, memory.text field.1 ≠ memory.text name) ∧
      (writeStoredFields memory (before ++ (known, kept) :: after) tables).1 =
        (writeStoredFields memory before tables).1 ++ call :: rest ∧
      integers [call] = [some value]

theorem stored_shows {visit : FieldVisit} {value : Int} (h : integer visit = some value)
    (fields : List (StaticStr × FieldValue)) (name : StaticStr) (tables : InternTables) :
    StoredShows memory fields name visit tables value := by
  obtain ⟨kept, hkept, -⟩ := storedField_integer h 0
  obtain ⟨before, known, after, hset, hknown, hbefore⟩ := set_slot memory name kept fields
  obtain ⟨tables', hwritten⟩ :=
    writeStoredFields_append memory before ((known, kept) :: after) tables
  rw [StoredFields.writeStoredFields_cons] at hwritten
  refine ⟨before, known, kept, after, _, _, ?_, hknown, hbefore, hwritten, ?_⟩
  · simp only [StoreVisitor.record, hkept, hset]
  · obtain ⟨kept', hkept', hshown⟩ := storedField_integer h
      (TrackEvents.internAnnotationName memory known tables').1
    rw [hkept, Option.some.injEq] at hkept'
    rw [hkept']
    exact hshown

/-- The visit is a counter sample, and too large for a signed value. -/
def Wraps (visitor : EventVisitor) (name : StaticStr) (visit : FieldVisit)
    (tables : InternTables) : Prop :=
  ∃ value, visit = .u64 value ∧ 2 ^ 63 ≤ value ∧ visitor.isCounter memory name = true ∧
    visitor.counterCount < maxExtraCounters ∧ tables.counterTrackCache name.ptr ≠ none

theorem annotate_integers {visit : FieldVisit} {value : Int} (h : integer visit = some value)
    (write : Bool) (name : StaticStr) (tables : InternTables) :
    ∀ shown ∈ integers (EventVisitor.annotate memory write name visit tables).1,
      shown = some value := by
  intro shown hshown
  cases write with
  | false => exact absurd hshown List.not_mem_nil
  | true =>
      obtain ⟨nameIid, hcalls⟩ := annotate_true memory name visit tables
      rw [hcalls, visitedField_integer h] at hshown
      exact List.mem_singleton.1 hshown

theorem counterI64_integers (uuid : Nat) (value : Int) :
    integers (counterI64 uuid value) = [some (asI64 (asU64 value))] := rfl

theorem recordNumber_integers {visit : FieldVisit} {value : Int} (h : integer visit = some value)
    (visitor : EventVisitor) (name : StaticStr) (tables : InternTables) :
    (∀ shown ∈ integers (visitor.recordNumber memory bases name visit
        (counterI64 · value) tables).1.1, shown = some value) ↔
      (visitor.isCounter memory name = true → visitor.counterCount < maxExtraCounters →
        tables.counterTrackCache name.ptr ≠ none → asI64 (asU64 value) = value) := by
  rcases recordNumber_cases memory bases visitor name visit (counterI64 · value) tables with
    ⟨uuid, hcounter, hcount, hcache, heq⟩ | ⟨hnone, heq⟩
  · rw [heq, counterI64_integers, List.forall_mem_singleton, Option.some.injEq]
    constructor
    · exact fun hvalue _ _ _ => hvalue
    · intro hvalue
      exact hvalue hcounter hcount (by rw [hcache]; exact Option.some_ne_none uuid)
  · rw [heq]
    constructor
    · intro _ hcounter hcount hcache
      exact absurd (hnone hcounter hcount) hcache
    · intro _
      exact annotate_integers memory h _ name tables

theorem recordVisit_integers {visit : FieldVisit} {value : Int} (h : integer visit = some value)
    (visitor : EventVisitor) (name : StaticStr) (tables : InternTables) :
    (∀ shown ∈ integers (visitor.recordVisit memory bases name visit tables).1.1,
      shown = some value) ↔ ¬ Wraps memory visitor name visit tables := by
  cases visit with
  | i64 recorded =>
      have hsame := h
      simp only [integer, Option.ite_none_right_eq_some, Option.some.injEq] at hsame
      obtain ⟨⟨hlow, hhigh⟩, rfl⟩ := hsame
      have hnumber := recordNumber_integers memory bases h visitor name tables
      rw [EventVisitor.recordVisit, hnumber]
      constructor
      · rintro - ⟨other, hother, -⟩
        exact absurd hother (by simp)
      · exact fun _ _ _ _ => asI64_asU64 hlow hhigh
  | u64 recorded =>
      have hsame := h
      simp only [integer, Option.ite_none_right_eq_some, Option.some.injEq] at hsame
      obtain ⟨hhigh, rfl⟩ := hsame
      have hnumber := recordNumber_integers memory bases h visitor name tables
      rw [EventVisitor.recordVisit, hnumber]
      constructor
      · rintro hvalue ⟨other, hother, hlarge, hcounter, hcount, hcache⟩
        rw [FieldVisit.u64.injEq] at hother
        subst hother
        have hwraps := hvalue hcounter hcount hcache
        rw [asI64_wraps hlarge hhigh] at hwraps
        omega
      · intro hsmall hcounter hcount hcache
        apply asI64_asU64
        · omega
        · by_contra hlarge
          exact hsmall ⟨recorded, rfl, by omega, hcounter, hcount, hcache⟩
  | i128 recorded | u128 recorded =>
      constructor
      · rintro - ⟨other, hother, -⟩
        exact absurd hother (by simp)
      · intro _
        exact annotate_integers memory h _ name tables
  | _ => exact absurd h (by simp [integer])

/-- An integer reads back from all that the three visitors write for it exactly when it
is not a counter sample of 2^63 or more. -/
theorem integers_read_back_iff {visit : FieldVisit} {value : Int}
    (h : integer visit = some value) (visitor : EventVisitor) (name : StaticStr)
    (fields : List (StaticStr × FieldValue)) (tables : InternTables) :
    (StoredShows memory fields name visit tables value ∧
      integers (recordAttributes memory [(name, visit)] tables).1 = [some value] ∧
      ∀ shown ∈ integers (visitor.recordVisit memory bases name visit tables).1.1,
        shown = some value) ↔ ¬ Wraps memory visitor name visit tables := by
  rw [← recordVisit_integers memory bases h visitor name tables]
  constructor
  · exact fun hall => hall.2.2
  · intro hevent
    refine ⟨stored_shows memory h fields name tables, ?_, hevent⟩
    have hcalls : ∃ nameIid, (recordAttributes memory [(name, visit)] tables).1 =
        [visitedField nameIid visit] := by
      refine ⟨(TrackEvents.internAnnotationName memory name tables).1, ?_⟩
      simp only [recordAttributes, bind_run, pure_run]
      cases visit.panics <;> rfl
    obtain ⟨nameIid, hcalls⟩ := hcalls
    rw [hcalls]
    exact visitedField_integer h nameIid

end Visitors

/-- A `u64` counter of 2^63 reads back as -2^63. -/
theorem large_counter_wraps :
    integer (.u64 (2 ^ 63)) = some (2 ^ 63) ∧
      integers ((EventVisitor.new false true false).recordVisit sampleMemory default
        Counters.sampleName (.u64 (2 ^ 63)) sampleTables).1.1 = [some (-2 ^ 63)] ∧
      ¬ ∀ shown ∈ integers ((EventVisitor.new false true false).recordVisit sampleMemory default
        Counters.sampleName (.u64 (2 ^ 63)) sampleTables).1.1, shown = some (2 ^ 63) := by
  decide +kernel

theorem integers_read_back_iff_sample :
    integers ((EventVisitor.new false true false).recordVisit sampleMemory default
      Counters.sampleName
        (.u64 5) sampleTables).1.1 = [some 5] ∧
      ∀ shown ∈ integers ((EventVisitor.new false true false).recordVisit sampleMemory default
        Counters.sampleName (.u64 5) sampleTables).1.1, shown = some 5 := by
  refine ⟨by decide +kernel, ?_⟩
  have hfive : integer (.u64 5) = some 5 := rfl
  have hiff := integers_read_back_iff sampleMemory default hfive
    (EventVisitor.new false true false) Counters.sampleName [] sampleTables
  refine (hiff.2 ?_).2.2
  rintro ⟨value, hvalue, hlarge, -⟩
  rw [FieldVisit.u64.injEq] at hvalue
  omega

end TracingPerfetto.Integers
