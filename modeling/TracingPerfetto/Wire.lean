import Mathlib.Data.Nat.Bitwise
import Mathlib.Tactic.Ring

/-!
A reader for the protobuf wire format, with the rules that say when a
concatenation of encoded fields reads back as a given list of fields. Nothing
here depends on how the bytes were produced: minimal and padded varints are
both `Groups`, and a nested message is any payload that decodes on its own.
-/

namespace TracingPerfetto.Wire

abbrev Bytes := List UInt8

/-- The value of one field as it stands on the wire. -/
inductive Value where
  | varint (value : Nat)
  | fixed64 (value : Nat)
  | bytes (value : Bytes)
  deriving DecidableEq, Repr

/-- Reads the rest of a base-128 varint whose earlier groups are in `value`. A
group that would start at bit 64 or later overflows the 64-bit word. -/
def readVarintFrom (shift value : Nat) : Bytes → Option (Nat × Bytes)
  | [] => none
  | byte :: rest =>
      if 64 ≤ shift then none
      else
        let value := value ||| (((byte.toNat &&& 0x7f) <<< shift) % 2 ^ 64)
        if byte.toNat &&& 0x80 = 0 then some (value, rest)
        else readVarintFrom (shift + 7) value rest

def readVarint (data : Bytes) : Option (Nat × Bytes) :=
  readVarintFrom 0 0 data

/-- The first eight bytes as a little-endian word. -/
def leValue : Bytes → Nat
  | [] => 0
  | byte :: rest => byte.toNat + 256 * leValue rest

def readFixed64 (data : Bytes) : Option (Nat × Bytes) :=
  if data.length < 8 then none else some (leValue (data.take 8), data.drop 8)

def readDelimited (data : Bytes) : Option (Bytes × Bytes) := do
  let (len, rest) ← readVarint data
  if rest.length < len then none else some (rest.take len, rest.drop len)

def readField (data : Bytes) : Option ((Nat × Value) × Bytes) := do
  let (tag, rest) ← readVarint data
  let fieldId := (tag >>> 3) % 2 ^ 32
  match tag &&& 7 with
  | 0 => do
      let (value, rest) ← readVarint rest
      some ((fieldId, .varint value), rest)
  | 1 => do
      let (value, rest) ← readFixed64 rest
      some ((fieldId, .fixed64 value), rest)
  | 2 => do
      let (value, rest) ← readDelimited rest
      some ((fieldId, .bytes value), rest)
  | _ => none

/-- Reads fields until the data is used up. Every field takes at least one byte,
so `parse` below never runs out of its fuel. -/
def parseFields : Nat → Bytes → Option (List (Nat × Value))
  | _, [] => some []
  | 0, _ :: _ => none
  | fuel + 1, byte :: rest => do
      let (field, rest) ← readField (byte :: rest)
      let fields ← parseFields fuel rest
      some (field :: fields)

def parse (data : Bytes) : Option (List (Nat × Value)) :=
  parseFields data.length data

/-- A decoded message: which delimited fields are nested messages is the
schema's choice, so the reader is asked for them one by one. -/
inductive Field where
  | varint (id value : Nat)
  | fixed64 (id value : Nat)
  | bytes (id : Nat) (value : Bytes)
  | message (id : Nat) (fields : List Field)
  deriving Repr

mutual

/-- One parsed field carries the decoded field, nested messages included. -/
def Field.Matches : Field → Nat × Value → Prop
  | .varint id value, parsed => parsed = (id, .varint value)
  | .fixed64 id value, parsed => parsed = (id, .fixed64 value)
  | .bytes id value, parsed => parsed = (id, .bytes value)
  | .message id fields, parsed =>
      ∃ payload nested, parsed = (id, .bytes payload) ∧
        parse payload = some nested ∧ FieldsMatch fields nested

def FieldsMatch : List Field → List (Nat × Value) → Prop
  | [], [] => True
  | field :: fields, parsed :: rest => field.Matches parsed ∧ FieldsMatch fields rest
  | _, _ => False

end

/-- All of `data` reads as exactly these fields, in this order. -/
def Decodes (data : Bytes) (fields : List Field) : Prop :=
  ∃ parsed, parse data = some parsed ∧ FieldsMatch fields parsed

/-! ## Reading decoded fields -/

def varints (id : Nat) (fields : List Field) : List Nat :=
  fields.filterMap fun
    | .varint fieldId value => if fieldId = id then some value else none
    | _ => none

def texts (id : Nat) (fields : List Field) : List Bytes :=
  fields.filterMap fun
    | .bytes fieldId value => if fieldId = id then some value else none
    | _ => none

def messages (id : Nat) (fields : List Field) : List (List Field) :=
  fields.filterMap fun
    | .message fieldId nested => if fieldId = id then some nested else none
    | _ => none

@[simp] theorem varints_append (id : Nat) (fields more : List Field) :
    varints id (fields ++ more) = varints id fields ++ varints id more :=
  List.filterMap_append

@[simp] theorem messages_append (id : Nat) (fields more : List Field) :
    messages id (fields ++ more) = messages id fields ++ messages id more :=
  List.filterMap_append

/-! ## Base-128 groups -/

/-- A varint in any padding: every byte but the last carries the continuation
bit. -/
inductive Groups : Bytes → Nat → Prop
  | last {byte : UInt8} (h : byte.toNat < 128) : Groups [byte] byte.toNat
  | more {byte : UInt8} {rest : Bytes} {value : Nat} (h : 128 ≤ byte.toNat)
      (hrest : Groups rest value) :
      Groups (byte :: rest) (byte.toNat % 128 + 128 * value)

theorem Groups.ne_nil {data : Bytes} {value : Nat} (h : Groups data value) : data ≠ [] := by
  cases h <;> simp

theorem and_continuation (byte : UInt8) :
    byte.toNat &&& 0x80 = 0 ↔ byte.toNat < 128 := by
  have h : ∀ n : Fin 256, n.val &&& 0x80 = 0 ↔ n.val < 128 := by decide +kernel
  exact h ⟨byte.toNat, byte.toNat_lt⟩

theorem and_payload (byte : UInt8) : byte.toNat &&& 0x7f = byte.toNat % 128 :=
  Nat.and_two_pow_sub_one_eq_mod byte.toNat 7

/-- Or-ing a group above the bits already read adds it. -/
theorem or_group {shift before group : Nat} (hbefore : before < 2 ^ shift)
    (hfit : before + 2 ^ shift * group < 2 ^ 64) :
    before ||| ((group <<< shift) % 2 ^ 64) = before + 2 ^ shift * group := by
  have hword : (group <<< shift) % 2 ^ 64 = 2 ^ shift * group := by
    rw [Nat.shiftLeft_eq, Nat.mul_comm]
    exact Nat.mod_eq_of_lt (by omega)
  rw [hword, Nat.or_comm, ← Nat.two_pow_add_eq_or_of_lt hbefore, Nat.add_comm]

/-- Groups that fit into the word are read back above the bits already read. -/
theorem readVarintFrom_append {data : Bytes} {value : Nat} (h : Groups data value)
    (shift before : Nat) (rest : Bytes) (hbefore : before < 2 ^ shift)
    (hlen : shift + 7 * data.length ≤ 70) (hfit : before + 2 ^ shift * value < 2 ^ 64) :
    readVarintFrom shift before (data ++ rest) =
      some (before + 2 ^ shift * value, rest) := by
  induction h generalizing shift before with
  | @last byte hbyte =>
      have hshift : ¬ 64 ≤ shift := by
        simp only [List.length_singleton] at hlen
        omega
      have hpayload : byte.toNat % 128 = byte.toNat := Nat.mod_eq_of_lt hbyte
      simp only [List.cons_append, List.nil_append, readVarintFrom, hshift, if_false,
        and_payload, hpayload, (and_continuation byte).mpr hbyte, if_true]
      rw [or_group hbefore hfit]
  | @more byte tail value hbyte htail ih =>
      have htailPos : 0 < tail.length := List.length_pos_iff.mpr htail.ne_nil
      simp only [List.length_cons] at hlen
      have hshift : ¬ 64 ≤ shift := by omega
      have hpow : 2 ^ (shift + 7) = 2 ^ shift * 128 := by rw [Nat.pow_add]
      have hsplit : before + 2 ^ shift * (byte.toNat % 128 + 128 * value) =
          (before + 2 ^ shift * (byte.toNat % 128)) + 2 ^ (shift + 7) * value := by
        rw [hpow]
        ring
      have hgroup : 2 ^ shift * (byte.toNat % 128) + 2 ^ shift ≤ 2 ^ shift * 128 := by
        rw [← Nat.mul_succ]
        exact Nat.mul_le_mul_left _ (Nat.mod_lt _ (by decide))
      have hcontinues : ¬ byte.toNat &&& 0x80 = 0 := by
        rw [and_continuation]
        omega
      simp only [List.cons_append, readVarintFrom, hshift, if_false, and_payload, hcontinues]
      rw [or_group hbefore (by omega),
        ih (shift + 7) _ (by omega) (by omega) (by omega), hsplit]

/-- A varint of at most ten bytes reads back as its value, whatever follows. -/
theorem readVarint_append {data : Bytes} {value : Nat} (h : Groups data value)
    (hlen : data.length ≤ 10) (hfit : value < 2 ^ 64) (rest : Bytes) :
    readVarint (data ++ rest) = some (value, rest) := by
  have := readVarintFrom_append h 0 0 rest (by simp) (by omega) (by omega)
  simpa [readVarint] using this

/-! ## Fields -/

/-- A tag as written before a field: the field number above the wire type. -/
structure Tag (data : Bytes) (id wireType : Nat) : Prop where
  groups : Groups data (8 * id + wireType)
  length_le : data.length ≤ 10
  id_lt : id < 2 ^ 29
  wireType_lt : wireType < 8

theorem Tag.ne_nil {data : Bytes} {id wireType : Nat} (h : Tag data id wireType) :
    data ≠ [] :=
  h.groups.ne_nil

theorem Tag.readVarint {data : Bytes} {id wireType : Nat} (h : Tag data id wireType)
    (rest : Bytes) :
    readVarint (data ++ rest) = some (8 * id + wireType, rest) := by
  have := h.id_lt
  have := h.wireType_lt
  exact readVarint_append h.groups h.length_le (by omega) rest

theorem Tag.fieldId {data : Bytes} {id wireType : Nat} (h : Tag data id wireType) :
    ((8 * id + wireType) >>> 3) % 2 ^ 32 = id := by
  have := h.id_lt
  have := h.wireType_lt
  rw [Nat.shiftRight_eq_div_pow]
  omega

theorem Tag.wireType {data : Bytes} {id wireType : Nat} (h : Tag data id wireType) :
    (8 * id + wireType) &&& 7 = wireType := by
  have := h.wireType_lt
  rw [Nat.and_two_pow_sub_one_eq_mod _ 3]
  omega

theorem readField_varint {tag data : Bytes} {id value : Nat} (htag : Tag tag id 0)
    (h : Groups data value) (hlen : data.length ≤ 10) (hfit : value < 2 ^ 64)
    (rest : Bytes) :
    readField (tag ++ (data ++ rest)) = some ((id, .varint value), rest) := by
  simp only [readField, htag.readVarint, Option.bind_eq_bind, Option.bind_some, htag.fieldId,
    htag.wireType, readVarint_append h hlen hfit]

theorem readField_fixed64 {tag data : Bytes} {id : Nat} (htag : Tag tag id 1)
    (hlen : data.length = 8) (rest : Bytes) :
    readField (tag ++ (data ++ rest)) = some ((id, .fixed64 (leValue data)), rest) := by
  have hlong : ¬ (data ++ rest).length < 8 := by simp [hlen]
  have htake : (data ++ rest).take 8 = data := by simp [← hlen]
  have hdrop : (data ++ rest).drop 8 = rest := by simp [← hlen]
  simp only [readField, htag.readVarint, Option.bind_eq_bind, Option.bind_some, htag.fieldId,
    htag.wireType, readFixed64, hlong, if_false, htake, hdrop]

theorem readField_delimited {tag len data : Bytes} {id : Nat} (htag : Tag tag id 2)
    (h : Groups len data.length) (hlen : len.length ≤ 10) (hfit : data.length < 2 ^ 64)
    (rest : Bytes) :
    readField (tag ++ (len ++ (data ++ rest))) = some ((id, .bytes data), rest) := by
  have hlong : ¬ (data ++ rest).length < data.length := by simp
  simp only [readField, htag.readVarint, Option.bind_eq_bind, Option.bind_some, htag.fieldId,
    htag.wireType, readDelimited, readVarint_append h hlen hfit, hlong, if_false,
    List.take_left, List.drop_left]

theorem parseFields_mono {fuel : Nat} {data : Bytes} {fields : List (Nat × Value)}
    (h : parseFields fuel data = some fields) (extra : Nat) :
    parseFields (fuel + extra) data = some fields := by
  induction fuel generalizing data fields with
  | zero =>
      cases data with
      | nil => simpa [parseFields] using h
      | cons byte rest => simp [parseFields] at h
  | succ fuel ih =>
      cases data with
      | nil => simpa [parseFields] using h
      | cons byte rest =>
          rw [Nat.add_right_comm]
          simp only [parseFields, Option.bind_eq_bind, Option.bind_eq_some_iff] at h ⊢
          obtain ⟨⟨field, tail⟩, hfield, fields', hfields, heq⟩ := h
          exact ⟨(field, tail), hfield, fields', ih hfields, heq⟩

/-- One readable field in front of readable data. -/
theorem parse_cons {first rest : Bytes} {field : Nat × Value}
    {fields : List (Nat × Value)} (hne : first ≠ [])
    (hread : readField (first ++ rest) = some (field, rest))
    (hrest : parse rest = some fields) :
    parse (first ++ rest) = some (field :: fields) := by
  obtain ⟨byte, tail, rfl⟩ := List.exists_cons_of_ne_nil hne
  have hfuel : parseFields (rest.length + tail.length) rest = some fields :=
    parseFields_mono hrest tail.length
  simp only [List.cons_append] at hread ⊢
  simp only [parse, List.length_cons, List.length_append, parseFields, hread,
    Option.bind_eq_bind, Option.bind_some]
  rw [Nat.add_comm tail.length, hfuel]
  rfl

/-! ## Decoding rules -/

theorem Decodes.nil : Decodes [] [] := ⟨[], rfl, trivial⟩

theorem Decodes.cons {first rest : Bytes} {field : Field} {parsed : Nat × Value}
    {fields : List Field} (hne : first ≠ [])
    (hread : readField (first ++ rest) = some (parsed, rest)) (hfield : field.Matches parsed)
    (hrest : Decodes rest fields) : Decodes (first ++ rest) (field :: fields) := by
  obtain ⟨tail, htail, hmatch⟩ := hrest
  exact ⟨parsed :: tail, parse_cons hne hread htail, hfield, hmatch⟩

theorem Decodes.varint {tag data rest : Bytes} {id value : Nat} {fields : List Field}
    (htag : Tag tag id 0) (h : Groups data value) (hlen : data.length ≤ 10)
    (hfit : value < 2 ^ 64) (hrest : Decodes rest fields) :
    Decodes ((tag ++ data) ++ rest) (.varint id value :: fields) := by
  refine Decodes.cons (by simp [htag.ne_nil]) ?_ rfl hrest
  rw [List.append_assoc]
  exact readField_varint htag h hlen hfit rest

theorem Decodes.fixed64 {tag data rest : Bytes} {id : Nat} {fields : List Field}
    (htag : Tag tag id 1) (hlen : data.length = 8) (hrest : Decodes rest fields) :
    Decodes ((tag ++ data) ++ rest) (.fixed64 id (leValue data) :: fields) := by
  refine Decodes.cons (by simp [htag.ne_nil]) ?_ rfl hrest
  rw [List.append_assoc]
  exact readField_fixed64 htag hlen rest

theorem Decodes.bytes {tag len data rest : Bytes} {id : Nat} {fields : List Field}
    (htag : Tag tag id 2) (h : Groups len data.length) (hlen : len.length ≤ 10)
    (hfit : data.length < 2 ^ 64) (hrest : Decodes rest fields) :
    Decodes ((tag ++ (len ++ data)) ++ rest) (.bytes id data :: fields) := by
  refine Decodes.cons (by simp [htag.ne_nil]) ?_ rfl hrest
  simp only [List.append_assoc]
  exact readField_delimited htag h hlen hfit rest

/-- A nested message is a delimited field whose payload decodes on its own. -/
theorem Decodes.message {tag len data rest : Bytes} {id : Nat} {nested fields : List Field}
    (htag : Tag tag id 2) (h : Groups len data.length) (hlen : len.length ≤ 10)
    (hfit : data.length < 2 ^ 64) (hnested : Decodes data nested)
    (hrest : Decodes rest fields) :
    Decodes ((tag ++ (len ++ data)) ++ rest) (.message id nested :: fields) := by
  obtain ⟨parsed, hparse, hmatch⟩ := hnested
  refine Decodes.cons (by simp [htag.ne_nil]) ?_ ⟨data, parsed, rfl, hparse, hmatch⟩ hrest
  simp only [List.append_assoc]
  exact readField_delimited htag h hlen hfit rest

end TracingPerfetto.Wire
