import TracingPerfetto.Wire

/-!
The append-only protobuf encoder of `proto.rs`. Nested messages reserve four
length bytes when they begin and fill them in when they finish, so the proof
that the output decodes has to follow the buffer through the recorded offsets;
`Op.encoded` is what the buffer gains, and `Decodes` is proved of that.
-/

namespace TracingPerfetto.Proto

open TracingPerfetto.Wire

inductive WireType where
  | varint
  | fixed64
  | delimited

def WireType.code : WireType → Nat
  | .varint => 0
  | .fixed64 => 1
  | .delimited => 2

/-- The loop of `write_varint`. A `u64` has at most ten groups of seven bits. -/
def writeVarintLoop : Nat → Nat → Bytes → Bytes
  | 0, _, out => out
  | rounds + 1, value, out =>
      let byte := (value &&& 0x7f).toUInt8
      let value := value >>> 7
      if value = 0 then out ++ [byte]
      else writeVarintLoop rounds value (out ++ [byte ||| 0x80])

def writeVarint (value : Nat) (out : Bytes) : Bytes :=
  writeVarintLoop 10 value out

def messageLenPrefixSize : Nat := 4

def maxMessageLen : Nat := (1 <<< (messageLenPrefixSize * 7)) - 1

/-- The bytes that `write_redundant_varint` stores into a slice of the given
length. -/
def redundantGroups : Nat → Nat → Bytes
  | 0, _ => []
  | 1, value => [value.toUInt8]
  | len + 2, value => (value.toUInt8 ||| 0x80) :: redundantGroups (len + 1) (value >>> 7)

/-- `none` is the panic of the length assertion. -/
def writeRedundantVarint (value len : Nat) : Option Bytes :=
  if value ≤ maxMessageLen then some (redundantGroups len value) else none

structure ProtoBuffer where
  buf : Bytes
  deriving DecidableEq, Repr

structure MessageToken where
  lenPrefix : Nat
  payloadStart : Nat
  deriving DecidableEq, Repr

def leBytes : Nat → Nat → Bytes
  | 0, _ => []
  | len + 1, value => value.toUInt8 :: leBytes len (value >>> 8)

namespace ProtoBuffer

def empty : ProtoBuffer := ⟨[]⟩

def truncate (buffer : ProtoBuffer) (len : Nat) : ProtoBuffer :=
  ⟨buffer.buf.take len⟩

def append (buffer : ProtoBuffer) (data : Bytes) : ProtoBuffer :=
  ⟨buffer.buf ++ data⟩

/-- The shift is on a `u32`. -/
def tag (buffer : ProtoBuffer) (fieldId : Nat) (wireType : WireType) : ProtoBuffer :=
  ⟨writeVarint (((fieldId <<< 3) % 2 ^ 32) ||| wireType.code) buffer.buf⟩

def varintField (buffer : ProtoBuffer) (fieldId value : Nat) : ProtoBuffer :=
  ⟨writeVarint value (buffer.tag fieldId .varint).buf⟩

def redundantVarintField (buffer : ProtoBuffer) (fieldId value : Nat) : ProtoBuffer :=
  (buffer.tag fieldId .varint).append
    [value.toUInt8 ||| 0x80,
      (value >>> 7).toUInt8 ||| 0x80,
      (value >>> 14).toUInt8 ||| 0x80,
      (value >>> 21).toUInt8 ||| 0x80,
      (value >>> 28).toUInt8 ||| 0x80,
      (value >>> 35).toUInt8 ||| 0x80,
      (value >>> 42).toUInt8 ||| 0x80,
      (value >>> 49).toUInt8 ||| 0x80,
      (value >>> 56).toUInt8 ||| 0x80,
      (value >>> 63).toUInt8]

def fixed64Field (buffer : ProtoBuffer) (fieldId value : Nat) : ProtoBuffer :=
  (buffer.tag fieldId .fixed64).append (leBytes 8 value)

/-- A double is handed over as its bits. -/
def doubleField (buffer : ProtoBuffer) (fieldId bits : Nat) : ProtoBuffer :=
  buffer.fixed64Field fieldId bits

def stringField (buffer : ProtoBuffer) (fieldId : Nat) (value : Bytes) : ProtoBuffer :=
  ⟨writeVarint value.length (buffer.tag fieldId .delimited).buf ++ value⟩

def beginMessage (buffer : ProtoBuffer) (fieldId : Nat) : ProtoBuffer × MessageToken :=
  let tagged := buffer.tag fieldId .delimited
  let buffer := tagged.append (List.replicate messageLenPrefixSize 0)
  (buffer, ⟨tagged.buf.length, buffer.buf.length⟩)

def finishMessage (buffer : ProtoBuffer) (token : MessageToken) : Option ProtoBuffer := do
  let payloadLen := buffer.buf.length - token.payloadStart
  let len ← writeRedundantVarint payloadLen (token.payloadStart - token.lenPrefix)
  some ⟨buffer.buf.take token.lenPrefix ++ len ++ buffer.buf.drop token.payloadStart⟩

/-- `debug_field` and `display_field`: the formatter's chunks are streamed into a
message scope, and its result is ignored. -/
def fmtField (buffer : ProtoBuffer) (fieldId : Nat) (chunks : List Bytes) :
    Option ProtoBuffer :=
  let (buffer, token) := buffer.beginMessage fieldId
  (chunks.foldl append buffer).finishMessage token

end ProtoBuffer

/-- A tree of encoder calls. Message scopes close in LIFO order by construction,
as the borrow checker enforces for `Message`. -/
inductive Op where
  | varint (fieldId value : Nat)
  | redundantVarint (fieldId value : Nat)
  | fixed64 (fieldId value : Nat)
  | double (fieldId bits : Nat)
  | string (fieldId : Nat) (value : Bytes)
  | fmt (fieldId : Nat) (chunks : List Bytes)
  | message (fieldId : Nat) (body : List Op)
  deriving Repr

mutual

/-- Performs the calls on a buffer; `none` when a length assertion panics. -/
def Op.run : Op → ProtoBuffer → Option ProtoBuffer
  | .varint fieldId value, buffer => some (buffer.varintField fieldId value)
  | .redundantVarint fieldId value, buffer =>
      some (buffer.redundantVarintField fieldId value)
  | .fixed64 fieldId value, buffer => some (buffer.fixed64Field fieldId value)
  | .double fieldId bits, buffer => some (buffer.doubleField fieldId bits)
  | .string fieldId value, buffer => some (buffer.stringField fieldId value)
  | .fmt fieldId chunks, buffer => buffer.fmtField fieldId chunks
  | .message fieldId body, buffer => do
      let (buffer, token) := buffer.beginMessage fieldId
      let buffer ← Op.runAll body buffer
      buffer.finishMessage token

def Op.runAll : List Op → ProtoBuffer → Option ProtoBuffer
  | [], buffer => some buffer
  | op :: ops, buffer => do
      let buffer ← op.run buffer
      Op.runAll ops buffer

end

mutual

/-- What a decoder should see of a call. -/
def Op.field : Op → Field
  | .varint fieldId value => .varint fieldId value
  | .redundantVarint fieldId value => .varint fieldId value
  | .fixed64 fieldId value => .fixed64 fieldId value
  | .double fieldId bits => .fixed64 fieldId bits
  | .string fieldId value => .bytes fieldId value
  | .fmt fieldId chunks => .bytes fieldId chunks.flatten
  | .message fieldId body => .message fieldId (Op.fields body)

def Op.fields : List Op → List Field
  | [] => []
  | op :: ops => op.field :: Op.fields ops

end

/-! ## What the buffer gains -/

def varintBytes (value : Nat) : Bytes := writeVarint value []

def tagBytes (fieldId : Nat) (wireType : WireType) : Bytes :=
  varintBytes (((fieldId <<< 3) % 2 ^ 32) ||| wireType.code)

/-- A finished message scope around a payload. -/
def framed (fieldId : Nat) (payload : Bytes) : Bytes :=
  tagBytes fieldId .delimited ++
    (redundantGroups messageLenPrefixSize payload.length ++ payload)

mutual

def Op.encoded : Op → Bytes
  | .varint fieldId value => tagBytes fieldId .varint ++ varintBytes value
  | .redundantVarint fieldId value => tagBytes fieldId .varint ++ redundantGroups 10 value
  | .fixed64 fieldId value => tagBytes fieldId .fixed64 ++ leBytes 8 value
  | .double fieldId bits => tagBytes fieldId .fixed64 ++ leBytes 8 bits
  | .string fieldId value =>
      tagBytes fieldId .delimited ++ (varintBytes value.length ++ value)
  | .fmt fieldId chunks => framed fieldId chunks.flatten
  | .message fieldId body => framed fieldId (Op.encodedAll body)

def Op.encodedAll : List Op → Bytes
  | [] => []
  | op :: ops => op.encoded ++ Op.encodedAll ops

end

mutual

/-- Every message scope stays within the four length bytes. -/
def Op.Fits : Op → Prop
  | .fmt _ chunks => chunks.flatten.length ≤ maxMessageLen
  | .message _ body => Op.FitAll body ∧ (Op.encodedAll body).length ≤ maxMessageLen
  | _ => True

def Op.FitAll : List Op → Prop
  | [] => True
  | op :: ops => op.Fits ∧ Op.FitAll ops

end

mutual

/-- The field ids are protobuf field numbers and the values are `u64`s. -/
def Op.InRange : Op → Prop
  | .varint fieldId value => fieldId < 2 ^ 29 ∧ value < 2 ^ 64
  | .redundantVarint fieldId value => fieldId < 2 ^ 29 ∧ value < 2 ^ 64
  | .fixed64 fieldId value => fieldId < 2 ^ 29 ∧ value < 2 ^ 64
  | .double fieldId bits => fieldId < 2 ^ 29 ∧ bits < 2 ^ 64
  | .string fieldId _ => fieldId < 2 ^ 29
  | .fmt fieldId _ => fieldId < 2 ^ 29
  | .message fieldId body => fieldId < 2 ^ 29 ∧ Op.AllInRange body

def Op.AllInRange : List Op → Prop
  | [] => True
  | op :: ops => op.InRange ∧ Op.AllInRange ops

end

mutual

def Op.decidableFits : (op : Op) → Decidable op.Fits
  | .varint _ _ | .redundantVarint _ _ | .fixed64 _ _ | .double _ _ | .string _ _ =>
      .isTrue (by simp only [Op.Fits])
  | .fmt _ chunks =>
      decidable_of_iff (chunks.flatten.length ≤ maxMessageLen) (by simp only [Op.Fits])
  | .message fieldId body =>
      have := Op.decidableFitAll body
      decidable_of_iff (Op.FitAll body ∧ (Op.encodedAll body).length ≤ maxMessageLen)
        (by simp only [Op.Fits])

def Op.decidableFitAll : (ops : List Op) → Decidable (Op.FitAll ops)
  | [] => .isTrue (by simp only [Op.FitAll])
  | op :: ops =>
      have := Op.decidableFits op
      have := Op.decidableFitAll ops
      decidable_of_iff (op.Fits ∧ Op.FitAll ops) (by simp only [Op.FitAll])

end

mutual

def Op.decidableInRange : (op : Op) → Decidable op.InRange
  | .varint fieldId value | .redundantVarint fieldId value | .fixed64 fieldId value
  | .double fieldId value =>
      decidable_of_iff (fieldId < 2 ^ 29 ∧ value < 2 ^ 64) (by simp only [Op.InRange])
  | .string fieldId _ | .fmt fieldId _ =>
      decidable_of_iff (fieldId < 2 ^ 29) (by simp only [Op.InRange])
  | .message fieldId body =>
      have := Op.decidableAllInRange body
      decidable_of_iff (fieldId < 2 ^ 29 ∧ Op.AllInRange body) (by simp only [Op.InRange])

def Op.decidableAllInRange : (ops : List Op) → Decidable (Op.AllInRange ops)
  | [] => .isTrue (by simp only [Op.AllInRange])
  | op :: ops =>
      have := Op.decidableInRange op
      have := Op.decidableAllInRange ops
      decidable_of_iff (op.InRange ∧ Op.AllInRange ops) (by simp only [Op.AllInRange])

end

instance (ops : List Op) : Decidable (Op.FitAll ops) := Op.decidableFitAll ops

instance (ops : List Op) : Decidable (Op.AllInRange ops) := Op.decidableAllInRange ops

theorem writeVarintLoop_append (rounds value : Nat) (out : Bytes) :
    writeVarintLoop rounds value out = out ++ writeVarintLoop rounds value [] := by
  induction rounds generalizing value out with
  | zero => simp [writeVarintLoop]
  | succ rounds ih =>
      simp only [writeVarintLoop]
      split
      · simp
      · rw [ih, ih (value >>> 7) ([] ++ _), ← List.append_assoc, List.nil_append]

theorem writeVarint_append (value : Nat) (out : Bytes) :
    writeVarint value out = out ++ varintBytes value :=
  writeVarintLoop_append 10 value out

@[simp] theorem tag_buf (buffer : ProtoBuffer) (fieldId : Nat) (wireType : WireType) :
    (buffer.tag fieldId wireType).buf = buffer.buf ++ tagBytes fieldId wireType :=
  writeVarint_append _ _

theorem redundantGroups_length (len value : Nat) :
    (redundantGroups len value).length = len := by
  fun_induction redundantGroups len value with
  | case1 => rfl
  | case2 => rfl
  | case3 len value ih => simp [ih]

theorem leBytes_length (len value : Nat) : (leBytes len value).length = len := by
  induction len generalizing value with
  | zero => rfl
  | succ len ih => simp [leBytes, ih]

theorem foldl_append (chunks : List Bytes) (buffer : ProtoBuffer) :
    chunks.foldl ProtoBuffer.append buffer = buffer.append chunks.flatten := by
  induction chunks generalizing buffer with
  | nil => simp [ProtoBuffer.append]
  | cons chunk chunks ih => simp [ih, ProtoBuffer.append]

/-- The ten explicit bytes of `redundant_varint_field` are the generic groups. -/
theorem redundantVarintField_eq (buffer : ProtoBuffer) (fieldId value : Nat) :
    buffer.redundantVarintField fieldId value =
      buffer.append (tagBytes fieldId .varint ++ redundantGroups 10 value) := by
  simp [ProtoBuffer.redundantVarintField, ProtoBuffer.append, redundantGroups,
    ← Nat.shiftRight_add]

theorem beginMessage_buf (buffer : ProtoBuffer) (fieldId : Nat) :
    (buffer.beginMessage fieldId).1.buf =
      buffer.buf ++ tagBytes fieldId .delimited ++ List.replicate messageLenPrefixSize 0 := by
  simp [ProtoBuffer.beginMessage, ProtoBuffer.append]

/-- Whatever the four length bytes hold before, finishing a scope overwrites
exactly these four with the payload's length. -/
theorem finishMessage_slot (before slot payload : Bytes)
    (hslot : slot.length = messageLenPrefixSize) :
    (⟨before ++ (slot ++ payload)⟩ : ProtoBuffer).finishMessage
        ⟨before.length, before.length + messageLenPrefixSize⟩ =
      if payload.length ≤ maxMessageLen then
        some ⟨before ++ (redundantGroups messageLenPrefixSize payload.length ++ payload)⟩
      else none := by
  have hlen : (before ++ (slot ++ payload)).length -
      (before.length + messageLenPrefixSize) = payload.length := by
    simp only [List.length_append, hslot]
    omega
  have hdrop : (before ++ (slot ++ payload)).drop
      (before.length + messageLenPrefixSize) = payload := by
    rw [← List.append_assoc]
    exact List.drop_left' (by simp [hslot])
  simp only [ProtoBuffer.finishMessage, hlen, hdrop, Nat.add_sub_cancel_left,
    writeRedundantVarint, List.take_left, Option.bind_eq_bind]
  split
  · simp
  · rfl

/-- Finishing the scope that `begin_message` opened, after `payload` was written
inside it, leaves the framed payload behind what was there before. -/
theorem finishMessage_beginMessage (buffer : ProtoBuffer) (fieldId : Nat) (payload : Bytes) :
    ((buffer.beginMessage fieldId).1.append payload).finishMessage
        (buffer.beginMessage fieldId).2 =
      if payload.length ≤ maxMessageLen then
        some (buffer.append (framed fieldId payload))
      else none := by
  have hbuf : (buffer.beginMessage fieldId).1.append payload =
      ⟨(buffer.buf ++ tagBytes fieldId .delimited) ++
        (List.replicate messageLenPrefixSize 0 ++ payload)⟩ := by
    simp [ProtoBuffer.append, beginMessage_buf]
  have htoken : (buffer.beginMessage fieldId).2 =
      ⟨(buffer.buf ++ tagBytes fieldId .delimited).length,
        (buffer.buf ++ tagBytes fieldId .delimited).length + messageLenPrefixSize⟩ := by
    simp [ProtoBuffer.beginMessage, ProtoBuffer.append, Nat.add_assoc]
  rw [hbuf, htoken, finishMessage_slot _ _ _ (by simp)]
  simp [ProtoBuffer.append, framed]

mutual

/-- A call that fits appends its encoding and changes nothing before it. -/
theorem Op.run_eq : ∀ (op : Op) (buffer : ProtoBuffer), op.Fits →
    op.run buffer = some (buffer.append op.encoded)
  | .varint fieldId value, buffer, _ => by
      simp [Op.run, Op.encoded, ProtoBuffer.varintField, ProtoBuffer.append,
        writeVarint_append]
  | .redundantVarint fieldId value, buffer, _ => by
      simp [Op.run, Op.encoded, redundantVarintField_eq]
  | .fixed64 fieldId value, buffer, _ => by
      simp [Op.run, Op.encoded, ProtoBuffer.fixed64Field, ProtoBuffer.append]
  | .double fieldId bits, buffer, _ => by
      simp [Op.run, Op.encoded, ProtoBuffer.doubleField, ProtoBuffer.fixed64Field,
        ProtoBuffer.append]
  | .string fieldId value, buffer, _ => by
      simp [Op.run, Op.encoded, ProtoBuffer.stringField, ProtoBuffer.append,
        writeVarint_append]
  | .fmt fieldId chunks, buffer, h => by
      have hfits : chunks.flatten.length ≤ maxMessageLen := by simpa only [Op.Fits] using h
      simp only [Op.run, Op.encoded, ProtoBuffer.fmtField]
      rw [foldl_append, finishMessage_beginMessage, if_pos hfits]
  | .message fieldId body, buffer, h => by
      simp only [Op.Fits] at h
      simp only [Op.run, Op.encoded]
      rw [Op.runAll_eq body (buffer.beginMessage fieldId).1 h.1]
      simp only [Option.bind_eq_bind, Option.bind_some]
      rw [finishMessage_beginMessage, if_pos h.2]

theorem Op.runAll_eq : ∀ (ops : List Op) (buffer : ProtoBuffer), Op.FitAll ops →
    Op.runAll ops buffer = some (buffer.append (Op.encodedAll ops))
  | [], buffer, _ => by simp [Op.runAll, Op.encodedAll, ProtoBuffer.append]
  | op :: ops, buffer, h => by
      simp only [Op.FitAll] at h
      simp only [Op.runAll, Op.run_eq op buffer h.1, Option.bind_eq_bind, Option.bind_some]
      rw [Op.runAll_eq ops _ h.2]
      simp [ProtoBuffer.append, Op.encodedAll]

end

mutual

/-- Only calls that fit complete. -/
theorem Op.fits_of_run : ∀ (op : Op) {buffer buffer' : ProtoBuffer},
    op.run buffer = some buffer' → op.Fits
  | .varint _ _, _, _, _ | .redundantVarint _ _, _, _, _ | .fixed64 _ _, _, _, _
  | .double _ _, _, _, _ | .string _ _, _, _, _ => by simp only [Op.Fits]
  | .fmt fieldId chunks, buffer, buffer', h => by
      simp only [Op.run, ProtoBuffer.fmtField] at h
      rw [foldl_append, finishMessage_beginMessage] at h
      simp only [Op.Fits]
      by_contra hlen
      rw [if_neg hlen] at h
      simp at h
  | .message fieldId body, buffer, buffer', h => by
      simp only [Op.run, Option.bind_eq_bind, Option.bind_eq_some_iff] at h
      obtain ⟨payload, hbody, hfinish⟩ := h
      have hfits := Op.fitAll_of_runAll body hbody
      rw [Op.runAll_eq body _ hfits, Option.some.injEq] at hbody
      subst hbody
      rw [finishMessage_beginMessage] at hfinish
      simp only [Op.Fits]
      refine ⟨hfits, ?_⟩
      by_contra hlen
      rw [if_neg hlen] at hfinish
      simp at hfinish

theorem Op.fitAll_of_runAll : ∀ (ops : List Op) {buffer buffer' : ProtoBuffer},
    Op.runAll ops buffer = some buffer' → Op.FitAll ops
  | [], _, _, _ => by simp only [Op.FitAll]
  | op :: ops, buffer, buffer', h => by
      simp only [Op.runAll, Option.bind_eq_bind, Option.bind_eq_some_iff] at h
      obtain ⟨next, hfirst, hrest⟩ := h
      simp only [Op.FitAll]
      exact ⟨Op.fits_of_run op hfirst, Op.fitAll_of_runAll ops hrest⟩

end

theorem Op.encodedAll_append (ops more : List Op) :
    Op.encodedAll (ops ++ more) = Op.encodedAll ops ++ Op.encodedAll more := by
  induction ops with
  | nil => simp [Op.encodedAll]
  | cons op ops ih => simp [Op.encodedAll, ih]

theorem Op.fields_append (ops more : List Op) :
    Op.fields (ops ++ more) = Op.fields ops ++ Op.fields more := by
  induction ops with
  | nil => simp [Op.fields]
  | cons op ops ih => simp [Op.fields, ih]

theorem Op.fitAll_append (ops more : List Op) :
    Op.FitAll (ops ++ more) ↔ Op.FitAll ops ∧ Op.FitAll more := by
  induction ops with
  | nil => simp [Op.FitAll]
  | cons op ops ih => simp [Op.FitAll, ih, and_assoc]

/-! ## The encoding decodes -/

theorem toUInt8_toNat (value : Nat) : value.toUInt8.toNat = value % 256 := by
  simp [Nat.toUInt8]

theorem continued_toNat (value : Nat) :
    (value.toUInt8 ||| 0x80).toNat = value % 128 + 128 := by
  have h : ∀ n : Fin 256, n.val ||| 0x80 = n.val % 128 + 128 := by decide +kernel
  have hbyte := h ⟨value % 256, Nat.mod_lt _ (by decide)⟩
  have hmod : value % 256 % 128 = value % 128 := by omega
  rw [UInt8.toNat_or, toUInt8_toNat]
  simpa [hmod] using hbyte

theorem Groups.continued {rest : Bytes} {value : Nat} (h : Groups rest (value / 128)) :
    Groups ((value.toUInt8 ||| 0x80) :: rest) value := by
  have hbyte : 128 ≤ (value.toUInt8 ||| 0x80).toNat := by
    rw [continued_toNat]
    omega
  have hgroups := Groups.more hbyte h
  have hvalue : (value.toUInt8 ||| 0x80).toNat % 128 + 128 * (value / 128) = value := by
    rw [continued_toNat]
    omega
  rwa [hvalue] at hgroups

theorem Groups.final {value : Nat} (h : value < 128) : Groups [value.toUInt8] value := by
  have hbyte : value.toUInt8.toNat = value := by
    rw [toUInt8_toNat]
    omega
  have hgroups := Groups.last (show value.toUInt8.toNat < 128 by omega)
  rwa [hbyte] at hgroups

theorem shiftRight_seven (value : Nat) : value >>> 7 = value / 128 := by
  simp [Nat.shiftRight_eq_div_pow]

theorem redundantGroups_groups (len value : Nat) (h : value < 128 ^ (len + 1)) :
    Groups (redundantGroups (len + 1) value) value := by
  induction len generalizing value with
  | zero => exact Groups.final (by simpa using h)
  | succ len ih =>
      simp only [redundantGroups]
      apply Groups.continued
      rw [shiftRight_seven]
      apply ih
      rw [Nat.div_lt_iff_lt_mul (by decide)]
      rwa [Nat.pow_succ] at h

theorem writeVarintLoop_groups (rounds value : Nat) (h : value < 128 ^ (rounds + 1)) :
    Groups (writeVarintLoop (rounds + 1) value []) value ∧
      (writeVarintLoop (rounds + 1) value []).length ≤ rounds + 1 := by
  induction rounds generalizing value with
  | zero =>
      have hsmall : value < 128 := by simpa using h
      have hbyte : value &&& 0x7f = value := by
        rw [Nat.and_two_pow_sub_one_eq_mod value 7]
        omega
      have hdone : value >>> 7 = 0 := by
        rw [shiftRight_seven]
        omega
      simp only [writeVarintLoop, hbyte, hdone, if_true, List.nil_append]
      exact ⟨Groups.final hsmall, by simp⟩
  | succ rounds ih =>
      rw [writeVarintLoop]
      simp only [shiftRight_seven]
      split
      · rename_i hdone
        have hsmall : value < 128 := by omega
        have hbyte : value &&& 0x7f = value := by
          rw [Nat.and_two_pow_sub_one_eq_mod value 7]
          omega
        rw [hbyte]
        exact ⟨Groups.final hsmall, by simp⟩
      · have hrest := ih (value / 128) (by
          rw [Nat.div_lt_iff_lt_mul (by decide)]
          rwa [Nat.pow_succ] at h)
        have hbyte : ((value &&& 0x7f).toUInt8 ||| 0x80) = (value.toUInt8 ||| 0x80) := by
          apply UInt8.toNat_inj.mp
          rw [continued_toNat, continued_toNat, Nat.and_two_pow_sub_one_eq_mod value 7]
          omega
        rw [writeVarintLoop_append, hbyte]
        refine ⟨Groups.continued hrest.1, ?_⟩
        have := hrest.2
        simp only [List.nil_append, List.length_append, List.length_singleton]
        omega

theorem varintBytes_groups {value : Nat} (h : value < 2 ^ 64) :
    Groups (varintBytes value) value :=
  (writeVarintLoop_groups 9 value (by omega)).1

theorem varintBytes_length {value : Nat} (h : value < 2 ^ 64) :
    (varintBytes value).length ≤ 10 :=
  (writeVarintLoop_groups 9 value (by omega)).2

theorem writeVarintLoop_rounds (rounds value : Nat) :
    (writeVarintLoop rounds value []).length ≤ rounds := by
  induction rounds generalizing value with
  | zero => simp [writeVarintLoop]
  | succ rounds ih =>
      rw [writeVarintLoop]
      split
      · simp
      · rw [writeVarintLoop_append]
        have hrest := ih (value >>> 7)
        simp only [List.nil_append, List.length_append, List.length_singleton]
        omega

/-- A value of few groups takes few bytes, however many the loop may take. -/
theorem writeVarintLoop_length (rounds groups value : Nat) (h : value < 128 ^ (groups + 1)) :
    (writeVarintLoop rounds value []).length ≤ groups + 1 := by
  induction rounds generalizing groups value with
  | zero => simp [writeVarintLoop]
  | succ rounds ih =>
      rw [writeVarintLoop, shiftRight_seven]
      split
      · simp
      · rename_i hmore
        cases groups with
        | zero => omega
        | succ groups =>
            have hrest := ih groups (value / 128) (by
              rw [Nat.div_lt_iff_lt_mul (by decide)]
              rwa [Nat.pow_succ] at h)
            rw [writeVarintLoop_append]
            simp only [List.nil_append, List.length_append, List.length_singleton]
            omega

theorem WireType.code_lt (wireType : WireType) : wireType.code < 8 := by
  cases wireType <;> decide

theorem tagBytes_tag {fieldId : Nat} (h : fieldId < 2 ^ 29) (wireType : WireType) :
    Tag (tagBytes fieldId wireType) fieldId wireType.code := by
  have hcode := wireType.code_lt
  have hshift : (fieldId <<< 3) % 2 ^ 32 = 2 ^ 3 * fieldId := by
    rw [Nat.shiftLeft_eq, Nat.mul_comm]
    omega
  have hvalue : ((fieldId <<< 3) % 2 ^ 32) ||| wireType.code = 8 * fieldId + wireType.code := by
    rw [hshift, ← Nat.two_pow_add_eq_or_of_lt hcode]
  have hfit : 8 * fieldId + wireType.code < 2 ^ 64 := by omega
  constructor
  · rw [tagBytes, hvalue]
    exact varintBytes_groups hfit
  · rw [tagBytes, hvalue]
    exact varintBytes_length hfit
  · exact h
  · exact hcode

theorem leValue_leBytes (len value : Nat) (h : value < 256 ^ len) :
    leValue (leBytes len value) = value := by
  induction len generalizing value with
  | zero =>
      simp only [Nat.pow_zero, Nat.lt_one_iff] at h
      simp [leBytes, leValue, h]
  | succ len ih =>
      have hshift : value >>> 8 = value / 256 := by simp [Nat.shiftRight_eq_div_pow]
      have hrest : value / 256 < 256 ^ len := by
        rw [Nat.div_lt_iff_lt_mul (by decide)]
        rwa [Nat.pow_succ] at h
      simp only [leBytes, leValue, toUInt8_toNat, hshift, ih _ hrest]
      omega

theorem Decodes.framed {rest payload : Bytes} {fieldId : Nat} {nested fields : List Field}
    (hid : fieldId < 2 ^ 29) (hlen : payload.length ≤ maxMessageLen)
    (hnested : Decodes payload nested) (hrest : Decodes rest fields) :
    Decodes (framed fieldId payload ++ rest) (.message fieldId nested :: fields) := by
  have hmax : maxMessageLen < 128 ^ 4 := by decide
  exact Decodes.message (tagBytes_tag hid .delimited)
    (redundantGroups_groups 3 payload.length (by omega))
    (by rw [redundantGroups_length]; decide) (by omega) hnested hrest

mutual

theorem Op.decodes : ∀ (op : Op) {rest : Bytes} {fields : List Field}, op.InRange → op.Fits →
    op.encoded.length < 2 ^ 64 → Decodes rest fields →
    Decodes (op.encoded ++ rest) (op.field :: fields)
  | .varint fieldId value, rest, fields, hrange, _, _, hrest => by
      simp only [Op.InRange] at hrange
      exact Decodes.varint (tagBytes_tag hrange.1 .varint) (varintBytes_groups hrange.2)
        (varintBytes_length hrange.2) hrange.2 hrest
  | .redundantVarint fieldId value, rest, fields, hrange, _, _, hrest => by
      simp only [Op.InRange] at hrange
      exact Decodes.varint (tagBytes_tag hrange.1 .varint)
        (redundantGroups_groups 9 value (by omega)) (by rw [redundantGroups_length])
        hrange.2 hrest
  | .fixed64 fieldId value, rest, fields, hrange, _, _, hrest => by
      simp only [Op.InRange] at hrange
      have h := Decodes.fixed64 (tagBytes_tag hrange.1 .fixed64) (leBytes_length 8 value) hrest
      rwa [leValue_leBytes 8 value (by omega)] at h
  | .double fieldId bits, rest, fields, hrange, _, _, hrest => by
      simp only [Op.InRange] at hrange
      have h := Decodes.fixed64 (tagBytes_tag hrange.1 .fixed64) (leBytes_length 8 bits) hrest
      rwa [leValue_leBytes 8 bits (by omega)] at h
  | .string fieldId value, rest, fields, hrange, _, hlen, hrest => by
      simp only [Op.InRange] at hrange
      have hvalue : value.length < 2 ^ 64 := by
        simp only [Op.encoded, List.length_append] at hlen
        omega
      exact Decodes.bytes (tagBytes_tag hrange .delimited) (varintBytes_groups hvalue)
        (varintBytes_length hvalue) hvalue hrest
  | .fmt fieldId chunks, rest, fields, hrange, hfits, _, hrest => by
      simp only [Op.InRange] at hrange
      simp only [Op.Fits] at hfits
      have hmax : maxMessageLen < 128 ^ 4 := by decide
      exact Decodes.bytes (tagBytes_tag hrange .delimited)
        (redundantGroups_groups 3 chunks.flatten.length (by omega))
        (by rw [messageLenPrefixSize, redundantGroups_length]; decide) (by omega) hrest
  | .message fieldId body, rest, fields, hrange, hfits, _, hrest => by
      simp only [Op.InRange] at hrange
      simp only [Op.Fits] at hfits
      have hmax : maxMessageLen < 2 ^ 64 := by decide
      exact Decodes.framed hrange.1 hfits.2
        (Op.decodesAll body hrange.2 hfits.1 (by omega)) hrest

/-- The encoding of a list of calls reads back as its fields. -/
theorem Op.decodesAll : ∀ (ops : List Op), Op.AllInRange ops → Op.FitAll ops →
    (Op.encodedAll ops).length < 2 ^ 64 → Decodes (Op.encodedAll ops) (Op.fields ops)
  | [], _, _, _ => Decodes.nil
  | op :: ops, hrange, hfits, hlen => by
      simp only [Op.AllInRange] at hrange
      simp only [Op.FitAll] at hfits
      simp only [Op.encodedAll, List.length_append] at hlen
      simp only [Op.encodedAll, Op.fields]
      exact Op.decodes op hrange.1 hfits.1 (by omega)
        (Op.decodesAll ops hrange.2 hfits.2 (by omega))

end

/-- The same for calls that are short one by one. -/
theorem Op.decodesEach (ops : List Op) (hrange : Op.AllInRange ops) (hfits : Op.FitAll ops)
    (hlen : ∀ op ∈ ops, op.encoded.length < 2 ^ 64) :
    Decodes (Op.encodedAll ops) (Op.fields ops) := by
  induction ops with
  | nil => exact Decodes.nil
  | cons op ops ih =>
      simp only [Op.AllInRange] at hrange
      simp only [Op.FitAll] at hfits
      rw [List.forall_mem_cons] at hlen
      simp only [Op.encodedAll, Op.fields]
      exact Op.decodes op hrange.1 hfits.1 hlen.1 (ih hrange.2 hfits.2 hlen.2)

end TracingPerfetto.Proto
