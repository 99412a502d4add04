import TracingPerfetto.SequenceRuns
import Mathlib.Data.List.Forall2

/-!
The packets of a sequence decode as they were written. The buffer that
`writePacket` recycles is followed through the packets: as long as a prefix is
saved, the scratch buffer starts with that prefix, so truncating it is as good as
writing the header from scratch.
-/

namespace TracingPerfetto.PacketRoundTrip

open TracingPerfetto.Wire TracingPerfetto.Proto TracingPerfetto.Runtime
open TracingPerfetto.Schema TracingPerfetto.Sequence
open TracingPerfetto.Sequence.SequenceWriter TracingPerfetto.SequenceRuns

def packetTag : Bytes := tagBytes Trace.packet .delimited

def rootToken : MessageToken := ⟨packetTag.length, packetTag.length + messageLenPrefixSize⟩

/-- An open packet whose buffer holds the packet tag, four length bytes and these
calls. -/
structure Holds (packet : Packet) (calls : List Op) : Prop where
  root : packet.root = rootToken
  buf : ∃ slot : Bytes, slot.length = messageLenPrefixSize ∧
    packet.proto.buf = packetTag ++ (slot ++ Op.encodedAll calls)

theorem Holds.write {packet : Packet} {calls more : List Op} (h : Holds packet calls)
    (hfit : Op.FitAll more) :
    ∃ packet', packet.write more = some packet' ∧ Holds packet' (calls ++ more) ∧
      packet'.sequence = packet.sequence := by
  obtain ⟨slot, hslot, hbuf⟩ := h.buf
  refine ⟨{ packet with proto := packet.proto.append (Op.encodedAll more) }, ?_, ?_, rfl⟩
  · simp [Packet.write, Op.runAll_eq more packet.proto hfit]
  · exact ⟨h.root, slot, hslot, by
      simp [ProtoBuffer.append, hbuf, Op.encodedAll_append]⟩

theorem Holds.withSequence {packet : Packet} {calls : List Op} (h : Holds packet calls)
    (sequence : SequenceState) : Holds { packet with sequence := sequence } calls :=
  ⟨h.root, h.buf⟩

theorem Holds.withTables {packet : Packet} {calls : List Op} (h : Holds packet calls)
    (tables : InternTables) : Holds (packet.withTables tables) calls :=
  h.withSequence _

theorem Holds.finish {packet : Packet} {calls : List Op} (h : Holds packet calls)
    (hlen : (Op.encodedAll calls).length ≤ maxMessageLen) :
    packet.proto.finishMessage packet.root =
      some ⟨framed Trace.packet (Op.encodedAll calls)⟩ := by
  obtain ⟨slot, hslot, hbuf⟩ := h.buf
  have hproto : packet.proto = ⟨packetTag ++ (slot ++ Op.encodedAll calls)⟩ :=
    congrArg ProtoBuffer.mk hbuf
  rw [h.root, hproto, rootToken, finishMessage_slot _ _ _ hslot, if_pos hlen]
  rfl

/-- How long the saved prefix of a sequence is. -/
def prefixLen (sequenceId : Nat) : Nat :=
  packetTag.length + (messageLenPrefixSize + (Op.encodedAll (prefixCalls sequenceId)).length)

/-- A saved prefix stands for the packet tag, a length slot and the prefix fields,
and these calls of a packet start with those fields. -/
def PrefixOf (sequence : SequenceState) (calls : List Op) : Prop :=
  ∀ len root, sequence.packetPrefix = some (len, root) →
    len = prefixLen sequence.sequenceId ∧ root = rootToken ∧
      sequence.firstPacketDone = true ∧ ∃ rest, calls = prefixCalls sequence.sequenceId ++ rest

/-- Between packets, the scratch buffer starts with the saved prefix. -/
def PrefixValid (sequence : SequenceState) : Prop :=
  sequence.packetPrefix = none ∨
    ∃ (calls : List Op) (slot : Bytes), slot.length = messageLenPrefixSize ∧
      sequence.scratch.buf = packetTag ++ (slot ++ Op.encodedAll calls) ∧
      PrefixOf sequence calls

theorem holds_openPacket {sequence : SequenceState} (h : PrefixValid sequence) :
    Holds sequence.openPacket.1
        (if sequence.openPacket.2 then prefixCalls sequence.sequenceId else []) ∧
      (sequence.openPacket.2 = true → sequence.firstPacketDone = true) := by
  cases hsaved : sequence.packetPrefix with
  | none =>
      simp only [SequenceState.openPacket, hsaved]
      refine ⟨⟨?_, List.replicate messageLenPrefixSize 0, by simp, ?_⟩, by simp⟩
      · simp [ProtoBuffer.beginMessage, rootToken, packetTag, ProtoBuffer.empty,
          ProtoBuffer.append]
      · rw [beginMessage_buf]
        simp [ProtoBuffer.empty, packetTag, Op.encodedAll]
  | some saved =>
      obtain ⟨len, root⟩ := saved
      obtain hnone | ⟨calls, slot, hslot, hbuf, hcalls⟩ := h
      · simp [hsaved] at hnone
      · obtain ⟨rfl, rfl, hdone, rest, rfl⟩ := hcalls len root hsaved
        simp only [SequenceState.openPacket, hsaved, if_true, hdone, implies_true, and_true]
        refine ⟨rfl, slot, hslot, ?_⟩
        rw [Op.encodedAll_append, ← List.append_assoc slot, ← List.append_assoc] at hbuf
        simp only [ProtoBuffer.truncate, hbuf]
        exact List.take_left' (by simp [prefixLen, hslot, packetTag])

theorem Holds.length {packet : Packet} {calls : List Op} (h : Holds packet calls) :
    packet.proto.buf.length =
      packetTag.length + (messageLenPrefixSize + (Op.encodedAll calls).length) := by
  obtain ⟨slot, hslot, hbuf⟩ := h.buf
  simp [hbuf, hslot]

theorem PrefixValid.prefixOf {sequence : SequenceState} (h : PrefixValid sequence)
    (rest : List Op) : PrefixOf sequence (prefixCalls sequence.sequenceId ++ rest) := by
  intro len root hsaved
  obtain hnone | ⟨calls, slot, _, _, hcalls⟩ := h
  · simp [hnone] at hsaved
  · obtain ⟨hlen, hroot, hdone, _⟩ := hcalls len root hsaved
    exact ⟨hlen, hroot, hdone, rest, rfl⟩

theorem PrefixOf.append {sequence : SequenceState} {calls : List Op}
    (h : PrefixOf sequence calls) (more : List Op) : PrefixOf sequence (calls ++ more) := by
  intro len root hsaved
  obtain ⟨hlen, hroot, hdone, rest, rfl⟩ := h len root hsaved
  exact ⟨hlen, hroot, hdone, rest ++ more, by simp⟩

/-- Writing the prefix fields saves exactly what was written. -/
theorem Holds.initializePacketPrefix {packet : Packet} (h : Holds packet [])
    (hdone : packet.sequence.firstPacketDone = true)
    (hfit : Op.FitAll (prefixCalls packet.sequence.sequenceId)) :
    ∃ packet', packet.initializePacketPrefix = some packet' ∧
      Holds packet' (prefixCalls packet.sequence.sequenceId) ∧
      visible packet'.sequence = visible packet.sequence ∧
      PrefixOf packet'.sequence (prefixCalls packet.sequence.sequenceId) := by
  obtain ⟨written, hwrite, hholds, hsequence⟩ := h.write hfit
  refine ⟨{ written with sequence := { written.sequence with
    packetPrefix := some (written.proto.buf.length, written.root) } }, ?_, ?_, ?_, ?_⟩
  · simp [Packet.initializePacketPrefix, hwrite]
  · exact ⟨hholds.root, hholds.buf⟩
  · simp [visible, hsequence]
  · intro len root hsaved
    simp only [Option.some.injEq, Prod.mk.injEq] at hsaved
    obtain ⟨rfl, rfl⟩ := hsaved
    refine ⟨?_, hholds.root, by simpa [hsequence] using hdone, [], by simp [hsequence]⟩
    rw [hholds.length]
    simp [prefixLen, hsequence]

/-- The header in the buffer is the header from scratch, whichever way it got
there. -/
theorem packetWithoutInitialization_holds {domain : ClockDomain} {answers : Answers}
    {sequence : SequenceState} {raw : Nat} (hvalid : PrefixValid sequence)
    (hfit : Op.FitAll (sequence.header domain answers raw).1) :
    ∃ packet, sequence.packetWithoutInitialization domain answers raw = some packet ∧
      Holds packet (sequence.header domain answers raw).1 ∧
      visible packet.sequence = visible (sequence.header domain answers raw).2 ∧
      PrefixOf packet.sequence (sequence.header domain answers raw).1 := by
  obtain ⟨hholds, hreused⟩ := holds_openPacket hvalid
  obtain ⟨hsequence, hflag⟩ := openPacket_sequence sequence
  simp only [SequenceState.packetWithoutInitialization]
  generalize sequence.openPacket = opened at *
  obtain ⟨⟨taken, proto, root⟩, reused⟩ := opened
  simp only at hholds hreused hsequence hflag ⊢
  subst hsequence
  cases hfirst : sequence.firstPacketDone with
  | false =>
      have hfresh : reused = false := by
        cases reused with
        | false => rfl
        | true => simp [hfirst] at hreused
      have hnone : sequence.packetPrefix = none := by simpa [hfresh] using hflag.symm
      simp only [hfresh, Bool.false_eq_true, if_false] at hholds
      simp only [SequenceState.header, hfirst, Bool.false_eq_true, if_false] at hfit ⊢
      obtain ⟨packet, hwrite, hholds', hsequence⟩ := (hholds.withSequence
        { sequence with scratch := ProtoBuffer.empty, firstPacketDone := true }).write hfit
      refine ⟨packet, hwrite, by simpa using hholds', by simp [hsequence, visible], ?_⟩
      intro len root hsaved
      simp [hsequence, hnone] at hsaved
  | true =>
      simp only [SequenceState.header, hfirst, if_true] at hfit ⊢
      rw [Op.fitAll_append] at hfit
      -- Either way the packet holds the prefix fields before the delta is written.
      obtain ⟨packet, hopen, hholds', hvisible, hsaved⟩ : ∃ packet : Packet,
          (if reused then some ⟨{ sequence with
              scratch := ProtoBuffer.empty, lastTimestampNs := raw }, proto, root⟩
            else (⟨{ sequence with scratch := ProtoBuffer.empty, lastTimestampNs := raw },
              proto, root⟩ : Packet).initializePacketPrefix) = some packet ∧
            Holds packet (prefixCalls sequence.sequenceId) ∧
            visible packet.sequence = visible { sequence with lastTimestampNs := raw } ∧
            PrefixOf packet.sequence (prefixCalls sequence.sequenceId) := by
        cases reused with
        | true =>
            have hsaved := hvalid.prefixOf []
            simp only [if_true, List.append_nil] at hholds hsaved ⊢
            exact ⟨_, rfl, ⟨hholds.root, hholds.buf⟩, rfl, hsaved⟩
        | false =>
            simp only [Bool.false_eq_true, if_false] at hholds ⊢
            exact (hholds.withSequence { sequence with
              scratch := ProtoBuffer.empty, lastTimestampNs := raw }).initializePacketPrefix
                hfirst hfit.1
      obtain ⟨packet', hwrite, hholds'', hsequence⟩ := hholds'.write hfit.2
      have hvisible' : visible packet'.sequence =
          visible { sequence with lastTimestampNs := raw } := by rw [hsequence, hvisible]
      refine ⟨packet', ?_, hholds'', by simpa [hfirst] using hvisible', ?_⟩
      · simp only [hfirst] at hopen
        cases reused with
        | true =>
            simp only [if_true] at hopen
            simp only [if_true, hopen, Option.bind_eq_bind, Option.bind_some]
            exact hwrite
        | false =>
            simp only [Bool.false_eq_true, if_false] at hopen
            simp only [Bool.false_eq_true, if_false, hopen, Option.bind_eq_bind,
              Option.bind_some]
            exact hwrite
      · rw [hsequence]
        exact hsaved.append _

/-- Dropping a packet hands over its framed calls and keeps the prefix valid. -/
theorem Holds.drop {packet : Packet} {calls : List Op} (h : Holds packet calls)
    (hsaved : PrefixOf packet.sequence calls)
    (hfit : Op.FitAll packet.sequence.tables.emitInternedData.1)
    (hlen : (Op.encodedAll
      (calls ++ packet.sequence.tables.emitInternedData.1)).length ≤ maxMessageLen) :
    ∃ sequence, packet.drop = some (sequence,
        framed Trace.packet
          (Op.encodedAll (calls ++ packet.sequence.tables.emitInternedData.1))) ∧
      visible sequence =
        visible (packet.sequence.withTables packet.sequence.tables.emitInternedData.2) ∧
      PrefixValid sequence := by
  obtain ⟨packet', hwrite, hholds, hsequence⟩ := h.write hfit
  have hfinish := hholds.finish hlen
  refine ⟨{ packet.sequence.withTables packet.sequence.tables.emitInternedData.2 with
    scratch := ⟨framed Trace.packet
      (Op.encodedAll (calls ++ packet.sequence.tables.emitInternedData.1))⟩ }, ?_, ?_, ?_⟩
  · simp [Packet.drop, hwrite, hfinish, hsequence]
  · simp [visible]
  · refine Or.inr ⟨_, redundantGroups messageLenPrefixSize _,
      redundantGroups_length _ _, rfl, ?_⟩
    exact hsaved.append _

/-! ## The writer refines the writer without a buffer -/

/-- A packet within the length limit of every message scope it contains. -/
def Written.Fits (written : Written) : Prop :=
  Op.FitAll written.calls ∧ (Op.encodedAll written.calls).length ≤ maxMessageLen

instance (packet : Written) : Decidable (Written.Fits packet) :=
  inferInstanceAs (Decidable (_ ∧ _))

structure Refines (writer spec : SequenceWriter) : Prop where
  sequence : visible writer.sequence = visible spec.sequence
  valid : PrefixValid writer.sequence
  timestampNs : writer.timestampNs = spec.timestampNs
  written : writer.written = spec.written

/-- The layer keeps up with the specification as long as all packets fit. -/
def Follows (writer : Option SequenceWriter) (spec : SequenceWriter) : Prop :=
  (∀ packet ∈ spec.written, Written.Fits packet) → ∃ w, writer = some w ∧ Refines w spec

theorem header_visible (domain : ClockDomain) (answers : Answers)
    {sequence spec : SequenceState} (h : visible sequence = visible spec) (raw : Nat) :
    (sequence.header domain answers raw).1 = (spec.header domain answers raw).1 ∧
      visible (sequence.header domain answers raw).2 =
        visible (spec.header domain answers raw).2 := by
  have hheader : ∀ s : SequenceState,
      (s.header domain answers raw).1 = ((visible s).header domain answers raw).1 ∧
        visible (s.header domain answers raw).2 =
          visible ((visible s).header domain answers raw).2 := by
    intro s
    cases hfirst : s.firstPacketDone <;>
      simp [SequenceState.header, visible, hfirst, SequenceState.delta, firstPacketCalls]
  rw [(hheader sequence).1, (hheader sequence).2, (hheader spec).1, (hheader spec).2, h]
  exact ⟨rfl, rfl⟩

theorem Refines.timestamp {writer spec : SequenceWriter} (h : Refines writer spec)
    (answers : Answers) :
    (writer.timestamp answers).1 = (spec.timestamp answers).1 ∧
      Refines (writer.timestamp answers).2 (spec.timestamp answers).2 := by
  have htimestamp := h.timestampNs
  cases hspec : spec.timestampNs with
  | some timestamp =>
      rw [hspec] at htimestamp
      simp [SequenceWriter.timestamp, hspec, htimestamp, h]
  | none =>
      rw [hspec] at htimestamp
      simp only [SequenceWriter.timestamp, hspec, htimestamp, true_and]
      exact ⟨h.sequence, h.valid, rfl, h.written⟩

/-- One packet: the recycled buffer yields the bytes of the packet from scratch. -/
theorem Refines.writePacket {writer spec spec' : SequenceWriter} {domain : ClockDomain}
    {answers : Answers} {body : Encode (List Op)} (h : Refines writer spec)
    (hspec : spec.writeFromScratch domain answers body = some spec')
    (hfits : ∀ packet ∈ spec'.written, Written.Fits packet) :
    ∃ writer', writer.writePacket domain answers body = some writer' ∧
      Refines writer' spec' := by
  obtain ⟨hraw, htimestamp⟩ := h.timestamp answers
  simp only [SequenceWriter.writeFromScratch] at hspec
  simp only [SequenceWriter.writePacket]
  generalize spec.timestamp answers = specRead at *
  generalize writer.timestamp answers = read at *
  obtain ⟨raw, writer⟩ := read
  obtain ⟨specRaw, spec⟩ := specRead
  simp only at hraw htimestamp hspec ⊢
  subst hraw
  obtain ⟨hheader, hvisible⟩ := header_visible domain answers htimestamp.sequence raw
  rw [← hheader] at hspec
  generalize (spec.sequence.header domain answers raw).2 = specSequence at *
  rcases hbody : body specSequence.tables with ⟨calls, tables⟩
  simp only [hbody, Option.some.injEq] at hspec
  subst hspec
  have hpacketFits := hfits _ (List.mem_append_right _ (List.mem_singleton_self _))
  obtain ⟨hfitAll, hlen⟩ := hpacketFits
  simp only [Written.calls, Op.fitAll_append] at hfitAll hlen
  obtain ⟨hfitHeader, hfitBody, hfitInterned⟩ := hfitAll
  obtain ⟨packet, hopen, hholds, hopenVisible, hsaved⟩ :=
    packetWithoutInitialization_holds htimestamp.valid hfitHeader
  have htables : packet.sequence.tables = specSequence.tables := by
    exact congrArg (fun s => s.tables) (hopenVisible.trans hvisible)
  obtain ⟨packet', hwrite, hholds', hsequence'⟩ :=
    (hholds.withTables tables).write hfitBody
  have htables' : packet'.sequence.tables = tables := congrArg SequenceState.tables hsequence'
  obtain ⟨sequence, hdrop, hdropVisible, hdropValid⟩ := hholds'.drop
    (by
      rw [hsequence']
      exact PrefixOf.append hsaved _)
    (by rw [htables']; exact hfitInterned)
    (by rw [htables', List.append_assoc]; exact hlen)
  simp only [hopen, htables, hbody, Option.bind_eq_bind, Option.bind_some, hwrite, hdrop,
    Option.some.injEq, exists_eq_left']
  have hafter := withTables_visible tables.emitInternedData.2 (hopenVisible.trans hvisible)
  refine ⟨?_, hdropValid, htimestamp.timestampNs, ?_⟩
  · rw [hdropVisible, htables', hsequence']
    exact hafter
  · simp [htimestamp.written, htables', List.append_assoc]

theorem Follows.refl {writer spec : SequenceWriter} (h : Refines writer spec) :
    Follows (some writer) spec := fun _ => ⟨writer, rfl, h⟩

/-- A step that keeps refinement keeps the layer following. -/
theorem Follows.map {writer : Option SequenceWriter} {spec : SequenceWriter}
    (h : Follows writer spec) (f : SequenceWriter → SequenceWriter)
    (hwritten : (f spec).written = spec.written)
    (hf : ∀ w, Refines w spec → Refines (f w) (f spec)) :
    Follows (writer.map f) (f spec) := by
  intro hfits
  obtain ⟨w, rfl, hrefines⟩ := h (by rwa [hwritten] at hfits)
  exact ⟨f w, rfl, hf w hrefines⟩

/-- The body may depend on what the two writers agree on. -/
theorem follows_writePacket {writer : Option SequenceWriter} {spec spec' : SequenceWriter}
    {domain : ClockDomain} {answers : Answers} (body : SequenceWriter → Encode (List Op))
    (h : Follows writer spec) (hbody : ∀ w, Refines w spec → body w = body spec)
    (hspec : spec.writeFromScratch domain answers (body spec) = some spec') :
    Follows (writer.bind fun w => w.writePacket domain answers (body w)) spec' := by
  intro hfits
  obtain ⟨packet, _, hwrote⟩ := writes_writeFromScratch _ _ _ _ _ hspec
  obtain ⟨w, rfl, hrefines⟩ := h fun before hbefore =>
    hfits before (by rw [hwrote.written]; exact List.mem_append_left _ hbefore)
  rw [← hbody w hrefines] at hspec
  exact hrefines.writePacket hspec hfits

section Lifecycle

variable {config : Config} {domain : ClockDomain} {answers : Answers}
variable {writer : Option SequenceWriter} {spec spec' : SequenceWriter}

theorem Refines.readSnapshotClock {writer spec : SequenceWriter} (h : Refines writer spec)
    (answers : Answers) :
    Refines (SequenceWriter.readSnapshotClock answers writer)
      (SequenceWriter.readSnapshotClock answers spec) := by
  obtain ⟨hraw, htimestamp⟩ := h.timestamp answers
  refine ⟨?_, htimestamp.valid, htimestamp.timestampNs, htimestamp.written⟩
  simp only [SequenceWriter.readSnapshotClock, hraw]
  exact congrArg (fun s : SequenceState => { s with
    lastTimestampNs := (spec.timestamp answers).1 }) htimestamp.sequence

theorem follows_clockSnapshot (h : Follows writer spec)
    (hspec : SequenceWriter.clockSnapshot domain SequenceWriter.writeFromScratch answers spec =
      some spec') :
    Follows (writer.bind (SequenceWriter.clockSnapshot domain SequenceWriter.writePacket answers))
      spec' := by
  let body : SequenceWriter → Encode (List Op) := fun w =>
    pure (clockSnapshotCalls domain answers w.sequence.lastTimestampNs w.sequence.clockAnchorNs)
  have hread := h.map (SequenceWriter.readSnapshotClock answers)
    (timestamp_sequence spec answers).2.1
    fun w hw => hw.readSnapshotClock answers
  have hbody : ∀ w, Refines w (SequenceWriter.readSnapshotClock answers spec) →
      body w = body (SequenceWriter.readSnapshotClock answers spec) := by
    intro w hw
    have hlast := congrArg SequenceState.lastTimestampNs hw.sequence
    have hanchor := congrArg SequenceState.clockAnchorNs hw.sequence
    simp only [visible] at hlast hanchor
    simp only [body, hlast, hanchor]
  have hwrite := follows_writePacket body hread hbody hspec
  cases writer with
  | none => exact hwrite
  | some w => exact hwrite

theorem follows_threadDescriptor (h : Follows writer spec)
    (hspec : SequenceWriter.threadDescriptor domain SequenceWriter.writeFromScratch answers spec =
      some spec') :
    Follows
      (writer.bind (SequenceWriter.threadDescriptor domain SequenceWriter.writePacket answers))
      spec' :=
  follows_writePacket (fun w => pure (threadDescriptorCalls answers w.sequence.threadTrackUuid)) h
    (fun w hw => by
      have huuid := congrArg SequenceState.threadTrackUuid hw.sequence
      simp only [visible] at huuid
      simp only [huuid]) hspec

theorem follows_processDescriptor (h : Follows writer spec)
    (hspec : SequenceWriter.processDescriptor config domain SequenceWriter.writeFromScratch
      answers spec = some spec') :
    Follows (writer.bind fun w => SequenceWriter.processDescriptor config domain
      SequenceWriter.writePacket answers w) spec' := by
  simp only [SequenceWriter.processDescriptor] at hspec ⊢
  split at hspec
  · rename_i hclaim
    simp only [Option.some.injEq] at hspec
    subst hspec
    simpa [hclaim] using h
  · rename_i hclaim
    simp only [Option.bind_eq_bind, Option.bind_eq_some_iff] at hspec
    obtain ⟨arguments, harguments, hspec⟩ := hspec
    simp only [hclaim, harguments, Option.bind_eq_bind, Option.bind_some]
    exact follows_writePacket (fun _ => pure (processDescriptorCalls answers arguments)) h
      (fun _ _ => rfl) hspec

theorem follows_initializeSequence (h : Follows writer spec)
    (hspec : SequenceWriter.initializeSequence config domain SequenceWriter.writeFromScratch
      answers spec = some spec') :
    Follows (writer.bind (SequenceWriter.initializeSequence config domain
      SequenceWriter.writePacket answers)) spec' := by
  have hstart := h.map markInitialized rfl fun w hw => ⟨congrArg (fun s : SequenceState =>
    { s with initialized := true }) hw.sequence, hw.valid, hw.timestampNs, hw.written⟩
  simp only [SequenceWriter.initializeSequence, Option.bind_eq_bind,
    Option.bind_eq_some_iff] at hspec
  obtain ⟨snapshot, hsnapshot, process, hprocess, hthread⟩ := hspec
  have hall := follows_threadDescriptor
    (follows_processDescriptor (follows_clockSnapshot hstart hsnapshot) hprocess) hthread
  cases writer with
  | none => exact hall
  | some w => simpa [SequenceWriter.initializeSequence, Option.bind_assoc] using hall

/-- Packets already written stay where they are. -/
theorem invariant_extends {made : Written → Prop} (domain : ClockDomain)
    (before : List Written) :
    Invariant domain (fun _ => True) made fun all _ => before <+: all where
  wrote := fun _ _ h _ => h.trans (List.prefix_append _ _)
  mark := id
  read := fun _ => id
  cache := fun _ _ => id
  clockSnapshot := fun _ _ _ => trivial
  processDescriptor := fun _ _ => trivial
  threadDescriptor := fun _ _ => trivial

theorem keeps_own (writer : SequenceWriter) :
    Keeps (fun all _ => writer.written <+: all) [] writer := List.prefix_rfl

theorem ensureInitialized_written
    (hspec : SequenceWriter.ensureInitialized config domain SequenceWriter.writeFromScratch
      answers spec = some spec') : spec.written <+: spec'.written := by
  simpa [Keeps] using (invariant_extends domain spec.written).ensureInitialized
    writes_writeFromScratch (keeps_own spec) hspec

theorem follows_ensureInitialized (h : Follows writer spec)
    (hspec : SequenceWriter.ensureInitialized config domain SequenceWriter.writeFromScratch
      answers spec = some spec') :
    Follows (writer.bind (SequenceWriter.ensureInitialized config domain
      SequenceWriter.writePacket answers)) spec' := by
  intro hfits
  obtain ⟨w, rfl, hrefines⟩ := h fun before hbefore =>
    hfits before ((ensureInitialized_written hspec).subset hbefore)
  have hsame : w.sequence.initialized = spec.sequence.initialized := by
    simpa [visible] using congrArg SequenceState.initialized hrefines.sequence
  simp only [SequenceWriter.ensureInitialized, Option.bind_some] at hspec ⊢
  rw [hsame]
  split at hspec
  · rename_i hinit
    simp only [Option.some.injEq] at hspec
    subst hspec
    rw [if_pos hinit]
    exact ⟨w, rfl, hrefines⟩
  · rename_i hinit
    rw [if_neg hinit]
    exact follows_initializeSequence (Follows.refl hrefines) hspec hfits

theorem follows_packet {body : Encode (List Op)} (h : Follows writer spec)
    (hspec : SequenceWriter.packet config domain SequenceWriter.writeFromScratch answers body
      spec = some spec') :
    Follows (writer.bind
      (SequenceWriter.packet config domain SequenceWriter.writePacket answers body)) spec' := by
  simp only [SequenceWriter.packet, Option.bind_eq_bind, Option.bind_eq_some_iff] at hspec
  obtain ⟨ready, hready, hwrite⟩ := hspec
  have hall := follows_writePacket (fun _ => body) (follows_ensureInitialized h hready)
    (fun _ _ => rfl) hwrite
  cases writer with
  | none => exact hall
  | some w => simpa [SequenceWriter.packet] using hall

theorem follows_serve {request : Request} (h : Follows writer spec)
    (hspec : SequenceWriter.serve config domain SequenceWriter.writeFromScratch spec request =
      some spec') :
    Follows (writer.bind fun w =>
      SequenceWriter.serve config domain SequenceWriter.writePacket w request) spec' := by
  cases request with
  | packet answers body => exact follows_packet h hspec
  | cacheCounterTrack name uuid =>
      simp only [SequenceWriter.serve, Option.some.injEq] at hspec
      subst hspec
      intro hfits
      obtain ⟨w, rfl, hrefines⟩ := h hfits
      have htables := visible_tables hrefines.sequence
      refine ⟨_, rfl, ?_, hrefines.valid, hrefines.timestampNs, hrefines.written⟩
      rw [htables]
      exact withTables_visible _ hrefines.sequence

theorem follows_serveAll {requests : List Request} (h : Follows writer spec)
    (hspec : requests.foldlM (SequenceWriter.serve config domain
      SequenceWriter.writeFromScratch) spec = some spec') :
    Follows (writer.bind fun w => requests.foldlM
      (SequenceWriter.serve config domain SequenceWriter.writePacket) w) spec' := by
  induction requests generalizing writer spec with
  | nil =>
      simp only [List.foldlM_nil, Option.pure_def, Option.some.injEq] at hspec
      subst hspec
      simpa using h
  | cons request requests ih =>
      simp only [List.foldlM_cons, Option.bind_eq_bind, Option.bind_eq_some_iff] at hspec
      obtain ⟨next, hnext, hrest⟩ := hspec
      have hall := ih (follows_serve h hnext) hrest
      simpa [List.foldlM_cons, Option.bind_assoc] using hall

end Lifecycle

/-- Between callbacks: the sequences agree and the saved prefix is valid. -/
def Agrees (sequence spec : SequenceState) : Prop :=
  visible sequence = visible spec ∧ PrefixValid sequence

theorem agrees_run {config : Config} {domain : ClockDomain} {callbacks : List (List Request)}
    {sequence spec spec' : SequenceState} {packets : List (List Written)}
    (h : Agrees sequence spec)
    (hspec : run config domain writeFromScratch spec callbacks = some (spec', packets))
    (hfits : ∀ packet ∈ packets.flatten, Written.Fits packet) :
    ∃ sequence', run config domain writePacket sequence callbacks =
      some (sequence', packets) ∧ Agrees sequence' spec' := by
  induction callbacks generalizing sequence spec packets with
  | nil =>
      simp only [run, Option.some.injEq, Prod.mk.injEq] at hspec ⊢
      obtain ⟨rfl, rfl⟩ := hspec
      exact ⟨sequence, ⟨rfl, rfl⟩, h⟩
  | cons requests callbacks ih =>
      simp only [run, callback, Option.bind_eq_bind, Option.bind_eq_some_iff,
        Option.some.injEq, Prod.mk.injEq] at hspec
      obtain ⟨⟨next, first⟩, ⟨writer, hserve, rfl, rfl⟩, ⟨last, rest⟩, hrest, rfl, rfl⟩ := hspec
      simp only [List.flatten_cons, List.mem_append] at hfits hrest
      have hstart : Refines (new sequence) (new spec) := ⟨h.1, h.2, rfl, rfl⟩
      obtain ⟨w, hw, hrefines⟩ := follows_serveAll (Follows.refl hstart) hserve
        fun packet hpacket => hfits packet (Or.inl hpacket)
      obtain ⟨sequence', hrun, hagrees⟩ := ih ⟨hrefines.sequence, hrefines.valid⟩ hrest
        fun packet hpacket => hfits packet (Or.inr hpacket)
      simp only [Option.bind_some] at hw
      exact ⟨sequence', by simp [run, callback, hw, hrun, hrefines.written], hagrees⟩

/-! ## What the packets of a run carry -/

/-- The header of a packet that is not the first of its sequence. -/
def laterHeader (sequenceId delta : Nat) : List Op :=
  prefixCalls sequenceId ++ [.varint TracePacket.timestamp delta]

/-- The headers of the packets of the sequence that starts as `opened`. -/
def Headers (opened : SequenceState) : List Written → Prop
  | [] => True
  | first :: rest =>
      (∃ timestamp clockId, first.header = firstPacketCalls opened timestamp clockId) ∧
        ∀ packet ∈ rest, ∃ delta, packet.header = laterHeader opened.sequenceId delta

structure Headed (opened : SequenceState) (all : List Written) (sequence : SequenceState) :
    Prop where
  sequenceId : sequence.sequenceId = opened.sequenceId
  threadTrackUuid : sequence.threadTrackUuid = opened.threadTrackUuid
  firstPacketDone : sequence.firstPacketDone = !all.isEmpty
  headers : Headers opened all

theorem Headed.of_visible {opened sequence spec : SequenceState} {all : List Written}
    (h : Headed opened all spec) (hvisible : visible sequence = visible spec) :
    Headed opened all sequence := by
  have hid := congrArg SequenceState.sequenceId hvisible
  have huuid := congrArg SequenceState.threadTrackUuid hvisible
  have hdone := congrArg SequenceState.firstPacketDone hvisible
  simp only [visible] at hid huuid hdone
  exact ⟨hid.trans h.sequenceId, huuid.trans h.threadTrackUuid, hdone.trans h.firstPacketDone,
    h.headers⟩

theorem headed_wrote {opened : SequenceState} {domain : ClockDomain} {answers : Answers}
    {writer writer' : SequenceWriter} {body : Encode (List Op)} {packet : Written}
    {all : List Written} (h : Headed opened all writer.sequence)
    (hwrote : Wrote domain answers writer body writer' packet) :
    Headed opened (all ++ [packet]) writer'.sequence := by
  refine Headed.of_visible ?_ hwrote.sequence
  have hheader := hwrote.header
  obtain ⟨hid, huuid, hdone, hheaders⟩ := h
  cases all with
  | nil =>
      simp only [List.isEmpty_nil, Bool.not_true] at hdone
      simp only [SequenceState.header, hdone, Bool.false_eq_true, if_false] at hheader ⊢
      have hcalls : ∀ timestamp clockId, firstPacketCalls writer.sequence timestamp clockId =
          firstPacketCalls opened timestamp clockId := by
        intro timestamp clockId
        rw [firstPacketCalls, firstPacketCalls, hid, huuid]
      rw [hcalls] at hheader
      exact ⟨hid, huuid, rfl, ⟨_, _, hheader⟩, by simp⟩
  | cons first rest =>
      simp only [List.isEmpty_cons, Bool.not_false] at hdone
      simp only [SequenceState.header, hdone, if_true] at hheader ⊢
      refine ⟨hid, huuid, by simp [SequenceState.withTables], hheaders.1, ?_⟩
      intro later hlater
      obtain hbefore | rfl := List.mem_append.1 hlater |>.imp_right List.mem_singleton.1
      · exact hheaders.2 later hbefore
      · exact ⟨_, by rw [hheader, hid, laterHeader]⟩

theorem invariant_headed {made : Written → Prop} (opened : SequenceState)
    (domain : ClockDomain) : Invariant domain (fun _ => True) made (Headed opened) where
  wrote := fun _ _ h hwrote => headed_wrote h hwrote
  mark := fun h => ⟨h.sequenceId, h.threadTrackUuid, h.firstPacketDone, h.headers⟩
  read := fun _ h => ⟨h.sequenceId, h.threadTrackUuid, h.firstPacketDone, h.headers⟩
  cache := fun _ _ h => ⟨h.sequenceId, h.threadTrackUuid, h.firstPacketDone, h.headers⟩
  clockSnapshot := fun _ _ _ => trivial
  processDescriptor := fun _ _ => trivial
  threadDescriptor := fun _ _ => trivial

/-- The packet carries the calls that the body made. -/
def Encodes (body : Encode (List Op)) (packet : Written) : Prop :=
  ∃ tables, packet.body = (body tables).1

def Request.bodies : Request → List (Encode (List Op))
  | .packet _ body => [body]
  | .cacheCounterTrack _ _ => []

/-- `packets` carry `bodies` in order, behind the packets that bring the sequence up
if it was not initialised before. -/
structure Serves (before : Bool) (bodies : List (Encode (List Op))) (packets : List Written)
    (after : Bool) : Prop where
  carries : ∃ preamble own, packets = preamble ++ own ∧ List.Forall₂ Encodes bodies own ∧
    (before = true ∨ bodies = [] → preamble = [])
  stays : before = true → after = true
  starts : bodies ≠ [] → after = true

theorem Serves.nil (before : Bool) : Serves before [] [] before :=
  ⟨⟨[], [], rfl, .nil, fun _ => rfl⟩, id, fun h => absurd rfl h⟩

theorem Serves.append {before between after : Bool} {bodies more : List (Encode (List Op))}
    {packets next : List Written} (h : Serves before bodies packets between)
    (hmore : Serves between more next after) :
    Serves before (bodies ++ more) (packets ++ next) after := by
  obtain ⟨⟨preamble, own, rfl, howns, hpreamble⟩, hstays, hstarts⟩ := h
  obtain ⟨⟨preamble', own', rfl, howns', hpreamble'⟩, hstays', hstarts'⟩ := hmore
  refine ⟨?_, fun hb => hstays' (hstays hb), fun hne => ?_⟩
  · cases howns with
    | nil =>
        have hnone := hpreamble (Or.inr rfl)
        subst hnone
        refine ⟨preamble', own', by simp, howns', ?_⟩
        rintro (hb | hempty)
        · exact hpreamble' (Or.inl (hstays hb))
        · exact hpreamble' (Or.inr hempty)
    | cons hfirst hrest =>
        have hnone := hpreamble' (Or.inl (hstarts (by simp)))
        subst hnone
        refine ⟨preamble, _, by simp [List.append_assoc],
          List.rel_append (.cons hfirst hrest) howns', ?_⟩
        rintro (hb | hempty)
        · exact hpreamble (Or.inl hb)
        · simp at hempty
  · by_cases hmore : more = []
    · exact hstays' (hstarts (by simpa [hmore] using hne))
    · exact hstarts' hmore

theorem initialized_wrote {domain : ClockDomain} {answers : Answers}
    {writer writer' : SequenceWriter} {body : Encode (List Op)} {packet : Written}
    (h : writer.sequence.initialized = true)
    (hwrote : Wrote domain answers writer body writer' packet) :
    writer'.sequence.initialized = true := by
  have hvisible := congrArg SequenceState.initialized hwrote.sequence
  have hheader : (writer.sequence.header domain answers
      (writer.timestamp answers).1).2.initialized = writer.sequence.initialized := by
    cases hfirst : writer.sequence.firstPacketDone <;> simp [SequenceState.header, hfirst]
  simp only [visible, SequenceState.withTables] at hvisible
  rw [hvisible, hheader, h]

theorem invariant_initialized {made : Written → Prop} (domain : ClockDomain) :
    Invariant domain (fun _ => True) made fun _ sequence =>
      sequence.initialized = true where
  wrote := fun _ _ h hwrote => initialized_wrote h hwrote
  mark := fun _ => rfl
  read := fun _ h => h
  cache := fun _ _ h => h
  clockSnapshot := fun _ _ _ => trivial
  processDescriptor := fun _ _ => trivial
  threadDescriptor := fun _ _ => trivial

section Served

variable {config : Config} {domain : ClockDomain}

theorem ensureInitialized_initialized {answers : Answers} {writer writer' : SequenceWriter}
    (h : SequenceWriter.ensureInitialized config domain writeFromScratch answers writer =
      some writer') : writer'.sequence.initialized = true := by
  simp only [SequenceWriter.ensureInitialized] at h
  split at h
  · rename_i hinit
    simp only [Option.some.injEq] at h
    rwa [← h]
  · have hmarked : Keeps (fun _ sequence => sequence.initialized = true) []
        (markInitialized writer) := rfl
    exact (invariant_initialized domain).initializeSequence writes_writeFromScratch hmarked h

theorem serve_serves {writer writer' : SequenceWriter} {request : Request}
    (h : SequenceWriter.serve config domain writeFromScratch writer request = some writer') :
    ∃ packets, writer'.written = writer.written ++ packets ∧
      Serves writer.sequence.initialized (Request.bodies request) packets
        writer'.sequence.initialized := by
  cases request with
  | cacheCounterTrack name uuid =>
      simp only [SequenceWriter.serve, Option.some.injEq] at h
      subst h
      exact ⟨[], by simp, Serves.nil _⟩
  | packet answers body =>
      simp only [SequenceWriter.serve, SequenceWriter.packet, Option.bind_eq_bind,
        Option.bind_eq_some_iff] at h
      obtain ⟨ready, hready, hwrite⟩ := h
      obtain ⟨packet, _, hwrote⟩ := writes_writeFromScratch _ _ _ _ _ hwrite
      obtain ⟨preamble, hpreamble⟩ := ensureInitialized_written hready
      have hinit := ensureInitialized_initialized hready
      have hinit' := initialized_wrote hinit hwrote
      refine ⟨preamble ++ [packet], by rw [hwrote.written, ← hpreamble, List.append_assoc],
        ⟨preamble, [packet], rfl, .cons ⟨_, hwrote.body⟩ .nil, ?_⟩, fun _ => hinit',
        fun _ => hinit'⟩
      rintro (hbefore | hnone)
      · simp only [SequenceWriter.ensureInitialized, hbefore, if_true, Option.some.injEq] at hready
        simpa [hready] using hpreamble
      · simp [Request.bodies] at hnone

theorem serveAll_serves {requests : List Request} {writer writer' : SequenceWriter}
    (h : requests.foldlM (SequenceWriter.serve config domain writeFromScratch) writer =
      some writer') :
    ∃ packets, writer'.written = writer.written ++ packets ∧
      Serves writer.sequence.initialized (requests.flatMap Request.bodies) packets
        writer'.sequence.initialized := by
  induction requests generalizing writer with
  | nil =>
      simp only [List.foldlM_nil, Option.pure_def, Option.some.injEq] at h
      subst h
      exact ⟨[], by simp, Serves.nil _⟩
  | cons request requests ih =>
      simp only [List.foldlM_cons, Option.bind_eq_bind, Option.bind_eq_some_iff] at h
      obtain ⟨next, hnext, hrest⟩ := h
      obtain ⟨first, hfirst, hserves⟩ := serve_serves hnext
      obtain ⟨rest, hrest', hserves'⟩ := ih hrest
      exact ⟨first ++ rest, by rw [hrest', hfirst, List.append_assoc],
        hserves.append hserves'⟩

theorem run_serves {callbacks : List (List Request)} {sequence sequence' : SequenceState}
    {packets : List (List Written)}
    (h : run config domain writeFromScratch sequence callbacks = some (sequence', packets)) :
    Serves sequence.initialized (callbacks.flatten.flatMap Request.bodies) packets.flatten
      sequence'.initialized := by
  induction callbacks generalizing sequence packets with
  | nil =>
      simp only [run, Option.some.injEq, Prod.mk.injEq] at h
      obtain ⟨rfl, rfl⟩ := h
      exact Serves.nil _
  | cons requests callbacks ih =>
      simp only [run, callback, Option.bind_eq_bind, Option.bind_eq_some_iff,
        Option.some.injEq, Prod.mk.injEq] at h
      obtain ⟨⟨next, first⟩, ⟨writer, hserve, rfl, rfl⟩, ⟨last, rest⟩, hrest, rfl, rfl⟩ := h
      obtain ⟨own, hown, hserves⟩ := serveAll_serves hserve
      simp only [new, List.nil_append] at hown hserves
      rw [hown]
      simpa using hserves.append (ih hrest)

end Served

/-- Whole packets decode one after the other, each to the fields of its calls. -/
theorem decodes_packets (packets : List Written)
    (hframed : ∀ packet ∈ packets, Written.Framed packet)
    (hrange : ∀ packet ∈ packets, Op.AllInRange packet.calls)
    (hfits : ∀ packet ∈ packets, Written.Fits packet) :
    Decodes (packets.flatMap Written.bytes)
      (packets.map fun packet => .message Trace.packet (Op.fields packet.calls)) := by
  induction packets with
  | nil => exact Decodes.nil
  | cons packet packets ih =>
      simp only [List.forall_mem_cons] at hframed hrange hfits
      have hlen : maxMessageLen < 2 ^ 64 := by decide
      rw [List.flatMap_cons, List.map_cons, hframed.1]
      exact Decodes.framed (by decide) hfits.1.2
        (Op.decodesAll packet.calls hrange.1 hfits.1.1 (lt_of_le_of_lt hfits.1.2 hlen))
        (ih hframed.2 hrange.2 hfits.2)

theorem invariant_framed (domain : ClockDomain) :
    Invariant domain (fun _ => True) Written.Framed fun all _ =>
      ∀ packet ∈ all, Written.Framed packet where
  wrote := by
    intro all answers writer body writer' packet _ hmade h _
    simpa [or_imp, forall_and] using ⟨h, hmade⟩
  mark := id
  read := fun _ => id
  cache := fun _ _ => id
  clockSnapshot := fun _ _ _ => trivial
  processDescriptor := fun _ _ => trivial
  threadDescriptor := fun _ _ => trivial

theorem allowed_all (callbacks : List (List Request)) :
    ∀ requests ∈ callbacks, ∀ request ∈ requests, Request.Allowed (fun _ => True) request := by
  intro requests _ request _
  cases request <;> exact trivial

/-- The bytes of a run are its packets, each with its header and its body, and the
recycled buffer makes no difference. -/
theorem run_round_trip {config : Config} {domain : ClockDomain}
    {sequenceId threadTrackUuid clockAnchorNs : Nat} {callbacks : List (List Request)}
    {spec : SequenceState} {packets : List (List Written)}
    (hrun : run config domain writeFromScratch
      (SequenceState.new sequenceId threadTrackUuid clockAnchorNs) callbacks =
        some (spec, packets))
    (hrange : ∀ packet ∈ packets.flatten, Op.AllInRange packet.calls)
    (hfits : ∀ packet ∈ packets.flatten, Written.Fits packet) :
    (∃ sequence, run config domain writePacket
      (SequenceState.new sequenceId threadTrackUuid clockAnchorNs) callbacks =
        some (sequence, packets)) ∧
    Decodes (packets.flatten.flatMap Written.bytes)
      (packets.flatten.map fun packet => .message Trace.packet
        (Op.fields packet.header ++ (Op.fields packet.body ++ Op.fields packet.interned))) ∧
    Headers (SequenceState.new sequenceId threadTrackUuid clockAnchorNs) packets.flatten ∧
    ∃ preamble own, packets.flatten = preamble ++ own ∧
      List.Forall₂ Encodes (callbacks.flatten.flatMap Request.bodies) own := by
  have hopened : Agrees (SequenceState.new sequenceId threadTrackUuid clockAnchorNs)
      (SequenceState.new sequenceId threadTrackUuid clockAnchorNs) := ⟨rfl, Or.inl rfl⟩
  obtain ⟨sequence, hlayer, _⟩ := agrees_run hopened hrun hfits
  have hframed : ∀ packet ∈ packets.flatten, Written.Framed packet := by
    simpa using (invariant_framed domain).run writes_writeFromScratch []
      (allowed_all callbacks) (by simp) hrun
  have hheaded := (invariant_headed _ domain).run writes_writeFromScratch []
    (allowed_all callbacks) ⟨rfl, rfl, rfl, trivial⟩ hrun
  obtain ⟨preamble, own, hpackets, hown, _⟩ := (run_serves hrun).carries
  refine ⟨⟨sequence, hlayer⟩, ?_, hheaded.headers, preamble, own, hpackets, hown⟩
  simpa [Written.calls, Op.fields_append] using
    decodes_packets packets.flatten hframed hrange hfits

def sampleCallback : List Request :=
  [.packet ⟨140, 9, 9, none, true, 77, 4, [112], [none], 5, [116]⟩
    (pure [.message 11 [.varint 9 1, .redundantVarint 11 300, .message 4 [.fmt 6 [[97], [98]]]],
      .fixed64 47 (2 ^ 64 - 1), .double 46 5, .string 23 [99, 100]])]

def sampleRun : Option (SequenceState × List (List Written)) :=
  run ⟨.both, true, false, false, false, false⟩ (.builtin 6) writeFromScratch
      (SequenceState.new 65536 3 100) [sampleCallback, sampleCallback]

theorem sampleRun_isSome : sampleRun.isSome = true := by decide +kernel

theorem run_round_trip_two_callbacks : ∃ sequence packets,
    run ⟨.both, true, false, false, false, false⟩ (.builtin 6) writePacket
      (SequenceState.new 65536 3 100) [sampleCallback, sampleCallback] =
        some (sequence, packets) ∧ packets.map List.length = [4, 1] := by
  obtain ⟨⟨sequence, hrun⟩, _⟩ := @run_round_trip _ _ _ _ _ _ _
    (sampleRun.get sampleRun_isSome).2 (Option.some_get sampleRun_isSome).symm
    (by decide +kernel) (by decide +kernel)
  exact ⟨sequence, _, hrun, by decide +kernel⟩

end TracingPerfetto.PacketRoundTrip
