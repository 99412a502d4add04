import TracingPerfetto.PacketRoundTrip

/-!
Packets whose drop unwinds. A packet takes the scratch buffer when it starts and hands
it back as the last thing that its drop does; the saved prefix stays in the sequence
all the time. A panic in between is caught by the application, which goes on tracing.
-/

namespace TracingPerfetto.Unwinding

open TracingPerfetto.Wire TracingPerfetto.Proto TracingPerfetto.Runtime
open TracingPerfetto.Schema TracingPerfetto.Sequence TracingPerfetto.SequenceRuns
open TracingPerfetto.PacketRoundTrip

/-- `Packet::drop` with its panics: the sequence after it, and the packet's bytes if
they were handed over. `writerPanics` is the user's writer, in the drain. -/
def dropPacket (writerPanics : Bool) (packet : Packet) : SequenceState × Option Bytes :=
  match packet.write packet.sequence.tables.emitInternedData.1 with
  | none => (packet.sequence, none)
  | some packet =>
      let sequence := packet.sequence.withTables packet.sequence.tables.emitInternedData.2
      -- The payload length would underflow.
      if packet.proto.buf.length < packet.root.payloadStart then (sequence, none)
      else
        match packet.proto.finishMessage packet.root with
        | none => (sequence, none)
        | some proto =>
            if writerPanics then (sequence, none)
            else ({ sequence with scratch := proto }, some proto.buf)

/-- What happens on a sequence; the raw timestamp is the callback's. -/
inductive Action where
  | packet (domain : ClockDomain) (answers : Answers) (raw : Nat) (body : Encode (List Op))
      (writerPanics : Bool)
  | markInitialized
  | readClock (raw : Nat)
  | cacheCounterTrack (name : StaticStr) (uuid : Nat)

/-- One packet, as far as it got. -/
structure Step where
  before : SequenceState
  header : List Op
  body : List Op
  interned : List Op
  after : SequenceState
  bytes : Option Bytes

def Step.panicked (step : Step) : Bool := step.bytes.isNone

/-- `packet_without_initialization`, the body and the drop. A message scope inside the
packet that is too long aborts the process, as the packet around it is too long as
well and its drop panics while unwinding. -/
def writePacket (domain : ClockDomain) (answers : Answers) (raw : Nat)
    (body : Encode (List Op)) (writerPanics : Bool) (sequence : SequenceState) :
    Option Step := do
  let packet ← sequence.packetWithoutInitialization domain answers raw
  let calls := (body packet.sequence.tables).1
  let tables := (body packet.sequence.tables).2
  let packet ← (packet.withTables tables).write calls
  some ⟨sequence, (sequence.header domain answers raw).1, calls, tables.emitInternedData.1,
    (dropPacket writerPanics packet).1, (dropPacket writerPanics packet).2⟩

/-- The packets of a run, caught panics included. -/
def run : SequenceState → List Action → Option (List Step)
  | _, [] => some []
  | sequence, .packet domain answers raw body writerPanics :: actions => do
      let step ← writePacket domain answers raw body writerPanics sequence
      let steps ← run step.after actions
      some (step :: steps)
  | sequence, .markInitialized :: actions => run { sequence with initialized := true } actions
  | sequence, .readClock raw :: actions => run { sequence with lastTimestampNs := raw } actions
  | sequence, .cacheCounterTrack name uuid :: actions =>
      run (sequence.withTables (sequence.tables.cacheCounterTrack name uuid)) actions

/-- The next packet finds its prefix, and this one came out whole unless it panicked. -/
structure Survives (step : Step) : Prop where
  valid : PrefixValid step.after
  whole : ∀ bytes, step.bytes = some bytes →
    bytes = framed Trace.packet
      (Op.encodedAll (step.header ++ (step.body ++ step.interned)))

/-! ## One packet -/

theorem header_fits (domain : ClockDomain) (answers : Answers) (sequence : SequenceState)
    (raw : Nat) : Op.FitAll (sequence.header domain answers raw).1 := by
  have hvarint : ∀ value, (varintBytes value).length ≤ 10 := fun value =>
    writeVarintLoop_rounds 10 value
  have hmax : 1000 ≤ maxMessageLen := by decide
  have htags : ∀ id wireType, (tagBytes id wireType).length ≤ 10 := fun id wireType =>
    hvarint _
  cases hfirst : sequence.firstPacketDone with
  | true => simp [SequenceState.header, hfirst, prefixCalls, Op.FitAll, Op.Fits]
  | false =>
      simp only [SequenceState.header, hfirst, Bool.false_eq_true, if_false, firstPacketCalls,
        Op.FitAll, Op.Fits, true_and, and_true, Op.encodedAll, Op.encoded, framed,
        List.append_nil, List.length_append, redundantGroups_length]
      have hclock := hvarint ClockSnapshot.customClockId
      have hfirst := htags TracePacketDefaults.timestampClockId .varint
      have hsecond := htags TracePacketDefaults.trackEventDefaults .delimited
      have hthird := htags TrackEventDefaults.trackUuid .varint
      have hslot : messageLenPrefixSize = 4 := rfl
      omega

theorem opened_sequence {domain : ClockDomain} {answers : Answers} {sequence : SequenceState}
    {raw : Nat} {packet : Packet}
    (h : sequence.packetWithoutInitialization domain answers raw = some packet) :
    packet.sequence.scratch = ProtoBuffer.empty ∧
      (sequence.firstPacketDone = true → packet.sequence.packetPrefix ≠ none) ∧
      (sequence.firstPacketDone = false →
        packet.sequence.packetPrefix = sequence.packetPrefix) := by
  obtain ⟨hsequence, hflag⟩ := openPacket_sequence sequence
  simp only [SequenceState.packetWithoutInitialization] at h
  generalize sequence.openPacket = opened at *
  obtain ⟨⟨taken, proto, root⟩, reused⟩ := opened
  simp only at hsequence hflag h
  subst hsequence
  cases hfirst : sequence.firstPacketDone with
  | false =>
      simp only [hfirst, Bool.false_eq_true, if_false] at h
      rw [write_sequence h]
      exact ⟨rfl, by simp, fun _ => rfl⟩
  | true =>
      simp only [hfirst, if_true, Option.bind_eq_bind] at h
      cases reused with
      | true =>
          simp only [if_true, Option.bind_some] at h
          rw [write_sequence h]
          refine ⟨rfl, fun _ => ?_, by simp⟩
          exact Option.isSome_iff_ne_none.1 hflag.symm
      | false =>
          simp only [Bool.false_eq_true, if_false, Option.bind_eq_some_iff,
            Packet.initializePacketPrefix, Option.bind_eq_bind, Option.some.injEq] at h
          obtain ⟨saved, ⟨written, hsaved, rfl⟩, hwrite⟩ := h
          rw [write_sequence hwrite]
          refine ⟨?_, fun _ => Option.some_ne_none _, by simp⟩
          exact congrArg SequenceState.scratch (write_sequence hsaved)

theorem dropPacket_panicked {writerPanics : Bool} {packet : Packet}
    (hscratch : packet.sequence.scratch = ProtoBuffer.empty)
    (h : (dropPacket writerPanics packet).2 = none) :
    (dropPacket writerPanics packet).1.scratch = ProtoBuffer.empty ∧
      (dropPacket writerPanics packet).1.packetPrefix = packet.sequence.packetPrefix := by
  simp only [dropPacket] at h ⊢
  cases hwrite : packet.write packet.sequence.tables.emitInternedData.1 with
  | none => exact ⟨hscratch, rfl⟩
  | some written =>
      have hsequence := write_sequence hwrite
      simp only [hwrite] at h ⊢
      rw [hsequence] at h ⊢
      split at h
      · rename_i hshort
        simp only [hshort, if_true]
        exact ⟨hscratch, rfl⟩
      · rename_i hlong
        simp only [hlong, if_false]
        cases hfinish : written.proto.finishMessage written.root with
        | none => exact ⟨hscratch, rfl⟩
        | some proto =>
            cases writerPanics with
            | true => exact ⟨hscratch, rfl⟩
            | false => simp [hfinish] at h

theorem dropPacket_completed {writerPanics : Bool} {packet : Packet} {calls : List Op}
    {bytes : Bytes} (hholds : Holds packet calls) (hsaved : PrefixOf packet.sequence calls)
    (h : (dropPacket writerPanics packet).2 = some bytes) :
    PrefixValid (dropPacket writerPanics packet).1 ∧
      bytes = framed Trace.packet
        (Op.encodedAll (calls ++ packet.sequence.tables.emitInternedData.1)) := by
  simp only [dropPacket] at h ⊢
  cases hwrite : packet.write packet.sequence.tables.emitInternedData.1 with
  | none => simp [hwrite] at h
  | some written =>
      have hfit : Op.FitAll packet.sequence.tables.emitInternedData.1 := by
        simp only [Packet.write, Option.bind_eq_bind, Option.bind_eq_some_iff] at hwrite
        obtain ⟨proto, hrun, -⟩ := hwrite
        exact Op.fitAll_of_runAll _ hrun
      obtain ⟨packet', hwrite', hholds', hsequence⟩ := hholds.write hfit
      obtain rfl : written = packet' := Option.some.inj (hwrite.symm.trans hwrite')
      simp only [hwrite] at h ⊢
      rw [hsequence] at h ⊢
      split at h
      · simp at h
      · rename_i hlong
        simp only [hlong, if_false]
        by_cases hlen : (Op.encodedAll
            (calls ++ packet.sequence.tables.emitInternedData.1)).length ≤ maxMessageLen
        · rw [hholds'.finish hlen] at h ⊢
          cases writerPanics with
          | true => simp at h
          | false =>
              simp only [Bool.false_eq_true, if_false, Option.some.injEq] at h ⊢
              refine ⟨Or.inr ⟨_, redundantGroups messageLenPrefixSize _,
                redundantGroups_length _ _, rfl, ?_⟩, h.symm⟩
              exact hsaved.append _
        · obtain ⟨slot, hslot, hbuf⟩ := hholds'.buf
          have hproto : written.proto = ⟨packetTag ++ (slot ++ Op.encodedAll
              (calls ++ packet.sequence.tables.emitInternedData.1))⟩ :=
            congrArg ProtoBuffer.mk hbuf
          rw [hholds'.root, hproto, rootToken, finishMessage_slot _ _ _ hslot,
            if_neg hlen] at h
          simp at h

theorem writePacket_survives {domain : ClockDomain} {answers : Answers} {raw : Nat}
    {body : Encode (List Op)} {writerPanics : Bool} {sequence : SequenceState} {step : Step}
    (hvalid : PrefixValid sequence)
    (h : writePacket domain answers raw body writerPanics sequence = some step)
    (hfirst : step.panicked = true → step.before.firstPacketDone = false) :
    Survives step := by
  have hheader : Op.FitAll (sequence.header domain answers raw).1 :=
    header_fits domain answers sequence raw
  obtain ⟨opened, hopen, hholds, -, hsaved⟩ := packetWithoutInitialization_holds hvalid hheader
  simp only [writePacket, hopen, Option.bind_eq_bind, Option.bind_some,
    Option.bind_eq_some_iff, Option.some.injEq] at h
  obtain ⟨packet, hwrite, rfl⟩ := h
  obtain ⟨hscratch, -, hkept⟩ := opened_sequence hopen
  have hfit : Op.FitAll (body opened.sequence.tables).1 := by
    simp only [Packet.write, Option.bind_eq_bind, Option.bind_eq_some_iff] at hwrite
    obtain ⟨proto, hrun, -⟩ := hwrite
    exact Op.fitAll_of_runAll _ hrun
  obtain ⟨packet', hwrite', hholds', hsequence⟩ :=
    (hholds.withTables (body opened.sequence.tables).2).write hfit
  obtain rfl : packet = packet' := Option.some.inj (hwrite.symm.trans hwrite')
  have hsaved' : PrefixOf packet.sequence
      ((sequence.header domain answers raw).1 ++ (body opened.sequence.tables).1) := by
    rw [hsequence]
    exact PrefixOf.append hsaved _
  have htables : packet.sequence.tables = (body opened.sequence.tables).2 := by
    rw [hsequence]
    rfl
  cases hbytes : (dropPacket writerPanics packet).2 with
  | some bytes =>
      obtain ⟨hafter, hwhole⟩ := dropPacket_completed hholds' hsaved' hbytes
      refine ⟨hafter, ?_⟩
      intro other hother
      simp only [Option.some.injEq] at hother
      rw [← hother, hwhole, htables, List.append_assoc]
  | none =>
      have hnotDone : sequence.firstPacketDone = false := hfirst (by
        simp [Step.panicked, hbytes])
      have hpacket : packet.sequence.scratch = ProtoBuffer.empty := by
        rw [hsequence]
        exact hscratch
      obtain ⟨-, hheld⟩ := dropPacket_panicked hpacket hbytes
      have hnone : sequence.packetPrefix = none := by
        obtain hnone | ⟨calls, slot, -, -, hcalls⟩ := hvalid
        · exact hnone
        · cases hprefixed : sequence.packetPrefix with
          | none => rfl
          | some saved =>
              have hdone := (hcalls _ _ hprefixed).2.2.1
              rw [hdone] at hnotDone
              exact absurd hnotDone (by decide)
      refine ⟨Or.inl ?_, ?_⟩
      · rw [hheld, hsequence]
        exact (hkept hnotDone).trans hnone
      · intro bytes hother
        simp at hother

theorem not_prefixValid {sequence : SequenceState} (hscratch : sequence.scratch = ProtoBuffer.empty)
    (hheld : sequence.packetPrefix ≠ none) : ¬ PrefixValid sequence := by
  rintro (hnone | ⟨calls, slot, -, hbuf, -⟩)
  · exact hheld hnone
  · rw [hscratch] at hbuf
    have hlength := congrArg List.length hbuf
    have htag : 0 < packetTag.length := by decide
    simp only [ProtoBuffer.empty, List.length_nil, List.length_append] at hlength
    omega

theorem writePacket_panicked {domain : ClockDomain} {answers : Answers} {raw : Nat}
    {body : Encode (List Op)} {writerPanics : Bool} {sequence : SequenceState} {step : Step}
    (h : writePacket domain answers raw body writerPanics sequence = some step)
    (hpanicked : step.panicked = true) (hdone : step.before.firstPacketDone = true) :
    ¬ PrefixValid step.after := by
  simp only [writePacket, Option.bind_eq_bind, Option.bind_eq_some_iff,
    Option.some.injEq] at h
  obtain ⟨opened, hopen, packet, hwrite, rfl⟩ := h
  obtain ⟨hscratch, hheld, -⟩ := opened_sequence hopen
  have hsequence := write_sequence hwrite
  have hbytes : (dropPacket writerPanics packet).2 = none := by
    simpa [Step.panicked] using hpanicked
  have hpacket : packet.sequence.scratch = ProtoBuffer.empty := by
    rw [hsequence]
    exact hscratch
  obtain ⟨hempty, hkept⟩ := dropPacket_panicked hpacket hbytes
  apply not_prefixValid hempty
  rw [hkept, hsequence]
  exact hheld hdone

/-! ## Runs -/

theorem run_survives_iff {sequence : SequenceState} {actions : List Action} {steps : List Step}
    (hvalid : PrefixValid sequence) (hrun : run sequence actions = some steps) :
    (∀ step ∈ steps, Survives step) ↔
      ∀ step ∈ steps, step.panicked = true → step.before.firstPacketDone = false := by
  induction actions generalizing sequence steps with
  | nil =>
      simp only [run, Option.some.injEq] at hrun
      subst hrun
      simp
  | cons action actions ih =>
      cases action with
      | markInitialized =>
          have hnext : PrefixValid { sequence with initialized := true } := hvalid
          exact ih hnext hrun
      | readClock raw =>
          have hnext : PrefixValid { sequence with lastTimestampNs := raw } := hvalid
          exact ih hnext hrun
      | cacheCounterTrack name uuid =>
          have hnext : PrefixValid (sequence.withTables
              (sequence.tables.cacheCounterTrack name uuid)) := hvalid
          exact ih hnext hrun
      | packet domain answers raw body writerPanics =>
          simp only [run, Option.bind_eq_bind, Option.bind_eq_some_iff,
            Option.some.injEq] at hrun
          obtain ⟨step, hstep, rest, hrest, rfl⟩ := hrun
          rw [List.forall_mem_cons, List.forall_mem_cons]
          constructor
          · rintro ⟨hsurvives, hall⟩
            refine ⟨?_, (ih hsurvives.valid hrest).1 hall⟩
            intro hpanicked
            by_contra hdone
            rw [Bool.not_eq_false] at hdone
            exact writePacket_panicked hstep hpanicked hdone hsurvives.valid
          · rintro ⟨hfirst, hall⟩
            have hsurvives := writePacket_survives hvalid hstep hfirst
            exact ⟨hsurvives, (ih hsurvives.valid hrest).2 hall⟩

/-- In a run of packets on a sequence, every next packet finds the complete prefix, and
every packet comes out whole, exactly when only the first packet of the sequence
panics. -/
theorem buffer_survives_iff {sequenceId threadTrackUuid clockAnchorNs : Nat}
    {actions : List Action} {steps : List Step}
    (hrun : run (SequenceState.new sequenceId threadTrackUuid clockAnchorNs) actions =
      some steps) :
    (∀ step ∈ steps, Survives step) ↔
      ∀ step ∈ steps, step.panicked = true → step.before.firstPacketDone = false :=
  run_survives_iff (Or.inl rfl) hrun

def samplePacket (writerPanics : Bool) : Action :=
  .packet (.builtin 6) ⟨140, 9, 9, none, true, 77, 4, [112], [], 5, [116]⟩ 140
    (pure [.message 11 [.varint 9 1]]) writerPanics

def sampleRun (first second : Bool) : Option (List Step) :=
  run (SequenceState.new 65536 3 100)
    [samplePacket first, samplePacket second, samplePacket false]

theorem sampleRun_isSome : (sampleRun false true).isSome = true ∧
    (sampleRun true false).isSome = true := by
  decide +kernel

/-- After a panic in the second packet the third one starts without a header. -/
theorem buffer_lost : ∃ steps, sampleRun false true = some steps ∧
    ¬ ∀ step ∈ steps, Survives step := by
  obtain ⟨steps, hrun⟩ := Option.isSome_iff_exists.1 sampleRun_isSome.1
  refine ⟨steps, hrun, ?_⟩
  intro hall
  have hlost : (sampleRun false true).map (fun steps => steps.any fun step =>
      step.after.scratch.buf.isEmpty && step.after.packetPrefix.isSome) = some true := by
    decide +kernel
  rw [hrun, Option.map_some, Option.some.injEq, List.any_eq_true] at hlost
  obtain ⟨step, hstep, hempty⟩ := hlost
  simp only [Bool.and_eq_true, List.isEmpty_iff] at hempty
  have hscratch : step.after.scratch = ProtoBuffer.empty := congrArg ProtoBuffer.mk hempty.1
  exact not_prefixValid hscratch (Option.isSome_iff_ne_none.1 hempty.2) (hall step hstep).valid

theorem buffer_survives_iff_first : ∃ steps, sampleRun true false = some steps ∧
    (∀ step ∈ steps, Survives step) ∧ steps.map Step.panicked = [true, false, false] := by
  obtain ⟨steps, hrun⟩ := Option.isSome_iff_exists.1 sampleRun_isSome.2
  have hpanicked : (sampleRun true false).map (fun steps => steps.map Step.panicked) =
      some [true, false, false] := by decide +kernel
  have hfirst : (sampleRun true false).map (fun steps => steps.all fun step =>
      !step.panicked || !step.before.firstPacketDone) = some true := by decide +kernel
  rw [hrun, Option.map_some, Option.some.injEq] at hpanicked hfirst
  refine ⟨steps, hrun, (buffer_survives_iff hrun).2 ?_, hpanicked⟩
  intro step hstep hpanic
  simpa [hpanic] using List.all_eq_true.1 hfirst step hstep

end TracingPerfetto.Unwinding
