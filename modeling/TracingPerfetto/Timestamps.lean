import TracingPerfetto.SequenceRuns
import TracingPerfetto.TrackEvents

/-!
Timestamps of a sequence. A packet that names no clock counts on from the packet
before it, on the incremental clock of the sequence's clock snapshot; the decoder
here keeps that count, and every packet comes out at the clock reading of the
callback that wrote it.
-/

namespace TracingPerfetto.Timestamps

open TracingPerfetto.Wire TracingPerfetto.Proto TracingPerfetto.Runtime
open TracingPerfetto.Schema TracingPerfetto.Sequence
open TracingPerfetto.Sequence.SequenceWriter TracingPerfetto.SequenceRuns
open TracingPerfetto.TrackEvents

/-! ## The decoder -/

/-- A clock snapshot's (custom, builtin) pair and the custom clock now. -/
structure Offset where
  custom : Nat
  builtin : Nat
  current : Nat
  deriving DecidableEq, Repr

/-- The trace clock time that the custom clock stands at. -/
def Offset.time (offset : Offset) : Nat :=
  offset.builtin + (offset.current - offset.custom)

/-- The clocks of a snapshot message, by clock id. -/
def clockReadings (snapshot : List Field) : List (Nat × Nat) :=
  (messages ClockSnapshot.clocks snapshot).map fun clock =>
    ((varints ClockSnapshot.clockId clock).headD 0,
      (varints ClockSnapshot.clockTimestamp clock).headD 0)

/-- The snapshot in a packet restarts the custom clock. -/
def readSnapshot (clockId : Nat) (packet : List Field) (offset : Option Offset) :
    Option Offset :=
  match messages TracePacket.clockSnapshot packet with
  | [] => offset
  | snapshot :: _ => do
      let custom ← (clockReadings snapshot).lookup ClockSnapshot.customClockId
      let builtin ← (clockReadings snapshot).lookup clockId
      some ⟨custom, builtin, custom⟩

/-- The trace clock time of a packet and the clock after it. A packet that names the
trace clock carries its time as it is. -/
def decodeTime (clockId : Nat) (offset : Option Offset) (packet : List Field) :
    Option Nat × Option Offset :=
  match (varints TracePacket.timestamp packet).head?,
      (varints TracePacket.timestampClockId packet).head? with
  | some timestamp, some clock =>
      (if clock = clockId then some timestamp else none, readSnapshot clockId packet offset)
  | some delta, none =>
      let counted := offset.map fun offset =>
        { offset with current := offset.current + delta }
      (counted.map Offset.time, readSnapshot clockId packet counted)
  | none, _ => (none, readSnapshot clockId packet offset)

def decodeTimes (clockId : Nat) : Option Offset → List (List Field) →
    List (Option Nat) × Option Offset
  | offset, [] => ([], offset)
  | offset, packet :: packets =>
      let (time, next) := decodeTime clockId offset packet
      let (times, last) := decodeTimes clockId next packets
      (time :: times, last)

theorem decodeTimes_append (clockId : Nat) (offset : Option Offset)
    (packets more : List (List Field)) :
    decodeTimes clockId offset (packets ++ more) =
      ((decodeTimes clockId offset packets).1 ++
          (decodeTimes clockId (decodeTimes clockId offset packets).2 more).1,
        (decodeTimes clockId (decodeTimes clockId offset packets).2 more).2) := by
  induction packets generalizing offset with
  | nil => rfl
  | cons packet packets ih => simp [decodeTimes, ih]

def Written.decoded (packet : Written) : List Field := Op.fields packet.calls

/-! ## One packet -/

/-- The calls leave the clock fields to the header. -/
structure Clockless (calls : List Op) : Prop where
  clockId : varints TracePacket.timestampClockId (Op.fields calls) = []
  snapshot : messages TracePacket.clockSnapshot (Op.fields calls) = []

theorem Clockless.append {calls more : List Op} (h : Clockless calls) (hmore : Clockless more) :
    Clockless (calls ++ more) :=
  ⟨by rw [Op.fields_append, varints_append, h.clockId, hmore.clockId]; rfl,
    by rw [Op.fields_append, messages_append, h.snapshot, hmore.snapshot]; rfl⟩

theorem clockless_emitInternedData (tables : InternTables) :
    Clockless tables.emitInternedData.1 := by
  simp only [InternTables.emitInternedData]
  split <;> exact ⟨rfl, rfl⟩

theorem clockless_encode {memory : StaticMemory} {config : Config} {bases : IdBases}
    (body : Body) (tables : InternTables) :
    Clockless (body.encode memory config bases tables).1 := by
  cases body <;> exact ⟨rfl, rfl⟩

/-- Where the sequence's clock stands, for a decoder that has read its packets. No
reading so far was above `low`. -/
structure Timed (anchor low : Nat) (offset : Option Offset) (sequence : SequenceState) :
    Prop where
  anchored : sequence.clockAnchorNs = anchor
  anchor_le : anchor ≤ low
  last_le : sequence.lastTimestampNs ≤ low
  fresh : offset = none → sequence.initialized = false ∧ sequence.firstPacketDone = false
  live : ∀ now, offset = some now → sequence.initialized = true ∧
    sequence.firstPacketDone = true ∧ now.custom ≤ now.current ∧
      now.time = sequence.lastTimestampNs

theorem timed_wrote {clockId anchor low raw : Nat} {offset : Offset} {domain : ClockDomain}
    {answers : Answers} {writer writer' : SequenceWriter} {body : Encode (List Op)}
    {packet : Written} (h : Timed anchor low (some offset) writer.sequence)
    (hraw : (writer.timestamp answers).1 = raw) (hlow : low ≤ raw)
    (hbody : ∀ tables, Clockless (body tables).1)
    (hwrote : Wrote domain answers writer body writer' packet) :
    ∃ next, decodeTime clockId (some offset) (Written.decoded packet) =
        (some raw, some next) ∧ Timed anchor raw (some next) writer'.sequence := by
  obtain ⟨hinit, hdone, hcustom, htime⟩ := h.live offset rfl
  have hheader : packet.header = prefixCalls writer.sequence.sequenceId ++
      [.varint TracePacket.timestamp (raw - writer.sequence.lastTimestampNs)] := by
    rw [hwrote.header, SequenceState.header, if_pos hdone, hraw]
    rfl
  have hrest : Clockless (packet.body ++ packet.interned) := by
    rw [hwrote.body, hwrote.interned]
    exact (hbody _).append (clockless_emitInternedData _)
  have hstamp : (varints TracePacket.timestamp (Written.decoded packet)).head? =
      some (raw - writer.sequence.lastTimestampNs) := by
    rw [Written.decoded, Written.calls, Op.fields_append, varints_append, hheader]
    rfl
  have hclock : varints TracePacket.timestampClockId (Written.decoded packet) = [] := by
    rw [Written.decoded, Written.calls, Op.fields_append, varints_append, hrest.clockId, hheader]
    rfl
  have hsnapshot : messages TracePacket.clockSnapshot (Written.decoded packet) = [] := by
    rw [Written.decoded, Written.calls, Op.fields_append, messages_append, hrest.snapshot,
      hheader]
    rfl
  have hlast := h.last_le
  have hnext : ({ offset with current := offset.current +
      (raw - writer.sequence.lastTimestampNs) } : Offset).time = raw := by
    simp only [Offset.time] at htime ⊢
    omega
  refine ⟨{ offset with current := offset.current +
    (raw - writer.sequence.lastTimestampNs) }, ?_, ?_⟩
  · simp only [decodeTime, hstamp, hclock, List.head?_nil, readSnapshot, hsnapshot,
      Option.map_some, hnext]
  · have hsequence := hwrote.sequence
    have hanchor := congrArg SequenceState.clockAnchorNs hsequence
    have hlast' := congrArg SequenceState.lastTimestampNs hsequence
    have hinit' := congrArg SequenceState.initialized hsequence
    have hdone' := congrArg SequenceState.firstPacketDone hsequence
    simp only [visible, SequenceState.withTables, SequenceState.header, hdone, if_true,
      hraw] at hanchor hlast' hinit' hdone'
    refine ⟨hanchor.trans h.anchored, h.anchor_le.trans hlow, hlast'.le, by simp, ?_⟩
    intro now hnow
    simp only [Option.some.injEq] at hnow
    subst hnow
    exact ⟨hinit'.trans hinit, hdone', by simp only; omega, hnext.trans hlast'.symm⟩

/-- The snapshot reads back as the clocks it was made of. -/
theorem clockReadings_snapshot (primary : Nat) (clocks : List (Nat × Nat)) :
    clockReadings (Op.fields (.varint ClockSnapshot.primaryTraceClock primary ::
      clocks.map snapshotClock)) = clocks := by
  have hclocks : clockReadings (Op.fields (clocks.map snapshotClock)) = clocks := by
    induction clocks with
    | nil => rfl
    | cons clock clocks ih =>
        have hfirst : clockReadings (Op.fields [snapshotClock clock]) = [clock] := by
          by_cases hcustom : clock.1 = ClockSnapshot.customClockId
          · simp [clockReadings, snapshotClock, hcustom, Op.fields, Op.field, messages, varints,
              ClockSnapshot.clockId, ClockSnapshot.clockTimestamp,
              ClockSnapshot.clockIsIncremental]
            rw [← hcustom]
          · simp [clockReadings, snapshotClock, hcustom, Op.fields, Op.field, messages, varints,
              ClockSnapshot.clockId, ClockSnapshot.clockTimestamp]
        have happend : clockReadings (Op.fields ([snapshotClock clock] ++
            clocks.map snapshotClock)) = [clock] ++ clocks := by
          rw [Op.fields_append, clockReadings, messages_append, List.map_append]
          exact congrArg₂ (· ++ ·) hfirst ih
        exact happend
  exact hclocks

theorem timed_clockSnapshot {clockId anchor low raw : Nat} {answers : Answers}
    {write : ClockDomain → Answers → SequenceWriter → Encode (List Op) →
      Option SequenceWriter} {made : Written → Prop} (hwrites : Writes write made)
    {writer writer' : SequenceWriter} (hbuiltin : clockId ≠ ClockSnapshot.customClockId)
    (h : Timed anchor low none writer.sequence) (hraw : (writer.timestamp answers).1 = raw)
    (hlow : low ≤ raw)
    (hsnapshot : clockSnapshot (.builtin clockId) write answers (markInitialized writer) =
      some writer') :
    ∃ packet next, writer'.written = writer.written ++ [packet] ∧
      writer'.timestampNs = some raw ∧
      decodeTime clockId none (Written.decoded packet) = (some raw, some next) ∧
      Timed anchor raw (some next) writer'.sequence := by
  obtain ⟨hinit, hdone⟩ := h.fresh rfl
  simp only [clockSnapshot] at hsnapshot
  obtain ⟨packet, _, hwrote⟩ := hwrites _ _ _ _ _ hsnapshot
  have hread : readSnapshotClock answers (markInitialized writer) =
      ⟨{ writer.sequence with initialized := true, lastTimestampNs := raw }, some raw,
        writer.written⟩ := by
    cases hstamp : writer.timestampNs <;>
      simp_all [readSnapshotClock, SequenceWriter.timestamp, markInitialized]
  rw [hread] at hwrote
  have hheader := hwrote.header
  have hbody := hwrote.body
  have hsequence := hwrote.sequence
  simp only [SequenceState.header, SequenceWriter.timestamp, hdone, Bool.false_eq_true, if_false,
    firstTimestamp, h.anchored] at hheader hbody hsequence
  have hstamp : (varints TracePacket.timestamp (Written.decoded packet)).head? = some raw := by
    rw [Written.decoded, Written.calls, Op.fields_append, varints_append, hheader]
    rfl
  have hclock : (varints TracePacket.timestampClockId (Written.decoded packet)).head? =
      some clockId := by
    rw [Written.decoded, Written.calls, Op.fields_append, varints_append, hheader]
    rfl
  refine ⟨packet, ⟨raw - anchor, raw, raw - anchor⟩, hwrote.written, hwrote.timestampNs, ?_, ?_⟩
  · have hmessage : ∃ snapshot rest,
        messages TracePacket.clockSnapshot (Written.decoded packet) = snapshot :: rest ∧
          (clockReadings snapshot).lookup ClockSnapshot.customClockId = some (raw - anchor) ∧
          (clockReadings snapshot).lookup clockId = some raw := by
      rw [Written.decoded, Written.calls, Op.fields_append, Op.fields_append, hheader, hbody]
      refine ⟨_, _, rfl, ?_, ?_⟩
      · rw [clockReadings_snapshot]
        rfl
      · have hne : (clockId == ClockSnapshot.customClockId) = false := by simpa using hbuiltin
        rw [clockReadings_snapshot]
        simp [snapshotClocks, List.lookup_cons, hne]
    obtain ⟨snapshot, rest, hmessages, hcustom, hbuilt⟩ := hmessage
    simp only [decodeTime, hstamp, hclock, if_true, readSnapshot, hmessages, hcustom, hbuilt,
      Option.bind_eq_bind, Option.bind_some]
  · have hanchor := congrArg SequenceState.clockAnchorNs hsequence
    have hlast' := congrArg SequenceState.lastTimestampNs hsequence
    have hinit' := congrArg SequenceState.initialized hsequence
    have hdone' := congrArg SequenceState.firstPacketDone hsequence
    simp only [visible, SequenceState.withTables] at hanchor hlast' hinit' hdone'
    refine ⟨hanchor, h.anchor_le.trans hlow, hlast'.le, by simp, ?_⟩
    intro now hnow
    simp only [Option.some.injEq] at hnow
    subst hnow
    exact ⟨hinit', hdone', le_rfl, by simp [Offset.time, hlast']⟩

/-! ## One callback -/

/-- The clock reading of a callback, which its first packet asks for. -/
def reading : List LayerRequest → Option Nat
  | [] => none
  | .packet answers _ :: _ => some answers.rawClock
  | .cacheCounterTrack _ _ :: requests => reading requests

theorem reading_packet (first : List LayerRequest) (answers : Answers) (body : Body)
    (rest : List LayerRequest) :
    ∃ raw, reading (first ++ .packet answers body :: rest) = some raw := by
  induction first with
  | nil => exact ⟨_, rfl⟩
  | cons request first ih =>
      cases request with
      | packet => exact ⟨_, rfl⟩
      | cacheCounterTrack => exact ih

/-- Where a writer stands in a callback that reads the clock at `raw`: before its
first packet, or with all its packets so far at that time. -/
structure Ticking (clockId anchor low raw : Nat) (offset : Option Offset)
    (writer : SequenceWriter) : Prop where
  times : (decodeTimes clockId offset (writer.written.map Written.decoded)).1 =
    List.replicate writer.written.length (some raw)
  timed : Timed anchor (if writer.timestampNs.isSome then raw else low)
    (decodeTimes clockId offset (writer.written.map Written.decoded)).2 writer.sequence
  stamp : ∀ stamp, writer.timestampNs = some stamp → stamp = raw
  started : writer.timestampNs.isSome = true →
    (decodeTimes clockId offset (writer.written.map Written.decoded)).2.isSome = true

section Callback

variable {config : Config} {clockId anchor low raw : Nat} {offset : Option Offset}
variable {write : ClockDomain → Answers → SequenceWriter → Encode (List Op) →
  Option SequenceWriter} {made : Written → Prop}
variable {answers : Answers} {writer writer' : SequenceWriter}

theorem ticking_append {packet : Written} {now next : Option Offset}
    (htimes : (decodeTimes clockId offset (writer.written.map Written.decoded)).1 =
      List.replicate writer.written.length (some raw))
    (hnow : (decodeTimes clockId offset (writer.written.map Written.decoded)).2 = now)
    (hwritten : writer'.written = writer.written ++ [packet])
    (hdecode : decodeTime clockId now (Written.decoded packet) = (some raw, next)) :
    (decodeTimes clockId offset (writer'.written.map Written.decoded)).1 =
        List.replicate writer'.written.length (some raw) ∧
      (decodeTimes clockId offset (writer'.written.map Written.decoded)).2 = next := by
  rw [hwritten, List.map_append, decodeTimes_append, hnow]
  simp [decodeTimes, hdecode, htimes, List.replicate_succ']

theorem ticking_wrote {domain : ClockDomain} {body : Encode (List Op)} {packet : Written}
    (h : Ticking clockId anchor low raw offset writer) (hlow : low ≤ raw)
    (hstarted : (decodeTimes clockId offset (writer.written.map Written.decoded)).2.isSome = true)
    (hraw : (writer.timestamp answers).1 = raw) (hbody : ∀ tables, Clockless (body tables).1)
    (hwrote : Wrote domain answers writer body writer' packet) :
    Ticking clockId anchor low raw offset writer' ∧ writer'.timestampNs = some raw := by
  obtain ⟨now, hnow⟩ := Option.isSome_iff_exists.1 hstarted
  have htimed := h.timed
  rw [hnow] at htimed
  have hle : (if writer.timestampNs.isSome then raw else low) ≤ raw := by
    split
    · exact le_rfl
    · exact hlow
  obtain ⟨next, hdecode, hnext⟩ := timed_wrote htimed hraw hle hbody hwrote
  obtain ⟨htimes, hlast⟩ := ticking_append h.times hnow hwrote.written hdecode
  have hstamp : writer'.timestampNs = some raw := by rw [hwrote.timestampNs, hraw]
  refine ⟨⟨htimes, ?_, ?_, ?_⟩, hstamp⟩
  · rw [hlast, hstamp]
    exact hnext
  · intro stamp h'
    rw [hstamp] at h'
    simpa using h'.symm
  · rw [hlast]
    exact fun _ => rfl

theorem ticking_write {domain : ClockDomain} {body : Encode (List Op)}
    (hwrites : Writes write made)
    (h : Ticking clockId anchor low raw offset writer) (hlow : low ≤ raw)
    (hstamp : writer.timestampNs = some raw) (hbody : ∀ tables, Clockless (body tables).1)
    (hwrite : write domain answers writer body = some writer') :
    Ticking clockId anchor low raw offset writer' ∧ writer'.timestampNs = some raw := by
  obtain ⟨packet, _, hwrote⟩ := hwrites _ _ _ _ _ hwrite
  refine ticking_wrote h hlow (h.started (by simp [hstamp])) ?_ hbody hwrote
  simp [SequenceWriter.timestamp, hstamp]

/-- Bringing the sequence up takes the callback's reading. -/
theorem ticking_initializeSequence (hwrites : Writes write made)
    (hbuiltin : clockId ≠ ClockSnapshot.customClockId)
    (h : Ticking clockId anchor low raw offset writer) (hlow : low ≤ raw)
    (hraw : (writer.timestamp answers).1 = raw) (hnew : writer.sequence.initialized = false)
    (hinit : initializeSequence config (.builtin clockId) write answers writer = some writer') :
    Ticking clockId anchor low raw offset writer' ∧ writer'.timestampNs = some raw := by
  simp only [initializeSequence, Option.bind_eq_bind, Option.bind_eq_some_iff] at hinit
  obtain ⟨snapshot, hsnapshot, process, hprocess, hthread⟩ := hinit
  have hnone : (decodeTimes clockId offset (writer.written.map Written.decoded)).2 = none := by
    cases hnow : (decodeTimes clockId offset (writer.written.map Written.decoded)).2 with
    | none => rfl
    | some now =>
        have := (h.timed.live now hnow).1
        simp [hnew] at this
  have hunstamped : writer.timestampNs = none := by
    cases hstamp : writer.timestampNs with
    | none => rfl
    | some stamp =>
        have := h.started (by simp [hstamp])
        simp [hnone] at this
  have htimed := h.timed
  rw [hnone, hunstamped] at htimed
  obtain ⟨packet, next, hwritten, hstamp, hdecode, hnext⟩ :=
    timed_clockSnapshot hwrites hbuiltin htimed hraw hlow hsnapshot
  obtain ⟨htimes, hlast⟩ := ticking_append h.times hnone hwritten hdecode
  have hfirst : Ticking clockId anchor low raw offset snapshot := by
    refine ⟨htimes, ?_, ?_, ?_⟩
    · rw [hlast, hstamp]
      exact hnext
    · intro stamp h'
      rw [hstamp] at h'
      simpa using h'.symm
    · rw [hlast]
      exact fun _ => rfl
  have hsecond : Ticking clockId anchor low raw offset process ∧
      process.timestampNs = some raw := by
    simp only [processDescriptor] at hprocess
    split at hprocess
    · simp only [Option.some.injEq] at hprocess
      rw [← hprocess]
      exact ⟨hfirst, hstamp⟩
    · simp only [Option.bind_eq_bind, Option.bind_eq_some_iff] at hprocess
      obtain ⟨arguments, _, hprocess⟩ := hprocess
      exact ticking_write hwrites hfirst hlow hstamp (fun _ => ⟨rfl, rfl⟩) hprocess
  exact ticking_write hwrites hsecond.1 hlow hsecond.2 (fun _ => ⟨rfl, rfl⟩) hthread

theorem ticking_packet {body : Encode (List Op)} (hwrites : Writes write made)
    (hbuiltin : clockId ≠ ClockSnapshot.customClockId)
    (h : Ticking clockId anchor low raw offset writer) (hlow : low ≤ raw)
    (hraw : (writer.timestamp answers).1 = raw) (hbody : ∀ tables, Clockless (body tables).1)
    (hpacket : packet config (.builtin clockId) write answers body writer = some writer') :
    Ticking clockId anchor low raw offset writer' ∧ writer'.timestampNs = some raw := by
  simp only [packet, ensureInitialized, Option.bind_eq_bind, Option.bind_eq_some_iff] at hpacket
  obtain ⟨ready, hready, hwrite⟩ := hpacket
  cases hinit : writer.sequence.initialized with
  | true =>
      simp only [hinit, if_true, Option.some.injEq] at hready
      subst hready
      obtain ⟨written, _, hwrote⟩ := hwrites _ _ _ _ _ hwrite
      refine ticking_wrote h hlow ?_ hraw hbody hwrote
      by_contra hnone
      simp only [Bool.not_eq_true, Option.isSome_eq_false_iff, Option.isNone_iff_eq_none] at hnone
      have := (h.timed.fresh hnone).1
      simp [hinit] at this
  | false =>
      simp only [hinit, Bool.false_eq_true, if_false] at hready
      obtain ⟨hticking, hstamp⟩ :=
        ticking_initializeSequence hwrites hbuiltin h hlow hraw hinit hready
      exact ticking_write hwrites hticking hlow hstamp hbody hwrite

variable {memory : StaticMemory} {bases : IdBases}

theorem ticking_serve (hwrites : Writes write made)
    (hbuiltin : clockId ≠ ClockSnapshot.customClockId)
    {request : LayerRequest} (requests : List LayerRequest)
    (h : Ticking clockId anchor low raw offset writer) (hlow : low ≤ raw)
    (hreading : writer.timestampNs = none →
      ∀ time, reading (request :: requests) = some time → time = raw)
    (hserve : serve config (.builtin clockId) write writer
      (request.request memory config bases) = some writer') :
    Ticking clockId anchor low raw offset writer' ∧ (writer'.timestampNs = none →
      ∀ time, reading requests = some time → time = raw) := by
  cases request with
  | packet answers body =>
      have hraw : (writer.timestamp answers).1 = raw := by
        cases hstamp : writer.timestampNs with
        | none => simpa [SequenceWriter.timestamp, hstamp] using hreading hstamp _ rfl
        | some stamp => simpa [SequenceWriter.timestamp, hstamp] using h.stamp stamp hstamp
      obtain ⟨hticking, hstamp⟩ := ticking_packet hwrites hbuiltin h hlow hraw
        (clockless_encode body) hserve
      exact ⟨hticking, by simp [hstamp]⟩
  | cacheCounterTrack name uuid =>
      simp only [LayerRequest.request, serve, Option.some.injEq] at hserve
      subst hserve
      exact ⟨⟨h.times, ⟨h.timed.anchored, h.timed.anchor_le, h.timed.last_le, h.timed.fresh,
        h.timed.live⟩, h.stamp, h.started⟩, hreading⟩

theorem ticking_serveAll (hwrites : Writes write made)
    (hbuiltin : clockId ≠ ClockSnapshot.customClockId) {requests : List LayerRequest}
    (rest : List LayerRequest)
    (h : Ticking clockId anchor low raw offset writer) (hlow : low ≤ raw)
    (hreading : writer.timestampNs = none →
      ∀ time, reading (requests ++ rest) = some time → time = raw)
    (hserve : (requests.map (LayerRequest.request memory config bases)).foldlM
      (serve config (.builtin clockId) write) writer = some writer') :
    Ticking clockId anchor low raw offset writer' ∧ (writer'.timestampNs = none →
      ∀ time, reading rest = some time → time = raw) := by
  induction requests generalizing writer with
  | nil =>
      simp only [List.map_nil, List.foldlM_nil, Option.pure_def, Option.some.injEq] at hserve
      subst hserve
      exact ⟨h, hreading⟩
  | cons request requests ih =>
      simp only [List.map_cons, List.foldlM_cons, Option.bind_eq_bind,
        Option.bind_eq_some_iff] at hserve
      obtain ⟨next, hnext, hrest⟩ := hserve
      obtain ⟨hticking, hreading'⟩ := ticking_serve hwrites hbuiltin (requests ++ rest) h
        hlow hreading hnext
      exact ih hticking hreading' hrest

theorem serveAll_quiet {requests : List LayerRequest} (hquiet : reading requests = none)
    (hserve : (requests.map (LayerRequest.request memory config bases)).foldlM
      (serve config (.builtin clockId) write) writer = some writer') :
    writer'.written = writer.written := by
  induction requests generalizing writer with
  | nil =>
      simp only [List.map_nil, List.foldlM_nil, Option.pure_def, Option.some.injEq] at hserve
      rw [hserve]
  | cons request requests ih =>
      cases request with
      | packet answers body => simp [reading] at hquiet
      | cacheCounterTrack name uuid =>
          simp only [List.map_cons, List.foldlM_cons, LayerRequest.request, serve,
            Option.bind_eq_bind, Option.bind_some] at hserve
          have hrest := ih hquiet hserve
          exact hrest

theorem ticking_new {sequence : SequenceState} (raw : Nat)
    (h : Timed anchor low offset sequence) :
    Ticking clockId anchor low raw offset (new sequence) :=
  ⟨rfl, h, by simp [new], by simp [new]⟩

/-- All packets of a callback decode to the callback's reading. -/
theorem timed_callback (hwrites : Writes write made)
    (hbuiltin : clockId ≠ ClockSnapshot.customClockId) {requests : List LayerRequest}
    {sequence sequence' : SequenceState} {own : List Written}
    (h : Timed anchor low offset sequence)
    (hlow : ∀ time, reading requests = some time → low ≤ time)
    (hcallback : callback config (.builtin clockId) write sequence
      (requests.map (LayerRequest.request memory config bases)) = some (sequence', own)) :
    (decodeTimes clockId offset (own.map Written.decoded)).1 =
        List.replicate own.length (reading requests) ∧
      Timed anchor ((reading requests).getD low)
        (decodeTimes clockId offset (own.map Written.decoded)).2 sequence' := by
  simp only [callback, Option.bind_eq_bind, Option.bind_eq_some_iff, Option.some.injEq,
    Prod.mk.injEq] at hcallback
  obtain ⟨writer, hserve, rfl, rfl⟩ := hcallback
  cases hreading : reading requests with
  | none =>
      obtain ⟨hticking, _⟩ := ticking_serveAll hwrites hbuiltin []
        (ticking_new low h) le_rfl (by simp [hreading]) hserve
      have hquiet : writer.written = [] := serveAll_quiet hreading hserve
      have htimed := hticking.timed
      simp only [hquiet, ite_self] at htimed ⊢
      exact ⟨rfl, htimed⟩
  | some raw =>
      obtain ⟨hticking, _⟩ := ticking_serveAll hwrites hbuiltin []
        (ticking_new raw h) (hlow raw hreading) (by simp [hreading]) hserve
      obtain ⟨htimes, htimed, _, _⟩ := hticking
      refine ⟨htimes, ?_⟩
      split at htimed
      · exact htimed
      · exact ⟨htimed.anchored, htimed.anchor_le.trans (hlow raw hreading),
          htimed.last_le.trans (hlow raw hreading), htimed.fresh, htimed.live⟩

/-! ## Runs -/

theorem timed_run (hwrites : Writes write made)
    (hbuiltin : clockId ≠ ClockSnapshot.customClockId) {callbacks : List (List LayerRequest)}
    {sequence sequence' : SequenceState} {packets : List (List Written)}
    (h : Timed anchor low offset sequence)
    (hmono : (low :: callbacks.filterMap reading).Pairwise (· ≤ ·))
    (hrun : run config (.builtin clockId) write sequence
      (requests memory config bases callbacks) = some (sequence', packets)) :
    (decodeTimes clockId offset (packets.flatten.map Written.decoded)).1 =
        (callbacks.zip packets).flatMap (fun callback =>
          List.replicate callback.2.length (reading callback.1)) ∧
      ∃ last ∈ low :: callbacks.filterMap reading, Timed anchor last
        (decodeTimes clockId offset (packets.flatten.map Written.decoded)).2 sequence' := by
  induction callbacks generalizing low offset sequence packets with
  | nil =>
      simp only [requests, List.map_nil, run, Option.some.injEq, Prod.mk.injEq] at hrun
      obtain ⟨rfl, rfl⟩ := hrun
      exact ⟨rfl, low, List.mem_cons_self, h⟩
  | cons callback callbacks ih =>
      simp only [requests, List.map_cons, run, Option.bind_eq_bind, Option.bind_eq_some_iff,
        Option.some.injEq, Prod.mk.injEq] at hrun
      obtain ⟨⟨next, own⟩, hcallback, ⟨final, rest⟩, hrest, rfl, rfl⟩ := hrun
      have hlow : ∀ time, reading callback = some time → low ≤ time := by
        intro time htime
        exact (List.pairwise_cons.1 hmono).1 time (List.mem_filterMap.2
          ⟨callback, List.mem_cons_self, htime⟩)
      obtain ⟨htimes, htimed⟩ := timed_callback hwrites hbuiltin h hlow hcallback
      have hnext : ((reading callback).getD low ::
          callbacks.filterMap reading).Pairwise (· ≤ ·) := by
        cases hreading : reading callback with
        | none => simpa [List.filterMap_cons, hreading] using hmono
        | some time =>
            rw [List.filterMap_cons, hreading] at hmono
            exact (List.pairwise_cons.1 hmono).2
      obtain ⟨hothers, last, hlast, hfinal⟩ := ih htimed hnext hrest
      rw [List.flatten_cons, List.map_append, decodeTimes_append, List.zip_cons_cons,
        List.flatMap_cons, htimes, hothers]
      refine ⟨rfl, last, ?_, hfinal⟩
      cases hreading : reading callback with
      | none => simpa [List.filterMap_cons, hreading] using hlast
      | some time =>
          rw [List.filterMap_cons, hreading]
          rw [hreading] at hlast
          exact List.mem_cons_of_mem _ hlast

end Callback

theorem timed_new (sequenceId threadTrackUuid clockAnchorNs : Nat) :
    Timed clockAnchorNs clockAnchorNs none
      (SequenceState.new sequenceId threadTrackUuid clockAnchorNs) :=
  ⟨rfl, le_rfl, le_rfl, fun _ => ⟨rfl, rfl⟩, by simp⟩

/-- Every packet of a run decodes to the clock reading of its callback, and at every
packet the readings it subtracts are not above its own. -/
theorem timestamps_decode {memory : StaticMemory} {config : Config} {bases : IdBases}
    {clockId sequenceId threadTrackUuid clockAnchorNs : Nat}
    {callbacks : List (List LayerRequest)} {sequence : SequenceState}
    {packets : List (List Written)} (hbuiltin : clockId ≠ ClockSnapshot.customClockId)
    (hmono : (clockAnchorNs :: callbacks.filterMap reading).Pairwise (· ≤ ·))
    (hrun : run config (.builtin clockId) writePacket
      (SequenceState.new sequenceId threadTrackUuid clockAnchorNs)
      (requests memory config bases callbacks) = some (sequence, packets)) :
    (decodeTimes clockId none (packets.flatten.map Written.decoded)).1 =
      (callbacks.zip packets).flatMap (fun callback =>
        List.replicate callback.2.length (reading callback.1)) ∧
    ∀ before first answers body rest after,
      callbacks = before ++ (first ++ .packet answers body :: rest) :: after →
      ∀ start earlier writer,
        run config (.builtin clockId) writePacket
          (SequenceState.new sequenceId threadTrackUuid clockAnchorNs)
          (requests memory config bases before) = some (start, earlier) →
        (first.map (LayerRequest.request memory config bases)).foldlM
          (serve config (.builtin clockId) writePacket) (new start) = some writer →
        writer.sequence.lastTimestampNs ≤ (writer.timestamp answers).1 ∧
          writer.sequence.clockAnchorNs ≤ (writer.timestamp answers).1 := by
  refine ⟨(timed_run writes_writePacket hbuiltin (timed_new _ _ _) hmono hrun).1, ?_⟩
  intro before first answers body rest after hcallbacks start earlier writer hbefore hfirst
  subst hcallbacks
  rw [List.filterMap_append, ← List.cons_append] at hmono
  obtain ⟨hmonoBefore, _, hcross⟩ := List.pairwise_append.1 hmono
  obtain ⟨_, low, hlow, htimed⟩ := timed_run writes_writePacket hbuiltin (timed_new _ _ _)
    hmonoBefore hbefore
  obtain ⟨raw, hraw⟩ := reading_packet first answers body rest
  have hle : low ≤ raw := hcross low hlow raw
    (List.mem_filterMap.2 ⟨_, List.mem_cons_self, hraw⟩)
  obtain ⟨hticking, hnext⟩ := ticking_serveAll writes_writePacket hbuiltin
    (.packet answers body :: rest) (ticking_new raw htimed) hle (by simp [hraw]) hfirst
  have hstamp : (writer.timestamp answers).1 = raw := by
    cases hstamp : writer.timestampNs with
    | none => simpa [SequenceWriter.timestamp, hstamp] using hnext hstamp _ rfl
    | some stamp =>
        simpa [SequenceWriter.timestamp, hstamp] using hticking.stamp stamp hstamp
  have hbound : (if writer.timestampNs.isSome then raw else low) ≤ raw := by
    split
    · exact le_rfl
    · exact hle
  rw [hstamp]
  exact ⟨hticking.timed.last_le.trans hbound,
    hticking.timed.anchored.le.trans (hticking.timed.anchor_le.trans hbound)⟩

def sampleAnswers (rawClock : Nat) : Answers :=
  ⟨rawClock, 9, 9, none, true, 77, 4, [112], [], 5, [116]⟩

/-- Two callbacks, the second with two packets and one clock reading. -/
def sampleCallbacks : List (List LayerRequest) :=
  [[.packet (sampleAnswers 140) (.enterEnd none [])],
    [.packet (sampleAnswers 155) (.enterEnd none []),
      .packet (sampleAnswers 999) (.enterEnd none [])]]

def sampleRun : Option (SequenceState × List (List Written)) :=
  run ⟨.threadTracks, false, false, false, false, false⟩ (.builtin 6) writePacket
    (SequenceState.new 65536 3 100)
    (requests default ⟨.threadTracks, false, false, false, false, false⟩ default
      sampleCallbacks)

theorem sampleRun_isSome : sampleRun.isSome = true := by decide +kernel

theorem timestamps_decode_sample :
    (∃ sequence packets, sampleRun = some (sequence, packets) ∧
      (decodeTimes 6 none (packets.flatten.map Written.decoded)).1 =
        (sampleCallbacks.zip packets).flatMap (fun callback =>
          List.replicate callback.2.length (reading callback.1))) ∧
      sampleRun.map (fun ran =>
        (decodeTimes 6 none (ran.2.flatten.map Written.decoded)).1) =
          some [some 140, some 140, some 140, some 140, some 155, some 155] := by
  obtain ⟨⟨sequence, packets⟩, hrun⟩ := Option.isSome_iff_exists.1 sampleRun_isSome
  exact ⟨⟨sequence, packets, hrun, (timestamps_decode (by decide) (by decide) hrun).1⟩,
    by decide +kernel⟩

end TracingPerfetto.Timestamps
