import TracingPerfetto.Emit

/-!
Sequence state, interning and the packet lifecycle of `sequence.rs`. Code that
writes a packet body reaches the interning tables only, which is why they are a
structure of their own: a body cannot touch the clock or the packet prefix.
-/

namespace TracingPerfetto.Sequence

open TracingPerfetto.Wire TracingPerfetto.Proto TracingPerfetto.Runtime
open TracingPerfetto.Schema

/-- A `HashMap` keyed by an address. -/
abbrev PtrMap (α : Type) := Nat → Option α

def PtrMap.insert {α : Type} (map : PtrMap α) (key : Nat) (value : α) : PtrMap α :=
  fun k => if k = key then some value else map k

structure Interner where
  map : PtrMap Nat
  next : Nat
  lastKey : Nat
  lastIid : Nat

def Interner.default : Interner := ⟨fun _ => none, 0, 0, 0⟩

def Interner.afterReserved (next : Nat) : Interner := ⟨fun _ => none, next, 0, 0⟩

/-- Definitions waiting for the next packet of the sequence. -/
abbrev Pending := List (Nat × Bytes)

def Interner.internMiss (memory : StaticMemory) (interner : Interner) (value : StaticStr)
    (pending : Pending) : Nat × Interner × Pending :=
  let next := interner.next + 1
  (next, ⟨interner.map.insert value.ptr next, next, value.ptr, next⟩,
    pending ++ [(next, memory.text value)])

def Interner.intern (memory : StaticMemory) (interner : Interner) (value : StaticStr)
    (pending : Pending) : Nat × Interner × Pending :=
  let key := value.ptr
  if interner.lastKey = key then (interner.lastIid, interner, pending)
  else
    match interner.map key with
    | some iid => (iid, { interner with lastKey := key, lastIid := iid }, pending)
    | none => interner.internMiss memory value pending

def levelAnnotationNameIid : Nat := 1

/-- The interning part of `SequenceState`. -/
structure InternTables where
  eventNames : Interner
  annotationNames : Interner
  levelNameSeen : Bool
  levelValuesSeen : Nat
  categories : Interner
  sourceLocations : PtrMap Nat
  nextSourceLocationIid : Nat
  newEventNames : Pending
  newAnnotationNames : Pending
  newAnnotationValues : Pending
  newCategories : Pending
  newSourceLocations : List (Nat × Bytes × Nat)
  counterTrackCache : PtrMap Nat

def InternTables.new : InternTables where
  eventNames := Interner.default
  annotationNames := Interner.afterReserved levelAnnotationNameIid
  levelNameSeen := false
  levelValuesSeen := 0
  categories := Interner.default
  sourceLocations := fun _ => none
  nextSourceLocationIid := 0
  newEventNames := []
  newAnnotationNames := []
  newAnnotationValues := []
  newCategories := []
  newSourceLocations := []
  counterTrackCache := fun _ => none

/-- What a packet body does: it interns, and it makes encoder calls. -/
abbrev Encode := StateM InternTables

namespace InternTables

def internEventName (memory : StaticMemory) (name : StaticStr) : Encode Nat := fun tables =>
  let (iid, interner, pending) := tables.eventNames.intern memory name tables.newEventNames
  (iid, { tables with eventNames := interner, newEventNames := pending })

def internAnnotationName (memory : StaticMemory) (name : StaticStr) : Encode Nat :=
  fun tables =>
    let (iid, interner, pending) :=
      tables.annotationNames.intern memory name tables.newAnnotationNames
    (iid, { tables with annotationNames := interner, newAnnotationNames := pending })

def internCategory (memory : StaticMemory) (name : StaticStr) : Encode Nat := fun tables =>
  let (iid, interner, pending) := tables.categories.intern memory name tables.newCategories
  (iid, { tables with categories := interner, newCategories := pending })

def counterTrackUuid (tables : InternTables) (name : StaticStr) : Option Nat :=
  tables.counterTrackCache name.ptr

def cacheCounterTrack (tables : InternTables) (name : StaticStr) (uuid : Nat) :
    InternTables :=
  { tables with counterTrackCache := tables.counterTrackCache.insert name.ptr uuid }

def internSourceLocation (memory : StaticMemory) (callsite : Nat) (file : StaticStr)
    (line : Nat) : Encode Nat := fun tables =>
  match tables.sourceLocations callsite with
  | some iid => (iid, tables)
  | none =>
      let iid := tables.nextSourceLocationIid + 1
      (iid, { tables with
        nextSourceLocationIid := iid
        newSourceLocations := tables.newSourceLocations ++ [(iid, memory.text file, line)]
        sourceLocations := tables.sourceLocations.insert callsite iid })

def levelValueSeen (tables : InternTables) (bit : Nat) : Bool :=
  tables.levelValuesSeen &&& bit != 0

def registerLevelName (tables : InternTables) : InternTables :=
  { tables with
    levelNameSeen := true
    newAnnotationNames := tables.newAnnotationNames ++
      [(levelAnnotationNameIid, "level".toUTF8.data.toList)] }

def registerLevelValue (tables : InternTables) (bit iid : Nat) (value : Bytes) :
    InternTables :=
  { tables with
    levelValuesSeen := tables.levelValuesSeen ||| bit
    newAnnotationValues := tables.newAnnotationValues ++ [(iid, value)] }

/-- One iid/text entry; the messages share their field numbers. -/
def internedEntry (table : Nat) (entry : Nat × Bytes) : Op :=
  .message table [.varint EventName.iid entry.1, .string EventName.name entry.2]

def sourceLocationEntry (entry : Nat × Bytes × Nat) : Op :=
  .message InternedData.sourceLocations
    [.varint SourceLocation.iid entry.1, .string SourceLocation.fileName entry.2.1,
      .varint SourceLocation.lineNumber entry.2.2]

def emitPendingInternedData (tables : InternTables) : List Op × InternTables :=
  ([.message TracePacket.internedData
      (tables.newCategories.map (internedEntry InternedData.eventCategories) ++
        tables.newEventNames.map (internedEntry InternedData.eventNames) ++
        tables.newAnnotationNames.map (internedEntry InternedData.debugAnnotationNames) ++
        tables.newAnnotationValues.map
          (internedEntry InternedData.debugAnnotationStringValues) ++
        tables.newSourceLocations.map sourceLocationEntry)],
    { tables with
      newEventNames := []
      newAnnotationNames := []
      newAnnotationValues := []
      newCategories := []
      newSourceLocations := [] })

def emitInternedData (tables : InternTables) : List Op × InternTables :=
  if !tables.newEventNames.isEmpty || !tables.newAnnotationNames.isEmpty ||
      !tables.newAnnotationValues.isEmpty || !tables.newCategories.isEmpty ||
      !tables.newSourceLocations.isEmpty then
    tables.emitPendingInternedData
  else ([], tables)

end InternTables

structure SequenceState where
  sequenceId : Nat
  threadTrackUuid : Nat
  clockAnchorNs : Nat
  lastTimestampNs : Nat
  packetPrefix : Option (Nat × MessageToken)
  initialized : Bool
  firstPacketDone : Bool
  tables : InternTables
  scratch : ProtoBuffer

def SequenceState.new (sequenceId threadTrackUuid clockAnchorNs : Nat) : SequenceState where
  sequenceId := sequenceId
  threadTrackUuid := threadTrackUuid
  clockAnchorNs := clockAnchorNs
  lastTimestampNs := clockAnchorNs
  packetPrefix := none
  initialized := false
  firstPacketDone := false
  tables := InternTables.new
  scratch := ProtoBuffer.empty

/-- Access to the interning tables through a sequence. -/
def SequenceState.withTables (sequence : SequenceState) (tables : InternTables) :
    SequenceState :=
  { sequence with tables := tables }

/-- A packet under construction. -/
structure Packet where
  sequence : SequenceState
  proto : ProtoBuffer
  root : MessageToken

/-- A finished packet: the bytes handed to the thread's queue, and the encoder
calls that they are the result of. -/
structure Written where
  header : List Op
  body : List Op
  interned : List Op
  bytes : Bytes

def Written.calls (written : Written) : List Op :=
  written.header ++ (written.body ++ written.interned)

def Packet.withTables (packet : Packet) (tables : InternTables) : Packet :=
  { packet with sequence := packet.sequence.withTables tables }

def Packet.write (packet : Packet) (calls : List Op) : Option Packet := do
  let proto ← Op.runAll calls packet.proto
  some { packet with proto := proto }

/-- The fields that every later packet of the sequence starts with. -/
def prefixCalls (sequenceId : Nat) : List Op :=
  [.varint TracePacket.trustedPacketSequenceId sequenceId,
    .varint TracePacket.sequenceFlags TracePacket.seqNeedsIncrementalState]

def Packet.initializePacketPrefix (packet : Packet) : Option Packet := do
  let packet ← packet.write (prefixCalls packet.sequence.sequenceId)
  some { packet with
    sequence := { packet.sequence with
      packetPrefix := some (packet.proto.buf.length, packet.root) } }

def firstPacketCalls (sequence : SequenceState) (timestamp timestampClockId : Nat) : List Op :=
  [.varint TracePacket.timestamp timestamp,
    .varint TracePacket.trustedPacketSequenceId sequence.sequenceId,
    .varint TracePacket.sequenceFlags
      (TracePacket.seqIncrementalStateCleared ||| TracePacket.seqNeedsIncrementalState),
    .varint TracePacket.firstPacketOnSequence 1,
    .varint TracePacket.timestampClockId timestampClockId,
    .message TracePacket.tracePacketDefaults
      [.varint TracePacketDefaults.timestampClockId ClockSnapshot.customClockId,
        .message TracePacketDefaults.trackEventDefaults
          [.redundantVarint TrackEventDefaults.trackUuid sequence.threadTrackUuid]]]

inductive ClockDomain where
  | builtin (clockId : Nat)
  | sequenceLocal
  deriving DecidableEq, Repr

/-- What the operating system and the shared layer state answer while one packet
is written: the clocks, and what `initialize` asks for when this packet is the
sequence's first. An argument that is not valid Unicode is `none`. -/
structure Answers where
  rawClock : Nat
  firstPacketRealtime : Nat
  snapshotRealtime : Nat
  monotonic : Option Nat
  claimsProcess : Bool
  processUuid : Nat
  processId : Nat
  processName : Bytes
  arguments : List (Option Bytes)
  tid : Nat
  threadName : Bytes

def firstTimestamp (domain : ClockDomain) (answers : Answers) (rawTimestamp : Nat) :
    Nat × Nat :=
  match domain with
  | .builtin clockId => (rawTimestamp, clockId)
  | .sequenceLocal => (answers.firstPacketRealtime, ClockSnapshot.builtinClockRealtime)

/-- `mem::take` leaves an empty scratch buffer behind while the packet is open. -/
def SequenceState.openPacket (sequence : SequenceState) : Packet × Bool :=
  let taken := { sequence with scratch := ProtoBuffer.empty }
  match sequence.packetPrefix with
  | some (prefixLen, root) => (⟨taken, sequence.scratch.truncate prefixLen, root⟩, true)
  | none =>
      let (proto, root) := ProtoBuffer.empty.beginMessage Trace.packet
      (⟨taken, proto, root⟩, false)

/-- Truncated subtraction is `saturating_sub`. -/
def SequenceState.delta (sequence : SequenceState) (rawTimestamp : Nat) : Nat :=
  rawTimestamp - sequence.lastTimestampNs

def SequenceState.packetWithoutInitialization (domain : ClockDomain) (answers : Answers)
    (sequence : SequenceState) (rawTimestamp : Nat) : Option Packet :=
  let (packet, reusedPrefix) := sequence.openPacket
  if packet.sequence.firstPacketDone then do
    let delta := packet.sequence.delta rawTimestamp
    let packet := { packet with
      sequence := { packet.sequence with lastTimestampNs := rawTimestamp } }
    let packet ← if reusedPrefix then some packet else packet.initializePacketPrefix
    packet.write [.varint TracePacket.timestamp delta]
  else
    let (timestamp, clockId) := firstTimestamp domain answers rawTimestamp
    { packet with sequence := { packet.sequence with firstPacketDone := true } }.write
      (firstPacketCalls packet.sequence timestamp clockId)

/-- `Packet::drop`: pending definitions go into this packet, its length is filled
in, and the buffer becomes the next packet's scratch. -/
def Packet.drop (packet : Packet) : Option (SequenceState × Bytes) := do
  let (interned, tables) := packet.sequence.tables.emitInternedData
  let packet ← packet.write interned
  let proto ← packet.proto.finishMessage packet.root
  some ({ packet.sequence.withTables tables with scratch := proto }, proto.buf)

/-- The header of the next packet as the source lays it out when no prefix is
there to be reused, and the clock state after it. -/
def SequenceState.header (domain : ClockDomain) (answers : Answers)
    (sequence : SequenceState) (rawTimestamp : Nat) : List Op × SequenceState :=
  if sequence.firstPacketDone then
    (prefixCalls sequence.sequenceId ++
        [.varint TracePacket.timestamp (sequence.delta rawTimestamp)],
      { sequence with lastTimestampNs := rawTimestamp })
  else
    let (timestamp, clockId) := firstTimestamp domain answers rawTimestamp
    (firstPacketCalls sequence timestamp clockId, { sequence with firstPacketDone := true })

/-- Callback-scoped access to a sequence. `written` collects the packets in the
order they are finished. -/
structure SequenceWriter where
  sequence : SequenceState
  timestampNs : Option Nat
  written : List Written

namespace SequenceWriter

def new (sequence : SequenceState) : SequenceWriter := ⟨sequence, none, []⟩

def timestamp (writer : SequenceWriter) (answers : Answers) : Nat × SequenceWriter :=
  match writer.timestampNs with
  | some timestamp => (timestamp, writer)
  | none => (answers.rawClock, { writer with timestampNs := some answers.rawClock })

/-- `packet_without_initialization`, the body written into the packet, and the
packet's drop. -/
def writePacket (domain : ClockDomain) (answers : Answers) (writer : SequenceWriter)
    (body : Encode (List Op)) : Option SequenceWriter := do
  let (raw, writer) := writer.timestamp answers
  let header := (writer.sequence.header domain answers raw).1
  let packet ← writer.sequence.packetWithoutInitialization domain answers raw
  let (calls, tables) := body packet.sequence.tables
  let packet ← (packet.withTables tables).write calls
  let (sequence, bytes) ← packet.drop
  some { writer with
    sequence := sequence
    written := writer.written ++ [⟨header, calls, tables.emitInternedData.1, bytes⟩] }

/-- The same packet without the buffer: its bytes are the encoding of its calls,
with the header built from scratch. -/
def writeFromScratch (domain : ClockDomain) (answers : Answers) (writer : SequenceWriter)
    (body : Encode (List Op)) : Option SequenceWriter :=
  let (raw, writer) := writer.timestamp answers
  let (header, sequence) := writer.sequence.header domain answers raw
  let (calls, tables) := body sequence.tables
  let (interned, tables) := tables.emitInternedData
  let bytes := framed Trace.packet (Op.encodedAll (header ++ (calls ++ interned)))
  some { writer with
    sequence := sequence.withTables tables
    written := writer.written ++ [⟨header, calls, interned, bytes⟩] }

def snapshotClocks (domain : ClockDomain) (answers : Answers) (rawTimestamp anchor : Nat) :
    List (Nat × Nat) :=
  [(ClockSnapshot.customClockId, rawTimestamp - anchor)] ++
    (match domain with
      | .builtin clockId => [(clockId, rawTimestamp)]
      | .sequenceLocal => []) ++
    [(ClockSnapshot.builtinClockRealtime, answers.snapshotRealtime)] ++
    (match answers.monotonic with
      | some timestamp =>
          if domain = .builtin ClockSnapshot.builtinClockMonotonic then []
          else [(ClockSnapshot.builtinClockMonotonic, timestamp)]
      | none => [])

def snapshotClock (clock : Nat × Nat) : Op :=
  .message ClockSnapshot.clocks
    ([.varint ClockSnapshot.clockId clock.1, .varint ClockSnapshot.clockTimestamp clock.2] ++
      if clock.1 = ClockSnapshot.customClockId then
        [.varint ClockSnapshot.clockIsIncremental 1]
      else [])

def primaryClockId : ClockDomain → Nat
  | .builtin clockId => clockId
  | .sequenceLocal => ClockSnapshot.builtinClockRealtime

def clockSnapshotCalls (domain : ClockDomain) (answers : Answers)
    (rawTimestamp anchor : Nat) : List Op :=
  [.message TracePacket.clockSnapshot
    (.varint ClockSnapshot.primaryTraceClock (primaryClockId domain) ::
      (snapshotClocks domain answers rawTimestamp anchor).map snapshotClock)]

/-- The arguments to record. `std::env::args` panics on one that is not valid
Unicode. -/
def commandLine (config : Config) (answers : Answers) : Option (List Bytes) :=
  if config.processArguments then answers.arguments.mapM id else some []

def processDescriptorCalls (answers : Answers) (arguments : List Bytes) : List Op :=
  [.message TracePacket.trackDescriptor
    [.redundantVarint TrackDescriptor.uuid answers.processUuid,
      .message TrackDescriptor.process
        (.varint ProcessDescriptor.pid answers.processId ::
          (arguments.map (.string ProcessDescriptor.cmdline) ++
            [.string ProcessDescriptor.processName answers.processName]))]]

def threadDescriptorCalls (answers : Answers) (threadUuid : Nat) : List Op :=
  [.message TracePacket.trackDescriptor
    [.redundantVarint TrackDescriptor.uuid threadUuid,
      .message TrackDescriptor.thread
        [.varint ThreadDescriptor.pid answers.processId,
          .varint ThreadDescriptor.tid answers.tid,
          .string ThreadDescriptor.threadName answers.threadName]]]

/-- `clock_snapshot` restarts the deltas at the reading it is about to report. -/
def readSnapshotClock (answers : Answers) (writer : SequenceWriter) : SequenceWriter :=
  let (rawTimestamp, writer) := writer.timestamp answers
  { writer with sequence := { writer.sequence with lastTimestampNs := rawTimestamp } }

def markInitialized (writer : SequenceWriter) : SequenceWriter :=
  { writer with sequence := { writer.sequence with initialized := true } }

/-! The rest of the writer only goes through the function that writes one packet,
`writePacket` in the layer and `writeFromScratch` in its specification. -/

section Lifecycle

variable (config : Config) (domain : ClockDomain)
variable (write : ClockDomain → Answers → SequenceWriter → Encode (List Op) →
  Option SequenceWriter)

def clockSnapshot (answers : Answers) (writer : SequenceWriter) : Option SequenceWriter :=
  let writer := readSnapshotClock answers writer
  write domain answers writer
    (pure (clockSnapshotCalls domain answers writer.sequence.lastTimestampNs
      writer.sequence.clockAnchorNs))

def processDescriptor (answers : Answers) (writer : SequenceWriter) :
    Option SequenceWriter :=
  if !answers.claimsProcess then some writer
  else do
    let arguments ← commandLine config answers
    write domain answers writer (pure (processDescriptorCalls answers arguments))

def threadDescriptor (answers : Answers) (writer : SequenceWriter) : Option SequenceWriter :=
  write domain answers writer
    (pure (threadDescriptorCalls answers writer.sequence.threadTrackUuid))

def initializeSequence (answers : Answers) (writer : SequenceWriter) :
    Option SequenceWriter := do
  let writer ← clockSnapshot domain write answers (markInitialized writer)
  let writer ← processDescriptor config domain write answers writer
  threadDescriptor domain write answers writer

/-- The first packet of a sequence is preceded by the packets that describe it. -/
def ensureInitialized (answers : Answers) (writer : SequenceWriter) : Option SequenceWriter :=
  if writer.sequence.initialized then some writer
  else initializeSequence config domain write answers writer

/-- `packet()`, the body written into the packet, and the packet's drop. -/
def packet (answers : Answers) (body : Encode (List Op)) (writer : SequenceWriter) :
    Option SequenceWriter := do
  let writer ← ensureInitialized config domain write answers writer
  write domain answers writer body

/-- What a callback asks of its sequence: a packet, together with what the call is
answered, or an entry in the counter track cache. -/
inductive Request where
  | packet (answers : Answers) (body : Encode (List Op))
  | cacheCounterTrack (name : StaticStr) (uuid : Nat)

def serve (writer : SequenceWriter) : Request → Option SequenceWriter
  | .packet answers body => packet config domain write answers body writer
  | .cacheCounterTrack name uuid => some { writer with
      sequence := writer.sequence.withTables
        (writer.sequence.tables.cacheCounterTrack name uuid) }

/-- One tracing callback, which writes all its packets through one writer. -/
def callback (sequence : SequenceState) (requests : List Request) :
    Option (SequenceState × List Written) := do
  let writer ← requests.foldlM (serve config domain write) (new sequence)
  some (writer.sequence, writer.written)

/-- The callbacks of one thread on one sequence, each with its packets; `none` when
one of them panics. -/
def run : SequenceState → List (List Request) →
    Option (SequenceState × List (List Written))
  | sequence, [] => some (sequence, [])
  | sequence, requests :: callbacks => do
      let (sequence, first) ← callback config domain write sequence requests
      let (sequence, rest) ← run sequence callbacks
      some (sequence, first :: rest)

end Lifecycle

end SequenceWriter

end TracingPerfetto.Sequence
