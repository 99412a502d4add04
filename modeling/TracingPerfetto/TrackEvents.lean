import TracingPerfetto.Sequence

/-!
What the callbacks of `subscriber.rs` and the visitors of `visitor.rs` write into a
packet. A user's `Debug` or `Display` implementation appears as the chunks it
writes and the way it ends.
-/

namespace TracingPerfetto.TrackEvents

open TracingPerfetto.Wire TracingPerfetto.Proto TracingPerfetto.Runtime
open TracingPerfetto.Schema TracingPerfetto.Emit TracingPerfetto.Sequence

inductive Level where
  | trace
  | debug
  | info
  | warn
  | error
  deriving DecidableEq, Repr

/-- The static description of a span or an event. -/
structure Metadata where
  callsite : Nat
  name : StaticStr
  target : StaticStr
  level : Level
  file : Option StaticStr
  line : Option Nat
  fields : List StaticStr
  deriving DecidableEq, Repr

def levelNameIid : Nat := 1
def traceValueIid : Nat := 1
def debugValueIid : Nat := 2
def infoValueIid : Nat := 3
def warnValueIid : Nat := 4
def errorValueIid : Nat := 5

def text (value : String) : Bytes := value.toUTF8.data.toList

/-- The reserved iid of a level, its text and its bit. -/
def levelValue : Level → Nat × Bytes × Nat
  | .trace => (traceValueIid, text "TRACE", 1 <<< 0)
  | .debug => (debugValueIid, text "DEBUG", 1 <<< 1)
  | .info => (infoValueIid, text "INFO", 1 <<< 2)
  | .warn => (warnValueIid, text "WARN", 1 <<< 3)
  | .error => (errorValueIid, text "ERROR", 1 <<< 4)

inductive Outcome where
  | ok
  | err
  | panic
  deriving DecidableEq, Repr

/-- One run of a user's formatter. -/
structure Formatted where
  chunks : List Bytes
  outcome : Outcome
  deriving DecidableEq, Repr

def Formatted.panics (value : Formatted) : Bool := value.outcome == .panic

/-- The argument of one `Visit` method. -/
inductive FieldVisit where
  | bool (value : Bool)
  | i64 (value : Int)
  | u64 (value : Nat)
  | f64 (bits : Nat)
  | i128 (value : Int)
  | u128 (value : Nat)
  | str (value : Bytes)
  | bytes (value : Bytes)
  | error (value : Formatted)
  | debug (value : Formatted)
  deriving DecidableEq, Repr

/-- The visits of one `record` call, with the fields they are for. -/
abbrev Visits := List (StaticStr × FieldVisit)

/-- The formatter that a visit runs, if it is the user's. -/
def FieldVisit.formatted : FieldVisit → Option Formatted
  | .error value | .debug value => some value
  | _ => none

def FieldVisit.panics (visit : FieldVisit) : Bool :=
  match visit.formatted with
  | some value => value.panics
  | none => false

/-- `i64::try_from`. -/
def tryI64 (value : Int) : Option Int :=
  if -2 ^ 63 ≤ value ∧ value < 2 ^ 63 then some value else none

/-- `u64::try_from`. -/
def tryU64 (value : Nat) : Option Nat :=
  if value < 2 ^ 64 then some value else none

/-- `{value:02x?}` of one byte. -/
def hexByte (byte : UInt8) : List Char :=
  [Nat.digitChar (byte.toNat / 16), Nat.digitChar (byte.toNat % 16)]

/-- `{value:02x?}` of a slice. -/
def hexBytes (value : Bytes) : Bytes :=
  text (String.ofList (['['] ++ [',', ' '].intercalate (value.map hexByte) ++ [']']))

/-! ## Retained fields -/

/-- The value that `StoreVisitor` keeps; `to_string` and `format!` panic when the
formatter returns an error. -/
def FieldVisit.stored : FieldVisit → Option FieldValue
  | .bool value => some (.bool value)
  | .i64 value => some (.i64 value)
  | .u64 value => some (.u64 value)
  | .f64 bits => some (.f64 bits)
  | .i128 value =>
      some (match tryI64 value with
        | some value => .i64 value
        | none => .str (text (toString value)))
  | .u128 value =>
      some (match tryU64 value with
        | some value => .u64 value
        | none => .str (text (toString value)))
  | .str value => some (.str value)
  | .bytes value => some (.str (hexBytes value))
  | .error value | .debug value =>
      if value.outcome = .ok then some (.str value.chunks.flatten) else none

namespace StoreVisitor

/-- A field that was recorded before keeps its place. -/
def set (memory : StaticMemory) (name : StaticStr) (value : FieldValue) :
    List (StaticStr × FieldValue) → List (StaticStr × FieldValue)
  | [] => [(name, value)]
  | (known, old) :: fields =>
      if memory.text known = memory.text name then (known, value) :: fields
      else (known, old) :: set memory name value fields

/-- The fields after the visits, and whether one of them panicked. -/
def record (memory : StaticMemory) (fields : List (StaticStr × FieldValue)) :
    Visits → List (StaticStr × FieldValue) × Bool
  | [] => (fields, false)
  | (name, visit) :: visits =>
      match visit.stored with
      | some value => record memory (set memory name value fields) visits
      | none => (fields, true)

end StoreVisitor

/-! ## Event contents -/

def internAnnotationName (memory : StaticMemory) (name : StaticStr) : Encode Nat :=
  InternTables.internAnnotationName memory name

/-- The annotation that both inline visitors write for a value. -/
def visitedField (nameIid : Nat) : FieldVisit → Op
  | .bool value => annotationBool nameIid value
  | .i64 value => annotationI64 nameIid value
  | .u64 value => annotationU64 nameIid value
  | .f64 bits => annotationF64 nameIid bits
  | .i128 value =>
      match tryI64 value with
      | some value => annotationI64 nameIid value
      | none => annotationDisplay nameIid [text (toString value)]
  | .u128 value =>
      match tryU64 value with
      | some value => annotationU64 nameIid value
      | none => annotationDisplay nameIid [text (toString value)]
  | .str value => annotationStr nameIid value
  | .bytes value => annotationDebug nameIid [hexBytes value]
  | .error value => annotationDisplay nameIid value.chunks
  | .debug value => annotationDebug nameIid value.chunks

/-- Calls that are made under a condition only. -/
def onlyIf (condition : Bool) (encode : Encode (List Op)) : Encode (List Op) :=
  if condition then encode else pure []

def writeSourceLocation (memory : StaticMemory) (config : Config) (metadata : Metadata) :
    Encode (List Op) :=
  match metadata.file, metadata.line with
  | some file, some line => onlyIf config.sourceLocations do
      let iid ← InternTables.internSourceLocation memory metadata.callsite file line
      pure [sourceLocationIid iid]
  | _, _ => pure []

/-- Registers the name and the value of the level on their first use. -/
def writeLevel (level : Level) : Encode (List Op) := fun tables =>
  let (valueIid, value, bit) := levelValue level
  let tables := if tables.levelNameSeen then tables else tables.registerLevelName
  let tables :=
    if tables.levelValueSeen bit then tables else tables.registerLevelValue bit valueIid value
  ([ levelAnnotation levelNameIid valueIid], tables)

def writeMetadata (memory : StaticMemory) (config : Config) (metadata : Metadata) :
    Encode (List Op) := do
  let location ← writeSourceLocation memory config metadata
  let level ← writeLevel metadata.level
  let category ← InternTables.internCategory memory metadata.target
  pure (location ++ level ++ [categoryIid category])

def writePendingFlows (bases : IdBases) (flows : List PendingFlow) : List Op :=
  flows.map fun
    | .start flow => flowStart (bases.flowId flow)
    | .terminate flow => flowTerminate (bases.flowId flow)

def storedField (nameIid : Nat) : FieldValue → Op
  | .bool value => annotationBool nameIid value
  | .i64 value => annotationI64 nameIid value
  | .u64 value => annotationU64 nameIid value
  | .f64 bits => annotationF64 nameIid bits
  | .str value => annotationStr nameIid value

def writeStoredFields (memory : StaticMemory) :
    List (StaticStr × FieldValue) → Encode (List Op)
  | [] => pure []
  | (name, value) :: fields => do
      let nameIid ← internAnnotationName memory name
      let rest ← writeStoredFields memory fields
      pure (storedField nameIid value :: rest)

/-- `attrs.record` with an `AttributeVisitor`. What was written before a panic stays
in the packet. -/
def recordAttributes (memory : StaticMemory) : Visits → Encode (List Op)
  | [] => pure []
  | (name, visit) :: visits => do
      let nameIid ← internAnnotationName memory name
      let rest ← onlyIf (!visit.panics) (recordAttributes memory visits)
      pure (visitedField nameIid visit :: rest)

def Visits.panic (visits : Visits) : Bool := visits.any fun visit => visit.2.panics

structure EventVisitor where
  annotations : Bool
  counters : Bool
  counterCount : Nat
  useMessageAsName : Bool
  wroteName : Bool

namespace EventVisitor

def new (annotations counters useMessageAsName : Bool) : EventVisitor :=
  ⟨annotations, counters, 0, useMessageAsName, false⟩

def isCounter (memory : StaticMemory) (visitor : EventVisitor) (name : StaticStr) : Bool :=
  visitor.counters && (text "counter.").isPrefixOf (memory.text name)

def isMessage (memory : StaticMemory) (visitor : EventVisitor) (name : StaticStr) : Bool :=
  visitor.useMessageAsName && !visitor.wroteName && memory.text name == text "message"

def counterUuid (name : StaticStr) : Encode (Option Nat) := fun tables =>
  (tables.counterTrackUuid name, tables)

/-- An annotation of the event, when the visitor is to write it. -/
def annotate (memory : StaticMemory) (write : Bool) (name : StaticStr) (visit : FieldVisit) :
    Encode (List Op) :=
  onlyIf write do
    let nameIid ← internAnnotationName memory name
    pure [visitedField nameIid visit]

/-- `record_i64`, `record_u64` and `record_f64`, which differ in the calls of the
sample. -/
def recordNumber (memory : StaticMemory) (bases : IdBases) (visitor : EventVisitor)
    (name : StaticStr) (visit : FieldVisit) (sample : Nat → List Op) :
    Encode (List Op × EventVisitor) := do
  let isCounter := visitor.isCounter memory name
  let uuid ← counterUuid name
  match isCounter && visitor.counterCount < maxExtraCounters, uuid with
  | true, some uuid =>
      pure (sample (bases.uuid uuid),
        { visitor with counterCount := visitor.counterCount + 1 })
  | _, _ => do
      let calls ← annotate memory (isCounter || visitor.annotations) name visit
      pure (calls, visitor)

/-- The name of the event, or else an annotation. -/
def recordText (memory : StaticMemory) (visitor : EventVisitor) (name : StaticStr)
    (visit : FieldVisit) (eventName : Op) : Encode (List Op × EventVisitor) :=
  if visitor.isMessage memory name then pure ([eventName], { visitor with wroteName := true })
  else do
    let calls ← annotate memory visitor.annotations name visit
    pure (calls, visitor)

def recordVisit (memory : StaticMemory) (bases : IdBases) (visitor : EventVisitor)
    (name : StaticStr) : FieldVisit → Encode (List Op × EventVisitor)
  | .i64 value => visitor.recordNumber memory bases name (.i64 value) (counterI64 · value)
  | .u64 value => visitor.recordNumber memory bases name (.u64 value) (counterI64 · value)
  | .f64 bits => visitor.recordNumber memory bases name (.f64 bits) (counterF64 · bits)
  | .str value => visitor.recordText memory name (.str value) (eventNameStr value)
  | .debug value =>
      visitor.recordText memory name (.debug value) (eventNameDebug value.chunks)
  | visit => do
      let calls ← annotate memory visitor.annotations name visit
      pure (calls, visitor)

/-- Whether a visit runs its formatter to a panic. -/
def visitPanics (memory : StaticMemory) (visitor : EventVisitor) (name : StaticStr) :
    FieldVisit → Bool
  | .debug value => (visitor.isMessage memory name || visitor.annotations) && value.panics
  | .error value => visitor.annotations && value.panics
  | _ => false

/-- `event.record`: the calls, the visitor after them and whether a visit panicked. -/
def record (memory : StaticMemory) (bases : IdBases) (visitor : EventVisitor) :
    Visits → Encode (List Op × EventVisitor × Bool)
  | [] => pure ([], visitor, false)
  | (name, visit) :: visits => do
      let first ← visitor.recordVisit memory bases name visit
      if visitor.visitPanics memory name visit then pure (first.1, first.2, true)
      else do
        let rest ← first.2.record memory bases visits
        pure (first.1 ++ rest.1, rest.2)

end EventVisitor

/-! ## Packet bodies -/

/-- A packet that a callback writes, as the callback determines it. -/
inductive Body where
  | trackDescriptor (uuid : Nat) (name : StaticStr) (parentUuid : Nat)
  | counterDescriptor (uuid : Nat) (name : StaticStr) (parentUuid : Nat)
  | lifetimeBegin (uuid : Nat) (metadata : Metadata) (attributes : Visits)
  | lifetimeEnd (uuid : Nat) (flows : List PendingFlow)
      (fields : List (StaticStr × FieldValue))
  | threadBegin (metadata : Metadata) (fields : List (StaticStr × FieldValue))
      (pollFlowId : Option Nat) (flows : List PendingFlow)
  | pollBegin (uuid : Nat) (pollFlowId : Option Nat) (flows : List PendingFlow)
  | enterEnd (uuid : Option Nat) (flows : List PendingFlow)
  | instant (uuid : Option Nat) (metadata : Metadata) (values : Visits)
  deriving DecidableEq, Repr

/-- `name.strip_prefix("counter.").unwrap_or(name)`. -/
def counterName (name : Bytes) : Bytes :=
  if (text "counter.").isPrefixOf name then name.drop (text "counter.").length else name

section Encode

variable (memory : StaticMemory) (config : Config) (bases : IdBases)

def beginEvent (uuid : Nat) (metadata : Metadata) (attributes : Visits) :
    Encode (List Op) := do
  let name ← InternTables.internEventName memory metadata.name
  let described ← writeMetadata memory config metadata
  let annotated ← onlyIf config.debugAnnotations (recordAttributes memory attributes)
  pure ([sliceBegin, trackUuid (bases.uuid uuid), nameIid name] ++ described ++ annotated)

def endEvent (uuid : Nat) (flows : List PendingFlow)
    (fields : List (StaticStr × FieldValue)) : Encode (List Op) := do
  let stored ← onlyIf config.debugAnnotations (writeStoredFields memory fields)
  pure ([sliceEnd, trackUuid (bases.uuid uuid)] ++ writePendingFlows bases flows ++ stored)

def pollFlow (pollFlowId : Option Nat) : List Op :=
  (pollFlowId.map fun flow => flowStart (bases.flowId flow)).toList

def enterThreadEvent (metadata : Metadata) (fields : List (StaticStr × FieldValue))
    (pollFlowId : Option Nat) (flows : List PendingFlow) : Encode (List Op) := do
  let name ← InternTables.internEventName memory metadata.name
  let described ← writeMetadata memory config metadata
  let stored ← onlyIf (config.debugAnnotations && config.spanMode == .threadTracks)
    (writeStoredFields memory fields)
  pure ([sliceBegin, nameIid name] ++ described ++ stored ++ pollFlow bases pollFlowId ++
    writePendingFlows bases flows)

def enterPollEvent (uuid : Nat) (pollFlowId : Option Nat) (flows : List PendingFlow) :
    Encode (List Op) := do
  let name ← InternTables.internEventName memory memory.poll
  pure ([sliceBegin, trackUuid (bases.uuid uuid), nameIid name] ++ pollFlow bases pollFlowId ++
    writePendingFlows bases flows)

def exitEvent (uuid : Option Nat) (flows : List PendingFlow) : List Op :=
  [sliceEnd] ++ (uuid.map fun uuid => trackUuid (bases.uuid uuid)).toList ++
    writePendingFlows bases flows

/-- Unnamed tracing events use `message`; the others keep the metadata's name. -/
def instantEvent (uuid : Option Nat) (metadata : Metadata) (values : Visits) :
    Encode (List Op) := do
  let described ← writeMetadata memory config metadata
  let visitor := EventVisitor.new config.debugAnnotations config.counters
    ((text "event ").isPrefixOf (memory.text metadata.name))
  let recorded ← visitor.record memory bases values
  let named ← onlyIf (!recorded.2.1.wroteName && !recorded.2.2) do
    let name ← InternTables.internEventName memory metadata.name
    pure [nameIid name]
  pure ([Emit.instant] ++ (uuid.map fun uuid => trackUuid (bases.uuid uuid)).toList ++
    described ++ recorded.1 ++ named)

/-- The scope around a track event. -/
def trackEvent (event : Encode (List Op)) : Encode (List Op) := do
  let calls ← event
  pure [.message TracePacket.trackEvent calls]

def Body.encode : Body → Encode (List Op)
  | .trackDescriptor uuid name parentUuid =>
      pure [Emit.trackDescriptor (bases.uuid uuid) (memory.text name) (bases.uuid parentUuid)]
  | .counterDescriptor uuid name parentUuid =>
      pure [Emit.counterDescriptor (bases.uuid uuid) (counterName (memory.text name))
        (bases.uuid parentUuid)]
  | .lifetimeBegin uuid metadata attributes =>
      trackEvent (beginEvent memory config bases uuid metadata attributes)
  | .lifetimeEnd uuid flows fields =>
      trackEvent (endEvent memory config bases uuid flows fields)
  | .threadBegin metadata fields pollFlowId flows =>
      trackEvent (enterThreadEvent memory config bases metadata fields pollFlowId flows)
  | .pollBegin uuid pollFlowId flows =>
      trackEvent (enterPollEvent memory bases uuid pollFlowId flows)
  | .enterEnd uuid flows => trackEvent (pure (exitEvent bases uuid flows))
  | .instant uuid metadata values =>
      trackEvent (instantEvent memory config bases uuid metadata values)

/-- What a callback of the layer asks of its sequence. -/
inductive LayerRequest where
  | packet (answers : Answers) (body : Body)
  | cacheCounterTrack (name : StaticStr) (uuid : Nat)

def LayerRequest.request : LayerRequest → SequenceWriter.Request
  | .packet answers body => .packet answers (body.encode memory config bases)
  | .cacheCounterTrack name uuid => .cacheCounterTrack name uuid

/-- The callbacks of one thread, as its sequence sees them. -/
def requests (callbacks : List (List LayerRequest)) : List (List SequenceWriter.Request) :=
  callbacks.map fun callback => callback.map (LayerRequest.request memory config bases)

end Encode

end TracingPerfetto.TrackEvents
