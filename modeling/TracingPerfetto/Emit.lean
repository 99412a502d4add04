import TracingPerfetto.Proto
import TracingPerfetto.Runtime
import TracingPerfetto.Schema

/-!
The straight-line writers of `emit.rs`: each definition is the encoder calls
that the function of the same name makes.
-/

namespace TracingPerfetto.Emit

open TracingPerfetto.Wire TracingPerfetto.Proto TracingPerfetto.Runtime
open TracingPerfetto.Schema

def maxExtraCounters : Nat := 8

def sliceBegin : Op := .varint TrackEvent.type TrackEvent.typeSliceBegin

def sliceEnd : Op := .varint TrackEvent.type TrackEvent.typeSliceEnd

def instant : Op := .varint TrackEvent.type TrackEvent.typeInstant

def trackUuid (uuid : Nat) : Op := .redundantVarint TrackEvent.trackUuid uuid

def nameIid (iid : Nat) : Op := .varint TrackEvent.nameIid iid

def flowStart (id : Nat) : Op := .fixed64 TrackEvent.flowIds id

def flowTerminate (id : Nat) : Op := .fixed64 TrackEvent.terminatingFlowIds id

def sourceLocationIid (iid : Nat) : Op := .varint TrackEvent.sourceLocationIid iid

def categoryIid (iid : Nat) : Op := .varint TrackEvent.categoryIids iid

/-- The message that every annotation writer opens, with its name. -/
def annotated (nameIid : Nat) (value : Op) : Op :=
  .message TrackEvent.debugAnnotations [.varint DebugAnnotation.nameIid nameIid, value]

def levelAnnotation (nameIid valueIid : Nat) : Op :=
  annotated nameIid (.varint DebugAnnotation.stringValueIid valueIid)

def annotationBool (nameIid : Nat) (value : Bool) : Op :=
  annotated nameIid (.varint DebugAnnotation.boolValue value.toNat)

def annotationI64 (nameIid : Nat) (value : Int) : Op :=
  annotated nameIid (.varint DebugAnnotation.intValue (asU64 value))

def annotationU64 (nameIid value : Nat) : Op :=
  annotated nameIid (.varint DebugAnnotation.uintValue value)

def annotationF64 (nameIid bits : Nat) : Op :=
  annotated nameIid (.double DebugAnnotation.doubleValue bits)

def annotationStr (nameIid : Nat) (value : Bytes) : Op :=
  annotated nameIid (.string DebugAnnotation.stringValue value)

def annotationDebug (nameIid : Nat) (chunks : List Bytes) : Op :=
  annotated nameIid (.fmt DebugAnnotation.stringValue chunks)

def annotationDisplay (nameIid : Nat) (chunks : List Bytes) : Op :=
  annotated nameIid (.fmt DebugAnnotation.stringValue chunks)

def counterI64 (trackUuid : Nat) (value : Int) : List Op :=
  [.redundantVarint TrackEvent.extraCounterTrackUuids trackUuid,
    .varint TrackEvent.extraCounterValues (asU64 value)]

def counterF64 (trackUuid bits : Nat) : List Op :=
  [.redundantVarint TrackEvent.extraDoubleCounterTrackUuids trackUuid,
    .double TrackEvent.extraDoubleCounterValues bits]

def eventNameStr (value : Bytes) : Op := .string TrackEvent.name value

def eventNameDebug (chunks : List Bytes) : Op := .fmt TrackEvent.name chunks

def trackDescriptor (uuid : Nat) (name : Bytes) (parentUuid : Nat) : Op :=
  .message TracePacket.trackDescriptor
    [.redundantVarint TrackDescriptor.uuid uuid,
      .string TrackDescriptor.name name,
      .redundantVarint TrackDescriptor.parentUuid parentUuid]

def counterDescriptor (uuid : Nat) (name : Bytes) (parentUuid : Nat) : Op :=
  .message TracePacket.trackDescriptor
    [.redundantVarint TrackDescriptor.uuid uuid,
      .string TrackDescriptor.name name,
      .redundantVarint TrackDescriptor.parentUuid parentUuid,
      .message TrackDescriptor.counter []]

end TracingPerfetto.Emit
