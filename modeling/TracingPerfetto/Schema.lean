/-!
Field numbers of the Perfetto trace protos that the layer writes, transcribed
from the `schema` module of `emit.rs`.
-/

namespace TracingPerfetto.Schema

namespace Trace
def packet : Nat := 1
end Trace

namespace TracePacket
def clockSnapshot : Nat := 6
def timestamp : Nat := 8
def trustedPacketSequenceId : Nat := 10
def trackEvent : Nat := 11
def internedData : Nat := 12
def sequenceFlags : Nat := 13
def timestampClockId : Nat := 58
def tracePacketDefaults : Nat := 59
def trackDescriptor : Nat := 60
def firstPacketOnSequence : Nat := 87
def seqIncrementalStateCleared : Nat := 1
def seqNeedsIncrementalState : Nat := 2
end TracePacket

namespace TracePacketDefaults
def trackEventDefaults : Nat := 11
def timestampClockId : Nat := 58
end TracePacketDefaults

namespace TrackEventDefaults
def trackUuid : Nat := 11
end TrackEventDefaults

namespace ClockSnapshot
def clocks : Nat := 1
def primaryTraceClock : Nat := 2
def clockId : Nat := 1
def clockTimestamp : Nat := 2
def clockIsIncremental : Nat := 3
def builtinClockRealtime : Nat := 1
def builtinClockMonotonic : Nat := 3
def customClockId : Nat := 64
end ClockSnapshot

namespace TrackEvent
def categoryIids : Nat := 3
def debugAnnotations : Nat := 4
def type : Nat := 9
def nameIid : Nat := 10
def trackUuid : Nat := 11
def extraCounterValues : Nat := 12
def name : Nat := 23
def extraCounterTrackUuids : Nat := 31
def sourceLocationIid : Nat := 34
def extraDoubleCounterTrackUuids : Nat := 45
def extraDoubleCounterValues : Nat := 46
def flowIds : Nat := 47
def terminatingFlowIds : Nat := 48
def typeSliceBegin : Nat := 1
def typeSliceEnd : Nat := 2
def typeInstant : Nat := 3
end TrackEvent

namespace EventName
def iid : Nat := 1
def name : Nat := 2
end EventName

namespace SourceLocation
def iid : Nat := 1
def fileName : Nat := 2
def lineNumber : Nat := 4
end SourceLocation

namespace TrackDescriptor
def uuid : Nat := 1
def name : Nat := 2
def process : Nat := 3
def thread : Nat := 4
def parentUuid : Nat := 5
def counter : Nat := 8
end TrackDescriptor

namespace ProcessDescriptor
def pid : Nat := 1
def cmdline : Nat := 2
def processName : Nat := 6
end ProcessDescriptor

namespace ThreadDescriptor
def pid : Nat := 1
def tid : Nat := 2
def threadName : Nat := 5
end ThreadDescriptor

namespace InternedData
def eventCategories : Nat := 1
def eventNames : Nat := 2
def debugAnnotationNames : Nat := 3
def sourceLocations : Nat := 4
def debugAnnotationStringValues : Nat := 29
end InternedData

namespace DebugAnnotation
def nameIid : Nat := 1
def boolValue : Nat := 2
def uintValue : Nat := 3
def intValue : Nat := 4
def doubleValue : Nat := 5
def stringValue : Nat := 6
def stringValueIid : Nat := 17
end DebugAnnotation

namespace InternedString
def iid : Nat := 1
def str : Nat := 2
end InternedString

namespace DebugAnnotationName
def iid : Nat := 1
def name : Nat := 2
end DebugAnnotationName

end TracingPerfetto.Schema
