import TracingPerfetto.Wire
import TracingPerfetto.Proto
import TracingPerfetto.Runtime
import TracingPerfetto.Schema
import TracingPerfetto.Emit
import TracingPerfetto.Sequence
import TracingPerfetto.SequenceRuns
import TracingPerfetto.PacketRoundTrip
import TracingPerfetto.Unwinding
import TracingPerfetto.TrackEvents
import TracingPerfetto.Interning
import TracingPerfetto.InternedNames
import TracingPerfetto.StoredFields
import TracingPerfetto.Counters
import TracingPerfetto.Timestamps
import TracingPerfetto.Threads
import TracingPerfetto.Protocols
import TracingPerfetto.Completion
import TracingPerfetto.Output
import TracingPerfetto.OutputProtocol
import TracingPerfetto.OutputErrors
import TracingPerfetto.OutputStream
import TracingPerfetto.OutputSteps
import TracingPerfetto.OutputRuns
import TracingPerfetto.OutputIntegrity
import TracingPerfetto.Linearizability
import TracingPerfetto.SpanStore
import TracingPerfetto.SpanStoreTiers
import TracingPerfetto.SpanStoreLinear
import TracingPerfetto.SpanStoreRuns
import TracingPerfetto.LayerState
import TracingPerfetto.Subscriber
import TracingPerfetto.LayerProtocol
import TracingPerfetto.LayerCallbacks
import TracingPerfetto.LayerLedger
import TracingPerfetto.LayerContexts
import TracingPerfetto.LayerGuards
import TracingPerfetto.LayerEntries
import TracingPerfetto.Reentrancy
import TracingPerfetto.LayerSpans
import TracingPerfetto.LayerPackets
import TracingPerfetto.LayerFlows
import TracingPerfetto.FlowDelivery
import TracingPerfetto.SpanFields
import TracingPerfetto.SpanPackets
import TracingPerfetto.LayerSequences
import TracingPerfetto.PacketTimes
import TracingPerfetto.Pacing
import TracingPerfetto.Progress
import TracingPerfetto.FlowOrder
import TracingPerfetto.Ownership
import TracingPerfetto.History
import TracingPerfetto.LayerTracks
import TracingPerfetto.TrackOwners
import TracingPerfetto.TrackDescriptors
import TracingPerfetto.RootTracks
import TracingPerfetto.LifetimeSlices
import TracingPerfetto.CounterNames
import TracingPerfetto.Preamble
import TracingPerfetto.ProcessDescriptor
import TracingPerfetto.SpanAnnotations
import TracingPerfetto.ClockDrift
import TracingPerfetto.Allocators
import TracingPerfetto.Integers
import TracingPerfetto.EventRouting
import TracingPerfetto.PacketFields
import TracingPerfetto.FieldNames
import TracingPerfetto.CounterTracks
import TracingPerfetto.ThreadContexts
import TracingPerfetto.FirstCallbacks
import TracingPerfetto.StoreMirror
import TracingPerfetto.CallbackPackets
import TracingPerfetto.ErrorSilence
