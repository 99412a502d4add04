import TracingPerfetto.Runtime
import TracingPerfetto.Threads

/-!
How packets reach the writer: the rings between the threads and the drains
(`runtime.rs`), the end of a packet (`Packet::drop` in `sequence.rs`) and the end of
a thread (`ThreadCtx::drop` in `thread.rs`), as programs over atomic actions. The
log is the history of a run, newest first; no program reads it.
-/

namespace TracingPerfetto.Output

open TracingPerfetto.Wire TracingPerfetto.Threads

abbrev ThreadId := Nat

inductive ErrorKind where
  | notFound | permissionDenied | connectionRefused | connectionReset | hostUnreachable
  | networkUnreachable | connectionAborted | notConnected | addrInUse | addrNotAvailable
  | networkDown | brokenPipe | alreadyExists | wouldBlock | notADirectory | isADirectory
  | directoryNotEmpty | readOnlyFilesystem | staleNetworkFileHandle | invalidInput
  | invalidData | timedOut | writeZero | storageFull | notSeekable | quotaExceeded
  | fileTooLarge | resourceBusy | executableFileBusy | deadlock | crossesDevices
  | tooManyLinks | invalidFilename | argumentListTooLong | interrupted | unsupported
  | unexpectedEof | outOfMemory | other
  deriving DecidableEq, Repr

/-- A `std::io::Error`, as far as `kind` and `to_string` tell. -/
structure IoError where
  kind : ErrorKind
  text : Bytes
  deriving DecidableEq, Repr

/-- What `flush_all` reports when no error is recorded. -/
def IoError.unrecorded : IoError :=
  ⟨.other, "tracing-perfetto-file: write error".toUTF8.data.toList⟩

/-- The mutexes: the consumer of each thread's ring, the writer, the recorded error and
the list of threads. -/
inductive Lock where
  | consumer (buffer : ThreadId)
  | writer
  | error
  | threads
  deriving DecidableEq, Repr

/-- Why `has_error` is tested: by a drain that has bytes to write or not, or by
`flush_all` for its result. -/
inductive TestUse where
  | write (bytes : Bool)
  | report
  deriving DecidableEq, Repr

inductive Event where
  | started (thread : ThreadId) (packet : Bytes)
  | completed (thread : ThreadId) (packet : Bytes)
  | tested (thread : ThreadId) (use : TestUse) (seen : Bool)
  | wrote (thread : ThreadId) (bytes : Bytes) (error : Option IoError)
  | flushed (thread : ThreadId) (error : Option IoError)
  | recorded (thread : ThreadId) (error : IoError)
  | published (thread : ThreadId)
  | flushStarted (thread : ThreadId)
  | flushReturned (thread : ThreadId) (error : Option IoError)
  deriving DecidableEq, Repr

/-- The context of a thread in its thread-local storage. -/
inductive Context where
  | absent
  | live
  | gone
  deriving DecidableEq, Repr

/-- What `Inner` and the contexts hold for the way to the writer; a ring holds the bytes
that are pushed and not yet committed by its consumer. -/
structure State where
  rings : ThreadId → Bytes
  contexts : ThreadId → Context
  owner : Lock → Option ThreadId
  threads : List ThreadId
  error : Option IoError
  hasError : Bool
  alive : Bool
  output : Bytes
  log : List Event

def State.initial : State where
  rings := fun _ => []
  contexts := fun _ => .absent
  owner := fun _ => none
  threads := []
  error := none
  hasError := false
  alive := true
  output := []
  log := []

def State.note (state : State) (event : Event) : State :=
  { state with log := event :: state.log }

def ringCapacity : Nat := 32 * 1024

inductive Act where
  | registerThread
  | pushEntireSlice (packet : Bytes)
  | complete (packet : Bytes)
  | lock (lock : Lock)
  | unlock (lock : Lock)
  | slots (buffer : ThreadId)
  | readChunk (buffer : ThreadId) (available : Nat)
  | hasError (use : TestUse)
  | writeAll (bytes : Bytes)
  | commitAll (buffer : ThreadId) (available : Nat)
  | flushWriter
  | recordFirst (error : IoError)
  | storeHasError
  | recorded
  | cloneThreads
  | flushReturn (error : Option IoError)
  deriving DecidableEq, Repr

/-- A result `io::Result<()>` is its error, if it has one. -/
abbrev Reply : Act → Type
  | .pushEntireSlice _ => Bool
  | .slots _ => Nat
  | .readChunk _ _ => Bytes × Bytes
  | .hasError _ => Bool
  | .writeAll _ => Option IoError
  | .flushWriter => Option IoError
  | .recorded => Option IoError
  | .cloneThreads => List ThreadId
  | _ => Unit

/-- The environment: where a chunk wraps around the end of its ring, and whether the
writer accepts all bytes or fails after some of them. -/
inductive Choice where
  | plain
  | wrap (first : Nat)
  | fail (accepted : Nat) (error : IoError)
  deriving DecidableEq, Repr

/-- One action of a thread. `read_chunk` with more than the published slots would panic
and has no step here, and so has `lock` on a held mutex. -/
def perform (thread : ThreadId) (action : Act) (choice : Choice) (state : State) :
    Option (Reply action × State) :=
  match action with
  | .registerThread => some ((), { state with
      threads := state.threads ++ [thread]
      contexts := Function.update state.contexts thread .live })
  | .pushEntireSlice packet =>
      let ring := state.rings thread ++ packet
      if ring.length ≤ ringCapacity then
        some (true, { state with rings := Function.update state.rings thread ring })
      else some (false, state)
  | .complete packet => some ((), state.note (.completed thread packet))
  | .lock lock =>
      if state.owner lock = none then
        some ((), { state with owner := Function.update state.owner lock (some thread) })
      else none
  | .unlock lock =>
      some ((), { state with owner := Function.update state.owner lock none })
  | .slots buffer => some ((state.rings buffer).length, state)
  | .readChunk buffer available =>
      let chunk := (state.rings buffer).take available
      let first := match choice with
        | .wrap first => first
        | _ => available
      if available ≤ (state.rings buffer).length then
        some ((chunk.take first, chunk.drop first), state)
      else none
  | .hasError use => some (state.hasError, state.note (.tested thread use state.hasError))
  | .writeAll bytes =>
      match choice with
      | .fail accepted error =>
          some (some error, { state with output := state.output ++ bytes.take accepted }.note
            (.wrote thread bytes (some error)))
      | _ =>
          some (none, { state with output := state.output ++ bytes }.note
            (.wrote thread bytes none))
  | .commitAll buffer available => some ((), { state with
      rings := Function.update state.rings buffer ((state.rings buffer).drop available) })
  | .flushWriter =>
      match choice with
      | .fail _ error => some (some error, state.note (.flushed thread (some error)))
      | _ => some (none, state.note (.flushed thread none))
  | .recordFirst error => some ((), { state with error := state.error <|> some error }.note
      (.recorded thread error))
  | .storeHasError => some ((), { state with hasError := true }.note (.published thread))
  | .recorded => some (state.error, state)
  | .cloneThreads => some (state.threads, state)
  | .flushReturn error => some ((), state.note (.flushReturned thread error))

abbrev Program := Prog Act Reply

abbrev act (action : Act) : Program (Reply action) := .perform action

def recordError (error : IoError) : Program Unit := do
  act (.lock .error)
  act (.recordFirst error)
  act .storeHasError
  act (.unlock .error)

/-- `if let Some(error) = error { self.record_error(error) }`. -/
def recordAny : Option IoError → Program Unit
  | some error => recordError error
  | none => pure ()

/-- The chunk part of `drain_thread_buffer`: an error makes the second slice stay
unwritten, and the chunk is committed either way. -/
def drainChunk (buffer : ThreadId) (available : Nat) : Program (Option IoError) :=
  if available = 0 then pure none
  else do
    let (first, second) ← act (.readChunk buffer available)
    let discard ← act (.hasError (.write true))
    let error ←
      if discard then pure none
      else do
        let error ← act (.writeAll first)
        if error.isSome then pure error
        else act (.writeAll second)
    act (.commitAll buffer available)
    pure error

/-- The trailing part of `drain_thread_buffer`. -/
def drainTrailing (trailing : Bytes) : Option IoError → Program (Option IoError)
  | some error => pure (some error)
  | none => do
      let discard ← act (.hasError (.write !trailing.isEmpty))
      if !discard && !trailing.isEmpty then act (.writeAll trailing) else pure none

def drainThreadBuffer (buffer : ThreadId) (trailing : Bytes) : Program Unit := do
  act (.lock (.consumer buffer))
  act (.lock .writer)
  let available ← act (.slots buffer)
  let error ← drainChunk buffer available
  let error ← drainTrailing trailing error
  act (.unlock .writer)
  act (.unlock (.consumer buffer))
  recordAny error

/-- The end of `Packet::drop`, with the finished bytes of the packet. -/
def packetDrop (thread : ThreadId) (packet : Bytes) : Program Unit := do
  let pushed ← act (.pushEntireSlice packet)
  if !pushed then drainThreadBuffer thread packet
  act (.complete packet)

def drainAll : List ThreadId → Program Unit
  | [] => pure ()
  | buffer :: buffers => do
      drainThreadBuffer buffer []
      drainAll buffers

def flushAll : Program Unit := do
  act (.lock .threads)
  let buffers ← act .cloneThreads
  act (.unlock .threads)
  drainAll buffers
  act (.lock .writer)
  let error ← act .flushWriter
  act (.unlock .writer)
  recordAny error
  let failed ← act (.hasError .report)
  if !failed then act (.flushReturn none)
  else do
    act (.lock .error)
    let recorded ← act .recorded
    act (.unlock .error)
    act (.flushReturn (some (recorded.getD .unrecorded)))

/-- The part of `ThreadCtx::new` that shares the new ring. -/
def newContext : Program Unit := do
  act (.lock .threads)
  act .registerThread
  act (.unlock .threads)

inductive Call where
  | newContext
  | packet (bytes : Bytes)
  | flush
  | exit
  | dropInner
  deriving DecidableEq, Repr

/-- The calls into the way to the writer: the first use of the layer on a thread, the
end of a packet, `FlushGuard::flush` or the drop of the guard, the end of a thread, and
the drop of `Inner`. A packet is never empty: `packet_ne_nil`. The reference counts let
nothing run after the drop of `Inner` or beside it; here what runs may go on. -/
def call (thread : ThreadId) (call : Call) (state : State) : Option (Program Unit × State) :=
  match call with
  | .newContext =>
      if state.alive ∧ state.contexts thread = .absent then some (newContext, state) else none
  | .packet bytes =>
      if state.alive ∧ state.contexts thread = .live ∧ bytes ≠ [] then
        some (packetDrop thread bytes, state.note (.started thread bytes))
      else none
  | .flush =>
      if state.alive then some (flushAll, state.note (.flushStarted thread)) else none
  | .exit =>
      if state.contexts thread = .live then
        some (if state.alive then drainThreadBuffer thread [] else pure (),
          { state with contexts := Function.update state.contexts thread .gone })
      else none
  | .dropInner =>
      if state.alive then
        some (flushAll, { state with alive := false }.note (.flushStarted thread))
      else none

/-- A writer that itself logs through this layer is left out: there is no user code. -/
abbrev system : System ThreadId Act Reply where
  State := State
  Choice := Choice
  Call := Call
  perform := perform
  user := fun _ => false
  call := call

abbrev start : system.Config := System.idle State.initial

/-! ## What a history tells -/

def startedBy (thread : ThreadId) : Event → Option Bytes
  | .started by_ packet => if by_ = thread then some packet else none
  | _ => none

def completedBy (thread : ThreadId) : Event → Option Bytes
  | .completed by_ packet => if by_ = thread then some packet else none
  | _ => none

/-- The packets that the thread emitted, in its order. -/
def emitted (thread : ThreadId) (log : List Event) : List Bytes :=
  (log.filterMap (startedBy thread)).reverse

def completed (thread : ThreadId) (log : List Event) : List Bytes :=
  (log.filterMap (completedBy thread)).reverse

/-- What came before the latest `flush_all` of the thread started. -/
def beforeFlush (thread : ThreadId) : List Event → List Event
  | [] => []
  | event :: log => if event = .flushStarted thread then log else beforeFlush thread log

def failureOf : Event → Option (ThreadId × IoError)
  | .wrote thread _ (some error) => some (thread, error)
  | .flushed thread (some error) => some (thread, error)
  | _ => none

/-- The failures that the writer returned, newest first. -/
def failures (log : List Event) : List (ThreadId × IoError) := log.filterMap failureOf

def firstFailure (log : List Event) : Option (ThreadId × IoError) := (failures log).getLast?

/-- A `write_all` failed on the thread, and `record_error` has not published it. -/
def unpublished (thread : ThreadId) : List Event → Bool
  | [] => false
  | .wrote by_ _ (some _) :: log => by_ = thread || unpublished thread log
  | .published by_ :: log => by_ ≠ thread && unpublished thread log
  | _ :: log => unpublished thread log

/-- Each event of the history, with what was before it, meets the condition. -/
def Throughout (condition : Event → List Event → Prop) : List Event → Prop
  | [] => True
  | event :: log => condition event log ∧ Throughout condition log

/-- The packets of a thread in a sequence of packets with their threads. -/
def packetsOf (thread : ThreadId) (order : List (ThreadId × Bytes)) : List Bytes :=
  order.filterMap fun entry => if entry.1 = thread then some entry.2 else none

def bytesOf (order : List (ThreadId × Bytes)) : Bytes := (order.map Prod.snd).flatten

end TracingPerfetto.Output
