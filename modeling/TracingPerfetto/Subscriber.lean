import TracingPerfetto.LayerState
import TracingPerfetto.Counters

/-!
The callbacks of the layer (`subscriber.rs`) and what they use of `thread.rs` and
`sequence.rs`, as programs over the atomic actions. A formatter that panics unwinds its
callback: the open packet is finished and the guards are dropped.
-/

namespace TracingPerfetto.Layer

open TracingPerfetto.Runtime TracingPerfetto.Sequence TracingPerfetto.TrackEvents
open TracingPerfetto.Counters TracingPerfetto.Threads
open TracingPerfetto.SpanStore (SpanId)

abbrev Program := Prog Act Act.Reply

def act (action : Act) : Program action.Reply := Prog.perform action

/-! ## The context of the thread (`thread.rs`) -/

def acquire : Program Bool := do
  let failed ← act (.shared .hasError)
  if failed then pure false
  else do
    let found ← act (.context .lookup)
    match found with
    | .acquired => pure true
    | .refused => pure false
    | .missing => do
        let sequenceId ← act (.shared .allocSequenceId)
        let uuid ← act (.shared .allocUuid)
        let anchor ← act (.sequence .readClock)
        act (.context (.insert sequenceId uuid anchor))
        pure true

def dropGuard : Program Unit := act (.context .dropGuard)

def takeRetainedSpan : Program RetainedSpanData := do
  let acquired ← acquire
  if acquired then do
    let box ← act (.context .takeRetained)
    dropGuard
    pure box.retained
  else pure .default

def recycleRetainedSpan (retained : RetainedSpanData) : Program Unit := do
  let acquired ← acquire
  if acquired then do
    act (.context (.returnRetained retained))
    dropGuard
  else pure ()

/-- `SpanStore::track_pool`. -/
def trackPool (key : TrackKey) : Program (Option (PoolOf key)) := do
  let found ← act (.pools (.find key))
  match found with
  | some pool => pure (some pool)
  | none => act (.pools (.create key))

def replaceTrackPool (key : TrackKey) (pool : PoolOf key) (localUuid : Option Nat) :
    Program Unit := do
  let old ← act (.context .evict)
  match old with
  | some (old, uuid) => do
      act (.pools (.release old uuid))
      act (.context (.cachePool key pool localUuid))
  | none => act (.context (.cachePool key pool localUuid))

def claimTrack (key : TrackKey) : Program (Option (PoolOf key × Option Nat)) := do
  let cached ← act (.context (.cachedTrack key))
  match cached with
  | some (pool, some uuid) => pure (some (pool, some uuid))
  | some (pool, none) => do
      let uuid ← act (.pools (.claim pool.val))
      pure (some (pool, uuid))
  | none => do
      let found ← trackPool key
      match found with
      | some pool => do
          let uuid ← act (.pools (.claim pool.val))
          replaceTrackPool key pool none
          pure (some (pool, uuid))
      | none => pure none

def releaseTrack (pool : PoolRef) (uuid : Nat) : Program Unit := do
  let outcome ← act (.context (.releaseLocal pool uuid))
  match outcome with
  | .kept => pure ()
  | .full => act (.pools (.release pool uuid))
  | .uncached => replaceTrackPool pool.key ⟨pool, rfl⟩ (some uuid)

def releaseAll : List (PoolRef × Nat) → Program Unit
  | [] => pure ()
  | (pool, uuid) :: uuids => do
      act (.pools (.release pool uuid))
      releaseAll uuids

/-- The drop of the context with its thread. -/
def dropContext : Program Unit := do
  let uuids ← act (.context .destroy)
  releaseAll uuids

/-! ## Packets (`sequence.rs`) -/

section Packets

variable (span : Option Nat) (calledAt : Nat)

def write (content : Content) : Program Unit :=
  act (.sequence (.write span calledAt content))

def processDescriptor : Program Unit := do
  let claimed ← act (.shared .claimProcessDescriptor)
  if claimed then do
    let uuid ← act (.shared .processTrackUuid)
    write none calledAt (.processDescriptor uuid)
  else pure ()

def initializeSequence : Program Unit := do
  act (.sequence .markInitialized)
  act (.sequence .timestamp)
  write none calledAt .clockSnapshot
  processDescriptor calledAt
  write none calledAt .threadDescriptor

def ensureInitialized : Program Unit := do
  let initialized ← act (.sequence .initialized)
  if initialized then pure () else initializeSequence calledAt

/-- The packet is open while its body comes about. -/
def packet (body : Program Body) : Program Unit := do
  ensureInitialized calledAt
  act (.sequence .timestamp)
  let body ← body
  write span calledAt (.body body)

end Packets

/-! ## Callbacks (`subscriber.rs`) -/

section Callbacks

variable (env : Env) (calledAt : Nat)

/-- The track of an enclosing span, as the store has it. -/
def enclosingTrack : Option SpanId → Program (Option Nat)
  | none => pure none
  | some spanId => do
      let found ← act (.spans (.get spanId))
      match found with
      | some found => do
          act (.spans (.dropRef found))
          pure found.data.trackUuid
      | none => pure none

def createSpanTrack (key : TrackKey) : Program Nat := do
  let uuid ← act (.shared .allocUuid)
  packet none calledAt (pure (.trackDescriptor uuid key.name key.parentUuid))
  pure uuid

def createCounterTrack (name : StaticStr) : Program Unit := do
  let uuid ← act (.shared (.counterTrackUuid name.ptr))
  packet none calledAt do
    let process ← act (.shared .processTrackUuid)
    pure (.counterDescriptor uuid name process)
  act (.sequence (.cacheCounterTrack name uuid))

/-- A visit of the fields with `StoreVisitor`, and whether it panicked. -/
def storeFields (span : Nat) (retained : RetainedSpanData) :
    Program (RetainedSpanData × Bool) := do
  let visits ← act (.format (some span))
  let stored := StoreVisitor.record env.memory retained.fields visits
  pure ({ retained with fields := stored.1 }, stored.2)

/-- The box of a new span, if it needs one; `none` when a formatter panicked. -/
def newRetained (instance_ : Nat) : Program (Option (Option RetainedSpanData)) := do
  let retainFields := env.config.debugAnnotations && env.config.spanMode == .threadTracks
  let threadSlices := env.config.spanMode.emitThreadSlices
  if retainFields || threadSlices then do
    let retained ← takeRetainedSpan
    let (retained, panicked) ←
      if retainFields then storeFields env instance_ retained else pure (retained, false)
    if panicked then pure none
    else if threadSlices then do
      let flow ← act (.shared .allocFlowId)
      pure (some (some { retained with pollFlowId := some flow }))
    else pure (some (some retained))
  else pure (some none)

/-- The attributes that `AttributeVisitor` visits, if it does. -/
def visitAttributes : Program Visits :=
  if env.config.debugAnnotations then act (.format none) else pure []

/-- The part of `on_new_span` after the acquisition of the context. -/
def beginLifetime (spanId : SpanId) (instance_ : Nat) (metadata : Metadata) (key : TrackKey)
    (data : SpanData) : Program Unit := do
  let claim ← claimTrack key
  act (.sequence .newWriter)
  let uuid ←
    match claim.bind Prod.snd with
    | some uuid => pure uuid
    | none => createSpanTrack calledAt key
  ensureInitialized calledAt
  act (.sequence .timestamp)
  let visits ← visitAttributes env
  write (some instance_) calledAt (.body (.lifetimeBegin uuid metadata visits))
  if visits.panic then dropGuard
  else do
    act (.spans (.insert spanId instance_
      { data with trackPool := claim.map fun claim => claim.1.val, trackUuid := some uuid }))
    dropGuard

def onNewSpan (spanId : SpanId) (instance_ : Nat) (parent : Option SpanId) :
    Program Unit := do
  let failed ← act (.shared .hasError)
  if failed then pure ()
  else do
    let known ← act (.registry (.span spanId))
    match known with
    | none => pure ()
    | some metadata => do
        let retained ← newRetained env instance_
        match retained with
        | none => pure ()
        | some retained =>
            if !env.config.spanMode.emitSpanSlices then
              act (.spans (.insert spanId instance_ (SpanData.new retained)))
            else do
              let enclosing ← enclosingTrack parent
              let parentUuid ←
                match enclosing with
                | some uuid => pure uuid
                | none => act (.shared .processTrackUuid)
              let acquired ← acquire
              if acquired then
                beginLifetime env calledAt spanId instance_ metadata
                  ⟨metadata.name, parentUuid⟩ (SpanData.new retained)
              else act (.spans (.insert spanId instance_ (SpanData.new retained)))

/-- `data.retained` is filled on its first use. -/
def ensureRetained (found : Found) : Program (Found × RetainedSpanData) :=
  match found.data.retained with
  | some retained => pure (found, retained)
  | none => do
      let retained ← takeRetainedSpan
      let found := found.withData { found.data with retained := some retained }
      act (.spans (.put found))
      pure (found, retained)

def onRecord (spanId : SpanId) : Program Unit := do
  if !env.config.debugAnnotations then pure ()
  else do
    let failed ← act (.shared .hasError)
    if failed then pure ()
    else do
      let found ← act (.spans (.getMut spanId))
      match found with
      | none => pure ()
      | some found => do
          let (found, retained) ← ensureRetained found
          let (retained, _) ← storeFields env found.entry.instance_ retained
          let found := found.withData { found.data with retained := some retained }
          act (.spans (.put found))
          act (.spans (.dropMut found))

def queueFlow (spanId : SpanId) (flow : PendingFlow) : Program Bool := do
  let found ← act (.spans (.getMut spanId))
  match found with
  | none => pure false
  | some found => do
      let (found, _) ← ensureRetained found
      act (.spans (.pushFlow found flow))
      act (.spans (.dropMut (found.withData (found.data.pushFlow flow))))
      pure true

def onFollowsFrom (spanId follows : SpanId) : Program Unit := do
  let failed ← act (.shared .hasError)
  if failed then pure ()
  else do
    let span ← act (.registry (.span spanId))
    match span with
    | none => pure ()
    | some _ => do
        let other ← act (.registry (.span follows))
        match other with
        | none => pure ()
        | some _ => do
            act (.spans .noteFollowsFrom)
            let flow ← act (.shared .allocFlowId)
            let queued ← queueFlow follows (.start flow)
            if queued then do
              let _ ← queueFlow spanId (.terminate flow)
              pure ()
            else pure ()

/-- The slice of `on_enter` or `on_exit`, with the flows that it takes along, and the end
of the callback. -/
def boundary (found : Found) (flows : Bool) (body : List PendingFlow → Body) :
    Program Unit := do
  act (.sequence .newWriter)
  packet (some found.entry.instance_) calledAt
    (pure (body (if flows then found.data.pendingFlows else [])))
  if flows then do
    let found := found.withData found.data.clearPendingFlows
    act (.spans (.put found))
    act (.spans (.dropMut found))
    dropGuard
  else do
    act (.spans (.dropMut found))
    dropGuard

def onEnter (spanId : SpanId) : Program Unit := do
  let threadSlices := env.config.spanMode.emitThreadSlices
  if !threadSlices && !env.config.pollSlices then pure ()
  else do
    let failed ← act (.shared .hasError)
    if failed then pure ()
    else do
      let known ← act (.registry (.span spanId))
      match known with
      | none => pure ()
      | some metadata => do
          let acquired ← acquire
          if !acquired then pure ()
          else do
            let found ← act (.spans (.getMut spanId))
            match found with
            | none => dropGuard
            | some found =>
                if threadSlices then do
                  let flows ← act (.spans .hasFollowsFrom)
                  boundary calledAt found flows
                    (.threadBegin metadata found.data.fields found.data.pollFlowId)
                else
                  match found.data.trackUuid with
                  | none => do
                      act (.spans (.dropMut found))
                      dropGuard
                  | some uuid => do
                      let flows ← act (.spans .hasFollowsFrom)
                      boundary calledAt found flows (.pollBegin uuid found.data.pollFlowId)

def onExit (spanId : SpanId) : Program Unit := do
  let threadSlices := env.config.spanMode.emitThreadSlices
  if !threadSlices && !env.config.pollSlices then pure ()
  else do
    let failed ← act (.shared .hasError)
    if failed then pure ()
    else do
      let acquired ← acquire
      if !acquired then pure ()
      else do
        let found ← act (.spans (.getMut spanId))
        match found with
        | none => dropGuard
        | some found =>
            if threadSlices then do
              let flows ← act (.spans .hasFollowsFrom)
              boundary calledAt found flows (.enterEnd none)
            else
              match found.data.trackUuid with
              | none => do
                  act (.spans (.dropMut found))
                  dropGuard
              | some uuid => boundary calledAt found false (.enterEnd (some uuid))

/-- The end of `on_close`: the track and the box go back, through the context if the
thread has it. -/
def giveBackTrack (acquired : Bool) (data : SpanData) : Program Unit :=
  match data.trackPool, data.trackUuid with
  | some pool, some uuid =>
      if acquired then releaseTrack pool uuid else act (.pools (.release pool uuid))
  | _, _ => pure ()

def giveBackRetained (acquired : Bool) (data : SpanData) : Program Unit :=
  match data.retained with
  | some retained =>
      if acquired then act (.context (.returnRetained retained))
      else recycleRetainedSpan retained
  | none => pure ()

def giveBack (acquired : Bool) (data : SpanData) : Program Unit := do
  giveBackTrack acquired data
  giveBackRetained acquired data
  if acquired then dropGuard else pure ()

def onClose (spanId : SpanId) : Program Unit := do
  let found ← act (.spans (.take spanId))
  match found with
  | none => pure ()
  | some found =>
      match found.data.trackUuid with
      | none => giveBack false found.data
      | some uuid => do
          let failed ← act (.shared .hasError)
          let acquired ← if failed then pure false else acquire
          if acquired then do
            act (.sequence .newWriter)
            packet (some found.entry.instance_) calledAt
              (pure (.lifetimeEnd uuid found.data.pendingFlows found.data.fields))
            giveBack true found.data
          else giveBack false found.data

def createCounterTracks : List StaticStr → Program Unit
  | [] => pure ()
  | name :: names => do
      let known ← act (.sequence (.counterTrackUuid name))
      match known with
      | some _ => createCounterTracks names
      | none => do
          createCounterTrack calledAt name
          createCounterTracks names

def onEvent (metadata : Metadata) (span : Option SpanId) : Program Unit := do
  let failed ← act (.shared .hasError)
  if failed then pure ()
  else do
    let acquired ← acquire
    if !acquired then pure ()
    else do
      let threadTrack ← act (.sequence .threadTrackUuid)
      let enclosing ←
        if env.config.spanMode == .spanTracks then enclosingTrack span else pure none
      let uuid := enclosing.getD threadTrack
      act (.sequence .newWriter)
      if env.config.counters then
        createCounterTracks calledAt (declaredCounters env.memory metadata)
      else pure ()
      packet none calledAt do
        let visits ← act (.format none)
        pure (.instant (if env.bases.uuid uuid = env.bases.uuid threadTrack then none
          else some uuid) metadata visits)
      dropGuard

end Callbacks

/-! ## The system -/

def Call.program (env : Env) (calledAt instance_ : Nat) : Call → Program Unit
  | .newSpan spanId _ parent => onNewSpan env calledAt spanId instance_ parent
  | .record spanId => onRecord env spanId
  | .followsFrom spanId follows => onFollowsFrom spanId follows
  | .enter spanId => onEnter env calledAt spanId
  | .exit spanId => onExit env calledAt spanId
  | .close spanId => onClose calledAt spanId
  | .event metadata span => onEvent env calledAt metadata span
  | .exitThread => dropContext

/-- What the registry does before a callback; `none` where it does not make the call.
It creates an id once, enters and exits a span in matched pairs on a thread, and closes
a span when nothing refers to it any more. -/
def Registry.accept (thread : ThreadId) (registry : Registry) : Call → Option Registry
  | .newSpan spanId metadata parent =>
      if (registry.spans spanId).isSome || spanId = 0 then none
      else
        let added : Registry := { registry with
          spans := Function.update registry.spans spanId
            (some ⟨registry.nextInstance, metadata, parent, [], 0, [thread], false⟩)
          nextInstance := registry.nextInstance + 1
          parents := Function.update registry.parents registry.nextInstance parent }
        match parent with
        | none => some added
        | some parent =>
            if parent ≠ spanId && registry.alive parent then
              some (added.modify parent fun span => { span with children := span.children + 1 })
            else none
  | .enter spanId =>
      if registry.alive spanId then
        some (registry.modify spanId fun span =>
          { span with entered := thread :: span.entered, busy := thread :: span.busy })
      else none
  | .exit spanId =>
      match registry.spans spanId with
      | some span =>
          if thread ∈ span.entered then
            some (registry.modify spanId fun span =>
              { span with entered := span.entered.erase thread, busy := thread :: span.busy })
          else none
      | none => none
  | .record spanId | .followsFrom spanId _ =>
      if registry.alive spanId then
        some (registry.modify spanId fun span => { span with busy := thread :: span.busy })
      else none
  | .close spanId =>
      match registry.spans spanId with
      | some span =>
          if !span.closing && span.entered.isEmpty && span.busy.isEmpty && span.children = 0 then
            some (registry.modify spanId fun span => { span with closing := true })
          else none
      | none => none
  | .event _ _ => some registry
  | .exitThread => if registry.depth thread = 0 then some registry else none

def call (env : Env) (thread : ThreadId) (call : Call) (state : State) :
    Option (Program Unit × State) := do
  let registry ← state.registry.accept thread call
  some (do
      call.program env state.time state.registry.nextInstance
      act (.registry (.finish call)),
    { state.tick with registry := { registry with
      depth := Function.update registry.depth thread (registry.depth thread + 1) } })

abbrev system (env : Env) : System ThreadId Act Act.Reply where
  State := State
  Choice := Choice
  Call := Call
  perform := perform env
  user := fun action =>
    match action with
    | .format _ => true
    | _ => false
  call := call env

/-- A new layer. The sequence ids start at a random place above the reserved ones. -/
def State.new (nextSequenceId : Nat) : State where
  shared := ⟨false, nextSequenceId, 0, 0, none, false, fun _ => none⟩
  pools := ⟨[], fun _ => none, by simp, 0⟩
  spans := ⟨fun _ => none, fun _ => 0, fun _ => none, fun _ => [], false, fun _ => false,
    fun _ => false, []⟩
  contexts := ⟨fun _ => .unset, false⟩
  trace := ⟨[], []⟩
  registry := ⟨fun _ => none, 0, fun _ => none, fun _ => 0⟩
  time := 0
  panicked := false
  recorded := []

end TracingPerfetto.Layer
