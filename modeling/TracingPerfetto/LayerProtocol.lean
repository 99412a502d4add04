import TracingPerfetto.Subscriber

/-!
What a callback holds on its way: the context of the thread and the state of its packets,
the guard of an entry with what it shows, the uuids that it has taken and not yet given
back, and how far the flows of a closing span are.
-/

namespace TracingPerfetto.Layer

open TracingPerfetto.Runtime TracingPerfetto.Sequence TracingPerfetto.TrackEvents
open TracingPerfetto.Counters TracingPerfetto.Threads
open TracingPerfetto.SpanStore (SpanId)

def Content.flows : Content → List PendingFlow
  | .body (.lifetimeEnd _ flows _) | .body (.threadBegin _ _ _ flows)
  | .body (.pollBegin _ _ flows) | .body (.enterEnd _ flows) => flows
  | _ => []

def Content.Shows (data : SpanData) : Content → Prop
  | .body (.lifetimeEnd _ _ fields) => fields = data.fields
  | .body (.threadBegin _ fields pollFlowId _) =>
      fields = data.fields ∧ pollFlowId = data.pollFlowId
  | .body (.pollBegin _ pollFlowId _) => pollFlowId = data.pollFlowId
  | _ => True

/-- The packets at which a span sends the flows that are queued on it. -/
def Content.boundary : Content → Bool
  | .body (.lifetimeEnd _ _ _) | .body (.threadBegin _ _ _ _) | .body (.pollBegin _ _ _)
  | .body (.enterEnd none _) => true
  | _ => false

def Content.last : Content → Bool
  | .body (.lifetimeEnd _ _ _) => true
  | _ => false

def Content.first : Content → Bool
  | .body (.lifetimeBegin _ _ _) => true
  | _ => false

def Call.lookups (env : Env) : Call → List SpanId
  | .newSpan spanId _ parent =>
      (if env.config.spanMode.emitSpanSlices then parent.toList else []) ++ [spanId]
  | .record spanId => if env.config.debugAnnotations then [spanId] else []
  | .followsFrom spanId follows => [follows, spanId]
  | .enter spanId | .exit spanId =>
      if env.config.spanMode.emitThreadSlices || env.config.pollSlices then [spanId] else []
  | .close spanId => [spanId]
  | .event _ span => if env.config.spanMode = .spanTracks then span.toList else []
  | .exitThread => []

def Call.needsContext : Call → Bool
  | .enter _ | .exit _ | .event _ _ => true
  | _ => false

/-- How far the packets of a callback are: no writer, a fresh one, the steps of the
initialization of its sequence, and ready for bodies. -/
inductive Phase where
  | closed
  | fresh
  | unmarked
  | marked
  | stamped
  | opened
  | claimed
  | named (uuid : Nat)
  | described
  | ready
  deriving DecidableEq

def Phase.calm : Phase → Bool
  | .closed | .fresh | .ready => true
  | _ => false

/-- A uuid in the hands of a callback, the key that it is for, and whether its lifetime
slice is open. -/
structure Held where
  uuid : Nat
  key : Option TrackKey
  begun : Bool
  deriving DecidableEq

/-- A callback in progress. `checked` says that it has seen that there was no error yet,
`excused` that it has seen an error or was refused the context; `drawn` is the last flow id
that it has drawn, and `visits` are the visits that it has not stored yet; `noted` says that
it has set `has_follows_from`, and `started` which flow it has queued the start of. While it
has a guard, `asked` and `seen` are about that flag, and `sent` says that the packet with the
flows is out. `took` says that a closing callback has looked for its entry. -/
structure Frame where
  call : Call
  instance_ : Nat
  calledAt : Nat
  vacant : Bool
  context : Bool
  phase : Phase
  excused : Bool
  guard : Option Found
  exclusive : Bool
  noted : Bool
  started : Option Nat
  asked : Bool
  seen : Bool
  sent : Bool
  inserted : Bool
  took : Bool
  taken : Option Found
  processes : List Nat
  enclosing : Option Nat
  fresh : Option Nat
  held : List Held
  known : List PoolRef
  missing : Option TrackKey
  counter : Option (Nat × Nat)
  drawn : Option Nat
  visits : Option Visits
  checked : Bool
  finished : Bool

def Frame.start (call : Call) (instance_ calledAt : Nat) : Frame where
  call := call
  instance_ := instance_
  calledAt := calledAt
  vacant := false
  context := false
  phase := .closed
  excused := false
  guard := none
  exclusive := false
  noted := false
  started := none
  asked := false
  seen := false
  sent := false
  inserted := false
  took := false
  taken := none
  processes := []
  enclosing := none
  fresh := none
  held := []
  known := []
  missing := none
  counter := none
  drawn := none
  visits := none
  checked := false
  finished := false

/-- What a callback may do to the data through a guard: the box is filled or its fields
change, or flows that have been sent are cleared. -/
structure Changes (sent seen : Bool) (found next : Found) : Prop where
  spanId : next.spanId = found.spanId
  instance_ : next.entry.instance_ = found.entry.instance_
  tier : next.entry.tier = found.entry.tier
  trackPool : next.data.trackPool = found.data.trackPool
  trackUuid : next.data.trackUuid = found.data.trackUuid
  flows : sent = false ∧ next.data.pendingFlows = found.data.pendingFlows ∨
    sent = true ∧ seen = true ∧ next.data.pendingFlows = []

structure Stores (env : Env) (visits : Option Visits) (data data' : SpanData) : Prop where
  fields : data'.fields =
    (StoreVisitor.record env.memory data.fields (visits.getD [])).1
  pollFlowId : data'.pollFlowId = data.pollFlowId

def claimed (uuid : Option Nat) (key : TrackKey) (held : List Held) : List Held :=
  match uuid with
  | some uuid => ⟨uuid, some key, false⟩ :: held
  | none => held

namespace Frame

variable (env : Env) (frame : Frame)

def MayLookUp (spanId : SpanId) : Prop :=
  frame.guard = none ∧ spanId ∈ frame.call.lookups env ∧
    (frame.call.needsContext = false ∨ frame.context = true) ∧ frame.took = false ∧
    frame.finished = false ∧ (frame.checked = true ∨ frame.call = .close spanId)

/-- The uuid that was taken last, with its slice closed, or with an excuse. -/
def Holds (uuid : Nat) (key : TrackKey) : Prop :=
  ∃ begun, frame.held.head? = some ⟨uuid, some key, begun⟩ ∧
    (begun = true → frame.excused = true)

def Parent (uuid : Nat) : Prop :=
  frame.enclosing = some uuid ∨ frame.enclosing = none ∧ uuid ∈ frame.processes

/-- The span that a packet is for, and the flows in it. -/
inductive Writes (content : Content) (span : Nat) : Prop where
  | begin (spanId : SpanId) (metadata metadata' : Metadata) (parent : Option SpanId)
      (uuid : Nat) (visits : Visits) (hcall : frame.call = .newSpan spanId metadata parent)
      (hguard : frame.guard = none) (hspan : span = frame.instance_)
      (hcontent : content = .body (.lifetimeBegin uuid metadata' visits))
  | slice (found : Found) (hguard : frame.guard = some found)
      (hexclusive : frame.exclusive = true) (hspan : span = found.entry.instance_)
      (hsent : frame.sent = false) (hasked : content.boundary = true → frame.asked = true)
      (hlast : content.last = false) (hvisits : frame.visits = none)
      (hshows : content.Shows found.data)
      (hflows : content.flows = if frame.seen then found.data.pendingFlows else [])
  | lifetimeEnd (found : Found) (htaken : frame.taken = some found)
      (hguard : frame.guard = none) (hunfinished : frame.finished = false)
      (hspan : span = found.entry.instance_) (hsent : frame.sent = false)
      (hshows : content.Shows found.data) (hflows : content.flows = found.data.pendingFlows)

def Names : Body → Prop
  | .trackDescriptor uuid _ parentUuid => frame.fresh = some uuid ∧ frame.Parent parentUuid
  | .counterDescriptor uuid name process =>
      frame.counter = some (name.ptr, uuid) ∧ process ∈ frame.processes
  | .lifetimeBegin uuid _ _ => (∃ key, frame.held.head? = some ⟨uuid, some key, false⟩ ∧
        frame.Parent key.parentUuid) ∧
      frame.guard = none ∧ ∃ spanId metadata parent, frame.call = .newSpan spanId metadata parent
  | .lifetimeEnd uuid _ _ => (∃ key, frame.held.head? = some ⟨uuid, key, true⟩) ∧
      ∃ found, frame.taken = some found ∧ found.data.trackUuid = some uuid
  | .pollBegin uuid _ _ | .enterEnd (some uuid) _ =>
      ∃ found, frame.guard = some found ∧ found.data.trackUuid = some uuid
  | .instant (some uuid) _ _ => frame.enclosing = some uuid
  | .threadBegin _ _ _ _ | .enterEnd none _ | .instant none _ _ => True

def Emits : Content → Prop
  | .clockSnapshot => frame.phase = .stamped
  | .processDescriptor uuid => frame.phase = .named uuid
  | .threadDescriptor => frame.phase = .described
  | .body body => frame.phase = .ready ∧ frame.Names body

/-- A closing callback has taken the entry and sent the flows, or had a reason not to. -/
def Settled : Prop :=
  match frame.call with
  | .close _ => frame.took = true ∧ ∀ found, frame.taken = some found → frame.sent = true ∨
      frame.excused = true ∨ found.data.trackUuid = none
  | _ => True

/-- The span that visits are for: the one that is being recorded on, or created. -/
def Visiting (instance_ : Nat) : Prop :=
  (∃ found, frame.guard = some found ∧ instance_ = found.entry.instance_) ∨
    frame.guard = none ∧ instance_ = frame.instance_ ∧ frame.inserted = false ∧
      ∃ spanId metadata parent, frame.call = .newSpan spanId metadata parent

/-- A new entry has the fields of its span, and a poll flow if it needs one. -/
structure Begins (data : SpanData) : Prop where
  fields : data.fields = (StoreVisitor.record env.memory [] (frame.visits.getD [])).1
  pollFlowId : data.pollFlowId =
    if env.config.spanMode.emitThreadSlices then frame.drawn else none
  drawn : env.config.spanMode.emitThreadSlices = true → frame.drawn.isSome = true

/-- A new entry with a track: its lifetime slice has begun, and it hangs off the
enclosing track. -/
def Publishes (data : SpanData) : Prop :=
  match data.trackUuid with
  | some uuid => ∃ key, frame.held.head? = some ⟨uuid, some key, true⟩ ∧
      frame.Parent key.parentUuid ∧ ∀ pool, data.trackPool = some pool →
        pool ∈ frame.known ∧ pool.key = key
  | none => data.trackPool = none

end Frame

def pre (env : Env) (frame : Frame) : Act → Prop
  | .shared .claimProcessDescriptor => frame.phase = .opened
  | .pools (.claim pool) => pool ∈ frame.known
  | .pools (.release pool uuid) => pool ∈ frame.known ∧ frame.Holds uuid pool.key
  | .context .lookup => frame.context = false ∧ frame.vacant = false ∧ frame.phase = .closed
  | .context (.insert _ uuid _) => frame.vacant = true ∧ frame.fresh = some uuid ∧
      frame.phase = .closed
  | .context .dropGuard => frame.context = true ∧ frame.phase.calm = true
  | .context (.cachePool key pool localUuid) => frame.context = true ∧
      pool.val ∈ frame.known ∧ frame.missing = some key ∧
      ∀ uuid, localUuid = some uuid → frame.Holds uuid key
  | .context (.releaseLocal pool uuid) => frame.context = true ∧ pool ∈ frame.known ∧
      frame.Holds uuid pool.key
  | .context .destroy => frame.call = .exitThread ∧ frame.context = false ∧
      frame.vacant = false
  | .context _ => frame.context = true
  | .sequence .readClock => True
  | .sequence .newWriter => frame.context = true ∧ frame.phase.calm = true
  | .sequence .initialized => frame.context = true ∧ (frame.phase = .fresh ∨ frame.phase = .ready)
  | .sequence .markInitialized => frame.context = true ∧ frame.phase = .unmarked
  | .sequence .timestamp => frame.context = true ∧
      (frame.phase = .marked ∨ frame.phase = .ready)
  | .sequence (.cacheCounterTrack name uuid) => frame.context = true ∧
      frame.counter = some (name.ptr, uuid)
  | .sequence (.write span calledAt content) => frame.context = true ∧
      calledAt = frame.calledAt ∧ frame.Emits content ∧
      match span with
      | none => content.flows = [] ∧ content.boundary = false ∧ content.first = false
      | some span => frame.Writes content span
  | .sequence _ => frame.context = true
  | .spans (.insert spanId instance_ data) => frame.MayLookUp env spanId ∧
      (∃ metadata parent, frame.call = .newSpan spanId metadata parent) ∧
      instance_ = frame.instance_ ∧ frame.inserted = false ∧ frame.finished = false ∧
      data.pendingFlows = [] ∧
      (data.trackUuid ≠ none ∨ env.config.spanMode = .threadTracks ∨ frame.excused = true) ∧
      frame.Publishes data ∧ frame.Begins env data
  | .spans (.get spanId) => frame.MayLookUp env spanId ∧
      ∀ created metadata parent, frame.call = .newSpan created metadata parent →
        parent = some spanId
  | .spans (.getMut spanId) => frame.MayLookUp env spanId ∧ frame.visits = none
  | .spans (.take spanId) => frame.MayLookUp env spanId ∧ frame.call = .close spanId ∧
      frame.took = false ∧ frame.finished = false
  | .spans (.put next) => ∃ found, frame.guard = some found ∧ frame.exclusive = true ∧
      Changes frame.sent frame.seen found next ∧ Stores env frame.visits found.data next.data ∧
      (frame.visits = none ∨ ∃ spanId, frame.call = .record spanId)
  | .spans (.pushFlow found flow) => frame.guard = some found ∧ frame.exclusive = true ∧
      frame.noted = true ∧ frame.sent = false ∧ frame.asked = false ∧
      frame.drawn = some (flowId flow) ∧ found.data.retained ≠ none ∧
      (∀ started, flow = .terminate started → frame.started = some started) ∧
      ∃ spanId follows, frame.call = .followsFrom spanId follows
  | .spans (.dropRef found) => frame.guard = some found ∧ frame.exclusive = false
  | .spans (.dropMut found) => frame.guard = some found ∧ frame.exclusive = true ∧
      (frame.sent = true → frame.seen = false) ∧ frame.visits = none
  | .spans .hasFollowsFrom => frame.guard ≠ none ∧ frame.exclusive = true ∧
      frame.sent = false
  | .registry (.finish call) => call = frame.call ∧ frame.guard = none ∧
      frame.context = false ∧ frame.vacant = false ∧ frame.phase = .closed ∧ frame.Settled ∧
      frame.finished = false
  | .format span => frame.vacant = false ∧ frame.phase.calm = true ∧ frame.finished = false ∧
      (frame.guard = none ∨ frame.exclusive = true ∧ ∃ spanId, frame.call = .record spanId) ∧
      ∀ instance_, span = some instance_ → frame.visits = none ∧ frame.Visiting instance_
  | _ => True

def Frame.wrote (frame : Frame) : Content → Frame
  | .clockSnapshot => { frame with phase := .opened }
  | .processDescriptor _ => { frame with phase := .described }
  | .threadDescriptor => { frame with phase := .ready }
  | .body (.trackDescriptor uuid name parentUuid) =>
      { frame with fresh := none, held := ⟨uuid, some ⟨name, parentUuid⟩, false⟩ :: frame.held }
  | .body (.lifetimeBegin _ _ _) =>
      { frame with held := frame.held.modifyHead fun held => { held with begun := true } }
  | .body (.lifetimeEnd _ _ _) =>
      { frame with held := frame.held.modifyHead fun held => { held with begun := false } }
  | .body _ => frame

def next (frame : Frame) : (action : Act) → action.Reply → Frame
  | .shared .hasError, failed =>
      { frame with excused := frame.excused || failed, checked := frame.checked || !failed }
  | .shared .allocUuid, uuid => { frame with fresh := some uuid }
  | .shared .allocFlowId, flowId => { frame with drawn := some flowId }
  | .shared .processTrackUuid, uuid =>
      { frame with
        processes := uuid :: frame.processes
        phase := if frame.phase = .claimed then .named uuid else frame.phase }
  | .shared .claimProcessDescriptor, claims =>
      { frame with phase := if claims then .claimed else .described }
  | .shared (.counterTrackUuid key), uuid => { frame with counter := some (key, uuid) }
  | .pools (.find _), pool | .pools (.create _), pool =>
      { frame with known := (pool.map Subtype.val).toList ++ frame.known }
  | .pools (.claim pool), uuid => { frame with held := claimed uuid pool.key frame.held }
  | .pools (.release _ _), _ => { frame with held := frame.held.tail }
  | .context .lookup, found =>
      match found with
      | .acquired => { frame with context := true }
      | .missing => { frame with vacant := true }
      | .refused => { frame with excused := true }
  | .context (.insert _ _ _), _ => { frame with vacant := false, context := true, fresh := none }
  | .context .dropGuard, _ => { frame with context := false, phase := .closed }
  | .context (.cachedTrack key), cached =>
      match cached with
      | some (pool, uuid) =>
          { frame with
            known := pool.val :: frame.known
            held := claimed uuid key frame.held }
      | none => { frame with missing := some key }
  | .context (.cachePool _ _ localUuid), _ =>
      { frame with
        missing := none
        held := if localUuid.isSome then frame.held.tail else frame.held }
  | .context .evict, old =>
      match old with
      | some (pool, uuid) =>
          { frame with
            known := pool :: frame.known
            held := ⟨uuid, some pool.key, false⟩ :: frame.held }
      | none => frame
  | .context (.releaseLocal pool _), outcome =>
      match outcome with
      | .kept => { frame with held := frame.held.tail }
      | .full => frame
      | .uncached => { frame with missing := some pool.key }
  | .context .destroy, uuids =>
      { frame with
        known := uuids.map Prod.fst ++ frame.known
        held := uuids.map (fun local_ => ⟨local_.2, some local_.1.key, false⟩) ++ frame.held }
  | .spans (.insert _ _ data), _ =>
      { frame with
        inserted := true
        visits := none
        held := if data.trackUuid.isSome then frame.held.tail else frame.held }
  | .spans (.get _), found =>
      { frame with
        guard := found
        exclusive := false
        asked := false
        seen := false
        sent := false
        enclosing := found.bind fun found => found.data.trackUuid }
  | .spans (.getMut _), found =>
      { frame with
        guard := found, exclusive := found.isSome, asked := false, seen := false, sent := false }
  | .spans (.take _), found =>
      match found with
      | some found =>
          { frame with
            took := true
            taken := some found
            sent := false
            known := found.data.trackPool.toList ++ frame.known
            held := match found.data.trackUuid with
              | some uuid => ⟨uuid, found.data.trackPool.map PoolRef.key, true⟩ :: frame.held
              | none => frame.held }
      | none => { frame with took := true, taken := none }
  | .spans (.put found), _ => { frame with guard := some found, sent := false, visits := none }
  | .spans (.pushFlow found flow), _ =>
      { frame with
        guard := some (found.withData (found.data.pushFlow flow))
        started := match flow with
          | .start flowId => some flowId
          | .terminate _ => frame.started }
  | .spans (.dropRef _), _ | .spans (.dropMut _), _ =>
      { frame with
        guard := none, exclusive := false, asked := false, seen := false, sent := false }
  | .spans .noteFollowsFrom, _ => { frame with noted := true }
  | .spans .hasFollowsFrom, seen => { frame with asked := true, seen := seen }
  | .sequence .newWriter, _ => { frame with phase := .fresh }
  | .sequence .initialized, initialized =>
      { frame with phase := if initialized then .ready else .unmarked }
  | .sequence .markInitialized, _ => { frame with phase := .marked }
  | .sequence .timestamp, _ =>
      { frame with phase := if frame.phase = .marked then .stamped else frame.phase }
  | .sequence (.write span _ content), _ =>
      { frame.wrote content with sent := span.isSome || frame.sent }
  | .registry (.finish _), _ => { frame with finished := true }
  | .format span, visits =>
      { frame with visits := if span.isSome then some visits else frame.visits }
  | _, _ => frame

def protocol (env : Env) : Protocol Act Act.Reply Frame := ⟨pre env, next⟩

abbrev Keeps {α : Type} (env : Env) (post : α → Frame → Prop) (frame : Frame)
    (program : Program α) : Prop :=
  (protocol env).Keeps post frame program

structure Final (frame : Frame) : Prop where
  guard : frame.guard = none
  context : frame.context = false
  vacant : frame.vacant = false
  phase : frame.phase = .closed
  finished : frame.finished = true

end TracingPerfetto.Layer
