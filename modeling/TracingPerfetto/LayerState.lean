import TracingPerfetto.TrackEvents
import TracingPerfetto.SpanStore
import TracingPerfetto.Threads

/-!
The state that the callbacks of the layer share, and their atomic actions on it. The
span store is the atomic map that `SpanStore` linearizes to, with the locks that its
guards keep. The times and the logs in the state are there for the statements: the code
neither has them nor depends on them.
-/

namespace TracingPerfetto.Layer

open TracingPerfetto.Runtime TracingPerfetto.Sequence TracingPerfetto.TrackEvents
open TracingPerfetto.SpanStore (SpanId activeShard fastSlots)

abbrev ThreadId := Nat

/-! ## What is shared (`runtime.rs`) -/

/-- The atomics of `Inner`. Uuids and flow ids are numbers of draws. -/
structure Shared where
  hasError : Bool
  nextSequenceId : Nat
  nextUuid : Nat
  nextFlowId : Nat
  processTrack : Option Nat
  processDescEmitted : Bool
  counterTracks : PtrMap Nat

inductive SharedAct where
  | hasError
  | allocSequenceId
  | allocUuid
  | allocFlowId
  | processTrackUuid
  | claimProcessDescriptor
  | counterTrackUuid (key : Nat)
  deriving DecidableEq

abbrev SharedAct.Reply : SharedAct → Type
  | .hasError | .claimProcessDescriptor => Bool
  | _ => Nat

def SharedAct.perform : (action : SharedAct) → Shared → action.Reply × Shared
  | .hasError, shared => (shared.hasError, shared)
  | .allocSequenceId, shared =>
      (shared.nextSequenceId, { shared with
        nextSequenceId := (shared.nextSequenceId + 1) % 2 ^ 32 })
  | .allocUuid, shared => (shared.nextUuid, { shared with nextUuid := shared.nextUuid + 1 })
  | .allocFlowId, shared =>
      (shared.nextFlowId, { shared with nextFlowId := shared.nextFlowId + 1 })
  | .processTrackUuid, shared =>
      match shared.processTrack with
      | some uuid => (uuid, shared)
      | none => (shared.nextUuid, { shared with
          processTrack := some shared.nextUuid
          nextUuid := shared.nextUuid + 1 })
  | .claimProcessDescriptor, shared =>
      (!shared.processDescEmitted, { shared with processDescEmitted := true })
  | .counterTrackUuid key, shared =>
      match shared.counterTracks key with
      | some uuid => (uuid, shared)
      | none => (shared.nextUuid, { shared with
          counterTracks := shared.counterTracks.insert key shared.nextUuid
          nextUuid := shared.nextUuid + 1 })

/-! ## Track pools (`span_state.rs`) -/

structure TrackKey where
  name : StaticStr
  parentUuid : Nat
  deriving DecidableEq, Repr

structure TrackPool where
  key : TrackKey
  tracks : List Nat

/-- An `Arc` of a pool: which one it is, and the key that it shows. -/
structure PoolRef where
  number : Nat
  key : TrackKey
  deriving DecidableEq, Repr

abbrev PoolOf (key : TrackKey) := { pool : PoolRef // pool.key = key }

def trackPoolCapacity : Nat := 4

def TrackPool.claim (pool : TrackPool) : Option Nat × TrackPool :=
  match pool.tracks with
  | uuid :: tracks => (some uuid, { pool with tracks := tracks })
  | [] => (none, pool)

/-- A full queue forgets the uuid. -/
def TrackPool.release (pool : TrackPool) (uuid : Nat) : TrackPool :=
  if pool.tracks.length < trackPoolCapacity then { pool with tracks := pool.tracks ++ [uuid] }
  else pool

def maxReusableKeys : Nat := 8192

/-- The pools by the number of their creation, and the map from keys to pools. -/
structure Pools where
  pools : List TrackPool
  byKey : TrackKey → Option Nat
  keyed : ∀ key number, byKey key = some number →
    ∃ pool, pools[number]? = some pool ∧ pool.key = key
  reusableKeys : Nat

inductive PoolAct where
  | find (key : TrackKey)
  | create (key : TrackKey)
  | claim (pool : PoolRef)
  | release (pool : PoolRef) (uuid : Nat)
  deriving DecidableEq

abbrev PoolAct.Reply : PoolAct → Type
  | .find key | .create key => Option (PoolOf key)
  | .claim _ => Option Nat
  | .release _ _ => Unit

theorem TrackPool.claim_key (pool : TrackPool) : pool.claim.2.key = pool.key := by
  rw [claim]
  split <;> rfl

theorem TrackPool.release_key (pool : TrackPool) (uuid : Nat) :
    (pool.release uuid).key = pool.key := by
  rw [release]
  split <;> rfl

namespace Pools

variable (pools : Pools)

/-- The `Arc` in the map. -/
def find (key : TrackKey) : Option (PoolOf key) :=
  (pools.byKey key).map fun number => ⟨⟨number, key⟩, rfl⟩

/-- A new pool at the end of the list. -/
def add (key : TrackKey) : Pools where
  pools := pools.pools ++ [⟨key, []⟩]
  byKey := Function.update pools.byKey key (some pools.pools.length)
  keyed := by
    intro other number hnumber
    by_cases hkey : other = key
    · subst hkey
      simp only [Function.update_self, Option.some.injEq] at hnumber
      subst hnumber
      exact ⟨_, List.getElem?_concat_length, rfl⟩
    · rw [Function.update_of_ne hkey] at hnumber
      obtain ⟨pool, hpool, hkeyed⟩ := pools.keyed other number hnumber
      obtain ⟨hlt, -⟩ := List.getElem?_eq_some_iff.1 hpool
      exact ⟨pool, by rw [List.getElem?_append_left hlt, hpool], hkeyed⟩
  reusableKeys := pools.reusableKeys + 1

def create (key : TrackKey) : Option (PoolOf key) × Pools :=
  match pools.find key with
  | some pool => (some pool, pools)
  | none =>
      if pools.reusableKeys < maxReusableKeys then
        (some ⟨⟨pools.pools.length, key⟩, rfl⟩, pools.add key)
      else (none, pools)

/-- A change of one queue. -/
def modify (number : Nat) (change : TrackPool → TrackPool)
    (hkey : ∀ pool, (change pool).key = pool.key) : Pools where
  pools := pools.pools.modify number change
  byKey := pools.byKey
  keyed := by
    intro key other hother
    obtain ⟨pool, hpool, hkeyed⟩ := pools.keyed key other hother
    rw [List.getElem?_modify, hpool]
    by_cases hnumber : number = other
    · exact ⟨change pool, by simp [hnumber], by rw [hkey, hkeyed]⟩
    · exact ⟨pool, by simp [hnumber], hkeyed⟩
  reusableKeys := pools.reusableKeys

end Pools

def PoolAct.perform : (action : PoolAct) → Pools → action.Reply × Pools
  | .find key, pools => (pools.find key, pools)
  | .create key, pools => pools.create key
  | .claim pool, pools =>
      (pools.pools[pool.number]?.bind fun found => found.claim.1,
        pools.modify pool.number (fun found => found.claim.2) TrackPool.claim_key)
  | .release pool uuid, pools =>
      ((), pools.modify pool.number (fun found => found.release uuid) fun found =>
        found.release_key uuid)

/-! ## Spans -/

/-- The flow that an end of an edge belongs to. -/
def flowId : PendingFlow → Nat
  | .start flow | .terminate flow => flow

structure SpanData where
  trackPool : Option PoolRef
  trackUuid : Option Nat
  retained : Option RetainedSpanData
  deriving DecidableEq

def SpanData.new (retained : Option RetainedSpanData) : SpanData := ⟨none, none, retained⟩

def SpanData.fields (data : SpanData) : List (StaticStr × FieldValue) :=
  match data.retained with
  | some retained => retained.fields
  | none => []

def SpanData.pendingFlows (data : SpanData) : List PendingFlow :=
  match data.retained with
  | some retained => retained.pendingFlows
  | none => []

def SpanData.clearPendingFlows (data : SpanData) : SpanData :=
  { data with retained := data.retained.map fun retained =>
      { retained with pendingFlows := [] } }

/-- `retained.pending_flows.push`, once `queue_flow` has seen to the box. -/
def SpanData.pushFlow (data : SpanData) (flow : PendingFlow) : SpanData :=
  { data with retained := data.retained.map fun retained =>
      { retained with pendingFlows := retained.pendingFlows ++ [flow] } }

def SpanData.pollFlowId (data : SpanData) : Option Nat :=
  data.retained.bind RetainedSpanData.pollFlowId

inductive Tier where
  | fast
  | overflow
  deriving DecidableEq, Repr

/-- Ids are used again; `instance_` tells the spans apart. -/
structure Entry where
  instance_ : Nat
  data : SpanData
  tier : Tier
  deriving DecidableEq

/-- What a guard shows. -/
structure Found where
  spanId : SpanId
  entry : Entry
  deriving DecidableEq

def Found.data (found : Found) : SpanData := found.entry.data

def Found.withData (found : Found) (data : SpanData) : Found :=
  { found with entry := { found.entry with data := data } }

/-- The mutex of a fast shard, or the lock of one of the map's own shards. -/
inductive Lock where
  | fast (shard : Nat)
  | map (shard : Nat)
  deriving DecidableEq, Repr

/-- The entries with their locks, and the flag `has_follows_from`. A relaxed memory may
show an old value of the flag, but not to a thread that has had a lock from a thread
that knew the new one: `knows` and `passes` say who knows. -/
structure Spans where
  entries : SpanId → Option Entry
  fastCount : Nat → Nat
  owner : Lock → Option ThreadId
  readers : Nat → List ThreadId
  hasFollowsFrom : Bool
  knows : ThreadId → Bool
  passes : Lock → Bool
  queued : List (Nat × PendingFlow × Nat)

inductive SpanAct where
  | insert (spanId : SpanId) (instance_ : Nat) (data : SpanData)
  | get (spanId : SpanId)
  | getMut (spanId : SpanId)
  | put (found : Found)
  | pushFlow (found : Found) (flow : PendingFlow)
  | dropRef (found : Found)
  | dropMut (found : Found)
  | take (spanId : SpanId)
  | noteFollowsFrom
  | hasFollowsFrom
  deriving DecidableEq

abbrev SpanAct.Reply : SpanAct → Type
  | .get _ | .getMut _ | .take _ => Option Found
  | .hasFollowsFrom => Bool
  | _ => Unit

namespace Spans

variable (mapShard : SpanId → Nat)

/-- The lock that the guard of an entry keeps. -/
def lockOf (spanId : SpanId) : Tier → Lock
  | .fast => .fast (activeShard spanId)
  | .overflow => .map (mapShard spanId)

variable (spans : Spans) (thread : ThreadId)

def learn (lock : Lock) : Spans :=
  { spans with
    knows := Function.update spans.knows thread (spans.knows thread || spans.passes lock) }

def lock (lock : Lock) : Spans :=
  { spans.learn thread lock with owner := Function.update spans.owner lock (some thread) }

def pass (lock : Lock) : Spans :=
  { spans with
    passes := Function.update spans.passes lock (spans.passes lock || spans.knows thread) }

def unlock (lock : Lock) : Spans :=
  { spans.pass thread lock with owner := Function.update spans.owner lock none }

def setEntry (spanId : SpanId) (entry : Option Entry) : Spans :=
  { spans with entries := Function.update spans.entries spanId entry }

def setCount (shard count : Nat) : Spans :=
  { spans with fastCount := Function.update spans.fastCount shard count }

/-- No thread is in the critical section, and no reader keeps a writer out. -/
def free : Lock → Bool
  | .fast shard => (spans.owner (.fast shard)).isNone
  | .map shard => (spans.owner (.map shard)).isNone && (spans.readers shard).isEmpty

end Spans

section SpanPerform

variable (mapShard : SpanId → Nat) (thread : ThreadId) (time : Nat) (fresh : Bool)

/-- Where an insertion puts its entry: the fast shard, if it has a free slot. -/
def insertTier (spanId : SpanId) (spans : Spans) : Tier :=
  if spans.fastCount (activeShard spanId) < fastSlots then .fast else .overflow

def insertSpan (spanId : SpanId) (instance_ : Nat) (data : SpanData) (spans : Spans) :
    Option Spans :=
  let tier := insertTier spanId spans
  let lock := Spans.lockOf mapShard spanId tier
  if spans.free (.fast (activeShard spanId)) && spans.free lock then
    let spans := ((spans.learn thread lock).pass thread lock).setEntry spanId
      (some ⟨instance_, data, tier⟩)
    some (match tier with
      | .fast => spans.setCount (activeShard spanId) (spans.fastCount (activeShard spanId) + 1)
      | .overflow => spans)
  else none

/-- An id that is in neither tier takes a look at both. -/
def getSpan (spanId : SpanId) (spans : Spans) : Option (Option Found × Spans) :=
  if spans.free (.fast (activeShard spanId)) then
    match spans.entries spanId with
    | some entry =>
        match entry.tier with
        | .fast =>
            some (some ⟨spanId, entry⟩, spans.lock thread (.fast (activeShard spanId)))
        | .overflow =>
            if (spans.owner (.map (mapShard spanId))).isNone then
              some (some ⟨spanId, entry⟩,
                { spans.learn thread (.map (mapShard spanId)) with
                  readers := Function.update spans.readers (mapShard spanId)
                    (thread :: spans.readers (mapShard spanId)) })
            else none
    | none =>
        if (spans.owner (.map (mapShard spanId))).isNone then some (none, spans) else none
  else none

def getMutSpan (spanId : SpanId) (spans : Spans) : Option (Option Found × Spans) :=
  if spans.free (.fast (activeShard spanId)) then
    match spans.entries spanId with
    | some entry =>
        let lock := Spans.lockOf mapShard spanId entry.tier
        if spans.free lock then some (some ⟨spanId, entry⟩, spans.lock thread lock) else none
    | none => if spans.free (.map (mapShard spanId)) then some (none, spans) else none
  else none

def takeSpan (spanId : SpanId) (spans : Spans) : Option (Option Found × Spans) :=
  if spans.free (.fast (activeShard spanId)) then
    match spans.entries spanId with
    | some entry =>
        let lock := Spans.lockOf mapShard spanId entry.tier
        if spans.free lock then
          let spans := ((spans.learn thread lock).pass thread lock).setEntry spanId none
          some (some ⟨spanId, entry⟩,
            match entry.tier with
            | .fast =>
                spans.setCount (activeShard spanId) (spans.fastCount (activeShard spanId) - 1)
            | .overflow => spans)
        else none
    | none => if spans.free (.map (mapShard spanId)) then some (none, spans) else none
  else none

def releaseRef (found : Found) (spans : Spans) : Spans :=
  match found.entry.tier with
  | .fast => spans.unlock thread (.fast (activeShard found.spanId))
  | .overflow =>
      { spans.pass thread (.map (mapShard found.spanId)) with
        readers := Function.update spans.readers (mapShard found.spanId)
          ((spans.readers (mapShard found.spanId)).erase thread) }

def SpanAct.perform : (action : SpanAct) → Spans → Option (action.Reply × Spans)
  | .insert spanId instance_ data, spans =>
      (insertSpan mapShard thread spanId instance_ data spans).map fun spans => ((), spans)
  | .get spanId, spans => getSpan mapShard thread spanId spans
  | .getMut spanId, spans => getMutSpan mapShard thread spanId spans
  | .put found, spans => some ((), spans.setEntry found.spanId (some found.entry))
  | .pushFlow found flow, spans =>
      some ((), { spans.setEntry found.spanId
          (some (found.withData (found.data.pushFlow flow)).entry) with
        queued := spans.queued ++ [(found.entry.instance_, flow, time)] })
  | .dropRef found, spans => some ((), releaseRef mapShard thread found spans)
  | .dropMut found, spans =>
      some ((), spans.unlock thread (Spans.lockOf mapShard found.spanId found.entry.tier))
  | .take spanId, spans => takeSpan mapShard thread spanId spans
  | .noteFollowsFrom, spans =>
      some ((), { spans with
        hasFollowsFrom := true
        knows := Function.update spans.knows thread true })
  | .hasFollowsFrom, spans =>
      let known := spans.knows thread || (spans.hasFollowsFrom && fresh)
      some (known, { spans with knows := Function.update spans.knows thread known })

end SpanPerform

/-! ## Threads (`thread.rs`) -/

structure CachedTrackPool where
  key : TrackKey
  pool : PoolOf key
  localUuid : Option Nat

abbrev trackPoolSlots : Nat := 8

abbrev retainedSlots : Nat := 4

/-- A box in a cache: `return_retained_span` clears it first. -/
structure ClearedBox where
  retained : RetainedSpanData
  cleared : retained = retained.clear

def ClearedBox.new : ClearedBox := ⟨.default, rfl⟩

def ClearedBox.of (retained : RetainedSpanData) : ClearedBox := ⟨retained.clear, rfl⟩

/-- The writer is that of the callback which has the context; its packets go to the
trace at once. -/
structure ThreadCtx where
  borrowed : Bool
  trackUuid : Nat
  writer : SequenceWriter
  openedAt : Nat
  trackPools : Fin trackPoolSlots → Option CachedTrackPool
  nextTrackPool : Fin trackPoolSlots
  retainedSpans : Fin retainedSlots → Option ClearedBox

/-- The thread-local storage of a thread, for this layer. -/
inductive Tls where
  | unset
  | live (context : ThreadCtx)
  | destroyed

structure Contexts where
  tls : ThreadId → Tls
  refused : Bool

/-- What `acquire` finds in the thread-local storage. -/
inductive Lookup where
  | missing
  | acquired
  | refused
  deriving DecidableEq

inductive ContextAct where
  | lookup
  | insert (sequenceId uuid anchor : Nat)
  | dropGuard
  | takeRetained
  | returnRetained (retained : RetainedSpanData)
  | cachedTrack (key : TrackKey)
  | cachePool (key : TrackKey) (pool : PoolOf key) (localUuid : Option Nat)
  | evict
  | releaseLocal (pool : PoolRef) (uuid : Nat)
  | destroy
  deriving DecidableEq

/-- What `release_track` does with a uuid whose pool is cached. -/
inductive Kept where
  | kept
  | full
  | uncached
  deriving DecidableEq

abbrev ContextAct.Reply : ContextAct → Type
  | .lookup => Lookup
  | .takeRetained => ClearedBox
  | .cachedTrack key => Option (PoolOf key × Option Nat)
  | .evict => Option (PoolRef × Nat)
  | .releaseLocal _ _ => Kept
  | .destroy => List (PoolRef × Nat)
  | _ => Unit

namespace ThreadCtx

def new (sequenceId uuid trackUuid anchor : Nat) : ThreadCtx where
  borrowed := true
  trackUuid := uuid
  writer := SequenceWriter.new (SequenceState.new sequenceId trackUuid anchor)
  openedAt := 0
  trackPools := fun _ => none
  nextTrackPool := ⟨0, by decide⟩
  retainedSpans := fun _ => none

variable (context : ThreadCtx)

/-- The first slot whose pool is the one that is looked for, with that pool. -/
def slotOf (wanted : CachedTrackPool → Bool) : Option (Fin trackPoolSlots × CachedTrackPool) :=
  (List.finRange trackPoolSlots).findSome? fun slot =>
    ((context.trackPools slot).filter wanted).map fun cached => (slot, cached)

def setSlot (slot : Fin trackPoolSlots) (cached : Option CachedTrackPool) : ThreadCtx :=
  { context with trackPools := Function.update context.trackPools slot cached }

/-- The slots are searched for a box. -/
def takeRetained : ClearedBox × ThreadCtx :=
  match (List.finRange retainedSlots).find? fun slot =>
      (context.retainedSpans slot).isSome with
  | some slot =>
      ((context.retainedSpans slot).getD .new,
        { context with retainedSpans := Function.update context.retainedSpans slot none })
  | none => (.new, context)

def returnRetained (retained : RetainedSpanData) : ThreadCtx :=
  match (List.finRange retainedSlots).find? fun slot =>
      (context.retainedSpans slot).isNone with
  | some slot =>
      { context with
        retainedSpans := Function.update context.retainedSpans slot (some (.of retained)) }
  | none => context

/-- The part of `claim_track` that needs no pool: the uuid of a cached slot is taken. -/
def cachedTrack (key : TrackKey) : Option (PoolOf key × Option Nat) × ThreadCtx :=
  match context.slotOf fun cached => cached.key == key with
  | some (slot, cached) =>
      if hkey : cached.key = key then
        (some (⟨cached.pool.val, cached.pool.property.trans hkey⟩, cached.localUuid),
          context.setSlot slot (some { cached with localUuid := none }))
      else (none, context)
  | none => (none, context)

/-- The first part of `replace_track_pool`: the next slot is emptied. -/
def evict : Option (PoolRef × Nat) × ThreadCtx :=
  ((context.trackPools context.nextTrackPool).bind fun old =>
      old.localUuid.map fun uuid => (old.pool.val, uuid),
    context.setSlot context.nextTrackPool none)

/-- The last part of `replace_track_pool`. -/
def cachePool (key : TrackKey) (pool : PoolOf key) (localUuid : Option Nat) : ThreadCtx :=
  { context.setSlot context.nextTrackPool (some ⟨key, pool, localUuid⟩) with
    nextTrackPool := context.nextTrackPool + 1 }

def releaseLocal (pool : PoolRef) (uuid : Nat) : Kept × ThreadCtx :=
  match context.slotOf fun cached => cached.pool.val.number == pool.number with
  | some (slot, cached) =>
      if cached.localUuid.isNone then
        (.kept, context.setSlot slot (some { cached with localUuid := some uuid }))
      else (.full, context)
  | none => (.uncached, context)

/-- The uuids that `ThreadCtx::drop` gives back. -/
def localUuids : List (PoolRef × Nat) :=
  (List.finRange trackPoolSlots).filterMap fun slot =>
    (context.trackPools slot).bind fun cached =>
      cached.localUuid.map fun uuid => (cached.pool.val, uuid)

end ThreadCtx

namespace Contexts

variable (contexts : Contexts) (thread : ThreadId)

def set (tls : Tls) : Contexts :=
  { contexts with tls := Function.update contexts.tls thread tls }

def live : Option ThreadCtx :=
  match contexts.tls thread with
  | .live context => some context
  | _ => none

/-- An action on the context of the thread. -/
def onLive {α : Type} (action : ThreadCtx → α × ThreadCtx) : Option (α × Contexts) :=
  (contexts.live thread).map fun context =>
    ((action context).1, contexts.set thread (.live (action context).2))

end Contexts

def ContextAct.perform (bases : IdBases) (thread : ThreadId) :
    (action : ContextAct) → Contexts → Option (action.Reply × Contexts)
  | .lookup, contexts =>
      some (match contexts.tls thread with
        | .unset => (.missing, contexts)
        | .live context =>
            if context.borrowed then (.refused, { contexts with refused := true })
            else (.acquired, contexts.set thread (.live { context with borrowed := true }))
        | .destroyed => (.refused, { contexts with refused := true }))
  | .insert sequenceId uuid anchor, contexts =>
      some ((), contexts.set thread
        (.live (ThreadCtx.new sequenceId uuid (bases.uuid uuid) anchor)))
  | .dropGuard, contexts =>
      contexts.onLive thread fun context => ((), { context with borrowed := false })
  | .takeRetained, contexts => contexts.onLive thread ThreadCtx.takeRetained
  | .returnRetained retained, contexts =>
      contexts.onLive thread fun context => ((), context.returnRetained retained)
  | .cachedTrack key, contexts =>
      contexts.onLive thread fun context => context.cachedTrack key
  | .cachePool key pool localUuid, contexts =>
      contexts.onLive thread fun context => ((), context.cachePool key pool localUuid)
  | .evict, contexts => contexts.onLive thread ThreadCtx.evict
  | .releaseLocal pool uuid, contexts =>
      contexts.onLive thread fun context => context.releaseLocal pool uuid
  | .destroy, contexts =>
      some (match contexts.tls thread with
        | .live context => (context.localUuids, contexts.set thread .destroyed)
        | _ => ([], contexts.set thread .destroyed))

/-! ## The trace (`sequence.rs`) -/

/-- What a packet is for. -/
inductive Content where
  | clockSnapshot
  | processDescriptor (uuid : Nat)
  | threadDescriptor
  | body (body : Body)
  deriving DecidableEq

/-- A packet as it is finished: by whom, for which span, and when its callback was
called, its timestamp read and its bytes handed on. -/
structure Emitted where
  thread : ThreadId
  span : Option Nat
  content : Content
  timestamp : Nat
  calledAt : Nat
  openedAt : Nat
  writtenAt : Nat
  written : Written

/-- The packets, and the readings of the raw clock with their times. -/
structure Trace where
  packets : List Emitted
  readings : List (Nat × Nat)

inductive SequenceAct where
  | readClock
  | newWriter
  | initialized
  | markInitialized
  | threadTrackUuid
  | counterTrackUuid (name : StaticStr)
  | cacheCounterTrack (name : StaticStr) (uuid : Nat)
  | timestamp
  | write (span : Option Nat) (calledAt : Nat) (content : Content)
  deriving DecidableEq

abbrev SequenceAct.Reply : SequenceAct → Type
  | .initialized => Bool
  | .readClock | .threadTrackUuid => Nat
  | .counterTrackUuid _ => Option Nat
  | _ => Unit

/-- What the layer runs in: its configuration, the static memory and the random bases
of the ids, the clocks, and the sharding of the overflow map. -/
structure Env where
  config : Config
  memory : StaticMemory
  bases : IdBases
  domain : ClockDomain
  mapShard : SpanId → Nat

section SequencePerform

variable (env : Env) (thread : ThreadId) (time : Nat) (answers : Answers)

def writeContent (content : Content) (writer : SequenceWriter) : Option SequenceWriter :=
  match content with
  | .clockSnapshot =>
      SequenceWriter.clockSnapshot env.domain SequenceWriter.writePacket answers writer
  | .processDescriptor uuid =>
      SequenceWriter.processDescriptor env.config env.domain SequenceWriter.writePacket
        { answers with claimsProcess := true, processUuid := env.bases.uuid uuid } writer
  | .threadDescriptor =>
      SequenceWriter.threadDescriptor env.domain SequenceWriter.writePacket answers writer
  | .body body =>
      SequenceWriter.writePacket env.domain answers writer
        (body.encode env.memory env.config env.bases)

/-- The first use of the clock in a callback, for all its packets. -/
def ThreadCtx.timestamp (context : ThreadCtx) : ThreadCtx :=
  match context.writer.timestampNs with
  | some _ => context
  | none => { context with
      writer := { context.writer with timestampNs := some answers.rawClock }
      openedAt := time }

def SequenceAct.perform : (action : SequenceAct) → Contexts × Trace →
    Option (action.Reply × Contexts × Trace)
  | .readClock, (contexts, trace) =>
      some (answers.rawClock, contexts,
        { trace with readings := trace.readings ++ [(time, answers.rawClock)] })
  | .newWriter, (contexts, trace) => do
      let context ← contexts.live thread
      some ((), contexts.set thread (.live { context with
        writer := SequenceWriter.new context.writer.sequence }), trace)
  | .initialized, (contexts, trace) => do
      let context ← contexts.live thread
      some (context.writer.sequence.initialized, contexts, trace)
  | .markInitialized, (contexts, trace) => do
      let context ← contexts.live thread
      some ((), contexts.set thread (.live { context with
        writer := context.writer.markInitialized }), trace)
  | .threadTrackUuid, (contexts, trace) => do
      let context ← contexts.live thread
      some (context.trackUuid, contexts, trace)
  | .counterTrackUuid name, (contexts, trace) => do
      let context ← contexts.live thread
      some (context.writer.sequence.tables.counterTrackUuid name, contexts, trace)
  | .cacheCounterTrack name uuid, (contexts, trace) => do
      let context ← contexts.live thread
      some ((), contexts.set thread (.live { context with
        writer := { context.writer with
          sequence := context.writer.sequence.withTables
            (context.writer.sequence.tables.cacheCounterTrack name uuid) } }), trace)
  | .timestamp, (contexts, trace) => do
      let context ← contexts.live thread
      some ((), contexts.set thread (.live (context.timestamp time answers)),
        match context.writer.timestampNs with
        | some _ => trace
        | none => { trace with readings := trace.readings ++ [(time, answers.rawClock)] })
  | .write span calledAt content, (contexts, trace) => do
      let context ← contexts.live thread
      let timestamp ← context.writer.timestampNs
      let writer ← writeContent env answers content context.writer
      let written ← writer.written.getLast?
      some ((), contexts.set thread (.live { context with writer := writer }),
        { trace with
          packets := trace.packets ++
            [⟨thread, span, content, timestamp, calledAt, context.openedAt, time, written⟩] })

end SequencePerform

/-! ## The registry, and everything together -/

/-- A span as the registry knows it. -/
structure Registered where
  instance_ : Nat
  metadata : Metadata
  parent : Option SpanId
  entered : List ThreadId
  children : Nat
  busy : List ThreadId
  closing : Bool

/-- `parents` keeps under which span each one was created, also when it is gone. -/
structure Registry where
  spans : SpanId → Option Registered
  nextInstance : Nat
  parents : Nat → Option SpanId
  depth : ThreadId → Nat

/-- The callbacks, and the end of a thread. -/
inductive Call where
  | newSpan (spanId : SpanId) (metadata : Metadata) (parent : Option SpanId)
  | record (spanId : SpanId)
  | followsFrom (spanId follows : SpanId)
  | enter (spanId : SpanId)
  | exit (spanId : SpanId)
  | close (spanId : SpanId)
  | event (metadata : Metadata) (span : Option SpanId)
  | exitThread
  deriving DecidableEq

/-- The span whose handle the caller has during the callback. -/
def Call.handle : Call → Option SpanId
  | .newSpan spanId _ _ | .record spanId | .followsFrom spanId _ | .enter spanId
  | .exit spanId => some spanId
  | _ => none

namespace Registry

variable (registry : Registry)

def modify (spanId : SpanId) (change : Registered → Registered) : Registry :=
  { registry with
    spans := Function.update registry.spans spanId ((registry.spans spanId).map change) }

/-- The registry knows the span, and it is not being closed. -/
def alive (spanId : SpanId) : Bool :=
  match registry.spans spanId with
  | some span => !span.closing
  | none => false

end Registry

inductive RegistryAct where
  | span (spanId : SpanId)
  | finish (call : Call)
  deriving DecidableEq

abbrev RegistryAct.Reply : RegistryAct → Type
  | .span _ => Option Metadata
  | .finish _ => Unit

def RegistryAct.perform (thread : ThreadId) :
    (action : RegistryAct) → Registry → action.Reply × Registry
  | .span spanId, registry => ((registry.spans spanId).map Registered.metadata, registry)
  | .finish call, registry =>
      let registry := { registry with
        depth := Function.update registry.depth thread (registry.depth thread - 1) }
      ((), match call with
        | .close spanId =>
            match (registry.spans spanId).bind Registered.parent with
            | some parent =>
                { registry with spans := Function.update registry.spans spanId none }.modify
                  parent fun span => { span with children := span.children - 1 }
            | none => { registry with spans := Function.update registry.spans spanId none }
        | call =>
            match call.handle with
            | some spanId =>
                registry.modify spanId fun span => { span with busy := span.busy.erase thread }
            | none => registry)

structure State where
  shared : Shared
  pools : Pools
  spans : Spans
  contexts : Contexts
  trace : Trace
  registry : Registry
  time : Nat
  panicked : Bool
  recorded : List (Nat × Nat × Visits)

inductive Act where
  | shared (action : SharedAct)
  | pools (action : PoolAct)
  | spans (action : SpanAct)
  | context (action : ContextAct)
  | sequence (action : SequenceAct)
  | registry (action : RegistryAct)
  /-- The visits of a `record` call, which a span may keep; formatters of the user run
  meanwhile. -/
  | format (span : Option Nat)
  deriving DecidableEq

abbrev Act.Reply : Act → Type
  | .shared action => action.Reply
  | .pools action => action.Reply
  | .spans action => action.Reply
  | .context action => action.Reply
  | .sequence action => action.Reply
  | .registry action => action.Reply
  | .format _ => Visits

/-- What the environment decides: the clocks and names, what the formatters make of the
fields, whether a relaxed load sees the newest value, and whether a write fails. -/
structure Choice where
  answers : Answers
  visits : Visits
  fresh : Bool
  ioError : Bool

def State.tick (state : State) : State := { state with time := state.time + 1 }

def perform (env : Env) (thread : ThreadId) (action : Act) (choice : Choice) (state : State) :
    Option (action.Reply × State) :=
  match action with
  | .shared action =>
      let (reply, shared) := action.perform state.shared
      some (reply, { state.tick with shared := shared })
  | .pools action =>
      let (reply, pools) := action.perform state.pools
      some (reply, { state.tick with pools := pools })
  | .spans action => do
      let (reply, spans) ←
        action.perform env.mapShard thread state.time choice.fresh state.spans
      some (reply, { state.tick with spans := spans })
  | .context action => do
      let (reply, contexts) ← action.perform env.bases thread state.contexts
      some (reply, { state.tick with contexts := contexts })
  | .sequence action => do
      let (reply, contexts, trace) ←
        action.perform env thread state.time choice.answers (state.contexts, state.trace)
      some (reply, { state.tick with
        contexts := contexts
        trace := trace
        shared := { state.shared with
          hasError := state.shared.hasError || choice.ioError } })
  | .registry action =>
      let (reply, registry) := action.perform thread state.registry
      some (reply, { state.tick with registry := registry })
  | .format span =>
      some (choice.visits, { state.tick with
        panicked := state.panicked || choice.visits.panic
        recorded := state.recorded ++ span.toList.map fun span =>
          (span, state.time, choice.visits) })

end TracingPerfetto.Layer
