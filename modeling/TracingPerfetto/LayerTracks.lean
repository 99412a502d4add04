import TracingPerfetto.Ownership
import TracingPerfetto.LayerSequences
import TracingPerfetto.SpanPackets

/-!
Where the uuids of the span tracks are: in the entries of the spans, in the slots that the
threads cache, in the queues of the pools, and with the callbacks that hand them on.
-/

namespace TracingPerfetto.Layer

open TracingPerfetto.Runtime TracingPerfetto.Sequence TracingPerfetto.TrackEvents
open TracingPerfetto.Counters TracingPerfetto.Threads
open TracingPerfetto.Ownership
open TracingPerfetto.SpanStore (SpanId)

/-! ## The slots of the threads -/

abbrev Slots := Fin trackPoolSlots → Option CachedTrackPool

def State.slots (state : State) (thread : ThreadId) : Slots :=
  match state.contexts.live thread with
  | some context => context.trackPools
  | none => fun _ => none

/-- The uuid in a slot. -/
def slotUuid (cached : Option CachedTrackPool) : List Nat :=
  (cached.bind CachedTrackPool.localUuid).toList

def Slots.uuids (slots : Slots) : List Nat :=
  (List.finRange trackPoolSlots).flatMap fun slot => slotUuid (slots slot)

section Slots

variable {bases : IdBases} {thread : ThreadId} {contexts contexts' : Contexts}

/-- The slots in a thread-local storage. -/
def Tls.slots : Tls → Slots
  | .live context => context.trackPools
  | _ => fun _ => none

theorem slots_tls (state : State) (thread : ThreadId) :
    state.slots thread = (state.contexts.tls thread).slots := by
  rw [State.slots, Contexts.live]
  cases state.contexts.tls thread <;> rfl

theorem set_slots (tls : Tls) :
    (fun other => ((contexts.set thread tls).tls other).slots) =
      Function.update (fun other => (contexts.tls other).slots) thread tls.slots := by
  funext other
  by_cases hother : other = thread
  · subst hother
    rw [Borrowed.set_self, Function.update_self]
  · rw [Borrowed.set_other hother, Function.update_of_ne hother]

theorem set_slots_same {tls : Tls} (h : tls.slots = (contexts.tls thread).slots) :
    (fun other => ((contexts.set thread tls).tls other).slots) =
      fun other => (contexts.tls other).slots := by
  rw [set_slots, h, Function.update_eq_self]

theorem live_slots {context : ThreadCtx} (h : contexts.live thread = some context) :
    (contexts.tls thread).slots = context.trackPools := by
  rw [live_tls.1 h]
  rfl

theorem onLive_slots {α : Type} {action : ThreadCtx → α × ThreadCtx} {reply : α}
    (h : contexts.onLive thread action = some (reply, contexts'))
    (haction : ∀ context, (action context).2.trackPools = context.trackPools) :
    (fun other => (contexts'.tls other).slots) = fun other => (contexts.tls other).slots := by
  obtain ⟨context, hlive, -, rfl⟩ := onLive_cases h
  refine set_slots_same ?_
  rw [live_slots hlive]
  exact haction context

/-- The actions that leave the cached pools alone. -/
theorem context_slots {action : ContextAct} {reply : action.Reply}
    (h : action.perform bases thread contexts = some (reply, contexts'))
    (hinsert : ∀ sequenceId uuid anchor, action = .insert sequenceId uuid anchor →
      (contexts.tls thread).status = none)
    (hcached : ∀ key, action ≠ .cachedTrack key)
    (hcache : ∀ key pool localUuid, action ≠ .cachePool key pool localUuid)
    (hevict : action ≠ .evict) (hrelease : ∀ pool uuid, action ≠ .releaseLocal pool uuid)
    (hdestroy : action ≠ .destroy) :
    (fun other => (contexts'.tls other).slots) = fun other => (contexts.tls other).slots := by
  cases action with
  | lookup =>
      simp only [ContextAct.perform, Option.some.injEq] at h
      cases htls : contexts.tls thread with
      | live context =>
          simp only [htls] at h
          by_cases hborrowed : context.borrowed = true
          · simp only [hborrowed, if_true, Prod.mk.injEq] at h
            rw [← h.2]
          · rw [Bool.not_eq_true] at hborrowed
            simp only [hborrowed, Bool.false_eq_true, if_false, Prod.mk.injEq] at h
            rw [← h.2]
            refine set_slots_same ?_
            rw [htls]
            rfl
      | unset | destroyed =>
          simp only [htls, Prod.mk.injEq] at h
          rw [← h.2]
  | insert sequenceId uuid anchor =>
      simp only [ContextAct.perform, Option.some.injEq, Prod.mk.injEq, true_and] at h
      subst h
      refine set_slots_same ?_
      have hunset := hinsert sequenceId uuid anchor rfl
      cases htls : contexts.tls thread with
      | unset => rfl
      | live | destroyed =>
          rw [htls] at hunset
          cases hunset
  | dropGuard => exact onLive_slots h fun _ => rfl
  | takeRetained =>
      refine onLive_slots h fun context => ?_
      rw [ThreadCtx.takeRetained]
      split <;> rfl
  | returnRetained retained =>
      refine onLive_slots h fun context => ?_
      simp only [ThreadCtx.returnRetained]
      split <;> rfl
  | cachedTrack key => exact absurd rfl (hcached key)
  | cachePool key pool localUuid => exact absurd rfl (hcache key pool localUuid)
  | evict => exact absurd rfl hevict
  | releaseLocal pool uuid => exact absurd rfl (hrelease pool uuid)
  | destroy => exact absurd rfl hdestroy

theorem sequence_slots {env : Env} {time : Nat} {answers : Answers} {trace trace' : Trace}
    {action : SequenceAct} {reply : action.Reply}
    (h : action.perform env thread time answers (contexts, trace) =
      some (reply, contexts', trace')) :
    (fun other => (contexts'.tls other).slots) = fun other => (contexts.tls other).slots := by
  cases action with
  | readClock =>
      simp only [SequenceAct.perform, Option.some.injEq, Prod.mk.injEq] at h
      rw [h.2.1]
  | initialized | threadTrackUuid | counterTrackUuid =>
      simp only [SequenceAct.perform, Option.bind_eq_bind, Option.bind_eq_some_iff,
        Option.some.injEq, Prod.mk.injEq] at h
      obtain ⟨_, _, _, rfl, _⟩ := h
      rfl
  | newWriter | markInitialized | cacheCounterTrack =>
      simp only [SequenceAct.perform, Option.bind_eq_bind, Option.bind_eq_some_iff,
        Option.some.injEq, Prod.mk.injEq] at h
      obtain ⟨context, hlive, _, rfl, _⟩ := h
      refine set_slots_same ?_
      rw [live_slots hlive]
      rfl
  | timestamp =>
      simp only [SequenceAct.perform, Option.bind_eq_bind, Option.bind_eq_some_iff,
        Option.some.injEq, Prod.mk.injEq] at h
      obtain ⟨context, hlive, _, rfl, _⟩ := h
      refine set_slots_same ?_
      rw [live_slots hlive]
      change (context.timestamp time answers).trackPools = _
      rw [ThreadCtx.timestamp]
      split <;> rfl
  | write span calledAt content =>
      simp only [SequenceAct.perform, Option.bind_eq_bind, Option.bind_eq_some_iff,
        Option.some.injEq, Prod.mk.injEq] at h
      obtain ⟨context, hlive, _, _, _, _, _, _, _, rfl, _⟩ := h
      refine set_slots_same ?_
      rw [live_slots hlive]
      rfl

/-- A slot that is found is a slot, and its pool is the one that is looked for. -/
theorem slotOf_some {context : ThreadCtx} {wanted : CachedTrackPool → Bool}
    {slot : Fin trackPoolSlots} {cached : CachedTrackPool}
    (h : context.slotOf wanted = some (slot, cached)) :
    context.trackPools slot = some cached ∧ wanted cached = true := by
  rw [ThreadCtx.slotOf] at h
  obtain ⟨found, -, hfound⟩ := List.exists_of_findSome?_eq_some h
  simp only [Option.map_eq_some_iff, Option.filter_eq_some_iff, Prod.mk.injEq] at hfound
  obtain ⟨_, ⟨hslot, hwanted⟩, rfl, rfl⟩ := hfound
  exact ⟨hslot, hwanted⟩

end Slots

section Act

variable {env : Env} {state state' : State} {thread : ThreadId} {choice : Choice}

theorem slots_eq (state : State) :
    state.slots = fun thread => (state.contexts.tls thread).slots :=
  funext (slots_tls state)

theorem perform_context {action : ContextAct} {reply : action.Reply}
    (h : perform env thread (.context action) choice state = some (reply, state')) :
    ∃ contexts, action.perform env.bases thread state.contexts = some (reply, contexts) ∧
      state' = { state.tick with contexts := contexts } := by
  simp only [perform, Option.bind_eq_bind, Option.bind_eq_some_iff, Option.some.injEq,
    Prod.mk.injEq] at h
  obtain ⟨⟨_, contexts⟩, hperform, rfl, rfl⟩ := h
  exact ⟨contexts, hperform, rfl⟩

/-- The actions that change a slot. -/
def ContextAct.fills : ContextAct → Bool
  | .cachedTrack _ | .cachePool _ _ _ | .evict | .releaseLocal _ _ | .destroy => true
  | _ => false

theorem perform_slots {action : Act} {reply : action.Reply}
    (h : perform env thread action choice state = some (reply, state'))
    (hinsert : ∀ sequenceId uuid anchor, action = .context (.insert sequenceId uuid anchor) →
      state.status thread = none)
    (hfills : ∀ act, action = .context act → act.fills = false) :
    state'.slots = state.slots := by
  rw [slots_eq, slots_eq]
  cases action with
  | shared | pools | format | registry =>
      simp only [perform, Option.some.injEq, Prod.mk.injEq] at h
      rw [← h.2]
      rfl
  | spans =>
      simp only [perform, Option.bind_eq_bind, Option.bind_eq_some_iff, Option.some.injEq,
        Prod.mk.injEq] at h
      obtain ⟨_, _, _, rfl⟩ := h
      rfl
  | sequence action =>
      simp only [perform, Option.bind_eq_bind, Option.bind_eq_some_iff, Option.some.injEq,
        Prod.mk.injEq] at h
      obtain ⟨⟨_, contexts, trace⟩, hperform, _, rfl⟩ := h
      exact sequence_slots hperform
  | context action =>
      obtain ⟨contexts, hperform, rfl⟩ := perform_context h
      have hkeeps := hfills action rfl
      refine context_slots hperform (fun sequenceId uuid anchor heq => ?_) ?_ ?_ ?_ ?_ ?_
      · subst heq
        exact hinsert sequenceId uuid anchor rfl
      all_goals
        intros
        rintro rfl
        cases hkeeps

/-- The slot of a thread is changed. -/
def State.withSlot (state : State) (thread : ThreadId) (slot : Fin trackPoolSlots)
    (cached : Option CachedTrackPool) : ThreadId → Slots :=
  Function.update state.slots thread (Function.update (state.slots thread) slot cached)

theorem setSlot_slots {context : ThreadCtx} {contexts : Contexts}
    (hlive : state.contexts.live thread = some context) {slot : Fin trackPoolSlots}
    {cached : Option CachedTrackPool} {context' : ThreadCtx}
    (hslots : context'.trackPools = Function.update context.trackPools slot cached)
    (hcontexts : contexts = state.contexts.set thread (.live context')) :
    State.slots { state.tick with contexts := contexts } =
      state.withSlot thread slot cached := by
  subst hcontexts
  rw [slots_eq]
  change (fun other => ((state.contexts.set thread (.live context')).tls other).slots) = _
  have hbefore : state.slots thread = context.trackPools := by rw [slots_tls, live_slots hlive]
  rw [set_slots, State.withSlot, hbefore, ← hslots, slots_eq]
  rfl

theorem live_slots_eq {context : ThreadCtx} (h : state.contexts.live thread = some context) :
    state.slots thread = context.trackPools := by
  rw [slots_tls, live_slots h]

theorem cachedTrack_slots {key : TrackKey} {reply : Option (PoolOf key × Option Nat)}
    (h : perform env thread (.context (.cachedTrack key)) choice state = some (reply, state')) :
    reply = none ∧ state'.slots = state.slots ∨
      ∃ slot cached pool, state.slots thread slot = some cached ∧ cached.key = key ∧
        reply = some (pool, cached.localUuid) ∧ pool.val = cached.pool.val ∧
        state'.slots = state.withSlot thread slot (some { cached with localUuid := none }) := by
  obtain ⟨contexts, hperform, rfl⟩ := perform_context h
  obtain ⟨context, hlive, hreply, hcontexts⟩ := onLive_cases hperform
  have hslots := live_slots_eq hlive
  have hsame : context.cachedTrack key = (none, context) → reply = none ∧
      State.slots { state.tick with contexts := contexts } = state.slots := by
    intro heq
    rw [heq] at hreply hcontexts
    subst hcontexts
    refine ⟨hreply, ?_⟩
    rw [slots_eq, slots_eq]
    exact set_slots_same (live_slots hlive).symm
  cases hfound : context.slotOf fun cached => cached.key == key with
  | none => exact .inl (hsame (by simp only [ThreadCtx.cachedTrack, hfound]))
  | some found =>
      obtain ⟨slot, cached⟩ := found
      obtain ⟨hslot, hkey⟩ := slotOf_some hfound
      have hkey' : cached.key = key := by simpa using hkey
      simp only [ThreadCtx.cachedTrack, hfound, dif_pos hkey'] at hreply hcontexts
      exact .inr ⟨slot, cached, _, by rw [hslots, hslot], hkey', hreply, rfl,
        setSlot_slots hlive rfl hcontexts⟩

theorem cachePool_slots {key : TrackKey} {pool : PoolOf key} {localUuid : Option Nat}
    {reply : Unit}
    (h : perform env thread (.context (.cachePool key pool localUuid)) choice state =
      some (reply, state')) :
    ∃ slot, state'.slots = state.withSlot thread slot (some ⟨key, pool, localUuid⟩) := by
  obtain ⟨contexts, hperform, rfl⟩ := perform_context h
  obtain ⟨context, hlive, -, hcontexts⟩ := onLive_cases hperform
  exact ⟨context.nextTrackPool, setSlot_slots hlive rfl hcontexts⟩

theorem evict_slots {reply : Option (PoolRef × Nat)}
    (h : perform env thread (.context .evict) choice state = some (reply, state')) :
    ∃ slot, reply = (state.slots thread slot).bind (fun old =>
        old.localUuid.map fun uuid => (old.pool.val, uuid)) ∧
      state'.slots = state.withSlot thread slot none := by
  obtain ⟨contexts, hperform, rfl⟩ := perform_context h
  obtain ⟨context, hlive, hreply, hcontexts⟩ := onLive_cases hperform
  refine ⟨context.nextTrackPool, ?_, setSlot_slots hlive rfl hcontexts⟩
  rw [hreply, live_slots_eq hlive]
  rfl

theorem releaseLocal_slots {pool : PoolRef} {uuid : Nat} {reply : Kept}
    (h : perform env thread (.context (.releaseLocal pool uuid)) choice state =
      some (reply, state')) :
    reply ≠ .kept ∧ state'.slots = state.slots ∨
      reply = .kept ∧ ∃ slot cached, state.slots thread slot = some cached ∧
        cached.pool.val.number = pool.number ∧ cached.localUuid = none ∧
        state'.slots =
          state.withSlot thread slot (some { cached with localUuid := some uuid }) := by
  obtain ⟨contexts, hperform, rfl⟩ := perform_context h
  obtain ⟨context, hlive, hreply, hcontexts⟩ := onLive_cases hperform
  have hslots := live_slots_eq hlive
  have hsame : ∀ outcome, outcome ≠ .kept → context.releaseLocal pool uuid = (outcome, context) →
      reply ≠ .kept ∧ State.slots { state.tick with contexts := contexts } = state.slots := by
    intro outcome houtcome heq
    rw [heq] at hreply hcontexts
    subst hcontexts
    refine ⟨hreply ▸ houtcome, ?_⟩
    rw [slots_eq, slots_eq]
    exact set_slots_same (live_slots hlive).symm
  cases hfound : context.slotOf fun cached => cached.pool.val.number == pool.number with
  | none => exact .inl (hsame .uncached (by simp) (by simp only [ThreadCtx.releaseLocal, hfound]))
  | some found =>
      obtain ⟨slot, cached⟩ := found
      obtain ⟨hslot, hnumber⟩ := slotOf_some hfound
      cases hlocal : cached.localUuid with
      | some other =>
          refine .inl (hsame .full (by simp) ?_)
          simp only [ThreadCtx.releaseLocal, hfound, hlocal, Option.isNone_some,
            Bool.false_eq_true, if_false]
      | none =>
          simp only [ThreadCtx.releaseLocal, hfound, hlocal, Option.isNone_none,
            if_true] at hreply hcontexts
          exact .inr ⟨hreply, slot, cached, by rw [hslots, hslot], by simpa using hnumber, hlocal,
            setSlot_slots hlive rfl hcontexts⟩

theorem destroy_slots {reply : List (PoolRef × Nat)}
    (h : perform env thread (.context .destroy) choice state = some (reply, state')) :
    reply = (List.finRange trackPoolSlots).filterMap (fun slot =>
        (state.slots thread slot).bind fun cached =>
          cached.localUuid.map fun uuid => (cached.pool.val, uuid)) ∧
      state'.slots = Function.update state.slots thread fun _ => none := by
  obtain ⟨contexts, hperform, rfl⟩ := perform_context h
  simp only [ContextAct.perform, Option.some.injEq] at hperform
  have hslots : contexts = state.contexts.set thread .destroyed →
      State.slots { state.tick with contexts := contexts } =
        Function.update state.slots thread fun _ => none := by
    rintro rfl
    rw [slots_eq, slots_eq]
    exact set_slots Tls.destroyed
  rw [slots_tls]
  cases htls : state.contexts.tls thread with
  | live context =>
      simp only [htls, Prod.mk.injEq] at hperform
      exact ⟨hperform.1.symm, hslots hperform.2.symm⟩
  | unset | destroyed =>
      simp only [htls, Prod.mk.injEq] at hperform
      refine ⟨?_, hslots hperform.2.symm⟩
      rw [← hperform.1]
      rfl

end Act

/-! ## The queues of the pools -/

namespace Pools

variable (pools : Pools)

def queue (number : Nat) : List Nat := ((pools.pools[number]?).map TrackPool.tracks).getD []

/-- The key of a pool, which never changes. -/
def keyAt (number : Nat) : Option TrackKey := (pools.pools[number]?).map TrackPool.key

/-- An `Arc` shows the key of its pool. -/
def Has (pool : PoolRef) : Prop := pools.keyAt pool.number = some pool.key

/-- A change of one queue. -/
theorem modify_queue (number : Nat) (change : TrackPool → TrackPool)
    (hkey : ∀ pool, (change pool).key = pool.key) :
    (pools.modify number change hkey).queue = Function.update pools.queue number
        (((pools.pools[number]?).map fun pool => (change pool).tracks).getD []) ∧
      (pools.modify number change hkey).keyAt = pools.keyAt := by
  constructor
  · funext other
    by_cases hother : other = number
    · subst hother
      rw [Function.update_self]
      simp only [queue, modify, List.getElem?_modify, if_true]
      cases pools.pools[other]? <;> rfl
    · rw [Function.update_of_ne hother]
      simp only [queue, modify, List.getElem?_modify, if_neg (Ne.symm hother)]
      cases pools.pools[other]? <;> rfl
  · funext other
    simp only [keyAt, modify, List.getElem?_modify]
    cases pools.pools[other]? with
    | none => rfl
    | some pool =>
        by_cases hother : number = other
        · simp [hother, hkey]
        · simp [hother]

theorem find_has {key : TrackKey} {pool : PoolOf key} (h : pools.find key = some pool) :
    pools.Has pool.val := by
  rw [find, Option.map_eq_some_iff] at h
  obtain ⟨number, hnumber, rfl⟩ := h
  obtain ⟨found, hfound, hkey⟩ := pools.keyed key number hnumber
  change (pools.pools[number]?).map TrackPool.key = some key
  rw [hfound, ← hkey]
  rfl

/-- A new pool has nothing in its queue. -/
theorem add_queue (key : TrackKey) : (pools.add key).queue = pools.queue := by
  funext number
  rcases Nat.lt_trichotomy number pools.pools.length with hlt | rfl | hgt
  · simp only [queue, add, List.getElem?_append_left hlt]
  · simp [queue, add]
  · have hlength : (pools.pools ++ [TrackPool.mk key []]).length ≤ number := by
      rw [List.length_append]
      exact Nat.succ_le_of_lt hgt
    simp only [queue, add, List.getElem?_eq_none hlength, List.getElem?_eq_none hgt.le]

theorem add_keyAt (key : TrackKey) {number : Nat} {known : TrackKey}
    (h : pools.keyAt number = some known) : (pools.add key).keyAt number = some known := by
  rw [keyAt, Option.map_eq_some_iff] at h
  obtain ⟨pool, hpool, rfl⟩ := h
  obtain ⟨hlt, -⟩ := List.getElem?_eq_some_iff.1 hpool
  simp only [keyAt, add, List.getElem?_append_left hlt, hpool]
  rfl

theorem create_spec (key : TrackKey) :
    (pools.create key).2.queue = pools.queue ∧
      (∀ number known, pools.keyAt number = some known →
        (pools.create key).2.keyAt number = some known) ∧
      ∀ pool, (pools.create key).1 = some pool → (pools.create key).2.Has pool.val := by
  cases hfind : pools.find key with
  | some found =>
      have hcreate : pools.create key = (some found, pools) := by simp only [create, hfind]
      rw [hcreate]
      refine ⟨rfl, fun _ _ hknown => hknown, fun pool hpool => ?_⟩
      cases hpool
      exact pools.find_has hfind
  | none =>
      by_cases hroom : pools.reusableKeys < maxReusableKeys
      · have hcreate : pools.create key =
            (some ⟨⟨pools.pools.length, key⟩, rfl⟩, pools.add key) := by
          simp only [create, hfind, if_pos hroom]
        rw [hcreate]
        refine ⟨pools.add_queue key, fun _ _ => pools.add_keyAt key, fun pool hpool => ?_⟩
        cases hpool
        simp [Has, keyAt, add]
      · have hcreate : pools.create key = (none, pools) := by
          simp only [create, hfind, if_neg hroom]
        rw [hcreate]
        exact ⟨rfl, fun _ _ hknown => hknown, fun pool hpool => by cases hpool⟩

end Pools

section Pools

variable {env : Env} {state state' : State} {thread : ThreadId} {choice : Choice}

theorem perform_pools {action : PoolAct} {reply : action.Reply}
    (h : perform env thread (.pools action) choice state = some (reply, state')) :
    reply = (action.perform state.pools).1 ∧
      state' = { state.tick with pools := (action.perform state.pools).2 } := by
  simp only [perform, Option.some.injEq, Prod.mk.injEq] at h
  exact ⟨h.1.symm, h.2.symm⟩

theorem pools_same {action : Act} {reply : action.Reply}
    (h : perform env thread action choice state = some (reply, state'))
    (haction : ∀ act, action ≠ .pools act) : state'.pools = state.pools := by
  cases action with
  | pools act => exact absurd rfl (haction act)
  | shared | format | registry =>
      simp only [perform, Option.some.injEq, Prod.mk.injEq] at h
      rw [← h.2]
      rfl
  | spans | context | sequence =>
      simp only [perform, Option.bind_eq_bind, Option.bind_eq_some_iff, Option.some.injEq,
        Prod.mk.injEq] at h
      obtain ⟨_, _, _, rfl⟩ := h
      rfl

theorem claim_pool {pool : PoolRef} {reply : Option Nat}
    (h : perform env thread (.pools (.claim pool)) choice state = some (reply, state')) :
    reply = (state.pools.queue pool.number).head? ∧
      state'.pools.queue = Function.update state.pools.queue pool.number
        (state.pools.queue pool.number).tail ∧
      state'.pools.keyAt = state.pools.keyAt := by
  obtain ⟨hreply, rfl⟩ := perform_pools h
  obtain ⟨hqueue, hkeys⟩ := state.pools.modify_queue pool.number
    (fun found => found.claim.2) TrackPool.claim_key
  refine ⟨?_, hqueue.trans ?_, hkeys⟩
  · rw [hreply]
    simp only [PoolAct.perform, Pools.queue]
    cases state.pools.pools[pool.number]? with
    | none => rfl
    | some found => rcases found with ⟨key, _ | ⟨uuid, tracks⟩⟩ <;> rfl
  · congr 1
    simp only [Pools.queue]
    cases state.pools.pools[pool.number]? with
    | none => rfl
    | some found => rcases found with ⟨key, _ | ⟨uuid, tracks⟩⟩ <;> rfl

/-- A full queue forgets the uuid. -/
theorem release_pool {pool : PoolRef} {uuid : Nat} {reply : Unit}
    (h : perform env thread (.pools (.release pool uuid)) choice state = some (reply, state')) :
    (∃ tracks, state'.pools.queue = Function.update state.pools.queue pool.number tracks ∧
      (tracks = state.pools.queue pool.number ∨
        tracks = state.pools.queue pool.number ++ [uuid])) ∧
      state'.pools.keyAt = state.pools.keyAt := by
  obtain ⟨-, rfl⟩ := perform_pools h
  obtain ⟨hqueue, hkeys⟩ := state.pools.modify_queue pool.number
    (fun found => found.release uuid) fun found => found.release_key uuid
  refine ⟨⟨_, hqueue, ?_⟩, hkeys⟩
  simp only [Pools.queue]
  cases state.pools.pools[pool.number]? with
  | none => exact .inl rfl
  | some found =>
      simp only [Option.map_some, Option.getD_some, TrackPool.release]
      by_cases hroom : found.tracks.length < trackPoolCapacity
      · rw [if_pos hroom]
        exact .inr rfl
      · rw [if_neg hroom]
        exact .inl rfl

/-- A pool stays. -/
theorem keyAt_mono {action : Act} {reply : action.Reply}
    (h : perform env thread action choice state = some (reply, state')) {number : Nat}
    {key : TrackKey} (hkey : state.pools.keyAt number = some key) :
    state'.pools.keyAt number = some key := by
  by_cases hpools : ∃ act, action = .pools act
  · obtain ⟨act, rfl⟩ := hpools
    cases act with
    | find key =>
        obtain ⟨-, rfl⟩ := perform_pools h
        exact hkey
    | create key =>
        obtain ⟨-, rfl⟩ := perform_pools h
        exact (state.pools.create_spec _).2.1 _ _ hkey
    | claim pool =>
        rw [(claim_pool h).2.2]
        exact hkey
    | release pool uuid =>
        rw [(release_pool h).2]
        exact hkey
  · rw [pools_same h fun act heq => hpools ⟨act, heq⟩]
    exact hkey

end Pools

/-! ## The entries of the spans -/

/-- The pool and the uuid of a span. -/
def State.track (state : State) (spanId : SpanId) : Option (Option PoolRef × Option Nat) :=
  (state.spans.entries spanId).map fun entry => (entry.data.trackPool, entry.data.trackUuid)

section Entries

variable {env : Env} {state state' : State} {frames : Frames} {thread : ThreadId}
  {frame : Frame} {rest : List Frame} {choice : Choice}

/-- What of an entry never changes. -/
def Entry.fixed (entry : Entry) : Nat × Option PoolRef × Option Nat :=
  (entry.instance_, entry.data.trackPool, entry.data.trackUuid)

theorem setEntry_fixed {found : Found} {entry : Entry}
    (hold : state.spans.entries found.spanId = some found.entry)
    (hfixed : entry.fixed = found.entry.fixed) (spanId : SpanId) :
    ((state.spans.setEntry found.spanId (some entry)).entries spanId).map Entry.fixed =
      (state.spans.entries spanId).map Entry.fixed := by
  by_cases heq : spanId = found.spanId
  · subst heq
    simp only [Spans.setEntry, Function.update_self, hold, Option.map_some, hfixed]
  · simp only [Spans.setEntry, Function.update_of_ne heq]

/-- Under its guard an entry keeps its instance and its track. -/
theorem fixed_same (hguards : Guards env state frames) (hmem : frame ∈ frames thread)
    {action : Act} {reply : action.Reply} (hpre : pre env frame action)
    (hperform : perform env thread action choice state = some (reply, state'))
    (hinsert : ∀ spanId instance_ data, action ≠ .spans (.insert spanId instance_ data))
    (htake : ∀ spanId, action ≠ .spans (.take spanId)) (spanId : SpanId) :
    (state'.spans.entries spanId).map Entry.fixed =
      (state.spans.entries spanId).map Entry.fixed := by
  by_cases hspans : ∃ act, action = .spans act
  · obtain ⟨act, rfl⟩ := hspans
    obtain ⟨spans, haction, rfl⟩ := perform_spans_act hperform
    have hsame : spans.entries = state.spans.entries →
        (spans.entries spanId).map Entry.fixed = (state.spans.entries spanId).map Entry.fixed :=
      fun heq => by rw [heq]
    cases act with
    | insert spanId instance_ data => exact absurd rfl (hinsert spanId instance_ data)
    | take spanId => exact absurd rfl (htake spanId)
    | get spanId => exact hsame (get_spec haction).1
    | getMut spanId =>
        rcases getMut_spec haction with ⟨shown, -, -, -, -, rfl⟩ | ⟨-, -, rfl⟩
        · exact hsame rfl
        · exact hsame rfl
    | put found =>
        obtain ⟨shown, hguard, -, hchanges, -⟩ := hpre
        simp only [SpanAct.perform, Option.some.injEq, Prod.mk.injEq, true_and] at haction
        subst haction
        have hfixed : found.entry.fixed = shown.entry.fixed := by
          rw [Entry.fixed, Entry.fixed, hchanges.instance_]
          exact congrArg (Prod.mk _) (congrArg₂ Prod.mk hchanges.trackPool hchanges.trackUuid)
        have hset := setEntry_fixed (hguards.entry thread frame hmem shown hguard) hfixed spanId
        rw [← hchanges.spanId] at hset
        exact hset
    | pushFlow found flow =>
        obtain ⟨hguard, -⟩ := hpre
        simp only [SpanAct.perform, Option.some.injEq, Prod.mk.injEq, true_and] at haction
        subst haction
        have hfixed : (found.withData (found.data.pushFlow flow)).entry.fixed =
            found.entry.fixed := rfl
        exact setEntry_fixed (hguards.entry thread frame hmem found hguard) hfixed spanId
    | dropRef found =>
        simp only [SpanAct.perform, Option.some.injEq, Prod.mk.injEq, true_and] at haction
        subst haction
        refine hsame ?_
        simp only [releaseRef]
        split <;> rfl
    | dropMut | noteFollowsFrom | hasFollowsFrom =>
        simp only [SpanAct.perform, Option.some.injEq, Prod.mk.injEq] at haction
        obtain ⟨-, rfl⟩ := haction
        exact hsame rfl
  · rw [perform_spans hperform fun act heq => hspans ⟨act, heq⟩]

theorem track_fixed (state : State) (spanId : SpanId) :
    state.track spanId = ((state.spans.entries spanId).map Entry.fixed).map Prod.snd := by
  rw [Option.map_map]
  rfl

/-- Under its guard an entry keeps its track. -/
theorem track_same (hguards : Guards env state frames) (hmem : frame ∈ frames thread)
    {action : Act} {reply : action.Reply} (hpre : pre env frame action)
    (hperform : perform env thread action choice state = some (reply, state'))
    (hinsert : ∀ spanId instance_ data, action ≠ .spans (.insert spanId instance_ data))
    (htake : ∀ spanId, action ≠ .spans (.take spanId)) : state'.track = state.track := by
  funext spanId
  rw [track_fixed, track_fixed, fixed_same hguards hmem hpre hperform hinsert htake]

theorem insert_track {spanId : SpanId} {instance_ : Nat} {data : SpanData} {reply : Unit}
    (h : perform env thread (.spans (.insert spanId instance_ data)) choice state =
      some (reply, state')) :
    state'.track = Function.update state.track spanId (some (data.trackPool, data.trackUuid)) := by
  obtain ⟨spans, haction, rfl⟩ := perform_spans_act h
  simp only [SpanAct.perform, Option.map_eq_some_iff, Prod.mk.injEq, true_and] at haction
  obtain ⟨inserted, hinsert, rfl⟩ := haction
  obtain ⟨-, hentries, -⟩ := insert_spec hinsert
  funext other
  simp only [State.track, hentries]
  by_cases hother : other = spanId
  · subst hother
    simp only [Function.update_self, Option.map_some]
  · simp only [Function.update_of_ne hother, State.track]

theorem take_track {spanId : SpanId} {reply : Option Found}
    (h : perform env thread (.spans (.take spanId)) choice state = some (reply, state')) :
    reply = none ∧ state'.track = state.track ∨ ∃ found, reply = some found ∧
      state.spans.entries spanId = some found.entry ∧
      state'.track = Function.update state.track spanId none := by
  obtain ⟨spans, haction, rfl⟩ := perform_spans_act h
  obtain ⟨-, -, -, ⟨shown, rfl, -, hentry, -, hentries⟩ | ⟨rfl, -, hentries⟩⟩ := take_spec haction
  · refine .inr ⟨shown, rfl, hentry, funext fun other => ?_⟩
    simp only [State.track, hentries]
    by_cases hother : other = spanId
    · subst hother
      simp only [Function.update_self, Option.map_none]
    · simp only [Function.update_of_ne hother, State.track]
  · refine .inl ⟨rfl, funext fun other => ?_⟩
    simp only [State.track, hentries]

end Entries

/-! ## Who has which uuid -/

/-- The places of a uuid. -/
inductive Holder where
  | callbacks (thread : ThreadId)
  | entry (spanId : SpanId)
  | slots (thread : ThreadId)
  | queue (number : Nat)
  deriving DecidableEq

/-- The uuids in the hands of a callback, the one that it has just drawn included. -/
def Frame.uuids (frame : Frame) : List Nat := frame.fresh.toList ++ frame.held.map Held.uuid

/-- The uuids that no callback has in its hands. -/
def State.stored (state : State) : Holder → List Nat
  | .callbacks _ => []
  | .entry spanId => ((state.track spanId).bind Prod.snd).toList
  | .slots thread => (state.slots thread).uuids
  | .queue number => state.pools.queue number

def holding (state : State) (frames : Frames) : Holder → List Nat
  | .callbacks thread => (frames thread).flatMap Frame.uuids
  | holder => state.stored holder

/-- Nobody shares a uuid, and all have been drawn. -/
structure Owners (state : State) (frames : Frames) : Prop where
  exclusive : Exclusive (holding state frames)
  issued : ∀ holder, ∀ uuid ∈ holding state frames holder, uuid < state.shared.nextUuid

namespace Owners

variable {state state' : State} {frames : Frames} {thread : ThreadId} {frame frame' : Frame}
  {rest : List Frame}

theorem holding_stored {holder : Holder} (h : ∀ thread, holder ≠ .callbacks thread) :
    holding state frames holder = state.stored holder := by
  cases holder with
  | callbacks thread => exact absurd rfl (h thread)
  | entry | slots | queue => rfl

theorem callbacks_count (hthread : frames thread = frame :: rest) (token : Nat) :
    (holding state frames (.callbacks thread)).count token =
      frame.uuids.count token + (rest.flatMap Frame.uuids).count token := by
  simp only [holding, hthread, List.flatMap_cons, List.count_append]

theorem callbacks_count_step (token : Nat) :
    (holding state' (Function.update frames thread (frame' :: rest)) (.callbacks thread)).count
      token = frame'.uuids.count token + (rest.flatMap Frame.uuids).count token := by
  simp only [holding, Function.update_self, List.flatMap_cons, List.count_append]

theorem others_step {holder : Holder} (hcallbacks : holder ≠ .callbacks thread)
    (hstored : state'.stored holder = state.stored holder) {values : List Frame} :
    holding state' (Function.update frames thread values) holder = holding state frames holder := by
  cases holder with
  | callbacks other =>
      have hother : other ≠ thread := by
        rintro rfl
        exact hcallbacks rfl
      simp only [holding, Function.update_of_ne hother]
  | entry | slots | queue => exact hstored

/-- The top callback and one of the places hand uuids to each other, or drop them. -/
theorem move (h : Owners state frames) (hthread : frames thread = frame :: rest) {place : Holder}
    (hplace : ∀ other, place ≠ .callbacks other)
    (hothers : ∀ other, other ≠ place → state'.stored other = state.stored other)
    (hcount : ∀ token, (state'.stored place).count token + frame'.uuids.count token ≤
      (state.stored place).count token + frame.uuids.count token)
    (hnext : state.shared.nextUuid ≤ state'.shared.nextUuid) :
    Owners state' (Function.update frames thread (frame' :: rest)) := by
  have hpair : ∀ token, (holding state' (Function.update frames thread (frame' :: rest))
        place).count token +
      (holding state' (Function.update frames thread (frame' :: rest))
        (.callbacks thread)).count token ≤
      (holding state frames place).count token +
        (holding state frames (.callbacks thread)).count token := by
    intro token
    rw [callbacks_count_step, callbacks_count hthread, holding_stored hplace,
      holding_stored hplace]
    have := hcount token
    omega
  have hsame : ∀ other, other ≠ place → other ≠ .callbacks thread →
      holding state' (Function.update frames thread (frame' :: rest)) other =
        holding state frames other := fun other hne hcallbacks =>
    others_step hcallbacks (hothers other hne)
  constructor
  · exact h.exclusive.transfer (hplace thread) hsame hpair
  · intro holder uuid hmem
    have hbefore : ∃ before, uuid ∈ holding state frames before := by
      by_cases hother : holder = place ∨ holder = .callbacks thread
      · have hle := hpair uuid
        have hpositive : 0 < (holding state' (Function.update frames thread (frame' :: rest))
              place).count uuid +
            (holding state' (Function.update frames thread (frame' :: rest))
              (.callbacks thread)).count uuid := by
          have hcount := List.count_pos_iff.2 hmem
          rcases hother with rfl | rfl
          · omega
          · omega
        rcases Nat.eq_zero_or_pos ((holding state frames place).count uuid) with hzero | hpos
        · exact ⟨.callbacks thread, List.count_pos_iff.1 (by omega)⟩
        · exact ⟨place, List.count_pos_iff.1 hpos⟩
      · rw [not_or] at hother
        rw [hsame holder hother.1 hother.2] at hmem
        exact ⟨holder, hmem⟩
    obtain ⟨before, hmem⟩ := hbefore
    exact (h.issued before uuid hmem).trans_le hnext

/-- Nothing changes places. -/
theorem quiet (h : Owners state frames) (hthread : frames thread = frame :: rest)
    (hstored : state'.stored = state.stored)
    (hcount : ∀ token, frame'.uuids.count token ≤ frame.uuids.count token)
    (hnext : state.shared.nextUuid ≤ state'.shared.nextUuid) :
    Owners state' (Function.update frames thread (frame' :: rest)) := by
  have hqueue : ∀ other, Holder.queue 0 ≠ .callbacks other := fun _ => by simp
  refine h.move hthread hqueue (fun other _ => by rw [hstored]) (fun token => ?_) hnext
  rw [hstored]
  have := hcount token
  omega

/-- A uuid is drawn. -/
theorem draw (h : Owners state frames) (hthread : frames thread = frame :: rest)
    (hstored : state'.stored = state.stored)
    (hcount : ∀ token, frame'.uuids.count token ≤
      frame.uuids.count token + if token = state.shared.nextUuid then 1 else 0)
    (hnext : state'.shared.nextUuid = state.shared.nextUuid + 1) :
    Owners state' (Function.update frames thread (frame' :: rest)) := by
  have hfresh : ∀ holder, state.shared.nextUuid ∉ holding state frames holder :=
    fun holder hmem => (h.issued holder _ hmem).false
  have hsame : ∀ other, other ≠ .callbacks thread →
      holding state' (Function.update frames thread (frame' :: rest)) other =
        holding state frames other := fun other hother =>
    others_step hother (congrFun hstored other)
  have hthis : ∀ token, (holding state' (Function.update frames thread (frame' :: rest))
      (.callbacks thread)).count token ≤
      (holding state frames (.callbacks thread)).count token +
        if token = state.shared.nextUuid then 1 else 0 := by
    intro token
    rw [callbacks_count_step, callbacks_count hthread]
    have := hcount token
    omega
  constructor
  · exact h.exclusive.mint hfresh hsame hthis
  · intro holder uuid hmem
    rw [hnext]
    by_cases huuid : uuid = state.shared.nextUuid
    · omega
    · have hbefore : uuid ∈ holding state frames holder := by
        by_cases hholder : holder = .callbacks thread
        · subst hholder
          have hle := hthis uuid
          rw [if_neg huuid] at hle
          exact List.count_pos_iff.1 ((List.count_pos_iff.2 hmem).trans_le hle)
        · rwa [hsame holder hholder] at hmem
      exact (h.issued holder uuid hbefore).trans (Nat.lt_succ_self _)

end Owners

/-! ## Steps -/

section Steps

variable {env : Env} {state state' : State} {thread : ThreadId} {frame : Frame} {choice : Choice}

theorem stored_same (hslots : state'.slots = state.slots)
    (hqueue : state'.pools.queue = state.pools.queue) (htrack : state'.track = state.track) :
    state'.stored = state.stored := by
  funext holder
  cases holder with
  | callbacks => rfl
  | entry spanId => simp only [State.stored, htrack]
  | slots thread => simp only [State.stored, hslots]
  | queue number => simp only [State.stored, hqueue]

/-- The numbers of the uuids in the slots, when one of them changes. -/
theorem withSlot_count {slot : Fin trackPoolSlots} {cached : Option CachedTrackPool}
    (hslots : state'.slots = state.withSlot thread slot cached) (token : Nat) :
    (state'.stored (.slots thread)).count token +
        (slotUuid (state.slots thread slot)).count token =
      (state.stored (.slots thread)).count token + (slotUuid cached).count token := by
  have hcontent : (fun place => slotUuid (Function.update (state.slots thread) slot cached place)) =
      Function.update (fun place => slotUuid (state.slots thread place)) slot
        (slotUuid cached) := by
    funext place
    by_cases hplace : place = slot
    · subst hplace
      rw [Function.update_self, Function.update_self]
    · rw [Function.update_of_ne hplace, Function.update_of_ne hplace]
  have hafter : state'.stored (.slots thread) = (List.finRange trackPoolSlots).flatMap
      (Function.update (fun place => slotUuid (state.slots thread place)) slot
        (slotUuid cached)) := by
    rw [← hcontent, State.stored, hslots, State.withSlot, Function.update_self]
    rfl
  rw [hafter]
  exact count_flatMap_update (List.nodup_finRange _) (List.mem_finRange slot)
    (fun place => slotUuid (state.slots thread place)) (slotUuid cached) token

theorem withSlot_others {slot : Fin trackPoolSlots} {cached : Option CachedTrackPool}
    (hslots : state'.slots = state.withSlot thread slot cached)
    (hqueue : state'.pools.queue = state.pools.queue) (htrack : state'.track = state.track)
    (other : Holder) (hother : other ≠ .slots thread) :
    state'.stored other = state.stored other := by
  cases other with
  | callbacks => rfl
  | entry spanId => simp only [State.stored, htrack]
  | slots other =>
      have hne : other ≠ thread := by
        rintro rfl
        exact hother rfl
      simp only [State.stored, hslots, State.withSlot, Function.update_of_ne hne]
  | queue number => simp only [State.stored, hqueue]

theorem queue_others {number : Nat} {tracks : List Nat} (hslots : state'.slots = state.slots)
    (hqueue : state'.pools.queue = Function.update state.pools.queue number tracks)
    (htrack : state'.track = state.track) (other : Holder) (hother : other ≠ .queue number) :
    state'.stored other = state.stored other := by
  cases other with
  | callbacks => rfl
  | entry spanId => simp only [State.stored, htrack]
  | slots thread => simp only [State.stored, hslots]
  | queue other =>
      have hne : other ≠ number := by
        rintro rfl
        exact hother rfl
      simp only [State.stored, hqueue, Function.update_of_ne hne]

theorem track_others {spanId : SpanId} {value : Option (Option PoolRef × Option Nat)}
    (hslots : state'.slots = state.slots) (hqueue : state'.pools.queue = state.pools.queue)
    (htrack : state'.track = Function.update state.track spanId value) (other : Holder)
    (hother : other ≠ .entry spanId) : state'.stored other = state.stored other := by
  cases other with
  | callbacks => rfl
  | entry other =>
      have hne : other ≠ spanId := by
        rintro rfl
        exact hother rfl
      simp only [State.stored, htrack, Function.update_of_ne hne]
  | slots thread => simp only [State.stored, hslots]
  | queue number => simp only [State.stored, hqueue]

theorem nextUuid_mono {action : Act} {reply : action.Reply}
    (h : perform env thread action choice state = some (reply, state')) :
    state.shared.nextUuid ≤ state'.shared.nextUuid := by
  cases action with
  | shared action =>
      simp only [perform, Option.some.injEq, Prod.mk.injEq] at h
      rw [← h.2]
      cases action with
      | allocUuid => exact Nat.le_succ _
      | processTrackUuid =>
          simp only [SharedAct.perform]
          split
          · exact Nat.le_refl _
          · exact Nat.le_succ _
      | counterTrackUuid key =>
          simp only [SharedAct.perform]
          split
          · exact Nat.le_refl _
          · exact Nat.le_succ _
      | _ => exact Nat.le_refl _
  | pools | format | registry =>
      simp only [perform, Option.some.injEq, Prod.mk.injEq] at h
      rw [← h.2]
      exact Nat.le_refl _
  | spans | context | sequence =>
      simp only [perform, Option.bind_eq_bind, Option.bind_eq_some_iff, Option.some.injEq,
        Prod.mk.injEq] at h
      obtain ⟨_, _, _, rfl⟩ := h
      exact Nat.le_refl _

/-- The uuid that was taken last is on top. -/
theorem head_uuids {held : Held} (h : frame.held.head? = some held) :
    frame.held.map Held.uuid = held.uuid :: (frame.held.tail).map Held.uuid := by
  obtain ⟨rest, hheld⟩ := List.head?_eq_some_iff.1 h
  rw [hheld]
  rfl

theorem claimed_uuids (uuid : Option Nat) (key : TrackKey) (held : List Held) :
    (claimed uuid key held).map Held.uuid = uuid.toList ++ held.map Held.uuid := by
  cases uuid <;> rfl

/-- A packet leaves the uuids where they are; that of a new track is described with it. -/
theorem wrote_uuids {content : Content} (hemits : frame.Emits content) :
    (frame.wrote content).uuids = frame.uuids := by
  have hhead : ∀ (change : Held → Held), (∀ held, (change held).uuid = held.uuid) →
      (frame.held.modifyHead change).map Held.uuid = frame.held.map Held.uuid := by
    intro change hchange
    cases frame.held with
    | nil => rfl
    | cons held rest => simp [hchange]
  cases content with
  | body body =>
      cases body with
      | trackDescriptor uuid name parentUuid =>
          obtain ⟨-, hfresh, -⟩ := hemits
          simp only [Frame.wrote, Frame.uuids, hfresh]
          rfl
      | lifetimeBegin | lifetimeEnd =>
          exact congrArg (frame.fresh.toList ++ ·) (hhead _ fun _ => rfl)
      | _ => rfl
  | _ => rfl

end Steps

end TracingPerfetto.Layer
