import TracingPerfetto.LayerTracks

/-!
No two places share the uuid of a span track: it is with one callback, one span, one cached
slot or one queue, or forgotten.
-/

namespace TracingPerfetto.Layer

open TracingPerfetto.Runtime TracingPerfetto.Sequence TracingPerfetto.TrackEvents
open TracingPerfetto.Counters TracingPerfetto.Threads
open TracingPerfetto.Ownership
open TracingPerfetto.SpanStore (SpanId)

section Kept

variable {env : Env} {state state' : State} {frames : Frames} {thread : ThreadId}
  {frame : Frame} {rest : List Frame} {choice : Choice}

theorem count_singleton_le (uuid token : Nat) :
    [uuid].count token = if token = uuid then 1 else 0 := by
  rw [List.count_singleton]
  simp [eq_comm (a := token)]

theorem owners_shared (h : Owners state frames) (hthread : frames thread = frame :: rest)
    {action : SharedAct} {reply : action.Reply}
    (hperform : perform env thread (.shared action) choice state = some (reply, state'))
    (hstored : state'.stored = state.stored) :
    Owners state'
      (Function.update frames thread (next frame (.shared action) reply :: rest)) := by
  have hnext := nextUuid_mono hperform
  cases action with
  | allocUuid =>
      simp only [perform, SharedAct.perform, Option.some.injEq, Prod.mk.injEq] at hperform
      obtain ⟨rfl, rfl⟩ := hperform
      refine h.draw hthread hstored (fun token => ?_) rfl
      simp only [next, Frame.uuids, Option.toList_some, List.count_append, count_singleton_le]
      omega
  | _ => exact h.quiet hthread hstored (fun _ => Nat.le_refl _) hnext

theorem head_count {held : Held} (hhead : frame.held.head? = some held) (token : Nat) :
    frame.uuids.count token = frame.fresh.toList.count token +
      ([held.uuid].count token + (frame.held.tail.map Held.uuid).count token) := by
  rw [Frame.uuids, head_uuids hhead, List.count_append, ← List.singleton_append,
    List.count_append]

theorem holds_count {uuid : Nat} {key : TrackKey} (hholds : frame.Holds uuid key) (token : Nat) :
    frame.uuids.count token = frame.fresh.toList.count token +
      ([uuid].count token + (frame.held.tail.map Held.uuid).count token) := by
  obtain ⟨begun, hhead, -⟩ := hholds
  exact head_count hhead token

theorem owners_pools (h : Owners state frames) (hthread : frames thread = frame :: rest)
    {action : PoolAct} {reply : action.Reply} (hpre : pre env frame (.pools action))
    (hperform : perform env thread (.pools action) choice state = some (reply, state'))
    (hslots : state'.slots = state.slots) (htrack : state'.track = state.track) :
    Owners state'
      (Function.update frames thread (next frame (.pools action) reply :: rest)) := by
  have hnext := nextUuid_mono hperform
  cases action with
  | find key =>
      obtain ⟨-, rfl⟩ := perform_pools hperform
      exact h.quiet hthread (stored_same hslots rfl htrack) (fun _ => Nat.le_refl _) hnext
  | create key =>
      obtain ⟨-, rfl⟩ := perform_pools hperform
      exact h.quiet hthread (stored_same hslots (state.pools.create_spec key).1 htrack)
        (fun _ => Nat.le_refl _) hnext
  | claim pool =>
      obtain ⟨rfl, hqueue, -⟩ := claim_pool hperform
      refine h.move hthread (fun _ => by simp) (queue_others hslots hqueue htrack) (fun token => ?_)
        hnext
      simp only [State.stored, hqueue, Function.update_self, next, Frame.uuids, claimed_uuids,
        List.count_append]
      cases state.pools.queue pool.number with
      | nil => simp
      | cons uuid tracks =>
          simp only [List.tail_cons, List.head?_cons, Option.toList_some,
            List.count_cons (l := tracks), List.count_singleton]
          omega
  | release pool uuid =>
      obtain ⟨-, hholds⟩ := hpre
      obtain ⟨⟨tracks, hqueue, htracks⟩, -⟩ := release_pool hperform
      refine h.move hthread (fun _ => by simp) (queue_others hslots hqueue htrack) (fun token => ?_)
        hnext
      have hbefore := holds_count hholds token
      have hafter : (next frame (.pools (.release pool uuid)) reply).uuids.count token =
          frame.fresh.toList.count token + (frame.held.tail.map Held.uuid).count token :=
        List.count_append
      have hstored : (state'.stored (.queue pool.number)).count token ≤
          (state.stored (.queue pool.number)).count token + [uuid].count token := by
        simp only [State.stored, hqueue, Function.update_self]
        rcases htracks with rfl | rfl
        · exact Nat.le_add_right _ _
        · rw [List.count_append]
      omega

theorem owners_context (h : Owners state frames) (hknown : Known env state frames)
    (hthread : frames thread = frame :: rest) {action : ContextAct} {reply : action.Reply}
    (hpre : pre env frame (.context action))
    (hperform : perform env thread (.context action) choice state = some (reply, state'))
    (htrack : state'.track = state.track) :
    Owners state'
      (Function.update frames thread (next frame (.context action) reply :: rest)) := by
  have hnext := nextUuid_mono hperform
  have hmem : frame ∈ frames thread := Guards.top_mem hthread
  have hqueue : state'.pools.queue = state.pools.queue :=
    congrArg Pools.queue (pools_same hperform (by simp))
  have hquiet : state'.slots = state.slots → (∀ token,
      (next frame (.context action) reply).uuids.count token ≤ frame.uuids.count token) →
      Owners state'
        (Function.update frames thread (next frame (.context action) reply :: rest)) :=
    fun hslots hcount => h.quiet hthread (stored_same hslots hqueue htrack) hcount hnext
  -- a slot of the thread is changed
  have hslot : ∀ slot cached, state'.slots = state.withSlot thread slot cached →
      (∀ token, (slotUuid cached).count token +
          (next frame (.context action) reply).uuids.count token ≤
        (slotUuid (state.slots thread slot)).count token + frame.uuids.count token) →
      Owners state'
        (Function.update frames thread (next frame (.context action) reply :: rest)) := by
    intro slot cached hslots hcount
    refine h.move hthread (fun _ => by simp) (withSlot_others hslots hqueue htrack)
      (fun token => ?_) hnext
    have hslotCount := withSlot_count hslots token
    have := hcount token
    omega
  cases action with
  | lookup =>
      refine hquiet (perform_slots hperform (by simp) fun act heq => by cases heq; rfl)
        fun token => ?_
      cases reply <;> exact Nat.le_refl _
  | insert sequenceId uuid anchor =>
      obtain ⟨hvacant, -⟩ := hpre
      refine hquiet (perform_slots hperform (fun _ _ _ _ =>
        hknown.borrowed.vacant thread frame hmem hvacant) fun act heq => by cases heq; rfl)
        fun token => ?_
      simp only [next, Frame.uuids, List.count_append, Option.toList_none, List.count_nil]
      omega
  | dropGuard | takeRetained | returnRetained =>
      exact hquiet (perform_slots hperform (by simp) fun act heq => by cases heq; rfl)
        fun _ => Nat.le_refl _
  | cachedTrack key =>
      rcases cachedTrack_slots hperform with ⟨rfl, hslots⟩ |
          ⟨slot, cached, pool, hcached, -, rfl, -, hslots⟩
      · exact hquiet hslots fun _ => Nat.le_refl _
      · refine hslot slot _ hslots fun token => ?_
        simp only [next, Frame.uuids, claimed_uuids, hcached, slotUuid, Option.bind_some,
          Option.toList_none, List.count_nil, List.count_append]
        omega
  | cachePool key pool localUuid =>
      obtain ⟨-, -, -, hholds⟩ := hpre
      obtain ⟨slot, hslots⟩ := cachePool_slots hperform
      refine hslot slot _ hslots fun token => ?_
      cases localUuid with
      | none =>
          simp only [slotUuid, Option.bind_some, Option.toList_none, List.count_nil, next,
            Option.isSome_none, Bool.false_eq_true, if_false, Frame.uuids]
          omega
      | some uuid =>
          rw [holds_count (hholds uuid rfl)]
          simp only [slotUuid, Option.bind_some, Option.toList_some, next, Option.isSome_some,
            if_true, Frame.uuids, List.count_append]
          omega
  | evict =>
      obtain ⟨slot, rfl, hslots⟩ := evict_slots hperform
      refine hslot slot _ hslots fun token => ?_
      cases hold : state.slots thread slot with
      | none => exact Nat.le_refl _
      | some old =>
          cases huuid : old.localUuid with
          | none =>
              simp only [Option.bind_some, huuid, Option.map_none, next, slotUuid,
                Option.bind_none]
              exact Nat.le_refl _
          | some uuid =>
              simp only [Option.bind_some, huuid, Option.map_some, next, slotUuid,
                Option.bind_none, Option.toList_none, Option.toList_some, List.count_nil,
                Frame.uuids, List.map_cons, List.count_append,
                List.count_cons (l := frame.held.map Held.uuid), List.count_singleton]
              omega
  | releaseLocal pool uuid =>
      obtain ⟨-, -, hholds⟩ := hpre
      rcases releaseLocal_slots hperform with ⟨hreply, hslots⟩ |
          ⟨rfl, slot, cached, hcached, -, hlocal, hslots⟩
      · refine hquiet hslots fun token => ?_
        cases reply with
        | kept => exact absurd rfl hreply
        | full | uncached => exact Nat.le_refl _
      · refine hslot slot _ hslots fun token => ?_
        rw [holds_count hholds]
        simp only [next, Frame.uuids, hcached, slotUuid, Option.bind_some, hlocal,
          Option.toList_none, Option.toList_some, List.count_nil, List.count_append]
        omega
  | destroy =>
      obtain ⟨hreply, hslots⟩ := destroy_slots hperform
      have hothers : ∀ other, other ≠ .slots thread → state'.stored other = state.stored other := by
        intro other hother
        cases other with
        | callbacks => rfl
        | entry spanId => simp only [State.stored, htrack]
        | slots other =>
            have hne : other ≠ thread := by
              rintro rfl
              exact hother rfl
            simp only [State.stored, hslots, Function.update_of_ne hne]
        | queue number => simp only [State.stored, hqueue]
      refine h.move hthread (fun _ => by simp) hothers (fun token => ?_) hnext
      have huuids : reply.map (fun local_ => local_.2) = state.stored (.slots thread) := by
        rw [hreply, State.stored, Slots.uuids, List.map_filterMap, List.filterMap_eq_flatMap_toList]
        refine List.flatMap_congr fun slot _ => ?_
        cases state.slots thread slot with
        | none => rfl
        | some cached => cases hlocal : cached.localUuid <;> simp [slotUuid, hlocal]
      have hnone : state'.stored (.slots thread) = [] := by
        rw [State.stored, hslots, Function.update_self]
        simp [Slots.uuids, slotUuid]
      rw [hnone, List.count_nil, ← huuids]
      simp only [next, Frame.uuids, List.map_append, List.map_map, List.count_append]
      change 0 + (_ + ((reply.map fun local_ => local_.2).count token + _)) ≤ _
      omega

theorem owners_spans (h : Owners state frames) (hknown : Known env state frames)
    (hthread : frames thread = frame :: rest) {action : SpanAct} {reply : action.Reply}
    (hpre : pre env frame (.spans action))
    (hperform : perform env thread (.spans action) choice state = some (reply, state')) :
    Owners state'
      (Function.update frames thread (next frame (.spans action) reply :: rest)) := by
  have hnext := nextUuid_mono hperform
  have hmem : frame ∈ frames thread := Guards.top_mem hthread
  have hslots : state'.slots = state.slots := perform_slots hperform (by simp) (by simp)
  have hqueue : state'.pools.queue = state.pools.queue :=
    congrArg Pools.queue (pools_same hperform (by simp))
  cases action with
  | insert spanId instance_ data =>
      obtain ⟨-, -, -, -, -, -, -, hpublishes, -⟩ := hpre
      have htrack := insert_track hperform
      refine h.move hthread (fun _ => by simp) (track_others hslots hqueue htrack) (fun token => ?_)
        hnext
      simp only [State.stored, htrack, Function.update_self, Option.bind_some]
      cases huuid : data.trackUuid with
      | none =>
          simp only [Option.toList_none, List.count_nil, next, huuid, Option.isSome_none,
            Bool.false_eq_true, if_false, Frame.uuids]
          omega
      | some uuid =>
          rw [Frame.Publishes, huuid] at hpublishes
          obtain ⟨key, hhead, -⟩ := hpublishes
          rw [head_count hhead]
          simp only [Option.toList_some, next, huuid, Option.isSome_some, if_true, Frame.uuids,
            List.count_append]
          omega
  | take spanId =>
      rcases take_track hperform with ⟨rfl, htrack⟩ | ⟨found, rfl, hentry, htrack⟩
      · exact h.quiet hthread (stored_same hslots hqueue htrack) (fun _ => Nat.le_refl _) hnext
      · refine h.move hthread (fun _ => by simp) (track_others hslots hqueue htrack)
          (fun token => ?_) hnext
        have hbefore : state.stored (.entry spanId) = found.data.trackUuid.toList := by
          simp only [State.stored, State.track, hentry, Option.map_some, Option.bind_some]
          rfl
        have hafter : state'.stored (.entry spanId) = [] := by
          simp only [State.stored, htrack, Function.update_self, Option.bind_none,
            Option.toList_none]
        rw [hbefore, hafter, List.count_nil]
        cases huuid : found.data.trackUuid with
        | none =>
            simp only [next, huuid, Frame.uuids, Option.toList_none, List.count_nil]
            omega
        | some uuid =>
            simp only [next, huuid, Frame.uuids, Option.toList_some, List.map_cons,
              List.count_append, List.count_cons (l := frame.held.map Held.uuid),
              List.count_singleton]
            omega
  | _ =>
      exact h.quiet hthread (stored_same hslots hqueue
        (track_same hknown.guards hmem hpre hperform (by simp) (by simp)))
        (fun _ => Nat.le_refl _) hnext

theorem owners_kept (env : Env) : KeepsInv env AnyCall (Known env) Owners where
  act := by
    rintro state frames thread frame rest action choice reply state' hknown h hthread hpre
      hperform -
    change perform env thread action choice state = some (reply, state') at hperform
    have hmem : frame ∈ frames thread := Guards.top_mem hthread
    have hnext := nextUuid_mono hperform
    have htrack : (∀ act, action ≠ .spans act) → state'.track = state.track := fun hspans =>
      track_same hknown.guards hmem hpre hperform (fun _ _ _ heq => hspans _ heq)
        fun _ heq => hspans _ heq
    have hslots : (∀ act, action ≠ .context act) → state'.slots = state.slots := fun hcontext =>
      perform_slots hperform (fun _ _ _ heq => absurd heq (hcontext _))
        fun _ heq => absurd heq (hcontext _)
    have hqueue : (∀ act, action ≠ .pools act) → state'.pools.queue = state.pools.queue :=
      fun hpools => congrArg Pools.queue (pools_same hperform hpools)
    cases action with
    | shared action =>
        exact owners_shared h hthread hperform
          (stored_same (hslots (by simp)) (hqueue (by simp)) (htrack (by simp)))
    | pools action =>
        exact owners_pools h hthread hpre hperform (hslots (by simp)) (htrack (by simp))
    | spans action => exact owners_spans h hknown hthread hpre hperform
    | context action => exact owners_context h hknown hthread hpre hperform (htrack (by simp))
    | sequence action =>
        refine h.quiet hthread
          (stored_same (hslots (by simp)) (hqueue (by simp)) (htrack (by simp)))
          (fun token => ?_) hnext
        cases action with
        | write span calledAt content =>
            obtain ⟨-, -, hemits, -⟩ := hpre
            exact (congrArg (List.count token) (wrote_uuids hemits)).le
        | _ => exact Nat.le_refl _
    | registry action =>
        refine h.quiet hthread
          (stored_same (hslots (by simp)) (hqueue (by simp)) (htrack (by simp)))
          (fun token => ?_) hnext
        cases action <;> exact Nat.le_refl _
    | format span =>
        exact h.quiet hthread
          (stored_same (hslots (by simp)) (hqueue (by simp)) (htrack (by simp)))
          (fun _ => Nat.le_refl _) hnext
  ret := by
    rintro state frames thread frame rest - h hthread - -
    have hcount : ∀ holder token, (holding state (Function.update frames thread rest)
        holder).count token ≤ (holding state frames holder).count token := by
      intro holder token
      by_cases hholder : holder = .callbacks thread
      · subst hholder
        rw [Owners.callbacks_count hthread]
        simp only [holding, Function.update_self]
        omega
      · rw [Owners.others_step hholder rfl]
    exact ⟨h.exclusive.drop hcount, fun holder uuid hmem => h.issued holder uuid
      (List.count_pos_iff.1 ((List.count_pos_iff.2 hmem).trans_le (hcount holder uuid)))⟩
  call := by
    rintro state frames thread call prog state' hknown h - - hcall -
    obtain ⟨registry, -, -, rfl, -⟩ := hknown.ledger.call_admits hcall
    have hsame : ∀ holder, holding { state.tick with registry := { registry with
          depth := Function.update registry.depth thread (registry.depth thread + 1) } }
        (Function.update frames thread (enter thread call state :: frames thread)) holder =
          holding state frames holder := by
      intro holder
      by_cases hholder : holder = .callbacks thread
      · subst hholder
        simp only [holding, Function.update_self, List.flatMap_cons]
        rfl
      · exact Owners.others_step hholder (by cases holder <;> rfl)
    exact ⟨h.exclusive.drop fun holder token => (congrArg (List.count token) (hsame holder)).le,
      fun holder uuid hmem => h.issued holder uuid (hsame holder ▸ hmem)⟩

theorem owners_new (nextSequenceId : Nat) : Owners (State.new nextSequenceId) fun _ => [] := by
  have hnone : ∀ holder, holding (State.new nextSequenceId) (fun _ => []) holder = [] := by
    intro holder
    cases holder with
    | slots thread => simp [holding, State.stored, State.slots, Slots.uuids, slotUuid, State.new,
        Contexts.live]
    | _ => rfl
  refine ⟨.empty hnone, fun holder uuid hmem => ?_⟩
  rw [hnone] at hmem
  cases hmem

end Kept

end TracingPerfetto.Layer
