import TracingPerfetto.FlowDelivery
import TracingPerfetto.History
import TracingPerfetto.TrackOwners

/-!
The descriptors of the span tracks: a uuid is described before it goes anywhere, with the
name and the parent of the key that it is kept for, and only once. What a track hangs off is
described before it, so the tracks form a tree below the track of the process.
-/

namespace TracingPerfetto.Layer

open TracingPerfetto.Wire (Bytes)
open TracingPerfetto.Runtime TracingPerfetto.Sequence TracingPerfetto.TrackEvents
open TracingPerfetto.Counters TracingPerfetto.Threads
open TracingPerfetto.History TracingPerfetto.Ownership
open TracingPerfetto.SpanStore (SpanId)

/-- The span track that a packet describes. -/
def Content.describes : Content → Option (Nat × TrackKey)
  | .body (.trackDescriptor uuid name parentUuid) => some (uuid, ⟨name, parentUuid⟩)
  | _ => none

/-- The span track that an event is on. -/
def Content.track : Content → Option Nat
  | .body (.lifetimeBegin uuid _ _) | .body (.lifetimeEnd uuid _ _)
  | .body (.pollBegin uuid _ _) => some uuid
  | .body (.enterEnd uuid _) | .body (.instant uuid _ _) => uuid
  | _ => none

def Described (packets : List Emitted) (uuid : Nat) (key : TrackKey) : Prop :=
  ∃ packet ∈ packets, packet.content.describes = some (uuid, key)

/-- A uuid is described, with the key that it is for if there is one. -/
def Suits (packets : List Emitted) (uuid : Nat) (key : Option TrackKey) : Prop :=
  ∃ described, Described packets uuid described ∧ ∀ known, key = some known → known = described

theorem Suits.described {packets : List Emitted} {uuid : Nat} {key : TrackKey}
    (h : Suits packets uuid (some key)) : Described packets uuid key := by
  obtain ⟨described, hdescribed, hkey⟩ := h
  rwa [hkey key rfl]

theorem Described.suits {packets : List Emitted} {uuid : Nat} {key : TrackKey}
    (h : Described packets uuid key) : Suits packets uuid (some key) :=
  ⟨key, h, fun _ hkey => (Option.some.inj hkey).symm⟩

/-- What a callback has in its hands suits. -/
structure Frame.Suited (state : State) (frame : Frame) : Prop where
  held : ∀ held ∈ frame.held, Suits state.trace.packets held.uuid held.key
  known : ∀ pool ∈ frame.known, state.pools.Has pool
  enclosing : ∀ uuid, frame.enclosing = some uuid → Suits state.trace.packets uuid none

/-- A uuid is where its key is: on a span with a pool of that key, in a slot or in a queue
for it. -/
structure Fits (state : State) (frames : Frames) : Prop where
  frames : Every (fun _ frame => frame.Suited state) frames
  track : ∀ spanId pool uuid, state.track spanId = some (pool, uuid) →
    (∀ known, pool = some known → state.pools.Has known) ∧
      ∀ used, uuid = some used → Suits state.trace.packets used (pool.map PoolRef.key)
  slots : ∀ thread slot cached, state.slots thread slot = some cached →
    state.pools.Has cached.pool.val ∧
      ∀ uuid, cached.localUuid = some uuid → Described state.trace.packets uuid cached.key
  queue : ∀ number, ∀ uuid ∈ state.pools.queue number, ∃ key,
    state.pools.keyAt number = some key ∧ Described state.trace.packets uuid key

section Fits

variable {env : Env} {state state' : State} {frames : Frames} {thread : ThreadId}
  {frame frame' : Frame} {rest : List Frame} {choice : Choice}

/-! What is described stays described. -/

theorem packets_grow {action : Act} {reply : action.Reply}
    (h : perform env thread action choice state = some (reply, state')) :
    ∃ packets, state'.trace.packets = state.trace.packets ++ packets := by
  by_cases hwrite : ∃ span calledAt content, action = .sequence (.write span calledAt content)
  · obtain ⟨span, calledAt, content, rfl⟩ := hwrite
    obtain ⟨packet, hpackets, -⟩ := perform_write h
    exact ⟨[packet], hpackets⟩
  · refine ⟨[], ?_⟩
    rw [List.append_nil]
    exact perform_packets h fun span calledAt content heq => hwrite ⟨span, calledAt, content, heq⟩

theorem Described.mono {packets packets' : List Emitted} {uuid : Nat} {key : TrackKey}
    (h : Described packets uuid key) (hsub : packets ⊆ packets') : Described packets' uuid key := by
  obtain ⟨packet, hmem, hdescribes⟩ := h
  exact ⟨packet, hsub hmem, hdescribes⟩

theorem Suits.mono {packets packets' : List Emitted} {uuid : Nat} {key : Option TrackKey}
    (h : Suits packets uuid key) (hsub : packets ⊆ packets') : Suits packets' uuid key := by
  obtain ⟨described, hdescribed, hkey⟩ := h
  exact ⟨described, hdescribed.mono hsub, hkey⟩

theorem Suits.known {packets : List Emitted} {uuid : Nat} {key : Option TrackKey}
    (h : Suits packets uuid key) : Suits packets uuid none := by
  obtain ⟨described, hdescribed, -⟩ := h
  exact ⟨described, hdescribed, fun _ hknown => by cases hknown⟩

/-- What a step leaves in place. -/
structure Grows (state state' : State) : Prop where
  packets : state.trace.packets ⊆ state'.trace.packets
  pools : ∀ pool, state.pools.Has pool → state'.pools.Has pool

theorem perform_grows {action : Act} {reply : action.Reply}
    (h : perform env thread action choice state = some (reply, state')) : Grows state state' := by
  obtain ⟨packets, hpackets⟩ := packets_grow h
  refine ⟨?_, fun pool hpool => keyAt_mono h hpool⟩
  rw [hpackets]
  exact List.subset_append_left _ _

theorem Frame.Suited.mono (h : frame.Suited state) (hgrows : Grows state state') :
    frame.Suited state' where
  held := fun held hmem => (h.held held hmem).mono hgrows.packets
  known := fun pool hmem => hgrows.pools pool (h.known pool hmem)
  enclosing := fun uuid huuid => (h.enclosing uuid huuid).mono hgrows.packets

theorem track_grows (hgrows : Grows state state') {pool : Option PoolRef} {uuid : Option Nat}
    (h : (∀ known, pool = some known → state.pools.Has known) ∧
      ∀ used, uuid = some used → Suits state.trace.packets used (pool.map PoolRef.key)) :
    (∀ known, pool = some known → state'.pools.Has known) ∧
      ∀ used, uuid = some used → Suits state'.trace.packets used (pool.map PoolRef.key) :=
  ⟨fun known hknown => hgrows.pools known (h.1 known hknown),
    fun used hused => (h.2 used hused).mono hgrows.packets⟩

theorem slot_grows (hgrows : Grows state state') {cached : CachedTrackPool}
    (h : state.pools.Has cached.pool.val ∧ ∀ uuid, cached.localUuid = some uuid →
      Described state.trace.packets uuid cached.key) :
    state'.pools.Has cached.pool.val ∧ ∀ uuid, cached.localUuid = some uuid →
      Described state'.trace.packets uuid cached.key :=
  ⟨hgrows.pools _ h.1, fun uuid huuid => (h.2 uuid huuid).mono hgrows.packets⟩

theorem Frame.Suited.top (h : frame.Suited state) {uuid : Nat} {key : TrackKey}
    (hholds : frame.Holds uuid key) : Described state.trace.packets uuid key := by
  obtain ⟨begun, hhead, -⟩ := hholds
  exact (h.held _ (List.mem_of_head? hhead)).described

theorem Frame.Suited.tail (h : frame.Suited state) : ∀ held ∈ frame.held.tail,
    Suits state.trace.packets held.uuid held.key :=
  fun held hmem => h.held held (List.mem_of_mem_tail hmem)

theorem suits_claimed {packets : List Emitted} {uuid : Option Nat} {key : TrackKey}
    {held : List Held} (hheld : ∀ one ∈ held, Suits packets one.uuid one.key)
    (huuid : ∀ used, uuid = some used → Described packets used key) :
    ∀ one ∈ claimed uuid key held, Suits packets one.uuid one.key := by
  cases uuid with
  | none => exact hheld
  | some uuid =>
      intro one hmem
      rcases List.mem_cons.1 hmem with rfl | hold
      · exact (huuid uuid rfl).suits
      · exact hheld one hold

namespace Fits

/-- A step of the top callback: what it leaves alone still fits. -/
theorem step (h : Fits state frames) (hthread : frames thread = frame :: rest)
    (hgrows : Grows state state') (hframe : frame'.Suited state')
    (htrack : ∀ spanId pool uuid, state'.track spanId = some (pool, uuid) →
      state.track spanId = some (pool, uuid) ∨
        (∀ known, pool = some known → state'.pools.Has known) ∧
          ∀ used, uuid = some used → Suits state'.trace.packets used (pool.map PoolRef.key))
    (hslots : ∀ other slot cached, state'.slots other slot = some cached →
      state.slots other slot = some cached ∨ state'.pools.Has cached.pool.val ∧
        ∀ uuid, cached.localUuid = some uuid → Described state'.trace.packets uuid cached.key)
    (hqueue : ∀ number, ∀ uuid ∈ state'.pools.queue number, uuid ∈ state.pools.queue number ∨
      ∃ key, state'.pools.keyAt number = some key ∧ Described state'.trace.packets uuid key)
    (hkeys : ∀ number key, state.pools.keyAt number = some key →
      state'.pools.keyAt number = some key) :
    Fits state' (Function.update frames thread (frame' :: rest)) where
  frames := h.frames.step hthread hframe fun _ _ hvalue => hvalue.mono hgrows
  track := by
    intro spanId pool uuid htracked
    rcases htrack spanId pool uuid htracked with hold | hnew
    · exact track_grows hgrows (h.track spanId pool uuid hold)
    · exact hnew
  slots := by
    intro other slot cached hcached
    rcases hslots other slot cached hcached with hold | hnew
    · exact slot_grows hgrows (h.slots other slot cached hold)
    · exact hnew
  queue := by
    intro number uuid hmem
    rcases hqueue number uuid hmem with hold | hnew
    · obtain ⟨key, hkey, hdescribed⟩ := h.queue number uuid hold
      exact ⟨key, hkeys number key hkey, hdescribed.mono hgrows.packets⟩
    · exact hnew

end Fits

theorem suited_wrote {content : Content} {packets : List Emitted} (hgrows : Grows state state')
    (h : frame.Suited state) (hpackets : state'.trace.packets = packets)
    (hdescribed : ∀ uuid key, content.describes = some (uuid, key) → Described packets uuid key) :
    (frame.wrote content).Suited state' := by
  have hmono := h.mono hgrows
  have hhead : ∀ (change : Held → Held), (∀ held, (change held).uuid = held.uuid ∧
      (change held).key = held.key) → ∀ held ∈ frame.held.modifyHead change,
        Suits state'.trace.packets held.uuid held.key := by
    intro change hchange held hmem
    cases hheld : frame.held with
    | nil =>
        rw [hheld] at hmem
        cases hmem
    | cons first rest =>
        rw [hheld, List.modifyHead_cons] at hmem
        rcases List.mem_cons.1 hmem with rfl | hrest
        · rw [(hchange first).1, (hchange first).2]
          exact hmono.held first (by rw [hheld]; exact List.mem_cons_self)
        · exact hmono.held held (by rw [hheld]; exact List.mem_cons_of_mem _ hrest)
  cases content with
  | body body =>
      cases body with
      | trackDescriptor uuid name parentUuid =>
          refine ⟨fun held hmem => ?_, hmono.known, hmono.enclosing⟩
          rcases List.mem_cons.1 hmem with rfl | hold
          · rw [hpackets]
            exact (hdescribed uuid ⟨name, parentUuid⟩ rfl).suits
          · exact hmono.held held hold
      | lifetimeBegin | lifetimeEnd =>
          exact ⟨hhead _ fun _ => ⟨rfl, rfl⟩, hmono.known, hmono.enclosing⟩
      | _ => exact ⟨hmono.held, hmono.known, hmono.enclosing⟩
  | _ => exact ⟨hmono.held, hmono.known, hmono.enclosing⟩

theorem fits_pools (h : Fits state frames) (hthread : frames thread = frame :: rest)
    {action : PoolAct} {reply : action.Reply} (hpre : pre env frame (.pools action))
    (hperform : perform env thread (.pools action) choice state = some (reply, state'))
    (hslots : state'.slots = state.slots) (htrack : state'.track = state.track) :
    Fits state' (Function.update frames thread (next frame (.pools action) reply :: rest)) := by
  have hgrows := perform_grows hperform
  have hsuited := h.frames thread frame (Guards.top_mem hthread)
  have hmono := hsuited.mono hgrows
  have hstep : (next frame (.pools action) reply).Suited state' →
      (∀ number, ∀ uuid ∈ state'.pools.queue number, uuid ∈ state.pools.queue number ∨
        ∃ key, state'.pools.keyAt number = some key ∧ Described state'.trace.packets uuid key) →
      Fits state' (Function.update frames thread (next frame (.pools action) reply :: rest)) :=
    fun hframe hqueue => h.step hthread hgrows hframe
      (fun spanId pool uuid htracked => .inl (htrack ▸ htracked))
      (fun other slot cached hcached => .inl (hslots ▸ hcached)) hqueue
      fun number key hkey => keyAt_mono hperform hkey
  have hpackets : state'.trace.packets = state.trace.packets := perform_packets hperform (by simp)
  cases action with
  | find key =>
      obtain ⟨rfl, rfl⟩ := perform_pools hperform
      refine hstep ⟨hmono.held, fun pool hmem => ?_, hmono.enclosing⟩ fun _ _ hmem => .inl hmem
      rcases List.mem_append.1 hmem with hnew | hold
      · rw [Option.mem_toList, Option.map_eq_some_iff] at hnew
        obtain ⟨found, hfound, rfl⟩ := hnew
        exact state.pools.find_has hfound
      · exact hmono.known pool hold
  | create key =>
      obtain ⟨rfl, rfl⟩ := perform_pools hperform
      obtain ⟨hqueue, -, hhas⟩ := state.pools.create_spec key
      refine hstep ⟨hmono.held, fun pool hmem => ?_, hmono.enclosing⟩ fun number uuid hmem => ?_
      · rcases List.mem_append.1 hmem with hnew | hold
        · rw [Option.mem_toList, Option.map_eq_some_iff] at hnew
          obtain ⟨found, hfound, rfl⟩ := hnew
          exact hhas found hfound
        · exact hmono.known pool hold
      · exact .inl (hqueue ▸ hmem)
  | claim pool =>
      obtain ⟨rfl, hqueue, hkeys⟩ := claim_pool hperform
      refine hstep ⟨?_, hmono.known, hmono.enclosing⟩ fun number uuid hmem => ?_
      · refine suits_claimed hmono.held fun uuid huuid => ?_
        obtain ⟨key, hkey, hdescribed⟩ := h.queue pool.number uuid (List.mem_of_head? huuid)
        have hhas : state.pools.keyAt pool.number = some pool.key := hsuited.known pool hpre
        rw [hhas, Option.some.injEq] at hkey
        subst hkey
        exact hdescribed.mono hgrows.packets
      · rw [hqueue] at hmem
        by_cases hnumber : number = pool.number
        · subst hnumber
          rw [Function.update_self] at hmem
          exact .inl (List.mem_of_mem_tail hmem)
        · rw [Function.update_of_ne hnumber] at hmem
          exact .inl hmem
  | release pool uuid =>
      obtain ⟨hknown, hholds⟩ := hpre
      obtain ⟨⟨tracks, hqueue, htracks⟩, hkeys⟩ := release_pool hperform
      refine hstep ⟨fun held hmem => hmono.held held (List.mem_of_mem_tail hmem), hmono.known,
        hmono.enclosing⟩ fun number used hmem => ?_
      rw [hqueue] at hmem
      by_cases hnumber : number = pool.number
      · subst hnumber
        rw [Function.update_self] at hmem
        have hnew : used = uuid → ∃ key, state'.pools.keyAt pool.number = some key ∧
            Described state'.trace.packets used key := by
          rintro rfl
          exact ⟨pool.key, hmono.known pool hknown, (hsuited.top hholds).mono hgrows.packets⟩
        rcases htracks with rfl | rfl
        · exact .inl hmem
        · rcases List.mem_append.1 hmem with hold | hlast
          · exact .inl hold
          · exact .inr (hnew (List.mem_singleton.1 hlast))
      · rw [Function.update_of_ne hnumber] at hmem
        exact .inl hmem

theorem fits_context (h : Fits state frames) (hknown : Known env state frames)
    (hthread : frames thread = frame :: rest) {action : ContextAct} {reply : action.Reply}
    (hpre : pre env frame (.context action))
    (hperform : perform env thread (.context action) choice state = some (reply, state'))
    (htrack : state'.track = state.track) :
    Fits state' (Function.update frames thread (next frame (.context action) reply :: rest)) := by
  have hgrows := perform_grows hperform
  have hmem : frame ∈ frames thread := Guards.top_mem hthread
  have hsuited := h.frames thread frame hmem
  have hmono := hsuited.mono hgrows
  have hpools : state'.pools = state.pools := pools_same hperform (by simp)
  have hstep : (next frame (.context action) reply).Suited state' →
      (∀ other slot cached, state'.slots other slot = some cached →
        state.slots other slot = some cached ∨ state'.pools.Has cached.pool.val ∧
          ∀ uuid, cached.localUuid = some uuid → Described state'.trace.packets uuid cached.key) →
      Fits state' (Function.update frames thread (next frame (.context action) reply :: rest)) :=
    fun hframe hslots => h.step hthread hgrows hframe
      (fun spanId pool uuid htracked => .inl (htrack ▸ htracked)) hslots
      (fun number uuid hmem => .inl (hpools ▸ hmem)) fun number key hkey => keyAt_mono hperform hkey
  -- the slots of the thread with one changed
  have hone : ∀ slot (cached : Option CachedTrackPool),
      state'.slots = state.withSlot thread slot cached →
      (∀ value, cached = some value → state'.pools.Has value.pool.val ∧
        ∀ uuid, value.localUuid = some uuid → Described state'.trace.packets uuid value.key) →
      ∀ other place value, state'.slots other place = some value →
        state.slots other place = some value ∨ state'.pools.Has value.pool.val ∧
          ∀ uuid, value.localUuid = some uuid →
            Described state'.trace.packets uuid value.key := by
    intro slot cached hslots hcached other place value hvalue
    rw [hslots, State.withSlot] at hvalue
    by_cases hother : other = thread
    · subst hother
      rw [Function.update_self] at hvalue
      by_cases hplace : place = slot
      · subst hplace
        rw [Function.update_self] at hvalue
        exact .inr (hcached value hvalue)
      · rw [Function.update_of_ne hplace] at hvalue
        exact .inl hvalue
    · rw [Function.update_of_ne hother] at hvalue
      exact .inl hvalue
  have hslot : ∀ slot cached, state.slots thread slot = some cached →
      state'.pools.Has cached.pool.val ∧ ∀ uuid, cached.localUuid = some uuid →
        Described state'.trace.packets uuid cached.key :=
    fun slot cached hcached => slot_grows hgrows (h.slots thread slot cached hcached)
  cases action with
  | lookup =>
      have hslots := perform_slots hperform (by simp) fun act heq => by cases heq; rfl
      refine hstep ?_ fun _ _ _ hvalue => .inl (hslots ▸ hvalue)
      cases reply <;> exact ⟨hmono.held, hmono.known, hmono.enclosing⟩
  | insert sequenceId uuid anchor =>
      obtain ⟨hvacant, -⟩ := hpre
      have hslots := perform_slots hperform (fun _ _ _ _ =>
        hknown.borrowed.vacant thread frame hmem hvacant) fun act heq => by cases heq; rfl
      exact hstep ⟨hmono.held, hmono.known, hmono.enclosing⟩
        fun _ _ _ hvalue => .inl (hslots ▸ hvalue)
  | dropGuard | takeRetained | returnRetained =>
      have hslots := perform_slots hperform (by simp) fun act heq => by cases heq; rfl
      exact hstep ⟨hmono.held, hmono.known, hmono.enclosing⟩
        fun _ _ _ hvalue => .inl (hslots ▸ hvalue)
  | cachedTrack key =>
      rcases cachedTrack_slots hperform with ⟨rfl, hslots⟩ |
          ⟨slot, cached, pool, hcached, rfl, rfl, hpool, hslots⟩
      · exact hstep ⟨hmono.held, hmono.known, hmono.enclosing⟩
          fun _ _ _ hvalue => .inl (hslots ▸ hvalue)
      · obtain ⟨hhas, hdescribed⟩ := hslot slot cached hcached
        refine hstep ⟨suits_claimed hmono.held hdescribed, fun ref href => ?_, hmono.enclosing⟩
          (hone slot _ hslots fun value hvalue => ?_)
        · rcases List.mem_cons.1 href with rfl | hold
          · rwa [hpool]
          · exact hmono.known ref hold
        · cases hvalue
          exact ⟨hhas, fun _ huuid => by cases huuid⟩
  | cachePool key pool localUuid =>
      obtain ⟨-, hcached, -, hholds⟩ := hpre
      obtain ⟨slot, hslots⟩ := cachePool_slots hperform
      refine hstep ⟨fun held hheld => hmono.held held ?_, hmono.known, hmono.enclosing⟩
        (hone slot _ hslots fun value hvalue => ?_)
      · simp only [next] at hheld
        split at hheld
        · exact List.mem_of_mem_tail hheld
        · exact hheld
      · cases hvalue
        exact ⟨hmono.known pool.val hcached,
          fun uuid huuid => (hsuited.top (hholds uuid huuid)).mono hgrows.packets⟩
  | evict =>
      obtain ⟨slot, hreply, hslots⟩ := evict_slots hperform
      refine hstep ?_ (hone slot _ hslots fun value hvalue => by cases hvalue)
      cases reply with
      | none => exact ⟨hmono.held, hmono.known, hmono.enclosing⟩
      | some local_ =>
          obtain ⟨old, hold, hlocal⟩ := Option.bind_eq_some_iff.1 hreply.symm
          rw [Option.map_eq_some_iff] at hlocal
          obtain ⟨uuid, huuid, rfl⟩ := hlocal
          obtain ⟨hhas, hdescribed⟩ := hslot slot old hold
          refine ⟨fun held hheld => ?_, fun ref href => ?_, hmono.enclosing⟩
          · rcases List.mem_cons.1 hheld with rfl | hbefore
            · simp only [old.pool.property]
              exact (hdescribed uuid huuid).suits
            · exact hmono.held held hbefore
          · rcases List.mem_cons.1 href with rfl | hbefore
            · exact hhas
            · exact hmono.known ref hbefore
  | releaseLocal pool uuid =>
      obtain ⟨-, hpool, hholds⟩ := hpre
      have hdescribed := (hsuited.top hholds).mono hgrows.packets
      rcases releaseLocal_slots hperform with ⟨hreply, hslots⟩ |
          ⟨rfl, slot, cached, hcached, hnumber, -, hslots⟩
      · refine hstep ?_ fun _ _ _ hvalue => .inl (hslots ▸ hvalue)
        cases reply with
        | kept => exact absurd rfl hreply
        | full | uncached => exact ⟨hmono.held, hmono.known, hmono.enclosing⟩
      · refine hstep ⟨fun held hheld => hmono.held held (List.mem_of_mem_tail hheld), hmono.known,
          hmono.enclosing⟩ (hone slot _ hslots fun value hvalue => ?_)
        cases hvalue
        obtain ⟨hhas, -⟩ := hslot slot cached hcached
        refine ⟨hhas, fun used hused => ?_⟩
        cases hused
        -- one number is one key
        have hkey : state'.pools.keyAt pool.number = some pool.key := hmono.known pool hpool
        rw [Pools.Has, hnumber, hkey, Option.some.injEq, cached.pool.property] at hhas
        exact hhas ▸ hdescribed
  | destroy =>
      obtain ⟨hreply, hslots⟩ := destroy_slots hperform
      have hlocal : ∀ local_ ∈ reply, state'.pools.Has local_.1 ∧
          Described state'.trace.packets local_.2 local_.1.key := by
        intro local_ hlocal
        rw [hreply, List.mem_filterMap] at hlocal
        obtain ⟨slot, -, hslotted⟩ := hlocal
        obtain ⟨cached, hcached, hlocal⟩ := Option.bind_eq_some_iff.1 hslotted
        rw [Option.map_eq_some_iff] at hlocal
        obtain ⟨uuid, huuid, rfl⟩ := hlocal
        obtain ⟨hhas, hdescribed⟩ := hslot slot cached hcached
        refine ⟨hhas, ?_⟩
        simp only [cached.pool.property]
        exact hdescribed uuid huuid
      refine hstep ⟨fun held hheld => ?_, fun ref href => ?_, hmono.enclosing⟩
        fun other slot cached hcached => ?_
      · rcases List.mem_append.1 hheld with hnew | hold
        · obtain ⟨local_, hmem', rfl⟩ := List.mem_map.1 hnew
          exact (hlocal local_ hmem').2.suits
        · exact hmono.held held hold
      · rcases List.mem_append.1 href with hnew | hold
        · obtain ⟨local_, hmem', rfl⟩ := List.mem_map.1 hnew
          exact (hlocal local_ hmem').1
        · exact hmono.known ref hold
      · rw [hslots] at hcached
        by_cases hother : other = thread
        · subst hother
          rw [Function.update_self] at hcached
          cases hcached
        · rw [Function.update_of_ne hother] at hcached
          exact .inl hcached

theorem fits_spans (h : Fits state frames) (hknown : Known env state frames)
    (hthread : frames thread = frame :: rest) {action : SpanAct} {reply : action.Reply}
    (hpre : pre env frame (.spans action))
    (hperform : perform env thread (.spans action) choice state = some (reply, state')) :
    Fits state' (Function.update frames thread (next frame (.spans action) reply :: rest)) := by
  have hgrows := perform_grows hperform
  have hmem : frame ∈ frames thread := Guards.top_mem hthread
  have hsuited := h.frames thread frame hmem
  have hmono := hsuited.mono hgrows
  have hslots : state'.slots = state.slots := perform_slots hperform (by simp) (by simp)
  have hpools : state'.pools = state.pools := pools_same hperform (by simp)
  have hstep : (next frame (.spans action) reply).Suited state' →
      (∀ spanId pool uuid, state'.track spanId = some (pool, uuid) →
        state.track spanId = some (pool, uuid) ∨
          (∀ known, pool = some known → state'.pools.Has known) ∧
            ∀ used, uuid = some used → Suits state'.trace.packets used (pool.map PoolRef.key)) →
      Fits state' (Function.update frames thread (next frame (.spans action) reply :: rest)) :=
    fun hframe htrack => h.step hthread hgrows hframe htrack
      (fun _ _ _ hcached => .inl (hslots ▸ hcached))
      (fun number uuid hmem => .inl (hpools ▸ hmem)) fun number key hkey => keyAt_mono hperform hkey
  -- the data of an entry that is found
  have hentry : ∀ spanId entry, state.spans.entries spanId = some entry →
      (∀ known, entry.data.trackPool = some known → state'.pools.Has known) ∧
        ∀ used, entry.data.trackUuid = some used →
          Suits state'.trace.packets used (entry.data.trackPool.map PoolRef.key) := by
    intro spanId entry hentry
    exact track_grows hgrows (h.track spanId _ _ (by rw [State.track, hentry]; rfl))
  cases action with
  | insert spanId instance_ data =>
      obtain ⟨-, -, -, -, -, -, -, hpublishes, -⟩ := hpre
      have htrack := insert_track hperform
      refine hstep ⟨fun held hheld => hmono.held held ?_, hmono.known, hmono.enclosing⟩
        fun other pool uuid htracked => ?_
      · simp only [next] at hheld
        split at hheld
        · exact List.mem_of_mem_tail hheld
        · exact hheld
      · rw [htrack] at htracked
        by_cases hother : other = spanId
        · subst hother
          rw [Function.update_self, Option.some.injEq, Prod.mk.injEq] at htracked
          obtain ⟨rfl, rfl⟩ := htracked
          right
          cases huuid : data.trackUuid with
          | none =>
              rw [Frame.Publishes, huuid] at hpublishes
              rw [hpublishes]
              exact ⟨fun _ hpool => (by cases hpool), fun _ hused => (by cases hused)⟩
          | some uuid =>
              rw [Frame.Publishes, huuid] at hpublishes
              obtain ⟨key, hhead, -, hpool⟩ := hpublishes
              have hdescribed : Described state'.trace.packets uuid key :=
                ((hsuited.held _ (List.mem_of_head? hhead)).described).mono hgrows.packets
              refine ⟨fun known hsome => hmono.known known (hpool known hsome).1,
                fun used hused => ?_⟩
              cases hused
              refine ⟨key, hdescribed, fun known hsome => ?_⟩
              rw [Option.map_eq_some_iff] at hsome
              obtain ⟨ref, href, rfl⟩ := hsome
              exact (hpool ref href).2
        · rw [Function.update_of_ne hother] at htracked
          exact .inl htracked
  | get spanId =>
      refine hstep ⟨hmono.held, hmono.known, fun uuid huuid => ?_⟩
        fun other pool uuid htracked => ?_
      · obtain ⟨spans, haction, rfl⟩ := perform_spans_act hperform
        obtain ⟨-, -, -, hcases⟩ := get_spec haction
        rcases hcases with ⟨shown, rfl, -, hfound, -⟩ | ⟨rfl, -⟩
        · exact ((hentry spanId shown.entry hfound).2 uuid huuid).known
        · cases huuid
      · rw [track_same hknown.guards hmem hpre hperform (by simp) (by simp)] at htracked
        exact .inl htracked
  | take spanId =>
      rcases take_track hperform with ⟨rfl, htrack⟩ | ⟨found, rfl, hfound, htrack⟩
      · exact hstep ⟨hmono.held, hmono.known, hmono.enclosing⟩
          fun _ _ _ htracked => .inl (htrack ▸ htracked)
      · obtain ⟨hhas, hsuits⟩ := hentry spanId found.entry hfound
        refine hstep ⟨fun held hheld => ?_, fun ref href => ?_, hmono.enclosing⟩
          fun other pool uuid htracked => ?_
        · simp only [next] at hheld
          cases huuid : found.data.trackUuid with
          | none =>
              rw [huuid] at hheld
              exact hmono.held held hheld
          | some uuid =>
              rw [huuid] at hheld
              rcases List.mem_cons.1 hheld with rfl | hold
              · exact hsuits uuid huuid
              · exact hmono.held held hold
        · rcases List.mem_append.1 href with hnew | hold
          · exact hhas ref (Option.mem_toList.1 hnew)
          · exact hmono.known ref hold
        · rw [htrack] at htracked
          by_cases hother : other = spanId
          · subst hother
            rw [Function.update_self] at htracked
            cases htracked
          · rw [Function.update_of_ne hother] at htracked
            exact .inl htracked
  | _ =>
      refine hstep ⟨hmono.held, hmono.known, hmono.enclosing⟩ fun other pool uuid htracked => ?_
      rw [track_same hknown.guards hmem hpre hperform (by simp) (by simp)] at htracked
      exact .inl htracked

theorem fits_kept (env : Env) : KeepsInv env AnyCall (Known env) Fits where
  act := by
    rintro state frames thread frame rest action choice reply state' hknown h hthread hpre
      hperform -
    change perform env thread action choice state = some (reply, state') at hperform
    have hgrows := perform_grows hperform
    have hmem : frame ∈ frames thread := Guards.top_mem hthread
    have hmono := (h.frames thread frame hmem).mono hgrows
    have htrack : (∀ act, action ≠ .spans act) → state'.track = state.track := fun hspans =>
      track_same hknown.guards hmem hpre hperform (fun _ _ _ heq => hspans _ heq)
        fun _ heq => hspans _ heq
    have hslots : (∀ act, action ≠ .context act) → state'.slots = state.slots := fun hcontext =>
      perform_slots hperform (fun _ _ _ heq => absurd heq (hcontext _))
        fun _ heq => absurd heq (hcontext _)
    have hquiet : (∀ act, action ≠ .spans act) → (∀ act, action ≠ .context act) →
        (∀ act, action ≠ .pools act) → (next frame action reply).Suited state' →
        Fits state' (Function.update frames thread (next frame action reply :: rest)) := by
      intro hspans hcontext hpools hframe
      have htracks := htrack hspans
      have hsame := hslots hcontext
      have hqueue := pools_same hperform hpools
      exact h.step hthread hgrows hframe (fun _ _ _ htracked => .inl (htracks ▸ htracked))
        (fun _ _ _ hcached => .inl (hsame ▸ hcached)) (fun _ _ hqueued => .inl (hqueue ▸ hqueued))
        fun _ _ hkey => keyAt_mono hperform hkey
    cases action with
    | shared action =>
        refine hquiet (by simp) (by simp) (by simp) ?_
        cases action <;> exact ⟨hmono.held, hmono.known, hmono.enclosing⟩
    | pools action =>
        exact fits_pools h hthread hpre hperform (hslots (by simp)) (htrack (by simp))
    | spans action => exact fits_spans h hknown hthread hpre hperform
    | context action => exact fits_context h hknown hthread hpre hperform (htrack (by simp))
    | sequence action =>
        refine hquiet (by simp) (by simp) (by simp) ?_
        cases action with
        | write span calledAt content =>
            obtain ⟨packet, hpackets, -, -, rfl, -⟩ := perform_write hperform
            have hwrote : (frame.wrote packet.content).Suited state' := by
              refine suited_wrote hgrows (h.frames thread frame hmem) rfl
                fun uuid key hdescribes => ⟨packet, ?_, hdescribes⟩
              rw [hpackets]
              exact List.mem_append_right _ List.mem_cons_self
            exact ⟨hwrote.held, hwrote.known, hwrote.enclosing⟩
        | _ => exact ⟨hmono.held, hmono.known, hmono.enclosing⟩
    | registry action =>
        refine hquiet (by simp) (by simp) (by simp) ?_
        cases action <;> exact ⟨hmono.held, hmono.known, hmono.enclosing⟩
    | format span =>
        exact hquiet (by simp) (by simp) (by simp) ⟨hmono.held, hmono.known, hmono.enclosing⟩
  ret := fun _ h hthread _ _ => ⟨h.frames.pop hthread, h.track, h.slots, h.queue⟩
  call := by
    rintro state frames thread call prog state' hknown h - - hcall -
    obtain ⟨registry, -, -, rfl, -⟩ := hknown.ledger.call_admits hcall
    refine ⟨h.frames.push ?_ fun _ _ hvalue => ⟨hvalue.held, hvalue.known, hvalue.enclosing⟩,
      h.track, h.slots, h.queue⟩
    exact ⟨fun _ hheld => (by cases hheld), fun _ hpool => (by cases hpool),
      fun _ huuid => (by cases huuid)⟩

theorem fits_new (nextSequenceId : Nat) : Fits (State.new nextSequenceId) fun _ => [] where
  frames := fun _ _ hmem => by cases hmem
  track := fun _ _ _ htracked => by cases htracked
  slots := fun _ _ _ hcached => by cases hcached
  queue := fun _ _ hqueued => by cases hqueued

end Fits

/-! ## The tree -/

/-- The uuids that are no span tracks: those of the process and of the counters. -/
def Shared.Reserved (shared : Shared) (uuid : Nat) : Prop :=
  shared.processTrack = some uuid ∨ ∃ key, shared.counterTracks key = some uuid

/-- No uuid is described twice. -/
def Emitted.Apart (packet later : Emitted) : Prop :=
  ∀ uuid key key', packet.content.describes = some (uuid, key) →
    later.content.describes ≠ some (uuid, key')

/-- A track hangs off the process or off a track that was described before, and events are
on tracks that were. -/
def Rooted (processTrack : Option Nat) (before : List Emitted) (packet : Emitted) : Prop :=
  (∀ uuid key, packet.content.describes = some (uuid, key) →
    processTrack = some key.parentUuid ∨ Suits before key.parentUuid none) ∧
  ∀ uuid, packet.content.track = some uuid → Suits before uuid none

/-- Numbers are drawn for one purpose. -/
structure Drawn (state : State) (frames : Frames) : Prop where
  below : ∀ uuid key, Described state.trace.packets uuid key → uuid < state.shared.nextUuid
  reserved : ∀ uuid, state.shared.Reserved uuid →
    uuid < state.shared.nextUuid ∧ ∀ key, ¬ Described state.trace.packets uuid key
  fresh : Every (fun _ frame => ∀ uuid, frame.fresh = some uuid →
    (∀ key, ¬ Described state.trace.packets uuid key) ∧ ¬ state.shared.Reserved uuid) frames
  once : state.trace.packets.Pairwise Emitted.Apart
  processes : Every (fun _ frame => ∀ uuid ∈ frame.processes,
    state.shared.processTrack = some uuid) frames
  rooted : Holds (Rooted state.shared.processTrack) state.trace.packets

section Drawn

variable {env : Env} {state state' : State} {frames : Frames} {thread : ThreadId}
  {frame : Frame} {rest : List Frame} {choice : Choice}

theorem shared_same {action : Act} {reply : action.Reply}
    (h : perform env thread action choice state = some (reply, state'))
    (haction : ∀ act, action ≠ .shared act) :
    state'.shared.nextUuid = state.shared.nextUuid ∧
      state'.shared.processTrack = state.shared.processTrack ∧
      state'.shared.counterTracks = state.shared.counterTracks ∧
      state'.shared.processDescEmitted = state.shared.processDescEmitted := by
  cases action with
  | shared act => exact absurd rfl (haction act)
  | pools | format | registry =>
      simp only [perform, Option.some.injEq, Prod.mk.injEq] at h
      rw [← h.2]
      exact ⟨rfl, rfl, rfl, rfl⟩
  | spans | context | sequence =>
      simp only [perform, Option.bind_eq_bind, Option.bind_eq_some_iff, Option.some.injEq,
        Prod.mk.injEq] at h
      obtain ⟨_, _, _, rfl⟩ := h
      exact ⟨rfl, rfl, rfl, rfl⟩

theorem reserved_before {action : SharedAct} {reply : action.Reply}
    (h : perform env thread (.shared action) choice state = some (reply, state')) {uuid : Nat}
    (hreserved : state'.shared.Reserved uuid) :
    state.shared.Reserved uuid ∨
      uuid = state.shared.nextUuid ∧ state'.shared.nextUuid = state.shared.nextUuid + 1 := by
  simp only [perform, Option.some.injEq, Prod.mk.injEq] at h
  obtain ⟨-, rfl⟩ := h
  cases action with
  | processTrackUuid =>
      simp only [SharedAct.perform] at hreserved ⊢
      cases hprocess : state.shared.processTrack with
      | some known =>
          simp only [hprocess] at hreserved
          exact .inl hreserved
      | none =>
          simp only [hprocess] at hreserved
          rcases hreserved with hnew | ⟨key, hkey⟩
          · cases hnew
            exact .inr ⟨rfl, rfl⟩
          · exact .inl (.inr ⟨key, hkey⟩)
  | counterTrackUuid key =>
      simp only [SharedAct.perform] at hreserved ⊢
      cases hcounter : state.shared.counterTracks key with
      | some known =>
          simp only [hcounter] at hreserved
          exact .inl hreserved
      | none =>
          simp only [hcounter] at hreserved
          rcases hreserved with hprocess | ⟨other, hother⟩
          · exact .inl (.inl hprocess)
          · by_cases hkey : other = key
            · subst hkey
              simp only [PtrMap.insert, if_true, Option.some.injEq] at hother
              exact .inr ⟨hother.symm, rfl⟩
            · simp only [PtrMap.insert, if_neg hkey] at hother
              exact .inl (.inr ⟨other, hother⟩)
  | _ => exact .inl hreserved

theorem processTrack_kept {action : Act} {reply : action.Reply}
    (h : perform env thread action choice state = some (reply, state')) {uuid : Nat}
    (hprocess : state.shared.processTrack = some uuid) :
    state'.shared.processTrack = some uuid := by
  by_cases hshared : ∃ act, action = .shared act
  · obtain ⟨act, rfl⟩ := hshared
    simp only [perform, Option.some.injEq, Prod.mk.injEq] at h
    rw [← h.2]
    cases act with
    | processTrackUuid => simp only [SharedAct.perform, hprocess]
    | counterTrackUuid key =>
        simp only [SharedAct.perform]
        split <;> exact hprocess
    | _ => exact hprocess
  · rw [(shared_same h fun act heq => hshared ⟨act, heq⟩).2.1]
    exact hprocess

theorem wrote_fresh (frame : Frame) (content : Content) :
    (frame.wrote content).processes = frame.processes ∧
      ∀ uuid, (frame.wrote content).fresh = some uuid → frame.fresh = some uuid := by
  cases content with
  | body body =>
      cases body with
      | trackDescriptor => exact ⟨rfl, fun _ huuid => by cases huuid⟩
      | _ => exact ⟨rfl, fun _ huuid => huuid⟩
  | _ => exact ⟨rfl, fun _ huuid => huuid⟩

/-- Only a draw makes a fresh uuid, and only a look at the process track shows it. -/
theorem next_fresh (action : Act) (reply : action.Reply)
    (halloc : action ≠ .shared .allocUuid) (hprocess : action ≠ .shared .processTrackUuid) :
    (next frame action reply).processes = frame.processes ∧
      ∀ uuid, (next frame action reply).fresh = some uuid → frame.fresh = some uuid := by
  cases action with
  | shared act =>
      cases act with
      | allocUuid => exact absurd rfl halloc
      | processTrackUuid => exact absurd rfl hprocess
      | _ => exact ⟨rfl, fun _ huuid => huuid⟩
  | pools act => cases act <;> exact ⟨rfl, fun _ huuid => huuid⟩
  | spans act =>
      cases act with
      | take => cases reply <;> exact ⟨rfl, fun _ huuid => huuid⟩
      | _ => exact ⟨rfl, fun _ huuid => huuid⟩
  | context act =>
      cases act with
      | insert => exact ⟨rfl, fun _ huuid => by cases huuid⟩
      | lookup | cachedTrack | evict | releaseLocal =>
          cases reply <;> exact ⟨rfl, fun _ huuid => huuid⟩
      | _ => exact ⟨rfl, fun _ huuid => huuid⟩
  | sequence act =>
      cases act with
      | write span calledAt content => exact wrote_fresh frame content
      | _ => exact ⟨rfl, fun _ huuid => huuid⟩
  | registry act => cases act <;> exact ⟨rfl, fun _ huuid => huuid⟩
  | format => exact ⟨rfl, fun _ huuid => huuid⟩

theorem fresh_held {uuid : Nat} (hmem : frame ∈ frames thread) (hfresh : frame.fresh = some uuid) :
    uuid ∈ holding state frames (.callbacks thread) := by
  refine List.mem_flatMap.2 ⟨frame, hmem, List.mem_append_left _ ?_⟩
  rw [hfresh]
  exact List.mem_singleton_self _

/-- Nobody else has just drawn what the top callback has. -/
theorem fresh_apart (howners : Owners state frames) (hthread : frames thread = frame :: rest)
    {uuid : Nat} (hfresh : frame.fresh = some uuid) {other : ThreadId} {value : Frame}
    (hmem : value ∈ if other = thread then rest else frames other) : value.fresh ≠ some uuid := by
  intro hvalue
  by_cases hother : other = thread
  · subst hother
    rw [if_pos rfl] at hmem
    have hcount := howners.exclusive.count_le (.callbacks other) uuid
    rw [Owners.callbacks_count hthread] at hcount
    have htop : 0 < frame.uuids.count uuid := by
      refine List.count_pos_iff.2 (List.mem_append_left _ ?_)
      rw [hfresh]
      exact List.mem_singleton_self _
    have hrest : 0 < (rest.flatMap Frame.uuids).count uuid := by
      refine List.count_pos_iff.2 (List.mem_flatMap.2 ⟨value, hmem, List.mem_append_left _ ?_⟩)
      rw [hvalue]
      exact List.mem_singleton_self _
    omega
  · rw [if_neg hother] at hmem
    have hthis : uuid ∈ holding state frames (.callbacks thread) :=
      fresh_held (Guards.top_mem hthread) hfresh
    have halone := howners.exclusive.alone _ _ uuid hthis (fresh_held hmem hvalue)
    cases halone
    exact hother rfl

theorem Rooted.mono {processTrack processTrack' : Option Nat} {before : List Emitted}
    {packet : Emitted} (h : Rooted processTrack before packet)
    (hkept : ∀ uuid, processTrack = some uuid → processTrack' = some uuid) :
    Rooted processTrack' before packet :=
  ⟨fun uuid key hdescribes => (h.1 uuid key hdescribes).imp (hkept _) id, h.2⟩

/-- Everything about where the uuids are. -/
structure Tracking (env : Env) (state : State) (frames : Frames) : Prop where
  known : Known env state frames
  owners : Owners state frames
  fits : Fits state frames

theorem names_rooted (h : Tracking env state frames) (hdrawn : Drawn state frames)
    (hmem : frame ∈ frames thread) {content : Content} {packet : Emitted}
    (hcontent : packet.content = content) (hemits : frame.Emits content) :
    Rooted state.shared.processTrack state.trace.packets packet := by
  have hsuited := h.fits.frames thread frame hmem
  have hguarded : ∀ found uuid, frame.guard = some found → found.data.trackUuid = some uuid →
      Suits state.trace.packets uuid none := by
    intro found uuid hguard huuid
    have hentry := h.known.guards.entry thread frame hmem found hguard
    have htrack : state.track found.spanId =
        some (found.data.trackPool, found.data.trackUuid) := by
      rw [State.track, hentry]
      rfl
    exact ((h.fits.track _ _ _ htrack).2 uuid huuid).known
  have hhead : ∀ held, frame.held.head? = some held → Suits state.trace.packets held.uuid none :=
    fun held hhead => (hsuited.held held (List.mem_of_head? hhead)).known
  constructor
  · intro uuid key hdescribes
    rw [hcontent] at hdescribes
    cases content with
    | body body =>
        cases body with
        | trackDescriptor used name parentUuid =>
            obtain ⟨-, -, henclosing | ⟨-, hprocess⟩⟩ := hemits
            · cases hdescribes
              exact .inr (hsuited.enclosing parentUuid henclosing)
            · cases hdescribes
              exact .inl (hdrawn.processes thread frame hmem parentUuid hprocess)
        | _ => cases hdescribes
    | _ => cases hdescribes
  · intro uuid htrack
    rw [hcontent] at htrack
    cases content with
    | body body =>
        cases body with
        | lifetimeBegin used metadata visits =>
            obtain ⟨-, ⟨key, hheld, -⟩, -⟩ := hemits
            cases htrack
            exact hhead _ hheld
        | lifetimeEnd used flows fields =>
            obtain ⟨-, ⟨key, hheld⟩, -⟩ := hemits
            cases htrack
            exact hhead _ hheld
        | pollBegin used pollFlowId flows =>
            obtain ⟨-, found, hguard, huuid⟩ := hemits
            cases htrack
            exact hguarded found uuid hguard huuid
        | enterEnd used flows =>
            cases used with
            | none => cases htrack
            | some used =>
                obtain ⟨-, found, hguard, huuid⟩ := hemits
                cases htrack
                exact hguarded found uuid hguard huuid
        | instant used metadata visits =>
            cases used with
            | none => cases htrack
            | some used =>
                obtain ⟨-, henclosing⟩ := hemits
                cases htrack
                exact hsuited.enclosing uuid henclosing
        | trackDescriptor | counterDescriptor | threadBegin => cases htrack
    | _ => cases htrack

/-- What is described has just been drawn. -/
theorem Frame.Emits.describes {content : Content} (h : frame.Emits content) {uuid : Nat}
    {key : TrackKey} (hdescribes : content.describes = some (uuid, key)) :
    frame.fresh = some uuid ∧ (frame.wrote content).fresh = none := by
  cases content with
  | body body =>
      cases body with
      | trackDescriptor used name parentUuid =>
          obtain ⟨-, hfresh, -⟩ := h
          cases hdescribes
          exact ⟨hfresh, rfl⟩
      | _ => cases hdescribes
  | _ => cases hdescribes

theorem drawn_write (h : Drawn state frames) (hbase : Tracking env state frames)
    (hthread : frames thread = frame :: rest) {span : Option Nat} {calledAt : Nat}
    {content : Content} {reply : Unit}
    (hpre : pre env frame (.sequence (.write span calledAt content)))
    (hperform : perform env thread (.sequence (.write span calledAt content)) choice state =
      some (reply, state')) :
    Drawn state' (Function.update frames thread
      (next frame (.sequence (.write span calledAt content)) reply :: rest)) := by
  have hmem : frame ∈ frames thread := Guards.top_mem hthread
  obtain ⟨packet, hpackets, -, -, hcontent, -⟩ := perform_write hperform
  obtain ⟨hnextUuid, hprocess, hcounters, -⟩ := shared_same hperform (by simp)
  obtain ⟨-, -, hemits, -⟩ := hpre
  -- what the new packet describes was fresh
  have hfresh : ∀ uuid key, packet.content.describes = some (uuid, key) →
      frame.fresh = some uuid ∧
        (next frame (.sequence (.write span calledAt content)) reply).fresh = none :=
    fun uuid key hdescribes => hemits.describes (hcontent ▸ hdescribes)
  have hdescribed : ∀ uuid key, Described state'.trace.packets uuid key →
      Described state.trace.packets uuid key ∨ packet.content.describes = some (uuid, key) := by
    rintro uuid key ⟨shown, hshown, hdescribes⟩
    rw [hpackets] at hshown
    rcases List.mem_append.1 hshown with hold | hlast
    · exact .inl ⟨shown, hold, hdescribes⟩
    · rw [List.mem_singleton] at hlast
      subst hlast
      exact .inr hdescribes
  have hreserved : ∀ uuid, state'.shared.Reserved uuid ↔ state.shared.Reserved uuid :=
    fun uuid => by
    rw [Shared.Reserved, Shared.Reserved, hprocess, hcounters]
  have hkept : ∀ value : Frame, (∀ uuid, value.fresh = some uuid →
        (∀ key, ¬ Described state.trace.packets uuid key) ∧ ¬ state.shared.Reserved uuid) →
      (∀ uuid, value.fresh = some uuid → ∀ key,
        packet.content.describes ≠ some (uuid, key)) →
      ∀ uuid, value.fresh = some uuid →
        (∀ key, ¬ Described state'.trace.packets uuid key) ∧ ¬ state'.shared.Reserved uuid := by
    intro value hvalue hother uuid huuid
    refine ⟨fun key hnew => ?_, fun hnew => (hvalue uuid huuid).2 ((hreserved uuid).1 hnew)⟩
    rcases hdescribed uuid key hnew with hold | hlast
    · exact (hvalue uuid huuid).1 key hold
    · exact hother uuid huuid key hlast
  obtain ⟨hprocesses, hsame⟩ := @wrote_fresh frame content
  constructor
  · intro uuid key hnew
    rw [hnextUuid]
    rcases hdescribed uuid key hnew with hold | hlast
    · exact h.below uuid key hold
    · exact hbase.owners.issued _ uuid (fresh_held hmem (hfresh uuid key hlast).1)
  · intro uuid hnew
    obtain ⟨hlt, hundescribed⟩ := h.reserved uuid ((hreserved uuid).1 hnew)
    refine ⟨hnextUuid ▸ hlt, fun key hkey => ?_⟩
    rcases hdescribed uuid key hkey with hold | hlast
    · exact hundescribed key hold
    · exact (h.fresh thread frame hmem uuid (hfresh uuid key hlast).1).2 ((hreserved uuid).1 hnew)
  · apply every_update
    · intro value hvalue
      rcases List.mem_cons.1 hvalue with rfl | hrest
      · refine hkept _ (fun uuid huuid => h.fresh thread frame hmem uuid (hsame uuid huuid))
          fun uuid huuid key hdescribes => ?_
        rw [(hfresh uuid key hdescribes).2] at huuid
        cases huuid
      · refine hkept value (h.fresh thread value (Guards.rest_mem hthread hrest))
          fun uuid huuid key hdescribes => ?_
        have hbelow : value ∈ if thread = thread then rest else frames thread := by
          rw [if_pos rfl]
          exact hrest
        exact fresh_apart hbase.owners hthread (hfresh uuid key hdescribes).1 hbelow huuid
    · intro other hother value hvalue
      refine hkept value (h.fresh other value hvalue) fun uuid huuid key hdescribes => ?_
      have hold : value ∈ if other = thread then rest else frames other := by
        rw [if_neg hother]
        exact hvalue
      exact fresh_apart hbase.owners hthread (hfresh uuid key hdescribes).1 hold huuid
  · rw [hpackets, List.pairwise_append]
    refine ⟨h.once, List.pairwise_singleton _ _, fun old hold later hlater uuid key key' hdescribes
      hagain => ?_⟩
    rw [List.mem_singleton] at hlater
    subst hlater
    exact (h.fresh thread frame hmem uuid (hfresh uuid key' hagain).1).1 key ⟨old, hold, hdescribes⟩
  · refine h.processes.step hthread ?_ fun _ _ hvalue uuid huuid => ?_
    · intro uuid huuid
      rw [hprocess]
      exact h.processes thread frame hmem uuid (hprocesses ▸ huuid)
    · rw [hprocess]
      exact hvalue uuid huuid
  · rw [hpackets, hprocess]
    exact h.rooted.concat (names_rooted hbase h hmem hcontent hemits)

theorem drawn_shared (h : Drawn state frames) (hbase : Tracking env state frames)
    (hthread : frames thread = frame :: rest) {action : SharedAct} {reply : action.Reply}
    (hperform : perform env thread (.shared action) choice state = some (reply, state')) :
    Drawn state' (Function.update frames thread (next frame (.shared action) reply :: rest)) := by
  have hmem : frame ∈ frames thread := Guards.top_mem hthread
  have hpackets : state'.trace.packets = state.trace.packets := perform_packets hperform (by simp)
  have hnext := nextUuid_mono hperform
  have hbefore : ∀ uuid, state'.shared.Reserved uuid → state.shared.Reserved uuid ∨
      uuid = state.shared.nextUuid ∧ state'.shared.nextUuid = state.shared.nextUuid + 1 :=
    fun uuid hreserved => reserved_before hperform hreserved
  have hother : ∀ other value, value ∈ frames other → ∀ uuid, value.fresh = some uuid →
      (∀ key, ¬ Described state'.trace.packets uuid key) ∧ ¬ state'.shared.Reserved uuid := by
    intro other value hvalue uuid huuid
    obtain ⟨hundescribed, hunreserved⟩ := h.fresh other value hvalue uuid huuid
    refine ⟨hpackets ▸ hundescribed, fun hreserved => ?_⟩
    rcases hbefore uuid hreserved with hold | ⟨rfl, -⟩
    · exact hunreserved hold
    · exact (hbase.owners.issued _ _ (fresh_held hvalue huuid)).false
  constructor
  · intro uuid key hdescribed
    rw [hpackets] at hdescribed
    exact (h.below uuid key hdescribed).trans_le hnext
  · intro uuid hreserved
    rw [hpackets]
    rcases hbefore uuid hreserved with hold | ⟨rfl, hdrawn⟩
    · obtain ⟨hlt, hundescribed⟩ := h.reserved uuid hold
      exact ⟨hlt.trans_le hnext, hundescribed⟩
    · rw [hdrawn]
      exact ⟨Nat.lt_succ_self _, fun key hdescribed => (h.below _ key hdescribed).false⟩
  · apply every_update
    · intro value hvalue
      rcases List.mem_cons.1 hvalue with rfl | hrest
      · intro uuid huuid
        by_cases halloc : action = .allocUuid
        · subst halloc
          simp only [perform, SharedAct.perform, Option.some.injEq, Prod.mk.injEq] at hperform
          obtain ⟨rfl, rfl⟩ := hperform
          cases huuid
          exact ⟨fun key hdescribed => (h.below _ key hdescribed).false,
            fun hreserved => (h.reserved _ hreserved).1.false⟩
        · refine hother thread frame hmem uuid ?_
          cases action with
          | allocUuid => exact absurd rfl halloc
          | _ => exact huuid
      · exact hother thread value (Guards.rest_mem hthread hrest)
    · exact fun other _ value hvalue => hother other value hvalue
  · exact hpackets ▸ h.once
  · refine h.processes.step hthread ?_ fun _ _ hvalue uuid huuid =>
      processTrack_kept hperform (hvalue uuid huuid)
    intro uuid huuid
    have hold := h.processes thread frame hmem
    cases action with
    | processTrackUuid =>
        rcases List.mem_cons.1 huuid with rfl | hbefore
        · simp only [perform, SharedAct.perform, Option.some.injEq, Prod.mk.injEq] at hperform
          obtain ⟨rfl, rfl⟩ := hperform
          cases hprocess : state.shared.processTrack with
          | none => simp
          | some known => simp [hprocess]
        · exact processTrack_kept hperform (hold uuid hbefore)
    | _ => exact processTrack_kept hperform (hold uuid huuid)
  · rw [hpackets]
    exact h.rooted.mono fun before packet hrooted =>
      hrooted.mono fun uuid huuid => processTrack_kept hperform huuid

theorem drawn_kept (env : Env) : KeepsInv env AnyCall (Tracking env) Drawn where
  act := by
    rintro state frames thread frame rest action choice reply state' hbase h hthread hpre
      hperform -
    change perform env thread action choice state = some (reply, state') at hperform
    by_cases hshared : ∃ act, action = .shared act
    · obtain ⟨act, rfl⟩ := hshared
      exact drawn_shared h hbase hthread hperform
    by_cases hwrite : ∃ span calledAt content, action = .sequence (.write span calledAt content)
    · obtain ⟨span, calledAt, content, rfl⟩ := hwrite
      exact drawn_write h hbase hthread hpre hperform
    have hmem : frame ∈ frames thread := Guards.top_mem hthread
    have hpackets : state'.trace.packets = state.trace.packets := perform_packets hperform
      fun span calledAt content heq => hwrite ⟨span, calledAt, content, heq⟩
    obtain ⟨hnextUuid, hprocess, hcounters, -⟩ :=
      shared_same hperform fun act heq => hshared ⟨act, heq⟩
    obtain ⟨hprocesses, hfresh⟩ := @next_fresh frame action reply
      (fun heq => hshared ⟨_, heq⟩) fun heq => hshared ⟨_, heq⟩
    have hreserved : ∀ uuid, state'.shared.Reserved uuid ↔ state.shared.Reserved uuid :=
      fun uuid => by rw [Shared.Reserved, Shared.Reserved, hprocess, hcounters]
    constructor
    · rw [hpackets, hnextUuid]
      exact h.below
    · intro uuid hnew
      rw [hpackets, hnextUuid]
      exact h.reserved uuid ((hreserved uuid).1 hnew)
    · refine h.fresh.step hthread (fun uuid huuid => ?_) fun _ _ hvalue uuid huuid => ?_
      · rw [hpackets, hreserved]
        exact h.fresh thread frame hmem uuid (hfresh uuid huuid)
      · rw [hpackets, hreserved]
        exact hvalue uuid huuid
    · exact hpackets ▸ h.once
    · rw [hprocess]
      refine h.processes.step hthread (fun uuid huuid => ?_) fun _ _ hvalue => hvalue
      exact h.processes thread frame hmem uuid (hprocesses ▸ huuid)
    · rw [hpackets, hprocess]
      exact h.rooted
  ret := fun _ h hthread _ _ =>
    ⟨h.below, h.reserved, h.fresh.pop hthread, h.once, h.processes.pop hthread, h.rooted⟩
  call := by
    rintro state frames thread call prog state' hbase h - - hcall -
    obtain ⟨registry, -, -, rfl, -⟩ := hbase.known.ledger.call_admits hcall
    exact ⟨h.below, h.reserved, h.fresh.push (fun _ huuid => by cases huuid)
        fun _ _ hvalue => hvalue,
      h.once, h.processes.push (fun _ huuid => by cases huuid) fun _ _ hvalue => hvalue, h.rooted⟩

theorem drawn_new (nextSequenceId : Nat) : Drawn (State.new nextSequenceId) fun _ => [] where
  below := fun _ _ hdescribed => by
    obtain ⟨_, hmem, -⟩ := hdescribed
    cases hmem
  reserved := fun _ hreserved => by
    rcases hreserved with hprocess | ⟨_, hcounter⟩
    · cases hprocess
    · cases hcounter
  fresh := fun _ _ hmem => by cases hmem
  once := .nil
  processes := fun _ _ hmem => by cases hmem
  rooted := holds_nil

/-! ## Runs -/

theorem tracking_run {env : Env} {nextSequenceId : Nat} {labels : List (system env).Label}
    {config : (system env).Config}
    (hrun : System.run labels (System.idle (State.new nextSequenceId)) = some config) :
    ∃ frames, Tracking env config.state frames ∧ Drawn config.state frames ∧
      Legible env config.state := by
  have hplaces := (owners_kept env).join ((fits_kept env).over And.left)
  have hdrawn := hplaces.join ((drawn_kept env).over fun h => ⟨h.1, h.2.1, h.2.2⟩)
  obtain ⟨frames, ⟨hknown, ⟨⟨howners, hfits⟩, hdrawn⟩, hlegible⟩, -⟩ := known_run
    (hdrawn.join ((legible_kept env).over fun _ => trivial))
    ⟨⟨⟨owners_new nextSequenceId, fits_new nextSequenceId⟩, drawn_new nextSequenceId⟩,
      legible_new env nextSequenceId⟩
    (System.obeys_true labels _) hrun
  exact ⟨frames, ⟨hknown, howners, hfits⟩, hdrawn, hlegible⟩

/-- The key that a place keeps a uuid for. -/
def State.KeptFor (state : State) (uuid : Nat) (key : TrackKey) : Holder → Prop
  | .callbacks _ => False
  | .entry spanId => ∃ pool, state.track spanId = some (pool, some uuid) ∧
      ∀ known, pool = some known → known.key = key
  | .slots thread => ∃ slot cached, state.slots thread slot = some cached ∧
      cached.localUuid = some uuid ∧ cached.key = key
  | .queue number => state.pools.keyAt number = some key

/-- What a place keeps a uuid for is what its track was described as. -/
theorem Fits.keptFor (h : Fits state frames) {holder : Holder} {uuid : Nat}
    (hmem : uuid ∈ state.stored holder) :
    ∃ key, Described state.trace.packets uuid key ∧ state.KeptFor uuid key holder := by
  cases holder with
  | callbacks thread => cases hmem
  | entry spanId =>
      rw [State.stored, Option.mem_toList, Option.bind_eq_some_iff] at hmem
      obtain ⟨⟨pool, used⟩, htrack, huuid⟩ := hmem
      change used = some uuid at huuid
      subst huuid
      obtain ⟨key, hdescribed, hkey⟩ := (h.track spanId pool _ htrack).2 uuid rfl
      exact ⟨key, hdescribed, pool, htrack,
        fun known hknown => hkey known.key (by rw [hknown]; rfl)⟩
  | slots thread =>
      obtain ⟨slot, -, hslot⟩ := List.mem_flatMap.1 hmem
      rw [slotUuid, Option.mem_toList, Option.bind_eq_some_iff] at hslot
      obtain ⟨cached, hcached, huuid⟩ := hslot
      exact ⟨cached.key, (h.slots thread slot cached hcached).2 uuid huuid, slot, cached, hcached,
        huuid, rfl⟩
  | queue number =>
      obtain ⟨key, hkey, hdescribed⟩ := h.queue number uuid hmem
      exact ⟨key, hdescribed, hkey⟩

/-- After every run the entries of the spans, the slots of the threads and the queues of the
pools have no uuid in common, and each keeps a uuid for the name and the parent that its
track was described with. -/
theorem tracks_owned {env : Env} {nextSequenceId : Nat} {labels : List (system env).Label}
    {config : (system env).Config}
    (hrun : System.run labels (System.idle (State.new nextSequenceId)) = some config)
    (hdraws : config.state.shared.nextUuid < 2 ^ 64) :
    Exclusive (fun holder => (config.state.stored holder).map env.bases.uuid) ∧
      ∀ holder, ∀ uuid ∈ config.state.stored holder, ∃ key,
        Described config.state.trace.packets uuid key ∧ config.state.KeptFor uuid key holder := by
  obtain ⟨frames, hbase, -⟩ := tracking_run hrun
  have hheld : ∀ holder, ∀ uuid ∈ config.state.stored holder,
      uuid ∈ holding config.state frames holder := by
    intro holder uuid hmem
    cases holder with
    | callbacks => cases hmem
    | entry | slots | queue => exact hmem
  have hstored : Exclusive config.state.stored := by
    refine hbase.owners.exclusive.drop fun holder token => ?_
    cases holder with
    | callbacks => exact Nat.zero_le _
    | entry | slots | queue => exact Nat.le_refl _
  refine ⟨hstored.map fun holder other uuid hmem uuid' hmem' heq => ?_,
    fun holder uuid hmem => hbase.fits.keptFor hmem⟩
  have huuid := hbase.owners.issued holder uuid (hheld holder uuid hmem)
  have huuid' := hbase.owners.issued other uuid' (hheld other uuid' hmem')
  exact drawValue_injective env.bases.uuidBase_lt (by omega) (by omega) heq

/-- A span with a child, another child on the same track, and an event in that. -/
def nestedSpans : Option (system flowEnv).Config :=
  System.run
    ([(Call.newSpan 1 sampleMetadata none, 34), (.newSpan 2 sampleMetadata (some 1), 24),
      (.close 2, 11), (.newSpan 3 sampleMetadata (some 1), 15),
      (.event sampleMetadata (some 3), 13)].flatMap fun callback =>
        .call 1 callback.1 :: List.replicate callback.2 (.act 1 sampleChoice) ++ [.ret 1])
    (System.idle (State.new 65536))

/-- What the packets describe, and off which track, and the tracks of the events. -/
def tracksOf (packets : List Emitted) : List (Option (Nat × Nat) × Option Nat) :=
  packets.map fun packet =>
    (packet.content.describes.map fun shown => (shown.1, shown.2.parentUuid), packet.content.track)

/-- What is asked of the run. -/
def Nests (config : (system flowEnv).Config) : Prop :=
  (config.state.shared.nextUuid = 4 ∧ config.state.shared.processTrack = some 0) ∧
    (config.state.stored (.entry 1) = [2] ∧ config.state.stored (.entry 3) = [3]) ∧
    tracksOf config.state.trace.packets =
      [(none, none), (none, none), (none, none), (some (2, 0), none), (none, some 2)] ++
        (some (3, 2), none) :: ([(none, some 3), (none, some 3), (none, some 3)] ++
          (none, some 3) :: [])

instance (config : (system flowEnv).Config) : Decidable (Nests config) := by
  unfold Nests
  infer_instance

theorem nestedSpans_nests : (nestedSpans.map fun config => decide (Nests config)) = some true := by
  decide +kernel

theorem nestedSpans_kinds :
    (nestedSpans.map fun config => config.state.trace.packets.map Emitted.kind) =
      some [some (.snapshot [64, 6, 1]), some (.process 5), some (.thread 6),
        some (.spanTrack 7 [112, 111, 108, 108] 5), some (.event 1 (some 7)),
        some (.spanTrack 8 [112, 111, 108, 108] 7), some (.event 1 (some 8)),
        some (.event 2 (some 8)), some (.event 1 (some 8)), some (.event 3 (some 8))] := by
  decide +kernel

theorem tracks_owned_nested : ∃ config, nestedSpans = some config ∧
    Exclusive (fun holder => (config.state.stored holder).map flowEnv.bases.uuid) ∧
      config.state.stored (.entry 1) = [2] ∧ config.state.stored (.entry 3) = [3] ∧
        ∃ key, Described config.state.trace.packets 3 key ∧
          config.state.KeptFor 3 key (.entry 3) := by
  obtain ⟨config, hrun, hnests⟩ := Option.map_eq_some_iff.1 nestedSpans_nests
  rw [decide_eq_true_eq] at hnests
  obtain ⟨⟨hdraws, -⟩, ⟨hfirst, hthird⟩, -⟩ := hnests
  obtain ⟨hexclusive, hkept⟩ := tracks_owned hrun (by rw [hdraws]; decide)
  refine ⟨config, hrun, hexclusive, hfirst, hthird, hkept _ 3 ?_⟩
  rw [hthird]
  exact List.mem_singleton_self 3

/-- The tracks below one. -/
inductive Hangs (packets : List Emitted) (root : Nat) : Nat → Prop
  | root : Hangs packets root root
  | child (uuid : Nat) (key : TrackKey) (hdescribed : Described packets uuid key)
      (hparent : Hangs packets root key.parentUuid) : Hangs packets root uuid

/-- What is described hangs off the process. -/
theorem rooted_hangs {processTrack : Option Nat} {packets : List Emitted}
    (h : Holds (Rooted processTrack) packets) {uuid : Nat} {key : TrackKey}
    (hdescribed : Described packets uuid key) :
    ∃ process, processTrack = some process ∧ Hangs packets process uuid := by
  have hall : ∀ packet ∈ packets, packet ∈ packets → ∀ uuid key,
      packet.content.describes = some (uuid, key) →
        ∃ process, processTrack = some process ∧ Hangs packets process uuid := by
    -- the parent of a track is the process, or has its place already
    have hstrong : Holds (fun before packet =>
        Rooted processTrack before packet ∧ before ⊆ packets) packets := by
      intro before packet after hsplit
      refine ⟨h before packet after hsplit, ?_⟩
      rw [hsplit]
      exact List.subset_append_left _ _
    refine hstrong.induct fun before packet hrooted ih hmem uuid key hdescribes => ?_
    have hdescribed : Described packets uuid key := ⟨packet, hmem, hdescribes⟩
    rcases hrooted.1.1 uuid key hdescribes with hroot | ⟨parentKey, ⟨parent, hbefore, hparent⟩, -⟩
    · exact ⟨_, hroot, .child uuid key hdescribed .root⟩
    · obtain ⟨process, hroot, hhangs⟩ :=
        ih parent hbefore (hrooted.2 hbefore) key.parentUuid parentKey hparent
      exact ⟨process, hroot, .child uuid key hdescribed hhangs⟩
  obtain ⟨packet, hmem, hdescribes⟩ := hdescribed
  exact hall packet hmem hmem uuid key hdescribes

/-- The descriptor of a track and the events on it, as their reader has them. -/
structure Emitted.ShowsTracks (env : Env) (packet : Emitted) : Prop where
  describes : ∀ uuid key, packet.content.describes = some (uuid, key) →
    packet.kind = some (.spanTrack (env.bases.uuid uuid) (env.memory.text key.name)
      (env.bases.uuid key.parentUuid))
  track : ∀ uuid, packet.content.track = some uuid →
    ∃ type, packet.kind = some (.event type (some (env.bases.uuid uuid)))

theorem Emitted.Reads.showsTracks {packet : Emitted} (h : packet.Reads env) :
    packet.ShowsTracks env := by
  constructor
  · intro uuid key hdescribes
    cases hcontent : packet.content with
    | body body =>
        rw [hcontent] at hdescribes
        cases body with
        | trackDescriptor used text parent =>
            cases hdescribes
            exact h.body _ hcontent
        | _ => cases hdescribes
    | _ =>
        rw [hcontent] at hdescribes
        cases hdescribes
  · intro uuid htrack
    cases hcontent : packet.content with
    | body body =>
        rw [hcontent] at htrack
        have hkind := h.body body hcontent
        cases body with
        | lifetimeBegin | lifetimeEnd | pollBegin =>
            cases htrack
            exact ⟨_, hkind⟩
        | enterEnd used flows | instant used metadata visits =>
            change used = some uuid at htrack
            subst htrack
            exact ⟨_, hkind⟩
        | _ => cases htrack
    | _ =>
        rw [hcontent] at htrack
        cases htrack

theorem Emitted.Reads.spanTrack {packet : Emitted} (h : packet.Reads env) {uuid parentUuid : Nat}
    {name : Bytes} (hkind : packet.kind = some (.spanTrack uuid name parentUuid)) :
    ∃ used key, packet.content.describes = some (used, key) ∧ uuid = env.bases.uuid used ∧
      parentUuid = env.bases.uuid key.parentUuid := by
  obtain ⟨body, hcontent, hbody⟩ := h.follows hkind rfl
  cases body with
  | trackDescriptor used text parent =>
      cases hbody
      exact ⟨used, ⟨text, parent⟩, by rw [hcontent]; rfl, rfl, rfl⟩
  | _ => cases hbody

/-- The descriptors of the span tracks make a tree: no track is described twice, each hangs
off the process through tracks that are described before it, and events are on tracks that
were described before them. -/
theorem tracks_tree {env : Env} {nextSequenceId : Nat} {labels : List (system env).Label}
    {config : (system env).Config}
    (hrun : System.run labels (System.idle (State.new nextSequenceId)) = some config) :
    (∀ packet ∈ config.state.trace.packets, packet.ShowsTracks env) ∧
      config.state.trace.packets.Pairwise Emitted.Apart ∧
      Holds (fun before packet => ∀ uuid key,
        packet.content.describes = some (uuid, key) → ∃ process,
          config.state.shared.processTrack = some process ∧ process ≠ uuid ∧
            Hangs before process key.parentUuid) config.state.trace.packets ∧
      Holds (fun before packet => ∀ uuid, packet.content.track = some uuid →
        ∃ key, Described before uuid key) config.state.trace.packets := by
  obtain ⟨frames, hbase, hdrawn, hlegible⟩ := tracking_run hrun
  refine ⟨fun packet hmem => (hlegible.reads hmem).showsTracks, hdrawn.once, ?_,
    hdrawn.rooted.mono fun before packet hrooted uuid htrack => ?_⟩
  · intro before packet after hsplit uuid key hdescribes
    have hdescribed : Described config.state.trace.packets uuid key := by
      refine ⟨packet, ?_, hdescribes⟩
      rw [hsplit]
      exact List.mem_append_right _ List.mem_cons_self
    have hprocess : ∀ process, config.state.shared.processTrack = some process →
        process ≠ uuid := by
      rintro process hprocess rfl
      exact (hdrawn.reserved process (.inl hprocess)).2 key hdescribed
    have hearlier : Holds (Rooted config.state.shared.processTrack) before :=
      (hsplit ▸ hdrawn.rooted : Holds _ (before ++ packet :: after)).of_append
    rcases (hdrawn.rooted before packet after hsplit).1 uuid key hdescribes with
      hroot | ⟨parentKey, hparent, -⟩
    · exact ⟨_, hroot, hprocess _ hroot, .root⟩
    · obtain ⟨process, hroot, hhangs⟩ := rooted_hangs hearlier hparent
      exact ⟨process, hroot, hprocess process hroot, hhangs⟩
  · obtain ⟨key, hdescribed, -⟩ := hrooted.2 uuid htrack
    exact ⟨key, hdescribed⟩

theorem tracksOf_split {packets : List Emitted} {first later}
    {shown : Option (Nat × Nat) × Option Nat} (h : tracksOf packets = first ++ shown :: later) :
    ∃ before packet after, packets = before ++ packet :: after ∧ before.length = first.length ∧
      packet.content.describes.map (fun shown => (shown.1, shown.2.parentUuid)) = shown.1 ∧
        packet.content.track = shown.2 := by
  obtain ⟨before, rest, rfl, rfl, hrest⟩ := List.map_eq_append_iff.1 h
  obtain ⟨packet, after, rfl, rfl, -⟩ := List.map_eq_cons_iff.1 hrest
  exact ⟨before, packet, after, rfl, (List.length_map ..).symm, rfl, rfl⟩

theorem tracks_tree_nested : ∃ config, nestedSpans = some config ∧
    config.state.trace.packets.map Emitted.kind =
      [some (.snapshot [64, 6, 1]), some (.process 5), some (.thread 6),
        some (.spanTrack 7 [112, 111, 108, 108] 5), some (.event 1 (some 7)),
        some (.spanTrack 8 [112, 111, 108, 108] 7), some (.event 1 (some 8)),
        some (.event 2 (some 8)), some (.event 1 (some 8)), some (.event 3 (some 8))] ∧
    config.state.trace.packets.Pairwise Emitted.Apart ∧
    (∃ before packet after key, config.state.trace.packets = before ++ packet :: after ∧
      before.length = 5 ∧ packet.content.describes = some (3, key) ∧
        packet.kind = some (.spanTrack 8 (flowEnv.memory.text key.name) 7) ∧ Hangs before 0 2) ∧
    ∃ before packet after, config.state.trace.packets = before ++ packet :: after ∧
      before.length = 9 ∧ (∃ type, packet.kind = some (.event type (some 8))) ∧
        ∃ key, Described before 3 key := by
  obtain ⟨config, hrun, hnests⟩ := Option.map_eq_some_iff.1 nestedSpans_nests
  rw [decide_eq_true_eq] at hnests
  obtain ⟨⟨-, hprocess⟩, -, htracks⟩ := hnests
  obtain ⟨hshows, hapart, hhangs, hevents⟩ := tracks_tree hrun
  refine ⟨config, hrun, ?_, hapart, ?_, ?_⟩
  · have hkinds := nestedSpans_kinds
    rw [hrun] at hkinds
    exact Option.some.inj hkinds
  · obtain ⟨before, packet, after, hsplit, hlength, hdescribes, -⟩ := tracksOf_split htracks
    obtain ⟨⟨uuid, key⟩, hcontent, hshown⟩ := Option.map_eq_some_iff.1 hdescribes
    simp only [Prod.mk.injEq] at hshown
    obtain ⟨rfl, hparent⟩ := hshown
    obtain ⟨process, hroot, -, hbefore⟩ := hhangs before packet after hsplit 3 key hcontent
    rw [hprocess, Option.some.injEq] at hroot
    subst hroot
    have hkind := (hshows packet (by rw [hsplit]; simp)).describes 3 key hcontent
    rw [hparent] at hkind hbefore
    exact ⟨before, packet, after, key, hsplit, hlength, hcontent, hkind, hbefore⟩
  · rw [← List.cons_append, ← List.append_assoc] at htracks
    obtain ⟨before, packet, after, hsplit, hlength, -, htrack⟩ := tracksOf_split htracks
    refine ⟨before, packet, after, hsplit, hlength, ?_, hevents before packet after hsplit 3 htrack⟩
    exact (hshows packet (by rw [hsplit]; simp)).track 3 htrack

end Drawn

end TracingPerfetto.Layer
