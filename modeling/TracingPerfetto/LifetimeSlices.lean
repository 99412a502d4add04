import TracingPerfetto.TrackDescriptors

/-!
The lifetime slices of the spans: while nothing goes wrong, a track is handed on only when
the slice on it has ended, so the slices of a track follow each other, whatever spans of
whatever threads it is given to.
-/

namespace TracingPerfetto.Layer

open TracingPerfetto.Schema
open TracingPerfetto.Runtime TracingPerfetto.Sequence TracingPerfetto.TrackEvents
open TracingPerfetto.Counters TracingPerfetto.Threads
open TracingPerfetto.History TracingPerfetto.Ownership
open TracingPerfetto.SpanStore (SpanId)

/-- The track of a lifetime slice that a packet begins or ends. -/
def Content.slice : Content → Option Nat
  | .body (.lifetimeBegin uuid _ _) | .body (.lifetimeEnd uuid _ _) => some uuid
  | _ => none

/-- The span whose lifetime slice is open on a track after a packet. -/
def Emitted.opens (packet : Emitted) (uuid : Nat) (current : Option Nat) : Option Nat :=
  if packet.content.slice = some uuid then
    if packet.content.first then packet.span else none
  else current

/-- The span whose lifetime slice is open on a track. -/
def openSlice (uuid : Nat) (packets : List Emitted) : Option Nat :=
  packets.foldl (fun current packet => packet.opens uuid current) none

/-- A slice begins where none is open, and its span ends it. -/
def Alternates (before : List Emitted) (packet : Emitted) : Prop :=
  ∀ uuid, packet.content.slice = some uuid → packet.span.isSome = true ∧
    openSlice uuid before = if packet.content.first then none else packet.span

theorem openSlice_concat (uuid : Nat) (packets : List Emitted) (packet : Emitted) :
    openSlice uuid (packets ++ [packet]) = packet.opens uuid (openSlice uuid packets) :=
  List.foldl_concat _ _ _ _

theorem openSlice_other {uuid : Nat} {packet : Emitted} (packets : List Emitted)
    (h : packet.content.slice ≠ some uuid) :
    openSlice uuid (packets ++ [packet]) = openSlice uuid packets := by
  rw [openSlice_concat, Emitted.opens, if_neg h]

theorem slice_track {content : Content} {uuid : Nat} (h : content.slice = some uuid) :
    content.track = some uuid := by
  cases content with
  | body body =>
      cases body with
      | lifetimeBegin | lifetimeEnd => exact h
      | _ => cases h
  | _ => cases h

theorem openSlice_track {uuid span : Nat} {packets : List Emitted}
    (h : openSlice uuid packets = some span) :
    ∃ packet ∈ packets, packet.content.track = some uuid := by
  induction packets using List.reverseRecOn with
  | nil => cases h
  | append_singleton packets packet ih =>
      by_cases hslice : packet.content.slice = some uuid
      · exact ⟨packet, List.mem_append_right _ List.mem_cons_self, slice_track hslice⟩
      · rw [openSlice_other packets hslice] at h
        obtain ⟨earlier, hmem, htrack⟩ := ih h
        exact ⟨earlier, List.mem_append_left _ hmem, htrack⟩

theorem openSlice_undescribed {processTrack : Option Nat} {packets : List Emitted} {uuid : Nat}
    (hrooted : Holds (Rooted processTrack) packets) (h : ∀ key, ¬ Described packets uuid key) :
    openSlice uuid packets = none := by
  cases hopen : openSlice uuid packets with
  | none => rfl
  | some span =>
      obtain ⟨packet, hmem, htrack⟩ := openSlice_track hopen
      obtain ⟨before, after, hsplit⟩ := List.append_of_mem hmem
      obtain ⟨key, hdescribed, -⟩ := (hrooted before packet after hsplit).2 uuid htrack
      refine absurd (hdescribed.mono ?_) (h key)
      rw [hsplit]
      exact List.subset_append_left _ _

/-! ## Who has which slice -/

/-- The span whose slice a callback has begun, or is to end. -/
def Frame.Slice (frame : Frame) (span : Nat) : Prop :=
  (∃ spanId metadata parent, frame.call = .newSpan spanId metadata parent) ∧
      span = frame.instance_ ∨
    ∃ found, frame.taken = some found ∧ span = found.entry.instance_

/-- The slices on the tracks in the hands of a callback. -/
structure Frame.Sliced (packets : List Emitted) (frame : Frame) : Prop where
  closed : ∀ held ∈ frame.held, held.begun = false → openSlice held.uuid packets = none
  begun : ∀ held ∈ frame.held, held.begun = true →
    ∃ span, frame.Slice span ∧ openSlice held.uuid packets = some span
  taken : ∀ found, frame.taken = some found →
    frame.took = true ∧ ∃ spanId, frame.call = .close spanId

/-- The places that give a track to whoever asks. -/
def Holder.gives : Holder → Bool
  | .slots _ | .queue _ => true
  | _ => false

/-- A slice is open on the track of a span, and none on a track that is free. -/
structure Slices (state : State) (frames : Frames) : Prop where
  frames : Every (fun _ frame => frame.Sliced state.trace.packets) frames
  entries : ∀ spanId instance_ pool uuid, (state.spans.entries spanId).map Entry.fixed =
    some (instance_, pool, some uuid) → openSlice uuid state.trace.packets = some instance_
  free : ∀ holder, holder.gives = true → ∀ uuid ∈ state.stored holder,
    openSlice uuid state.trace.packets = none
  alternates : Holds Alternates state.trace.packets

section Slices

variable {env : Env} {state state' : State} {frames : Frames} {thread : ThreadId}
  {frame frame' : Frame} {rest : List Frame} {choice : Choice} {packets : List Emitted}

theorem Frame.Sliced.top (h : frame.Sliced packets) (hunexcused : frame.excused = false)
    {uuid : Nat} {key : TrackKey} (hholds : frame.Holds uuid key) :
    openSlice uuid packets = none := by
  obtain ⟨begun, hhead, hexcuse⟩ := hholds
  cases begun with
  | false => exact h.closed _ (List.mem_of_head? hhead) rfl
  | true =>
      rw [hexcuse rfl] at hunexcused
      cases hunexcused

theorem Frame.Sliced.takes (h : frame.Sliced packets) (hcall : SameCall frame frame')
    (htook : frame'.took = frame.took) (htaken : frame'.taken = frame.taken)
    (hheld : ∀ held ∈ frame'.held, held ∈ frame.held ∨
      held.begun = false ∧ openSlice held.uuid packets = none) : frame'.Sliced packets where
  closed := fun held hmem hbegun =>
    (hheld held hmem).elim (fun hold => h.closed held hold hbegun) And.right
  begun := by
    intro held hmem hbegun
    rcases hheld held hmem with hold | ⟨hnot, -⟩
    · obtain ⟨span, hslice, hopen⟩ := h.begun held hold hbegun
      refine ⟨span, ?_, hopen⟩
      rw [Frame.Slice, hcall.call, hcall.instance_, htaken]
      exact hslice
    · rw [hnot] at hbegun
      cases hbegun
  taken := by
    rw [htook, htaken, hcall.call]
    exact h.taken

namespace Slices

/-- A step of the top callback that writes nothing. -/
theorem step (h : Slices state frames) (hthread : frames thread = frame :: rest)
    (hpackets : state'.trace.packets = state.trace.packets)
    (hframe : frame'.Sliced state.trace.packets)
    (hentries : ∀ spanId instance_ pool uuid, (state'.spans.entries spanId).map Entry.fixed =
      some (instance_, pool, some uuid) → openSlice uuid state.trace.packets = some instance_)
    (hfree : ∀ holder, holder.gives = true → ∀ uuid ∈ state'.stored holder,
      uuid ∈ state.stored holder ∨ openSlice uuid state.trace.packets = none) :
    Slices state' (Function.update frames thread (frame' :: rest)) := by
  constructor
  · rw [hpackets]
    exact h.frames.step hthread hframe fun _ _ hvalue => hvalue
  · rw [hpackets]
    exact hentries
  · rw [hpackets]
    intro holder hgives uuid hmem
    exact (hfree holder hgives uuid hmem).elim (h.free holder hgives uuid) id
  · rw [hpackets]
    exact h.alternates

end Slices

theorem mem_slots {uuid : Nat} :
    uuid ∈ state.stored (.slots thread) ↔ ∃ slot cached, state.slots thread slot = some cached ∧
      cached.localUuid = some uuid := by
  simp only [State.stored, Slots.uuids, List.mem_flatMap, List.mem_finRange, true_and, slotUuid,
    Option.mem_toList, Option.bind_eq_some_iff]

theorem slot_free {slot : Fin trackPoolSlots} {cached : Option CachedTrackPool}
    (hslots : state'.slots = state.withSlot thread slot cached)
    (hpools : state'.pools = state.pools)
    (hcached : ∀ uuid ∈ slotUuid cached, uuid ∈ state.stored (.slots thread) ∨
      openSlice uuid packets = none) :
    ∀ holder, holder.gives = true → ∀ uuid ∈ state'.stored holder,
      uuid ∈ state.stored holder ∨ openSlice uuid packets = none := by
  intro holder hgives uuid hmem
  cases holder with
  | callbacks | entry => cases hgives
  | queue number =>
      rw [State.stored, hpools] at hmem
      exact .inl hmem
  | slots other =>
      rw [mem_slots, hslots, State.withSlot] at hmem
      obtain ⟨place, value, hvalue, huuid⟩ := hmem
      by_cases hother : other = thread
      · subst hother
        rw [Function.update_self] at hvalue
        by_cases hplace : place = slot
        · subst hplace
          rw [Function.update_self] at hvalue
          subst hvalue
          exact hcached uuid (Option.mem_toList.2 huuid)
        · rw [Function.update_of_ne hplace] at hvalue
          exact .inl (mem_slots.2 ⟨place, value, hvalue, huuid⟩)
      · rw [Function.update_of_ne hother] at hvalue
        exact .inl (mem_slots.2 ⟨place, value, hvalue, huuid⟩)

theorem claimed_free {uuid : Option Nat} {key : TrackKey} {held : List Held}
    (huuid : ∀ used, uuid = some used → openSlice used packets = none) :
    ∀ one ∈ claimed uuid key held, one ∈ held ∨
      one.begun = false ∧ openSlice one.uuid packets = none := by
  intro one hmem
  cases uuid with
  | none => exact .inl hmem
  | some uuid =>
      rcases List.mem_cons.1 hmem with rfl | hold
      · exact .inr ⟨rfl, huuid uuid rfl⟩
      · exact .inl hold

theorem slices_pools (h : Slices state frames) (hthread : frames thread = frame :: rest)
    (hunexcused : frame.excused = false) {action : PoolAct} {reply : action.Reply}
    (hpre : pre env frame (.pools action))
    (hperform : perform env thread (.pools action) choice state = some (reply, state'))
    (hslots : state'.slots = state.slots)
    (hfixed : ∀ spanId, (state'.spans.entries spanId).map Entry.fixed =
      (state.spans.entries spanId).map Entry.fixed) :
    Slices state' (Function.update frames thread (next frame (.pools action) reply :: rest)) := by
  have hpackets : state'.trace.packets = state.trace.packets := perform_packets hperform (by simp)
  have hsliced := h.frames thread frame (Guards.top_mem hthread)
  obtain ⟨hcall, hspans, -⟩ := @next_pools frame action reply
  have hstep : (∀ held ∈ (next frame (.pools action) reply).held, held ∈ frame.held ∨
        held.begun = false ∧ openSlice held.uuid state.trace.packets = none) →
      (∀ number, ∀ uuid ∈ state'.pools.queue number, uuid ∈ state.pools.queue number ∨
        openSlice uuid state.trace.packets = none) →
      Slices state' (Function.update frames thread (next frame (.pools action) reply :: rest)) := by
    intro hheld hqueue
    refine h.step hthread hpackets (hsliced.takes hcall hspans.took hspans.taken hheld)
      (fun spanId => ?_) fun holder hgives uuid hmem => ?_
    · rw [hfixed spanId]
      exact h.entries spanId
    · cases holder with
      | callbacks | entry => cases hgives
      | slots other =>
          rw [State.stored, hslots] at hmem
          exact .inl hmem
      | queue number => exact hqueue number uuid hmem
  cases action with
  | find key =>
      obtain ⟨-, rfl⟩ := perform_pools hperform
      exact hstep (fun _ hmem => .inl hmem) fun _ _ hmem => .inl hmem
  | create key =>
      obtain ⟨-, rfl⟩ := perform_pools hperform
      refine hstep (fun _ hmem => .inl hmem) fun number uuid hmem => .inl ?_
      rwa [← (state.pools.create_spec key).1]
  | claim pool =>
      obtain ⟨rfl, hqueue, -⟩ := claim_pool hperform
      refine hstep (claimed_free fun uuid huuid => ?_) fun number uuid hmem => ?_
      · exact h.free (.queue pool.number) rfl uuid (List.mem_of_head? huuid)
      · rw [hqueue] at hmem
        by_cases hnumber : number = pool.number
        · subst hnumber
          rw [Function.update_self] at hmem
          exact .inl (List.mem_of_mem_tail hmem)
        · rw [Function.update_of_ne hnumber] at hmem
          exact .inl hmem
  | release pool uuid =>
      obtain ⟨-, hholds⟩ := hpre
      obtain ⟨⟨tracks, hqueue, htracks⟩, -⟩ := release_pool hperform
      refine hstep (fun _ hmem => .inl (List.mem_of_mem_tail hmem)) fun number used hmem => ?_
      rw [hqueue] at hmem
      by_cases hnumber : number = pool.number
      · subst hnumber
        rw [Function.update_self] at hmem
        rcases htracks with rfl | rfl
        · exact .inl hmem
        · rcases List.mem_append.1 hmem with hold | hlast
          · exact .inl hold
          · rw [List.mem_singleton] at hlast
            subst hlast
            exact .inr (hsliced.top hunexcused hholds)
      · rw [Function.update_of_ne hnumber] at hmem
        exact .inl hmem

theorem slices_context (h : Slices state frames) (hknown : Known env state frames)
    (hthread : frames thread = frame :: rest) (hunexcused : frame.excused = false)
    {action : ContextAct} {reply : action.Reply} (hpre : pre env frame (.context action))
    (hperform : perform env thread (.context action) choice state = some (reply, state'))
    (hfixed : ∀ spanId, (state'.spans.entries spanId).map Entry.fixed =
      (state.spans.entries spanId).map Entry.fixed) :
    Slices state' (Function.update frames thread (next frame (.context action) reply :: rest)) := by
  have hpackets : state'.trace.packets = state.trace.packets := perform_packets hperform (by simp)
  have hpools : state'.pools = state.pools := pools_same hperform (by simp)
  have hmem : frame ∈ frames thread := Guards.top_mem hthread
  have hsliced := h.frames thread frame hmem
  obtain ⟨hcall, hspans, -⟩ := @next_context frame action reply
  have hstep : (∀ held ∈ (next frame (.context action) reply).held, held ∈ frame.held ∨
        held.begun = false ∧ openSlice held.uuid state.trace.packets = none) →
      (∀ holder, holder.gives = true → ∀ uuid ∈ state'.stored holder,
        uuid ∈ state.stored holder ∨ openSlice uuid state.trace.packets = none) →
      Slices state'
        (Function.update frames thread (next frame (.context action) reply :: rest)) := by
    intro hheld hfree
    refine h.step hthread hpackets (hsliced.takes hcall hspans.took hspans.taken hheld)
      (fun spanId => ?_) hfree
    rw [hfixed spanId]
    exact h.entries spanId
  have hsame : state'.slots = state.slots → ∀ holder, holder.gives = true →
      ∀ uuid ∈ state'.stored holder,
        uuid ∈ state.stored holder ∨ openSlice uuid state.trace.packets = none := by
    intro hslots holder hgives uuid hmem
    left
    cases holder with
    | callbacks | entry => cases hgives
    | slots => rwa [State.stored, hslots] at hmem
    | queue => rwa [State.stored, hpools] at hmem
  -- the track in a slot of the thread is free
  have hlocal : ∀ slot cached uuid, state.slots thread slot = some cached →
      cached.localUuid = some uuid → openSlice uuid state.trace.packets = none :=
    fun slot cached uuid hcached huuid =>
      h.free (.slots thread) rfl uuid (mem_slots.2 ⟨slot, cached, hcached, huuid⟩)
  cases action with
  | lookup =>
      refine hstep (fun held hheld => ?_)
        (hsame (perform_slots hperform (by simp) fun act heq => by cases heq; rfl))
      cases reply <;> exact .inl hheld
  | insert sequenceId uuid anchor =>
      obtain ⟨hvacant, -⟩ := hpre
      exact hstep (fun _ hheld => .inl hheld) (hsame (perform_slots hperform (fun _ _ _ _ =>
        hknown.borrowed.vacant thread frame hmem hvacant) fun act heq => by cases heq; rfl))
  | dropGuard | takeRetained | returnRetained =>
      exact hstep (fun _ hheld => .inl hheld)
        (hsame (perform_slots hperform (by simp) fun act heq => by cases heq; rfl))
  | cachedTrack key =>
      rcases cachedTrack_slots hperform with ⟨rfl, hslots⟩ |
          ⟨slot, cached, pool, hcached, -, rfl, -, hslots⟩
      · exact hstep (fun _ hheld => .inl hheld) (hsame hslots)
      · exact hstep (claimed_free fun uuid huuid => hlocal slot cached uuid hcached huuid)
          (slot_free hslots hpools fun _ huuid => by cases huuid)
  | cachePool key pool localUuid =>
      obtain ⟨-, -, -, hholds⟩ := hpre
      obtain ⟨slot, hslots⟩ := cachePool_slots hperform
      refine hstep (fun held hheld => .inl ?_) (slot_free hslots hpools fun uuid huuid => .inr ?_)
      · simp only [next] at hheld
        split at hheld
        · exact List.mem_of_mem_tail hheld
        · exact hheld
      · exact hsliced.top hunexcused (hholds uuid (Option.mem_toList.1 huuid))
  | evict =>
      obtain ⟨slot, hreply, hslots⟩ := evict_slots hperform
      refine hstep (fun held hheld => ?_) (slot_free hslots hpools fun _ huuid => by cases huuid)
      cases reply with
      | none => exact .inl hheld
      | some local_ =>
          obtain ⟨old, hold, hgiven⟩ := Option.bind_eq_some_iff.1 hreply.symm
          rw [Option.map_eq_some_iff] at hgiven
          obtain ⟨uuid, huuid, rfl⟩ := hgiven
          rcases List.mem_cons.1 hheld with rfl | hbefore
          · exact .inr ⟨rfl, hlocal slot old uuid hold huuid⟩
          · exact .inl hbefore
  | releaseLocal pool uuid =>
      obtain ⟨-, -, hholds⟩ := hpre
      rcases releaseLocal_slots hperform with ⟨hreply, hslots⟩ |
          ⟨rfl, slot, cached, -, -, -, hslots⟩
      · refine hstep (fun held hheld => .inl ?_) (hsame hslots)
        cases reply with
        | kept => exact absurd rfl hreply
        | full | uncached => exact hheld
      · refine hstep (fun held hheld => .inl (List.mem_of_mem_tail hheld))
          (slot_free hslots hpools fun used hused => .inr ?_)
        cases Option.mem_toList.1 hused
        exact hsliced.top hunexcused hholds
  | destroy =>
      obtain ⟨hreply, hslots⟩ := destroy_slots hperform
      refine hstep (fun held hheld => ?_) fun holder hgives uuid hmem => .inl ?_
      · rcases List.mem_append.1 hheld with hnew | hold
        · obtain ⟨local_, hgiven, rfl⟩ := List.mem_map.1 hnew
          rw [hreply, List.mem_filterMap] at hgiven
          obtain ⟨slot, -, hslotted⟩ := hgiven
          obtain ⟨cached, hcached, hgiven⟩ := Option.bind_eq_some_iff.1 hslotted
          rw [Option.map_eq_some_iff] at hgiven
          obtain ⟨uuid, huuid, rfl⟩ := hgiven
          exact .inr ⟨rfl, hlocal slot cached uuid hcached huuid⟩
        · exact .inl hold
      · cases holder with
        | callbacks | entry => cases hgives
        | queue => rwa [State.stored, hpools] at hmem
        | slots other =>
            rw [mem_slots, hslots] at hmem
            obtain ⟨slot, cached, hcached, huuid⟩ := hmem
            by_cases hother : other = thread
            · subst hother
              rw [Function.update_self] at hcached
              cases hcached
            · rw [Function.update_of_ne hother] at hcached
              exact mem_slots.2 ⟨slot, cached, hcached, huuid⟩

theorem slices_spans (h : Slices state frames) (hknown : Known env state frames)
    (hthread : frames thread = frame :: rest) {action : SpanAct} {reply : action.Reply}
    (hpre : pre env frame (.spans action))
    (hperform : perform env thread (.spans action) choice state = some (reply, state')) :
    Slices state' (Function.update frames thread (next frame (.spans action) reply :: rest)) := by
  have hpackets : state'.trace.packets = state.trace.packets := perform_packets hperform (by simp)
  have hmem : frame ∈ frames thread := Guards.top_mem hthread
  have hsliced := h.frames thread frame hmem
  have hslots : state'.slots = state.slots := perform_slots hperform (by simp) (by simp)
  have hpools : state'.pools = state.pools := pools_same hperform (by simp)
  obtain ⟨hcall, -⟩ := @next_spans frame action reply
  have hstep : (next frame (.spans action) reply).Sliced state.trace.packets →
      (∀ spanId instance_ pool uuid, (state'.spans.entries spanId).map Entry.fixed =
        some (instance_, pool, some uuid) → openSlice uuid state.trace.packets = some instance_) →
      Slices state' (Function.update frames thread (next frame (.spans action) reply :: rest)) := by
    intro hframe hentries
    refine h.step hthread hpackets hframe hentries fun holder hgives uuid hmem => .inl ?_
    cases holder with
    | callbacks | entry => cases hgives
    | slots => rwa [State.stored, hslots] at hmem
    | queue => rwa [State.stored, hpools] at hmem
  cases action with
  | insert spanId instance_ data =>
      obtain ⟨-, ⟨metadata, parent, hnew⟩, rfl, -, -, -, -, hpublishes, -⟩ := hpre
      refine hstep (hsliced.takes hcall rfl rfl fun held hheld => .inl ?_)
        fun other instance_ pool uuid hfixed => ?_
      · simp only [next] at hheld
        split at hheld
        · exact List.mem_of_mem_tail hheld
        · exact hheld
      · obtain ⟨spans, haction, rfl⟩ := perform_spans_act hperform
        simp only [SpanAct.perform, Option.map_eq_some_iff, Prod.mk.injEq, true_and] at haction
        obtain ⟨inserted, hinsert, rfl⟩ := haction
        obtain ⟨-, hentries, -⟩ := insert_spec hinsert
        simp only [hentries] at hfixed
        by_cases hother : other = spanId
        · subst hother
          simp only [Function.update_self, Option.map_some, Entry.fixed, Option.some.injEq,
            Prod.mk.injEq] at hfixed
          obtain ⟨rfl, -, huuid⟩ := hfixed
          rw [Frame.Publishes, huuid] at hpublishes
          obtain ⟨key, hhead, -⟩ := hpublishes
          -- its slice is the one that the callback has begun
          obtain ⟨span, ⟨-, rfl⟩ | ⟨found, htaken, -⟩, hopen⟩ :=
            hsliced.begun _ (List.mem_of_head? hhead) rfl
          · exact hopen
          · obtain ⟨-, closing, hclose⟩ := hsliced.taken found htaken
            rw [hnew] at hclose
            cases hclose
        · rw [Function.update_of_ne hother] at hfixed
          exact h.entries other instance_ pool uuid hfixed
  | take spanId =>
      obtain ⟨-, hclose, htook, -⟩ := hpre
      obtain ⟨spans, haction, rfl⟩ := perform_spans_act hperform
      obtain ⟨-, -, -, ⟨shown, rfl, -, hentry, -, hentries⟩ | ⟨rfl, -, hentries⟩⟩ :=
        take_spec haction
      · have hnone : ∀ held ∈ frame.held, held.begun = true → False := by
          intro held hheld hbegun
          obtain ⟨span, ⟨⟨created, metadata, parent, hnew⟩, -⟩ | ⟨found, htaken, -⟩, -⟩ :=
            hsliced.begun held hheld hbegun
          · rw [hclose] at hnew
            cases hnew
          · rw [(hsliced.taken found htaken).1] at htook
            cases htook
        refine hstep ⟨fun held hheld hbegun => ?_, fun held hheld hbegun => ?_,
          fun found _ => ⟨rfl, spanId, hclose⟩⟩ fun other instance_ pool uuid hfixed => ?_
        · simp only [next] at hheld
          cases huuid : shown.data.trackUuid with
          | none =>
              rw [huuid] at hheld
              exact hsliced.closed held hheld hbegun
          | some uuid =>
              rw [huuid] at hheld
              rcases List.mem_cons.1 hheld with rfl | hold
              · cases hbegun
              · exact hsliced.closed held hold hbegun
        · simp only [next] at hheld
          cases huuid : shown.data.trackUuid with
          | none =>
              rw [huuid] at hheld
              exact absurd hbegun (hnone held hheld)
          | some uuid =>
              rw [huuid] at hheld
              rcases List.mem_cons.1 hheld with rfl | hold
              · refine ⟨shown.entry.instance_, .inr ⟨shown, rfl, rfl⟩,
                  h.entries spanId _ shown.data.trackPool uuid ?_⟩
                rw [hentry, Option.map_some, Entry.fixed, ← huuid]
                rfl
              · exact absurd hbegun (hnone held hold)
        · simp only [hentries] at hfixed
          by_cases hother : other = spanId
          · subst hother
            rw [Function.update_self] at hfixed
            cases hfixed
          · rw [Function.update_of_ne hother] at hfixed
            exact h.entries other instance_ pool uuid hfixed
      · refine hstep ⟨hsliced.closed, fun held hheld hbegun => ?_, fun _ hfound => by cases hfound⟩
          fun other instance_ pool uuid hfixed => ?_
        · obtain ⟨span, hslice | ⟨found, htaken, -⟩, hopen⟩ := hsliced.begun held hheld hbegun
          · exact ⟨span, .inl hslice, hopen⟩
          · rw [(hsliced.taken found htaken).1] at htook
            cases htook
        · simp only [hentries] at hfixed
          exact h.entries other instance_ pool uuid hfixed
  | _ =>
      refine hstep (hsliced.takes hcall rfl rfl fun _ hheld => .inl hheld)
        fun other instance_ pool uuid hfixed => h.entries other instance_ pool uuid ?_
      rwa [← fixed_same hknown.guards hmem hpre hperform (by simp) (by simp)]

/-! ## Packets -/

theorem head_apart (h : Owners state frames) (hthread : frames thread = frame :: rest)
    {held : Held} (hhead : frame.held.head? = some held) :
    (∀ one ∈ frame.held.tail, one.uuid ≠ held.uuid) ∧
      (∀ other, ∀ value ∈ (if other = thread then rest else frames other),
        ∀ one ∈ value.held, one.uuid ≠ held.uuid) ∧
      ∀ holder, held.uuid ∉ state.stored holder := by
  have hcount := h.exclusive.count_le (.callbacks thread) held.uuid
  rw [Owners.callbacks_count hthread, head_count hhead, List.count_singleton_self] at hcount
  have hthis : held.uuid ∈ holding state frames (.callbacks thread) :=
    List.mem_flatMap.2 ⟨frame, Guards.top_mem hthread,
      List.mem_append_right _ (List.mem_map_of_mem (List.mem_of_head? hhead))⟩
  refine ⟨fun one hmem heq => ?_, fun other value hvalue one hone heq => ?_, fun holder hmem => ?_⟩
  · have hpositive : 0 < (frame.held.tail.map Held.uuid).count held.uuid :=
      List.count_pos_iff.2 (heq ▸ List.mem_map_of_mem hmem)
    omega
  · have huuids : held.uuid ∈ value.uuids :=
      List.mem_append_right _ (heq ▸ List.mem_map_of_mem hone)
    by_cases hother : other = thread
    · subst hother
      rw [if_pos rfl] at hvalue
      have hpositive : 0 < (rest.flatMap Frame.uuids).count held.uuid :=
        List.count_pos_iff.2 (List.mem_flatMap.2 ⟨value, hvalue, huuids⟩)
      omega
    · rw [if_neg hother] at hvalue
      have halone := h.exclusive.alone _ (.callbacks other) held.uuid hthis
        (List.mem_flatMap.2 ⟨value, hvalue, huuids⟩)
      cases halone
      exact hother rfl
  · have hholds : held.uuid ∈ holding state frames holder := by
      cases holder with
      | callbacks => cases hmem
      | entry | slots | queue => exact hmem
    have halone := h.exclusive.alone _ holder held.uuid hthis hholds
    subst halone
    cases hmem

/-- Who begins or ends a slice has its track, and does so for the span of it. -/
theorem Frame.Sliced.writes (h : frame.Sliced packets) {span : Option Nat} {calledAt : Nat}
    {content : Content} (hpre : pre env frame (.sequence (.write span calledAt content)))
    {uuid : Nat} (hslice : content.slice = some uuid) :
    ∃ key shown, frame.held.head? = some ⟨uuid, key, !content.first⟩ ∧ span = some shown ∧
      frame.Slice shown ∧ openSlice uuid packets = (if content.first then none else some shown) ∧
      (frame.wrote content).held = ⟨uuid, key, content.first⟩ :: frame.held.tail := by
  obtain ⟨-, -, hemits, hwrites⟩ := hpre
  have hflips : ∀ (held : Held) (change : Held → Held), frame.held.head? = some held →
      frame.held.modifyHead change = change held :: frame.held.tail := by
    intro held change hhead
    obtain ⟨others, hheld⟩ := List.head?_eq_some_iff.1 hhead
    rw [hheld]
    rfl
  cases content with
  | body body =>
      cases body with
      | lifetimeBegin used metadata visits =>
          cases hslice
          obtain ⟨-, ⟨key, hhead, -⟩, hguard, spanId, metadata', parent, hnew⟩ := hemits
          cases span with
          | none => cases hwrites.2.2
          | some shown =>
              refine ⟨some key, shown, hhead, rfl, ?_,
                h.closed _ (List.mem_of_head? hhead) rfl, hflips _ _ hhead⟩
              cases hwrites with
              | begin _ _ _ _ _ _ _ _ hspan => exact .inl ⟨⟨spanId, metadata', parent, hnew⟩, hspan⟩
              | slice found hguarded =>
                  rw [hguard] at hguarded
                  cases hguarded
              | lifetimeEnd found htaken _ _ hspan => exact .inr ⟨found, htaken, hspan⟩
      | lifetimeEnd used flows fields =>
          cases hslice
          obtain ⟨-, ⟨key, hhead⟩, -⟩ := hemits
          cases span with
          | none => cases hwrites.2.1
          | some shown =>
              cases hwrites with
              | begin _ _ _ _ _ _ _ _ _ hcontent => cases hcontent
              | slice _ _ _ _ _ _ hlast => cases hlast
              | lifetimeEnd found htaken _ _ hspan =>
                  have hshown : frame.Slice shown := .inr ⟨found, htaken, hspan⟩
                  refine ⟨key, shown, hhead, rfl, hshown, ?_, hflips _ _ hhead⟩
                  obtain ⟨span, ⟨⟨spanId, metadata, parent, hnew⟩, -⟩ | ⟨other, hother, rfl⟩,
                    hopen⟩ := h.begun _ (List.mem_of_head? hhead) rfl
                  · obtain ⟨-, closing, hclose⟩ := h.taken found htaken
                    rw [hnew] at hclose
                    cases hclose
                  · rw [htaken] at hother
                    cases hother
                    rw [hopen, ← hspan]
                    rfl
      | _ => cases hslice
  | _ => cases hslice

theorem sliced_wrote {content : Content} {packets' : List Emitted} (h : frame.Sliced packets)
    (hslice : content.slice = none)
    (hkeep : ∀ uuid, openSlice uuid packets' = openSlice uuid packets)
    (hfresh : ∀ uuid key, content.describes = some (uuid, key) → openSlice uuid packets = none) :
    (frame.wrote content).Sliced packets' := by
  have hpackets : frame.Sliced packets' := by
    refine ⟨fun held hmem hbegun => ?_, fun held hmem hbegun => ?_, h.taken⟩
    · rw [hkeep]
      exact h.closed held hmem hbegun
    · rw [hkeep]
      exact h.begun held hmem hbegun
  obtain ⟨hcall, hspans, -⟩ := wrote_same frame content
  refine hpackets.takes hcall hspans.took hspans.taken fun held hmem => ?_
  cases content with
  | body body =>
      cases body with
      | trackDescriptor uuid name parentUuid =>
          rcases List.mem_cons.1 hmem with rfl | hold
          · refine .inr ⟨rfl, ?_⟩
            rw [hkeep]
            exact hfresh uuid ⟨name, parentUuid⟩ rfl
          · exact .inl hold
      | lifetimeBegin | lifetimeEnd => cases hslice
      | _ => exact .inl hmem
  | _ => exact .inl hmem

theorem slices_write (h : Slices state frames) (hbase : Tracking env state frames)
    (hdrawn : Drawn state frames) (hthread : frames thread = frame :: rest) {span : Option Nat}
    {calledAt : Nat} {content : Content} {reply : Unit}
    (hpre : pre env frame (.sequence (.write span calledAt content)))
    (hperform : perform env thread (.sequence (.write span calledAt content)) choice state =
      some (reply, state')) :
    Slices state' (Function.update frames thread
      (next frame (.sequence (.write span calledAt content)) reply :: rest)) := by
  have hmem : frame ∈ frames thread := Guards.top_mem hthread
  have hsliced := h.frames thread frame hmem
  have hnext : ∀ packets, (frame.wrote content).Sliced packets →
      (next frame (.sequence (.write span calledAt content)) reply).Sliced packets :=
    fun _ hwrote => hwrote.takes ⟨rfl, rfl, rfl⟩ rfl rfl fun _ hheld => .inl hheld
  obtain ⟨packet, hpackets, -, rfl, rfl, -⟩ := perform_write hperform
  have hkeep : ∀ uuid, packet.content.slice ≠ some uuid →
      openSlice uuid state'.trace.packets = openSlice uuid state.trace.packets := by
    intro uuid hother
    rw [hpackets, openSlice_other _ hother]
  have hspans : state'.spans = state.spans := perform_spans hperform (by simp)
  have hstored : state'.stored = state.stored :=
    stored_same (perform_slots hperform (by simp) (by simp))
      (congrArg Pools.queue (pools_same hperform (by simp))) (by
        funext spanId
        rw [State.track, hspans]
        rfl)
  cases hslice : packet.content.slice with
  | none =>
      have hsame : ∀ uuid, openSlice uuid state'.trace.packets =
          openSlice uuid state.trace.packets :=
        fun uuid => hkeep uuid (by rw [hslice]; simp)
      constructor
      · refine h.frames.step hthread
          (hnext _ (sliced_wrote hsliced hslice hsame fun uuid key hdescribes => ?_))
          fun _ value hvalue => ⟨fun held hheld hbegun => ?_, fun held hheld hbegun => ?_,
            hvalue.taken⟩
        · -- what is described now was not before
          obtain ⟨-, -, hemits, -⟩ := hpre
          obtain ⟨hfresh, -⟩ := hemits.describes hdescribes
          exact openSlice_undescribed hdrawn.rooted (hdrawn.fresh thread frame hmem uuid hfresh).1
        · rw [hsame]
          exact hvalue.closed held hheld hbegun
        · rw [hsame]
          exact hvalue.begun held hheld hbegun
      · intro spanId instance_ pool uuid hfixed
        rw [hsame]
        exact h.entries spanId instance_ pool uuid (hspans ▸ hfixed)
      · intro holder hgives uuid hfree
        rw [hsame]
        exact h.free holder hgives uuid (hstored ▸ hfree)
      · rw [hpackets]
        refine h.alternates.concat fun uuid hsome => ?_
        rw [hslice] at hsome
        cases hsome
  | some uuid =>
      obtain ⟨key, shown, hhead, hspan, hshown, hopen, hheld⟩ := hsliced.writes hpre hslice
      obtain ⟨htail, hothers, hplaces⟩ := head_apart hbase.owners hthread hhead
      have hother : ∀ used, used ≠ uuid →
          openSlice used state'.trace.packets = openSlice used state.trace.packets :=
        fun used hne => hkeep used (by rw [hslice]; exact fun heq => hne (Option.some.inj heq).symm)
      have hnow : openSlice uuid state'.trace.packets =
          if packet.content.first then some shown else none := by
        rw [hpackets, openSlice_concat, Emitted.opens, if_pos hslice, hspan]
      have hvalue : ∀ value : Frame, value.Sliced state.trace.packets →
          (∀ one ∈ value.held, one.uuid ≠ uuid) → value.Sliced state'.trace.packets := by
        intro value hvalue hne
        refine ⟨fun held hone hbegun => ?_, fun held hone hbegun => ?_, hvalue.taken⟩
        · rw [hother _ (hne held hone)]
          exact hvalue.closed held hone hbegun
        · rw [hother _ (hne held hone)]
          exact hvalue.begun held hone hbegun
      constructor
      · apply every_update
        · intro value hmember
          rcases List.mem_cons.1 hmember with rfl | hrest
          · obtain ⟨hcall, hsame, -⟩ := wrote_same frame packet.content
            have hslices : ∀ used, frame.Slice used → (frame.wrote packet.content).Slice used := by
              intro used hused
              rw [Frame.Slice, hcall.call, hcall.instance_, hsame.taken]
              exact hused
            refine hnext _ ⟨fun held hone hbegun => ?_, fun held hone hbegun => ?_, ?_⟩
            · rw [hheld] at hone
              rcases List.mem_cons.1 hone with rfl | hold
              · change packet.content.first = false at hbegun
                rw [hnow, hbegun]
                rfl
              · rw [hother _ (htail held hold)]
                exact hsliced.closed held (List.mem_of_mem_tail hold) hbegun
            · rw [hheld] at hone
              rcases List.mem_cons.1 hone with rfl | hold
              · change packet.content.first = true at hbegun
                refine ⟨shown, hslices shown hshown, ?_⟩
                rw [hnow, hbegun]
                rfl
              · obtain ⟨used, hused, hbefore⟩ :=
                  hsliced.begun held (List.mem_of_mem_tail hold) hbegun
                exact ⟨used, hslices used hused, by rw [hother _ (htail held hold), hbefore]⟩
            · rw [hsame.took, hsame.taken, hcall.call]
              exact hsliced.taken
          · refine hvalue value (h.frames thread value (Guards.rest_mem hthread hrest))
              (hothers thread value ?_)
            rw [if_pos rfl]
            exact hrest
        · intro other hne value hmember
          refine hvalue value (h.frames other value hmember) (hothers other value ?_)
          rw [if_neg hne]
          exact hmember
      · intro spanId instance_ pool used hfixed
        rw [hspans] at hfixed
        rw [hother used ?_]
        · exact h.entries spanId instance_ pool used hfixed
        · rintro rfl
          refine hplaces (.entry spanId) (Option.mem_toList.2 ?_)
          rw [track_fixed, hfixed]
          rfl
      · intro holder hgives used hfree
        rw [hstored] at hfree
        rw [hother used ?_]
        · exact h.free holder hgives used hfree
        · rintro rfl
          exact hplaces holder hfree
      · rw [hpackets]
        refine h.alternates.concat fun used hsome => ?_
        rw [hslice, Option.some.injEq] at hsome
        subst hsome
        rw [hspan]
        exact ⟨rfl, hopen⟩

/-! ## Runs -/

theorem slices_kept (env : Env) :
    KeepsInv env AnyCall
      (fun state frames => Excuses env state frames ∧ Tracking env state frames ∧
        Drawn state frames)
      (fun state frames => state.Clean → Slices state frames) where
  act := by
    rintro state frames thread frame rest action choice reply state' ⟨hexcuses, hbase, hdrawn⟩ h
      hthread hpre hperform - hclean'
    change perform env thread action choice state = some (reply, state') at hperform
    change pre env frame action at hpre
    have hclean := clean_before hperform hclean'
    have hslices := h hclean
    have hmem : frame ∈ frames thread := Guards.top_mem hthread
    have hsliced := hslices.frames thread frame hmem
    have hunexcused : frame.excused = false := by
      by_contra hexcused
      rw [Bool.not_eq_false] at hexcused
      exact hexcuses.excused thread frame hmem hexcused hclean
    have hfixed : (∀ act, action ≠ .spans act) → ∀ spanId,
        (state'.spans.entries spanId).map Entry.fixed =
          (state.spans.entries spanId).map Entry.fixed := fun hspans =>
      fixed_same hbase.known.guards hmem hpre hperform (fun _ _ _ heq => hspans _ heq)
        fun _ heq => hspans _ heq
    have hslots : (∀ act, action ≠ .context act) → state'.slots = state.slots := fun hcontext =>
      perform_slots hperform (fun _ _ _ heq => absurd heq (hcontext _))
        fun _ heq => absurd heq (hcontext _)
    have hquiet : (∀ act, action ≠ .spans act) → (∀ act, action ≠ .context act) →
        (∀ act, action ≠ .pools act) → (∀ span calledAt content,
          action ≠ .sequence (.write span calledAt content)) →
        (next frame action reply).Sliced state.trace.packets →
        Slices state' (Function.update frames thread (next frame action reply :: rest)) := by
      intro hspans hcontext hpools hwrite hframe
      refine hslices.step hthread (perform_packets hperform hwrite) hframe (fun spanId => ?_)
        fun holder hgives uuid hfree => .inl ?_
      · rw [hfixed hspans]
        exact hslices.entries spanId
      · have hsame := hslots hcontext
        have hqueue := pools_same hperform hpools
        cases holder with
        | callbacks | entry => cases hgives
        | slots => rwa [State.stored, hsame] at hfree
        | queue => rwa [State.stored, hqueue] at hfree
    cases action with
    | pools action =>
        exact slices_pools hslices hthread hunexcused hpre hperform (hslots (by simp))
          (hfixed (by simp))
    | context action =>
        exact slices_context hslices hbase.known hthread hunexcused hpre hperform (hfixed (by simp))
    | spans action => exact slices_spans hslices hbase.known hthread hpre hperform
    | shared action =>
        obtain ⟨hcall, hsame, -⟩ := @next_shared frame action reply
        refine hquiet (by simp) (by simp) (by simp) (by simp)
          (hsliced.takes hcall hsame.took hsame.taken fun held hheld => .inl ?_)
        cases action <;> exact hheld
    | sequence action =>
        cases action with
        | write span calledAt content =>
            exact slices_write hslices hbase hdrawn hthread hpre hperform
        | _ =>
            exact hquiet (by simp) (by simp) (by simp) (by simp)
              (hsliced.takes ⟨rfl, rfl, rfl⟩ rfl rfl fun _ hheld => .inl hheld)
    | registry action =>
        cases action <;>
          exact hquiet (by simp) (by simp) (by simp) (by simp)
            (hsliced.takes ⟨rfl, rfl, rfl⟩ rfl rfl fun _ hheld => .inl hheld)
    | format span =>
        exact hquiet (by simp) (by simp) (by simp) (by simp)
          (hsliced.takes ⟨rfl, rfl, rfl⟩ rfl rfl fun _ hheld => .inl hheld)
  ret := by
    rintro state frames thread frame rest - h hthread - - hclean
    have hslices := h hclean
    exact ⟨hslices.frames.pop hthread, hslices.entries, hslices.free, hslices.alternates⟩
  call := by
    rintro state frames thread call prog state' ⟨-, hbase, -⟩ h - - hcall - hclean
    obtain ⟨registry, -, -, rfl, -⟩ := hbase.known.ledger.call_admits hcall
    have hslices := h ⟨hclean.noError, hclean.accepted⟩
    refine ⟨hslices.frames.push ?_ fun _ _ hvalue => hvalue, hslices.entries, hslices.free,
      hslices.alternates⟩
    exact ⟨fun _ hheld => (by cases hheld), fun _ hheld => (by cases hheld),
      fun _ hfound => (by cases hfound)⟩

theorem slices_new (nextSequenceId : Nat) : Slices (State.new nextSequenceId) fun _ => [] where
  frames := fun _ _ hmem => by cases hmem
  entries := fun _ _ _ _ hfixed => by cases hfixed
  free := fun _ _ _ _ => rfl
  alternates := holds_nil

theorem Emitted.Reads.lifetime {env : Env} {packet : Emitted} (h : packet.Reads env) {uuid : Nat}
    (hslice : packet.content.slice = some uuid) :
    packet.kind = some (.event
      (if packet.content.first then TrackEvent.typeSliceBegin else TrackEvent.typeSliceEnd)
      (some (env.bases.uuid uuid))) := by
  cases hcontent : packet.content with
  | body body =>
      rw [hcontent] at hslice
      have hkind := h.body body hcontent
      cases body with
      | lifetimeBegin | lifetimeEnd =>
          cases hslice
          exact hkind
      | _ => cases hslice
  | _ =>
      rw [hcontent] at hslice
      cases hslice

/-- While no write has failed and no callback was refused its context: the slices on a track
follow each other, whichever spans have it in turn, each ended for the span that it was begun
for. The track of a span in the store has the slice of that span open, and none is open on
a track that a thread caches or that waits in a pool. -/
theorem slices_alternate {env : Env} {nextSequenceId : Nat} {labels : List (system env).Label}
    {config : (system env).Config}
    (hrun : System.run labels (System.idle (State.new nextSequenceId)) = some config)
    (hclean : config.state.Clean) (hdraws : config.state.shared.nextUuid < 2 ^ 64) :
    Holds Alternates config.state.trace.packets ∧
      (∀ spanId entry uuid, config.state.spans.entries spanId = some entry →
        entry.data.trackUuid = some uuid →
          openSlice uuid config.state.trace.packets = some entry.instance_) ∧
      (∀ holder, holder.gives = true → ∀ uuid ∈ config.state.stored holder,
        openSlice uuid config.state.trace.packets = none) ∧
      (∀ packet ∈ config.state.trace.packets, ∀ uuid, packet.content.slice = some uuid →
        packet.kind = some (.event
          (if packet.content.first then TrackEvent.typeSliceBegin else TrackEvent.typeSliceEnd)
          (some (env.bases.uuid uuid)))) ∧
      ∀ packet ∈ config.state.trace.packets, ∀ other ∈ config.state.trace.packets,
        ∀ uuid uuid', packet.content.slice = some uuid → other.content.slice = some uuid' →
          env.bases.uuid uuid = env.bases.uuid uuid' → uuid = uuid' := by
  have hplaces := (owners_kept env).join ((fits_kept env).over And.left)
  have htracks := (excuses_kept env).join
    ((hplaces.join ((drawn_kept env).over fun h => ⟨h.1, h.2.1, h.2.2⟩)).over And.left)
  have hall := (htracks.join ((slices_kept env).over fun h =>
    ⟨h.2.1, ⟨h.1, h.2.2.1.1, h.2.2.1.2⟩, h.2.2.2⟩)).join ((legible_kept env).over fun _ => trivial)
  obtain ⟨frames, ⟨-, ⟨⟨-, -, hdrawn⟩, hslices⟩, hlegible⟩, -⟩ := known_run hall
    ⟨⟨⟨excuses_new env nextSequenceId, ⟨owners_new nextSequenceId, fits_new nextSequenceId⟩,
      drawn_new nextSequenceId⟩, fun _ => slices_new nextSequenceId⟩,
        legible_new env nextSequenceId⟩ (System.obeys_true labels _) hrun
  have hslices := hslices hclean
  refine ⟨hslices.alternates, fun spanId entry uuid hentry huuid => ?_, hslices.free,
    fun packet hmem uuid => (hlegible.reads hmem).lifetime, ?_⟩
  · refine hslices.entries spanId entry.instance_ entry.data.trackPool uuid ?_
    rw [hentry, ← huuid]
    rfl
  · -- a track is described under a number that was drawn
    have hbelow : ∀ packet ∈ config.state.trace.packets, ∀ uuid,
        packet.content.slice = some uuid → uuid < config.state.shared.nextUuid := by
      intro packet hmem uuid hslice
      have htrack : packet.content.track = some uuid := slice_track hslice
      obtain ⟨before, after, hsplit⟩ := List.append_of_mem hmem
      obtain ⟨key, hdescribed, -⟩ := (hdrawn.rooted before packet after hsplit).2 uuid htrack
      refine hdrawn.below uuid key (hdescribed.mono ?_)
      rw [hsplit]
      exact List.subset_append_left _ _
    intro packet hmem other hother uuid uuid' hslice hslice' heq
    have hlt := hbelow packet hmem uuid hslice
    have hlt' := hbelow other hother uuid' hslice'
    exact drawValue_injective env.bases.uuidBase_lt (by omega) (by omega) heq

/-- What is asked of the run: a slice ends, and the next span has its track. -/
def Reuses (config : (system flowEnv).Config) : Prop :=
  config.state.shared.nextUuid = 4 ∧ config.state.shared.hasError = false ∧
    config.state.contexts.refused = false ∧
    (config.state.trace.packets.filter fun packet => packet.content.slice = some 3).map
      (fun packet => (packet.content.first, packet.span)) =
        [(true, some 1), (false, some 1), (true, some 2)]

instance (config : (system flowEnv).Config) : Decidable (Reuses config) := by
  unfold Reuses
  infer_instance

theorem nestedSpans_reuses :
    (nestedSpans.map fun config => decide (Reuses config)) = some true := by
  decide +kernel

theorem slices_alternate_nested : ∃ config, nestedSpans = some config ∧ Reuses config ∧
    Holds Alternates config.state.trace.packets := by
  obtain ⟨config, hrun, hreuses⟩ := Option.map_eq_some_iff.1 nestedSpans_reuses
  rw [decide_eq_true_eq] at hreuses
  refine ⟨config, hrun, hreuses, ?_⟩
  obtain ⟨hdraws, herror, hrefused, -⟩ := hreuses
  exact (slices_alternate hrun ⟨herror, hrefused⟩ (by rw [hdraws]; decide)).1

end Slices

end TracingPerfetto.Layer
