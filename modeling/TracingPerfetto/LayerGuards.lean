import TracingPerfetto.LayerContexts

/-!
The guards that callbacks have and the locks of the store that belong to them, and which
entries there are.
-/

namespace TracingPerfetto.Layer

open TracingPerfetto.Runtime TracingPerfetto.Sequence TracingPerfetto.TrackEvents
open TracingPerfetto.Counters TracingPerfetto.Threads
open TracingPerfetto.SpanStore (SpanId activeShard fastSlots)

variable {env : Env}

/-- The lock that a guard keeps. -/
def Found.lock (env : Env) (found : Found) : Lock :=
  Spans.lockOf env.mapShard found.spanId found.entry.tier

/-- A guard that is the only one on its lock. -/
def Found.sole (exclusive : Bool) (found : Found) : Bool :=
  exclusive || found.entry.tier == .fast

/-! ## What the actions of the store do -/

section Spec

variable {thread : ThreadId} {spanId : SpanId} {spans spans' : Spans}

/-- The locks alone. -/
structure SameLocks (spans spans' : Spans) : Prop where
  owner : spans'.owner = spans.owner
  readers : spans'.readers = spans.readers

/-- What a thread knows, and what locks pass on, only grows. -/
structure Learns (spans spans' : Spans) : Prop where
  knows : ∀ thread, spans.knows thread = true → spans'.knows thread = true
  passes : ∀ lock, spans.passes lock = true → spans'.passes lock = true

theorem Learns.refl (spans : Spans) : Learns spans spans := ⟨fun _ h => h, fun _ h => h⟩

theorem Learns.trans {last : Spans} (h : Learns spans spans') (hlast : Learns spans' last) :
    Learns spans last :=
  ⟨fun thread hknows => hlast.knows thread (h.knows thread hknows),
    fun lock hpasses => hlast.passes lock (h.passes lock hpasses)⟩

theorem learns_learn (spans : Spans) (thread : ThreadId) (lock : Lock) :
    Learns spans (spans.learn thread lock) := by
  refine ⟨fun other hknows => ?_, fun _ hpasses => hpasses⟩
  simp only [Spans.learn, Function.update_apply]
  split
  · rename_i heq
    simp [heq ▸ hknows]
  · exact hknows

theorem learns_pass (spans : Spans) (thread : ThreadId) (lock : Lock) :
    Learns spans (spans.pass thread lock) := by
  refine ⟨fun _ hknows => hknows, fun other hpasses => ?_⟩
  simp only [Spans.pass, Function.update_apply]
  split
  · rename_i heq
    simp [heq ▸ hpasses]
  · exact hpasses

theorem learn_knows (thread : ThreadId) (lock : Lock) (hpasses : spans.passes lock = true) :
    (spans.learn thread lock).knows thread = true := by
  simp [Spans.learn, hpasses]

theorem pass_passes (thread : ThreadId) (lock : Lock) (hknows : spans.knows thread = true) :
    (spans.pass thread lock).passes lock = true := by
  simp [Spans.pass, hknows]

theorem insert_spec {instance_ : Nat} {data : SpanData}
    (h : insertSpan env.mapShard thread spanId instance_ data spans = some spans') :
    spans.free (Spans.lockOf env.mapShard spanId (insertTier spanId spans)) = true ∧
      spans'.entries = Function.update spans.entries spanId
        (some ⟨instance_, data, insertTier spanId spans⟩) ∧
      SameLocks spans spans' ∧ Learns spans spans' ∧ spans'.queued = spans.queued := by
  simp only [insertSpan] at h
  split at h
  · rename_i hfree
    rw [Bool.and_eq_true] at hfree
    simp only [Option.some.injEq] at h
    have hlearns : Learns spans ((spans.learn thread (Spans.lockOf env.mapShard spanId
        (insertTier spanId spans))).pass thread (Spans.lockOf env.mapShard spanId
          (insertTier spanId spans))) := (learns_learn ..).trans (learns_pass ..)
    subst h
    refine ⟨hfree.2, ?_⟩
    split <;> exact ⟨rfl, ⟨rfl, rfl⟩, ⟨hlearns.knows, hlearns.passes⟩, rfl⟩
  · cases h

/-- A search in both tiers: what it found, and that the locks it needs were free. -/
theorem getMut_spec {found : Option Found}
    (h : getMutSpan env.mapShard thread spanId spans = some (found, spans')) :
    (∃ shown, found = some shown ∧ shown.spanId = spanId ∧
      spans.entries spanId = some shown.entry ∧ spans.free (shown.lock env) = true ∧
      spans' = spans.lock thread (shown.lock env)) ∨
    found = none ∧ spans.entries spanId = none ∧ spans' = spans := by
  simp only [getMutSpan] at h
  split at h
  · split at h
    · rename_i entry hentry
      split at h
      · rename_i hfree
        simp only [Option.some.injEq, Prod.mk.injEq] at h
        obtain ⟨rfl, rfl⟩ := h
        exact .inl ⟨_, rfl, rfl, hentry, hfree, rfl⟩
      · cases h
    · rename_i hentry
      split at h
      · simp only [Option.some.injEq, Prod.mk.injEq] at h
        obtain ⟨rfl, rfl⟩ := h
        exact .inr ⟨rfl, hentry, rfl⟩
      · cases h
  · cases h

theorem take_spec {found : Option Found}
    (h : takeSpan env.mapShard thread spanId spans = some (found, spans')) :
    SameLocks spans spans' ∧ Learns spans spans' ∧ spans'.queued = spans.queued ∧
      ((∃ shown, found = some shown ∧ shown.spanId = spanId ∧
        spans.entries spanId = some shown.entry ∧ spans.free (shown.lock env) = true ∧
        spans'.entries = Function.update spans.entries spanId none) ∨
      found = none ∧ spans.entries spanId = none ∧ spans'.entries = spans.entries) := by
  simp only [takeSpan] at h
  split at h
  · split at h
    · rename_i entry hentry
      split at h
      · rename_i hfree
        simp only [Option.some.injEq, Prod.mk.injEq] at h
        obtain ⟨rfl, rfl⟩ := h
        have hlearns : Learns spans ((spans.learn thread (Spans.lockOf env.mapShard spanId
            entry.tier)).pass thread (Spans.lockOf env.mapShard spanId entry.tier)) :=
          (learns_learn ..).trans (learns_pass ..)
        split <;>
          exact ⟨⟨rfl, rfl⟩, ⟨hlearns.knows, hlearns.passes⟩, rfl,
            .inl ⟨_, rfl, rfl, hentry, hfree, rfl⟩⟩
      · cases h
    · rename_i hentry
      split at h
      · simp only [Option.some.injEq, Prod.mk.injEq] at h
        obtain ⟨rfl, rfl⟩ := h
        exact ⟨⟨rfl, rfl⟩, .refl spans, rfl, .inr ⟨rfl, hentry, rfl⟩⟩
      · cases h
  · cases h

theorem get_spec {found : Option Found}
    (h : getSpan env.mapShard thread spanId spans = some (found, spans')) :
    spans'.entries = spans.entries ∧ Learns spans spans' ∧ spans'.queued = spans.queued ∧
      ((∃ shown, found = some shown ∧ shown.spanId = spanId ∧
        spans.entries spanId = some shown.entry ∧
        (shown.entry.tier = .fast ∧ spans.free (shown.lock env) = true ∧
          spans' = spans.lock thread (shown.lock env) ∨
        shown.entry.tier = .overflow ∧ spans.owner (.map (env.mapShard spanId)) = none ∧
          spans'.owner = spans.owner ∧
          spans'.readers = Function.update spans.readers (env.mapShard spanId)
            (thread :: spans.readers (env.mapShard spanId)))) ∨
      found = none ∧ spans.entries spanId = none ∧ spans' = spans) := by
  simp only [getSpan] at h
  split at h
  · rename_i hfast
    split at h
    · rename_i entry hentry
      split at h
      · rename_i htier
        simp only [Option.some.injEq, Prod.mk.injEq] at h
        obtain ⟨rfl, rfl⟩ := h
        have hlock : Found.lock env ⟨spanId, entry⟩ = .fast (activeShard spanId) := by
          simp [Found.lock, htier, Spans.lockOf]
        have hlearns := learns_learn spans thread (.fast (activeShard spanId))
        refine ⟨rfl, ⟨hlearns.knows, hlearns.passes⟩, rfl,
          .inl ⟨_, rfl, rfl, hentry, .inl ⟨htier, ?_⟩⟩⟩
        rw [hlock]
        exact ⟨hfast, rfl⟩
      · rename_i htier
        split at h
        · rename_i hfree
          simp only [Option.some.injEq, Prod.mk.injEq] at h
          obtain ⟨rfl, rfl⟩ := h
          have hlearns := learns_learn spans thread (.map (env.mapShard spanId))
          exact ⟨rfl, ⟨hlearns.knows, hlearns.passes⟩, rfl, .inl ⟨_, rfl, rfl, hentry,
            .inr ⟨htier, Option.isNone_iff_eq_none.1 hfree, rfl, rfl⟩⟩⟩
        · cases h
    · rename_i hentry
      split at h
      · simp only [Option.some.injEq, Prod.mk.injEq] at h
        obtain ⟨rfl, rfl⟩ := h
        exact ⟨rfl, .refl spans, rfl, .inr ⟨rfl, hentry, rfl⟩⟩
      · cases h
  · cases h

theorem free_owner {lock : Lock} (h : spans.free lock = true) : spans.owner lock = none := by
  cases lock with
  | fast shard => exact Option.isNone_iff_eq_none.1 h
  | map shard =>
      simp only [Spans.free, Bool.and_eq_true] at h
      exact Option.isNone_iff_eq_none.1 h.1

theorem free_readers {shard : Nat} (h : spans.free (.map shard) = true) :
    spans.readers shard = [] := by
  simp only [Spans.free, Bool.and_eq_true, List.isEmpty_iff] at h
  exact h.2

end Spec

/-! ## The guards -/

structure Guards (env : Env) (state : State) (frames : Frames) : Prop where
  entry : Every (fun _ frame => ∀ found, frame.guard = some found →
    state.spans.entries found.spanId = some found.entry) frames
  owner : Every (fun thread frame => ∀ found, frame.guard = some found →
    found.sole frame.exclusive = true →
      state.spans.owner (found.lock env) = some thread) frames
  reader : Every (fun thread frame => ∀ found, frame.guard = some found →
    found.sole frame.exclusive = false →
      thread ∈ state.spans.readers (env.mapShard found.spanId)) frames
  owned : ∀ lock thread, state.spans.owner lock = some thread → ∃ frame ∈ frames thread,
    ∃ found, frame.guard = some found ∧ found.sole frame.exclusive = true ∧
      found.lock env = lock
  reading : ∀ shard thread, thread ∈ state.spans.readers shard → ∃ frame ∈ frames thread,
    ∃ found, frame.guard = some found ∧ found.sole frame.exclusive = false ∧
      env.mapShard found.spanId = shard
  shared : ∀ shard, state.spans.owner (.map shard) ≠ none → state.spans.readers shard = []
  nodup : ∀ shard, (state.spans.readers shard).Nodup
  locks : ∀ thread, (frames thread).Pairwise fun frame below => ∀ found found',
    frame.guard = some found → below.guard = some found' → found.lock env ≠ found'.lock env
  registered : ∀ spanId entry, state.spans.entries spanId = some entry →
    ∃ span, state.registry.spans spanId = some span ∧ span.instance_ = entry.instance_
  creating : Every (fun _ frame => frame.finished = false → frame.inserted = false →
    ∀ spanId metadata parent, frame.call = .newSpan spanId metadata parent →
      state.spans.entries spanId = none) frames
  closing : Every (fun _ frame => frame.finished = false → frame.took = true →
    ∀ spanId, frame.call = .close spanId → state.spans.entries spanId = none) frames

/-- The same stage of the same callback. -/
structure SameLife (frame next : Frame) : Prop where
  call : next.call = frame.call
  finished : next.finished = frame.finished
  inserted : next.inserted = frame.inserted
  took : next.took = frame.took

namespace Guards

variable {state state' : State} {frames : Frames} {thread : ThreadId} {frame frame' : Frame}
  {rest : List Frame}

theorem top_mem (hthread : frames thread = frame :: rest) : frame ∈ frames thread := by
  rw [hthread]
  exact List.mem_cons_self

theorem rest_mem (hthread : frames thread = frame :: rest) {value : Frame} (hmem : value ∈ rest) :
    value ∈ frames thread := by
  rw [hthread]
  exact List.mem_cons_of_mem _ hmem

theorem creating_step (h : Guards env state frames) (hthread : frames thread = frame :: rest)
    (hlife : SameLife frame frame')
    (hnone : ∀ spanId, state.spans.entries spanId = none → state'.spans.entries spanId = none) :
    Every (fun _ frame => frame.finished = false → frame.inserted = false →
      ∀ spanId metadata parent, frame.call = .newSpan spanId metadata parent →
        state'.spans.entries spanId = none)
      (Function.update frames thread (frame' :: rest)) := by
  refine h.creating.step hthread ?_ ?_
  · rw [hlife.finished, hlife.inserted, hlife.call]
    intro hfinished hinserted spanId metadata parent hcall
    exact hnone spanId
      (h.creating thread frame (top_mem hthread) hfinished hinserted spanId metadata parent hcall)
  · intro _ value hvalue hfinished hinserted spanId metadata parent hcall
    exact hnone spanId (hvalue hfinished hinserted spanId metadata parent hcall)

theorem closing_step (h : Guards env state frames) (hthread : frames thread = frame :: rest)
    (hlife : SameLife frame frame')
    (hnone : ∀ spanId, state.spans.entries spanId = none → state'.spans.entries spanId = none) :
    Every (fun _ frame => frame.finished = false → frame.took = true →
      ∀ spanId, frame.call = .close spanId → state'.spans.entries spanId = none)
      (Function.update frames thread (frame' :: rest)) := by
  refine h.closing.step hthread ?_ ?_
  · rw [hlife.finished, hlife.took, hlife.call]
    intro hfinished htook spanId hcall
    exact hnone spanId (h.closing thread frame (top_mem hthread) hfinished htook spanId hcall)
  · intro _ value hvalue hfinished htook spanId hcall
    exact hnone spanId (hvalue hfinished htook spanId hcall)

theorem witness_step {P : Frame → Prop} (hthread : frames thread = frame :: rest)
    (htop : P frame → P frame') {other : ThreadId} (h : ∃ value ∈ frames other, P value) :
    ∃ value ∈ Function.update frames thread (frame' :: rest) other, P value := by
  obtain ⟨value, hmem, hvalue⟩ := h
  by_cases hother : other = thread
  · subst hother
    rw [hthread] at hmem
    rw [Function.update_self]
    rcases List.mem_cons.1 hmem with rfl | hrest
    · exact ⟨frame', List.mem_cons_self, htop hvalue⟩
    · exact ⟨value, List.mem_cons_of_mem _ hrest, hvalue⟩
  · rw [Function.update_of_ne hother]
    exact ⟨value, hmem, hvalue⟩

/-- A step that leaves the entries, the locks, the registry and the guards as they are. -/
theorem same (h : Guards env state frames) (hthread : frames thread = frame :: rest)
    (hentries : state'.spans.entries = state.spans.entries)
    (hlocks : SameLocks state.spans state'.spans) (hregistry : state'.registry = state.registry)
    (hlife : SameLife frame frame') (hguard : frame'.guard = frame.guard)
    (hexclusive : frame.guard ≠ none → frame'.exclusive = frame.exclusive) :
    Guards env state' (Function.update frames thread (frame' :: rest)) := by
  have hmem := top_mem hthread
  have hsole : ∀ found : Found, frame.guard = some found →
      found.sole frame'.exclusive = found.sole frame.exclusive := by
    intro found hfound
    rw [hexclusive (by simp [hfound])]
  constructor
  · rw [hentries]
    refine h.entry.step hthread ?_ fun _ _ hvalue => hvalue
    rw [hguard]
    exact h.entry thread frame hmem
  · rw [hlocks.owner]
    refine h.owner.step hthread ?_ fun _ _ hvalue => hvalue
    rw [hguard]
    intro found hfound hlock
    rw [hsole found hfound] at hlock
    exact h.owner thread frame hmem found hfound hlock
  · rw [hlocks.readers]
    refine h.reader.step hthread ?_ fun _ _ hvalue => hvalue
    rw [hguard]
    intro found hfound hlock
    rw [hsole found hfound] at hlock
    exact h.reader thread frame hmem found hfound hlock
  · rw [hlocks.owner]
    intro lock other howner
    refine witness_step hthread ?_ (h.owned lock other howner)
    rintro ⟨found, hfound, hlock, heq⟩
    exact ⟨found, hguard.trans hfound, (hsole found hfound).trans hlock, heq⟩
  · rw [hlocks.readers]
    intro shard other hreader
    refine witness_step hthread ?_ (h.reading shard other hreader)
    rintro ⟨found, hfound, hlock, heq⟩
    exact ⟨found, hguard.trans hfound, (hsole found hfound).trans hlock, heq⟩
  · rw [hlocks.owner, hlocks.readers]
    exact h.shared
  · rw [hlocks.readers]
    exact h.nodup
  · apply pairwise_step h.locks hthread
    intro below _ hbelow
    rw [hguard]
    exact hbelow
  · rw [hentries, hregistry]
    exact h.registered
  · exact h.creating_step hthread hlife (by simp [hentries])
  · exact h.closing_step hthread hlife (by simp [hentries])

/-- The callbacks below the top have no guards that they share. -/
theorem below_exclusive (hledger : Ledger state frames) (hthread : frames thread = frame :: rest)
    {value : Frame} (hmem : value ∈ rest) : value.guard = none ∨ value.exclusive = true := by
  have hwaiting := hledger.waiting thread
  rw [hthread, List.pairwise_cons] at hwaiting
  rcases (hwaiting.1 value hmem).1.guard with hnone | ⟨hexclusive, -⟩
  · exact .inl hnone
  · exact .inr hexclusive

theorem lock_of_shared {found : Found} (h : found.sole false = false) :
    found.lock env = .map (env.mapShard found.spanId) := by
  have htier : found.entry.tier = .overflow := by
    cases htier : found.entry.tier with
    | fast => simp [Found.sole, htier] at h
    | overflow => rfl
  simp [Found.lock, htier, Spans.lockOf]

theorem exclusive_of_shared {found : Found} {exclusive : Bool}
    (h : found.sole exclusive = false) : exclusive = false := by
  cases exclusive with
  | true => simp [Found.sole] at h
  | false => rfl

theorem not_free (h : Guards env state frames) {other : ThreadId} {value : Frame}
    (hmem : value ∈ frames other) {found : Found} (hguard : value.guard = some found) :
    state.spans.free (found.lock env) = false := by
  by_contra hfree
  rw [Bool.not_eq_false] at hfree
  by_cases hsole : found.sole value.exclusive = true
  · have howner := h.owner other value hmem found hguard hsole
    rw [free_owner hfree] at howner
    cases howner
  · rw [Bool.not_eq_true] at hsole
    have hreader := h.reader other value hmem found hguard hsole
    rw [exclusive_of_shared hsole] at hsole
    rw [lock_of_shared hsole] at hfree
    rw [free_readers hfree] at hreader
    cases hreader

theorem acquire (h : Guards env state frames) (hthread : frames thread = frame :: rest)
    {found : Found} (hempty : frame.guard = none)
    (hentry : state.spans.entries found.spanId = some found.entry)
    (hfree : state.spans.free (found.lock env) = true)
    (hspans : state'.spans = state.spans.lock thread (found.lock env))
    (hregistry : state'.registry = state.registry) (hlife : SameLife frame frame')
    (hguard : frame'.guard = some found) (hsole : found.sole frame'.exclusive = true) :
    Guards env state' (Function.update frames thread (frame' :: rest)) := by
  have hentries : state'.spans.entries = state.spans.entries := by rw [hspans]; rfl
  have hreaders : state'.spans.readers = state.spans.readers := by rw [hspans]; rfl
  have howner : state'.spans.owner =
      Function.update state.spans.owner (found.lock env) (some thread) := by rw [hspans]; rfl
  have hkept : ∀ lock other, state.spans.owner lock = some other →
      state'.spans.owner lock = some other := by
    intro lock other hlock
    rw [howner, Function.update_of_ne]
    · exact hlock
    · rintro rfl
      rw [free_owner hfree] at hlock
      cases hlock
  constructor
  · rw [hentries]
    refine h.entry.step hthread ?_ fun _ _ hvalue => hvalue
    rw [hguard]
    rintro shown heq
    cases heq
    exact hentry
  · refine h.owner.step hthread ?_ ?_
    · rw [hguard]
      rintro shown heq -
      cases heq
      rw [howner, Function.update_self]
    · exact fun other value hvalue shown heq hlock => hkept _ other (hvalue shown heq hlock)
  · rw [hreaders]
    refine h.reader.step hthread ?_ fun _ _ hvalue => hvalue
    rw [hguard]
    rintro shown heq hshared
    cases heq
    rw [hsole] at hshared
    cases hshared
  · intro lock other hlock
    rw [howner] at hlock
    by_cases heq : lock = found.lock env
    · subst heq
      rw [Function.update_self, Option.some.injEq] at hlock
      subst hlock
      rw [Function.update_self]
      exact ⟨frame', List.mem_cons_self, found, hguard, hsole, rfl⟩
    · rw [Function.update_of_ne heq] at hlock
      refine witness_step hthread ?_ (h.owned lock other hlock)
      rw [hempty]
      rintro ⟨shown, hshown, -⟩
      cases hshown
  · rw [hreaders]
    intro shard other hreader
    refine witness_step hthread ?_ (h.reading shard other hreader)
    rw [hempty]
    rintro ⟨shown, hshown, -⟩
    cases hshown
  · rw [hreaders]
    intro shard hlock
    rw [howner] at hlock
    by_cases heq : Lock.map shard = found.lock env
    · rw [← heq] at hfree
      exact free_readers hfree
    · rw [Function.update_of_ne heq] at hlock
      exact h.shared shard hlock
  · rw [hreaders]
    exact h.nodup
  · apply pairwise_step h.locks hthread
    intro below hmem _ shown shown' hshown hshown' heq
    rw [hguard, Option.some.injEq] at hshown
    subst hshown
    have hbusy := h.not_free (rest_mem hthread hmem) hshown'
    rw [← heq, hfree] at hbusy
    cases hbusy
  · rw [hentries, hregistry]
    exact h.registered
  · exact h.creating_step hthread hlife (by simp [hentries])
  · exact h.closing_step hthread hlife (by simp [hentries])

theorem share (h : Guards env state frames) (hledger : Ledger state frames)
    (hthread : frames thread = frame :: rest) {found : Found} (hempty : frame.guard = none)
    (hentry : state.spans.entries found.spanId = some found.entry)
    (htier : found.entry.tier = .overflow)
    (hfree : state.spans.owner (.map (env.mapShard found.spanId)) = none)
    (hentries : state'.spans.entries = state.spans.entries)
    (howner : state'.spans.owner = state.spans.owner)
    (hreaders : state'.spans.readers = Function.update state.spans.readers
      (env.mapShard found.spanId) (thread :: state.spans.readers (env.mapShard found.spanId)))
    (hregistry : state'.registry = state.registry) (hlife : SameLife frame frame')
    (hguard : frame'.guard = some found) (hexclusive : frame'.exclusive = false) :
    Guards env state' (Function.update frames thread (frame' :: rest)) := by
  have hshared : found.sole frame'.exclusive = false := by
    simp [Found.sole, hexclusive, htier]
  have hlock : found.lock env = .map (env.mapShard found.spanId) := by
    simp [Found.lock, htier, Spans.lockOf]
  have hkept : ∀ shard other, other ∈ state.spans.readers shard →
      other ∈ state'.spans.readers shard := by
    intro shard other hmem
    rw [hreaders, Function.update_apply]
    split
    · rename_i heq
      subst heq
      exact List.mem_cons_of_mem _ hmem
    · exact hmem
  constructor
  · rw [hentries]
    refine h.entry.step hthread ?_ fun _ _ hvalue => hvalue
    rw [hguard]
    rintro shown heq
    cases heq
    exact hentry
  · rw [howner]
    refine h.owner.step hthread ?_ fun _ _ hvalue => hvalue
    rw [hguard]
    rintro shown heq hsole
    cases heq
    rw [hshared] at hsole
    cases hsole
  · refine h.reader.step hthread ?_ ?_
    · rw [hguard]
      rintro shown heq -
      cases heq
      rw [hreaders, Function.update_self]
      exact List.mem_cons_self
    · exact fun other value hvalue shown heq hsole => hkept _ other (hvalue shown heq hsole)
  · rw [howner]
    intro lock other hlock
    refine witness_step hthread ?_ (h.owned lock other hlock)
    rw [hempty]
    rintro ⟨shown, hshown, -⟩
    cases hshown
  · intro shard other hreader
    rw [hreaders, Function.update_apply] at hreader
    have hold : other ∈ state.spans.readers shard → ∃ frame ∈ Function.update frames thread
        (frame' :: rest) other, ∃ found, frame.guard = some found ∧
          found.sole frame.exclusive = false ∧ env.mapShard found.spanId = shard := by
      intro hmem
      refine witness_step hthread ?_ (h.reading shard other hmem)
      rw [hempty]
      rintro ⟨shown, hshown, -⟩
      cases hshown
    split at hreader
    · rename_i heq
      subst heq
      rcases List.mem_cons.1 hreader with rfl | hmem
      · rw [Function.update_self]
        exact ⟨frame', List.mem_cons_self, found, hguard, hshared, rfl⟩
      · exact hold hmem
    · exact hold hreader
  · rw [howner, hreaders]
    intro shard hlock
    rw [Function.update_of_ne]
    · exact h.shared shard hlock
    · rintro rfl
      exact hlock hfree
  · rw [hreaders]
    intro shard
    rw [Function.update_apply]
    split
    · rename_i heq
      refine List.nodup_cons.2 ⟨fun hmem => ?_, h.nodup _⟩
      obtain ⟨value, hvalue, shown, hshown, hsole, -⟩ := h.reading _ thread hmem
      rw [hthread] at hvalue
      rcases List.mem_cons.1 hvalue with rfl | hrest
      · rw [hempty] at hshown
        cases hshown
      · rcases below_exclusive hledger hthread hrest with hnone | hsolely
        · rw [hnone] at hshown
          cases hshown
        · rw [exclusive_of_shared hsole] at hsolely
          cases hsolely
    · exact h.nodup shard
  · apply pairwise_step h.locks hthread
    intro below hmem _ shown shown' hshown hshown' heq
    rw [hguard, Option.some.injEq] at hshown
    subst hshown
    rw [hlock] at heq
    rcases below_exclusive hledger hthread hmem with hnone | hsole
    · rw [hnone] at hshown'
      cases hshown'
    · have hbusy := h.owner thread below (rest_mem hthread hmem) shown' hshown'
        (by rw [hsole]; rfl)
      rw [← heq, hfree] at hbusy
      cases hbusy
  · rw [hentries, hregistry]
    exact h.registered
  · exact h.creating_step hthread hlife (by simp [hentries])
  · exact h.closing_step hthread hlife (by simp [hentries])

/-- What an exclusive guard shows is shown to no other callback. -/
theorem apart_of_exclusive (h : Guards env state frames)
    (hthread : frames thread = frame :: rest) {found : Found}
    (hguard : frame.guard = some found) (hexclusive : frame.exclusive = true) :
    (∀ value ∈ rest, ∀ shown, value.guard = some shown → shown.spanId ≠ found.spanId) ∧
      ∀ other, other ≠ thread → ∀ value ∈ frames other, ∀ shown, value.guard = some shown →
        shown.spanId ≠ found.spanId := by
  have hlock : ∀ other, ∀ value ∈ frames other, ∀ shown, value.guard = some shown →
      shown.spanId = found.spanId → shown.lock env = found.lock env := by
    intro other value hmem shown hshown heq
    have hentry := h.entry other value hmem shown hshown
    rw [heq, h.entry thread frame (top_mem hthread) found hguard, Option.some.injEq] at hentry
    rw [Found.lock, Found.lock, heq, hentry]
  have howner := h.owner thread frame (top_mem hthread) found hguard (by rw [hexclusive]; rfl)
  constructor
  · intro value hmem shown hshown heq
    have hpairs := h.locks thread
    rw [hthread, List.pairwise_cons] at hpairs
    exact hpairs.1 value hmem found shown hguard hshown
      (hlock thread value (rest_mem hthread hmem) shown hshown heq).symm
  · intro other hother value hmem shown hshown heq
    have hsame := hlock other value hmem shown hshown heq
    by_cases hsole : shown.sole value.exclusive = true
    · have howner' := h.owner other value hmem shown hshown hsole
      rw [hsame, howner, Option.some.injEq] at howner'
      exact hother howner'.symm
    · rw [Bool.not_eq_true] at hsole
      have hreader := h.reader other value hmem shown hshown hsole
      rw [exclusive_of_shared hsole] at hsole
      rw [← hsame, lock_of_shared hsole] at howner
      rw [h.shared _ (by rw [howner]; simp)] at hreader
      cases hreader

theorem replace (h : Guards env state frames) (hthread : frames thread = frame :: rest)
    {found found' : Found} (hguard : frame.guard = some found)
    (hexclusive : frame.exclusive = true) (hspanId : found'.spanId = found.spanId)
    (hinstance : found'.entry.instance_ = found.entry.instance_)
    (htier : found'.entry.tier = found.entry.tier)
    (hentries : state'.spans.entries =
      Function.update state.spans.entries found.spanId (some found'.entry))
    (hlocks : SameLocks state.spans state'.spans)
    (hregistry : state'.registry = state.registry) (hlife : SameLife frame frame')
    (hguard' : frame'.guard = some found') (hexclusive' : frame'.exclusive = true) :
    Guards env state' (Function.update frames thread (frame' :: rest)) := by
  obtain ⟨hrest, hothers⟩ := h.apart_of_exclusive hthread hguard hexclusive
  have hmem := top_mem hthread
  have hlock : found'.lock env = found.lock env := by
    rw [Found.lock, Found.lock, hspanId, htier]
  have hold := h.entry thread frame hmem found hguard
  have hnone : ∀ spanId, state.spans.entries spanId = none →
      state'.spans.entries spanId = none := by
    intro spanId hspan
    rw [hentries, Function.update_of_ne]
    · exact hspan
    · rintro rfl
      rw [hold] at hspan
      cases hspan
  constructor
  · rw [hentries]
    apply every_update
    · intro value hvalue shown hshown
      rcases List.mem_cons.1 hvalue with rfl | hvalue
      · rw [hguard', Option.some.injEq] at hshown
        subst hshown
        rw [hspanId, Function.update_self]
      · rw [Function.update_of_ne (hrest value hvalue shown hshown)]
        exact h.entry thread value (rest_mem hthread hvalue) shown hshown
    · intro other hother value hvalue shown hshown
      rw [Function.update_of_ne (hothers other hother value hvalue shown hshown)]
      exact h.entry other value hvalue shown hshown
  · rw [hlocks.owner]
    refine h.owner.step hthread ?_ fun _ _ hvalue => hvalue
    rw [hguard']
    rintro shown heq -
    cases heq
    rw [hlock]
    exact h.owner thread frame hmem found hguard (by rw [hexclusive]; rfl)
  · rw [hlocks.readers]
    refine h.reader.step hthread ?_ fun _ _ hvalue => hvalue
    rw [hexclusive']
    exact fun shown _ hsole => absurd hsole (by simp [Found.sole])
  · rw [hlocks.owner]
    intro lock other howner
    refine witness_step hthread ?_ (h.owned lock other howner)
    rintro ⟨shown, hshown, -, hlock'⟩
    rw [hguard, Option.some.injEq] at hshown
    subst hshown
    exact ⟨found', hguard', by rw [hexclusive']; rfl, hlock.trans hlock'⟩
  · rw [hlocks.readers]
    intro shard other hreader
    refine witness_step hthread ?_ (h.reading shard other hreader)
    rintro ⟨shown, hshown, hsole, -⟩
    rw [hexclusive] at hsole
    cases hsole
  · rw [hlocks.owner, hlocks.readers]
    exact h.shared
  · rw [hlocks.readers]
    exact h.nodup
  · apply pairwise_step h.locks hthread
    intro below _ hbelow shown shown' hshown hshown'
    rw [hguard', Option.some.injEq] at hshown
    subst hshown
    rw [hlock]
    exact hbelow found shown' hguard hshown'
  · rw [hregistry]
    intro spanId entry hentry
    rw [hentries, Function.update_apply] at hentry
    split at hentry
    · rename_i heq
      subst heq
      rw [Option.some.injEq] at hentry
      subst hentry
      rw [hinstance]
      exact h.registered _ _ hold
    · exact h.registered spanId entry hentry
  · exact h.creating_step hthread hlife hnone
  · exact h.closing_step hthread hlife hnone

theorem release (h : Guards env state frames) (hthread : frames thread = frame :: rest)
    {found : Found} (hguard : frame.guard = some found)
    (hsole : found.sole frame.exclusive = true)
    (hspans : state'.spans = state.spans.unlock thread (found.lock env))
    (hregistry : state'.registry = state.registry) (hlife : SameLife frame frame')
    (hguard' : frame'.guard = none) :
    Guards env state' (Function.update frames thread (frame' :: rest)) := by
  have hentries : state'.spans.entries = state.spans.entries := by rw [hspans]; rfl
  have hreaders : state'.spans.readers = state.spans.readers := by rw [hspans]; rfl
  have howner : state'.spans.owner =
      Function.update state.spans.owner (found.lock env) none := by rw [hspans]; rfl
  have hmem := top_mem hthread
  have hheld := h.owner thread frame hmem found hguard hsole
  constructor
  · rw [hentries]
    refine h.entry.step hthread ?_ fun _ _ hvalue => hvalue
    rw [hguard']
    exact fun _ heq => by cases heq
  · apply every_update
    · intro value hvalue shown hshown hsole'
      rcases List.mem_cons.1 hvalue with rfl | hvalue
      · rw [hguard'] at hshown
        cases hshown
      · have hpairs := h.locks thread
        rw [hthread, List.pairwise_cons] at hpairs
        rw [howner, Function.update_of_ne (hpairs.1 value hvalue found shown hguard hshown).symm]
        exact h.owner thread value (rest_mem hthread hvalue) shown hshown hsole'
    · intro other hother value hvalue shown hshown hsole'
      have hkept := h.owner other value hvalue shown hshown hsole'
      rw [howner, Function.update_of_ne]
      · exact hkept
      · intro heq
        rw [heq, hheld, Option.some.injEq] at hkept
        exact hother hkept.symm
  · rw [hreaders]
    refine h.reader.step hthread ?_ fun _ _ hvalue => hvalue
    rw [hguard']
    exact fun _ heq => by cases heq
  · intro lock other hlock
    rw [howner, Function.update_apply] at hlock
    split at hlock
    · cases hlock
    · rename_i hne
      refine witness_step hthread ?_ (h.owned lock other hlock)
      rintro ⟨shown, hshown, -, heq⟩
      rw [hguard, Option.some.injEq] at hshown
      subst hshown
      exact absurd heq.symm hne
  · rw [hreaders]
    intro shard other hreader
    refine witness_step hthread ?_ (h.reading shard other hreader)
    rintro ⟨shown, hshown, hshared, -⟩
    rw [hguard, Option.some.injEq] at hshown
    subst hshown
    rw [hsole] at hshared
    cases hshared
  · rw [hreaders]
    intro shard hlock
    rw [howner, Function.update_apply] at hlock
    split at hlock
    · exact absurd rfl hlock
    · exact h.shared shard hlock
  · rw [hreaders]
    exact h.nodup
  · apply pairwise_step h.locks hthread
    intro below _ _ shown shown' hshown
    rw [hguard'] at hshown
    cases hshown
  · rw [hentries, hregistry]
    exact h.registered
  · exact h.creating_step hthread hlife (by simp [hentries])
  · exact h.closing_step hthread hlife (by simp [hentries])

theorem unshare (h : Guards env state frames) (hthread : frames thread = frame :: rest)
    {found : Found} (hguard : frame.guard = some found)
    (hshared : found.sole frame.exclusive = false)
    (hentries : state'.spans.entries = state.spans.entries)
    (howner : state'.spans.owner = state.spans.owner)
    (hreaders : state'.spans.readers = Function.update state.spans.readers
      (env.mapShard found.spanId)
      ((state.spans.readers (env.mapShard found.spanId)).erase thread))
    (hledger : Ledger state frames)
    (hregistry : state'.registry = state.registry) (hlife : SameLife frame frame')
    (hguard' : frame'.guard = none) :
    Guards env state' (Function.update frames thread (frame' :: rest)) := by
  have hgone : ∀ shard other, other ∈ state'.spans.readers shard →
      other ∈ state.spans.readers shard ∧
        (other = thread → shard ≠ env.mapShard found.spanId) := by
    intro shard other hmem
    rw [hreaders, Function.update_apply] at hmem
    split at hmem
    · rename_i heq
      subst heq
      refine ⟨List.mem_of_mem_erase hmem, ?_⟩
      rintro rfl
      exact absurd hmem (List.Nodup.not_mem_erase (h.nodup _))
    · rename_i hne
      exact ⟨hmem, fun _ => hne⟩
  constructor
  · rw [hentries]
    refine h.entry.step hthread ?_ fun _ _ hvalue => hvalue
    rw [hguard']
    exact fun _ heq => by cases heq
  · rw [howner]
    refine h.owner.step hthread ?_ fun _ _ hvalue => hvalue
    rw [hguard']
    exact fun _ heq => by cases heq
  · apply every_update
    · intro value hvalue shown hshown hshared'
      rcases List.mem_cons.1 hvalue with rfl | hvalue
      · rw [hguard'] at hshown
        cases hshown
      · rcases below_exclusive hledger hthread hvalue with hnone | hsole
        · rw [hnone] at hshown
          cases hshown
        · rw [hsole] at hshared'
          cases hshared'
    · intro other hother value hvalue shown hshown hshared'
      have hreader := h.reader other value hvalue shown hshown hshared'
      rw [hreaders, Function.update_apply]
      split
      · rename_i heq
        rw [heq] at hreader
        exact (List.mem_erase_of_ne hother).2 hreader
      · exact hreader
  · rw [howner]
    intro lock other hlock
    refine witness_step hthread ?_ (h.owned lock other hlock)
    rintro ⟨shown, hshown, hsole, -⟩
    rw [hguard, Option.some.injEq] at hshown
    subst hshown
    rw [hshared] at hsole
    cases hsole
  · intro shard other hreader
    obtain ⟨hold, hne⟩ := hgone shard other hreader
    obtain ⟨value, hvalue, shown, hshown, hshared', hshard⟩ := h.reading shard other hold
    by_cases hother : other = thread
    · subst hother
      rw [hthread] at hvalue
      rw [Function.update_self]
      rcases List.mem_cons.1 hvalue with rfl | hvalue
      · rw [hguard, Option.some.injEq] at hshown
        subst hshown
        exact absurd hshard.symm (hne rfl)
      · exact ⟨value, List.mem_cons_of_mem _ hvalue, shown, hshown, hshared', hshard⟩
    · rw [Function.update_of_ne hother]
      exact ⟨value, hvalue, shown, hshown, hshared', hshard⟩
  · rw [howner]
    intro shard hlock
    have hnil := h.shared shard hlock
    rw [hreaders, Function.update_apply]
    split
    · rename_i heq
      subst heq
      rw [hnil]
      rfl
    · exact hnil
  · rw [hreaders]
    intro shard
    rw [Function.update_apply]
    split
    · exact (h.nodup _).erase thread
    · exact h.nodup shard
  · apply pairwise_step h.locks hthread
    intro below _ _ shown shown' hshown
    rw [hguard'] at hshown
    cases hshown
  · rw [hentries, hregistry]
    exact h.registered
  · exact h.creating_step hthread hlife (by simp [hentries])
  · exact h.closing_step hthread hlife (by simp [hentries])

theorem insert (h : Guards env state frames) (hledger : Ledger state frames)
    (hthread : frames thread = frame :: rest) {spanId : SpanId} {metadata : Metadata}
    {parent : Option SpanId} {data : SpanData} {tier : Tier}
    (hcall : frame.call = .newSpan spanId metadata parent) (hfinished : frame.finished = false)
    (hinserted : frame.inserted = false)
    (hentries : state'.spans.entries = Function.update state.spans.entries spanId
      (some ⟨frame.instance_, data, tier⟩))
    (hlocks : SameLocks state.spans state'.spans)
    (hregistry : state'.registry = state.registry) (hcall' : frame'.call = frame.call)
    (hinserted' : frame'.inserted = true) (hguard : frame'.guard = frame.guard)
    (hexclusive : frame'.exclusive = frame.exclusive) :
    Guards env state' (Function.update frames thread (frame' :: rest)) := by
  have hmem := top_mem hthread
  have hnone := h.creating thread frame hmem hfinished hinserted spanId metadata parent hcall
  have hkept : ∀ other entry, state.spans.entries other = some entry →
      state'.spans.entries other = some entry := by
    intro other entry hentry
    rw [hentries, Function.update_of_ne]
    · exact hentry
    · rintro rfl
      rw [hnone] at hentry
      cases hentry
  have hclosing : ∀ other', ∀ value ∈ frames other', value.finished = false →
      value.took = true → ∀ other, value.call = .close other →
        state'.spans.entries other = none := by
    intro other' value hvalue hvfinished htook other hvcall
    rw [hentries, Function.update_of_ne]
    · exact h.closing other' value hvalue hvfinished htook other hvcall
    · rintro rfl
      have hhandles : frame.handles other = true := by
        simp [Frame.handles, hfinished, hcall, Call.handle]
      obtain ⟨span, hspan, hclosed⟩ := (hledger.filed other' value hvalue hvfinished).closes hvcall
      rw [hledger.not_closing (top_mem hthread) hhandles hspan] at hclosed
      cases hclosed
  constructor
  · refine h.entry.step hthread ?_ ?_
    · rw [hguard]
      exact fun found hfound => hkept _ _ (h.entry thread frame hmem found hfound)
    · exact fun _ value hvalue found hfound => hkept _ _ (hvalue found hfound)
  · rw [hlocks.owner]
    refine h.owner.step hthread ?_ fun _ _ hvalue => hvalue
    rw [hguard, hexclusive]
    exact h.owner thread frame hmem
  · rw [hlocks.readers]
    refine h.reader.step hthread ?_ fun _ _ hvalue => hvalue
    rw [hguard, hexclusive]
    exact h.reader thread frame hmem
  · rw [hlocks.owner]
    intro lock other howner
    refine witness_step hthread ?_ (h.owned lock other howner)
    rw [hguard, hexclusive]
    exact id
  · rw [hlocks.readers]
    intro shard other hreader
    refine witness_step hthread ?_ (h.reading shard other hreader)
    rw [hguard, hexclusive]
    exact id
  · rw [hlocks.owner, hlocks.readers]
    exact h.shared
  · rw [hlocks.readers]
    exact h.nodup
  · apply pairwise_step h.locks hthread
    intro below _ hbelow
    rw [hguard]
    exact hbelow
  · rw [hregistry]
    intro other entry hentry
    rw [hentries, Function.update_apply] at hentry
    split at hentry
    · rename_i heq
      subst heq
      rw [Option.some.injEq] at hentry
      subst hentry
      exact (hledger.filed thread frame hmem hfinished).creates hcall
    · exact h.registered other entry hentry
  · refine h.creating.step_apart hledger.distinct hthread ?_ ?_
    · intro _ hvalue
      rw [hinserted'] at hvalue
      cases hvalue
    · intro other value _ hdistinct hvalue hvfinished hvinserted other' metadata' parent' hvcall
      rw [hentries, Function.update_of_ne]
      · exact hvalue hvfinished hvinserted other' metadata' parent' hvcall
      · rintro rfl
        apply hdistinct (other', false)
        · simp [Frame.solo, hfinished, hcall]
        · simp [Frame.solo, hvfinished, hvcall]
  · apply every_update
    · intro value hvalue hvfinished htook other hvcall
      rcases List.mem_cons.1 hvalue with rfl | hvalue
      · rw [hcall', hcall] at hvcall
        cases hvcall
      · exact hclosing thread value (rest_mem hthread hvalue) hvfinished htook other hvcall
    · intro other' _ value hvalue hvfinished htook other hvcall
      exact hclosing other' value hvalue hvfinished htook other hvcall

theorem take (h : Guards env state frames) (hthread : frames thread = frame :: rest)
    {spanId : SpanId} (hcall : frame.call = .close spanId)
    (hbusy : ∀ other, ∀ value ∈ frames other, ∀ found, value.guard = some found →
      found.spanId ≠ spanId)
    (hentries : state'.spans.entries = Function.update state.spans.entries spanId none)
    (hlocks : SameLocks state.spans state'.spans)
    (hregistry : state'.registry = state.registry) (hcall' : frame'.call = frame.call)
    (hfinished : frame'.finished = frame.finished)
    (hinserted : frame'.inserted = frame.inserted) (hguard : frame'.guard = frame.guard)
    (hexclusive : frame'.exclusive = frame.exclusive) :
    Guards env state' (Function.update frames thread (frame' :: rest)) := by
  have hmem := top_mem hthread
  have hnone : ∀ other, state.spans.entries other = none → state'.spans.entries other = none := by
    intro other hother
    rw [hentries, Function.update_apply]
    split
    · rfl
    · exact hother
  constructor
  · have hentry : ∀ other, ∀ value ∈ frames other, ∀ found, value.guard = some found →
        state'.spans.entries found.spanId = some found.entry := by
      intro other value hvalue found hfound
      rw [hentries, Function.update_of_ne (hbusy other value hvalue found hfound)]
      exact h.entry other value hvalue found hfound
    apply every_update
    · intro value hvalue found hfound
      rcases List.mem_cons.1 hvalue with rfl | hvalue
      · rw [hguard] at hfound
        exact hentry thread frame hmem found hfound
      · exact hentry thread value (rest_mem hthread hvalue) found hfound
    · exact fun other _ => hentry other
  · rw [hlocks.owner]
    refine h.owner.step hthread ?_ fun _ _ hvalue => hvalue
    rw [hguard, hexclusive]
    exact h.owner thread frame hmem
  · rw [hlocks.readers]
    refine h.reader.step hthread ?_ fun _ _ hvalue => hvalue
    rw [hguard, hexclusive]
    exact h.reader thread frame hmem
  · rw [hlocks.owner]
    intro lock other howner
    refine witness_step hthread ?_ (h.owned lock other howner)
    rw [hguard, hexclusive]
    exact id
  · rw [hlocks.readers]
    intro shard other hreader
    refine witness_step hthread ?_ (h.reading shard other hreader)
    rw [hguard, hexclusive]
    exact id
  · rw [hlocks.owner, hlocks.readers]
    exact h.shared
  · rw [hlocks.readers]
    exact h.nodup
  · apply pairwise_step h.locks hthread
    intro below _ hbelow
    rw [hguard]
    exact hbelow
  · rw [hregistry]
    intro other entry hentry
    rw [hentries, Function.update_apply] at hentry
    split at hentry
    · cases hentry
    · exact h.registered other entry hentry
  · refine h.creating.step hthread ?_ ?_
    · rw [hfinished, hinserted, hcall']
      intro hunfinished huninserted other metadata parent hnew
      exact hnone other
        (h.creating thread frame hmem hunfinished huninserted other metadata parent hnew)
    · intro _ value hvalue hvfinished hvinserted other metadata parent hnew
      exact hnone other (hvalue hvfinished hvinserted other metadata parent hnew)
  · refine h.closing.step hthread ?_ ?_
    · rw [hcall', hcall]
      rintro - - other heq
      cases heq
      rw [hentries, Function.update_self]
    · intro _ value hvalue hvfinished htook other hvcall
      exact hnone other (hvalue hvfinished htook other hvcall)

/-- The registry forgets a closed span only when its entry is gone. -/
theorem finish (h : Guards env state frames) (hthread : frames thread = frame :: rest)
    (hfinished : frame.finished = false) (hsettled : frame.Settled)
    (hspans : state'.spans = state.spans)
    (hregistry : state'.registry =
      (RegistryAct.perform thread (.finish frame.call) state.registry).2) :
    Guards env state'
      (Function.update frames thread ({ frame with finished := true } :: rest)) := by
  have hmem := top_mem hthread
  constructor
  · rw [hspans]
    exact h.entry.step hthread (h.entry thread frame hmem) fun _ _ hvalue => hvalue
  · rw [hspans]
    exact h.owner.step hthread (h.owner thread frame hmem) fun _ _ hvalue => hvalue
  · rw [hspans]
    exact h.reader.step hthread (h.reader thread frame hmem) fun _ _ hvalue => hvalue
  · rw [hspans]
    intro lock other howner
    refine witness_step hthread ?_ (h.owned lock other howner)
    exact id
  · rw [hspans]
    intro shard other hreader
    refine witness_step hthread ?_ (h.reading shard other hreader)
    exact id
  · rw [hspans]
    exact h.shared
  · rw [hspans]
    exact h.nodup
  · exact pairwise_step h.locks hthread fun _ _ hbelow => hbelow
  · rw [hspans, hregistry]
    intro spanId entry hentry
    obtain ⟨span, hspan, hinstance⟩ := h.registered spanId entry hentry
    obtain ⟨children, hkept⟩ := finish_spans thread state.registry frame.call spanId
    have hopen : frame.call ≠ .close spanId := by
      intro hclose
      rw [Frame.Settled, hclose] at hsettled
      rw [h.closing thread frame hmem hfinished hsettled.1 spanId hclose] at hentry
      cases hentry
    rw [if_neg hopen, hspan] at hkept
    exact ⟨_, hkept, hinstance⟩
  · rw [hspans]
    exact h.creating.step hthread (fun hvalue => absurd hvalue (by simp)) fun _ _ hvalue => hvalue
  · rw [hspans]
    exact h.closing.step hthread (fun hvalue => absurd hvalue (by simp)) fun _ _ hvalue => hvalue

theorem ret (h : Guards env state frames) (hthread : frames thread = frame :: rest)
    (hguard : frame.guard = none) :
    Guards env state (Function.update frames thread rest) := by
  have hwitness : ∀ {P : Frame → Prop}, ¬P frame → ∀ other, (∃ value ∈ frames other, P value) →
      ∃ value ∈ Function.update frames thread rest other, P value := by
    rintro P hframe other ⟨value, hvalue, hP⟩
    by_cases hother : other = thread
    · subst hother
      rw [hthread] at hvalue
      rw [Function.update_self]
      rcases List.mem_cons.1 hvalue with rfl | hvalue
      · exact absurd hP hframe
      · exact ⟨value, hvalue, hP⟩
    · rw [Function.update_of_ne hother]
      exact ⟨value, hvalue, hP⟩
  constructor
  · exact h.entry.pop hthread
  · exact h.owner.pop hthread
  · exact h.reader.pop hthread
  · intro lock other howner
    refine hwitness ?_ other (h.owned lock other howner)
    simp [hguard]
  · intro shard other hreader
    refine hwitness ?_ other (h.reading shard other hreader)
    simp [hguard]
  · exact h.shared
  · exact h.nodup
  · exact pairwise_pop h.locks hthread
  · exact h.registered
  · exact h.creating.pop hthread
  · exact h.closing.pop hthread

theorem call (h : Guards env state frames) (hledger : Ledger state frames) {call : Call}
    {prog : Program Unit} (hcall : Layer.call env thread call state = some (prog, state')) :
    Guards env state'
      (Function.update frames thread (enter thread call state :: frames thread)) := by
  obtain ⟨registry, -, hadmits, rfl, -⟩ := hledger.call_admits hcall
  have hwitness : ∀ {P : Frame → Prop} other, (∃ value ∈ frames other, P value) →
      ∃ value ∈ Function.update frames thread (enter thread call state :: frames thread) other,
        P value := by
    rintro P other ⟨value, hvalue, hP⟩
    by_cases hother : other = thread
    · subst hother
      rw [Function.update_self]
      exact ⟨value, List.mem_cons_of_mem _ hvalue, hP⟩
    · rw [Function.update_of_ne hother]
      exact ⟨value, hvalue, hP⟩
  constructor
  · exact h.entry.push (fun _ heq => by cases heq) fun _ _ hvalue => hvalue
  · exact h.owner.push (fun _ heq => by cases heq) fun _ _ hvalue => hvalue
  · exact h.reader.push (fun _ heq => by cases heq) fun _ _ hvalue => hvalue
  · exact fun lock other howner => hwitness other (h.owned lock other howner)
  · exact fun shard other hreader => hwitness other (h.reading shard other hreader)
  · exact h.shared
  · exact h.nodup
  · apply pairwise_update h.locks
    exact List.pairwise_cons.2 ⟨fun _ _ _ _ heq => (by cases heq), h.locks thread⟩
  · intro spanId entry hentry
    obtain ⟨span, hspan, hinstance⟩ := h.registered spanId entry hentry
    obtain ⟨span', hspan', hinstance', -⟩ := hadmits.kept spanId span hspan
    exact ⟨span', hspan', hinstance'.trans hinstance⟩
  · refine h.creating.push ?_ fun _ _ hvalue => hvalue
    intro _ _ spanId metadata parent hnew
    obtain ⟨hnone, -⟩ := hadmits.creates hnew
    by_contra hentry
    obtain ⟨entry, hentry⟩ := Option.ne_none_iff_exists'.1 hentry
    obtain ⟨span, hspan, -⟩ := h.registered spanId entry hentry
    rw [hnone] at hspan
    cases hspan
  · exact h.closing.push (fun _ htook => absurd htook Bool.false_ne_true) fun _ _ hvalue => hvalue

end Guards

theorem guards_new (nextSequenceId : Nat) :
    Guards env (State.new nextSequenceId) fun _ => [] where
  entry := fun _ _ hmem => by cases hmem
  owner := fun _ _ hmem => by cases hmem
  reader := fun _ _ hmem => by cases hmem
  owned := fun _ _ howner => by cases howner
  reading := fun _ _ hreader => by cases hreader
  shared := fun _ _ => rfl
  nodup := fun _ => List.nodup_nil
  locks := fun _ => List.Pairwise.nil
  registered := fun _ _ hentry => by cases hentry
  creating := fun _ _ hmem => by cases hmem
  closing := fun _ _ hmem => by cases hmem

theorem perform_spans {thread : ThreadId} {action : Act} {choice : Choice}
    {state state' : State} {reply : action.Reply}
    (h : perform env thread action choice state = some (reply, state'))
    (haction : ∀ act, action ≠ .spans act) : state'.spans = state.spans := by
  cases action with
  | shared | pools | format | registry =>
      simp only [perform, Option.some.injEq, Prod.mk.injEq] at h
      rw [← h.2]
      rfl
  | context | sequence =>
      simp only [perform, Option.bind_eq_bind, Option.bind_eq_some_iff, Option.some.injEq,
        Prod.mk.injEq] at h
      obtain ⟨_, _, _, rfl⟩ := h
      rfl
  | spans action => exact absurd rfl (haction action)

theorem next_same_spans (frame : Frame) (action : Act) (reply : action.Reply)
    (haction : ∀ act, action ≠ .spans act) : SameSpans frame (next frame action reply) := by
  cases action with
  | shared action => exact (next_shared action reply).2.1
  | pools action => exact (next_pools action reply).2.1
  | context action => exact (next_context action reply).2.1
  | sequence action => exact (next_sequence action reply).2.1
  | registry action => cases action <;> exact ⟨rfl, rfl, rfl, rfl, rfl, rfl, rfl, rfl, rfl⟩
  | format => exact ⟨rfl, rfl, rfl, rfl, rfl, rfl, rfl, rfl, rfl⟩
  | spans action => exact absurd rfl (haction action)

theorem perform_spans_act {thread : ThreadId} {action : SpanAct} {choice : Choice}
    {state state' : State} {reply : action.Reply}
    (h : perform env thread (.spans action) choice state = some (reply, state')) :
    ∃ spans, action.perform env.mapShard thread state.time choice.fresh state.spans =
      some (reply, spans) ∧ state' = { state.tick with spans := spans } := by
  simp only [perform, Option.bind_eq_bind, Option.bind_eq_some_iff, Option.some.injEq,
    Prod.mk.injEq] at h
  obtain ⟨⟨_, spans⟩, hperform, rfl, rfl⟩ := h
  exact ⟨spans, hperform, rfl⟩

theorem free_apart {state : State} {frames : Frames} {spanId : SpanId} {entry : Entry}
    (h : Guards env state frames) (hentry : state.spans.entries spanId = some entry)
    (hfree : state.spans.free (Found.lock env ⟨spanId, entry⟩) = true) :
    ∀ other, ∀ value ∈ frames other, ∀ found, value.guard = some found →
      found.spanId ≠ spanId := by
  rintro other value hvalue ⟨_, shown⟩ hfound rfl
  have hshown := h.entry other value hvalue _ hfound
  rw [hentry, Option.some.injEq] at hshown
  subst hshown
  rw [h.not_free hvalue hfound] at hfree
  cases hfree

theorem guards_kept_spans {state state' : State} {frames : Frames} {thread : ThreadId}
    {frame : Frame} {rest : List Frame} {action : SpanAct} {choice : Choice}
    {reply : action.Reply} (hledger : Ledger state frames) (h : Guards env state frames)
    (hthread : frames thread = frame :: rest) (hpre : pre env frame (.spans action))
    (hperform : perform env thread (.spans action) choice state = some (reply, state')) :
    Guards env state'
      (Function.update frames thread (next frame (.spans action) reply :: rest)) := by
  obtain ⟨spans, haction, rfl⟩ := perform_spans_act hperform
  have hlife : ∀ frame' : Frame, SameLife frame' frame' := fun _ => ⟨rfl, rfl, rfl, rfl⟩
  cases action with
  | insert spanId instance_ data =>
      obtain ⟨⟨hguard, -⟩, ⟨metadata, parent, hcall⟩, rfl, hinserted, hfinished, -⟩ := hpre
      simp only [SpanAct.perform, Option.map_eq_some_iff, Prod.mk.injEq, true_and] at haction
      obtain ⟨inserted, hinsert, rfl⟩ := haction
      obtain ⟨-, hentries, hlocks, -⟩ := insert_spec hinsert
      exact h.insert hledger hthread hcall hfinished hinserted hentries hlocks rfl rfl rfl rfl rfl
  | get spanId =>
      obtain ⟨⟨hguard, -⟩, -⟩ := hpre
      obtain ⟨hentries, -, -, hcases⟩ := get_spec haction
      rcases hcases with ⟨shown, rfl, rfl, hentry, ⟨htier, hfree, rfl⟩ |
        ⟨htier, hfree, howner, hreaders⟩⟩ | ⟨rfl, -, rfl⟩
      · refine h.acquire hthread hguard hentry hfree rfl rfl ⟨rfl, rfl, rfl, rfl⟩ rfl ?_
        change shown.sole false = true
        simp [Found.sole, htier]
      · exact h.share hledger hthread hguard hentry htier hfree hentries howner hreaders rfl
          ⟨rfl, rfl, rfl, rfl⟩ rfl rfl
      · exact h.same hthread rfl ⟨rfl, rfl⟩ rfl ⟨rfl, rfl, rfl, rfl⟩ hguard.symm
          fun hsome => absurd hguard hsome
  | getMut spanId =>
      obtain ⟨⟨hguard, -⟩, -⟩ := hpre
      rcases getMut_spec haction with ⟨shown, rfl, rfl, hentry, hfree, rfl⟩ | ⟨rfl, -, rfl⟩
      · exact h.acquire hthread hguard hentry hfree rfl rfl ⟨rfl, rfl, rfl, rfl⟩ rfl rfl
      · exact h.same hthread rfl ⟨rfl, rfl⟩ rfl ⟨rfl, rfl, rfl, rfl⟩ hguard.symm
          fun hsome => absurd hguard hsome
  | put found =>
      obtain ⟨shown, hguard, hexclusive, hchanges, -⟩ := hpre
      simp only [SpanAct.perform, Option.some.injEq, Prod.mk.injEq, true_and] at haction
      subst haction
      refine h.replace hthread hguard hexclusive hchanges.spanId hchanges.instance_
        hchanges.tier ?_ ⟨rfl, rfl⟩ rfl ⟨rfl, rfl, rfl, rfl⟩ rfl hexclusive
      rw [← hchanges.spanId]
      rfl
  | pushFlow found flow =>
      obtain ⟨hguard, hexclusive, -⟩ := hpre
      simp only [SpanAct.perform, Option.some.injEq, Prod.mk.injEq, true_and] at haction
      subst haction
      have hspanId : (found.withData (found.data.pushFlow flow)).spanId = found.spanId := rfl
      exact h.replace hthread hguard hexclusive hspanId rfl rfl rfl ⟨rfl, rfl⟩ rfl
        ⟨rfl, rfl, rfl, rfl⟩ rfl hexclusive
  | dropRef found =>
      obtain ⟨hguard, hexclusive⟩ := hpre
      simp only [SpanAct.perform, Option.some.injEq, Prod.mk.injEq, true_and] at haction
      cases htier : found.entry.tier with
      | fast =>
          have hlock : found.lock env = .fast (activeShard found.spanId) := by
            simp [Found.lock, htier, Spans.lockOf]
          refine h.release hthread hguard ?_ ?_ rfl ⟨rfl, rfl, rfl, rfl⟩ rfl
          · simp [Found.sole, htier]
          · rw [hlock, ← haction, releaseRef, htier]
      | overflow =>
          simp only [releaseRef, htier] at haction
          subst haction
          refine h.unshare hthread hguard ?_ rfl rfl rfl hledger rfl ⟨rfl, rfl, rfl, rfl⟩ rfl
          simp [Found.sole, htier, hexclusive]
  | dropMut found =>
      obtain ⟨hguard, hexclusive, -⟩ := hpre
      simp only [SpanAct.perform, Option.some.injEq, Prod.mk.injEq, true_and] at haction
      refine h.release hthread hguard ?_ haction.symm rfl ⟨rfl, rfl, rfl, rfl⟩ rfl
      rw [hexclusive]
      rfl
  | take spanId =>
      obtain ⟨⟨hguard, -⟩, hcall, -, -⟩ := hpre
      obtain ⟨hlocks, -, -, hcases⟩ := take_spec haction
      rcases hcases with ⟨⟨_, entry⟩, rfl, rfl, hentry, hfree, hentries⟩ | ⟨rfl, hentry, hentries⟩
      · exact h.take hthread hcall (free_apart h hentry hfree) hentries hlocks
          rfl rfl rfl rfl rfl rfl
      · refine h.take hthread hcall ?_ ?_ hlocks rfl rfl rfl rfl rfl rfl
        · rintro other value hvalue found hfound rfl
          rw [h.entry other value hvalue found hfound] at hentry
          cases hentry
        · rw [hentries, ← hentry, Function.update_eq_self]
  | noteFollowsFrom =>
      simp only [SpanAct.perform, Option.some.injEq, Prod.mk.injEq, true_and] at haction
      subst haction
      exact h.same hthread rfl ⟨rfl, rfl⟩ rfl ⟨rfl, rfl, rfl, rfl⟩ rfl fun _ => rfl
  | hasFollowsFrom =>
      simp only [SpanAct.perform, Option.some.injEq, Prod.mk.injEq] at haction
      obtain ⟨-, rfl⟩ := haction
      exact h.same hthread rfl ⟨rfl, rfl⟩ rfl ⟨rfl, rfl, rfl, rfl⟩ rfl fun _ => rfl

theorem guards_kept (env : Env) : KeepsInv env AnyCall Ledger (Guards env) where
  act := by
    intro state frames thread frame rest action choice reply state' hledger h hthread hpre hperform
      _
    by_cases hspans : ∃ act, action = .spans act
    · obtain ⟨act, rfl⟩ := hspans
      exact guards_kept_spans hledger h hthread hpre hperform
    · have haction : ∀ act, action ≠ .spans act := fun act heq => hspans ⟨act, heq⟩
      have hkept := perform_spans hperform haction
      by_cases hfinish : ∃ call, action = .registry (.finish call)
      · obtain ⟨call, rfl⟩ := hfinish
        obtain ⟨rfl, -, -, -, -, hsettled, hfinished⟩ := hpre
        refine h.finish hthread hfinished hsettled hkept ?_
        simp only [perform, Option.some.injEq, Prod.mk.injEq] at hperform
        rw [← hperform.2]
      · have hother : ∀ call, action ≠ .registry (.finish call) :=
          fun call heq => hfinish ⟨call, heq⟩
        have hsame := next_same_spans frame action reply haction
        exact h.same hthread (by rw [hkept]) ⟨by rw [hkept], by rw [hkept]⟩
          (perform_registry hperform hother)
          ⟨(next_call action reply).call, next_finished action reply hother, hsame.inserted,
            hsame.took⟩ hsame.guard fun _ => hsame.exclusive
  ret := fun _ h hthread hfinal _ => h.ret hthread hfinal.guard
  call := fun hledger h _ _ hcall _ => h.call hledger hcall

end TracingPerfetto.Layer
