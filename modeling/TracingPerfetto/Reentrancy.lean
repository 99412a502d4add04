import TracingPerfetto.LayerEntries

/-!
Formatters that call into the layer. `on_record` runs them with the lock of its entry,
and whether a callback that they make locks it once more is a matter of the ids of the
two spans.
-/

namespace TracingPerfetto.Layer

open TracingPerfetto.Runtime TracingPerfetto.Sequence TracingPerfetto.TrackEvents
open TracingPerfetto.Counters TracingPerfetto.Threads
open TracingPerfetto.SpanStore (SpanId activeShard)

/-! ## Locks -/

namespace Spans

variable (mapShard : SpanId → Nat) (spans : Spans) (thread : ThreadId)

/-- The locks of a search, which goes on to the map when the fast shard has no entry. -/
def searchLocks (spanId : SpanId) : List Lock :=
  .fast (activeShard spanId) :: match (spans.entries spanId).map Entry.tier with
    | some .fast => []
    | _ => [.map (mapShard spanId)]

def locks : SpanAct → List Lock
  | .insert spanId _ _ =>
      .fast (activeShard spanId) :: match insertTier spanId spans with
        | .fast => []
        | .overflow => [.map (mapShard spanId)]
  | .get spanId | .getMut spanId | .take spanId => spans.searchLocks mapShard spanId
  | _ => []

def holds : Lock → Bool
  | .fast shard => spans.owner (.fast shard) = some thread
  | .map shard => spans.owner (.map shard) = some thread || thread ∈ spans.readers shard

end Spans

/-- The thread is about to lock what a guard of its own keeps locked. -/
def deadlocksItself (env : Env) (config : (system env).Config) (thread : ThreadId) : Bool :=
  match config.frames thread with
  | .act (.spans action) _ :: _ =>
      (config.state.spans.locks env.mapShard action).any (config.state.spans.holds thread)
  | _ => false

/-! ## Calls -/

/-- The call gets as far as the store: no error has been recorded, or it closes a span, and
the context can be had if it is needed. -/
def Call.LooksUp (call : Call) (state : State) (thread : ThreadId) : Prop :=
  (state.shared.hasError = true → ∃ spanId, call = .close spanId) ∧
    (call.needsContext = true →
      state.status thread ≠ some none ∧ state.status thread ≠ some (some true))

/-- The search for the span may end in a lock that the thread holds: that of its fast
shard, or that of the map, unless the entry is in the fast shard and stays there. -/
def Call.Meets (env : Env) (call : Call) (state : State) (thread : ThreadId)
    (spanId : SpanId) : Prop :=
  state.spans.holds thread (.fast (activeShard spanId)) = true ∨
    state.spans.holds thread (.map (env.mapShard spanId)) = true ∧
      ¬ (call.keeps spanId ∧ ∃ entry, state.spans.entries spanId = some entry ∧
        entry.tier = .fast)

/-- A call that looks up no span whose lock the thread holds already. -/
def Clear (env : Env) (thread : ThreadId) (call : Call) (state : State) : Prop :=
  call.LooksUp state thread → ∀ spanId ∈ call.lookups env, ¬ call.Meets env state thread spanId

/-! ## What stays -/

section Stays

variable {env : Env} {state state' : State} {frames : Frames} {thread : ThreadId}
  {frame : Frame} {rest : List Frame} {action : Act} {choice : Choice} {reply : action.Reply}

theorem unchecked_kept (hperform : perform env thread action choice state = some (reply, state'))
    (herror : state.shared.hasError = true) (h : frame.checked = false) :
    (next frame action reply).checked = false := by
  cases action with
  | shared action =>
      cases action with
      | hasError =>
          simp only [perform, SharedAct.perform, Option.some.injEq, Prod.mk.injEq] at hperform
          obtain ⟨rfl, -⟩ := hperform
          simp [next, h, herror]
      | _ => exact h
  | pools action => cases action <;> exact h
  | context action =>
      cases action with
      | lookup | cachedTrack | evict | releaseLocal => cases reply <;> exact h
      | _ => exact h
  | spans action =>
      cases action with
      | take => cases reply <;> exact h
      | _ => exact h
  | sequence action =>
      cases action with
      | write span calledAt content =>
          cases content with
          | body body => cases body <;> exact h
          | _ => exact h
      | _ => exact h
  | registry action => cases action <;> exact h
  | format => exact h

theorem destroyed_kept (hborrowed : Borrowed state frames) (hframe : frame ∈ frames thread)
    (hpre : pre env frame action)
    (hperform : perform env thread action choice state = some (reply, state'))
    {other : ThreadId} (h : state.status other = some none) : state'.status other = some none := by
  by_cases hcontext : ∃ act, action = .context act
  · obtain ⟨act, rfl⟩ := hcontext
    simp only [perform, Option.bind_eq_bind, Option.bind_eq_some_iff, Option.some.injEq,
      Prod.mk.injEq] at hperform
    obtain ⟨⟨_, contexts⟩, hperform, rfl, rfl⟩ := hperform
    have hset : ∀ tls, (thread = other → Tls.status tls = some none) →
        ((state.contexts.set thread tls).tls other).status = some none := by
      intro tls htls
      by_cases hother : other = thread
      · subst hother
        rw [Borrowed.set_self]
        exact htls rfl
      · rw [Borrowed.set_other hother]
        exact h
    cases act with
    | lookup =>
        rcases Borrowed.lookup_cases hperform with ⟨-, -, rfl⟩ | ⟨-, hstatus, hothers, -, -⟩ |
          ⟨-, -, htls, -⟩
        · exact h
        · by_cases hother : other = thread
          · subst hother
            change (state.contexts.tls other).status = some none at h
            rw [hstatus] at h
            cases h
          · change (contexts.tls other).status = some none
            rw [hothers other hother]
            exact h
        · change (contexts.tls other).status = some none
          rw [htls]
          exact h
    | insert sequenceId uuid anchor =>
        obtain ⟨hvacant, -⟩ := hpre
        simp only [ContextAct.perform, Option.some.injEq, Prod.mk.injEq] at hperform
        obtain ⟨-, rfl⟩ := hperform
        apply hset
        rintro rfl
        rw [hborrowed.vacant thread frame hframe hvacant] at h
        cases h
    | dropGuard =>
        obtain ⟨context, hlive, -, rfl⟩ := onLive_cases hperform
        apply hset
        rintro rfl
        change (state.contexts.tls thread).status = some none at h
        rw [live_tls.1 hlive] at h
        cases h
    | destroy =>
        simp only [ContextAct.perform, Option.some.injEq] at hperform
        have hcontexts : contexts = state.contexts.set thread .destroyed := by
          split at hperform <;> exact (Prod.mk.inj hperform).2.symm
        subst hcontexts
        exact hset _ fun _ => rfl
    | takeRetained | returnRetained | cachedTrack | cachePool | evict | releaseLocal =>
        exact (context_status hperform (by simp) (by simp) (by simp) (by simp) other).trans h
  · exact (perform_contexts hperform (fun act heq => hcontext ⟨act, heq⟩) other).trans h

end Stays

/-! ## The callbacks in progress -/

/-- A callback and those of its thread that it interrupts: it never gets as far as the
store, or it looks up nothing behind the locks of their guards. -/
def Covered (env : Env) (state : State) (thread : ThreadId) (frame : Frame)
    (below : List Frame) : Prop :=
  frame.finished = false →
    (frame.call.needsContext = true ∧
      (state.status thread = some none ∨ ∃ value ∈ below, value.context = true)) ∨
    (state.shared.hasError = true ∧ frame.checked = false ∧
      ∀ spanId, frame.call ≠ .close spanId) ∨
    ∀ value ∈ below, ∀ found, value.guard = some found →
      ∀ spanId ∈ frame.call.lookups env,
        found.lock env ≠ .fast (activeShard spanId) ∧
        (found.lock env = .map (env.mapShard spanId) → frame.took = false →
          frame.call.keeps spanId ∧ ∃ entry, state.spans.entries spanId = some entry ∧
            entry.tier = .fast)

theorem Covered.mono {env : Env} {state state' : State} {thread : ThreadId}
    {frame frame' : Frame} {below : List Frame} (h : Covered env state thread frame below)
    (hcall : frame'.call = frame.call)
    (hfinished : frame'.finished = false → frame.finished = false)
    (hstatus : state.status thread = some none → state'.status thread = some none)
    (herror : state.shared.hasError = true → frame.checked = false →
      state'.shared.hasError = true ∧ frame'.checked = false)
    (htook : frame'.took = false → frame.took = false)
    (hentries : frame.finished = false → frame'.took = false →
      ∀ spanId, frame.call.keeps spanId → ∀ entry, state.spans.entries spanId = some entry →
        ∃ entry', state'.spans.entries spanId = some entry' ∧ SameEntry entry entry') :
    Covered env state' thread frame' below := by
  intro hunfinished
  have hbefore := hfinished hunfinished
  rw [hcall]
  rcases h hbefore with ⟨hcontext, hgone | hbelow⟩ | ⟨hfailed, hchecked, hopen⟩ | hlocks
  · exact .inl ⟨hcontext, .inl (hstatus hgone)⟩
  · exact .inl ⟨hcontext, .inr hbelow⟩
  · obtain ⟨hfailed', hchecked'⟩ := herror hfailed hchecked
    exact .inr (.inl ⟨hfailed', hchecked', hopen⟩)
  · refine .inr (.inr fun value hvalue found hfound spanId hspan => ?_)
    obtain ⟨hfast, hmap⟩ := hlocks value hvalue found hfound spanId hspan
    refine ⟨hfast, fun hlock hnot => ?_⟩
    obtain ⟨hkeeps, entry, hentry, htier⟩ := hmap hlock (htook hnot)
    obtain ⟨entry', hentry', hsame⟩ := hentries hbefore hnot spanId hkeeps entry hentry
    exact ⟨hkeeps, entry', hentry', hsame.tier.trans htier⟩

theorem Known.holds {env : Env} {state : State} {frames : Frames} {thread : ThreadId}
    (h : Known env state frames) {value : Frame} {found : Found} (hmem : value ∈ frames thread)
    (hfound : value.guard = some found) (hwaiting : value.Waiting) :
    state.spans.holds thread (found.lock env) = true := by
  have hexclusive : value.exclusive = true := by
    rcases hwaiting.guard with hnone | ⟨hexclusive, -⟩
    · rw [hnone] at hfound
      cases hfound
    · exact hexclusive
  have howner := h.guards.owner thread value hmem found hfound (by rw [hexclusive]; rfl)
  cases hlock : found.lock env with
  | fast shard =>
      rw [hlock] at howner
      simp [Spans.holds, howner]
  | map shard =>
      rw [hlock] at howner
      simp [Spans.holds, howner]

theorem Known.waiting {env : Env} {state : State} {frames : Frames} {thread : ThreadId}
    (h : Known env state frames)
    (hready : System.Ready (system env) (protocol env) (frames thread)) :
    ∀ value ∈ frames thread, value.Waiting := by
  rcases Ledger.ready_waiting hready with hnil | ⟨frame, rest, hthread, hframe⟩
  · simp [hnil]
  · have hrest := h.ledger.waiting thread
    rw [hthread, List.pairwise_cons] at hrest
    intro value hvalue
    rw [hthread] at hvalue
    rcases List.mem_cons.1 hvalue with rfl | hvalue
    · exact hframe
    · exact (hrest.1 value hvalue).1

theorem Known.covered_call {env : Env} {state state' : State} {frames : Frames}
    {thread : ThreadId} {call : Call} (h : Known env state frames)
    (hready : System.Ready (system env) (protocol env) (frames thread))
    (hclear : Clear env thread call state) (hshared : state'.shared = state.shared)
    (hspans : state'.spans = state.spans) (hcontexts : state'.contexts = state.contexts) :
    Covered env state' thread (enter thread call state) (frames thread) := by
  have hstatus : state'.status thread = state.status thread := by
    rw [State.status, State.status, hcontexts]
  rw [Covered, hshared, hspans, hstatus]
  rintro -
  change (call.needsContext = true ∧ _) ∨ (_ ∧ _ ∧ ∀ spanId, call ≠ .close spanId) ∨ _
  by_cases hlooks : call.LooksUp state thread
  · refine .inr (.inr fun value hvalue found hfound spanId hspan => ?_)
    have hholds := h.holds hvalue hfound (h.waiting hready value hvalue)
    have hmeets := hclear hlooks spanId hspan
    constructor
    · intro hlock
      rw [hlock] at hholds
      exact hmeets (.inl hholds)
    · rintro hlock -
      rw [hlock] at hholds
      by_contra hgone
      exact hmeets (.inr ⟨hholds, hgone⟩)
  · rw [Call.LooksUp, not_and_or] at hlooks
    rcases hlooks with hfailed | hrefused
    · simp only [not_forall, exists_prop, not_exists] at hfailed
      exact .inr (.inl ⟨hfailed.1, rfl, hfailed.2⟩)
    · simp only [not_forall, exists_prop, not_and_or, ne_eq, not_not] at hrefused
      obtain ⟨hcontext, hgone | hborrowed⟩ := hrefused
      · exact .inl ⟨hcontext, .inl hgone⟩
      · exact .inl ⟨hcontext, .inr (h.borrowed.holder thread hborrowed)⟩

theorem covered_kept (env : Env) :
    KeepsInv env (Clear env) (Known env) fun state => Stacked (Covered env state) where
  act := by
    intro state frames thread frame rest action choice reply state' hknown h hthread hpre hperform
      _
    have hmem : frame ∈ frames thread := Guards.top_mem hthread
    have hstep := entries_act hknown.guards hthread hpre hperform
    have hcall : ((protocol env).next frame action reply).call = frame.call :=
      (next_call action reply).call
    have hstatus : ∀ other, state.status other = some none → state'.status other = some none :=
      fun other => destroyed_kept hknown.borrowed hmem hpre hperform
    refine h.step hthread ?_ ?_
    · refine (h thread frame rest (by rw [hthread])).mono hcall ?_ (hstatus thread)
        (fun herror hchecked =>
          ⟨error_kept hperform herror, unchecked_kept hperform herror hchecked⟩) ?_ ?_
      · exact unfinished_before action reply
      · exact not_taken_before action reply
      · exact fun _ htook spanId _ entry hentry => hstep.kept hentry fun _ => .inr htook
    · intro other value below hsuffix hrest hvalue
      refine hvalue.mono rfl id (hstatus other)
        (fun herror hchecked => ⟨error_kept hperform herror, hchecked⟩) id ?_
      intro hunfinished _ spanId hkeeps entry hentry
      refine hstep.kept hentry fun hclose => .inl ?_
      have hmem' : value ∈ frames other := hsuffix.subset List.mem_cons_self
      refine Call.keeps.not_closed hknown.ledger hknown.family hmem hmem' hunfinished ?_ hkeeps
        hclose
      by_cases hother : other = thread
      · subst hother
        have hwithin := hknown.ledger.distinct.within other
        rw [hthread, List.pairwise_cons] at hwithin
        exact hwithin.1 value (hrest rfl)
      · exact hknown.ledger.distinct.across thread other (Ne.symm hother) frame hmem value hmem'
  ret := fun _ h hthread _ _ => h.pop hthread
  call := by
    intro state frames thread call prog state' hknown h hready hclear hcall _
    obtain ⟨registry, -, -, rfl, -⟩ := hknown.ledger.call_admits hcall
    refine h.push ?_ ?_
    · exact hknown.covered_call hready hclear rfl rfl rfl
    · intro other value below _ hvalue
      exact hvalue.mono rfl id id (fun herror hchecked => ⟨herror, hchecked⟩) id
        fun _ _ spanId _ entry hentry => ⟨entry, hentry, rfl, rfl, rfl, rfl⟩

theorem locks_lookup {env : Env} {frame : Frame} {action : SpanAct} {spans : Spans} {lock : Lock}
    (hpre : pre env frame (.spans action)) (hlock : lock ∈ spans.locks env.mapShard action) :
    ∃ spanId, frame.MayLookUp env spanId ∧ (lock = .fast (activeShard spanId) ∨
      lock = .map (env.mapShard spanId) ∧ ((∃ entry, spans.entries spanId = some entry ∧
        entry.tier = .fast) → ∃ instance_ data, action = .insert spanId instance_ data)) := by
  have hsearch : ∀ spanId, lock ∈ spans.searchLocks env.mapShard spanId →
      lock = .fast (activeShard spanId) ∨ lock = .map (env.mapShard spanId) ∧
        ¬ ∃ entry, spans.entries spanId = some entry ∧ entry.tier = .fast := by
    intro spanId hmem
    rw [Spans.searchLocks, List.mem_cons] at hmem
    rcases hmem with heq | hmem
    · exact .inl heq
    · refine .inr ⟨?_, ?_⟩
      · split at hmem
        · cases hmem
        · exact List.mem_singleton.1 hmem
      · rintro ⟨entry, hentry, htier⟩
        simp [hentry, htier] at hmem
  cases action with
  | insert spanId instance_ data =>
      refine ⟨spanId, hpre.1, ?_⟩
      rw [Spans.locks, List.mem_cons] at hlock
      rcases hlock with heq | hmem
      · exact .inl heq
      · refine .inr ⟨?_, fun _ => ⟨instance_, data, rfl⟩⟩
        split at hmem
        · cases hmem
        · exact List.mem_singleton.1 hmem
  | get spanId =>
      refine ⟨spanId, hpre.1, ?_⟩
      rcases hsearch spanId hlock with heq | ⟨heq, hnot⟩
      · exact .inl heq
      · exact .inr ⟨heq, fun hsome => absurd hsome hnot⟩
  | getMut spanId =>
      refine ⟨spanId, hpre.1, ?_⟩
      rcases hsearch spanId hlock with heq | ⟨heq, hnot⟩
      · exact .inl heq
      · exact .inr ⟨heq, fun hsome => absurd hsome hnot⟩
  | take spanId =>
      refine ⟨spanId, hpre.1, ?_⟩
      rcases hsearch spanId hlock with heq | ⟨heq, hnot⟩
      · exact .inl heq
      · exact .inr ⟨heq, fun hsome => absurd hsome hnot⟩
  | _ => cases hlock

theorem Known.guards_of_holds {env : Env} {state : State} {frames : Frames} {thread : ThreadId}
    {lock : Lock} (h : Known env state frames) (hholds : state.spans.holds thread lock = true) :
    ∃ value ∈ frames thread, value.guard ≠ none := by
  have howned : state.spans.owner lock = some thread → ∃ value ∈ frames thread,
      value.guard ≠ none := by
    intro howner
    obtain ⟨value, hvalue, found, hfound, -⟩ := h.guards.owned lock thread howner
    exact ⟨value, hvalue, by simp [hfound]⟩
  cases lock with
  | fast shard =>
      apply howned
      simpa [Spans.holds] using hholds
  | map shard =>
      simp only [Spans.holds, Bool.or_eq_true, decide_eq_true_eq] at hholds
      rcases hholds with howner | hreader
      · exact howned howner
      · obtain ⟨value, hvalue, found, hfound, -⟩ := h.guards.reading shard thread hreader
        exact ⟨value, hvalue, by simp [hfound]⟩

theorem Known.holder {env : Env} {state : State} {frames : Frames} {thread : ThreadId}
    {frame : Frame} {rest : List Frame} {lock : Lock} (h : Known env state frames)
    (hthread : frames thread = frame :: rest) (hguard : frame.guard = none)
    (hholds : state.spans.holds thread lock = true) :
    ∃ value ∈ rest, ∃ found, value.guard = some found ∧ found.lock env = lock := by
  have hbelow : ∀ value ∈ frames thread, ∀ found, value.guard = some found → value ∈ rest := by
    intro value hvalue found hfound
    rw [hthread] at hvalue
    rcases List.mem_cons.1 hvalue with rfl | hvalue
    · rw [hguard] at hfound
      cases hfound
    · exact hvalue
  have howned : state.spans.owner lock = some thread →
      ∃ value ∈ rest, ∃ found, value.guard = some found ∧ found.lock env = lock := by
    intro howner
    obtain ⟨value, hvalue, found, hfound, -, heq⟩ := h.guards.owned lock thread howner
    exact ⟨value, hbelow value hvalue found hfound, found, hfound, heq⟩
  cases lock with
  | fast shard =>
      apply howned
      simpa [Spans.holds] using hholds
  | map shard =>
      simp only [Spans.holds, Bool.or_eq_true, decide_eq_true_eq] at hholds
      rcases hholds with howner | hreader
      · exact howned howner
      · obtain ⟨value, hvalue, found, hfound, hshared, heq⟩ := h.guards.reading shard thread hreader
        have hrest := hbelow value hvalue found hfound
        have hfalse := Guards.exclusive_of_shared hshared
        rcases Guards.below_exclusive h.ledger hthread hrest with hnone | hexclusive
        · rw [hnone] at hfound
          cases hfound
        · rw [hexclusive] at hfalse
          cases hfalse

/-- A covered callback locks nothing that is locked below it. -/
theorem Known.not_locked {env : Env} {state : State} {frames : Frames} {thread : ThreadId}
    {frame : Frame} {rest : List Frame} {action : SpanAct} {lock : Lock}
    (h : Known env state frames) (hthread : frames thread = frame :: rest)
    (hcovered : Covered env state thread frame rest) (hpre : pre env frame (.spans action))
    (hlock : lock ∈ state.spans.locks env.mapShard action) :
    state.spans.holds thread lock = false := by
  obtain ⟨spanId, ⟨hguard, hspan, hcontext, htook, hfinished, hchecked⟩, hcases⟩ :=
    locks_lookup hpre hlock
  have hmem := Guards.top_mem hthread
  rw [Bool.eq_false_iff]
  intro hholds
  obtain ⟨value, hvalue, found, hfound, rfl⟩ := h.holder hthread hguard hholds
  rcases hcovered hfinished with ⟨hneeds, hrefused⟩ | ⟨-, hunchecked, hopen⟩ | hlocks
  · have hheld : frame.context = true := by
      rcases hcontext with hfree | hheld
      · rw [hneeds] at hfree
        cases hfree
      · exact hheld
    rcases hrefused with hgone | ⟨other, hother, hborrowed⟩
    · rw [h.borrowed.held thread frame hmem hheld] at hgone
      cases hgone
    · have halone := h.borrowed.alone thread
      rw [hthread, List.pairwise_cons] at halone
      rw [halone.1 other hother hheld] at hborrowed
      cases hborrowed
  · rcases hchecked with hchecked | hclose
    · rw [hunchecked] at hchecked
      cases hchecked
    · exact hopen spanId hclose
  · obtain ⟨hfast, hmap⟩ := hlocks value hvalue found hfound spanId hspan
    rcases hcases with heq | ⟨heq, hinsert⟩
    · exact hfast heq
    · obtain ⟨-, entry, hentry, htier⟩ := hmap heq htook
      obtain ⟨instance_, data, rfl⟩ := hinsert ⟨entry, hentry, htier⟩
      obtain ⟨-, ⟨metadata, parent, hcall⟩, -, hinserted, -⟩ := hpre
      rw [h.guards.creating thread frame hmem hfinished hinserted spanId metadata parent hcall]
        at hentry
      cases hentry

theorem Known.record_of_holds {env : Env} {state : State} {frames : Frames} {thread : ThreadId}
    {lock : Lock} (h : Known env state frames)
    (hready : System.Ready (system env) (protocol env) (frames thread))
    (hholds : state.spans.holds thread lock = true) :
    ∃ value ∈ frames thread, ∃ spanId, value.call = .record spanId := by
  obtain ⟨value, hvalue, hguard⟩ := h.guards_of_holds hholds
  refine ⟨value, hvalue, ?_⟩
  rcases Ledger.ready_waiting hready with hnil | ⟨frame, rest, hthread, hwaits⟩
  · rw [hnil] at hvalue
    cases hvalue
  · have hwaiting : value.Waiting := by
      rw [hthread] at hvalue
      rcases List.mem_cons.1 hvalue with rfl | hrest
      · exact hwaits
      · have hbelow := h.ledger.waiting thread
        rw [hthread, List.pairwise_cons] at hbelow
        exact (hbelow.1 value hrest).1
    exact (hwaiting.guard.resolve_left hguard).2

/-- Formatters of other callbacks than `on_record` may call what they like. -/
theorem Known.clear {env : Env} {state : State} {frames : Frames} {thread : ThreadId}
    (h : Known env state frames)
    (hready : System.Ready (system env) (protocol env) (frames thread))
    (hrecord : ∀ value ∈ frames thread, ∀ spanId, value.call ≠ .record spanId) (call : Call) :
    Clear env thread call state := by
  have hfree : ∀ lock, ¬ state.spans.holds thread lock = true := by
    intro lock hholds
    obtain ⟨value, hvalue, spanId, hcall⟩ := h.record_of_holds hready hholds
    exact hrecord value hvalue spanId hcall
  intro _ spanId _ hmeets
  rcases hmeets with hfast | ⟨hmap, -⟩
  · exact hfree _ hfast
  · exact hfree _ hmap

/-- As long as formatters call nothing that looks up a span whose lock is held, no thread
waits for itself. -/
theorem no_self_deadlock {env : Env} {nextSequenceId : Nat} {labels : List (system env).Label}
    {config : (system env).Config} (hobeys : System.Obeys (Clear env) labels
      (System.idle (State.new nextSequenceId)))
    (hrun : System.run labels (System.idle (State.new nextSequenceId)) = some config)
    (thread : ThreadId) : deadlocksItself env config thread = false := by
  obtain ⟨frames, ⟨hknown, hcovered⟩, htracks⟩ := known_run (covered_kept env)
    (fun _ _ _ hsuffix => by simp at hsuffix) hobeys hrun
  have hthread := htracks thread
  rw [deadlocksItself]
  split
  · rename_i action next programs hprograms
    rw [hprograms] at hthread
    obtain ⟨frame, rest, ⟨hpre, -⟩, -, hframes⟩ := List.forall₂_cons_left_iff.1 hthread
    rw [List.any_eq_false]
    intro lock hlock
    rw [Bool.not_eq_true]
    exact hknown.not_locked hframes (hcovered thread frame rest (by rw [hframes])) hpre hlock
  · rfl

/-- A test for clear calls, without regard to the map. -/
def untouched (env : Env) (thread : ThreadId) (call : Call) (state : State) : Bool :=
  (call.lookups env).all fun spanId =>
    !state.spans.holds thread (.fast (activeShard spanId)) &&
      !state.spans.holds thread (.map (env.mapShard spanId))

theorem clear_of_untouched {env : Env} {thread : ThreadId} {call : Call} {state : State}
    (h : untouched env thread call state = true) : Clear env thread call state := by
  intro _ spanId hspan hmeets
  have hfree := List.all_eq_true.1 h spanId hspan
  simp only [Bool.and_eq_true, Bool.not_eq_eq_eq_not, Bool.not_true] at hfree
  rcases hmeets with hfast | ⟨hmap, -⟩
  · rw [hfree.1] at hfast
    cases hfast
  · rw [hfree.2] at hmap
    cases hmap

/-! ## A formatter that records on its own span -/

def sampleEnv : Env where
  config := ⟨.threadTracks, true, false, false, false, false⟩
  memory := default
  bases := default
  domain := .builtin 6
  mapShard := fun spanId => spanId.toNat

def sampleMetadata : Metadata :=
  ⟨64, ⟨16, 4, Nat.succ_ne_zero 15⟩, ⟨16, 4, Nat.succ_ne_zero 15⟩, .info, none, none, []⟩

def sampleChoice : Choice := ⟨⟨140, 9, 9, none, true, 77, 4, [112], [], 5, [116]⟩, [], true, false⟩

/-- The span 1 is created, and the formatter of a field that is recorded on it is
running. -/
def formatting : List (system sampleEnv).Label :=
  .call 1 (.newSpan 1 sampleMetadata none) :: List.replicate 14 (.act 1 sampleChoice) ++
    .ret 1 :: .call 1 (.record 1) :: List.replicate 2 (.act 1 sampleChoice)

def nested (call : Call) (steps : Nat) : Option (system sampleEnv).Config :=
  System.run (formatting ++ .call 1 call :: List.replicate steps (.act 1 sampleChoice))
    (System.idle (State.new 65536))

theorem record_deadlocks : ∃ config, nested (.record 1) 1 = some config ∧
    deadlocksItself sampleEnv config 1 = true := by
  have hrun : (nested (.record 1) 1).map (fun config => deadlocksItself sampleEnv config 1) =
      some true := by decide +kernel
  exact Option.map_eq_some_iff.1 hrun

theorem nested_isSome : (nested (.newSpan 2 sampleMetadata none) 9).isSome = true := by
  decide +kernel

theorem no_self_deadlock_nested : ∃ config,
    nested (.newSpan 2 sampleMetadata none) 9 = some config ∧
      deadlocksItself sampleEnv config 1 = false := by
  obtain ⟨config, hrun⟩ := Option.isSome_iff_exists.1 nested_isSome
  have hobeys : System.Obeys (Clear sampleEnv)
      (formatting ++ .call 1 (.newSpan 2 sampleMetadata none) ::
        List.replicate 9 (.act 1 sampleChoice)) (System.idle (State.new 65536)) :=
    System.obeys_of_allPass (fun _ _ _ => clear_of_untouched) (by decide +kernel)
  exact ⟨config, hrun, no_self_deadlock hobeys hrun 1⟩

end TracingPerfetto.Layer
