import TracingPerfetto.LayerLedger

/-!
The context of a thread is with at most one of its callbacks, and the thread-local storage
says so.
-/

namespace TracingPerfetto.Layer

open TracingPerfetto.Runtime TracingPerfetto.Sequence TracingPerfetto.TrackEvents
open TracingPerfetto.Counters TracingPerfetto.Threads
open TracingPerfetto.SpanStore (SpanId)

/-- The storage without the context in it: not set, destroyed, or borrowed or not. -/
def Tls.status : Tls → Option (Option Bool)
  | .unset => none
  | .live context => some (some context.borrowed)
  | .destroyed => some none

def State.status (state : State) (thread : ThreadId) : Option (Option Bool) :=
  (state.contexts.tls thread).status

structure Borrowed (state : State) (frames : Frames) : Prop where
  held : Every (fun thread frame => frame.context = true →
    state.status thread = some (some true)) frames
  holder : ∀ thread, state.status thread = some (some true) →
    ∃ frame ∈ frames thread, frame.context = true
  alone : ∀ thread, (frames thread).Pairwise fun frame below =>
    frame.context = true → below.context = false
  vacant : Every (fun thread frame => frame.vacant = true → state.status thread = none) frames

section Status

variable {bases : IdBases} {thread : ThreadId} {contexts contexts' : Contexts}

theorem live_tls {context : ThreadCtx} :
    contexts.live thread = some context ↔ contexts.tls thread = .live context := by
  rw [Contexts.live]
  cases contexts.tls thread <;> simp

/-- An action on the context that keeps its mark. -/
theorem set_status {context context' : ThreadCtx} (hlive : contexts.live thread = some context)
    (hborrowed : context'.borrowed = context.borrowed) (other : ThreadId) :
    ((contexts.set thread (.live context')).tls other).status = (contexts.tls other).status := by
  by_cases hother : other = thread
  · subst hother
    simp only [Contexts.set, Function.update_self, live_tls.1 hlive, Tls.status, hborrowed]
  · simp only [Contexts.set, Function.update_of_ne hother]

theorem onLive_cases {α : Type} {action : ThreadCtx → α × ThreadCtx} {reply : α}
    (h : contexts.onLive thread action = some (reply, contexts')) :
    ∃ context, contexts.live thread = some context ∧ reply = (action context).1 ∧
      contexts' = contexts.set thread (.live (action context).2) := by
  simp only [Contexts.onLive, Option.map_eq_some_iff, Prod.mk.injEq] at h
  obtain ⟨context, hlive, hreply, rfl⟩ := h
  exact ⟨context, hlive, hreply.symm, rfl⟩

theorem onLive_status {α : Type} {action : ThreadCtx → α × ThreadCtx} {reply : α}
    (h : contexts.onLive thread action = some (reply, contexts'))
    (haction : ∀ context, (action context).2.borrowed = context.borrowed) (other : ThreadId) :
    (contexts'.tls other).status = (contexts.tls other).status := by
  obtain ⟨context, hlive, -, rfl⟩ := onLive_cases h
  exact set_status hlive (haction context) other

/-- The actions that neither take nor give back the context. -/
theorem context_status {action : ContextAct} {reply : action.Reply}
    (h : action.perform bases thread contexts = some (reply, contexts'))
    (hlookup : action ≠ .lookup) (hinsert : ∀ sequenceId uuid anchor,
      action ≠ .insert sequenceId uuid anchor) (hdrop : action ≠ .dropGuard)
    (hdestroy : action ≠ .destroy) (other : ThreadId) :
    (contexts'.tls other).status = (contexts.tls other).status := by
  cases action with
  | lookup => exact absurd rfl hlookup
  | insert => exact absurd rfl (hinsert _ _ _)
  | dropGuard => exact absurd rfl hdrop
  | destroy => exact absurd rfl hdestroy
  | takeRetained =>
      refine onLive_status h (fun context => ?_) other
      rw [ThreadCtx.takeRetained]
      split <;> rfl
  | returnRetained retained =>
      refine onLive_status h (fun context => ?_) other
      simp only [ThreadCtx.returnRetained]
      split <;> rfl
  | cachedTrack key =>
      refine onLive_status h (fun context => ?_) other
      rw [ThreadCtx.cachedTrack]
      split
      · split <;> rfl
      · rfl
  | cachePool key pool localUuid => exact onLive_status h (fun context => rfl) other
  | evict => exact onLive_status h (fun context => rfl) other
  | releaseLocal pool uuid =>
      refine onLive_status h (fun context => ?_) other
      rw [ThreadCtx.releaseLocal]
      split
      · split <;> rfl
      · rfl

theorem sequence_status {env : Env} {time : Nat} {answers : Answers} {trace trace' : Trace}
    {action : SequenceAct} {reply : action.Reply}
    (h : action.perform env thread time answers (contexts, trace) =
      some (reply, contexts', trace')) (other : ThreadId) :
    (contexts'.tls other).status = (contexts.tls other).status := by
  cases action with
  | readClock =>
      simp only [SequenceAct.perform, Option.some.injEq, Prod.mk.injEq] at h
      rw [h.2.1]
  | initialized | threadTrackUuid | counterTrackUuid =>
      simp only [SequenceAct.perform, Option.bind_eq_bind, Option.bind_eq_some_iff,
        Option.some.injEq, Prod.mk.injEq] at h
      obtain ⟨_, _, _, rfl, _⟩ := h
      rfl
  | newWriter | markInitialized | cacheCounterTrack =>
      simp only [SequenceAct.perform, Option.bind_eq_bind, Option.bind_eq_some_iff,
        Option.some.injEq, Prod.mk.injEq] at h
      obtain ⟨context, hlive, _, rfl, _⟩ := h
      refine set_status hlive ?_ other
      rfl
  | timestamp =>
      simp only [SequenceAct.perform, Option.bind_eq_bind, Option.bind_eq_some_iff,
        Option.some.injEq, Prod.mk.injEq] at h
      obtain ⟨context, hlive, _, rfl, _⟩ := h
      refine set_status hlive ?_ other
      rw [ThreadCtx.timestamp]
      split <;> rfl
  | write span calledAt content =>
      simp only [SequenceAct.perform, Option.bind_eq_bind, Option.bind_eq_some_iff,
        Option.some.injEq, Prod.mk.injEq] at h
      obtain ⟨context, hlive, _, _, _, _, _, _, _, rfl, _⟩ := h
      refine set_status hlive ?_ other
      rfl

end Status

theorem perform_contexts {env : Env} {thread : ThreadId} {action : Act} {choice : Choice}
    {state state' : State} {reply : action.Reply}
    (h : perform env thread action choice state = some (reply, state'))
    (haction : ∀ act, action ≠ .context act) (other : ThreadId) :
    state'.status other = state.status other := by
  cases action with
  | shared | pools | format | registry =>
      simp only [perform, Option.some.injEq, Prod.mk.injEq] at h
      rw [← h.2]
      rfl
  | spans =>
      simp only [perform, Option.bind_eq_bind, Option.bind_eq_some_iff, Option.some.injEq,
        Prod.mk.injEq] at h
      obtain ⟨_, _, _, rfl⟩ := h
      rfl
  | sequence action =>
      simp only [perform, Option.bind_eq_bind, Option.bind_eq_some_iff, Option.some.injEq,
        Prod.mk.injEq] at h
      obtain ⟨⟨_, contexts, trace⟩, hperform, _, rfl⟩ := h
      exact sequence_status hperform other
  | context action => exact absurd rfl (haction action)

theorem next_same_context {frame : Frame} (action : Act) (reply : action.Reply)
    (haction : ∀ act, action ≠ .context act) : SameContext frame (next frame action reply) := by
  cases action with
  | shared action => exact (next_shared action reply).2.2.1
  | pools action => exact (next_pools action reply).2.2.1
  | spans action => exact (next_spans action reply).2.1
  | sequence action => exact (next_sequence action reply).2.2.1
  | registry action => cases action <;> exact ⟨rfl, rfl⟩
  | format => exact ⟨rfl, rfl⟩
  | context action => exact absurd rfl (haction action)

namespace Borrowed

variable {state state' : State} {frames : Frames} {thread : ThreadId} {frame frame' : Frame}
  {rest : List Frame}

/-- A step that neither takes nor gives back a context. -/
theorem same (h : Borrowed state frames) (hthread : frames thread = frame :: rest)
    (hstatus : ∀ other, state'.status other = state.status other)
    (hframe : SameContext frame frame') :
    Borrowed state' (Function.update frames thread (frame' :: rest)) where
  held := by
    refine h.held.step hthread ?_ ?_
    · rw [hframe.context, hstatus]
      exact h.held thread frame (by rw [hthread]; exact List.mem_cons_self)
    · intro other value hvalue
      rw [hstatus]
      exact hvalue
  holder := by
    intro other hother
    rw [hstatus] at hother
    obtain ⟨value, hmem, hvalue⟩ := h.holder other hother
    by_cases heq : other = thread
    · subst heq
      rw [hthread] at hmem
      rw [Function.update_self]
      rcases List.mem_cons.1 hmem with rfl | hrest
      · exact ⟨frame', List.mem_cons_self, hframe.context.trans hvalue⟩
      · exact ⟨value, List.mem_cons_of_mem _ hrest, hvalue⟩
    · rw [Function.update_of_ne heq]
      exact ⟨value, hmem, hvalue⟩
  alone := by
    apply pairwise_step h.alone hthread
    intro below _ halone
    rw [hframe.context]
    exact halone
  vacant := by
    refine h.vacant.step hthread ?_ ?_
    · rw [hframe.vacant, hstatus]
      exact h.vacant thread frame (by rw [hthread]; exact List.mem_cons_self)
    · intro other value hvalue
      rw [hstatus]
      exact hvalue

/-- Below the top no callback has the context while it is not borrowed. -/
theorem below_of_status (h : Borrowed state frames) (hthread : frames thread = frame :: rest)
    (hstatus : state.status thread ≠ some (some true)) :
    ∀ value ∈ rest, value.context = false := by
  intro value hmem
  by_contra hvalue
  rw [Bool.not_eq_false] at hvalue
  exact hstatus (h.held thread value (by rw [hthread]; exact List.mem_cons_of_mem _ hmem) hvalue)

/-- The top takes the context or gives it back. -/
theorem change (h : Borrowed state frames) (hledger : Ledger state frames)
    (hthread : frames thread = frame :: rest)
    (hothers : ∀ other, other ≠ thread → state'.status other = state.status other)
    (hheld : frame'.context = true ↔ state'.status thread = some (some true))
    (hvacant : frame'.vacant = true → state'.status thread = none)
    (hbelow : ∀ value ∈ rest, value.context = false) :
    Borrowed state' (Function.update frames thread (frame' :: rest)) where
  held := by
    apply every_update
    · intro value hmem hvalue
      rcases List.mem_cons.1 hmem with rfl | hrest
      · exact hheld.1 hvalue
      · rw [hbelow value hrest] at hvalue
        cases hvalue
    · intro other hother value hmem hvalue
      rw [hothers other hother]
      exact h.held other value hmem hvalue
  holder := by
    intro other hother
    by_cases heq : other = thread
    · subst heq
      rw [Function.update_self]
      exact ⟨frame', List.mem_cons_self, hheld.2 hother⟩
    · rw [hothers other heq] at hother
      rw [Function.update_of_ne heq]
      exact h.holder other hother
  alone := by
    apply pairwise_step h.alone hthread
    exact fun below hmem _ _ => hbelow below hmem
  vacant := by
    have hwaiting := hledger.waiting thread
    rw [hthread, List.pairwise_cons] at hwaiting
    apply every_update
    · intro value hmem hvalue
      rcases List.mem_cons.1 hmem with rfl | hrest
      · exact hvacant hvalue
      · rw [(hwaiting.1 value hrest).1.vacant] at hvalue
        cases hvalue
    · intro other hother value hmem hvalue
      rw [hothers other hother]
      exact h.vacant other value hmem hvalue

theorem set_other {contexts : Contexts} {tls : Tls} {other : ThreadId} (hother : other ≠ thread) :
    (contexts.set thread tls).tls other = contexts.tls other :=
  Function.update_of_ne hother ..

theorem set_self {contexts : Contexts} {tls : Tls} :
    (contexts.set thread tls).tls thread = tls :=
  Function.update_self ..

theorem lookup_cases {bases : IdBases} {contexts contexts' : Contexts} {found : Lookup}
    (h : ContextAct.perform bases thread .lookup contexts = some (found, contexts')) :
    found = .missing ∧ contexts.tls thread = .unset ∧ contexts' = contexts ∨
    found = .acquired ∧ (contexts.tls thread).status = some (some false) ∧
      (∀ other, other ≠ thread → contexts'.tls other = contexts.tls other) ∧
      (contexts'.tls thread).status = some (some true) ∧ contexts'.refused = contexts.refused ∨
    found = .refused ∧ (contexts.tls thread).status ≠ none ∧ contexts'.tls = contexts.tls ∧
      contexts'.refused = true := by
  simp only [ContextAct.perform, Option.some.injEq] at h
  cases htls : contexts.tls thread with
  | unset =>
      simp only [htls, Prod.mk.injEq] at h
      exact .inl ⟨h.1.symm, rfl, h.2.symm⟩
  | live context =>
      simp only [htls] at h
      by_cases hborrowed : context.borrowed = true
      · simp only [hborrowed, if_true, Prod.mk.injEq] at h
        obtain ⟨rfl, rfl⟩ := h
        exact .inr (.inr ⟨rfl, by simp [Tls.status], rfl, rfl⟩)
      · rw [Bool.not_eq_true] at hborrowed
        simp only [hborrowed, Bool.false_eq_true, if_false, Prod.mk.injEq] at h
        obtain ⟨rfl, rfl⟩ := h
        refine .inr (.inl ⟨rfl, by simp [Tls.status, hborrowed], fun other hother => ?_, ?_, rfl⟩)
        · exact set_other hother
        · rw [set_self]
          rfl
  | destroyed =>
      simp only [htls, Prod.mk.injEq] at h
      obtain ⟨rfl, rfl⟩ := h
      exact .inr (.inr ⟨rfl, by simp [Tls.status], rfl, rfl⟩)

/-- A callback with the context is not interrupted by another one that has it, or is about
to have it. -/
theorem above {state : State} {frames : Frames} {thread : ThreadId} {frame value : Frame}
    {rest : List Frame} (h : Borrowed state frames) (hthread : frames thread = frame :: rest)
    (hmem : value ∈ rest) (hcontext : value.context = true) :
    frame.context = false ∧ frame.vacant = false := by
  have hframe : frame ∈ frames thread := by
    rw [hthread]
    exact List.mem_cons_self
  have hvalue : value ∈ frames thread := by
    rw [hthread]
    exact List.mem_cons_of_mem _ hmem
  constructor
  · by_contra hheld
    rw [Bool.not_eq_false] at hheld
    have halone := h.alone thread
    rw [hthread, List.pairwise_cons] at halone
    exact absurd (hcontext.symm.trans (halone.1 value hmem hheld)) (by simp)
  · by_contra hvacant
    rw [Bool.not_eq_false] at hvacant
    have hnone := h.vacant thread frame hframe hvacant
    have hsome := h.held thread value hvalue hcontext
    rw [hnone] at hsome
    cases hsome

end Borrowed

theorem borrowed_kept (env : Env) : KeepsInv env AnyCall Ledger Borrowed where
  act := by
    intro state frames thread frame rest action choice reply state' hledger h hthread hpre hperform
      _
    by_cases hcontext : ∃ act, action = .context act
    · obtain ⟨act, rfl⟩ := hcontext
      simp only [system, perform, Option.bind_eq_bind, Option.bind_eq_some_iff,
        Option.some.injEq, Prod.mk.injEq] at hperform
      obtain ⟨⟨reply', contexts⟩, hperform, hreply, rfl⟩ := hperform
      simp only at hreply
      subst hreply
      have hmem : frame ∈ frames thread := by
        rw [hthread]
        exact List.mem_cons_self
      cases act with
      | lookup =>
          obtain ⟨hframe, hvacant, -⟩ := hpre
          rcases Borrowed.lookup_cases hperform with ⟨rfl, htls, rfl⟩ |
              ⟨rfl, hstatus, hothers, hself, -⟩ | ⟨rfl, hstatus, htls, -⟩
          · have hunset : state.status thread = none := by
              rw [State.status, htls]
              rfl
            refine h.change hledger hthread (fun _ _ => rfl) ?_ (fun _ => hunset)
              (h.below_of_status hthread (by simp [hunset]))
            change frame.context = true ↔ state.status thread = some (some true)
            simp [hframe, hunset]
          · refine h.change hledger hthread ?_ ?_ ?_ (h.below_of_status hthread ?_)
            · intro other hother
              exact congrArg Tls.status (hothers other hother)
            · change true = true ↔ (contexts.tls thread).status = some (some true)
              simp [hself]
            · intro hvalue
              change frame.vacant = true at hvalue
              simp [hvacant] at hvalue
            · rw [State.status, hstatus]
              simp
          · refine h.same hthread ?_ ⟨rfl, rfl⟩
            intro other
            exact congrArg Tls.status (congrFun htls other)
      | insert sequenceId uuid anchor =>
          obtain ⟨hvacant, -, -⟩ := hpre
          have hunset := h.vacant thread frame hmem hvacant
          simp only [ContextAct.perform, Option.some.injEq, Prod.mk.injEq] at hperform
          obtain ⟨-, rfl⟩ := hperform
          refine h.change hledger hthread ?_ ?_ ?_ (h.below_of_status hthread (by simp [hunset]))
          · intro other hother
            exact congrArg Tls.status (Borrowed.set_other hother)
          · refine ⟨fun _ => ?_, fun _ => rfl⟩
            exact congrArg Tls.status Borrowed.set_self
          · exact fun hvalue => absurd hvalue Bool.false_ne_true
      | dropGuard =>
          obtain ⟨hframe, -⟩ := hpre
          obtain ⟨context, hlive, -, rfl⟩ := onLive_cases hperform
          have halone := h.alone thread
          rw [hthread, List.pairwise_cons] at halone
          have hstatus : ((state.contexts.set thread
              (.live { context with borrowed := false })).tls thread).status =
              some (some false) := congrArg Tls.status Borrowed.set_self
          refine h.change hledger hthread ?_ ?_ ?_ fun value hvalue => halone.1 value hvalue hframe
          · intro other hother
            exact congrArg Tls.status (Borrowed.set_other hother)
          · change false = true ↔ ((state.contexts.set thread
              (.live { context with borrowed := false })).tls thread).status = some (some true)
            rw [hstatus]
            simp
          · intro hvalue
            have hunset := h.vacant thread frame hmem hvalue
            rw [State.status, live_tls.1 hlive] at hunset
            simp [Tls.status] at hunset
      | destroy =>
          obtain ⟨hexit, hframe, hvacant⟩ := hpre
          have hrest : rest = [] := by
            have hwaiting := hledger.waiting thread
            rw [hthread, List.pairwise_cons] at hwaiting
            cases rest with
            | nil => rfl
            | cons value below => exact absurd hexit (hwaiting.1 value List.mem_cons_self).2
          subst hrest
          have htls : contexts = state.contexts.set thread .destroyed := by
            simp only [ContextAct.perform, Option.some.injEq] at hperform
            split at hperform <;> exact (Prod.mk.inj hperform).2.symm
          subst htls
          refine h.change hledger hthread ?_ ?_ ?_ (by simp)
          · intro other hother
            exact congrArg Tls.status (Borrowed.set_other hother)
          · change frame.context = true ↔ _
            rw [hframe, State.status]
            simp [Borrowed.set_self, Tls.status]
          · intro hvalue
            change frame.vacant = true at hvalue
            simp [hvacant] at hvalue
      | takeRetained | returnRetained | cachedTrack | cachePool | evict | releaseLocal =>
          refine h.same hthread ?_ ?_
          · intro other
            exact context_status hperform (by simp) (by simp) (by simp) (by simp) other
          · first
            | exact ⟨rfl, rfl⟩
            | (cases reply' <;> exact ⟨rfl, rfl⟩)
    · have haction : ∀ act, action ≠ .context act := fun act heq => hcontext ⟨act, heq⟩
      exact h.same hthread (perform_contexts hperform haction)
        (next_same_context action reply haction)
  ret := by
    intro state frames thread frame rest _ h hthread hfinal _
    constructor
    · exact h.held.pop hthread
    · intro other hother
      obtain ⟨value, hmem, hvalue⟩ := h.holder other hother
      by_cases heq : other = thread
      · subst heq
        rw [hthread] at hmem
        rw [Function.update_self]
        rcases List.mem_cons.1 hmem with rfl | hrest
        · rw [hfinal.context] at hvalue
          cases hvalue
        · exact ⟨value, hrest, hvalue⟩
      · rw [Function.update_of_ne heq]
        exact ⟨value, hmem, hvalue⟩
    · exact pairwise_pop h.alone hthread
    · exact h.vacant.pop hthread
  call := by
    intro state frames thread call prog state' hledger h _ _ hcall _
    obtain ⟨registry, -, -, rfl, -⟩ := hledger.call_admits hcall
    constructor
    · exact h.held.push (fun hvalue => absurd hvalue Bool.false_ne_true) fun _ _ hold => hold
    · intro other hother
      obtain ⟨value, hmem, hvalue⟩ := h.holder other hother
      by_cases heq : other = thread
      · subst heq
        rw [Function.update_self]
        exact ⟨value, List.mem_cons_of_mem _ hmem, hvalue⟩
      · rw [Function.update_of_ne heq]
        exact ⟨value, hmem, hvalue⟩
    · apply pairwise_update h.alone
      exact List.pairwise_cons.2
        ⟨fun _ _ hvalue => absurd hvalue Bool.false_ne_true, h.alone thread⟩
    · exact h.vacant.push (fun hvalue => absurd hvalue Bool.false_ne_true) fun _ _ hold => hold

theorem borrowed_new (nextSequenceId : Nat) : Borrowed (State.new nextSequenceId) fun _ => [] where
  held := fun _ _ hmem => by cases hmem
  holder := fun _ hstatus => by cases hstatus
  alone := fun _ => List.Pairwise.nil
  vacant := fun _ _ hmem => by cases hmem

end TracingPerfetto.Layer
