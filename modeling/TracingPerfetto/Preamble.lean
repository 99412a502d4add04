import TracingPerfetto.TrackDescriptors

/-!
How a sequence starts: with the clock snapshot, the descriptor of the process if nobody has
sent it yet, and the descriptor of the thread, before anything else, whatever the callbacks
of other threads do meanwhile.
-/

namespace TracingPerfetto.Layer

open TracingPerfetto.Proto (Op)
open TracingPerfetto.Schema
open TracingPerfetto.Runtime TracingPerfetto.Sequence TracingPerfetto.TrackEvents
open TracingPerfetto.Counters TracingPerfetto.Threads
open TracingPerfetto.History
open TracingPerfetto.SpanStore (SpanId)

/-! ## Sequences -/

/-- The packets of the sequence of a thread. -/
def packetsOf (packets : List Emitted) (thread : ThreadId) : List Emitted :=
  packets.filter fun packet => packet.thread = thread

def contentsOf (packets : List Emitted) (thread : ThreadId) : List Content :=
  (packetsOf packets thread).map Emitted.content

/-- The packets before the descriptor of the thread. -/
def opening (process : Option Nat) : List Content :=
  .clockSnapshot :: process.toList.map .processDescriptor

/-- A sequence that has started. -/
def Complete (contents : List Content) : Prop :=
  ∃ process, ∃ bodies : List Body,
    contents = opening process ++ .threadDescriptor :: bodies.map Content.body

/-- How far a sequence is, in each step of its start. -/
def Phase.Shape (contents : List Content) : Phase → Prop
  | .closed | .fresh => True
  | .unmarked | .marked | .stamped => contents = []
  | .opened | .claimed | .named _ => contents = opening none
  | .described => ∃ process, contents = opening process
  | .ready => Complete contents

/-- What the state of a sequence says of its start. -/
structure Start where
  initialized : Bool
  firstPacketDone : Bool

def ThreadCtx.start (context : ThreadCtx) : Start :=
  ⟨context.writer.sequence.initialized, context.writer.sequence.firstPacketDone⟩

/-- The sequence of a thread and the callbacks of the thread. -/
structure Started (contents : List Content) (start : Option Start) (frames : List Frame) :
    Prop where
  phases : ∀ frame ∈ frames, frame.phase ≠ .closed → frame.context = true
  shape : ∀ frame ∈ frames, frame.phase.Shape contents
  settled : (∀ frame ∈ frames, frame.phase.calm = true) → contents = [] ∨ Complete contents
  initialized : ∀ known, start = some known → (∀ frame ∈ frames, frame.phase.calm = true) →
    (known.initialized = true ↔ contents ≠ [])
  marked : ∀ known, start = some known → ∀ frame ∈ frames, frame.phase.calm = false →
    frame.phase ≠ .unmarked → known.initialized = true
  done : ∀ known, start = some known → (known.firstPacketDone = true ↔ contents ≠ [])

section Shape

theorem contentsOf_append (packets : List Emitted) (packet : Emitted) (thread : ThreadId) :
    contentsOf (packets ++ [packet]) thread = contentsOf packets thread ++
      if packet.thread = thread then [packet.content] else [] := by
  rw [contentsOf, contentsOf, packetsOf, packetsOf, List.filter_append, List.map_append]
  by_cases hthread : packet.thread = thread
  · simp [hthread]
  · simp [hthread]

theorem Complete.concat {contents : List Content} (h : Complete contents) (body : Body) :
    Complete (contents ++ [.body body]) := by
  obtain ⟨process, bodies, rfl⟩ := h
  exact ⟨process, bodies ++ [body], by simp⟩

theorem complete_opening (process : Option Nat) :
    Complete (opening process ++ [.threadDescriptor]) :=
  ⟨process, [], rfl⟩

theorem Complete.ne_nil {contents : List Content} (h : Complete contents) : contents ≠ [] := by
  obtain ⟨process, bodies, rfl⟩ := h
  exact List.cons_ne_nil _ _

variable {contents contents' : List Content} {start start' : Option Start}
  {frame frame' : Frame} {rest : List Frame}

/-- The top callback goes on. The others are in no start, and keep what they know of the
sequence if they have its context. -/
theorem Started.step (h : Started contents start (frame :: rest))
    (hrest : ∀ value ∈ rest, value.phase.calm = true)
    (hothers : contents' = contents ∨ ∀ value ∈ rest, value.phase = .closed)
    (hphases : frame'.phase ≠ .closed → frame'.context = true)
    (hshape : frame'.phase.Shape contents')
    (hsettled : frame'.phase.calm = true → contents' = [] ∨ Complete contents')
    (hknown : ∀ known, start' = some known →
      (frame'.phase.calm = true → (known.initialized = true ↔ contents' ≠ [])) ∧
      (frame'.phase.calm = false → frame'.phase ≠ .unmarked → known.initialized = true) ∧
      (known.firstPacketDone = true ↔ contents' ≠ [])) :
    Started contents' start' (frame' :: rest) where
  phases := by
    intro value hmem
    rcases List.mem_cons.1 hmem with rfl | hbelow
    · exact hphases
    · exact h.phases value (List.mem_cons_of_mem _ hbelow)
  shape := by
    intro value hmem
    rcases List.mem_cons.1 hmem with rfl | hbelow
    · exact hshape
    · rcases hothers with rfl | hclosed
      · exact h.shape value (List.mem_cons_of_mem _ hbelow)
      · rw [hclosed value hbelow]
        trivial
  settled := fun hall => hsettled (hall frame' List.mem_cons_self)
  initialized := fun known hstart hall => (hknown known hstart).1 (hall frame' List.mem_cons_self)
  marked := by
    intro known hstart value hmem hvalue hunmarked
    rcases List.mem_cons.1 hmem with rfl | hbelow
    · exact (hknown known hstart).2.1 hvalue hunmarked
    · rw [hrest value hbelow] at hvalue
      cases hvalue
  done := fun known hstart => (hknown known hstart).2.2

theorem calm_all (hrest : ∀ value ∈ rest, value.phase.calm = true)
    (hcalm : frame.phase.calm = true) : ∀ value ∈ frame :: rest, value.phase.calm = true := by
  intro value hmem
  rcases List.mem_cons.1 hmem with rfl | hbelow
  · exact hcalm
  · exact hrest value hbelow

/-- What the top callback knows of the sequence, in the form in which a step asks for it. -/
theorem Started.known (h : Started contents start (frame :: rest))
    (hrest : ∀ value ∈ rest, value.phase.calm = true) {known : Start}
    (hstart : start = some known) :
    (frame.phase.calm = true → (known.initialized = true ↔ contents ≠ [])) ∧
      (frame.phase.calm = false → frame.phase ≠ .unmarked → known.initialized = true) ∧
      (known.firstPacketDone = true ↔ contents ≠ []) :=
  ⟨fun hcalm => h.initialized known hstart (calm_all hrest hcalm),
    h.marked known hstart frame List.mem_cons_self, h.done known hstart⟩

/-- A step that leaves the sequence alone. -/
theorem Started.quiet (h : Started contents start (frame :: rest))
    (hrest : ∀ value ∈ rest, value.phase.calm = true) (hphase : frame'.phase = frame.phase)
    (hcontext : frame.context = true → frame'.context = true)
    (hstart : ∀ known, start' = some known → start = some known) :
    Started contents start' (frame' :: rest) := by
  have hmem : frame ∈ frame :: rest := List.mem_cons_self
  refine h.step hrest (.inl rfl) (fun hopen => ?_) ?_ (fun hcalm => ?_) fun known hnew => ?_
  · rw [hphase] at hopen
    exact hcontext (h.phases frame hmem hopen)
  · rw [hphase]
    exact h.shape frame hmem
  · rw [hphase] at hcalm
    exact h.settled (calm_all hrest hcalm)
  · rw [hphase]
    exact h.known hrest (hstart known hnew)

theorem Started.mono {frames : List Frame} (h : Started contents start frames)
    (hstart : ∀ known, start' = some known → start = some known) :
    Started contents start' frames :=
  ⟨h.phases, h.shape, h.settled, fun known hknown => h.initialized known (hstart known hknown),
    fun known hknown => h.marked known (hstart known hknown),
    fun known hknown => h.done known (hstart known hknown)⟩

end Shape

/-! ## Steps -/

def State.start (state : State) (thread : ThreadId) : Option Start :=
  (state.contexts.live thread).map ThreadCtx.start

structure Preambles (state : State) (frames : Frames) : Prop where
  started : ∀ thread,
    Started (contentsOf state.trace.packets thread) (state.start thread) (frames thread)
  unset : ∀ thread, state.status thread = none → contentsOf state.trace.packets thread = []

/-- The steps of the start of a sequence, and what comes before and after it. -/
def Act.starts : Act → Bool
  | .shared .claimProcessDescriptor | .shared .processTrackUuid | .context .dropGuard
  | .context (.insert _ _ _) | .sequence .newWriter | .sequence .initialized
  | .sequence .markInitialized | .sequence .timestamp | .sequence (.write _ _ _) => true
  | _ => false

section Steps

variable {env : Env} {state state' : State} {frames : Frames} {thread : ThreadId}
  {frame : Frame} {rest : List Frame} {choice : Choice}

theorem next_phase (frame : Frame) (action : Act) (reply : action.Reply)
    (haction : action.starts = false) :
    (next frame action reply).phase = frame.phase ∧
      (frame.context = true → (next frame action reply).context = true) := by
  cases action with
  | shared act =>
      cases act with
      | claimProcessDescriptor | processTrackUuid => cases haction
      | _ => exact ⟨rfl, id⟩
  | pools act => cases act <;> exact ⟨rfl, id⟩
  | spans act =>
      cases act with
      | take => cases reply <;> exact ⟨rfl, id⟩
      | _ => exact ⟨rfl, id⟩
  | context act =>
      cases act with
      | dropGuard | insert => cases haction
      | lookup =>
          cases reply with
          | acquired => exact ⟨rfl, fun _ => rfl⟩
          | missing | refused => exact ⟨rfl, id⟩
      | cachedTrack | evict | releaseLocal => cases reply <;> exact ⟨rfl, id⟩
      | _ => exact ⟨rfl, id⟩
  | sequence act =>
      cases act with
      | newWriter | initialized | markInitialized | timestamp | write => cases haction
      | _ => exact ⟨rfl, id⟩
  | registry act => cases act <;> exact ⟨rfl, id⟩
  | format => exact ⟨rfl, id⟩

/-- The start of a sequence is a matter of three actions of its thread. -/
theorem start_before {action : Act} {reply : action.Reply}
    (h : perform env thread action choice state = some (reply, state')) {other : ThreadId}
    (hother : other ≠ thread ∨
      (∀ sequenceId uuid anchor, action ≠ .context (.insert sequenceId uuid anchor)) ∧
      action ≠ .sequence .markInitialized ∧
      ∀ span calledAt content, action ≠ .sequence (.write span calledAt content))
    {known : Start} (hknown : state'.start other = some known) :
    state.start other = some known := by
  rw [State.start, Option.map_eq_some_iff] at hknown
  obtain ⟨context', hlive, rfl⟩ := hknown
  have hstart : ∀ context, state.contexts.live other = some context →
      context'.start = context.start → state.start other = some context'.start := by
    intro context hcontext heq
    rw [State.start, hcontext, heq]
    rfl
  cases context_after h hlive with
  | kept context hcontext hwriter hopened htrack =>
      exact hstart context hcontext (by simp only [ThreadCtx.start, hwriter])
  | inserted sequenceId uuid anchor hsame haction heq =>
      exact absurd haction ((hother.resolve_left (not_not.2 hsame)).1 _ _ _)
  | opened context hcontext hsame haction heq =>
      subst heq
      exact hstart context hcontext rfl
  | marked context hcontext hsame haction heq =>
      exact absurd haction (hother.resolve_left (not_not.2 hsame)).2.1
  | cached context hcontext hsame name uuid haction heq =>
      subst heq
      exact hstart context hcontext rfl
  | stamped context hcontext hsame haction heq =>
      subst heq
      refine hstart context hcontext ?_
      rw [ThreadCtx.timestamp]
      split <;> rfl
  | wrote context hcontext hsame span calledAt content haction timestamp htimestamp writer written
      hfinishes heq htrace =>
      exact absurd haction ((hother.resolve_left (not_not.2 hsame)).2.2 _ _ _)

theorem insert_start {sequenceId uuid anchor : Nat} {reply : Unit}
    (h : perform env thread (.context (.insert sequenceId uuid anchor)) choice state =
      some (reply, state')) : state'.start thread = some ⟨false, false⟩ := by
  obtain ⟨contexts, hperform, rfl⟩ := perform_context h
  simp only [ContextAct.perform, Option.some.injEq, Prod.mk.injEq, true_and] at hperform
  subst hperform
  have hlive : (state.contexts.set thread (.live (ThreadCtx.new sequenceId uuid
      (env.bases.uuid uuid) anchor))).live thread =
        some (ThreadCtx.new sequenceId uuid (env.bases.uuid uuid) anchor) :=
    live_tls.2 Borrowed.set_self
  exact congrArg (Option.map ThreadCtx.start) hlive

theorem mark_start {reply : Unit}
    (h : perform env thread (.sequence .markInitialized) choice state = some (reply, state')) :
    ∃ known, state.start thread = some known ∧
      state'.start thread = some { known with initialized := true } := by
  simp only [perform, SequenceAct.perform, Option.bind_eq_bind, Option.bind_eq_some_iff,
    Option.some.injEq, Prod.mk.injEq] at h
  obtain ⟨_, ⟨context, hlive, rfl⟩, -, rfl⟩ := h
  refine ⟨context.start, congrArg (Option.map ThreadCtx.start) hlive, ?_⟩
  exact congrArg (Option.map ThreadCtx.start) (live_tls.2 Borrowed.set_self)

theorem write_start {span : Option Nat} {calledAt : Nat} {content : Content} {reply : Unit}
    (h : perform env thread (.sequence (.write span calledAt content)) choice state =
      some (reply, state')) :
    ∃ known, state.start thread = some known ∧
      state'.start thread = some { known with firstPacketDone := true } := by
  simp only [perform, SequenceAct.perform, Option.bind_eq_bind, Option.bind_eq_some_iff,
    Option.some.injEq, Prod.mk.injEq] at h
  obtain ⟨_, ⟨context, hlive, timestamp, -, writer, hwrite, written, hlast, rfl⟩, -, rfl⟩ := h
  have hfinishes := writeContent_finishes hwrite hlast
  refine ⟨context.start, congrArg (Option.map ThreadCtx.start) hlive, ?_⟩
  refine (congrArg (Option.map ThreadCtx.start) (live_tls.2 Borrowed.set_self)).trans ?_
  simp only [Option.map_some, ThreadCtx.start, hfinishes.same.initialized, hfinishes.done]

/-- The callbacks below the top are in no start. -/
theorem below_calm (hledger : Ledger state frames) (hthread : frames thread = frame :: rest) :
    ∀ value ∈ rest, value.phase.calm = true := by
  have hwaiting := hledger.waiting thread
  rw [hthread, List.pairwise_cons] at hwaiting
  exact fun value hmem => (hwaiting.1 value hmem).1.calm

/-- With the context on top, the others have no writer. -/
theorem below_closed (hborrowed : Borrowed state frames) (h : Preambles state frames)
    (hthread : frames thread = frame :: rest) (hcontext : frame.context = true) :
    ∀ value ∈ rest, value.phase = .closed := by
  intro value hmem
  by_contra hopen
  have halone := hborrowed.alone thread
  rw [hthread, List.pairwise_cons] at halone
  have hvalue := (h.started thread).phases value (by
    rw [hthread]
    exact List.mem_cons_of_mem _ hmem) hopen
  rw [halone.1 value hmem hcontext] at hvalue
  cases hvalue

theorem perform_initialized {reply : Bool}
    (h : perform env thread (.sequence .initialized) choice state = some (reply, state')) :
    ∃ known, state.start thread = some known ∧ known.initialized = reply := by
  simp only [perform, SequenceAct.perform, Option.bind_eq_bind, Option.bind_eq_some_iff,
    Option.some.injEq, Prod.mk.injEq] at h
  obtain ⟨_, ⟨context, hlive, rfl⟩, rfl, -⟩ := h
  exact ⟨context.start, congrArg (Option.map ThreadCtx.start) hlive, rfl⟩

theorem contents_write {span : Option Nat} {calledAt : Nat} {content : Content} {reply : Unit}
    (h : perform env thread (.sequence (.write span calledAt content)) choice state =
      some (reply, state')) (other : ThreadId) :
    contentsOf state'.trace.packets other = contentsOf state.trace.packets other ++
      if other = thread then [content] else [] := by
  obtain ⟨packet, hpackets, rfl, -, rfl, -⟩ := perform_write h
  rw [hpackets, contentsOf_append]
  simp only [eq_comm (a := other)]

/-- A packet of the top callback. -/
theorem started_write (h : Preambles state frames) (hknown : Known env state frames)
    (hthread : frames thread = frame :: rest) {span : Option Nat} {calledAt : Nat}
    {content : Content} {reply : Unit}
    (hpre : pre env frame (.sequence (.write span calledAt content)))
    (hperform : perform env thread (.sequence (.write span calledAt content)) choice state =
      some (reply, state')) :
    Started (contentsOf state'.trace.packets thread) (state'.start thread)
      (next frame (.sequence (.write span calledAt content)) reply :: rest) := by
  obtain ⟨hcontext, -, hemits, -⟩ := hpre
  have hstarted := h.started thread
  rw [hthread] at hstarted
  have hrest := below_calm hknown.ledger hthread
  have hclosed := below_closed hknown.borrowed h hthread hcontext
  have hshape := hstarted.shape frame List.mem_cons_self
  obtain ⟨before, hbefore, hafter⟩ := write_start hperform
  obtain ⟨hinitialized, hmarked, -⟩ := hstarted.known hrest hbefore
  have hcontents := contents_write hperform thread
  rw [if_pos rfl] at hcontents
  obtain ⟨-, -, ⟨hcontext', -⟩, -⟩ := @next_sequence frame (.write span calledAt content) reply
  have hdone : ∀ known, state'.start thread = some known →
      known.initialized = before.initialized ∧ known.firstPacketDone = true := by
    intro known hsome
    rw [hafter, Option.some.injEq] at hsome
    subst hsome
    exact ⟨rfl, rfl⟩
  have hne : contentsOf state'.trace.packets thread ≠ [] := by
    rw [hcontents]
    simp
  -- the sequence was marked before its first packet
  have hstep : before.initialized = true →
      (next frame (.sequence (.write span calledAt content)) reply).phase.Shape
        (contentsOf state'.trace.packets thread) →
      ((next frame (.sequence (.write span calledAt content)) reply).phase.calm = true →
        Complete (contentsOf state'.trace.packets thread)) →
      Started (contentsOf state'.trace.packets thread) (state'.start thread)
        (next frame (.sequence (.write span calledAt content)) reply :: rest) := by
    intro hbegun hshape' hcomplete
    refine hstarted.step hrest (.inr hclosed) (fun _ => hcontext'.trans hcontext) hshape'
      (fun hcalm => .inr (hcomplete hcalm)) fun known hsome => ?_
    obtain ⟨hsame, hfirst⟩ := hdone known hsome
    rw [hsame, hbegun, hfirst]
    exact ⟨fun _ => ⟨fun _ => hne, fun _ => rfl⟩, fun _ _ => rfl, ⟨fun _ => hne, fun _ => rfl⟩⟩
  cases content with
  | clockSnapshot =>
      have hphase : frame.phase = .stamped := hemits
      rw [hphase] at hshape
      change contentsOf state.trace.packets thread = [] at hshape
      rw [hshape] at hcontents
      exact hstep (hmarked (by rw [hphase]; rfl) (by rw [hphase]; simp)) hcontents
        fun hcalm => by cases hcalm
  | processDescriptor uuid =>
      have hphase : frame.phase = .named uuid := hemits
      rw [hphase] at hshape
      change contentsOf state.trace.packets thread = opening none at hshape
      rw [hshape] at hcontents
      exact hstep (hmarked (by rw [hphase]; rfl) (by rw [hphase]; simp)) ⟨some uuid, hcontents⟩
        fun hcalm => by cases hcalm
  | threadDescriptor =>
      have hphase : frame.phase = .described := hemits
      rw [hphase] at hshape
      obtain ⟨process, hopening⟩ := hshape
      rw [hopening] at hcontents
      have hcomplete : Complete (contentsOf state'.trace.packets thread) :=
        hcontents ▸ complete_opening process
      exact hstep (hmarked (by rw [hphase]; rfl) (by rw [hphase]; simp)) hcomplete
        fun _ => hcomplete
  | body body =>
      obtain ⟨hphase, -⟩ := hemits
      rw [hphase] at hshape
      have hcomplete : Complete (contentsOf state'.trace.packets thread) :=
        hcontents ▸ Complete.concat hshape body
      have hphase' : (next frame (.sequence (.write span calledAt (.body body))) reply).phase =
          .ready := by
        cases body <;> exact hphase
      refine hstep ((hinitialized (by rw [hphase]; rfl)).2 (Complete.ne_nil hshape)) ?_
        fun _ => hcomplete
      rw [hphase']
      exact hcomplete

theorem started_starts (h : Preambles state frames) (hknown : Known env state frames)
    (hthread : frames thread = frame :: rest) {action : Act} {reply : action.Reply}
    (hpre : pre env frame action)
    (hperform : perform env thread action choice state = some (reply, state'))
    (hstarts : action.starts = true)
    (hwrite : ∀ span calledAt content, action ≠ .sequence (.write span calledAt content)) :
    Started (contentsOf state'.trace.packets thread) (state'.start thread)
      (next frame action reply :: rest) := by
  have hpackets : state'.trace.packets = state.trace.packets := perform_packets hperform hwrite
  have hmem : frame ∈ frames thread := Guards.top_mem hthread
  have hstarted := h.started thread
  rw [hthread] at hstarted
  rw [hpackets]
  have hrest := below_calm hknown.ledger hthread
  have hshape := hstarted.shape frame List.mem_cons_self
  have hbefore : (∀ sequenceId uuid anchor, action ≠ .context (.insert sequenceId uuid anchor)) →
      action ≠ .sequence .markInitialized →
      ∀ known, state'.start thread = some known → state.start thread = some known :=
    fun hinsert hmark known hsome => start_before hperform (.inr ⟨hinsert, hmark, hwrite⟩) hsome
  cases action with
  | shared act =>
      have hsame := hbefore (by simp) (by simp)
      cases act with
      | claimProcessDescriptor =>
          have hphase : frame.phase = .opened := hpre
          rw [hphase] at hshape
          have hcontext := hstarted.phases frame List.mem_cons_self (by rw [hphase]; simp)
          refine hstarted.step hrest (.inl rfl) (fun _ => hcontext) ?_ (fun hcalm => ?_)
            fun known hsome => ?_
          · cases reply with
            | true => exact hshape
            | false => exact ⟨none, hshape⟩
          · cases reply <;> cases hcalm
          · obtain ⟨-, hmarked, hdone⟩ := hstarted.known hrest (hsame known hsome)
            rw [hphase] at hmarked
            refine ⟨fun hcalm => ?_, fun _ _ => hmarked rfl (by simp), hdone⟩
            cases reply <;> cases hcalm
      | processTrackUuid =>
          by_cases hphase : frame.phase = .claimed
          · rw [hphase] at hshape
            have hcontext := hstarted.phases frame List.mem_cons_self (by rw [hphase]; simp)
            have hphase' : (next frame (.shared .processTrackUuid) reply).phase = .named reply :=
              if_pos hphase
            refine hstarted.step hrest (.inl rfl) (fun _ => hcontext) ?_ (fun hcalm => ?_)
              fun known hsome => ?_
            · rw [hphase']
              exact hshape
            · rw [hphase'] at hcalm
              cases hcalm
            · obtain ⟨-, hmarked, hdone⟩ := hstarted.known hrest (hsame known hsome)
              rw [hphase] at hmarked
              rw [hphase']
              exact ⟨fun hcalm => (by cases hcalm), fun _ _ => hmarked rfl (by simp), hdone⟩
          · exact hstarted.quiet hrest (if_neg hphase) id hsame
      | _ => cases hstarts
  | context act =>
      cases act with
      | dropGuard =>
          obtain ⟨-, hcalm⟩ := hpre
          refine hstarted.step hrest (.inl rfl) (fun hopen => absurd rfl hopen) trivial
            (fun _ => hstarted.settled (calm_all hrest hcalm)) fun known hsome => ?_
          obtain ⟨hinitialized, -, hdone⟩ :=
            hstarted.known hrest (hbefore (by simp) (by simp) known hsome)
          exact ⟨fun _ => hinitialized hcalm, fun hopen => (by cases hopen), hdone⟩
      | insert sequenceId uuid anchor =>
          obtain ⟨hvacant, -, hphase⟩ := hpre
          have hnone := h.unset thread (hknown.borrowed.vacant thread frame hmem hvacant)
          refine hstarted.step hrest (.inl rfl) (fun hopen => absurd hphase hopen)
            ?_ (fun _ => .inl hnone) fun known hsome => ?_
          · change frame.phase.Shape _
            rw [hphase]
            trivial
          · rw [insert_start hperform, Option.some.injEq] at hsome
            subst hsome
            rw [hnone]
            refine ⟨fun _ => by simp, fun hopen _ => ?_, by simp⟩
            change frame.phase.calm = false at hopen
            rw [hphase] at hopen
            cases hopen
      | _ => cases hstarts
  | sequence act =>
      cases act with
      | newWriter =>
          obtain ⟨hcontext, hcalm⟩ := hpre
          refine hstarted.step hrest (.inl rfl) (fun _ => hcontext) trivial
            (fun _ => hstarted.settled (calm_all hrest hcalm)) fun known hsome => ?_
          obtain ⟨hinitialized, -, hdone⟩ :=
            hstarted.known hrest (hbefore (by simp) (by simp) known hsome)
          exact ⟨fun _ => hinitialized hcalm, fun hopen => (by cases hopen), hdone⟩
      | initialized =>
          obtain ⟨hcontext, hphase⟩ := hpre
          have hcalm : frame.phase.calm = true := by
            rcases hphase with hfresh | hready
            · rw [hfresh]
              rfl
            · rw [hready]
              rfl
          have hsettled := hstarted.settled (calm_all hrest hcalm)
          obtain ⟨known, hsome, rfl⟩ := perform_initialized hperform
          obtain ⟨hinitialized, -, hdone⟩ := hstarted.known hrest hsome
          have hafter : ∀ after, state'.start thread = some after → after = known := by
            intro after hstart
            have hold := hbefore (by simp) (by simp) after hstart
            rw [hsome, Option.some.injEq] at hold
            exact hold.symm
          by_cases hbegun : known.initialized = true
          · have hcomplete := hsettled.resolve_left ((hinitialized hcalm).1 hbegun)
            have hphase' : (next frame (.sequence .initialized) known.initialized).phase = .ready :=
              if_pos hbegun
            refine hstarted.step hrest (.inl rfl) (fun _ => hcontext) ?_ (fun _ => .inr hcomplete)
              fun after hstart => ?_
            · rw [hphase']
              exact hcomplete
            · rw [hafter after hstart, hphase']
              exact ⟨fun _ => hinitialized hcalm, fun hopen => (by cases hopen), hdone⟩
          · have hnone : contentsOf state.trace.packets thread = [] := by
              by_contra hsent
              exact hbegun ((hinitialized hcalm).2 hsent)
            have hphase' : (next frame (.sequence .initialized) known.initialized).phase =
                .unmarked := if_neg hbegun
            refine hstarted.step hrest (.inl rfl) (fun _ => hcontext) ?_ (fun _ => .inl hnone)
              fun after hstart => ?_
            · rw [hphase']
              exact hnone
            · rw [hafter after hstart, hphase']
              exact ⟨fun hopen => (by cases hopen), fun _ hunmarked => absurd rfl hunmarked, hdone⟩
      | markInitialized =>
          obtain ⟨hcontext, hphase⟩ := hpre
          rw [hphase] at hshape
          refine hstarted.step hrest (.inl rfl) (fun _ => hcontext) hshape
            (fun hcalm => by cases hcalm) fun known hsome => ?_
          obtain ⟨before, hstart, hafter⟩ := mark_start hperform
          rw [hafter, Option.some.injEq] at hsome
          subst hsome
          exact ⟨fun hcalm => (by cases hcalm), fun _ _ => rfl,
            (hstarted.known hrest hstart).2.2⟩
      | timestamp =>
          have hsame := hbefore (by simp) (by simp)
          obtain ⟨hcontext, -⟩ := hpre
          by_cases hphase : frame.phase = .marked
          · rw [hphase] at hshape
            have hphase' : (next frame (.sequence .timestamp) reply).phase = .stamped :=
              if_pos hphase
            refine hstarted.step hrest (.inl rfl) (fun _ => hcontext) ?_ (fun hcalm => ?_)
              fun known hsome => ?_
            · rw [hphase']
              exact hshape
            · rw [hphase'] at hcalm
              cases hcalm
            · obtain ⟨-, hmarked, hdone⟩ := hstarted.known hrest (hsame known hsome)
              rw [hphase] at hmarked
              rw [hphase']
              exact ⟨fun hcalm => (by cases hcalm), fun _ _ => hmarked rfl (by simp), hdone⟩
          · exact hstarted.quiet hrest (if_neg hphase) id hsame
      | write span calledAt content => exact absurd rfl (hwrite span calledAt content)
      | _ => cases hstarts
  | pools | spans | registry | format => cases hstarts

/-- A storage that is not set never was. -/
theorem unset_before {action : Act} {reply : action.Reply}
    (h : perform env thread action choice state = some (reply, state')) {other : ThreadId}
    (hunset : state'.status other = none) : state.status other = none := by
  by_cases hcontext : ∃ act, action = .context act
  · obtain ⟨act, rfl⟩ := hcontext
    obtain ⟨contexts, hperform, rfl⟩ := perform_context h
    change (contexts.tls other).status = none at hunset
    have hset : ∀ tls, (thread = other → Tls.status tls ≠ none) →
        contexts = state.contexts.set thread tls → state.status other = none := by
      rintro tls htls rfl
      by_cases hother : other = thread
      · subst hother
        rw [Borrowed.set_self] at hunset
        exact absurd hunset (htls rfl)
      · rwa [Borrowed.set_other hother] at hunset
    cases act with
    | lookup =>
        rcases Borrowed.lookup_cases hperform with ⟨-, -, rfl⟩ | ⟨-, -, hothers, hself, -⟩ |
          ⟨-, -, htls, -⟩
        · exact hunset
        · by_cases hother : other = thread
          · subst hother
            rw [hself] at hunset
            cases hunset
          · rw [hothers other hother] at hunset
            exact hunset
        · rw [htls] at hunset
          exact hunset
    | insert sequenceId uuid anchor =>
        simp only [ContextAct.perform, Option.some.injEq, Prod.mk.injEq, true_and] at hperform
        exact hset _ (fun _ => by simp [Tls.status]) hperform.symm
    | dropGuard =>
        obtain ⟨context, -, -, heq⟩ := onLive_cases hperform
        exact hset _ (fun _ => by simp [Tls.status]) heq
    | destroy =>
        simp only [ContextAct.perform, Option.some.injEq] at hperform
        refine hset .destroyed (fun _ => by simp [Tls.status]) ?_
        split at hperform <;> exact (Prod.mk.inj hperform).2.symm
    | takeRetained | returnRetained | cachedTrack | cachePool | evict | releaseLocal =>
        exact (context_status hperform (by simp) (by simp) (by simp) (by simp) other).symm.trans
          hunset
  · exact (perform_contexts h (fun act heq => hcontext ⟨act, heq⟩) other).symm.trans hunset

theorem preambles_kept (env : Env) : KeepsInv env AnyCall (Known env) Preambles where
  act := by
    rintro state frames thread frame rest action choice reply state' hknown h hthread hpre
      hperform hknown'
    change perform env thread action choice state = some (reply, state') at hperform
    have hstarted := h.started thread
    rw [hthread] at hstarted
    have hrest := below_calm hknown.ledger hthread
    have hmem : frame ∈ frames thread := Guards.top_mem hthread
    -- nothing happens to the sequences of the other threads
    have hcontents : ∀ other, other ≠ thread →
        contentsOf state'.trace.packets other = contentsOf state.trace.packets other := by
      intro other hother
      by_cases hwrite : ∃ span calledAt content, action = .sequence (.write span calledAt content)
      · obtain ⟨span, calledAt, content, rfl⟩ := hwrite
        rw [contents_write hperform, if_neg hother, List.append_nil]
      · rw [perform_packets hperform
          fun span calledAt content heq => hwrite ⟨span, calledAt, content, heq⟩]
    constructor
    · intro other
      by_cases hother : other = thread
      · subst hother
        rw [Function.update_self]
        change Started _ _ (next frame action reply :: rest)
        by_cases hwrite : ∃ span calledAt content, action = .sequence (.write span calledAt content)
        · obtain ⟨span, calledAt, content, rfl⟩ := hwrite
          exact started_write h hknown hthread hpre hperform
        have hquiet : ∀ span calledAt content,
            action ≠ .sequence (.write span calledAt content) :=
          fun span calledAt content heq => hwrite ⟨span, calledAt, content, heq⟩
        by_cases hstarts : action.starts = true
        · exact started_starts h hknown hthread hpre hperform hstarts hquiet
        · rw [Bool.not_eq_true] at hstarts
          obtain ⟨hphase, hcontext⟩ := next_phase frame action reply hstarts
          rw [perform_packets hperform hquiet]
          refine hstarted.quiet hrest hphase hcontext fun known hsome =>
            start_before hperform (.inr ⟨?_, ?_, hquiet⟩) hsome
          · rintro sequenceId uuid anchor rfl
            cases hstarts
          · rintro rfl
            cases hstarts
      · rw [Function.update_of_ne hother, hcontents other hother]
        exact (h.started other).mono fun known hsome => start_before hperform (.inl hother) hsome
    · intro other hunset
      have hnone := unset_before hperform hunset
      by_cases hother : other = thread
      · subst hother
        have hwrite : ∀ span calledAt content,
            action ≠ .sequence (.write span calledAt content) := by
          rintro span calledAt content rfl
          obtain ⟨hcontext, -⟩ := hpre
          have hheld := hknown.borrowed.held other frame hmem hcontext
          rw [hnone] at hheld
          cases hheld
        rw [perform_packets hperform hwrite]
        exact h.unset other hnone
      · rw [hcontents other hother]
        exact h.unset other hnone
  ret := by
    rintro state frames thread frame rest hknown h hthread hfinal -
    refine ⟨fun other => ?_, h.unset⟩
    by_cases hother : other = thread
    · subst hother
      rw [Function.update_self]
      have hstarted := h.started other
      rw [hthread] at hstarted
      have hall : (∀ value ∈ rest, value.phase.calm = true) →
          ∀ value ∈ frame :: rest, value.phase.calm = true :=
        fun hrest => calm_all hrest (by rw [hfinal.phase]; rfl)
      exact ⟨fun value hmem => hstarted.phases value (List.mem_cons_of_mem _ hmem),
        fun value hmem => hstarted.shape value (List.mem_cons_of_mem _ hmem),
        fun hrest => hstarted.settled (hall hrest),
        fun known hsome hrest => hstarted.initialized known hsome (hall hrest),
        fun known hsome value hmem =>
          hstarted.marked known hsome value (List.mem_cons_of_mem _ hmem),
        hstarted.done⟩
    · rw [Function.update_of_ne hother]
      exact h.started other
  call := by
    rintro state frames thread call prog state' hknown h - - hcall -
    obtain ⟨registry, -, -, rfl, -⟩ := hknown.ledger.call_admits hcall
    refine ⟨fun other => ?_, h.unset⟩
    by_cases hother : other = thread
    · subst hother
      rw [Function.update_self]
      have hstarted := h.started other
      refine ⟨fun value hmem => ?_, fun value hmem => ?_, fun hall => ?_,
        fun known hsome hall => ?_,
        fun known hsome value hmem => ?_, hstarted.done⟩
      · rcases List.mem_cons.1 hmem with rfl | hold
        · exact fun hopen => absurd rfl hopen
        · exact hstarted.phases value hold
      · rcases List.mem_cons.1 hmem with rfl | hold
        · trivial
        · exact hstarted.shape value hold
      · exact hstarted.settled fun value hmem => hall value (List.mem_cons_of_mem _ hmem)
      · exact hstarted.initialized known hsome
          fun value hmem => hall value (List.mem_cons_of_mem _ hmem)
      · rcases List.mem_cons.1 hmem with rfl | hold
        · exact fun hopen => by cases hopen
        · exact hstarted.marked known hsome value hold
    · rw [Function.update_of_ne hother]
      exact h.started other

theorem preambles_new (nextSequenceId : Nat) :
    Preambles (State.new nextSequenceId) fun _ => [] where
  started := fun _ => ⟨fun _ hmem => (by cases hmem), fun _ hmem => (by cases hmem),
    fun _ => .inl rfl, fun _ hsome => (by cases hsome), fun _ hsome => (by cases hsome),
    fun _ hsome => (by cases hsome)⟩
  unset := fun _ _ => rfl

end Steps

/-! ## The headers -/

/-- Calls that write messages only, and no defaults. -/
def Plain (calls : List Op) : Prop :=
  ∀ call ∈ calls, ∃ fieldId body, call = .message fieldId body ∧
    fieldId ≠ TracePacket.tracePacketDefaults

/-- A packet of a sequence, by what was sent before it: the first one resets the state of
the reader, the others continue it. -/
structure Headed (env : Env) (sequenceId threadTrack : Nat) (before : List Emitted)
    (packet : Emitted) : Prop where
  first : before = [] → ∃ sequence timestamp clockId, sequence.sequenceId = sequenceId ∧
    sequence.threadTrackUuid = threadTrack ∧
      packet.written.header = firstPacketCalls sequence timestamp clockId
  later : before ≠ [] → ∃ delta,
    packet.written.header = prefixCalls sequenceId ++ [.varint TracePacket.timestamp delta]
  plain : Plain (packet.written.body ++ packet.written.interned)
  thread : packet.content = .threadDescriptor → ∃ answers,
    packet.written.body = SequenceWriter.threadDescriptorCalls answers threadTrack

/-- The context of a sequence. -/
structure ThreadCtx.Writes (env : Env) (context : ThreadCtx) (sequenceId track : Nat) : Prop where
  sequenceId : context.writer.sequence.sequenceId = sequenceId
  trackUuid : context.trackUuid = track
  threadTrackUuid : context.writer.sequence.threadTrackUuid = env.bases.uuid track

def Headers (env : Env) (state : State) : Prop :=
  ∀ thread, ∃ sequenceId track,
    (∀ context, state.contexts.live thread = some context →
      context.Writes env sequenceId track) ∧
    Holds (Headed env sequenceId (env.bases.uuid track)) (packetsOf state.trace.packets thread)

section Headers

variable {env : Env} {state state' : State} {frames : Frames} {thread : ThreadId}
  {frame : Frame} {rest : List Frame} {choice : Choice}

theorem Plain.append {calls calls' : List Op} (h : Plain calls) (h' : Plain calls') :
    Plain (calls ++ calls') := fun call hmem => (List.mem_append.1 hmem).elim (h call) (h' call)

theorem plain_single {fieldId : Nat} {body : List Op}
    (h : fieldId ≠ TracePacket.tracePacketDefaults) : Plain [.message fieldId body] :=
  fun _ hmem => ⟨fieldId, body, List.mem_singleton.1 hmem, h⟩

theorem Plain.varints {calls : List Op} (h : Plain calls) (fieldId : Nat) :
    Wire.varints fieldId (Op.fields calls) = [] := by
  induction calls with
  | nil => rfl
  | cons call calls ih =>
      obtain ⟨_, _, rfl, -⟩ := h call List.mem_cons_self
      exact ih fun other hmem => h other (List.mem_cons_of_mem _ hmem)

theorem Plain.messages {calls : List Op} (h : Plain calls) :
    Wire.messages TracePacket.tracePacketDefaults (Op.fields calls) = [] := by
  induction calls with
  | nil => rfl
  | cons call calls ih =>
      obtain ⟨fieldId, body, rfl, hne⟩ := h call List.mem_cons_self
      have hrest := ih fun other hmem => h other (List.mem_cons_of_mem _ hmem)
      rw [Op.fields, Op.field, Wire.messages, List.filterMap_cons_none]
      · exact hrest
      · exact if_neg hne

theorem encode_plain (env : Env) (answers : Answers) (content : Content)
    (writer : SequenceWriter) (tables : InternTables) :
    Plain (content.encode env answers writer tables).1 := by
  cases content with
  | clockSnapshot | processDescriptor | threadDescriptor => exact plain_single (by decide)
  | body body => cases body <;> exact plain_single (by decide)

theorem emitInternedData_plain (tables : InternTables) : Plain tables.emitInternedData.1 := by
  rw [InternTables.emitInternedData]
  split
  · exact plain_single (by decide)
  · exact fun _ hmem => by cases hmem

/-- What a packet is made of. -/
theorem finishes_headed {answers : Answers} {content : Content} {writer writer' : SequenceWriter}
    {written : Written} (h : Finishes env answers content writer writer' written)
    {before : List Emitted} (hdone : writer.sequence.firstPacketDone = true ↔ before ≠ [])
    {packet : Emitted} (hwritten : packet.written = written) (hcontent : packet.content = content) :
    Headed env writer.sequence.sequenceId writer.sequence.threadTrackUuid before packet := by
  obtain ⟨ready, hsame, hready, answers', raw, hheader⟩ := h.header
  obtain ⟨tables, hbody⟩ := h.body
  obtain ⟨pending, hinterned⟩ := h.interned
  rw [← hready] at hdone
  subst hwritten hcontent
  constructor
  · intro hbefore
    have hfirst : ready.firstPacketDone = false := by
      rw [← Bool.not_eq_true]
      exact fun hdone' => hdone.1 hdone' hbefore
    rw [SequenceState.header, hfirst] at hheader
    exact ⟨ready, _, _, hsame.sequenceId, hsame.threadTrackUuid, hheader⟩
  · intro hbefore
    rw [SequenceState.header, if_pos (hdone.2 hbefore), hsame.sequenceId] at hheader
    exact ⟨ready.delta raw, hheader⟩
  · rw [hbody, hinterned]
    exact Plain.append (encode_plain env answers packet.content writer tables)
      (emitInternedData_plain pending)
  · intro hthread
    rw [hthread] at hbody
    exact ⟨_, hbody⟩

theorem packetsOf_append (packets : List Emitted) (packet : Emitted) (thread : ThreadId) :
    packetsOf (packets ++ [packet]) thread = packetsOf packets thread ++
      if packet.thread = thread then [packet] else [] := by
  rw [packetsOf, packetsOf, List.filter_append]
  by_cases hthread : packet.thread = thread
  · simp [hthread]
  · simp [hthread]

theorem headers_kept (env : Env) : KeepsInv env AnyCall
    (fun state frames => Known env state frames ∧ Preambles state frames)
    fun state _ => Headers env state where
  act := by
    rintro state frames thread frame rest action choice reply state' ⟨hknown, hpreambles⟩ h hthread
      hpre hperform -
    change perform env thread action choice state = some (reply, state') at hperform
    intro other
    obtain ⟨sequenceId, track, hwrites, hheaded⟩ := h other
    by_cases hinsert : ∃ sequenceId uuid anchor,
        action = .context (.insert sequenceId uuid anchor) ∧ other = thread
    · obtain ⟨sequenceId', uuid, anchor, rfl, rfl⟩ := hinsert
      obtain ⟨hvacant, -⟩ := hpre
      have hunset := hknown.borrowed.vacant other frame (Guards.top_mem hthread) hvacant
      have hnone : packetsOf state'.trace.packets other = [] := by
        rw [perform_packets hperform (by simp)]
        exact List.map_eq_nil_iff.1 (hpreambles.unset other hunset)
      refine ⟨sequenceId', uuid, fun context' hlive => ?_, hnone ▸ holds_nil⟩
      obtain ⟨contexts, hact, rfl⟩ := perform_context hperform
      simp only [ContextAct.perform, Option.some.injEq, Prod.mk.injEq, true_and] at hact
      subst hact
      rcases live_set hlive with ⟨-, heq⟩ | ⟨hne, -⟩
      · cases heq
        exact ⟨rfl, rfl, rfl⟩
      · exact absurd rfl hne
    · refine ⟨sequenceId, track, fun context' hlive => ?_, ?_⟩
      · cases context_after hperform hlive with
        | kept context hcontext hwriter hopened htrack =>
            obtain ⟨hid, huuid, hthreadTrack⟩ := hwrites context hcontext
            exact ⟨hwriter ▸ hid, htrack.trans huuid, hwriter ▸ hthreadTrack⟩
        | inserted sequenceId uuid anchor hother haction heq =>
            exact absurd ⟨sequenceId, uuid, anchor, haction, hother⟩ hinsert
        | opened context hcontext hother haction heq =>
            subst heq
            obtain ⟨hid, huuid, hthreadTrack⟩ := hwrites context hcontext
            exact ⟨hid, huuid, hthreadTrack⟩
        | marked context hcontext hother haction heq =>
            subst heq
            obtain ⟨hid, huuid, hthreadTrack⟩ := hwrites context hcontext
            exact ⟨hid, huuid, hthreadTrack⟩
        | cached context hcontext hother name uuid haction heq =>
            subst heq
            obtain ⟨hid, huuid, hthreadTrack⟩ := hwrites context hcontext
            exact ⟨hid, huuid, hthreadTrack⟩
        | stamped context hcontext hother haction heq =>
            subst heq
            obtain ⟨hid, huuid, hthreadTrack⟩ := hwrites context hcontext
            rw [ThreadCtx.timestamp]
            split
            · exact ⟨hid, huuid, hthreadTrack⟩
            · exact ⟨hid, huuid, hthreadTrack⟩
        | wrote context hcontext hother span calledAt content haction timestamp htimestamp writer
            written hfinishes heq htrace =>
            subst heq
            obtain ⟨hid, huuid, hthreadTrack⟩ := hwrites context hcontext
            exact ⟨hfinishes.same.sequenceId.trans hid, huuid,
              hfinishes.same.threadTrackUuid.trans hthreadTrack⟩
      · by_cases hwrite : ∃ span calledAt content, action = .sequence (.write span calledAt content)
        · obtain ⟨span, calledAt, content, rfl⟩ := hwrite
          obtain ⟨context, writer, timestamp, written, hlive, -, hfinishes, hpackets⟩ :=
            perform_finishes hperform
          rw [hpackets, packetsOf_append]
          by_cases hother : other = thread
          · subst hother
            obtain ⟨hid, -, hthreadTrack⟩ := hwrites context hlive
            have hdone := (hpreambles.started other).done context.start
              (congrArg (Option.map ThreadCtx.start) hlive)
            have hpackets : contentsOf state.trace.packets other ≠ [] ↔
                packetsOf state.trace.packets other ≠ [] := by
              rw [contentsOf, ne_eq, List.map_eq_nil_iff]
            rw [if_pos rfl]
            refine hheaded.concat ?_
            rw [← hid, ← hthreadTrack]
            exact finishes_headed hfinishes (hdone.trans hpackets) rfl rfl
          · rw [if_neg (Ne.symm hother), List.append_nil]
            exact hheaded
        · rw [perform_packets hperform
            fun span calledAt content heq => hwrite ⟨span, calledAt, content, heq⟩]
          exact hheaded
  ret := fun _ h _ _ _ => h
  call := by
    rintro state frames thread call prog state' ⟨hknown, -⟩ h - - hcall -
    obtain ⟨registry, -, -, rfl, -⟩ := hknown.ledger.call_admits hcall
    exact h

theorem headers_new (env : Env) (nextSequenceId : Nat) : Headers env (State.new nextSequenceId) :=
  fun _ => ⟨0, 0, fun _ hlive => (by cases hlive), holds_nil⟩

end Headers

end TracingPerfetto.Layer
