import TracingPerfetto.Pacing
import TracingPerfetto.FlowDelivery

/-!
After a write error the layer falls silent: each callback looks for the error before it does
anything else, so only those that were in progress still write packets. A load of the flag
sees its newest value here; the code's loads are relaxed, and may lag behind.
-/

namespace TracingPerfetto.Layer

open TracingPerfetto.Runtime TracingPerfetto.Sequence TracingPerfetto.TrackEvents
open TracingPerfetto.Counters TracingPerfetto.Threads
open TracingPerfetto.SpanStore (SpanId)

/-! ## What a callback does after an error -/

/-- The actions that are left: to look for the error, and to give back what there is. -/
def Act.silent : Act → Bool
  | .shared .hasError | .spans (.take _) | .pools (.release _ _) | .context .destroy
  | .registry _ => true
  | _ => false

/-- The callback has looked for the error, and there was none. -/
def clears : (action : Act) → action.Reply → Bool
  | .shared .hasError, failed => !failed
  | _, _ => false

/-- The value says that the callback may go on. -/
def silence : Protocol Act Act.Reply Bool where
  pre running action := running = true ∨ action.silent = true
  next running action reply := running || clears action reply

section Programs

variable {α β : Type}

/-- Without an error there is nothing to keep to. -/
theorem running_keeps (program : Program α) :
    silence.Keeps (fun _ _ => True) true program := by
  induction program with
  | done value => trivial
  | act action next ih => exact ⟨.inl rfl, fun reply => ih reply⟩

/-- The program is silent once it has seen an error. -/
def Hushed (program : Program α) : Prop :=
  ∀ running, silence.Keeps (fun _ _ => True) running program

theorem hushed_pure (value : α) : Hushed (pure value) := fun _ => trivial

theorem Hushed.bind {program : Program α} {rest : α → Program β} (h : Hushed program)
    (hrest : ∀ value, Hushed (rest value)) : Hushed (program >>= rest) :=
  fun running => ((h running).mono fun value after _ => hrest value after).bind

theorem hushed_then {action : Act} {rest : action.Reply → Program β}
    (h : action.silent = true) (hrest : ∀ reply, Hushed (rest reply)) :
    Hushed (act action >>= rest) :=
  fun _ => ⟨.inr h, fun reply => hrest reply _⟩

theorem hushed_act {action : Act} (h : action.silent = true) : Hushed (act action) :=
  fun _ => ⟨.inr h, fun _ => trivial⟩

/-- What follows a look for the error matters only if there is one. -/
theorem hushed_check {rest : Bool → Program β} (h : Hushed (rest true)) :
    Hushed (act (.shared .hasError) >>= rest) := by
  refine fun running => ⟨.inr rfl, fun failed => ?_⟩
  change silence.Keeps _ (running || !failed) (rest failed)
  cases failed with
  | true => exact h _
  | false =>
      rw [Bool.not_false, Bool.or_true]
      exact running_keeps _

theorem hushed_acquire {rest : Bool → Program β} (h : Hushed (rest false)) :
    Hushed (acquire >>= rest) := by
  rw [acquire, Prog.bind_bind]
  exact hushed_check h

theorem hushed_recycleRetainedSpan (retained : RetainedSpanData) :
    Hushed (recycleRetainedSpan retained) :=
  hushed_acquire (hushed_pure _)

theorem hushed_giveBack (data : SpanData) : Hushed (giveBack false data) := by
  refine Hushed.bind ?_ fun _ => Hushed.bind ?_ fun _ => hushed_pure _
  · rw [giveBackTrack]
    split
    · exact hushed_act rfl
    · exact hushed_pure _
  · rw [giveBackRetained]
    split
    · exact hushed_recycleRetainedSpan _
    · exact hushed_pure _

theorem hushed_onClose (calledAt : Nat) (spanId : SpanId) :
    Hushed (onClose calledAt spanId) := by
  refine hushed_then rfl fun found => ?_
  cases found with
  | none => exact hushed_pure _
  | some found =>
      dsimp only
      split
      · exact hushed_giveBack _
      · exact hushed_check (hushed_giveBack _)

theorem hushed_dropContext : Hushed dropContext := by
  refine hushed_then rfl fun uuids => ?_
  induction uuids with
  | nil => exact hushed_pure _
  | cons first uuids ih => exact hushed_then rfl fun _ => ih

theorem hushed_program (env : Env) (calledAt instance_ : Nat) (call : Call) :
    Hushed (call.program env calledAt instance_) := by
  cases call with
  | newSpan | followsFrom | event => exact hushed_check (hushed_pure _)
  | record spanId =>
      change Hushed (onRecord env spanId)
      rw [onRecord]
      split
      · exact hushed_pure _
      · exact hushed_check (hushed_pure _)
  | enter spanId =>
      change Hushed (onEnter env calledAt spanId)
      rw [onEnter]
      split
      · exact hushed_pure _
      · exact hushed_check (hushed_pure _)
  | exit spanId =>
      change Hushed (onExit env calledAt spanId)
      rw [onExit]
      split
      · exact hushed_pure _
      · exact hushed_check (hushed_pure _)
  | close spanId => exact hushed_onClose calledAt spanId
  | exitThread => exact hushed_dropContext

end Programs

theorem silence_call (env : Env) (call : Call) (calledAt instance_ : Nat) :
    silence.Keeps (fun _ _ => True) false (do
      call.program env calledAt instance_
      act (.registry (.finish call))) :=
  (hushed_program env calledAt instance_ call).bind (fun _ => hushed_act rfl) false

/-! ## Runs after an error -/

/-- The callbacks in progress have been called before now. -/
def Called (state : State) (ghosts : ThreadId → List (Frame × Bool)) : Prop :=
  Every (fun _ ghost => ghost.1.calledAt < state.time) ghosts

theorem called_kept (env : Env) : KeepsBoth env silence (fun _ => false) AnyCall
    (fun state ghosts => Known env state (firsts ghosts)) Called where
  act := by
    rintro state ghosts thread ⟨frame, running⟩ rest action choice reply state' - h hthread -
      hperform -
    change perform env thread action choice state = some (reply, state') at hperform
    have htime := perform_time hperform
    refine h.step hthread ?_ fun _ ghost hcalled => ?_
    · change (next frame action reply).calledAt < state'.time
      rw [(next_call action reply).calledAt, htime]
      exact Nat.lt_succ_of_lt (h thread (frame, running) (by simp [hthread]))
    · rw [htime]
      exact Nat.lt_succ_of_lt hcalled
  ret := fun _ h hthread _ _ => h.pop hthread
  call := by
    intro state ghosts thread call prog state' _ h _ _ hcall _
    simp only [system, Layer.call, Option.bind_eq_bind, Option.bind_eq_some_iff,
      Option.some.injEq, Prod.mk.injEq] at hcall
    obtain ⟨_, -, -, rfl⟩ := hcall
    exact h.push (Nat.lt_succ_self _) fun _ _ hcalled => Nat.lt_succ_of_lt hcalled

/-- There is an error. Callbacks that were called at or after `since` have seen no state
without it, and all packets other than `packets` are of earlier ones. -/
structure Silent (since : Nat) (packets : List Emitted) (state : State)
    (ghosts : ThreadId → List (Frame × Bool)) : Prop where
  failed : state.shared.hasError = true
  early : Every (fun _ ghost => ghost.1.calledAt < since ∨ ghost.2 = false) ghosts
  later : ∃ new, state.trace.packets = packets ++ new ∧
    ∀ packet ∈ new, packet.calledAt < since

theorem silent_kept (env : Env) (since : Nat) (packets : List Emitted) :
    KeepsBoth env silence (fun _ => false) AnyCall
      (fun state ghosts => Known env state (firsts ghosts)) (Silent since packets) where
  act := by
    rintro state ghosts thread ⟨frame, running⟩ rest action choice reply state' - h hthread
      ⟨hpre, hsilence⟩ hperform -
    change perform env thread action choice state = some (reply, state') at hperform
    change pre env frame action at hpre
    have htop := h.early thread (frame, running) (by simp [hthread])
    have hclears : clears action reply = false := by
      cases action with
      | shared act =>
          cases act with
          | hasError =>
              simp only [perform, SharedAct.perform, Option.some.injEq, Prod.mk.injEq] at hperform
              rw [clears, ← hperform.1, h.failed]
              rfl
          | _ => rfl
      | _ => rfl
    refine ⟨error_kept hperform h.failed, ?_, ?_⟩
    · refine h.early.step hthread ?_ fun _ _ hother => hother
      change (next frame action reply).calledAt < since ∨ (running || clears action reply) = false
      rw [(next_call action reply).calledAt, hclears, Bool.or_false]
      exact htop
    · obtain ⟨new, hpackets, hearly⟩ := h.later
      by_cases hwrite : ∃ span calledAt content, action = .sequence (.write span calledAt content)
      · obtain ⟨span, calledAt, content, rfl⟩ := hwrite
        obtain ⟨-, hcalled, -⟩ := hpre
        obtain ⟨-, written, -, hwritten, -, hwrittenAt, -⟩ := packet_written hperform
        have hrunning : frame.calledAt < since := by
          rcases htop with hcalledAt | hstopped
          · exact hcalledAt
          · rcases hsilence with hgoes | hsilent
            · exact absurd (hgoes.symm.trans hstopped) (by simp)
            · cases hsilent
        refine ⟨new ++ [written], by rw [hwritten, hpackets, List.append_assoc], ?_⟩
        intro packet hmem
        rw [List.mem_append, List.mem_singleton] at hmem
        rcases hmem with hold | rfl
        · exact hearly packet hold
        · rw [hwrittenAt, hcalled]
          exact hrunning
      · rw [perform_packets hperform
          fun span calledAt content heq => hwrite ⟨span, calledAt, content, heq⟩]
        exact ⟨new, hpackets, hearly⟩
  ret := fun _ h hthread _ _ => ⟨h.failed, h.early.pop hthread, h.later⟩
  call := by
    intro state ghosts thread call prog state' _ h _ _ hcall _
    simp only [system, Layer.call, Option.bind_eq_bind, Option.bind_eq_some_iff,
      Option.some.injEq, Prod.mk.injEq] at hcall
    obtain ⟨_, -, -, rfl⟩ := hcall
    exact ⟨h.failed, h.early.push (.inr rfl) fun _ _ hother => hother, h.later⟩

/-- Once there is an error, only callbacks that are in progress write any more packets. -/
theorem silent_after_error {env : Env} {nextSequenceId : Nat}
    {labels more : List (system env).Label} {config last : (system env).Config}
    (hrun : System.run labels (System.idle (State.new nextSequenceId)) = some config)
    (herror : config.state.shared.hasError = true) (hmore : System.run more config = some last) :
    ∃ new, last.state.trace.packets = config.state.trace.packets ++ new ∧
      (∀ packet ∈ new, packet.calledAt < config.state.time) ∧
      ((∀ thread, config.frames thread = []) → new = []) := by
  have hrule := fun since => KeepsBoth.rule
    ((called_kept env).join ((silent_kept env since config.state.trace.packets).over And.left))
    (silence_call env)
  obtain ⟨ghosts, ⟨hknown, hcalled⟩, htracks⟩ :=
    (KeepsBoth.rule (called_kept env) (silence_call env)).run
      ⟨known_new env nextSequenceId, fun _ _ hmem => by cases hmem⟩
      (System.tracks_idle (State.new nextSequenceId)) (System.obeys_true labels _) hrun
  have hsilent : ∀ since, Every (fun _ ghost => ghost.1.calledAt < since ∨ ghost.2 = false) ghosts →
      ∃ new, last.state.trace.packets = config.state.trace.packets ++ new ∧
        ∀ packet ∈ new, packet.calledAt < since := by
    intro since hearly
    obtain ⟨_, ⟨-, -, hlast⟩, -⟩ := (hrule since).run
      ⟨hknown, hcalled, herror, hearly, [], (List.append_nil _).symm, fun _ hmem => by cases hmem⟩
      htracks (System.obeys_true more _) hmore
    exact hlast.later
  obtain ⟨new, hpackets, hearly⟩ := hsilent config.state.time fun thread ghost hmem =>
    .inl (hcalled thread ghost hmem)
  refine ⟨new, hpackets, hearly, fun hidle => ?_⟩
  -- without callbacks in progress there is nothing before the time 0 either
  obtain ⟨others, hothers, hnever⟩ := hsilent 0 fun thread ghost hmem => by
    have hthread := htracks thread
    rw [hidle thread, List.forall₂_nil_left_iff] at hthread
    rw [hthread] at hmem
    cases hmem
  rw [hpackets, List.append_cancel_left_eq] at hothers
  rw [hothers]
  exact List.eq_nil_iff_forall_not_mem.2 fun packet hmem => Nat.not_lt_zero _ (hnever packet hmem)

/-- The descriptor of the track of a new span cannot be written. -/
def brokenWrite : Option (system flowEnv).Config :=
  System.run
    (.call 1 (.newSpan 1 sampleMetadata none) :: List.replicate 26 (.act 1 sampleChoice) ++
      [.act 1 { sampleChoice with ioError := true }])
    (System.idle (State.new 65536))

/-- The rest of the callback, and an event. -/
def afterError : List (system flowEnv).Label :=
  List.replicate 7 (.act 1 sampleChoice) ++ .ret 1 :: .call 1 (.event sampleMetadata none) ::
    List.replicate 2 (.act 1 sampleChoice) ++ [.ret 1]

theorem brokenWrite_fails : (brokenWrite.map fun config =>
    decide (config.state.shared.hasError = true) && (System.run afterError config).isSome) =
      some true := by decide +kernel

/-- The slice of the span is still written, and nothing of the event. -/
theorem silent_after_error_event : ∃ config last new, brokenWrite = some config ∧
    System.run afterError config = some last ∧
    last.state.trace.packets = config.state.trace.packets ++ new ∧
    ∀ packet ∈ new, packet.calledAt < config.state.time := by
  obtain ⟨config, hrun, hholds⟩ := Option.map_eq_some_iff.1 brokenWrite_fails
  rw [Bool.and_eq_true, decide_eq_true_eq] at hholds
  obtain ⟨last, hmore⟩ := Option.isSome_iff_exists.1 hholds.2
  obtain ⟨new, hpackets, hearly, -⟩ := silent_after_error hrun hholds.1 hmore
  exact ⟨config, last, new, hrun, hmore, hpackets, hearly⟩

end TracingPerfetto.Layer
