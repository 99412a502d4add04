import TracingPerfetto.OutputSteps

/-!
The invariant of the way to the writer, over every run: calls and returns beside the
actions of `OutputSteps`.
-/

namespace TracingPerfetto.OutputRuns

open TracingPerfetto.Wire TracingPerfetto.Threads TracingPerfetto.Output
open TracingPerfetto.OutputProtocol TracingPerfetto.OutputErrors TracingPerfetto.OutputStream
open TracingPerfetto.OutputSteps

structure Invariant (state : State) (ghosts : ThreadId → Ghost)
    (order : List (ThreadId × Bytes)) (queued : ThreadId → List Bytes) : Prop where
  locks : Locks state ghosts
  errors : Errors state ghosts
  base : Base order state ghosts
  flows : ¬ Stopped state.log → Flows order queued state ghosts

variable {state state' : State} {ghosts : ThreadId → Ghost} {thread : ThreadId}
variable {order : List (ThreadId × Bytes)} {queued : ThreadId → List Bytes}

theorem invariant_initial : Invariant .initial (fun _ => rest) [] fun _ => [] := by
  refine ⟨⟨?_, ?_, ?_, ?_, ?_⟩, ⟨?_, ?_, ?_, ?_, ?_, ?_, ?_, ?_, ?_, ?_, ?_, ?_⟩,
    ⟨?_, ?_, ?_, ?_, ?_, ?_, ?_, ?_, ?_, ?_⟩, fun _ => ⟨?_, ?_, ?_, ?_, ?_⟩⟩ <;>
    simp [State.initial, rest, Chunk.buffer, Chunk.leftover, Stopped, failures, emitted, completed,
      packetsOf, bytesOf, unpublished, piece, leftover, ChunkFlows, FlushFlows, Returned,
      Throughout]

theorem Invariant.act {action : Act} {choice : Choice} {reply : Reply action}
    (h : Invariant state ghosts order queued) (hpre : pre (ghosts thread) action)
    (hperform : perform thread action choice state = some (reply, state')) :
    ∃ order' queued', Invariant state'
      (Function.update ghosts thread (next (ghosts thread) action reply)) order' queued' := by
  have hlocks := h.locks.act hpre hperform
  have herrors := h.errors.act hpre hperform
  by_cases hstopped : Stopped state.log
  · exact ⟨order, queued, hlocks, herrors,
      Base.act h.base h.locks h.errors h.flows (Base.advances h.base hstopped hpre hperform) hpre
        hperform,
      absurd (perform_stopped hperform hstopped)⟩
  · have hdiscards : (ghosts thread).discards = false := by
      by_contra hdiscards
      rw [Bool.not_eq_false] at hdiscards
      exact hstopped (h.errors.discards thread hdiscards)
    rcases Flows.act (h.flows hstopped) h.locks h.base hstopped hdiscards hpre hperform with
      ⟨order', queued', hadvances, hflows⟩
    exact ⟨order', queued', hlocks, herrors,
      Base.act h.base h.locks h.errors h.flows hadvances hpre hperform, hflows⟩

/-- The ghost value of a thread at the start and the end of its programs. -/
structure Enters (state state' : State) (before ghost : Ghost) : Prop where
  rings : state'.rings = state.rings
  owner : state'.owner = state.owner
  threads : state'.threads = state.threads
  error : state'.error = state.error
  hasError : state'.hasError = state.hasError
  output : state'.output = state.output
  contexts : ∀ thread, state'.contexts thread ≠ .absent → state.contexts thread ≠ .absent
  before : before = { rest with discards := before.discards }
  ghost : ghost = { rest with
    emitting := ghost.emitting, sending := ghost.sending, flush := ghost.flush }

theorem Enters.locks {before ghost : Ghost} (hbefore : ghosts thread = before)
    (h : Enters state state' before ghost) (hlocks : Locks state ghosts) :
    Locks state' (Function.update ghosts thread ghost) := by
  have hghost := h.ghost
  refine hlocks.frame h.owner ?_ ?_ ?_ ?_
  · rw [hghost, hbefore, h.before]
  all_goals
    rw [hghost]
    simp [rest, Chunk.buffer, Chunk.leftover]

theorem Enters.errors {before ghost : Ghost} (hbefore : ghosts thread = before)
    (h : Enters state state' before ghost) (herrors : Errors state ghosts) {event : Option Event}
    (hlog : state'.log = event.toList ++ state.log) (hsilent : ∀ e, event = some e → Silent e) :
    Errors state' (Function.update ghosts thread ghost) := by
  have hghost := h.ghost
  refine herrors.frame h.error h.hasError hlog hsilent ?_ ?_ ?_
  · rw [hghost, hbefore, h.before]
  · rw [hghost]
    simp [rest]
  · rw [hghost]
    exact Or.inr (Or.inl rfl)

theorem Enters.flows {before ghost : Ghost} (hbefore : ghosts thread = before)
    (h : Enters state state' before ghost) (hflows : Flows order queued state ghosts)
    (hemitted : ∀ other, other ≠ thread → emitted other state'.log = emitted other state.log)
    (hself : emitted thread state'.log =
      emitted thread state.log ++ (ghost.sending.map Prod.snd).toList)
    (hdue : ∀ other, other ≠ thread → due other state'.log = due other state.log)
    (hflush : FlushFlows order state' thread ghost.flush) :
    Flows order queued state' (Function.update ghosts thread ghost) := by
  have hold : (ghosts thread).chunk = .none ∧ (ghosts thread).sending = none := by
    rw [hbefore, h.before]
    exact ⟨rfl, rfl⟩
  have hnew : ghost.chunk = .none := by
    rw [h.ghost]
    rfl
  refine hflows.step hemitted hdue (by rw [h.threads]; exact List.Subset.refl _) (fun _ => le_rfl)
    (fun _ _ _ _ => ⟨List.prefix_rfl, fun _ => rfl⟩) (fun _ _ => rfl) ?_ ?_ ?_ ?_ hflush
  · rw [piece_update (congrFun h.owner _) fun _ => by rw [hold.1, hnew], h.output, hflows.output]
  · intro other
    rw [leftover_update (congrFun h.owner _) fun _ => by rw [hold.1, hnew], h.rings, hflows.ring]
  · rw [hself, hflows.packets, hold.2]
    simp
  · rw [hnew]
    trivial

theorem Enters.base {before ghost : Ghost} (hbefore : ghosts thread = before)
    (h : Enters state state' before ghost) (hbase : Base order state ghosts) {event : Option Event}
    (hlog : state'.log = event.toList ++ state.log)
    (hreturned : Returned order state'.log)
    (hwrites : ∀ e, event = some e → NoWriteAfterFailure e state.log)
    (hstops : Stopped state'.log → Stopped state.log)
    (hemitted : ∀ other, emitted other state.log <+: emitted other state'.log)
    (hnonempty : ∀ other, ∀ packet ∈ emitted other state'.log, packet ≠ [])
    (hregistered : ∀ other, emitted other state'.log ≠ [] → other ∈ state.threads)
    (hprogress : ∀ other, emitted other state'.log = completed other state'.log ++
      (Function.update ghosts thread ghost other).emitting.toList)
    (hown : ∀ buffer packet, ghost.sending = some (buffer, packet) →
      buffer = thread ∧ ghost.emitting = some packet)
    (hdue : ∀ other, other ≠ thread → due other state'.log = due other state.log) :
    Base order state' (Function.update ghosts thread ghost) := by
  have hthroughout : ∀ condition, Throughout condition state'.log →
      Throughout condition state.log := by
    intro condition hall
    rw [hlog] at hall
    rcases event with _ | event
    · exact hall
    · exact hall.2
  have hnew : ghost.report = .none ∧ ghost.mayWrite = false := by
    rw [h.ghost]
    exact ⟨rfl, rfl⟩
  constructor
  · intro other buffer packet
    rcases eq_or_ne other thread with rfl | hne
    · rw [Function.update_self]
      exact hown buffer packet
    · rw [Function.update_of_ne hne]
      exact hbase.own other buffer packet
  · exact hprogress
  · exact hnonempty
  · rintro other (hcontext | hsome)
    · rw [h.threads]
      exact hbase.registered other (Or.inl (h.contexts other hcontext))
    · rw [h.threads]
      exact hregistered other hsome
  · exact fun other => (hbase.sent other).trans (hemitted other)
  · rw [h.output]
    exact hbase.output
  · intro other hclean hall
    rcases eq_or_ne other thread with rfl | hne
    · rw [Function.update_self, hnew.1] at hclean
      simp at hclean
    · rw [Function.update_of_ne hne] at hclean
      exact Delivered.mono (hbase.clean other hclean (hthroughout _ hall)) (hdue other hne)
        fun _ => List.prefix_rfl
  · exact hreturned
  · intro hall
    have hold := hbase.sticky (hthroughout _ hall)
    rw [hlog]
    rcases event with _ | event
    · exact hold
    · exact ⟨hwrites event rfl, hold⟩
  · intro hnow hall
    rcases hbase.truncated (hstops hnow) (hthroughout _ hall) with ⟨⟨rest, hrest, hpiece⟩, hnone⟩
    refine ⟨⟨rest, by rw [h.output, hrest], hpiece.imp_right ?_⟩, fun other => ?_⟩
    · rintro ⟨of_, packet, hprefix, hnext⟩
      exact ⟨of_, packet, hprefix, hnext.trans (hemitted of_)⟩
    · rcases eq_or_ne other thread with rfl | hne
      · rw [Function.update_self, hnew.2]
      · rw [Function.update_of_ne hne, hnone]

/-- The start of a call that adds nothing to the history, and every return. -/
theorem Enters.quiet {before : Ghost} (hbefore : ghosts thread = before)
    (h : Enters state state' before rest) (hlog : state'.log = state.log)
    (hemitting : before.emitting = none) (hinv : Invariant state ghosts order queued) :
    Invariant state' (Function.update ghosts thread rest) order queued := by
  have hnone : state'.log = (none : Option Event).toList ++ state.log := hlog
  refine ⟨h.locks hbefore hinv.locks, h.errors hbefore hinv.errors hnone of_no_event,
    h.base hbefore hinv.base hnone ?_ of_no_event ?_ ?_ ?_ ?_ ?_
      (fun _ _ hsome => absurd hsome (by simp [rest])) ?_, fun hnow => ?_⟩
  · rw [hlog]
    exact hinv.base.returned
  · rw [hlog]
    exact id
  · exact fun other => ⟨[], by rw [hlog, List.append_nil]⟩
  · rw [hlog]
    exact hinv.base.nonempty
  · rw [hlog]
    exact fun other hsome => hinv.base.registered other (Or.inr hsome)
  · intro other
    rw [hlog, hinv.base.progress]
    rcases eq_or_ne other thread with rfl | hne
    · rw [Function.update_self, hbefore, hemitting]
      rfl
    · rw [Function.update_of_ne hne]
  · exact fun _ _ => by rw [hlog]
  · rw [hlog] at hnow
    exact h.flows hbefore (hinv.flows hnow) (fun _ _ => by rw [hlog])
      (by rw [hlog]; exact (List.append_nil _).symm) (fun _ _ => by rw [hlog]) trivial

theorem due_cons_of_ne {event : Event} {other : ThreadId} (hevent : event ≠ .flushStarted other)
    (log : List Event) : due other (event :: log) = due other log := by
  funext buffer
  rw [due, beforeFlush, if_neg hevent, due]

theorem Invariant.packet (h : Invariant state ghosts order queued) {packet : Bytes}
    (hrest : ghosts thread = rest) (hlive : state.contexts thread = .live)
    (hpacket : packet ≠ []) :
    Invariant (state.note (.started thread packet)) (Function.update ghosts thread
      { rest with emitting := some packet, sending := some (thread, packet) }) order queued := by
  set event : Event := .started thread packet
  have henters : Enters state (state.note event) rest
      { rest with emitting := some packet, sending := some (thread, packet) } :=
    ⟨rfl, rfl, rfl, rfl, rfl, rfl, fun _ => id, rfl, rfl⟩
  have hlog : (state.note event).log = (some event).toList ++ state.log := rfl
  have hself : emitted thread (event :: state.log) = emitted thread state.log ++ [packet] := by
    rw [emitted_cons]
    simp [event, startedBy]
  have hothers : ∀ other, other ≠ thread →
      emitted other (event :: state.log) = emitted other state.log := by
    intro other hne
    rw [emitted_cons]
    simp [event, startedBy, hne.symm]
  have hcompleted : ∀ other, completed other (event :: state.log) = completed other state.log := by
    intro other
    rw [completed_cons]
    simp [event, completedBy]
  have hdue : ∀ other, due other (event :: state.log) = due other state.log :=
    fun other => due_cons_of_ne (by simp [event]) _
  have hmem : thread ∈ state.threads := h.base.registered thread (Or.inl (by simp [hlive]))
  refine ⟨henters.locks hrest h.locks, henters.errors hrest h.errors hlog ?_,
    henters.base hrest h.base hlog trivial (by rintro _ ⟨⟩; trivial) ?_ ?_ ?_ ?_ ?_ ?_
      fun other _ => hdue other,
    fun hnow => ?_⟩
  · rintro _ ⟨⟩
    exact ⟨rfl, rfl, trivial⟩
  · intro hnow
    exact (stopped_cons.1 hnow).resolve_left (by simp [event, stops])
  · intro other
    rcases eq_or_ne other thread with rfl | hne
    · rw [show (state.note event).log = event :: state.log from rfl, hself]
      exact List.prefix_append _ _
    · exact ⟨[], by rw [List.append_nil]; exact (hothers other hne).symm⟩
  · intro other bytes hbytes
    rw [show (state.note event).log = event :: state.log from rfl] at hbytes
    rcases eq_or_ne other thread with rfl | hne
    · rw [hself, List.mem_append, List.mem_singleton] at hbytes
      rcases hbytes with hold | rfl
      · exact h.base.nonempty other bytes hold
      · exact hpacket
    · rw [hothers other hne] at hbytes
      exact h.base.nonempty other bytes hbytes
  · intro other hsome
    rw [show (state.note event).log = event :: state.log from rfl] at hsome
    rcases eq_or_ne other thread with rfl | hne
    · exact hmem
    · rw [hothers other hne] at hsome
      exact h.base.registered other (Or.inr hsome)
  · intro other
    rw [show (state.note event).log = event :: state.log from rfl, hcompleted]
    rcases eq_or_ne other thread with rfl | hne
    · rw [hself, h.base.progress, hrest, Function.update_self]
      simp [rest]
    · rw [hothers other hne, h.base.progress, Function.update_of_ne hne]
  · rintro buffer bytes ⟨⟩
    exact ⟨rfl, rfl⟩
  · refine henters.flows hrest (h.flows fun hstopped => hnow ?_) hothers hself
      (fun other _ => hdue other) trivial
    exact stopped_cons.2 (Or.inr hstopped)

theorem Invariant.flush (h : Invariant state ghosts order queued)
    (hrest : ghosts thread = rest) {alive : Bool} :
    Invariant ({ state with alive := alive }.note (.flushStarted thread))
      (Function.update ghosts thread { rest with flush := .waiting }) order queued := by
  set event : Event := .flushStarted thread
  set state' := { state with alive := alive }.note event with hstate'
  have henters : Enters state state' rest { rest with flush := .waiting } :=
    ⟨rfl, rfl, rfl, rfl, rfl, rfl, fun _ => id, rfl, rfl⟩
  have hlog : state'.log = (some event).toList ++ state.log := rfl
  have hemitted : ∀ other, emitted other state'.log = emitted other state.log := by
    intro other
    rw [show state'.log = event :: state.log from rfl, emitted_cons]
    simp [event, startedBy]
  have hcompleted : ∀ other, completed other state'.log = completed other state.log := by
    intro other
    rw [show state'.log = event :: state.log from rfl, completed_cons]
    simp [event, completedBy]
  have hdue : ∀ other, other ≠ thread → due other state'.log = due other state.log :=
    fun other hne => due_cons_of_ne (by simpa [event] using hne.symm) _
  have hthread : due thread state'.log = fun buffer => completed buffer state.log := by
    funext buffer
    rw [due, show state'.log = event :: state.log from rfl, beforeFlush, if_pos rfl]
  refine ⟨henters.locks hrest h.locks, henters.errors hrest h.errors hlog ?_,
    henters.base hrest h.base hlog trivial (by rintro _ ⟨⟩; trivial) ?_ ?_ ?_ ?_ ?_
      (fun _ _ hsome => absurd hsome (by simp [rest])) hdue, fun hnow => ?_⟩
  · rintro _ ⟨⟩
    exact ⟨rfl, rfl, trivial⟩
  · intro hnow
    exact (stopped_cons.1 hnow).resolve_left (by simp [event, stops])
  · exact fun other => ⟨[], by rw [hemitted, List.append_nil]⟩
  · exact fun other packet hpacket => h.base.nonempty other packet (hemitted other ▸ hpacket)
  · exact fun other hsome => h.base.registered other (Or.inr (hemitted other ▸ hsome))
  · intro other
    rw [hemitted, hcompleted, h.base.progress]
    rcases eq_or_ne other thread with rfl | hne
    · rw [hrest, Function.update_self]
    · rw [Function.update_of_ne hne]
  · refine henters.flows hrest (h.flows fun hstopped => hnow ?_) (fun other _ => hemitted other)
      ?_ hdue ?_
    · exact stopped_cons.2 (Or.inr hstopped)
    · rw [hemitted]
      exact (List.append_nil _).symm
    · intro buffer hsome
      rw [hthread] at hsome
      refine h.base.registered buffer (Or.inr fun hnone => hsome ?_)
      have hprogress := h.base.progress buffer
      rw [hnone] at hprogress
      exact (List.append_eq_nil_iff.1 hprogress.symm).1

theorem rule : System.SoloRule system protocol rest Final
    fun state ghosts => ∃ order queued, Invariant state ghosts order queued where
  user := fun _ => rfl
  act := by
    rintro state ghosts thread action choice reply state' ⟨order, queued, h⟩ hpre hperform
    exact h.act hpre hperform
  ret := by
    rintro state ghosts thread ⟨order, queued, h⟩ hfinal
    refine ⟨order, queued, Enters.quiet rfl ⟨rfl, rfl, rfl, rfl, rfl, rfl, fun _ => id, hfinal, rfl⟩
      rfl ?_ h⟩
    rw [hfinal]
    rfl
  call := by
    rintro state ghosts thread call program state' ⟨order, queued, h⟩ hrest hcall
    have hsame : Function.update ghosts thread rest = ghosts := by
      rw [← hrest, Function.update_eq_self]
    rcases call with _ | packet | _ | _ | _ <;>
      simp only [Output.call, Option.ite_none_right_eq_some, Option.some.injEq, Prod.mk.injEq]
        at hcall
    · rcases hcall with ⟨-, rfl, rfl⟩
      exact ⟨rest, keeps_newContext, order, queued, by rwa [hsame]⟩
    · rcases hcall with ⟨⟨-, hlive, hpacket⟩, rfl, rfl⟩
      exact ⟨_, keeps_packetDrop thread hpacket, order, queued, h.packet hrest hlive hpacket⟩
    · rcases hcall with ⟨-, rfl, rfl⟩
      exact ⟨_, keeps_flushAll, order, queued, h.flush hrest⟩
    · rcases hcall with ⟨hlive, rfl, rfl⟩
      have hcontexts : ∀ other, Function.update state.contexts thread .gone other ≠ .absent →
          state.contexts other ≠ .absent := by
        intro other hother
        rcases eq_or_ne other thread with rfl | hne
        · simp [hlive]
        · simpa [hne] using hother
      have henters : Enters state
          { state with contexts := Function.update state.contexts thread .gone } rest rest :=
        ⟨rfl, rfl, rfl, rfl, rfl, rfl, hcontexts, rfl, rfl⟩
      refine ⟨rest, ?_, order, queued, henters.quiet hrest rfl rfl h⟩
      split
      · exact keeps_exit thread
      · exact rfl
    · rcases hcall with ⟨-, rfl, rfl⟩
      exact ⟨_, keeps_flushAll, order, queued, h.flush hrest⟩

/-- The invariant holds in every reachable state. -/
theorem invariant_reaches {config : system.Config} (h : System.Reaches start config) :
    ∃ ghosts order queued, Invariant config.state ghosts order queued ∧
      ∀ thread, config.frames thread = [] → ghosts thread = rest := by
  rcases rule.reaches ⟨[], fun _ => [], invariant_initial⟩ h with
    ⟨ghosts, ⟨order, queued, hinv⟩, hrest⟩
  exact ⟨ghosts, order, queued, hinv, hrest⟩

end TracingPerfetto.OutputRuns
