import TracingPerfetto.Subscriber
import TracingPerfetto.Protocols

/-!
The actions that the parts of the callbacks perform: which of them open a writer, write
packets, run formatters or ask the registry, and that the others do none of that.
-/

namespace TracingPerfetto.Layer

open TracingPerfetto.Runtime TracingPerfetto.Sequence TracingPerfetto.TrackEvents
open TracingPerfetto.Counters TracingPerfetto.Threads
open TracingPerfetto.SpanStore (SpanId)

/-- An action between the thread and the stores of the layer, and no new writer. -/
def Act.plain : Act → Bool
  | .sequence .newWriter | .sequence (.write _ _ _) | .format _ | .registry _ => false
  | _ => true

/-- The slices of a thread and the polls of a span, and their ends. -/
def Content.slices : Content → Bool
  | .body (.threadBegin _ _ _ _) | .body (.pollBegin _ _ _) | .body (.enterEnd _ _) => true
  | _ => false

section Parts

variable {P : Act → Prop} (hplain : ∀ action : Act, action.plain = true → P action)

include hplain

theorem all_acquire : acquire.All P := by
  refine Prog.all_then (hplain _ rfl) fun failed => ?_
  cases failed with
  | true => exact Prog.all_pure _
  | false =>
      refine Prog.all_then (hplain _ rfl) fun found => ?_
      cases found with
      | acquired | refused => exact Prog.all_pure _
      | missing =>
          exact Prog.all_then (hplain _ rfl) fun _ => Prog.all_then (hplain _ rfl) fun _ =>
            Prog.all_then (hplain _ rfl) fun _ => Prog.all_then (hplain _ rfl) fun _ =>
              Prog.all_pure _

theorem all_takeRetainedSpan : takeRetainedSpan.All P := by
  refine (all_acquire hplain).bind fun acquired => ?_
  cases acquired with
  | true =>
      exact Prog.all_then (hplain _ rfl) fun _ => Prog.all_then (hplain _ rfl) fun _ =>
        Prog.all_pure _
  | false => exact Prog.all_pure _

theorem all_recycleRetainedSpan (retained : RetainedSpanData) :
    (recycleRetainedSpan retained).All P := by
  refine (all_acquire hplain).bind fun acquired => ?_
  cases acquired with
  | true => exact Prog.all_then (hplain _ rfl) fun _ => Prog.all_perform (hplain _ rfl)
  | false => exact Prog.all_pure _

theorem all_trackPool (key : TrackKey) : (trackPool key).All P := by
  refine Prog.all_then (hplain _ rfl) fun found => ?_
  cases found with
  | some pool => exact Prog.all_pure _
  | none => exact Prog.all_perform (hplain _ rfl)

theorem all_replaceTrackPool (key : TrackKey) (pool : PoolOf key) (localUuid : Option Nat) :
    (replaceTrackPool key pool localUuid).All P := by
  refine Prog.all_then (hplain _ rfl) fun old => ?_
  cases old with
  | some old => exact Prog.all_then (hplain _ rfl) fun _ => Prog.all_perform (hplain _ rfl)
  | none => exact Prog.all_perform (hplain _ rfl)

theorem all_claimTrack (key : TrackKey) : (claimTrack key).All P := by
  refine Prog.all_then (hplain _ rfl) fun cached => ?_
  rcases cached with _ | ⟨pool, _ | uuid⟩
  · refine (all_trackPool hplain key).bind fun found => ?_
    cases found with
    | some pool =>
        exact Prog.all_then (hplain _ rfl) fun _ =>
          (all_replaceTrackPool hplain key pool none).bind fun _ => Prog.all_pure _
    | none => exact Prog.all_pure _
  · exact Prog.all_then (hplain _ rfl) fun _ => Prog.all_pure _
  · exact Prog.all_pure _

theorem all_releaseTrack (pool : PoolRef) (uuid : Nat) : (releaseTrack pool uuid).All P := by
  refine Prog.all_then (hplain _ rfl) fun outcome => ?_
  cases outcome with
  | kept => exact Prog.all_pure _
  | full => exact Prog.all_perform (hplain _ rfl)
  | uncached => exact all_replaceTrackPool hplain _ _ _

theorem all_dropContext : dropContext.All P := by
  refine Prog.all_then (hplain _ rfl) fun uuids => ?_
  induction uuids with
  | nil => exact Prog.all_pure _
  | cons first uuids ih => exact Prog.all_then (hplain _ rfl) fun _ => ih

theorem all_enclosingTrack (span : Option SpanId) : (enclosingTrack span).All P := by
  cases span with
  | none => exact Prog.all_pure _
  | some spanId =>
      refine Prog.all_then (hplain _ rfl) fun found => ?_
      cases found with
      | some found => exact Prog.all_then (hplain _ rfl) fun _ => Prog.all_pure _
      | none => exact Prog.all_pure _

theorem all_ensureRetained (found : Found) : (ensureRetained found).All P := by
  rw [ensureRetained]
  split
  · exact Prog.all_pure _
  · exact (all_takeRetainedSpan hplain).bind fun _ => Prog.all_then (hplain _ rfl) fun _ =>
      Prog.all_pure _

theorem all_queueFlow (spanId : SpanId) (flow : PendingFlow) : (queueFlow spanId flow).All P := by
  refine Prog.all_then (hplain _ rfl) fun found => ?_
  cases found with
  | none => exact Prog.all_pure _
  | some found =>
      exact (all_ensureRetained hplain found).bind fun _ => Prog.all_then (hplain _ rfl) fun _ =>
        Prog.all_then (hplain _ rfl) fun _ => Prog.all_pure _

theorem all_giveBack (acquired : Bool) (data : SpanData) : (giveBack acquired data).All P := by
  refine Prog.All.bind ?_ fun _ => Prog.All.bind ?_ fun _ => ?_
  · rw [giveBackTrack]
    split
    · cases acquired with
      | true => exact all_releaseTrack hplain _ _
      | false => exact Prog.all_perform (hplain _ rfl)
    · exact Prog.all_pure _
  · rw [giveBackRetained]
    split
    · cases acquired with
      | true => exact Prog.all_perform (hplain _ rfl)
      | false => exact all_recycleRetainedSpan hplain _
    · exact Prog.all_pure _
  · cases acquired with
    | true => exact Prog.all_perform (hplain _ rfl)
    | false => exact Prog.all_pure _

/-! With formatters. -/

variable (hformat : ∀ span, P (.format span))

include hformat

theorem all_newRetained (env : Env) (instance_ : Nat) : (newRetained env instance_).All P := by
  rw [newRetained]
  split
  · refine (all_takeRetainedSpan hplain).bind fun retained => ?_
    have hrest : ∀ (stored : RetainedSpanData) (panicked : Bool),
        ((if panicked = true then pure none
          else if env.config.spanMode.emitThreadSlices = true then do
            let flow ← act (.shared .allocFlowId)
            pure (some (some { stored with pollFlowId := some flow }))
          else pure (some (some stored))) :
            Program (Option (Option RetainedSpanData))).All P := by
      intro stored panicked
      split
      · exact Prog.all_pure _
      · split
        · exact Prog.all_then (hplain _ rfl) fun _ => Prog.all_pure _
        · exact Prog.all_pure _
    cases env.config.debugAnnotations && env.config.spanMode == .threadTracks with
    | true =>
        exact Prog.all_then (hformat _) fun visits => hrest _ _
    | false => exact hrest retained false
  · exact Prog.all_pure _

theorem all_onRecord (env : Env) (spanId : SpanId) : (onRecord env spanId).All P := by
  rw [onRecord]
  split
  · exact Prog.all_pure _
  · refine Prog.all_then (hplain _ rfl) fun failed => ?_
    cases failed with
    | true => exact Prog.all_pure _
    | false =>
        refine Prog.all_then (hplain _ rfl) fun found => ?_
        cases found with
        | none => exact Prog.all_pure _
        | some found =>
            exact (all_ensureRetained hplain found).bind fun _ => Prog.all_then (hformat _)
              fun _ => Prog.all_then (hplain _ rfl) fun _ => Prog.all_perform (hplain _ rfl)

end Parts

section Registry

variable {P : Act → Prop} (hplain : ∀ action : Act, action.plain = true → P action)
  (hspan : ∀ spanId, P (.registry (.span spanId)))

include hplain hspan

theorem all_onFollowsFrom (spanId follows : SpanId) : (onFollowsFrom spanId follows).All P := by
  refine Prog.all_then (hplain _ rfl) fun failed => ?_
  cases failed with
  | true => exact Prog.all_pure _
  | false =>
      refine Prog.all_then (hspan _) fun span => ?_
      cases span with
      | none => exact Prog.all_pure _
      | some metadata =>
          refine Prog.all_then (hspan _) fun other => ?_
          cases other with
          | none => exact Prog.all_pure _
          | some other =>
              refine Prog.all_then (hplain _ rfl) fun _ => Prog.all_then (hplain _ rfl) fun flow =>
                (all_queueFlow hplain follows (.start flow)).bind fun queued => ?_
              cases queued with
              | true => exact (all_queueFlow hplain spanId _).bind fun _ => Prog.all_pure _
              | false => exact Prog.all_pure _

end Registry

section Packets

variable {P : Act → Prop} (hplain : ∀ action : Act, action.plain = true → P action)
  (hwrite : ∀ span calledAt content, content.slices = false →
    P (.sequence (.write span calledAt content))) (calledAt : Nat)

include hplain hwrite

theorem all_ensureInitialized : (ensureInitialized calledAt).All P := by
  refine Prog.all_then (hplain _ rfl) fun initialized => ?_
  cases initialized with
  | true => exact Prog.all_pure _
  | false =>
      refine Prog.all_then (hplain _ rfl) fun _ => Prog.all_then (hplain _ rfl) fun _ =>
        Prog.all_then (hwrite _ _ _ rfl) fun _ => Prog.all_then (hplain _ rfl) fun claims => ?_
      cases claims with
      | true =>
          exact Prog.all_then (hplain _ rfl) fun _ => Prog.all_then (hwrite _ _ _ rfl) fun _ =>
            Prog.all_perform (hwrite _ _ _ rfl)
      | false => exact Prog.all_perform (hwrite _ _ _ rfl)

theorem all_createSpanTrack (key : TrackKey) : (createSpanTrack calledAt key).All P :=
  Prog.all_then (hplain _ rfl) fun _ =>
    ((all_ensureInitialized hplain hwrite calledAt).bind fun _ => Prog.all_then (hplain _ rfl)
      fun _ => Prog.all_perform (hwrite _ _ _ rfl)).bind fun _ => Prog.all_pure _

theorem all_createCounterTracks (names : List StaticStr) :
    (createCounterTracks calledAt names).All P := by
  induction names with
  | nil => exact Prog.all_pure _
  | cons name names ih =>
      refine Prog.all_then (hplain _ rfl) fun known => ?_
      cases known with
      | some uuid => exact ih
      | none =>
          refine Prog.All.bind (Prog.all_then (hplain _ rfl) fun uuid => Prog.All.bind ?_ fun _ =>
            Prog.all_perform (hplain _ rfl)) fun _ => ih
          exact (all_ensureInitialized hplain hwrite calledAt).bind fun _ =>
            Prog.all_then (hplain _ rfl) fun _ => Prog.all_then (hplain _ rfl) fun process =>
              Prog.all_perform (hwrite _ _ _ rfl)

end Packets

end TracingPerfetto.Layer
