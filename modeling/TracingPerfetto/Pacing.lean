import TracingPerfetto.LayerEntries
import TracingPerfetto.PacketTimes
import TracingPerfetto.ProgramActions

/-!
Protocols beside the one of `LayerProtocol`, and two of them: a callback opens one writer at
most, and writes no packet before it has taken its timestamp, which a new writer starts
without. So of the actions of a callback only a search of the store may have to wait.
-/

namespace TracingPerfetto.Layer

open TracingPerfetto.Runtime TracingPerfetto.Sequence TracingPerfetto.TrackEvents
open TracingPerfetto.Counters TracingPerfetto.Threads
open TracingPerfetto.SpanStore (SpanId activeShard)

/-! ## A second protocol -/

/-- How steps of the layer keep an invariant of both protocols. -/
abbrev KeepsBoth (env : Env) {Extra : Type} (second : Protocol Act Act.Reply Extra)
    (start : Call → Extra) (allowed : ThreadId → Call → State → Prop)
    (base inv : State → (ThreadId → List (Frame × Extra)) → Prop) : Prop :=
  System.Preserves (system env) ((protocol env).both second) (fun ghost => Final ghost.1)
    (fun thread call state => (enter thread call state, start call)) allowed base inv

/-- The rule for both protocols: what single steps keep, on top of what is known, a whole
run keeps. -/
theorem KeepsBoth.rule {env : Env} {Extra : Type} {second : Protocol Act Act.Reply Extra}
    {start : Call → Extra} {allowed : ThreadId → Call → State → Prop}
    {inv : State → (ThreadId → List (Frame × Extra)) → Prop}
    (h : KeepsBoth env second start allowed (fun state ghosts => Known env state (firsts ghosts))
      inv)
    (hkeeps : ∀ call calledAt instance_, second.Keeps (fun _ _ => True) (start call) (do
      call.program env calledAt instance_
      act (.registry (.finish call)))) :
    System.RuleWhen (system env) ((protocol env).both second) (fun ghost => Final ghost.1) allowed
      fun state ghosts => Known env state (firsts ghosts) ∧ inv state ghosts := by
  refine ((known_kept env).when.firsts start |>.and h).rule ?_
  intro thread call state prog state' hcall
  simp only [Layer.call, Option.bind_eq_bind, Option.bind_eq_some_iff, Option.some.injEq,
    Prod.mk.injEq] at hcall
  obtain ⟨_, -, rfl, -⟩ := hcall
  exact ((keeps_call call).both (hkeeps call _ _)).mono fun _ _ hpost => hpost.1

/-! ## One writer, and timestamps before packets -/

def Act.opensWriter : Act → Bool
  | .sequence .newWriter => true
  | _ => false

/-- The value says that the callback has had its writer. -/
def single : Protocol Act Act.Reply Bool where
  pre opened action := action.opensWriter = true → opened = false
  next opened action _ := opened || action.opensWriter

def Act.writes : Act → Bool
  | .sequence (.write _ _ _) => true
  | _ => false

/-- The value says that the writer of the callback has its timestamp. -/
def pacing : Protocol Act Act.Reply Bool where
  pre stamped action := action.writes = true → stamped = true
  next stamped action _ :=
    match action with
    | .sequence .timestamp => true
    | .sequence .newWriter | .context (.insert _ _ _) | .context .dropGuard => false
    | _ => stamped

/-- The program takes the timestamps of its packets, whatever was before. -/
def Paced {α : Type} (program : Program α) : Prop :=
  ∀ stamped, pacing.Keeps (fun _ _ => True) stamped program

section Programs

variable {α β : Type}

/-- The program opens one writer at most. -/
def Once (program : Program α) : Prop := single.Keeps (fun _ _ => True) false program

/-- The program opens no writer. -/
abbrev Writerless (program : Program α) : Prop :=
  program.All fun action => action.opensWriter = false

theorem Writerless.keeps {program : Program α} (h : Writerless program) (opened : Bool) :
    single.Keeps (fun _ after => after = opened) opened program := by
  induction program with
  | done value => rfl
  | act action next ih =>
      refine ⟨fun hopens => absurd (h.1.symm.trans hopens) Bool.false_ne_true, fun reply => ?_⟩
      have hnext : single.next opened action reply = opened := by
        simp [single, h.1]
      rw [hnext]
      exact ih reply (h.2 reply)

theorem once_all {program : Program α} (h : Writerless program) : Once program :=
  (h.keeps false).mono fun _ _ _ => trivial

theorem once_after {program : Program α} {rest : α → Program β} (h : Writerless program)
    (hrest : ∀ value, Once (rest value)) : Once (program >>= rest) := by
  refine ((h.keeps false).mono fun value after hafter => ?_).bind
  rw [hafter]
  exact hrest value

theorem once_writer {rest : Unit → Program β} (h : Writerless (rest ())) :
    Once (act (.sequence .newWriter) >>= rest) :=
  ⟨fun _ => rfl, fun _ => (h.keeps true).mono fun _ _ _ => trivial⟩

theorem plain_opensWriter (action : Act) (h : action.plain = true) :
    action.opensWriter = false := by
  cases action with
  | sequence act => cases act <;> first | rfl | cases h
  | _ => rfl

theorem writerless_ensureInitialized (calledAt : Nat) :
    Writerless (ensureInitialized calledAt) :=
  all_ensureInitialized plain_opensWriter (fun _ _ _ _ => rfl) calledAt

theorem writerless_packet {body : Program Body} (hbody : Writerless body) (span : Option Nat)
    (calledAt : Nat) : Writerless (packet span calledAt body) :=
  (writerless_ensureInitialized calledAt).bind fun _ => Prog.all_then rfl fun _ =>
    hbody.bind fun _ => Prog.all_perform rfl

theorem paced_pure (value : α) : Paced (pure value) := fun _ => trivial

theorem Paced.bind {program : Program α} {rest : α → Program β} (h : Paced program)
    (hrest : ∀ value, Paced (rest value)) : Paced (program >>= rest) :=
  fun stamped => ((h stamped).mono fun value after _ => hrest value after).bind

/-- An action that is no packet. -/
theorem pacing_step {post : β → Bool → Prop} {stamped : Bool} {action : Act}
    {rest : action.Reply → Program β} (h : action.writes = false)
    (hrest : ∀ reply, pacing.Keeps post (pacing.next stamped action reply) (rest reply)) :
    pacing.Keeps post stamped (act action >>= rest) :=
  ⟨fun hwrites => absurd (h.symm.trans hwrites) Bool.false_ne_true, hrest⟩

theorem paced_act {action : Act} (h : action.writes = false) : Paced (act action) :=
  fun _ => ⟨fun hwrites => absurd (h.symm.trans hwrites) Bool.false_ne_true, fun _ => trivial⟩

theorem paced_then {action : Act} {rest : action.Reply → Program β}
    (h : action.writes = false) (hrest : ∀ reply, Paced (rest reply)) :
    Paced (act action >>= rest) :=
  fun _ => pacing_step h fun reply => hrest reply _

/-- A part without packets. -/
theorem paced_all {program : Program α} (h : program.All fun action => action.writes = false) :
    Paced program :=
  h.keeps fun _ _ hwrites hpacket => absurd (hwrites.symm.trans hpacket) Bool.false_ne_true

/-- A body comes about without another writer. -/
def Calm (program : Program α) : Prop :=
  ∀ stamped, pacing.Keeps (fun _ after => after = stamped) stamped program

/-- A packet after its timestamp. -/
theorem paced_packet {span : Option Nat} {calledAt : Nat} {body : Program α}
    {content : α → Content} {rest : α → Program β} (hbody : Calm body)
    (hrest : ∀ value, Paced (rest value)) :
    Paced (act (.sequence .timestamp) >>= fun _ => body >>= fun value =>
      write span calledAt (content value) >>= fun _ => rest value) := by
  refine fun _ => pacing_step rfl fun _ => ?_
  refine ((hbody true).mono fun value after hafter => ?_).bind
  exact ⟨fun _ => hafter, fun _ => hrest value after⟩

theorem calm_pure (value : α) : Calm (pure value) := fun _ => rfl

theorem paced_ensureInitialized (calledAt : Nat) : Paced (ensureInitialized calledAt) := by
  refine paced_then rfl fun initialized => ?_
  cases initialized with
  | true => exact paced_pure _
  | false =>
      refine paced_then rfl fun _ _ => pacing_step rfl fun _ => ?_
      refine ⟨fun _ => rfl, fun _ => pacing_step rfl fun claims => ?_⟩
      cases claims with
      | true =>
          exact pacing_step rfl fun _ => ⟨fun _ => rfl, fun _ => ⟨fun _ => rfl, fun _ => trivial⟩⟩
      | false => exact ⟨fun _ => rfl, fun _ => trivial⟩

theorem Calm.packet {body : Program Body} (hbody : Calm body) (span : Option Nat)
    (calledAt : Nat) : Paced (packet span calledAt body) := by
  have hrest : ∀ value : Body, Paced (pure () : Program Unit) := fun _ => paced_pure ()
  exact (paced_ensureInitialized calledAt).bind fun _ => paced_packet hbody hrest

/-- What the callbacks and their parts keep to. -/
structure Session (program : Program α) : Prop where
  once : Once program
  paced : Paced program

/-- Neither a new writer nor a packet. -/
def Act.quiet (action : Act) : Bool := !action.opensWriter && !action.writes

theorem plain_quiet (action : Act) (h : action.plain = true) : action.quiet = true := by
  cases action with
  | sequence act => cases act <;> first | rfl | cases h
  | _ => rfl

/-- A part of a callback without a writer. -/
abbrev Quiet (program : Program α) : Prop := program.All fun action => action.quiet = true

theorem Quiet.writerless {program : Program α} (h : Quiet program) : Writerless program :=
  h.mono fun _ hquiet => (Bool.not_eq_true' _).mp (Bool.and_eq_true_iff.1 hquiet).1

theorem Quiet.paced {program : Program α} (h : Quiet program) : Paced program :=
  paced_all (h.mono fun _ hquiet => (Bool.not_eq_true' _).mp (Bool.and_eq_true_iff.1 hquiet).2)

theorem session_all {program : Program α} (h : Quiet program) : Session program :=
  ⟨once_all h.writerless, h.paced⟩

theorem session_pure (value : α) : Session (pure value) := session_all (Prog.all_pure value)

theorem session_act {action : Act} (h : action.quiet = true) : Session (act action) :=
  session_all (Prog.all_perform h)

theorem session_after {program : Program α} {rest : α → Program β} (h : Quiet program)
    (hrest : ∀ value, Session (rest value)) : Session (program >>= rest) :=
  ⟨once_after h.writerless fun value => (hrest value).once,
    h.paced.bind fun value => (hrest value).paced⟩

theorem session_then {action : Act} {rest : action.Reply → Program β}
    (h : action.quiet = true) (hrest : ∀ reply, Session (rest reply)) :
    Session (act action >>= rest) :=
  session_after (Prog.all_perform h) hrest

/-- The packets of a callback. -/
theorem session_writer {rest : Unit → Program β} (hwriterless : Writerless (rest ()))
    (hpaced : Paced (rest ())) : Session (act (.sequence .newWriter) >>= rest) :=
  ⟨once_writer hwriterless, paced_then rfl fun _ => hpaced⟩

/-! The callbacks. -/

variable (env : Env) (calledAt : Nat)

theorem paced_createSpanTrack (key : TrackKey) : Paced (createSpanTrack calledAt key) :=
  paced_then rfl fun _ => ((calm_pure _).packet _ _).bind fun _ => paced_pure _

theorem paced_createCounterTrack (name : StaticStr) : Paced (createCounterTrack calledAt name) := by
  refine paced_then rfl fun uuid => Paced.bind (Calm.packet ?_ _ _) fun _ => paced_act rfl
  exact fun stamped => pacing_step rfl fun _ => rfl

theorem paced_createCounterTracks (names : List StaticStr) :
    Paced (createCounterTracks calledAt names) := by
  induction names with
  | nil => exact paced_pure _
  | cons name names ih =>
      refine paced_then rfl fun known => ?_
      cases known with
      | some uuid => exact ih
      | none => exact (paced_createCounterTrack calledAt name).bind fun _ => ih

theorem calm_visitAttributes : Calm (visitAttributes env) := by
  rw [visitAttributes]
  split
  · exact fun _ => ⟨fun hwrites => absurd hwrites Bool.false_ne_true, fun _ => rfl⟩
  · exact calm_pure _

/-- The lifetime slice of a new span, and its entry. -/
theorem paced_publish (spanId : SpanId) (instance_ : Nat) (metadata : Metadata) (uuid : Nat)
    (data : SpanData) :
    Paced (do
      ensureInitialized calledAt
      act (.sequence .timestamp)
      let visits ← visitAttributes env
      write (some instance_) calledAt (.body (.lifetimeBegin uuid metadata visits))
      if visits.panic then dropGuard
      else do
        act (.spans (.insert spanId instance_ data))
        dropGuard) := by
  refine (paced_ensureInitialized calledAt).bind fun _ =>
    paced_packet (calm_visitAttributes env) fun visits => ?_
  split
  · exact paced_act rfl
  · exact paced_then rfl fun _ => paced_act rfl

theorem writerless_publish (spanId : SpanId) (instance_ : Nat) (metadata : Metadata) (uuid : Nat)
    (data : SpanData) :
    Writerless (do
      ensureInitialized calledAt
      act (.sequence .timestamp)
      let visits ← visitAttributes env
      write (some instance_) calledAt (.body (.lifetimeBegin uuid metadata visits))
      if visits.panic then dropGuard
      else do
        act (.spans (.insert spanId instance_ data))
        dropGuard) := by
  refine (writerless_ensureInitialized calledAt).bind fun _ => Prog.all_then rfl fun _ => ?_
  have hvisits : Writerless (visitAttributes env) := by
    rw [visitAttributes]
    split
    · exact Prog.all_perform rfl
    · exact Prog.all_pure _
  refine hvisits.bind fun visits => Prog.all_then rfl fun _ => ?_
  split
  · exact Prog.all_perform rfl
  · exact Prog.all_then rfl fun _ => Prog.all_perform rfl

theorem session_beginLifetime (spanId : SpanId) (instance_ : Nat) (metadata : Metadata)
    (key : TrackKey) (data : SpanData) :
    Session (beginLifetime env calledAt spanId instance_ metadata key data) := by
  refine session_after (all_claimTrack plain_quiet key) fun claim => ?_
  have hwriterless := fun uuid data => writerless_publish env calledAt spanId instance_ metadata
    uuid data
  have hpaced := fun uuid data => paced_publish env calledAt spanId instance_ metadata uuid data
  apply session_writer
  · cases claim.bind Prod.snd with
    | some uuid => exact hwriterless uuid _
    | none =>
        exact (all_createSpanTrack plain_opensWriter (fun _ _ _ _ => rfl) calledAt key).bind
          fun uuid => hwriterless uuid _
  · cases claim.bind Prod.snd with
    | some uuid => exact hpaced uuid _
    | none => exact (paced_createSpanTrack calledAt key).bind fun uuid => hpaced uuid _

theorem session_onNewSpan (spanId : SpanId) (instance_ : Nat) (parent : Option SpanId) :
    Session (onNewSpan env calledAt spanId instance_ parent) := by
  refine session_then rfl fun failed => ?_
  cases failed with
  | true => exact session_pure _
  | false =>
      refine session_then rfl fun known => ?_
      cases known with
      | none => exact session_pure _
      | some metadata =>
          have hretained := all_newRetained plain_quiet (fun _ => rfl) env instance_
          refine session_after hretained fun retained => ?_
          cases retained with
          | none => exact session_pure _
          | some retained =>
              have hrest : ∀ parentUuid, Session (do
                  let acquired ← acquire
                  if acquired then
                    beginLifetime env calledAt spanId instance_ metadata
                      ⟨metadata.name, parentUuid⟩ (SpanData.new retained)
                  else act (.spans (.insert spanId instance_ (SpanData.new retained)))) := by
                intro parentUuid
                refine session_after (all_acquire plain_quiet) fun acquired => ?_
                cases acquired with
                | true => exact session_beginLifetime env calledAt _ _ _ _ _
                | false => exact session_act rfl
              change Session (if !env.config.spanMode.emitSpanSlices then _ else _)
              split
              · exact session_act rfl
              · refine session_after (all_enclosingTrack plain_quiet parent) fun enclosing => ?_
                cases enclosing with
                | some uuid => exact hrest uuid
                | none => exact session_then rfl hrest

theorem session_boundary (found : Found) (flows : Bool) (body : List PendingFlow → Body) :
    Session (boundary calledAt found flows body) := by
  have hend : Quiet (if flows then do
      let found := found.withData found.data.clearPendingFlows
      act (.spans (.put found))
      act (.spans (.dropMut found))
      dropGuard
    else do
      act (.spans (.dropMut found))
      dropGuard) := by
    cases flows with
    | true =>
        exact Prog.all_then rfl fun _ => Prog.all_then rfl fun _ => Prog.all_perform rfl
    | false => exact Prog.all_then rfl fun _ => Prog.all_perform rfl
  exact session_writer ((writerless_packet (Prog.all_pure _) _ _).bind fun _ => hend.writerless)
    (((calm_pure _).packet _ _).bind fun _ => hend.paced)

theorem session_onEnter (spanId : SpanId) : Session (onEnter env calledAt spanId) := by
  rw [onEnter]
  split
  · exact session_pure _
  · refine session_then rfl fun failed => ?_
    cases failed with
    | true => exact session_pure _
    | false =>
        refine session_then rfl fun known => ?_
        cases known with
        | none => exact session_pure _
        | some metadata =>
            refine session_after (all_acquire plain_quiet) fun acquired => ?_
            cases acquired with
            | false => exact session_pure _
            | true =>
                refine session_then rfl fun found => ?_
                cases found with
                | none => exact session_act rfl
                | some found =>
                    change Session (if env.config.spanMode.emitThreadSlices then _ else _)
                    split
                    · exact session_then rfl fun _ => session_boundary calledAt _ _ _
                    · split
                      · exact session_then rfl fun _ => session_act rfl
                      · exact session_then rfl fun _ => session_boundary calledAt _ _ _

theorem session_onExit (spanId : SpanId) : Session (onExit env calledAt spanId) := by
  rw [onExit]
  split
  · exact session_pure _
  · refine session_then rfl fun failed => ?_
    cases failed with
    | true => exact session_pure _
    | false =>
        refine session_after (all_acquire plain_quiet) fun acquired => ?_
        cases acquired with
        | false => exact session_pure _
        | true =>
            refine session_then rfl fun found => ?_
            cases found with
            | none => exact session_act rfl
            | some found =>
                change Session (if env.config.spanMode.emitThreadSlices then _ else _)
                split
                · exact session_then rfl fun _ => session_boundary calledAt _ _ _
                · split
                  · exact session_then rfl fun _ => session_act rfl
                  · exact session_boundary calledAt _ _ _

theorem session_onClose (spanId : SpanId) : Session (onClose calledAt spanId) := by
  have hgiveBack : ∀ acquired data, Quiet (giveBack acquired data) :=
    fun acquired data => all_giveBack plain_quiet acquired data
  refine session_then rfl fun found => ?_
  cases found with
  | none => exact session_pure _
  | some found =>
      dsimp only
      split
      · exact session_all (hgiveBack _ _)
      · rename_i uuid _
        have hrest : ∀ acquired : Bool, Session (if acquired then do
            act (.sequence .newWriter)
            packet (some found.entry.instance_) calledAt
              (pure (.lifetimeEnd uuid found.data.pendingFlows found.data.fields))
            giveBack true found.data
          else giveBack false found.data) := by
          intro acquired
          cases acquired with
          | true =>
              apply session_writer
              · exact (writerless_packet (Prog.all_pure _) _ _).bind fun _ =>
                  (hgiveBack _ _).writerless
              · exact ((calm_pure _).packet _ _).bind fun _ => (hgiveBack _ _).paced
          | false => exact session_all (hgiveBack _ _)
        refine session_then rfl fun failed => ?_
        cases failed with
        | true => exact hrest false
        | false => exact session_after (all_acquire plain_quiet) hrest

/-- The packets of an event, once its track is known. -/
theorem session_instant (metadata : Metadata) (uuid threadTrack : Nat) :
    Session (do
      act (.sequence .newWriter)
      if env.config.counters then
        createCounterTracks calledAt (declaredCounters env.memory metadata)
      else pure ()
      packet none calledAt do
        let visits ← act (.format none)
        pure (.instant (if env.bases.uuid uuid = env.bases.uuid threadTrack then none
          else some uuid) metadata visits)
      dropGuard) := by
  have hbody : Quiet (do
      let visits ← act (.format none)
      pure (Body.instant (if env.bases.uuid uuid = env.bases.uuid threadTrack then none
        else some uuid) metadata visits)) :=
    Prog.all_then rfl fun _ => Prog.all_pure _
  have hcalm : Calm (do
      let visits ← act (.format none)
      pure (Body.instant (if env.bases.uuid uuid = env.bases.uuid threadTrack then none
        else some uuid) metadata visits)) :=
    fun stamped => pacing_step rfl fun _ => rfl
  have hdrop : Quiet dropGuard := Prog.all_perform rfl
  have hwriterless := (writerless_packet hbody.writerless none calledAt).bind
    fun _ => hdrop.writerless
  have hpaced := (hcalm.packet none calledAt).bind fun _ => hdrop.paced
  apply session_writer
  · cases env.config.counters with
    | true =>
        exact (all_createCounterTracks plain_opensWriter (fun _ _ _ _ => rfl) calledAt _).bind
          fun _ => hwriterless
    | false => exact hwriterless
  · cases env.config.counters with
    | true => exact (paced_createCounterTracks calledAt _).bind fun _ => hpaced
    | false => exact hpaced

theorem session_onEvent (metadata : Metadata) (span : Option SpanId) :
    Session (onEvent env calledAt metadata span) := by
  refine session_then rfl fun failed => ?_
  cases failed with
  | true => exact session_pure _
  | false =>
      refine session_after (all_acquire plain_quiet) fun acquired => ?_
      cases acquired with
      | false => exact session_pure _
      | true =>
          refine session_then rfl fun threadTrack => ?_
          cases env.config.spanMode == .spanTracks with
          | true =>
              exact session_after (all_enclosingTrack plain_quiet span) fun enclosing =>
                session_instant env calledAt metadata _ threadTrack
          | false => exact session_instant env calledAt metadata _ threadTrack

theorem session_program (instance_ : Nat) (call : Call) :
    Session (call.program env calledAt instance_) := by
  cases call with
  | newSpan spanId metadata parent =>
      exact session_onNewSpan env calledAt spanId instance_ parent
  | record spanId => exact session_all (all_onRecord plain_quiet (fun _ => rfl) env spanId)
  | followsFrom spanId follows =>
      exact session_all (all_onFollowsFrom plain_quiet (fun _ => rfl) spanId follows)
  | enter spanId => exact session_onEnter env calledAt spanId
  | exit spanId => exact session_onExit env calledAt spanId
  | close spanId => exact session_onClose calledAt spanId
  | event metadata span => exact session_onEvent env calledAt metadata span
  | exitThread => exact session_all (all_dropContext plain_quiet)

end Programs

theorem paced_call {env : Env} (call : Call) (calledAt instance_ : Nat) :
    pacing.Keeps (fun _ _ => True) false (do
      call.program env calledAt instance_
      act (.registry (.finish call))) := by
  have hfinish : Paced (act (.registry (.finish call))) := paced_act rfl
  exact (session_program env calledAt instance_ call).paced.bind (fun _ => hfinish) false

/-- A callback has one writer, and takes its timestamp before the packets. -/
theorem single_pacing_call (env : Env) (call : Call) (calledAt instance_ : Nat) :
    (single.both pacing).Keeps (fun _ _ => True) (false, false) (do
      call.program env calledAt instance_
      act (.registry (.finish call))) := by
  have honce : Once (do
      call.program env calledAt instance_
      act (.registry (.finish call))) := by
    refine Protocol.Keeps.bind ((session_program env calledAt instance_ call).once.mono ?_)
    exact fun _ opened _ => ⟨fun hopens => absurd hopens Bool.false_ne_true, fun _ => trivial⟩
  exact (honce.both (paced_call call calledAt instance_)).mono fun _ _ _ => trivial

end TracingPerfetto.Layer
