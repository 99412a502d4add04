import TracingPerfetto.LayerProtocol

/-!
Every callback keeps to the protocol. Each rule is for a part of a callback, with what
comes after it.
-/

namespace TracingPerfetto.Layer

open TracingPerfetto.Runtime TracingPerfetto.Sequence TracingPerfetto.TrackEvents
open TracingPerfetto.Counters TracingPerfetto.Threads
open TracingPerfetto.SpanStore (SpanId)

namespace Frame

/-- A callback without the context. -/
structure Off (frame : Frame) : Prop where
  context : frame.context = false
  vacant : frame.vacant = false
  phase : frame.phase = .closed

/-- A callback with the context. -/
structure On (frame : Frame) : Prop where
  context : frame.context = true
  vacant : frame.vacant = false

/-- A callback with a writer. -/
structure Writing (frame : Frame) : Prop extends frame.On where
  phase : frame.phase = .fresh ∨ frame.phase = .ready

/-- A callback without a guard. -/
structure Empty (frame : Frame) : Prop where
  guard : frame.guard = none
  exclusive : frame.exclusive = false
  asked : frame.asked = false
  seen : frame.seen = false
  sent : frame.sent = false

end Frame

section Rules

variable {env : Env} {β : Type} {post : β → Frame → Prop} {frame : Frame}

theorem keeps_acquire {rest : Bool → Program β} (hoff : frame.Off) (hfresh : frame.fresh = none)
    (h : ∀ acquired excused checked, (acquired = false → excused = true) →
      (frame.excused = true → excused = true) → (frame.checked = true → checked = true) →
      Keeps env post { frame with context := acquired, excused := excused, checked := checked }
        (rest acquired)) :
    Keeps env post frame (acquire >>= rest) := by
  obtain ⟨hcontext, hvacant, hphase⟩ := hoff
  cases frame
  simp only at hcontext hvacant hphase hfresh
  subst hcontext hvacant hphase hfresh
  have hbefore : ∀ b c : Bool, b = true → (b || c) = true := fun b c heq => by simp [heq]
  refine ⟨trivial, fun failed => ?_⟩
  cases failed with
  | true => exact h false _ _ (fun _ => Bool.or_true _) (hbefore _ _) (hbefore _ _)
  | false =>
      refine ⟨⟨rfl, rfl, rfl⟩, fun found => ?_⟩
      cases found with
      | acquired => exact h true _ _ (by simp) (hbefore _ _) (hbefore _ _)
      | refused => exact h false true _ (fun _ => rfl) (fun _ => rfl) (hbefore _ _)
      | missing =>
          exact ⟨trivial, fun _ => ⟨trivial, fun _ => ⟨trivial, fun _ => ⟨⟨rfl, rfl, rfl⟩, fun _ =>
            h true _ _ (by simp) (hbefore _ _) (hbefore _ _)⟩⟩⟩⟩

theorem keeps_takeRetainedSpan {rest : RetainedSpanData → Program β} (hoff : frame.Off)
    (hfresh : frame.fresh = none)
    (h : ∀ excused checked, (frame.excused = true → excused = true) →
      (frame.checked = true → checked = true) →
      Keeps env post { frame with excused := excused, checked := checked } (rest .default)) :
    Keeps env post frame (takeRetainedSpan >>= rest) := by
  rw [takeRetainedSpan, Prog.bind_bind]
  refine keeps_acquire hoff hfresh fun acquired excused checked _ hexcused hchecked => ?_
  have hrest := h excused checked hexcused hchecked
  rw [hoff.context] at hrest
  cases acquired with
  | true =>
      refine ⟨rfl, fun box => ⟨⟨rfl, ?_⟩, fun _ => ?_⟩⟩
      · change frame.phase.calm = true
        rw [hoff.phase]
        rfl
      · have hbox : box.retained = .default := box.cleared
        rw [hoff.phase, ← hbox] at hrest
        exact hrest
  | false => exact hrest

theorem keeps_recycleRetainedSpan {rest : Unit → Program β} {retained : RetainedSpanData}
    (hoff : frame.Off) (hfresh : frame.fresh = none)
    (h : ∀ excused checked, (frame.excused = true → excused = true) →
      (frame.checked = true → checked = true) →
      Keeps env post { frame with excused := excused, checked := checked } (rest ())) :
    Keeps env post frame (recycleRetainedSpan retained >>= rest) := by
  rw [recycleRetainedSpan, Prog.bind_bind]
  refine keeps_acquire hoff hfresh fun acquired excused checked _ hexcused hchecked => ?_
  have hrest := h excused checked hexcused hchecked
  rw [hoff.context] at hrest
  cases acquired with
  | true =>
      refine ⟨rfl, fun _ => ⟨⟨rfl, ?_⟩, fun _ => ?_⟩⟩
      · change frame.phase.calm = true
        rw [hoff.phase]
        rfl
      · rw [hoff.phase] at hrest
        exact hrest
  | false => exact hrest

/-! Tracks, and the pools that they are from. -/

theorem keeps_trackPool {key : TrackKey} {rest : Option (PoolOf key) → Program β}
    (h : ∀ (pool : Option (PoolOf key)) known, (∀ pool ∈ frame.known, pool ∈ known) →
      (∀ found, pool = some found → found.val ∈ known) →
      Keeps env post { frame with known := known } (rest pool)) :
    Keeps env post frame (trackPool key >>= rest) := by
  refine ⟨trivial, fun found => ?_⟩
  cases found with
  | some pool =>
      refine h (some pool) (pool.val :: frame.known) (fun _ hmem => List.mem_cons_of_mem _ hmem) ?_
      rintro found heq
      cases heq
      exact List.mem_cons_self
  | none =>
      refine ⟨trivial, fun pool => h pool _ (fun _ hmem => List.mem_append_right _ hmem) ?_⟩
      rintro found rfl
      exact List.mem_append_left _ (by simp)

theorem keeps_replaceTrackPool {key : TrackKey} {pool : PoolOf key} {localUuid : Option Nat}
    {rest : Unit → Program β} (hcontext : frame.context = true)
    (hpool : pool.val ∈ frame.known) (hmissing : frame.missing = some key)
    (hheld : ∀ uuid, localUuid = some uuid → frame.Holds uuid key)
    (h : ∀ known, (∀ pool ∈ frame.known, pool ∈ known) →
      Keeps env post
        { frame with
          known := known
          missing := none
          held := if localUuid.isSome then frame.held.tail else frame.held } (rest ())) :
    Keeps env post frame (replaceTrackPool key pool localUuid >>= rest) := by
  refine ⟨hcontext, fun old => ?_⟩
  cases old with
  | none => exact ⟨⟨hcontext, hpool, hmissing, hheld⟩, fun _ => h _ fun _ hmem => hmem⟩
  | some old =>
      refine ⟨⟨List.mem_cons_self, false, rfl, fun h => (by cases h)⟩,
        fun _ => ⟨⟨hcontext, ?_, hmissing, hheld⟩, fun _ =>
          h _ fun _ hmem => List.mem_cons_of_mem _ hmem⟩⟩
      exact List.mem_cons_of_mem _ hpool

/-- The uuid of a claim goes into the hands of the callback. -/
theorem keeps_claimTrack {key : TrackKey} {rest : Option (PoolOf key × Option Nat) → Program β}
    (hcontext : frame.context = true)
    (h : ∀ (claim : Option (PoolOf key × Option Nat)) known missing,
      (∀ pool uuid, claim = some (pool, uuid) → pool.val ∈ known) →
      Keeps env post
        { frame with
          known := known
          missing := missing
          held := claimed (claim.bind Prod.snd) key frame.held } (rest claim)) :
    Keeps env post frame (claimTrack key >>= rest) := by
  refine ⟨hcontext, fun cached => ?_⟩
  rcases cached with _ | ⟨pool, _ | uuid⟩
  · change Keeps env post _ ((trackPool key >>= _) >>= rest)
    rw [Prog.bind_bind]
    refine keeps_trackPool fun pool known hknown hpool => ?_
    cases pool with
    | none => exact h none known (some key) (by simp)
    | some pool =>
        have hmem := hpool pool rfl
        refine ⟨hmem, fun uuid => ?_⟩
        change Keeps env post _ ((replaceTrackPool key pool none >>= _) >>= rest)
        rw [Prog.bind_bind]
        refine keeps_replaceTrackPool hcontext hmem rfl (by simp) fun known' hknown' => ?_
        have hrest := h (some (pool, uuid)) known' none ?_
        · change Keeps env post { frame with
            known := known', missing := none, held := claimed uuid pool.val.key frame.held } _
          rw [pool.property]
          exact hrest
        · rintro other uuid' heq
          cases heq
          exact hknown' _ hmem
  · refine ⟨List.mem_cons_self, fun uuid => ?_⟩
    have hrest := h (some (pool, uuid)) (pool.val :: frame.known) frame.missing ?_
    · change Keeps env post { frame with
        known := pool.val :: frame.known, held := claimed uuid pool.val.key frame.held } _
      rw [pool.property]
      exact hrest
    · rintro other uuid' heq
      cases heq
      exact List.mem_cons_self
  · refine h (some (pool, some uuid)) (pool.val :: frame.known) frame.missing ?_
    rintro other uuid' heq
    cases heq
    exact List.mem_cons_self

theorem keeps_releaseTrack {pool : PoolRef} {uuid : Nat} {rest : Unit → Program β}
    (hcontext : frame.context = true) (hpool : pool ∈ frame.known)
    (hheld : frame.Holds uuid pool.key)
    (h : ∀ known missing, Keeps env post
      { frame with known := known, missing := missing, held := frame.held.tail } (rest ())) :
    Keeps env post frame (releaseTrack pool uuid >>= rest) := by
  refine ⟨⟨hcontext, hpool, hheld⟩, fun outcome => ?_⟩
  cases outcome with
  | kept => exact h _ _
  | full => exact ⟨⟨hpool, hheld⟩, fun _ => h _ _⟩
  | uncached =>
      refine keeps_replaceTrackPool hcontext hpool rfl ?_ fun known _ => h known none
      rintro other heq
      cases heq
      exact hheld

theorem keeps_releaseAll {uuids : List (PoolRef × Nat)} {held : List Held}
    {rest : Unit → Program β} (hknown : ∀ local_ ∈ uuids, local_.1 ∈ frame.known)
    (hheld : frame.held =
      uuids.map (fun local_ => ⟨local_.2, some local_.1.key, false⟩) ++ held)
    (h : Keeps env post { frame with held := held } (rest ())) :
    Keeps env post frame (releaseAll uuids >>= rest) := by
  induction uuids generalizing frame with
  | nil =>
      rw [List.map_nil, List.nil_append] at hheld
      rw [← hheld] at h
      exact h
  | cons first uuids ih =>
      refine ⟨⟨hknown first List.mem_cons_self, false, by rw [hheld]; rfl,
        fun h => (by cases h)⟩, fun _ => ?_⟩
      refine ih (fun local_ hmem => hknown local_ (List.mem_cons_of_mem _ hmem)) ?_ h
      change frame.held.tail = _
      rw [hheld]
      rfl

/-! Packets. The process descriptor needs the uuid of the process track. -/

theorem keeps_processDescriptor {rest : Unit → Program β} (hcontext : frame.context = true)
    (hphase : frame.phase = .opened)
    (h : ∀ processes, (∀ uuid ∈ frame.processes, uuid ∈ processes) →
      Keeps env post { frame with phase := .described, processes := processes } (rest ())) :
    Keeps env post frame (processDescriptor frame.calledAt >>= rest) := by
  refine ⟨hphase, fun claims => ?_⟩
  cases claims with
  | true =>
      refine ⟨trivial, fun uuid => ⟨⟨hcontext, rfl, rfl, rfl, rfl, rfl⟩, fun _ => ?_⟩⟩
      exact h (uuid :: frame.processes) fun _ hmem => List.mem_cons_of_mem _ hmem
  | false => exact h frame.processes fun _ hmem => hmem

theorem keeps_ensureInitialized {rest : Unit → Program β} (hwriting : frame.Writing)
    (h : ∀ processes, (∀ uuid ∈ frame.processes, uuid ∈ processes) →
      Keeps env post { frame with phase := .ready, processes := processes } (rest ())) :
    Keeps env post frame (ensureInitialized frame.calledAt >>= rest) := by
  have hcontext := hwriting.context
  refine ⟨⟨hcontext, hwriting.phase⟩, fun initialized => ?_⟩
  cases initialized with
  | true => exact h frame.processes fun _ hmem => hmem
  | false =>
      refine ⟨⟨hcontext, rfl⟩, fun _ => ⟨⟨hcontext, .inl rfl⟩, fun _ =>
        ⟨⟨hcontext, rfl, rfl, rfl, rfl, rfl⟩, fun _ => ?_⟩⟩⟩
      change Keeps env post { frame with phase := .opened }
        ((processDescriptor frame.calledAt >>= _) >>= rest)
      rw [Prog.bind_bind]
      refine keeps_processDescriptor hcontext rfl fun processes hprocesses => ?_
      exact ⟨⟨hcontext, rfl, rfl, rfl, rfl, rfl⟩, fun _ => h processes hprocesses⟩

/-- A packet: its body, and what is written then. -/
theorem keeps_packet {span : Option Nat} {body : Program Body} {rest : Unit → Program β}
    (hwriting : frame.Writing)
    (h : ∀ processes, (∀ uuid ∈ frame.processes, uuid ∈ processes) →
      Keeps env post { frame with phase := .ready, processes := processes }
        (body >>= fun body => write span frame.calledAt (.body body) >>= rest)) :
    Keeps env post frame (packet span frame.calledAt body >>= rest) := by
  rw [packet, Prog.bind_bind]
  refine keeps_ensureInitialized hwriting fun processes hprocesses => ?_
  refine ⟨⟨hwriting.context, .inr rfl⟩, fun _ => ?_⟩
  change Keeps env post { frame with phase := .ready, processes := processes }
    ((body >>= _) >>= rest)
  rw [Prog.bind_bind]
  exact h processes hprocesses

theorem Frame.Parent.mono {frame next : Frame} {uuid : Nat} (h : frame.Parent uuid)
    (henclosing : next.enclosing = frame.enclosing)
    (hprocesses : ∀ uuid ∈ frame.processes, uuid ∈ next.processes) : next.Parent uuid := by
  rcases h with hsome | ⟨hnone, hmem⟩
  · exact .inl (henclosing.trans hsome)
  · exact .inr ⟨henclosing.trans hnone, hprocesses uuid hmem⟩

theorem keeps_createSpanTrack {key : TrackKey} {rest : Nat → Program β}
    (hwriting : frame.Writing) (hparent : frame.Parent key.parentUuid)
    (h : ∀ uuid processes, (∀ uuid ∈ frame.processes, uuid ∈ processes) →
      Keeps env post
        { frame with
          phase := .ready
          processes := processes
          fresh := none
          held := ⟨uuid, some key, false⟩ :: frame.held } (rest uuid)) :
    Keeps env post frame (createSpanTrack frame.calledAt key >>= rest) := by
  refine ⟨trivial, fun uuid => ?_⟩
  change Keeps env post { frame with fresh := some uuid }
    ((packet none frame.calledAt _ >>= _) >>= rest)
  rw [Prog.bind_bind]
  refine keeps_packet ⟨⟨hwriting.context, hwriting.vacant⟩, hwriting.phase⟩
    fun processes hprocesses => ?_
  refine ⟨⟨hwriting.context, rfl, ⟨rfl, rfl, hparent.mono rfl hprocesses⟩, rfl, rfl, rfl⟩,
    fun _ => ?_⟩
  exact h uuid processes hprocesses

theorem keeps_createCounterTracks {names : List StaticStr} {rest : Unit → Program β}
    (hwriting : frame.Writing)
    (h : ∀ phase processes counter, phase = .fresh ∨ phase = .ready →
      Keeps env post
        { frame with phase := phase, processes := processes, counter := counter } (rest ())) :
    Keeps env post frame (createCounterTracks frame.calledAt names >>= rest) := by
  induction names generalizing frame with
  | nil => exact h _ _ _ hwriting.phase
  | cons name names ih =>
      refine ⟨hwriting.context, fun known => ?_⟩
      cases known with
      | some uuid => exact ih hwriting h
      | none =>
          refine ⟨trivial, fun uuid => ?_⟩
          change Keeps env post { frame with counter := some (name.ptr, uuid) }
            (((packet none frame.calledAt _ >>= _) >>= _) >>= rest)
          rw [Prog.bind_bind, Prog.bind_bind]
          refine keeps_packet ⟨⟨hwriting.context, hwriting.vacant⟩, hwriting.phase⟩
            fun processes _ => ⟨trivial, fun process => ?_⟩
          refine ⟨⟨hwriting.context, rfl, ⟨rfl, rfl, List.mem_cons_self⟩, rfl, rfl, rfl⟩,
            fun _ => ?_⟩
          refine ⟨⟨hwriting.context, rfl⟩, fun _ => ?_⟩
          exact ih ⟨⟨hwriting.context, hwriting.vacant⟩, .inr rfl⟩ h

/-! The guards of the store. -/

theorem Frame.Empty.dropped (h : frame.Empty) :
    { frame with
      guard := none, exclusive := false, asked := false, seen := false, sent := false } =
        frame := by
  obtain ⟨hguard, hexclusive, hasked, hseen, hsent⟩ := h
  cases frame
  simp only at hguard hexclusive hasked hseen hsent
  subst hguard hexclusive hasked hseen hsent
  rfl

/-- A search starts without a question. -/
theorem Frame.Empty.searched (h : frame.Empty) (guard : Option Found) (exclusive : Bool) :
    { frame with
      guard := guard, exclusive := exclusive, asked := false, seen := false, sent := false } =
    { frame with guard := guard, exclusive := exclusive } := by
  obtain ⟨-, -, hasked, hseen, hsent⟩ := h
  cases frame
  simp only at hasked hseen hsent
  subst hasked hseen hsent
  rfl

/-- With the track of the enclosing span, if it has one. -/
theorem keeps_enclosingTrack {span : Option SpanId} {rest : Option Nat → Program β}
    (hempty : frame.Empty) (henclosing : frame.enclosing = none)
    (hspan : ∀ spanId, span = some spanId → frame.MayLookUp env spanId ∧
      ∀ created metadata parent, frame.call = .newSpan created metadata parent →
        parent = some spanId)
    (h : ∀ enclosing, Keeps env post { frame with enclosing := enclosing } (rest enclosing)) :
    Keeps env post frame (enclosingTrack span >>= rest) := by
  cases span with
  | none =>
      have hframe : { frame with enclosing := none } = frame := by rw [← henclosing]
      have hrest := h none
      rw [hframe] at hrest
      exact hrest
  | some spanId =>
      refine ⟨hspan spanId rfl, fun found => ?_⟩
      have hframe : ∀ enclosing, { frame with enclosing := enclosing }.Empty := fun _ =>
        ⟨hempty.guard, hempty.exclusive, hempty.asked, hempty.seen, hempty.sent⟩
      cases found with
      | none =>
          have hrest := h none
          rw [← (hframe none).dropped] at hrest
          exact hrest
      | some found =>
          refine ⟨⟨rfl, rfl⟩, fun _ => ?_⟩
          have hrest := h found.data.trackUuid
          rw [← (hframe _).dropped] at hrest
          exact hrest

/-- A search for an entry, with its guard or without. -/
theorem keeps_getMut {spanId : SpanId} {rest : Option Found → Program β}
    (hempty : frame.Empty) (hlookup : frame.MayLookUp env spanId) (hvisits : frame.visits = none)
    (hnone : Keeps env post frame (rest none))
    (hsome : ∀ found, Keeps env post { frame with guard := some found, exclusive := true }
      (rest (some found))) :
    Keeps env post frame (act (.spans (.getMut spanId)) >>= rest) := by
  refine ⟨⟨hlookup, hvisits⟩, fun found => ?_⟩
  cases found with
  | none =>
      rw [← hempty.dropped] at hnone
      exact hnone
  | some found =>
      have hfound := hsome found
      rw [← hempty.searched] at hfound
      exact hfound

/-- With a guard, and without the context. -/
theorem keeps_ensureRetained {found : Found} {rest : Found × RetainedSpanData → Program β}
    (hguard : frame.guard = some found) (hexclusive : frame.exclusive = true)
    (hsent : frame.sent = false) (hvisits : frame.visits = none) (hoff : frame.Off)
    (hfresh : frame.fresh = none)
    (h : ∀ excused checked next retained, (frame.excused = true → excused = true) →
      (frame.checked = true → checked = true) →
      next.data.retained = some retained → Changes frame.sent frame.seen found next →
      Keeps env post { frame with guard := some next, excused := excused, checked := checked }
        (rest (next, retained))) :
    Keeps env post frame (ensureRetained found >>= rest) := by
  rcases hretained : found.data.retained with _ | retained
  · rw [ensureRetained]
    simp only [hretained]
    rw [Prog.bind_bind]
    refine keeps_takeRetainedSpan hoff hfresh fun excused checked hexcused hchecked => ?_
    have hchanges : Changes frame.sent frame.seen found
        (found.withData { found.data with retained := some .default }) := by
      refine ⟨rfl, rfl, rfl, rfl, rfl, .inl ⟨hsent, ?_⟩⟩
      simp only [SpanData.pendingFlows, hretained]
      rfl
    have hstores : Stores env frame.visits found.data
        { found.data with retained := some .default } := by
      constructor <;>
        simp [SpanData.fields, SpanData.pollFlowId, hretained, hvisits, StoreVisitor.record,
          RetainedSpanData.default]
    have hrest := h excused checked _ .default hexcused hchecked rfl hchanges
    refine ⟨⟨found, hguard, hexclusive, hchanges, hstores, .inl hvisits⟩, fun _ => ?_⟩
    rw [hsent, hvisits] at hrest
    exact hrest
  · rw [ensureRetained]
    simp only [hretained]
    have hchanges : Changes frame.sent frame.seen found found :=
      ⟨rfl, rfl, rfl, rfl, rfl, .inl ⟨hsent, rfl⟩⟩
    have hrest := h frame.excused frame.checked found retained (fun h => h) (fun h => h)
      hretained hchanges
    rw [← hguard] at hrest
    exact hrest

end Rules

/-! ## The callbacks -/

/-- Where a callback can end. -/
structure Frame.Ended (call : Call) (frame : Frame) : Prop extends frame.Off where
  call : frame.call = call
  guard : frame.guard = none
  settled : frame.Settled
  finished : frame.finished = false

theorem keeps_finish {env : Env} {call : Call} {frame : Frame} (h : frame.Ended call) :
    Keeps env (fun _ => Final) frame (act (.registry (.finish call))) :=
  ⟨⟨h.call.symm, h.guard, h.context, h.vacant, h.phase, h.settled, h.finished⟩,
    fun _ => ⟨h.guard, h.context, h.vacant, h.phase, rfl⟩⟩

section Callbacks

variable {env : Env} {post : Unit → Frame → Prop} {rest : Unit → Program Unit}
  {instance_ calledAt : Nat} {spanId : SpanId}

theorem settled_of_open {frame : Frame} (h : ∀ spanId, frame.call ≠ .close spanId) :
    frame.Settled := by
  rw [Frame.Settled]
  split
  · rename_i spanId hcall
    exact absurd hcall (h spanId)
  · exact trivial

theorem settled_of_close {frame : Frame} (hcall : frame.call = .close spanId)
    (htook : frame.took = true)
    (h : ∀ found, frame.taken = some found → frame.sent = true ∨ frame.excused = true ∨
      found.data.trackUuid = none) : frame.Settled := by
  rw [Frame.Settled, hcall]
  exact ⟨htook, h⟩

/-- An excuse that comes later. -/
theorem Frame.Settled.excuse {frame frame' : Frame} (h : frame.Settled)
    (hcall : frame'.call = frame.call) (htook : frame'.took = frame.took)
    (htaken : frame'.taken = frame.taken) (hsent : frame'.sent = frame.sent)
    (hexcused : frame.excused = true → frame'.excused = true) : frame'.Settled := by
  rw [Frame.Settled, hcall]
  rw [Frame.Settled] at h
  cases hkind : frame.call with
  | close spanId =>
      rw [hkind] at h
      refine ⟨htook.trans h.1, fun found hfound => ?_⟩
      rcases h.2 found (htaken.symm.trans hfound) with hbefore | hbefore | htrack
      · exact .inl (hsent.trans hbefore)
      · exact .inr (.inl (hexcused hbefore))
      · exact .inr (.inr htrack)
  | _ => exact trivial

theorem keeps_storeFields {frame : Frame} {span : Nat} {retained : RetainedSpanData}
    {rest : RetainedSpanData × Bool → Program Unit} (hvacant : frame.vacant = false)
    (hphase : frame.phase.calm = true) (hfinished : frame.finished = false)
    (hguard : frame.guard = none ∨ frame.exclusive = true ∧
      ∃ spanId, frame.call = .record spanId)
    (hvisits : frame.visits = none) (hvisiting : frame.Visiting span)
    (h : ∀ visits panicked, Keeps env post { frame with visits := some visits }
      (rest ({ retained with
        fields := (StoreVisitor.record env.memory retained.fields visits).1 }, panicked))) :
    Keeps env post frame (storeFields env span retained >>= rest) := by
  refine ⟨⟨hvacant, hphase, hfinished, hguard, ?_⟩, fun visits => h visits _⟩
  rintro instance_ heq
  cases heq
  exact ⟨hvisits, hvisiting⟩

theorem keeps_onRecord
    (h : ∀ frame : Frame, frame.Ended (.record spanId) → Keeps env post frame (rest ())) :
    Keeps env post (Frame.start (.record spanId) instance_ calledAt)
      (onRecord env spanId >>= rest) := by
  rw [onRecord]
  rcases hdebug : env.config.debugAnnotations
  · exact h _ ⟨⟨rfl, rfl, rfl⟩, rfl, rfl, trivial, rfl⟩
  · refine ⟨trivial, fun failed => ?_⟩
    cases failed with
    | true => exact h _ ⟨⟨rfl, rfl, rfl⟩, rfl, rfl, trivial, rfl⟩
    | false =>
        have hlookup : spanId ∈ Call.lookups env (.record spanId) := by
          simp [Call.lookups, hdebug]
        apply keeps_getMut ⟨rfl, rfl, rfl, rfl, rfl⟩
          ⟨rfl, hlookup, Or.inl rfl, rfl, rfl, Or.inl rfl⟩
          rfl
        · exact h _ ⟨⟨rfl, rfl, rfl⟩, rfl, rfl, trivial, rfl⟩
        · intro found
          change Keeps env post _ ((ensureRetained found >>= _) >>= rest)
          rw [Prog.bind_bind]
          refine keeps_ensureRetained rfl rfl rfl rfl ⟨rfl, rfl, rfl⟩ rfl
            fun excused checked next retained _ _ hretained hchanges => ?_
          change Keeps env post _ ((storeFields env next.entry.instance_ retained >>= _) >>= rest)
          rw [Prog.bind_bind]
          refine keeps_storeFields rfl rfl rfl (.inr ⟨rfl, spanId, rfl⟩) rfl
            (.inl ⟨next, rfl, rfl⟩) fun visits panicked => ?_
          have hchanged : Changes false false next (next.withData { next.data with
              retained := some { retained with
                fields := (StoreVisitor.record env.memory retained.fields visits).1 } }) := by
            refine ⟨rfl, rfl, rfl, rfl, rfl, .inl ⟨rfl, ?_⟩⟩
            simp only [SpanData.pendingFlows, hretained]
            rfl
          have hstores : Stores env (some visits) next.data { next.data with
              retained := some { retained with
                fields := (StoreVisitor.record env.memory retained.fields visits).1 } } := by
            constructor <;> simp [SpanData.fields, SpanData.pollFlowId, hretained]
          refine ⟨⟨next, rfl, rfl, hchanged, hstores, .inr ⟨spanId, rfl⟩⟩,
            fun _ => ⟨⟨rfl, rfl, ?_, rfl⟩, fun _ => ?_⟩⟩
          · exact fun hsent => absurd hsent Bool.false_ne_true
          · exact h _ ⟨⟨rfl, rfl, rfl⟩, rfl, rfl, trivial, rfl⟩

theorem keeps_newRetained {frame : Frame} {metadata : Metadata} {parent : Option SpanId}
    {rest : Option (Option RetainedSpanData) → Program Unit}
    (hcall : frame.call = .newSpan spanId metadata parent)
    (hguard : frame.guard = none) (hoff : frame.Off) (hfresh : frame.fresh = none)
    (hinserted : frame.inserted = false) (hvisits : frame.visits = none)
    (hfinished : frame.finished = false)
    (h : ∀ excused checked drawn visits retained, (frame.excused = true → excused = true) →
      (frame.checked = true → checked = true) →
      (∀ data, retained = some data → (SpanData.new data).pendingFlows = [] ∧
        Frame.Begins env { frame with drawn := drawn, visits := visits } (SpanData.new data)) →
      Keeps env post
        { frame with
          excused := excused, checked := checked, drawn := drawn, visits := visits }
        (rest retained)) :
    Keeps env post frame (newRetained env frame.instance_ >>= rest) := by
  rw [newRetained]
  split
  · rename_i hbox
    rw [Prog.bind_bind]
    apply keeps_takeRetainedSpan hoff hfresh
    intro excused checked hexcused hchecked
    have hrest : ∀ stored panicked visits, stored.pendingFlows = [] →
        stored.fields = (StoreVisitor.record env.memory [] (Option.getD visits [])).1 →
        stored.pollFlowId = none →
        Keeps env post
          { frame with excused := excused, checked := checked, visits := visits }
          ((if panicked = true then pure none
            else if env.config.spanMode.emitThreadSlices = true then do
              let flow ← act (.shared .allocFlowId)
              pure (some (some { stored with pollFlowId := some flow }))
            else pure (some (some stored)) : Program _) >>= rest) := by
      intro stored panicked visits hflows hfields hpoll
      split
      · exact h excused checked frame.drawn visits none hexcused hchecked (by simp)
      · split
        · rename_i hslices
          refine ⟨trivial, fun flow =>
            h excused checked (some flow) visits _ hexcused hchecked ?_⟩
          rintro data heq
          cases heq
          exact ⟨hflows, hfields, (if_pos hslices).symm, fun _ => rfl⟩
        · rename_i hslices
          refine h excused checked frame.drawn visits _ hexcused hchecked ?_
          rintro data heq
          cases heq
          exact ⟨hflows, hfields, hpoll.trans (if_neg hslices).symm,
            fun hmode => absurd hmode hslices⟩
    by_cases hretain : (env.config.debugAnnotations && env.config.spanMode == .threadTracks) = true
    · simp only [hretain, if_true]
      rw [Prog.bind_bind]
      refine keeps_storeFields hoff.vacant ?_ hfinished (.inl hguard) hvisits ?_
        fun visits panicked => hrest _ panicked (some visits) rfl rfl rfl
      · change frame.phase.calm = true
        rw [hoff.phase]
        rfl
      · exact .inr ⟨hguard, rfl, hinserted, spanId, metadata, parent, hcall⟩
    · simp only [hretain]
      have hnone := hrest .default false none rfl rfl rfl
      rw [← hvisits] at hnone
      exact hnone
  · rename_i hbox
    have hslices : ¬ env.config.spanMode.emitThreadSlices = true := by
      intro hslices
      exact hbox (by simp [hslices])
    refine h frame.excused frame.checked frame.drawn frame.visits (some none) (fun h => h)
      (fun h => h) ?_
    rintro data heq
    cases heq
    refine ⟨rfl, ?_, (if_neg hslices).symm, fun hmode => absurd hmode hslices⟩
    simp only [hvisits]
    rfl

theorem keeps_visitAttributes {frame : Frame} {rest : Visits → Program Unit}
    (hvacant : frame.vacant = false) (hphase : frame.phase.calm = true)
    (hfinished : frame.finished = false) (hguard : frame.guard = none)
    (h : ∀ visits, Keeps env post frame (rest visits)) :
    Keeps env post frame (visitAttributes env >>= rest) := by
  rw [visitAttributes]
  split
  · exact ⟨⟨hvacant, hphase, hfinished, .inl hguard, by simp⟩, fun visits => h visits⟩
  · exact h []

/-- The first slice of a span, and its entry with the track that the callback holds. -/
theorem keeps_publish {frame : Frame} {metadata metadata' : Metadata} {parent : Option SpanId}
    {key : TrackKey} {uuid : Nat} {data : SpanData}
    (hcall : frame.call = .newSpan spanId metadata' parent) (hwriting : frame.Writing)
    (hguard : frame.guard = none) (htook : frame.took = false) (hchecked : frame.checked = true)
    (hinserted : frame.inserted = false) (hfinished : frame.finished = false)
    (hheld : frame.held.head? = some ⟨uuid, some key, false⟩)
    (hparent : frame.Parent key.parentUuid)
    (hpool : ∀ pool, data.trackPool = some pool → pool ∈ frame.known ∧ pool.key = key)
    (htrack : data.trackUuid = some uuid) (hflows : data.pendingFlows = [])
    (hbegins : frame.Begins env data)
    (h : ∀ frame' : Frame, frame'.Ended frame.call → Keeps env post frame' (rest ())) :
    Keeps env post frame ((do
      ensureInitialized frame.calledAt
      act (.sequence .timestamp)
      let visits ← visitAttributes env
      write (some frame.instance_) frame.calledAt (.body (.lifetimeBegin uuid metadata visits))
      if visits.panic then dropGuard
      else do
        act (.spans (.insert spanId frame.instance_ data))
        dropGuard) >>= rest) := by
  have hcontext := hwriting.context
  have hvacant := hwriting.vacant
  rw [Prog.bind_bind]
  refine keeps_ensureInitialized hwriting fun processes hprocesses =>
    ⟨⟨hcontext, .inr rfl⟩, fun _ => ?_⟩
  change Keeps env post { frame with phase := .ready, processes := processes }
    ((visitAttributes env >>= _) >>= rest)
  rw [Prog.bind_bind]
  refine keeps_visitAttributes hvacant rfl hfinished hguard fun visits => ?_
  refine ⟨⟨hcontext, rfl, ⟨rfl, ⟨key, hheld, hparent.mono rfl hprocesses⟩, hguard,
      spanId, metadata', parent, hcall⟩,
    .begin spanId metadata' metadata parent uuid visits hcall hguard rfl rfl⟩, fun _ => ?_⟩
  have hended : ∀ frame' : Frame, frame'.context = false → frame'.phase = .closed →
      frame'.vacant = frame.vacant → frame'.call = frame.call → frame'.guard = frame.guard →
      frame'.finished = frame.finished → Keeps env post frame' (rest ()) := by
    intro frame' hcontext' hphase' hvacant' hcall' hguard' hfinished'
    refine h frame' ⟨⟨hcontext', hvacant'.trans hvacant, hphase'⟩, hcall', hguard'.trans hguard,
      settled_of_open ?_, hfinished'.trans hfinished⟩
    simp [hcall', hcall]
  cases hpanic : visits.panic with
  | true =>
      simp only [if_true]
      exact ⟨⟨hcontext, rfl⟩, fun _ => hended _ rfl rfl rfl rfl rfl rfl⟩
  | false =>
      simp only [Bool.false_eq_true, if_false]
      have hmem : spanId ∈ frame.call.lookups env := by
        rw [hcall]
        simp [Call.lookups]
      refine ⟨⟨⟨hguard, hmem, .inr hcontext, htook, hfinished, .inl hchecked⟩,
        ⟨metadata', parent, hcall⟩, rfl,
        hinserted, hfinished, hflows, .inl (by simp [htrack]), ?_⟩, fun _ =>
        ⟨⟨hcontext, rfl⟩, fun _ => hended _ rfl rfl rfl rfl rfl rfl⟩⟩
      refine ⟨?_, hbegins.fields, hbegins.pollFlowId, hbegins.drawn⟩
      simp only [Frame.Publishes, htrack]
      refine ⟨key, ?_, hparent.mono rfl hprocesses, hpool⟩
      change (frame.held.modifyHead _).head? = _
      rw [List.head?_modifyHead, hheld]
      rfl

theorem keeps_beginLifetime {frame : Frame} {metadata metadata' : Metadata}
    {parent : Option SpanId} {key : TrackKey} {data : SpanData}
    (hcall : frame.call = .newSpan spanId metadata' parent) (hon : frame.On)
    (hphase : frame.phase = .closed) (hguard : frame.guard = none)
    (htook : frame.took = false) (hchecked : frame.checked = true)
    (hinserted : frame.inserted = false) (hfinished : frame.finished = false)
    (hparent : frame.Parent key.parentUuid) (hflows : data.pendingFlows = [])
    (hbegins : frame.Begins env data)
    (h : ∀ frame' : Frame, frame'.Ended frame.call → Keeps env post frame' (rest ())) :
    Keeps env post frame
      (beginLifetime env frame.calledAt spanId frame.instance_ metadata key data >>= rest) := by
  rw [beginLifetime, Prog.bind_bind]
  refine keeps_claimTrack hon.context fun claim known missing hknown => ?_
  have hcalm : frame.phase.calm = true := by
    rw [hphase]
    rfl
  refine ⟨⟨hon.context, hcalm⟩, fun _ => ?_⟩
  have hpool : ∀ pool, (claim.map fun claim => claim.1.val) = some pool →
      pool ∈ known ∧ pool.key = key := by
    intro pool hpool
    obtain ⟨⟨found, uuid⟩, hclaim, rfl⟩ := Option.map_eq_some_iff.1 hpool
    exact ⟨hknown found uuid hclaim, found.property⟩
  cases hclaimed : claim.bind Prod.snd with
  | some uuid =>
      exact keeps_publish hcall ⟨⟨hon.context, hon.vacant⟩, .inl rfl⟩ hguard htook hchecked
        hinserted hfinished rfl hparent hpool rfl hflows
        ⟨hbegins.fields, hbegins.pollFlowId, hbegins.drawn⟩ h
  | none =>
      change Keeps env post _ ((createSpanTrack frame.calledAt key >>= _) >>= rest)
      rw [Prog.bind_bind]
      refine keeps_createSpanTrack ⟨⟨hon.context, hon.vacant⟩, .inl rfl⟩ hparent
        fun uuid processes hprocesses => ?_
      exact keeps_publish hcall ⟨⟨hon.context, hon.vacant⟩, .inr rfl⟩ hguard htook hchecked
        hinserted hfinished rfl (hparent.mono rfl hprocesses) hpool rfl hflows
        ⟨hbegins.fields, hbegins.pollFlowId, hbegins.drawn⟩ h

theorem keeps_onNewSpan {metadata : Metadata} {parent : Option SpanId}
    (h : ∀ frame : Frame, frame.Ended (.newSpan spanId metadata parent) →
      Keeps env post frame (rest ())) :
    Keeps env post (Frame.start (.newSpan spanId metadata parent) instance_ calledAt)
      (onNewSpan env calledAt spanId instance_ parent >>= rest) := by
  have hspan : spanId ∈ Call.lookups env (.newSpan spanId metadata parent) := by
    simp [Call.lookups]
  refine ⟨trivial, fun failed => ?_⟩
  cases failed with
  | true => exact h _ ⟨⟨rfl, rfl, rfl⟩, rfl, rfl, trivial, rfl⟩
  | false =>
      refine ⟨trivial, fun found => ?_⟩
      cases found with
      | none => exact h _ ⟨⟨rfl, rfl, rfl⟩, rfl, rfl, trivial, rfl⟩
      | some metadata' =>
          change Keeps env post _ ((newRetained env instance_ >>= _) >>= rest)
          rw [Prog.bind_bind]
          refine keeps_newRetained rfl rfl ⟨rfl, rfl, rfl⟩ rfl rfl rfl rfl
            fun excused checked drawn visits retained _ hchecked hretained => ?_
          obtain rfl := hchecked rfl
          cases retained with
          | none => exact h _ ⟨⟨rfl, rfl, rfl⟩, rfl, rfl, trivial, rfl⟩
          | some retained =>
              obtain ⟨hflows, hbegins⟩ := hretained retained rfl
              cases hslices : env.config.spanMode.emitSpanSlices with
              | false =>
                  have hmode : env.config.spanMode = .threadTracks := by
                    cases hmode : env.config.spanMode <;> simp_all [SpanMode.emitSpanSlices]
                  simp only [Bool.not_false, if_true]
                  exact ⟨⟨⟨rfl, hspan, .inl rfl, rfl, rfl, .inl rfl⟩,
                    ⟨metadata, parent, rfl⟩, rfl, rfl,
                    rfl, hflows, .inr (.inl hmode), rfl, hbegins.fields, hbegins.pollFlowId,
                    hbegins.drawn⟩,
                    fun _ => h _ ⟨⟨rfl, rfl, rfl⟩, rfl, rfl, trivial, rfl⟩⟩
              | true =>
                  simp only [Bool.not_true, Bool.false_eq_true, if_false]
                  change Keeps env post _ ((enclosingTrack parent >>= _) >>= rest)
                  rw [Prog.bind_bind]
                  refine keeps_enclosingTrack ⟨rfl, rfl, rfl, rfl, rfl⟩ rfl ?_ fun enclosing => ?_
                  · intro enclosing henclosing
                    have hmem : enclosing ∈ Call.lookups env (.newSpan spanId metadata parent) := by
                      simp [Call.lookups, hslices, henclosing]
                    refine ⟨⟨rfl, hmem, .inl rfl, rfl, rfl, .inl rfl⟩, ?_⟩
                    rintro _ _ _ ⟨⟩
                    exact henclosing
                  · have hparent : ∀ parentUuid processes, (enclosing = some parentUuid ∨
                        enclosing = none ∧ parentUuid ∈ processes) → Keeps env post
                        { Frame.start (.newSpan spanId metadata parent) instance_ calledAt with
                          excused := excused
                          checked := true
                          drawn := drawn
                          visits := visits
                          enclosing := enclosing
                          processes := processes } ((do
                        let acquired ← acquire
                        if acquired then
                          beginLifetime env calledAt spanId instance_ metadata'
                            ⟨metadata'.name, parentUuid⟩ (SpanData.new retained)
                        else act (.spans (.insert spanId instance_ (SpanData.new retained))))
                          >>= rest) := by
                      intro parentUuid processes hparent
                      rw [Prog.bind_bind]
                      refine keeps_acquire ⟨rfl, rfl, rfl⟩ rfl
                        fun acquired excused checked hexcused _ hchecked => ?_
                      obtain rfl := hchecked rfl
                      cases acquired with
                      | true =>
                          exact keeps_beginLifetime rfl ⟨rfl, rfl⟩ rfl rfl rfl rfl rfl rfl hparent
                            hflows ⟨hbegins.fields, hbegins.pollFlowId, hbegins.drawn⟩ h
                      | false =>
                          exact ⟨⟨⟨rfl, hspan, .inl rfl, rfl, rfl, .inl rfl⟩,
                            ⟨metadata, parent, rfl⟩,
                            rfl, rfl, rfl, hflows, .inr (.inr (hexcused rfl)), rfl, hbegins.fields,
                            hbegins.pollFlowId, hbegins.drawn⟩,
                            fun _ => h _ ⟨⟨rfl, rfl, rfl⟩, rfl, rfl, trivial, rfl⟩⟩
                    cases enclosing with
                    | some uuid => exact hparent uuid [] (.inl rfl)
                    | none =>
                        exact ⟨trivial, fun uuid => hparent uuid [uuid]
                          (.inr ⟨rfl, List.mem_cons_self⟩)⟩

/-- The look-ups of `on_follows_from`, which never has the context meanwhile. -/
theorem keeps_queueFlow {frame : Frame} {flow : PendingFlow} {rest : Bool → Program Unit}
    (hempty : frame.Empty) (hlookup : frame.MayLookUp env spanId) (hoff : frame.Off)
    (hfresh : frame.fresh = none) (hnoted : frame.noted = true)
    (hdrawn : frame.drawn = some (flowId flow)) (hvisits : frame.visits = none)
    (hstarted : ∀ flowId, flow = .terminate flowId → frame.started = some flowId)
    (hcall : ∃ spanId follows, frame.call = .followsFrom spanId follows)
    (h : ∀ excused checked queued, (frame.excused = true → excused = true) →
      (frame.checked = true → checked = true) →
      Keeps env post
        { frame with
          excused := excused
          checked := checked
          started := match flow, queued with
            | .start flowId, true => some flowId
            | _, _ => frame.started } (rest queued)) :
    Keeps env post frame (queueFlow spanId flow >>= rest) := by
  rw [queueFlow, Prog.bind_bind]
  refine keeps_getMut hempty hlookup hvisits ?_ fun found => ?_
  · have hrest := h frame.excused frame.checked false (fun h => h) fun h => h
    cases flow <;> exact hrest
  · change Keeps env post _ ((ensureRetained found >>= _) >>= rest)
    rw [Prog.bind_bind]
    refine keeps_ensureRetained rfl rfl hempty.sent hvisits
      ⟨hoff.context, hoff.vacant, hoff.phase⟩ hfresh
        fun excused checked next retained hexcused hchecked hretained _ => ?_
    have hsome : next.data.retained ≠ none := by simp [hretained]
    refine ⟨⟨rfl, rfl, hnoted, hempty.sent, hempty.asked, hdrawn, hsome, hstarted, hcall⟩,
      fun _ =>
      ⟨⟨rfl, rfl, ?_, hvisits⟩, fun _ => ?_⟩⟩
    · intro hsent
      change frame.sent = true at hsent
      simp [hempty.sent] at hsent
    · have hdropped : ∀ started, { frame with
          excused := excused, checked := checked, started := started }.Empty :=
        fun _ => ⟨hempty.guard, hempty.exclusive, hempty.asked, hempty.seen, hempty.sent⟩
      have hrest := h excused checked true hexcused hchecked
      rw [← (hdropped _).dropped] at hrest
      cases flow <;> exact hrest

theorem keeps_onFollowsFrom {follows : SpanId}
    (h : ∀ frame : Frame, frame.Ended (.followsFrom spanId follows) →
      Keeps env post frame (rest ())) :
    Keeps env post (Frame.start (.followsFrom spanId follows) instance_ calledAt)
      (onFollowsFrom spanId follows >>= rest) := by
  have hfirst : follows ∈ Call.lookups env (.followsFrom spanId follows) := by
    simp [Call.lookups]
  have hsecond : spanId ∈ Call.lookups env (.followsFrom spanId follows) := by
    simp [Call.lookups]
  refine ⟨trivial, fun failed => ?_⟩
  cases failed with
  | true => exact h _ ⟨⟨rfl, rfl, rfl⟩, rfl, rfl, trivial, rfl⟩
  | false =>
      refine ⟨trivial, fun span => ?_⟩
      cases span with
      | none => exact h _ ⟨⟨rfl, rfl, rfl⟩, rfl, rfl, trivial, rfl⟩
      | some metadata =>
          refine ⟨trivial, fun other => ?_⟩
          cases other with
          | none => exact h _ ⟨⟨rfl, rfl, rfl⟩, rfl, rfl, trivial, rfl⟩
          | some metadata' =>
              refine ⟨trivial, fun _ => ⟨trivial, fun flow => ?_⟩⟩
              change Keeps env post _ ((queueFlow follows _ >>= _) >>= rest)
              rw [Prog.bind_bind]
              refine keeps_queueFlow ⟨rfl, rfl, rfl, rfl, rfl⟩
                ⟨rfl, hfirst, .inl rfl, rfl, rfl, .inl rfl⟩
                ⟨rfl, rfl, rfl⟩ rfl rfl rfl rfl (by simp) ⟨_, _, rfl⟩
                fun excused checked queued _ hchecked => ?_
              obtain rfl := hchecked rfl
              cases queued with
              | false => exact h _ ⟨⟨rfl, rfl, rfl⟩, rfl, rfl, trivial, rfl⟩
              | true =>
                  change Keeps env post _ ((queueFlow spanId _ >>= _) >>= rest)
                  rw [Prog.bind_bind]
                  refine keeps_queueFlow ⟨rfl, rfl, rfl, rfl, rfl⟩
                    ⟨rfl, hsecond, .inl rfl, rfl, rfl, .inl rfl⟩
                    ⟨rfl, rfl, rfl⟩ rfl rfl rfl rfl ?_ ⟨_, _, rfl⟩
                    fun excused checked queued _ _ => ?_
                  · rintro flowId heq
                    cases heq
                    rfl
                  · exact h _ ⟨⟨rfl, rfl, rfl⟩, rfl, rfl, trivial, rfl⟩

/-- A slice through a guard, with the flows that the callback has seen. -/
theorem keeps_boundary {frame : Frame} {found : Found} {body : List PendingFlow → Body}
    (hguard : frame.guard = some found) (hexclusive : frame.exclusive = true)
    (hon : frame.On) (hphase : frame.phase = .closed) (hsent : frame.sent = false)
    (hopen : ∀ spanId, frame.call ≠ .close spanId) (hfinished : frame.finished = false)
    (hnames : ∀ frame' : Frame, frame'.guard = some found → ∀ flows, frame'.Names (body flows))
    (hwrote : ∀ (frame' : Frame) flows, frame'.wrote (.body (body flows)) = frame')
    (hbody : ∀ flows, (Content.body (body flows)).flows = flows)
    (hasked : ∀ flows, (Content.body (body flows)).boundary = true → frame.asked = true)
    (hlast : ∀ flows, (Content.body (body flows)).last = false)
    (hshows : ∀ flows, (Content.body (body flows)).Shows found.data)
    (hvisits : frame.visits = none)
    (h : ∀ frame' : Frame, frame'.Ended frame.call → Keeps env post frame' (rest ())) :
    Keeps env post frame (boundary frame.calledAt found frame.seen body >>= rest) := by
  have hcontext := hon.context
  have hcalm : frame.phase.calm = true := by
    rw [hphase]
    rfl
  refine ⟨⟨hcontext, hcalm⟩, fun _ => ?_⟩
  change Keeps env post { frame with phase := .fresh }
    ((packet (some found.entry.instance_) frame.calledAt _ >>= _) >>= rest)
  rw [Prog.bind_bind]
  refine keeps_packet ⟨⟨hcontext, hon.vacant⟩, .inl rfl⟩ fun processes _ =>
    ⟨⟨hcontext, rfl, ⟨rfl, ?_⟩, ?_⟩, fun _ => ?_⟩
  · apply hnames
    exact hguard
  · exact .slice found hguard hexclusive rfl hsent (hasked _) (hlast _) hvisits (hshows _)
      (hbody _)
  · have hended : ∀ frame' : Frame, frame'.context = false → frame'.phase = .closed →
        frame'.guard = none → frame'.vacant = frame.vacant → frame'.call = frame.call →
        frame'.finished = frame.finished → Keeps env post frame' (rest ()) := by
      intro frame' hcontext' hphase' hguard' hvacant' hcall' hfinished'
      refine h frame' ⟨⟨hcontext', hvacant'.trans hon.vacant, hphase'⟩, hcall', hguard',
        settled_of_open ?_, hfinished'.trans hfinished⟩
      rwa [hcall']
    have hsending : Keeps env post
        { frame with phase := .ready, processes := processes, sent := true } ((do
          if frame.seen then do
            let found := found.withData found.data.clearPendingFlows
            act (.spans (.put found))
            act (.spans (.dropMut found))
            dropGuard
          else do
            act (.spans (.dropMut found))
            dropGuard) >>= rest) := by
      cases hseen : frame.seen with
      | false =>
          refine ⟨⟨hguard, hexclusive, fun _ => rfl, hvisits⟩,
            fun _ => ⟨⟨hcontext, rfl⟩, fun _ => ?_⟩⟩
          exact hended _ rfl rfl rfl rfl rfl rfl
      | true =>
          have hcleared : Changes true true found
              (found.withData found.data.clearPendingFlows) := by
            refine ⟨rfl, rfl, rfl, rfl, rfl, .inr ⟨rfl, rfl, ?_⟩⟩
            simp only [SpanData.pendingFlows, Found.withData, Found.data,
              SpanData.clearPendingFlows]
            cases found.entry.data.retained <;> rfl
          have hstores : Stores env frame.visits found.data found.data.clearPendingFlows := by
            rw [hvisits]
            constructor <;>
              cases hretained : found.data.retained <;>
                simp [SpanData.fields, SpanData.pollFlowId, SpanData.clearPendingFlows, hretained,
                  StoreVisitor.record]
          refine ⟨⟨found, hguard, hexclusive, hcleared, hstores, .inl hvisits⟩, fun _ =>
            ⟨⟨rfl, hexclusive, ?_, rfl⟩, fun _ =>
            ⟨⟨hcontext, rfl⟩, fun _ => ?_⟩⟩⟩
          · exact fun hsent => absurd hsent Bool.false_ne_true
          · exact hended _ rfl rfl rfl rfl rfl rfl
    change Keeps env post { Frame.wrote _ (.body (body _)) with sent := true } _
    rw [hwrote]
    exact hsending

theorem keeps_onEnter
    (h : ∀ frame : Frame, frame.Ended (.enter spanId) → Keeps env post frame (rest ())) :
    Keeps env post (Frame.start (.enter spanId) instance_ calledAt)
      (onEnter env calledAt spanId >>= rest) := by
  rw [onEnter]
  by_cases hslices : (!env.config.spanMode.emitThreadSlices && !env.config.pollSlices) = true
  · simp only [hslices, if_true]
    exact h _ ⟨⟨rfl, rfl, rfl⟩, rfl, rfl, trivial, rfl⟩
  · simp only [hslices]
    refine ⟨trivial, fun failed => ?_⟩
    cases failed with
    | true => exact h _ ⟨⟨rfl, rfl, rfl⟩, rfl, rfl, trivial, rfl⟩
    | false =>
        refine ⟨trivial, fun known => ?_⟩
        cases known with
        | none => exact h _ ⟨⟨rfl, rfl, rfl⟩, rfl, rfl, trivial, rfl⟩
        | some metadata =>
            change Keeps env post _ ((acquire >>= _) >>= rest)
            rw [Prog.bind_bind]
            refine keeps_acquire ⟨rfl, rfl, rfl⟩ rfl
              fun acquired excused checked _ _ hchecked => ?_
            obtain rfl := hchecked rfl
            cases acquired with
            | false => exact h _ ⟨⟨rfl, rfl, rfl⟩, rfl, rfl, trivial, rfl⟩
            | true =>
                have hmem : spanId ∈ Call.lookups env (.enter spanId) := by
                  simp only [Call.lookups]
                  rw [if_pos]
                  · simp
                  · simpa [Bool.or_eq_true, imp_iff_not_or] using hslices
                apply keeps_getMut ⟨rfl, rfl, rfl, rfl, rfl⟩
                  ⟨rfl, hmem, .inr rfl, rfl, rfl, .inl rfl⟩ rfl
                · exact ⟨⟨rfl, rfl⟩, fun _ => h _ ⟨⟨rfl, rfl, rfl⟩, rfl, rfl, trivial, rfl⟩⟩
                · intro found
                  by_cases hthread : env.config.spanMode.emitThreadSlices = true
                  · simp only [hthread]
                    refine ⟨⟨by simp, rfl, rfl⟩, fun flows => ?_⟩
                    exact keeps_boundary rfl rfl ⟨rfl, rfl⟩ rfl rfl (fun _ heq => by cases heq) rfl
                      (fun _ _ _ => trivial)
                      (fun _ _ => rfl) (fun _ => rfl) (fun _ _ => rfl) (fun _ => rfl)
                      (fun _ => ⟨rfl, rfl⟩)
                      rfl h
                  · simp only [hthread, Prog.bind]
                    cases htrack : found.data.trackUuid with
                    | none =>
                        exact ⟨⟨rfl, rfl, fun _ => rfl, rfl⟩, fun _ => ⟨⟨rfl, rfl⟩, fun _ =>
                          h _ ⟨⟨rfl, rfl, rfl⟩, rfl, rfl, trivial, rfl⟩⟩⟩
                    | some uuid =>
                        refine ⟨⟨by simp, rfl, rfl⟩, fun flows => ?_⟩
                        exact keeps_boundary rfl rfl ⟨rfl, rfl⟩ rfl rfl
                          (fun _ heq => by cases heq) rfl
                          (fun _ hguard _ => ⟨found, hguard, htrack⟩) (fun _ _ => rfl)
                          (fun _ => rfl) (fun _ _ => rfl) (fun _ => rfl) (fun _ => rfl) rfl h

theorem keeps_onExit
    (h : ∀ frame : Frame, frame.Ended (.exit spanId) → Keeps env post frame (rest ())) :
    Keeps env post (Frame.start (.exit spanId) instance_ calledAt)
      (onExit env calledAt spanId >>= rest) := by
  rw [onExit]
  by_cases hslices : (!env.config.spanMode.emitThreadSlices && !env.config.pollSlices) = true
  · simp only [hslices, if_true]
    exact h _ ⟨⟨rfl, rfl, rfl⟩, rfl, rfl, trivial, rfl⟩
  · simp only [hslices]
    refine ⟨trivial, fun failed => ?_⟩
    cases failed with
    | true => exact h _ ⟨⟨rfl, rfl, rfl⟩, rfl, rfl, trivial, rfl⟩
    | false =>
        change Keeps env post _ ((acquire >>= _) >>= rest)
        rw [Prog.bind_bind]
        refine keeps_acquire ⟨rfl, rfl, rfl⟩ rfl
          fun acquired excused checked _ _ hchecked => ?_
        obtain rfl := hchecked rfl
        cases acquired with
        | false => exact h _ ⟨⟨rfl, rfl, rfl⟩, rfl, rfl, trivial, rfl⟩
        | true =>
            have hmem : spanId ∈ Call.lookups env (.exit spanId) := by
              simp only [Call.lookups]
              rw [if_pos]
              · simp
              · simpa [Bool.or_eq_true, imp_iff_not_or] using hslices
            apply keeps_getMut ⟨rfl, rfl, rfl, rfl, rfl⟩
              ⟨rfl, hmem, .inr rfl, rfl, rfl, .inl rfl⟩ rfl
            · exact ⟨⟨rfl, rfl⟩, fun _ => h _ ⟨⟨rfl, rfl, rfl⟩, rfl, rfl, trivial, rfl⟩⟩
            · intro found
              by_cases hthread : env.config.spanMode.emitThreadSlices = true
              · simp only [hthread]
                refine ⟨⟨by simp, rfl, rfl⟩, fun flows => ?_⟩
                exact keeps_boundary rfl rfl ⟨rfl, rfl⟩ rfl rfl (fun _ heq => by cases heq) rfl
                  (fun _ _ _ => trivial)
                  (fun _ _ => rfl) (fun _ => rfl) (fun _ _ => rfl) (fun _ => rfl)
                  (fun _ => trivial) rfl h
              · simp only [hthread, Prog.bind]
                cases htrack : found.data.trackUuid with
                | none =>
                    exact ⟨⟨rfl, rfl, fun _ => rfl, rfl⟩, fun _ => ⟨⟨rfl, rfl⟩, fun _ =>
                      h _ ⟨⟨rfl, rfl, rfl⟩, rfl, rfl, trivial, rfl⟩⟩⟩
                | some uuid =>
                    exact keeps_boundary rfl rfl ⟨rfl, rfl⟩ rfl rfl (fun _ heq => by cases heq) rfl
                      (fun _ hguard _ => ⟨found, hguard, htrack⟩) (fun _ _ => rfl) (fun _ => rfl)
                      (fun _ hslice => absurd hslice Bool.false_ne_true) (fun _ => rfl)
                      (fun _ => trivial)
                      rfl h

/-! What a closed span leaves goes back, with the context or without. -/

theorem keeps_giveBackTrack {frame : Frame} {acquired : Bool} {data : SpanData}
    (hcontext : frame.context = acquired)
    (hpool : ∀ pool, data.trackPool = some pool → pool ∈ frame.known)
    (hheld : ∀ pool uuid, data.trackPool = some pool → data.trackUuid = some uuid →
      frame.Holds uuid pool.key)
    (h : ∀ known missing held, Keeps env post
      { frame with known := known, missing := missing, held := held } (rest ())) :
    Keeps env post frame (giveBackTrack acquired data >>= rest) := by
  rw [giveBackTrack]
  split
  · rename_i pool uuid htrackPool htrackUuid
    have hmem := hpool pool htrackPool
    have hholds := hheld pool uuid htrackPool htrackUuid
    cases acquired with
    | true => exact keeps_releaseTrack hcontext hmem hholds fun known missing => h known missing _
    | false => exact ⟨⟨hmem, hholds⟩, fun _ => h _ _ _⟩
  · exact h _ _ _

theorem keeps_giveBackRetained {frame : Frame} {acquired : Bool} {data : SpanData}
    (hcontext : frame.context = acquired) (hoff : acquired = false → frame.Off)
    (hfresh : frame.fresh = none)
    (h : ∀ excused checked, (frame.excused = true → excused = true) →
      Keeps env post { frame with excused := excused, checked := checked } (rest ())) :
    Keeps env post frame (giveBackRetained acquired data >>= rest) := by
  have hsame := h frame.excused frame.checked fun h => h
  rw [giveBackRetained]
  split
  · cases acquired with
    | true => exact ⟨hcontext, fun _ => hsame⟩
    | false =>
        exact keeps_recycleRetainedSpan (hoff rfl) hfresh fun excused checked hexcused _ =>
          h excused checked hexcused
  · exact hsame

theorem keeps_giveBack {frame : Frame} {acquired : Bool} {data : SpanData}
    (hcontext : frame.context = acquired) (hvacant : frame.vacant = false)
    (hphase : frame.phase = if acquired then .ready else .closed)
    (hguard : frame.guard = none) (hfresh : frame.fresh = none)
    (hfinished : frame.finished = false) (hsettled : frame.Settled)
    (hpool : ∀ pool, data.trackPool = some pool → pool ∈ frame.known)
    (hheld : ∀ pool uuid, data.trackPool = some pool → data.trackUuid = some uuid →
      frame.Holds uuid pool.key)
    (h : ∀ frame' : Frame, frame'.Ended frame.call → Keeps env post frame' (rest ())) :
    Keeps env post frame (giveBack acquired data >>= rest) := by
  rw [giveBack, Prog.bind_bind]
  refine keeps_giveBackTrack hcontext hpool hheld fun known missing held => ?_
  change Keeps env post { frame with known := known, missing := missing, held := held }
    ((giveBackRetained acquired data >>= _) >>= rest)
  rw [Prog.bind_bind]
  refine keeps_giveBackRetained hcontext ?_ hfresh fun excused checked hexcused => ?_
  · rintro rfl
    exact ⟨hcontext, hvacant, hphase⟩
  · have hsettled' : { frame with excused := excused, checked := checked }.Settled :=
      hsettled.excuse rfl rfl rfl rfl hexcused
    cases acquired with
    | true =>
        refine ⟨⟨hcontext, ?_⟩, fun _ =>
          h _ ⟨⟨rfl, hvacant, rfl⟩, rfl, hguard, hsettled', hfinished⟩⟩
        change frame.phase.calm = true
        rw [hphase]
        rfl
    | false => exact h _ ⟨⟨hcontext, hvacant, hphase⟩, rfl, hguard, hsettled', hfinished⟩

theorem keeps_onClose
    (h : ∀ frame : Frame, frame.Ended (.close spanId) → Keeps env post frame (rest ())) :
    Keeps env post (Frame.start (.close spanId) instance_ calledAt)
      (onClose calledAt spanId >>= rest) := by
  have hmem : spanId ∈ Call.lookups env (.close spanId) := by simp [Call.lookups]
  refine ⟨⟨⟨rfl, hmem, .inl rfl, rfl, rfl, .inr rfl⟩, rfl, rfl, rfl⟩, fun found => ?_⟩
  cases found with
  | none =>
      exact h _ ⟨⟨rfl, rfl, rfl⟩, rfl, rfl,
        settled_of_close rfl rfl (fun _ heq => by cases heq), rfl⟩
  | some found =>
      have hpool : ∀ pool, found.data.trackPool = some pool →
          pool ∈ found.data.trackPool.toList ++ [] := by
        intro pool hpool
        simp [hpool]
      simp only [Prog.bind]
      cases htrack : found.data.trackUuid with
      | none =>
          refine keeps_giveBack rfl rfl rfl rfl rfl rfl (settled_of_close rfl rfl ?_) hpool
            (by simp [htrack]) h
          rintro taken heq
          cases heq
          exact .inr (.inr htrack)
      | some uuid =>
          have hheld : ∀ (frame : Frame) begun, frame.held =
              [⟨uuid, found.data.trackPool.map PoolRef.key, begun⟩] →
              (begun = true → frame.excused = true) →
              ∀ pool uuid', found.data.trackPool = some pool →
                found.data.trackUuid = some uuid' → frame.Holds uuid' pool.key := by
            intro frame begun hheld hexcused pool uuid' hpool htrack'
            rw [htrack, Option.some.injEq] at htrack'
            refine ⟨begun, ?_, hexcused⟩
            rw [hheld, hpool, htrack']
            rfl
          have hrefused : ∀ excused checked, excused = true → Keeps env post
              { Frame.start (.close spanId) instance_ calledAt with
                excused := excused
                checked := checked
                took := true
                taken := some found
                known := found.data.trackPool.toList ++ []
                held := [⟨uuid, found.data.trackPool.map PoolRef.key, true⟩] }
              (giveBack false found.data >>= rest) := by
            intro excused checked hexcused
            exact keeps_giveBack rfl rfl rfl rfl rfl rfl
              (settled_of_close rfl rfl fun _ _ => .inr (.inl hexcused)) hpool
              (hheld _ true rfl fun _ => hexcused) h
          have htaken : next (Frame.start (.close spanId) instance_ calledAt)
              (.spans (.take spanId)) (some found) =
              { Frame.start (.close spanId) instance_ calledAt with
                took := true
                taken := some found
                known := found.data.trackPool.toList ++ []
                held := [⟨uuid, found.data.trackPool.map PoolRef.key, true⟩] } := by
            simp only [next, htrack]
            rfl
          change Keeps env post (next (Frame.start (.close spanId) instance_ calledAt)
            (.spans (.take spanId)) (some found)) _
          rw [htaken]
          refine ⟨trivial, fun failed => ?_⟩
          cases failed with
          | true => exact hrefused _ false rfl
          | false =>
              change Keeps env post _ ((acquire >>= _) >>= rest)
              rw [Prog.bind_bind]
              refine keeps_acquire ⟨rfl, rfl, rfl⟩ rfl
                fun acquired excused checked hexcused _ _ => ?_
              cases acquired with
              | false => exact hrefused excused checked (hexcused rfl)
              | true =>
                  refine ⟨⟨rfl, rfl⟩, fun _ => ?_⟩
                  change Keeps env post _ ((packet _ calledAt _ >>= _) >>= rest)
                  rw [Prog.bind_bind]
                  refine keeps_packet ⟨⟨rfl, rfl⟩, .inl rfl⟩ fun processes _ => ⟨⟨rfl, rfl,
                    ⟨rfl, ⟨_, rfl⟩, found, rfl, htrack⟩,
                    .lifetimeEnd found rfl rfl rfl rfl rfl rfl rfl⟩, fun _ => ?_⟩
                  exact keeps_giveBack rfl rfl rfl rfl rfl rfl
                    (settled_of_close rfl rfl fun _ _ => .inl rfl) hpool
                    (hheld _ false rfl fun h => (by cases h)) h

theorem keeps_onEvent {metadata : Metadata} {span : Option SpanId}
    (h : ∀ frame : Frame, frame.Ended (.event metadata span) → Keeps env post frame (rest ())) :
    Keeps env post (Frame.start (.event metadata span) instance_ calledAt)
      (onEvent env calledAt metadata span >>= rest) := by
  refine ⟨trivial, fun failed => ?_⟩
  cases failed with
  | true => exact h _ ⟨⟨rfl, rfl, rfl⟩, rfl, rfl, trivial, rfl⟩
  | false =>
      change Keeps env post _ ((acquire >>= _) >>= rest)
      rw [Prog.bind_bind]
      refine keeps_acquire ⟨rfl, rfl, rfl⟩ rfl fun acquired excused checked _ _ hchecked => ?_
      obtain rfl := hchecked rfl
      cases acquired with
      | false => exact h _ ⟨⟨rfl, rfl, rfl⟩, rfl, rfl, trivial, rfl⟩
      | true =>
          refine ⟨rfl, fun threadTrack => ?_⟩
          have hend : ∀ enclosing : Option Nat, Keeps env post
              { Frame.start (.event metadata span) instance_ calledAt with
                context := true, excused := excused, checked := true, enclosing := enclosing } ((do
              let uuid := enclosing.getD threadTrack
              act (.sequence .newWriter)
              if env.config.counters then
                createCounterTracks calledAt (declaredCounters env.memory metadata)
              else pure ()
              packet none calledAt do
                let visits ← act (.format none)
                pure (.instant (if env.bases.uuid uuid = env.bases.uuid threadTrack then none
                  else some uuid) metadata visits)
              dropGuard) >>= rest) := by
            intro enclosing
            refine ⟨⟨rfl, rfl⟩, fun _ => ?_⟩
            have hlast : ∀ phase processes counter, phase = .fresh ∨ phase = .ready →
                Keeps env post
                { Frame.start (.event metadata span) instance_ calledAt with
                  context := true
                  excused := excused
                  checked := true
                  enclosing := enclosing
                  phase := phase
                  processes := processes
                  counter := counter } ((do
                packet none calledAt do
                  let visits ← act (.format none)
                  pure (.instant (if env.bases.uuid (enclosing.getD threadTrack) =
                    env.bases.uuid threadTrack then none
                    else some (enclosing.getD threadTrack)) metadata visits)
                dropGuard) >>= rest) := by
              intro phase processes counter hphase
              rw [Prog.bind_bind]
              refine keeps_packet ⟨⟨rfl, rfl⟩, hphase⟩ fun processes _ =>
                ⟨⟨rfl, rfl, rfl, .inl rfl, by simp⟩, fun visits =>
                  ⟨⟨rfl, rfl, ⟨rfl, ?_⟩, rfl, rfl, rfl⟩, fun _ =>
                  ⟨⟨rfl, rfl⟩, fun _ => h _ ⟨⟨rfl, rfl, rfl⟩, rfl, rfl, trivial, rfl⟩⟩⟩⟩
              cases enclosing with
              | none =>
                  simp only [Option.getD_none, if_true]
                  exact trivial
              | some uuid =>
                  rw [Option.getD_some]
                  split
                  · exact trivial
                  · rfl
            by_cases hcounters : env.config.counters = true
            · simp only [hcounters, if_true]
              change Keeps env post _ ((createCounterTracks _ _ >>= _) >>= rest)
              rw [Prog.bind_bind]
              exact keeps_createCounterTracks ⟨⟨rfl, rfl⟩, .inl rfl⟩ hlast
            · simp only [hcounters]
              exact hlast .fresh [] none (.inl rfl)
          by_cases hmode : (env.config.spanMode == .spanTracks) = true
          · simp only [hmode, if_true]
            change Keeps env post _ ((enclosingTrack span >>= _) >>= rest)
            rw [Prog.bind_bind]
            refine keeps_enclosingTrack ⟨rfl, rfl, rfl, rfl, rfl⟩ rfl ?_ hend
            intro spanId hspan
            have hmem : spanId ∈ Call.lookups env (.event metadata span) := by
              simp [Call.lookups, eq_of_beq hmode, hspan]
            refine ⟨⟨rfl, hmem, .inr rfl, rfl, rfl, .inl rfl⟩, fun _ _ _ hcreates => ?_⟩
            cases hcreates
          · simp only [hmode]
            exact hend none

theorem keeps_dropContext
    (h : ∀ frame : Frame, frame.Ended .exitThread → Keeps env post frame (rest ())) :
    Keeps env post (Frame.start .exitThread instance_ calledAt) (dropContext >>= rest) := by
  refine ⟨⟨rfl, rfl, rfl⟩, fun uuids => ?_⟩
  refine keeps_releaseAll ?_ rfl (h _ ⟨⟨rfl, rfl, rfl⟩, rfl, rfl, trivial, rfl⟩)
  intro local_ hmem
  exact List.mem_append_left _ (List.mem_map_of_mem hmem)

/-- Every callback keeps to the protocol. -/
theorem keeps_call (call : Call) :
    Keeps env (fun _ => Final) (Frame.start call instance_ calledAt) (do
      call.program env calledAt instance_
      act (.registry (.finish call))) := by
  cases call with
  | newSpan spanId metadata parent => exact keeps_onNewSpan fun _ h => keeps_finish h
  | record spanId => exact keeps_onRecord fun _ h => keeps_finish h
  | followsFrom spanId follows => exact keeps_onFollowsFrom fun _ h => keeps_finish h
  | enter spanId => exact keeps_onEnter fun _ h => keeps_finish h
  | exit spanId => exact keeps_onExit fun _ h => keeps_finish h
  | close spanId => exact keeps_onClose fun _ h => keeps_finish h
  | event metadata span => exact keeps_onEvent fun _ h => keeps_finish h
  | exitThread => exact keeps_dropContext fun _ h => keeps_finish h

end Callbacks

end TracingPerfetto.Layer
