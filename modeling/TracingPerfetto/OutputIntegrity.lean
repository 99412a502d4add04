import TracingPerfetto.OutputRuns
import TracingPerfetto.PacketRoundTrip

/-!
What reaches the writer, and what `flush_all` reports, over every interleaving.
-/

namespace TracingPerfetto.OutputIntegrity

open TracingPerfetto.Wire TracingPerfetto.Threads TracingPerfetto.Threads.System
open TracingPerfetto.Output TracingPerfetto.OutputProtocol TracingPerfetto.OutputErrors
open TracingPerfetto.OutputStream TracingPerfetto.OutputSteps TracingPerfetto.OutputRuns

variable {state : State} {ghosts : ThreadId → Ghost}
variable {order : List (ThreadId × Bytes)} {queued : ThreadId → List Bytes}

theorem packet_ne_nil {packet : Sequence.Written}
    (h : SequenceRuns.Written.Framed packet) : packet.bytes ≠ [] := by
  have hlength := Proto.redundantGroups_length Proto.messageLenPrefixSize
    (Proto.Op.encodedAll packet.calls).length
  rw [h, Proto.framed]
  refine List.append_ne_nil_of_right_ne_nil _ (List.append_ne_nil_of_left_ne_nil ?_ _)
  exact List.ne_nil_of_length_pos (by rw [hlength]; decide)

theorem not_stopped_of_accepts (h : Invariant state ghosts order queued)
    (haccepts : failures state.log = []) : ¬ Stopped state.log := by
  have hnone : state.error = none := by
    by_contra hsome
    exact h.errors.known hsome haccepts
  intro hstopped
  rcases h.errors.stopped hstopped with hset | ⟨thread, hthread⟩
  · exact h.errors.published hset hnone
  · rcases hfailure : (ghosts thread).failure with _ | error | error
    · exact h.errors.window thread hthread hfailure
    · exact List.ne_nil_of_mem (h.errors.pending thread error hfailure) haccepts
    · exact h.errors.recorded thread error hfailure hnone

theorem due_emitted (h : Invariant state ghosts order queued) {event : Event}
    {earlier : List Event} (hlog : state.log = event :: earlier) (thread buffer : ThreadId) :
    due thread earlier buffer <+: emitted buffer state.log := by
  rw [h.base.progress, hlog, completed_cons, due]
  exact ((completed_beforeFlush _ _ _).trans (List.prefix_append _ _)).trans
    (List.prefix_append _ _)

theorem Delivered.due_prefix (h : Invariant state ghosts order queued) {event : Event}
    {earlier : List Event} (hlog : state.log = event :: earlier) {thread : ThreadId}
    (hdelivered : Delivered order thread earlier) (buffer : ThreadId) :
    due thread earlier buffer <+: packetsOf buffer order :=
  List.prefix_of_prefix_length_le (due_emitted h hlog thread buffer) (h.base.sent buffer)
    (hdelivered buffer)

/-- With a writer that accepts all bytes: the packets that reached the writer, those that
wait in the rings and those in the hands of their threads are the packets that each thread
emitted, in its order; a free writer has whole packets only; and whatever was complete
before a `flush_all` started has reached the writer when it returns. -/
theorem output_stream_integrity {config : system.Config} (h : Reaches start config)
    (haccepts : failures config.state.log = []) :
    ∃ (order : List (ThreadId × Bytes)) (waiting inHand : ThreadId → List Bytes),
      (∀ thread, emitted thread config.state.log =
        packetsOf thread order ++ waiting thread ++ inHand thread) ∧
      (∀ thread, (inHand thread).length ≤ 1 ∧
        (config.frames thread = [] → inHand thread = [])) ∧
      bytesOf order <+: config.state.output ∧
      (config.state.owner .writer = none → config.state.output = bytesOf order ∧
        ∀ thread, config.state.rings thread = (waiting thread).flatten) ∧
      ∀ thread error earlier, config.state.log = .flushReturned thread error :: earlier →
        ∀ buffer, due thread earlier buffer <+: packetsOf buffer order := by
  rcases invariant_reaches h with ⟨ghosts, order, queued, hinv, hrest⟩
  have hstopped := not_stopped_of_accepts hinv haccepts
  have hflows := hinv.flows hstopped
  refine ⟨order, queued, fun thread => ((ghosts thread).sending.map Prod.snd).toList,
    hflows.packets, fun thread => ⟨?_, fun hidle => ?_⟩, hinv.base.output, fun hfree => ⟨?_, ?_⟩,
    ?_⟩
  · rcases (ghosts thread).sending with _ | _ <;> simp
  · simp only [hrest thread hidle]
    rfl
  · rw [hflows.output, piece, hfree, List.append_nil]
  · intro thread
    have hnone : leftover config.state ghosts thread = [] := by
      rw [leftover]
      rcases hconsumer : config.state.owner (.consumer thread) with _ | drainer
      · rfl
      · by_contra hsome
        have hwriter := hinv.locks.leftover drainer thread hsome
        rw [← hinv.locks.owner, hfree] at hwriter
        simp at hwriter
    rw [hflows.ring, hnone, List.nil_append]
  · intro thread error earlier hlog
    have hreturned := hinv.base.returned
    rw [hlog] at hreturned
    refine Delivered.due_prefix hinv hlog (hreturned.1 fun hearlier => hstopped ?_)
    rw [hlog]
    exact stopped_cons.2 (Or.inr hearlier)

def act (thread : ThreadId) : system.Label := .act thread .plain

def acts (thread : ThreadId) (count : Nat) : List system.Label := List.replicate count (act thread)

/-- A thread starts up. -/
def newThread (thread : ThreadId) : List system.Label :=
  [.call thread .newContext] ++ acts thread 3 ++ [.ret thread]

/-- A thread pushes a packet into its ring. -/
def pushed (thread : ThreadId) (packet : Bytes) : List system.Label :=
  [.call thread (.packet packet)] ++ acts thread 2 ++ [.ret thread]

/-- Two threads and their packets, and a third thread that flushes. -/
def flushedRun : Option system.Config :=
  run (newThread 0 ++ newThread 1 ++ pushed 0 [1, 2, 3] ++ pushed 1 [4, 5] ++ pushed 0 [6] ++
    [.call 2 .flush] ++ acts 2 6 ++ [.act 2 (.wrap 2)] ++ acts 2 23) start

/-- The flush has returned, and what the two threads emitted was complete before it. -/
structure Flushed (state : State) : Prop where
  returned : state.log.head? = some (.flushReturned 2 none)
  accepts : failures state.log = []
  free : state.owner .writer = none
  output : state.output = [1, 2, 3, 6, 4, 5]
  emitted : emitted 0 state.log = [[1, 2, 3], [6]] ∧ emitted 1 state.log = [[4, 5]]
  due : due 2 state.log.tail 0 = [[1, 2, 3], [6]] ∧ due 2 state.log.tail 1 = [[4, 5]]

instance (state : State) : Decidable (Flushed state) :=
  decidable_of_iff (_ ∧ _ ∧ _ ∧ _ ∧ _ ∧ _)
    ⟨fun ⟨returned, accepts, free, output, emitted, due⟩ =>
      ⟨returned, accepts, free, output, emitted, due⟩,
    fun h => ⟨h.returned, h.accepts, h.free, h.output, h.emitted, h.due⟩⟩

theorem flushedRun_flushed : flushedRun.map (fun config => decide (Flushed config.state)) =
    some true := by
  decide +kernel

/-- The packets of one thread come before the packet of the other. -/
theorem output_stream_integrity_flushed : ∃ config, flushedRun = some config ∧
    config.state.log.head? = some (.flushReturned 2 none) ∧
    ∃ order : List (ThreadId × Bytes), config.state.output = bytesOf order ∧
      packetsOf 0 order = [[1, 2, 3], [6]] ∧ packetsOf 1 order = [[4, 5]] ∧
      bytesOf order = [1, 2, 3, 6, 4, 5] := by
  obtain ⟨config, hrun, hflushed⟩ := Option.map_eq_some_iff.1 flushedRun_flushed
  rw [decide_eq_true_eq] at hflushed
  obtain ⟨order, waiting, inHand, hemitted, -, -, hwhole, hreturns⟩ :=
    output_stream_integrity ⟨_, hrun⟩ hflushed.accepts
  obtain ⟨earlier, hlog⟩ := List.head?_eq_some_iff.1 hflushed.returned
  have hsent : ∀ thread, emitted thread config.state.log = due 2 config.state.log.tail thread →
      packetsOf thread order = emitted thread config.state.log := by
    intro thread hcomplete
    have hprefix : packetsOf thread order <+: emitted thread config.state.log := by
      rw [hemitted, List.append_assoc]
      exact List.prefix_append _ _
    have hdue := hreturns 2 none earlier hlog thread
    rw [hlog, List.tail_cons] at hcomplete
    rw [hlog] at hprefix ⊢
    exact hprefix.eq_of_length_le (hcomplete ▸ hdue.length_le)
  have houtput := (hwhole hflushed.free).1
  refine ⟨config, hrun, hflushed.returned, order, houtput, ?_, ?_,
    houtput.symm.trans hflushed.output⟩
  · rw [hsent 0 (hflushed.emitted.1.trans hflushed.due.1.symm), hflushed.emitted.1]
  · rw [hsent 1 (hflushed.emitted.2.trans hflushed.due.2.symm), hflushed.emitted.2]

/-! ## What a flush reports -/

/-- A `flush_all` that has just returned `Ok(())` leaves nothing behind that was complete
before it started, and an `Err` is the first failure that the writer returned. -/
def FlushSound (state : State) : Prop :=
  ∀ thread error earlier, state.log = .flushReturned thread error :: earlier →
    (error = none → ∃ order : List (ThreadId × Bytes), bytesOf order <+: state.output ∧
      ∀ buffer, packetsOf buffer order <+: emitted buffer state.log ∧
        due thread earlier buffer <+: packetsOf buffer order) ∧
    ∀ reported, error = some reported → ∃ first, firstFailure earlier = some (first, reported)

/-- Sound in every run in which no `flush_all` makes its last test of `has_error`, and finds
it unset, while another thread's failed `write_all` is unpublished, and no thread is the
first to record an error while another thread failed first. -/
theorem flush_sound {config : system.Config} (h : Reaches start config)
    (htests : Throughout (TestsPublished .report) config.state.log)
    (hrecords : Throughout RecordsFirst config.state.log) : FlushSound config.state := by
  rcases invariant_reaches h with ⟨ghosts, order, queued, hinv, -⟩
  intro thread error earlier hlog
  have hreturned := hinv.base.returned
  rw [hlog] at hreturned htests hrecords
  rcases hreturned with ⟨-, hclean, hfailed⟩
  constructor
  · intro hnone
    refine ⟨order, hinv.base.output, fun buffer => ⟨hinv.base.sent buffer, ?_⟩⟩
    exact Delivered.due_prefix hinv hlog (hclean hnone htests.2) buffer
  · exact fun reported hsome => hfailed reported hsome hrecords.2

def brokenPipe : IoError := ⟨.brokenPipe, [112]⟩

def storageFull : IoError := ⟨.storageFull, [102]⟩

/-- Thread 1 flushes, its `write_all` fails, and it publishes and reports the failure. -/
def failedRun : Option system.Config :=
  run (newThread 0 ++ pushed 0 [1, 2, 3] ++ [.call 1 .flush] ++ acts 1 8 ++
    [.act 1 (.fail 1 brokenPipe)] ++ acts 1 15) start

def failedLog : List Event :=
  [.flushReturned 1 (some brokenPipe), .tested 1 .report true, .flushed 1 none, .published 1,
    .recorded 1 brokenPipe, .wrote 1 [1, 2, 3] (some brokenPipe), .tested 1 (.write true) false,
    .flushStarted 1, .completed 0 [1, 2, 3], .started 0 [1, 2, 3]]

theorem failedRun_isSome : failedRun.isSome = true := by decide +kernel

theorem failedRun_log : failedRun.map (fun config => config.state.log) = some failedLog := by
  decide +kernel

theorem flush_sound_failed : ∃ config, failedRun = some config ∧
    config.state.log = failedLog ∧ FlushSound config.state := by
  rcases Option.isSome_iff_exists.1 failedRun_isSome with ⟨config, hrun⟩
  have hlog := failedRun_log
  rw [hrun, Option.map_some, Option.some.injEq] at hlog
  refine ⟨config, hrun, hlog, flush_sound ⟨_, hrun⟩ ?_ ?_⟩
  · rw [hlog]
    simp [failedLog, Throughout, TestsPublished]
  · rw [hlog]
    simp [failedLog, Throughout, RecordsFirst, firstFailure, failures, List.filterMap_cons,
      failureOf]

/-- Thread 1 flushes, its `write_all` fails, and it has released its locks; thread 2 flushes
before the failure is recorded. -/
def unpublishedRun : Option system.Config :=
  run (newThread 0 ++ pushed 0 [1, 2, 3] ++ [.call 1 .flush] ++ acts 1 8 ++
    [.act 1 (.fail 0 brokenPipe)] ++ acts 1 3 ++ [.call 2 .flush] ++ acts 2 14) start

theorem unpublishedRun_isSome : unpublishedRun.isSome = true := by decide +kernel

/-- Thread 2 fails first, thread 1 fails and records first, and thread 3 flushes. -/
def overtakenRun : Option system.Config :=
  run (newThread 0 ++ newThread 1 ++ pushed 0 [1, 2, 3] ++ pushed 1 [4, 5] ++
    [.call 2 .flush] ++ acts 2 8 ++ [.act 2 (.fail 0 brokenPipe)] ++ acts 2 3 ++
    [.call 1 .exit] ++ acts 1 5 ++ [.act 1 (.fail 0 storageFull)] ++ acts 1 7 ++
    [.call 3 .flush] ++ acts 3 23) start

theorem overtakenRun_isSome : overtakenRun.isSome = true := by decide +kernel

/-- A flush that returns `Ok(())` although the only packet is lost, and one that returns an
error that is not the first. -/
theorem flush_unsound :
    (∃ config, unpublishedRun = some config ∧ ¬ FlushSound config.state) ∧
      ∃ config, overtakenRun = some config ∧ ¬ FlushSound config.state := by
  constructor
  · rcases Option.isSome_iff_exists.1 unpublishedRun_isSome with ⟨config, hrun⟩
    have hfacts : unpublishedRun.map (fun config => (config.state.log.head?, config.state.output,
        due 2 config.state.log.tail 0)) =
        some (some (.flushReturned 2 none), [], [[1, 2, 3]]) := by decide +kernel
    rw [hrun, Option.map_some, Option.some.injEq, Prod.mk.injEq, Prod.mk.injEq] at hfacts
    rcases hfacts with ⟨hhead, houtput, hdue⟩
    refine ⟨config, hrun, fun hsound => ?_⟩
    rcases (hsound 2 none _ (List.eq_cons_of_mem_head? hhead)).1 rfl with ⟨order, hbytes, hall⟩
    have hpackets := (hall 0).2
    rw [hdue] at hpackets
    rw [houtput, List.prefix_nil, bytesOf, List.flatten_eq_nil_iff] at hbytes
    have hmem : [1, 2, 3] ∈ packetsOf 0 order := hpackets.subset List.mem_cons_self
    rw [packetsOf, List.mem_filterMap] at hmem
    rcases hmem with ⟨entry, hentry, hpacket⟩
    have hempty := hbytes entry.2 (List.mem_map_of_mem hentry)
    simp [hempty] at hpacket
  · rcases Option.isSome_iff_exists.1 overtakenRun_isSome with ⟨config, hrun⟩
    have hfacts : overtakenRun.map (fun config => (config.state.log.head?,
        firstFailure config.state.log.tail)) =
        some (some (.flushReturned 3 (some storageFull)), some (2, brokenPipe)) := by
      decide +kernel
    rw [hrun, Option.map_some, Option.some.injEq, Prod.mk.injEq] at hfacts
    refine ⟨config, hrun, fun hsound => ?_⟩
    rcases (hsound 3 _ _ (List.eq_cons_of_mem_head? hfacts.1)).2 storageFull rfl with
      ⟨first, hfirst⟩
    rw [hfacts.2] at hfirst
    simp [storageFull, brokenPipe] at hfirst

/-! ## After a failed write -/

/-- No `write_all` comes after one that failed, and the writer has whole packets and at most
a piece of one more. -/
def WritesStop (state : State) : Prop :=
  Throughout NoWriteAfterFailure state.log ∧ ∃ order : List (ThreadId × Bytes),
    (∀ thread, packetsOf thread order <+: emitted thread state.log) ∧
      Truncated order state.log state.output

/-- In a run without a stopped drain the writer has at most one piece, too. -/
theorem Flows.truncated (h : Invariant state ghosts order queued)
    (hstopped : ¬ Stopped state.log) : ∃ order' : List (ThreadId × Bytes),
      (∀ thread, packetsOf thread order' <+: emitted thread state.log) ∧
        Truncated order' state.log state.output := by
  have hflows := h.flows hstopped
  have hwhole : piece state ghosts = [] → ∃ order' : List (ThreadId × Bytes),
      (∀ thread, packetsOf thread order' <+: emitted thread state.log) ∧
        Truncated order' state.log state.output := fun hpiece =>
    ⟨order, h.base.sent, [], by rw [hflows.output, hpiece], Or.inl rfl⟩
  rcases howner : state.owner .writer with _ | writer
  · exact hwhole (by rw [piece, howner])
  · have hpiece := piece_of_held h.locks ((h.locks.owner writer .writer).1 howner)
    have hchunk := hflows.chunk writer
    rcases hcase : (ghosts writer).chunk with _ | _ | _ | ⟨buffer, available, first, second⟩ | _ | _
    case half =>
      rw [hcase] at hpiece hchunk
      rcases hchunk with ⟨count, -, htaken, -⟩
      have hprefix : piece state ghosts ++ [] <+: ((queued buffer).take count).flatten := by
        rw [hpiece, htaken, List.append_nil]
        exact List.prefix_append _ _
      rcases OutputSteps.Flows.truncate hflows h.base hprefix with ⟨order', -, hsent, htruncated⟩
      rw [List.append_nil] at htruncated
      exact ⟨order', hsent, htruncated⟩
    all_goals exact hwhole (by rw [hpiece, hcase]; rfl)

/-- Writes stop in every run in which no drain that has bytes to write finds `has_error`
unset while a failed `write_all` of another thread is unpublished. -/
theorem writes_stop {config : system.Config} (h : Reaches start config)
    (htests : Throughout (TestsPublished (.write true)) config.state.log) :
    WritesStop config.state := by
  rcases invariant_reaches h with ⟨ghosts, order, queued, hinv, -⟩
  refine ⟨hinv.base.sticky htests, ?_⟩
  by_cases hstopped : Stopped config.state.log
  · exact ⟨order, hinv.base.sent, (hinv.base.truncated hstopped htests).1⟩
  · exact Flows.truncated hinv hstopped

theorem writes_stop_failed : ∃ config, failedRun = some config ∧
    config.state.output = [1] ∧ WritesStop config.state := by
  rcases Option.isSome_iff_exists.1 failedRun_isSome with ⟨config, hrun⟩
  have hlog := failedRun_log
  have houtput : failedRun.map (fun config => config.state.output) = some [1] := by decide +kernel
  rw [hrun, Option.map_some, Option.some.injEq] at hlog houtput
  refine ⟨config, hrun, houtput, writes_stop ⟨_, hrun⟩ ?_⟩
  rw [hlog]
  simp [failedLog, Throughout, TestsPublished, unpublished]

/-- Thread 1 writes its packet between the failure of thread 2 and its publication. -/
def gluedRun : Option system.Config :=
  run (newThread 0 ++ newThread 1 ++ pushed 0 [1, 2, 3] ++ pushed 1 [4, 5] ++
    [.call 2 .flush] ++ acts 2 8 ++ [.act 2 (.fail 1 brokenPipe)] ++ acts 2 3 ++
    [.call 1 .exit] ++ acts 1 6) start

theorem gluedRun_isSome : gluedRun.isSome = true := by decide +kernel

/-- The whole packet of thread 1 follows a truncated one. -/
theorem writes_go_on : ∃ config, gluedRun = some config ∧
    config.state.output = [1, 4, 5] ∧ ¬ WritesStop config.state := by
  rcases Option.isSome_iff_exists.1 gluedRun_isSome with ⟨config, hrun⟩
  have hfacts : gluedRun.map (fun config => (config.state.output, config.state.log.head?,
      decide (.wrote 2 [1, 2, 3] (some brokenPipe) ∈ config.state.log.tail))) =
      some ([1, 4, 5], some (.wrote 1 [4, 5] none), true) := by decide +kernel
  rw [hrun, Option.map_some, Option.some.injEq, Prod.mk.injEq, Prod.mk.injEq] at hfacts
  rcases hfacts with ⟨houtput, hhead, hfailed⟩
  refine ⟨config, hrun, houtput, fun hstop => ?_⟩
  have hwrites := hstop.1
  rw [List.eq_cons_of_mem_head? hhead] at hwrites
  exact hwrites.1 2 [1, 2, 3] brokenPipe (of_decide_eq_true hfailed)

end TracingPerfetto.OutputIntegrity
