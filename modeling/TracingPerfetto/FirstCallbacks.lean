import Mathlib.Logic.Function.Basic
import TracingPerfetto.Unwinding

/-!
The first callbacks of any number of threads. A thread marks its sequence as
initialized and claims the process descriptor before it writes any of the descriptors,
and the loop over the arguments panics at one that is not valid Unicode.
-/

namespace TracingPerfetto.FirstCallbacks

open TracingPerfetto.Wire TracingPerfetto.Proto TracingPerfetto.Runtime
open TracingPerfetto.Schema TracingPerfetto.Sequence TracingPerfetto.SequenceRuns
open TracingPerfetto.Sequence.SequenceWriter TracingPerfetto.PacketRoundTrip

/-- A process with its arguments, and what its threads are told. -/
structure Environment (Thread : Type) where
  config : Config
  domain : ClockDomain
  arguments : List (Option Bytes)
  asked : Thread → Answers
  sequenceId : Thread → Nat
  threadTrackUuid : Thread → Nat
  clockAnchorNs : Thread → Nat

section Environment

variable {Thread : Type} (env : Environment Thread) (thread : Thread)

/-- The arguments are the process's, whichever thread asks for them. -/
def Environment.answers : Answers := { env.asked thread with arguments := env.arguments }

def Environment.writer : SequenceWriter :=
  SequenceWriter.new (SequenceState.new (env.sequenceId thread) (env.threadTrackUuid thread)
    (env.clockAnchorNs thread))

/-- The loop over `std::env::args`: the fields that it writes, and whether it panics. -/
def argumentCalls : List (Option Bytes) → List Op × Bool
  | [] => ([], false)
  | none :: _ => ([], true)
  | some argument :: arguments =>
      (.string ProcessDescriptor.cmdline argument :: (argumentCalls arguments).1,
        (argumentCalls arguments).2)

/-- The process descriptor, which unwinding closes where a panic leaves it. -/
def processCalls : List Op × Bool :=
  let (arguments, panics) :=
    if env.config.processArguments then argumentCalls env.arguments else ([], false)
  ([.message TracePacket.trackDescriptor
      [.redundantVarint TrackDescriptor.uuid (env.answers thread).processUuid,
        .message TrackDescriptor.process
          (.varint ProcessDescriptor.pid (env.answers thread).processId ::
            (arguments ++ if panics then []
              else [.string ProcessDescriptor.processName (env.answers thread).processName]))]],
    panics)

def threadCalls : List Op :=
  threadDescriptorCalls (env.answers thread) (env.threadTrackUuid thread)

end Environment

/-- Where a thread is in `initialize`; `mine` says that it claimed the descriptor of
the process. -/
inductive Phase where
  | fresh
  | marked
  | snapshotted
  | claimed (mine : Bool)
  | described (mine : Bool)
  | returned (mine : Bool)
  | panicked
  deriving DecidableEq, Repr

structure Starting where
  phase : Phase
  writer : SequenceWriter

/-- `claimer` is the thread that found `process_desc_emitted` unset. A packet beyond the
length limit panics in its drop, which ends the run here. -/
structure State (Thread : Type) where
  processDescEmitted : Bool
  claimer : Option Thread
  threads : Thread → Starting
  overflowed : Bool

section Steps

variable {Thread : Type} [DecidableEq Thread]

def State.new (env : Environment Thread) : State Thread :=
  ⟨false, none, fun thread => ⟨.fresh, env.writer thread⟩, false⟩

def State.put (state : State Thread) (thread : Thread) (phase : Phase)
    (writer : SequenceWriter) : State Thread :=
  { state with threads := Function.update state.threads thread ⟨phase, writer⟩ }

/-- A packet of the thread, if it fits. -/
def State.wrote (state : State Thread) (thread : Thread) (phase : Phase) :
    Option SequenceWriter → State Thread
  | some writer => state.put thread phase writer
  | none => { state with overflowed := true }

def step (env : Environment Thread) (state : State Thread) (thread : Thread) :
    Option (State Thread) :=
  let writer := (state.threads thread).writer
  if state.overflowed then none
  else match (state.threads thread).phase with
    | .fresh => some (state.put thread .marked (markInitialized writer))
    | .marked => some (state.wrote thread .snapshotted
        (clockSnapshot env.domain writePacket (env.answers thread) writer))
    | .snapshotted => some { state.put thread (.claimed !state.processDescEmitted) writer with
        processDescEmitted := true
        claimer := if state.processDescEmitted then state.claimer else some thread }
    | .claimed false => some (state.put thread (.described false) writer)
    | .claimed true => some (state.wrote thread
        (if (processCalls env thread).2 then .panicked else .described true)
        (writePacket env.domain (env.answers thread) writer (pure (processCalls env thread).1)))
    | .described mine => some (state.wrote thread (.returned mine)
        (threadDescriptor env.domain writePacket (env.answers thread) writer))
    | .returned _ | .panicked => none

def run (env : Environment Thread) (labels : List Thread) (state : State Thread) :
    Option (State Thread) :=
  labels.foldlM (step env) state

end Steps

/-! ## What is claimed -/

def Phase.ended : Phase → Bool
  | .returned _ | .panicked => true
  | _ => false

/-- No thread panics, and where a flag is set its descriptors are there, complete, once
the callback that set it has ended. -/
structure Complete {Thread : Type} (env : Environment Thread) (state : State Thread) :
    Prop where
  fits : state.overflowed = false
  returns : ∀ thread, (state.threads thread).phase ≠ .panicked
  thread : ∀ thread, (state.threads thread).writer.sequence.initialized = true →
    (state.threads thread).phase.ended = true → ∃ before packet,
      (state.threads thread).writer.written = before ++ [packet] ∧
      packet.body = threadCalls env thread
  process : state.processDescEmitted = true → ∃ thread, state.claimer = some thread ∧
    ((state.threads thread).phase.ended = true → ∃ arguments snapshot described packet,
      commandLine env.config (env.answers thread) = some arguments ∧
      (state.threads thread).writer.written = [snapshot, described, packet] ∧
      described.body = processDescriptorCalls (env.answers thread) arguments ∧
      packet.body = threadCalls env thread)

/-- A descriptor within the length limit of the packet and of every scope in it. -/
def Fits {Thread : Type} (env : Environment Thread) (thread : Thread) (calls : List Op) :
    Prop :=
  Op.FitAll calls ∧
    (Op.encodedAll (laterHeader (env.sequenceId thread) 0 ++ calls)).length ≤ maxMessageLen

/-- The arguments are valid Unicode and the descriptors are not too long. -/
structure Describable {Thread : Type} (env : Environment Thread) (thread : Thread) : Prop where
  unicode : env.config.processArguments = true → none ∉ env.arguments
  process : Fits env thread (processCalls env thread).1
  thread : Fits env thread (threadCalls env thread)

/-! ## Arguments -/

theorem argumentCalls_panics (arguments : List (Option Bytes)) :
    (argumentCalls arguments).2 = true ↔ none ∈ arguments := by
  induction arguments with
  | nil => simp [argumentCalls]
  | cons argument arguments ih =>
      cases argument with
      | none => simp [argumentCalls]
      | some argument =>
          rw [argumentCalls, ih, List.mem_cons]
          simp

theorem argumentCalls_valid {arguments : List (Option Bytes)} (h : none ∉ arguments) :
    ∃ texts, arguments.mapM id = some texts ∧
      argumentCalls arguments = (texts.map (.string ProcessDescriptor.cmdline), false) := by
  induction arguments with
  | nil => exact ⟨[], rfl, rfl⟩
  | cons argument arguments ih =>
      rw [List.mem_cons, not_or] at h
      obtain ⟨texts, htexts, hcalls⟩ := ih h.2
      cases argument with
      | none => exact absurd rfl h.1
      | some argument =>
          refine ⟨argument :: texts, ?_, ?_⟩
          · rw [List.mapM_cons, htexts]
            rfl
          · rw [argumentCalls, hcalls]
            rfl

section Arguments

variable {Thread : Type} (env : Environment Thread) (thread : Thread)

theorem processCalls_panics :
    (processCalls env thread).2 = true ↔
      env.config.processArguments = true ∧ none ∈ env.arguments := by
  rw [processCalls]
  cases hwanted : env.config.processArguments with
  | false => simp
  | true => simp [argumentCalls_panics]

theorem processCalls_valid (h : env.config.processArguments = true → none ∉ env.arguments) :
    ∃ arguments, commandLine env.config (env.answers thread) = some arguments ∧
      (processCalls env thread).1 =
        processDescriptorCalls (env.answers thread) arguments := by
  rw [processCalls, commandLine]
  cases hwanted : env.config.processArguments with
  | false => exact ⟨[], rfl, rfl⟩
  | true =>
      obtain ⟨texts, htexts, hcalls⟩ := argumentCalls_valid (h hwanted)
      refine ⟨texts, htexts, ?_⟩
      simp only [if_true, hcalls]
      rfl

end Arguments

/-! ## Packets of fixed calls -/

section Writes

variable {domain : ClockDomain} {answers : Answers} {writer : SequenceWriter} {calls : List Op}

/-- A sequence with nothing to define. -/
def Quiet (sequence : SequenceState) : Prop :=
  sequence.tables.emitInternedData = ([], sequence.tables)

theorem writePacket_drop (domain : ClockDomain) (answers : Answers)
    (hvalid : PrefixValid writer.sequence)
    (hquiet : Quiet writer.sequence) (hfit : Op.FitAll calls) :
    ∃ (packet : Packet) (finish : SequenceState × Bytes → SequenceWriter),
      Holds packet
        ((writer.sequence.header domain answers (writer.timestamp answers).1).1 ++ calls) ∧
      PrefixOf packet.sequence
        ((writer.sequence.header domain answers (writer.timestamp answers).1).1 ++ calls) ∧
      Quiet packet.sequence ∧ (∀ dropped, (finish dropped).sequence = dropped.1) ∧
      writePacket domain answers writer (pure calls) = packet.drop.map finish := by
  obtain ⟨hsequence, -, -⟩ := timestamp_sequence writer answers
  obtain ⟨opened, hopen, hholds, hvisible, hsaved⟩ := packetWithoutInitialization_holds hvalid
    (Unwinding.header_fits domain answers writer.sequence (writer.timestamp answers).1)
  obtain ⟨packet, hwrite, hholds', hsequence'⟩ :=
    (hholds.withTables opened.sequence.tables).write hfit
  have htables : opened.sequence.tables = writer.sequence.tables :=
    (visible_tables hvisible).trans (header_tables ..)
  refine ⟨packet, fun dropped => { (writer.timestamp answers).2 with
    sequence := dropped.1
    written := (writer.timestamp answers).2.written ++
      [⟨(writer.sequence.header domain answers (writer.timestamp answers).1).1, calls,
        opened.sequence.tables.emitInternedData.1, dropped.2⟩] }, hholds', ?_, ?_,
    fun _ => rfl, ?_⟩
  · rw [hsequence']
    exact PrefixOf.append hsaved _
  · rw [Quiet, hsequence']
    change opened.sequence.tables.emitInternedData = ([], opened.sequence.tables)
    rw [htables]
    exact hquiet
  · simp only [writePacket, hsequence, hopen, Option.bind_eq_bind, Option.bind_some]
    change ((opened.withTables opened.sequence.tables).write calls).bind _ = _
    rw [hwrite, Option.bind_some]
    cases packet.drop <;> rfl

theorem writePacket_fits (hvalid : PrefixValid writer.sequence) (hquiet : Quiet writer.sequence)
    (hfit : Op.FitAll calls)
    (hlen : (Op.encodedAll
      ((writer.sequence.header domain answers (writer.timestamp answers).1).1 ++
        calls)).length ≤ maxMessageLen) :
    ∃ writer', writePacket domain answers writer (pure calls) = some writer' ∧
      PrefixValid writer'.sequence := by
  obtain ⟨packet, finish, hholds, hsaved, hclean, hfinish, heq⟩ :=
    writePacket_drop domain answers hvalid hquiet hfit
  have hdrop := hholds.drop hsaved
  rw [hclean, List.append_nil] at hdrop
  obtain ⟨sequence, hdropped, -, hprefixed⟩ := hdrop trivial hlen
  refine ⟨_, by rw [heq, hdropped]; rfl, ?_⟩
  rw [hfinish]
  exact hprefixed

theorem fits_of_writePacket (hvalid : PrefixValid writer.sequence)
    (hquiet : Quiet writer.sequence) {writer' : SequenceWriter}
    (h : writePacket domain answers writer (pure calls) = some writer') :
    Op.FitAll calls ∧ (Op.encodedAll
      ((writer.sequence.header domain answers (writer.timestamp answers).1).1 ++
        calls)).length ≤ maxMessageLen := by
  have hfit : Op.FitAll calls := by
    simp only [writePacket, Option.bind_eq_bind, Option.bind_eq_some_iff] at h
    obtain ⟨opened, -, h⟩ := h
    change ((opened.withTables opened.sequence.tables).write calls).bind _ = _ at h
    obtain ⟨packet, hwrite, -⟩ := Option.bind_eq_some_iff.1 h
    simp only [Packet.write, Option.bind_eq_bind, Option.bind_eq_some_iff] at hwrite
    obtain ⟨proto, hrun, -⟩ := hwrite
    exact Op.fitAll_of_runAll _ hrun
  refine ⟨hfit, ?_⟩
  obtain ⟨packet, finish, hholds, -, hclean, -, heq⟩ :=
    writePacket_drop domain answers hvalid hquiet hfit
  by_contra hlong
  obtain ⟨slot, hslot, hbuf⟩ := hholds.buf
  have hproto : packet.proto = ⟨packetTag ++ (slot ++ Op.encodedAll
      ((writer.sequence.header domain answers (writer.timestamp answers).1).1 ++ calls))⟩ :=
    congrArg ProtoBuffer.mk hbuf
  have hfinish : packet.proto.finishMessage packet.root = none := by
    rw [hholds.root, hproto, rootToken, finishMessage_slot _ _ _ hslot, if_neg hlong]
  have hdrop : packet.drop = none := by
    simp only [Packet.drop, Option.bind_eq_bind, Option.bind_eq_none_iff]
    intro written hwritten
    rw [hclean] at hwritten
    have hsame : written.proto = packet.proto ∧ written.root = packet.root := by
      simp only [Packet.write, Op.runAll, Option.bind_eq_bind, Option.bind_some,
        Option.some.injEq] at hwritten
      rw [← hwritten]
      exact ⟨rfl, rfl⟩
    rw [hsame.1, hsame.2, hfinish]
    simp
  rw [heq, hdrop] at h
  exact Option.some_ne_none _ h.symm

end Writes

/-! ## The clock snapshot fits -/

section Snapshot

theorem varintBytes_short (value : Nat) : (varintBytes value).length ≤ 10 :=
  writeVarintLoop_rounds 10 value

theorem tagBytes_short (id : Nat) (wireType : WireType) : (tagBytes id wireType).length ≤ 10 :=
  varintBytes_short _

theorem message_length (id : Nat) (body : List Op) :
    (Op.message id body).encoded.length ≤ (Op.encodedAll body).length + 14 := by
  have htag := tagBytes_short id .delimited
  have hslot : messageLenPrefixSize = 4 := rfl
  simp only [Op.encoded, framed, List.length_append, redundantGroups_length]
  omega

theorem varint_length (id value : Nat) : (Op.varint id value).encoded.length ≤ 20 := by
  have htag := tagBytes_short id .varint
  have hvalue := varintBytes_short value
  simp only [Op.encoded, List.length_append]
  omega

theorem redundantVarint_length (id value : Nat) :
    (Op.redundantVarint id value).encoded.length ≤ 20 := by
  have htag := tagBytes_short id .varint
  simp only [Op.encoded, List.length_append, redundantGroups_length]
  omega

theorem encodedAll_cons_length (op : Op) (ops : List Op) :
    (Op.encodedAll (op :: ops)).length = op.encoded.length + (Op.encodedAll ops).length := by
  rw [Op.encodedAll, List.length_append]

theorem snapshotClock_fits (clock : Nat × Nat) :
    (snapshotClock clock).Fits ∧ (snapshotClock clock).encoded.length ≤ 80 := by
  have hbody : (Op.encodedAll ([.varint ClockSnapshot.clockId clock.1,
      .varint ClockSnapshot.clockTimestamp clock.2] ++
        if clock.1 = ClockSnapshot.customClockId then
          [.varint ClockSnapshot.clockIsIncremental 1] else [])).length ≤ 60 := by
    have hid := varint_length ClockSnapshot.clockId clock.1
    have htime := varint_length ClockSnapshot.clockTimestamp clock.2
    have hflag := varint_length ClockSnapshot.clockIsIncremental 1
    have hnil : (Op.encodedAll []).length = 0 := rfl
    split
    · simp only [List.cons_append, List.nil_append, encodedAll_cons_length, hnil]
      omega
    · simp only [List.append_nil, encodedAll_cons_length, hnil]
      omega
  have hmax : 60 ≤ maxMessageLen := by decide
  have hlength := message_length ClockSnapshot.clocks ([.varint ClockSnapshot.clockId clock.1,
      .varint ClockSnapshot.clockTimestamp clock.2] ++
        if clock.1 = ClockSnapshot.customClockId then
          [.varint ClockSnapshot.clockIsIncremental 1] else [])
  constructor
  · rw [snapshotClock, Op.Fits]
    refine ⟨?_, hbody.trans hmax⟩
    split <;> simp [Op.FitAll, Op.Fits]
  · rw [snapshotClock]
    omega

theorem snapshotClocks_fit (clocks : List (Nat × Nat)) :
    Op.FitAll (clocks.map snapshotClock) ∧
      (Op.encodedAll (clocks.map snapshotClock)).length ≤ 80 * clocks.length := by
  induction clocks with
  | nil => exact ⟨trivial, Nat.zero_le _⟩
  | cons clock clocks ih =>
      obtain ⟨hfit, hlength⟩ := snapshotClock_fits clock
      constructor
      · rw [List.map_cons, Op.FitAll]
        exact ⟨hfit, ih.1⟩
      · rw [List.map_cons, encodedAll_cons_length, List.length_cons]
        omega

theorem clockSnapshotCalls_fit (domain : ClockDomain) (answers : Answers) (raw anchor : Nat) :
    Op.FitAll (clockSnapshotCalls domain answers raw anchor) ∧
      (Op.encodedAll (clockSnapshotCalls domain answers raw anchor)).length ≤ 400 := by
  obtain ⟨hfit, hclocks⟩ := snapshotClocks_fit (snapshotClocks domain answers raw anchor)
  have hfour : (snapshotClocks domain answers raw anchor).length ≤ 4 := by
    simp only [snapshotClocks]
    split <;> split <;> first | (split <;> simp) | simp
  have hprimary := varint_length ClockSnapshot.primaryTraceClock (primaryClockId domain)
  have hlength := message_length TracePacket.clockSnapshot
    (.varint ClockSnapshot.primaryTraceClock (primaryClockId domain) ::
      (snapshotClocks domain answers raw anchor).map snapshotClock)
  have hmax : 400 ≤ maxMessageLen := by decide
  rw [encodedAll_cons_length] at hlength
  have hnil : (Op.encodedAll []).length = 0 := rfl
  constructor
  · rw [clockSnapshotCalls, Op.FitAll, Op.Fits, Op.FitAll, encodedAll_cons_length]
    exact ⟨⟨⟨by simp only [Op.Fits], hfit⟩, by omega⟩, trivial⟩
  · rw [clockSnapshotCalls, encodedAll_cons_length, hnil]
    omega

theorem firstPacketCalls_length (sequence : SequenceState) (timestamp clockId : Nat) :
    (Op.encodedAll (firstPacketCalls sequence timestamp clockId)).length ≤ 200 := by
  have hvarint := fun id value => varint_length id value
  have hdefaults := message_length TracePacket.tracePacketDefaults
    [.varint TracePacketDefaults.timestampClockId ClockSnapshot.customClockId,
      .message TracePacketDefaults.trackEventDefaults
        [.redundantVarint TrackEventDefaults.trackUuid sequence.threadTrackUuid]]
  have hevents := message_length TracePacketDefaults.trackEventDefaults
    [.redundantVarint TrackEventDefaults.trackUuid sequence.threadTrackUuid]
  have huuid := redundantVarint_length TrackEventDefaults.trackUuid sequence.threadTrackUuid
  have hnil : (Op.encodedAll []).length = 0 := rfl
  have hid := hvarint TracePacketDefaults.timestampClockId ClockSnapshot.customClockId
  have h1 := hvarint TracePacket.timestamp timestamp
  have h2 := hvarint TracePacket.trustedPacketSequenceId sequence.sequenceId
  have h3 := hvarint TracePacket.sequenceFlags
    (TracePacket.seqIncrementalStateCleared ||| TracePacket.seqNeedsIncrementalState)
  have h4 := hvarint TracePacket.firstPacketOnSequence 1
  have h5 := hvarint TracePacket.timestampClockId clockId
  simp only [encodedAll_cons_length, hnil] at hdefaults hevents
  simp only [firstPacketCalls, encodedAll_cons_length, hnil]
  omega

end Snapshot

/-! ## One thread -/

section Opened

variable {Thread : Type}

/-- The sequence of a thread between its clock snapshot and its own callback. -/
def opened (env : Environment Thread) (thread : Thread) : SequenceState :=
  { SequenceState.new (env.sequenceId thread) (env.threadTrackUuid thread)
      (env.clockAnchorNs thread) with
    lastTimestampNs := (env.answers thread).rawClock
    initialized := true
    firstPacketDone := true }

/-- The thread has written its clock snapshot and packets with these bodies. -/
structure Opened (env : Environment Thread) (thread : Thread) (bodies : List (List Op))
    (writer : SequenceWriter) : Prop where
  written : ∃ snapshot, writer.written.map Written.body = snapshot :: bodies
  timestampNs : writer.timestampNs = some (env.answers thread).rawClock
  valid : PrefixValid writer.sequence
  sequence : visible writer.sequence = visible (opened env thread)

variable {env : Environment Thread} {thread : Thread} {bodies : List (List Op)}
variable {writer writer' : SequenceWriter} {calls : List Op}

theorem Opened.quiet (h : Opened env thread bodies writer) : Quiet writer.sequence := by
  have htables : writer.sequence.tables = InternTables.new := visible_tables h.sequence
  rw [Quiet, htables]
  rfl

theorem Opened.timestamp (h : Opened env thread bodies writer) :
    (writer.timestamp (env.answers thread)).1 = (env.answers thread).rawClock := by
  simp only [SequenceWriter.timestamp, h.timestampNs]

theorem Opened.header (h : Opened env thread bodies writer) :
    (writer.sequence.header env.domain (env.answers thread)
      (writer.timestamp (env.answers thread)).1).1 =
        laterHeader (env.sequenceId thread) 0 := by
  rw [h.timestamp, (header_visible env.domain (env.answers thread) h.sequence _).1]
  have hdelta : (env.answers thread).rawClock - (env.answers thread).rawClock = 0 :=
    Nat.sub_self _
  simp only [SequenceState.header, opened, if_true, SequenceState.delta, hdelta]
  rfl

theorem Opened.next (h : Opened env thread bodies writer)
    (hwrite : writePacket env.domain (env.answers thread) writer (pure calls) = some writer')
    (hvalid : PrefixValid writer'.sequence) :
    Opened env thread (bodies ++ [calls]) writer' := by
  obtain ⟨packet, -, hwrote⟩ := writes_writePacket _ _ _ _ _ hwrite
  obtain ⟨snapshot, hwritten⟩ := h.written
  refine ⟨⟨snapshot, ?_⟩, hwrote.timestampNs.trans (congrArg some h.timestamp), hvalid, ?_⟩
  · rw [hwrote.written, List.map_append, hwritten, List.map_singleton, hwrote.body]
    rfl
  · rw [hwrote.sequence]
    change visible ((writer.sequence.header _ _ _).2.withTables
      writer.sequence.tables.emitInternedData.2) = _
    rw [h.quiet]
    have hheader := (header_visible env.domain (env.answers thread) h.sequence
      (writer.timestamp (env.answers thread)).1).2
    have htables := visible_tables h.sequence
    rw [h.timestamp] at hheader ⊢
    rw [htables]
    exact withTables_visible _ hheader

theorem Opened.write (h : Opened env thread bodies writer) (hfits : Fits env thread calls) :
    ∃ writer', writePacket env.domain (env.answers thread) writer (pure calls) = some writer' ∧
      Opened env thread (bodies ++ [calls]) writer' := by
  have hlen := hfits.2
  rw [← h.header] at hlen
  obtain ⟨writer', hwrite, hvalid⟩ := writePacket_fits h.valid h.quiet hfits.1 hlen
  exact ⟨writer', hwrite, h.next hwrite hvalid⟩

theorem Opened.fits (h : Opened env thread bodies writer)
    (hwrite : writePacket env.domain (env.answers thread) writer (pure calls) = some writer') :
    Fits env thread calls := by
  obtain ⟨hfit, hlen⟩ := fits_of_writePacket h.valid h.quiet hwrite
  rw [h.header] at hlen
  exact ⟨hfit, hlen⟩

theorem Opened.wrote (h : Opened env thread bodies writer)
    (hwrite : writePacket env.domain (env.answers thread) writer (pure calls) = some writer') :
    Opened env thread (bodies ++ [calls]) writer' := by
  obtain ⟨next, hnext, hopened⟩ := h.write (h.fits hwrite)
  obtain rfl : writer' = next := Option.some.inj (hwrite.symm.trans hnext)
  exact hopened

/-- The first packet of a sequence always comes out. -/
theorem snapshot_opened (env : Environment Thread) (thread : Thread) :
    ∃ writer, clockSnapshot env.domain writePacket (env.answers thread)
        (markInitialized (env.writer thread)) = some writer ∧
      Opened env thread [] writer := by
  let start := readSnapshotClock (env.answers thread) (markInitialized (env.writer thread))
  have hheader : ∃ timestamp clockId, (start.sequence.header env.domain (env.answers thread)
      (start.timestamp (env.answers thread)).1).1 =
        firstPacketCalls start.sequence timestamp clockId := ⟨_, _, rfl⟩
  obtain ⟨timestamp, clockId, hheader⟩ := hheader
  obtain ⟨hfit, hlength⟩ := clockSnapshotCalls_fit env.domain (env.answers thread)
    start.sequence.lastTimestampNs start.sequence.clockAnchorNs
  have hlen : (Op.encodedAll ((start.sequence.header env.domain (env.answers thread)
      (start.timestamp (env.answers thread)).1).1 ++
        clockSnapshotCalls env.domain (env.answers thread) start.sequence.lastTimestampNs
          start.sequence.clockAnchorNs)).length ≤ maxMessageLen := by
    have hfirst := firstPacketCalls_length start.sequence timestamp clockId
    have hmax : 600 ≤ maxMessageLen := by decide
    rw [hheader, Op.encodedAll_append, List.length_append]
    omega
  have hfresh : PrefixValid start.sequence := Or.inl rfl
  have hquiet : Quiet start.sequence := rfl
  obtain ⟨writer, hwrite, hvalid⟩ := writePacket_fits hfresh hquiet hfit hlen
  obtain ⟨packet, -, hwrote⟩ := writes_writePacket _ _ _ _ _ hwrite
  refine ⟨writer, hwrite, ⟨packet.body, ?_⟩, hwrote.timestampNs, hvalid, hwrote.sequence⟩
  rw [hwrote.written]
  rfl

end Opened

/-! ## Runs -/

section Runs

variable {Thread : Type} [DecidableEq Thread] {env : Environment Thread}
variable {state next : State Thread}

def processBodies (env : Environment Thread) (thread : Thread) (mine : Bool) : List (List Op) :=
  if mine then [(processCalls env thread).1] else []

/-- What a thread has written, by its phase. -/
def Reached (env : Environment Thread) (thread : Thread) (starting : Starting) : Prop :=
  match starting.phase with
  | .fresh => starting.writer = env.writer thread
  | .marked => starting.writer = markInitialized (env.writer thread)
  | .snapshotted | .claimed _ => Opened env thread [] starting.writer
  | .described mine => Opened env thread (processBodies env thread mine) starting.writer
  | .returned mine => Opened env thread
      (processBodies env thread mine ++ [threadCalls env thread]) starting.writer
  | .panicked => (processCalls env thread).2 = true

/-- The thread has found the flag unset. -/
def Phase.mine : Phase → Bool
  | .claimed mine | .described mine | .returned mine => mine
  | .panicked => true
  | _ => false

structure Sound (env : Environment Thread) (state : State Thread) : Prop where
  reached : ∀ thread, Reached env thread (state.threads thread)
  emitted : state.processDescEmitted = state.claimer.isSome
  mine : ∀ thread, (state.threads thread).phase.mine = true ↔ state.claimer = some thread

omit [DecidableEq Thread] in
theorem sound_new (env : Environment Thread) : Sound env (State.new env) where
  reached := fun _ => rfl
  emitted := rfl
  mine := fun _ => by simp [State.new, Phase.mine]

theorem Sound.put (h : Sound env state) {thread : Thread} {phase : Phase}
    {writer : SequenceWriter} (hreached : Reached env thread ⟨phase, writer⟩)
    (hmine : phase.mine = (state.threads thread).phase.mine) :
    Sound env (state.put thread phase writer) := by
  refine ⟨?_, h.emitted, ?_⟩
  · exact (Function.forall_update_iff _ fun other starting => Reached env other starting).2
      ⟨hreached, fun other _ => h.reached other⟩
  · refine (Function.forall_update_iff _ fun other (starting : Starting) =>
      starting.phase.mine = true ↔ state.claimer = some other).2 ⟨?_, fun other _ => h.mine other⟩
    rw [hmine]
    exact h.mine thread

theorem Sound.wrote (h : Sound env state) {thread : Thread} {phase : Phase}
    {result : Option SequenceWriter}
    (hreached : ∀ writer, result = some writer → Reached env thread ⟨phase, writer⟩)
    (hmine : phase.mine = (state.threads thread).phase.mine) :
    Sound env (state.wrote thread phase result) := by
  cases result with
  | none => exact ⟨h.reached, h.emitted, h.mine⟩
  | some writer => exact h.put (hreached writer rfl) hmine

/-- The swap: only the first thread claims the descriptor. -/
theorem Sound.claim (h : Sound env state) {thread : Thread} {writer : SequenceWriter}
    (hopened : Opened env thread [] writer)
    (hmine : (state.threads thread).phase.mine = false) :
    Sound env { state.put thread (.claimed !state.processDescEmitted) writer with
      processDescEmitted := true
      claimer := if state.processDescEmitted then state.claimer else some thread } := by
  have hother : state.claimer ≠ some thread := by
    intro hclaimer
    rw [(h.mine thread).2 hclaimer] at hmine
    exact Bool.noConfusion hmine
  have hreached : ∀ other, Reached env other
      ((Function.update state.threads thread ⟨.claimed !state.processDescEmitted, writer⟩)
        other) :=
    (Function.forall_update_iff _ fun other starting => Reached env other starting).2
      ⟨hopened, fun other _ => h.reached other⟩
  cases hemitted : state.processDescEmitted with
  | true =>
      have hsome := h.emitted
      rw [hemitted] at hsome hreached
      refine ⟨hreached, hsome, ?_⟩
      refine (Function.forall_update_iff _ fun other (starting : Starting) =>
        starting.phase.mine = true ↔ state.claimer = some other).2
          ⟨?_, fun other _ => h.mine other⟩
      exact iff_of_false Bool.false_ne_true hother
  | false =>
      have hnone : state.claimer = none := by
        rw [← Option.not_isSome_iff_eq_none, ← h.emitted, hemitted]
        exact Bool.false_ne_true
      rw [hemitted] at hreached
      refine ⟨hreached, rfl, ?_⟩
      refine (Function.forall_update_iff _ fun other (starting : Starting) =>
        starting.phase.mine = true ↔ some thread = some other).2 ⟨?_, fun other hne => ?_⟩
      · exact iff_of_true rfl rfl
      · rw [h.mine other, hnone]
        simp [Ne.symm hne]

theorem step_sound (h : Sound env state) {thread : Thread}
    (hstep : step env state thread = some next) : Sound env next := by
  have hreached := h.reached thread
  simp only [step] at hstep
  split at hstep
  · exact absurd hstep (by simp)
  · rw [Reached] at hreached
    cases hphase : (state.threads thread).phase with
    | fresh =>
        simp only [hphase, Option.some.injEq] at hstep hreached
        rw [← hstep, hreached]
        exact h.put rfl (by rw [hphase]; rfl)
    | marked =>
        simp only [hphase, Option.some.injEq] at hstep hreached
        rw [← hstep, hreached]
        refine h.wrote (fun writer hwriter => ?_) (by rw [hphase]; rfl)
        obtain ⟨first, hfirst, hopened⟩ := snapshot_opened env thread
        obtain rfl : writer = first := Option.some.inj (hwriter.symm.trans hfirst)
        exact hopened
    | snapshotted =>
        simp only [hphase, Option.some.injEq] at hstep hreached
        rw [← hstep]
        exact h.claim hreached (by rw [hphase]; rfl)
    | claimed mine =>
        simp only [hphase] at hreached
        cases mine with
        | false =>
            simp only [hphase, Option.some.injEq] at hstep
            rw [← hstep]
            exact h.put hreached (by rw [hphase]; rfl)
        | true =>
            simp only [hphase, Option.some.injEq] at hstep
            rw [← hstep]
            refine h.wrote (fun writer hwriter => ?_) ?_
            · have hwrote := hreached.wrote hwriter
              split
              · assumption
              · exact hwrote
            · rw [hphase]
              split <;> rfl
    | described mine =>
        simp only [hphase, Option.some.injEq] at hstep hreached
        rw [← hstep]
        refine h.wrote (fun writer hwriter => ?_) (by rw [hphase]; rfl)
        have huuid := congrArg SequenceState.threadTrackUuid hreached.sequence
        have hthread : (state.threads thread).writer.sequence.threadTrackUuid =
            env.threadTrackUuid thread := huuid
        rw [threadDescriptor, hthread] at hwriter
        exact hreached.wrote hwriter
    | returned mine => simp [hphase] at hstep
    | panicked => simp [hphase] at hstep

theorem run_sound {labels : List Thread} (h : Sound env state)
    (hrun : run env labels state = some next) : Sound env next := by
  induction labels generalizing state with
  | nil =>
      simp only [run, List.foldlM_nil, Option.pure_def, Option.some.injEq] at hrun
      exact hrun ▸ h
  | cons label labels ih =>
      simp only [run, List.foldlM_cons, Option.bind_eq_bind, Option.bind_eq_some_iff] at hrun
      obtain ⟨middle, hstep, hrest⟩ := hrun
      exact ih (step_sound h hstep) hrest

/-! ## When every descriptor can be written -/

/-- Nothing has gone wrong so far. -/
structure Smooth (state : State Thread) : Prop where
  fits : state.overflowed = false
  returns : ∀ thread, (state.threads thread).phase ≠ .panicked

theorem Smooth.put (h : Smooth state) (thread : Thread) {phase : Phase} (writer : SequenceWriter)
    (hphase : phase ≠ .panicked) : Smooth (state.put thread phase writer) := by
  refine ⟨h.fits, ?_⟩
  exact (Function.forall_update_iff _ fun _ (starting : Starting) =>
    starting.phase ≠ .panicked).2 ⟨hphase, fun other _ => h.returns other⟩

theorem Smooth.wrote (h : Smooth state) (thread : Thread) {phase : Phase}
    {result : Option SequenceWriter} (hphase : phase ≠ .panicked)
    (hresult : ∃ writer, result = some writer) : Smooth (state.wrote thread phase result) := by
  obtain ⟨writer, rfl⟩ := hresult
  exact h.put thread writer hphase

theorem step_smooth (hall : ∀ thread, Describable env thread) (hsound : Sound env state)
    (h : Smooth state) {thread : Thread} (hstep : step env state thread = some next) :
    Smooth next := by
  have hreached := hsound.reached thread
  simp only [step, h.fits, Bool.false_eq_true, if_false] at hstep
  rw [Reached] at hreached
  cases hphase : (state.threads thread).phase with
  | fresh =>
      simp only [hphase, Option.some.injEq] at hstep
      exact hstep ▸ h.put thread _ (by simp)
  | marked =>
      simp only [hphase, Option.some.injEq] at hstep hreached
      rw [← hstep, hreached]
      obtain ⟨writer, hwriter, -⟩ := snapshot_opened env thread
      exact h.wrote thread (by simp) ⟨writer, hwriter⟩
  | snapshotted =>
      simp only [hphase, Option.some.injEq] at hstep
      have hput : Smooth (state.put thread (.claimed !state.processDescEmitted)
          (state.threads thread).writer) := h.put thread _ (by simp)
      rw [← hstep]
      exact ⟨hput.fits, hput.returns⟩
  | claimed mine =>
      simp only [hphase] at hreached
      cases mine with
      | false =>
          simp only [hphase, Option.some.injEq] at hstep
          exact hstep ▸ h.put thread _ (by simp)
      | true =>
          simp only [hphase, Option.some.injEq] at hstep
          have hvalid : (processCalls env thread).2 = false := by
            rw [← Bool.not_eq_true, processCalls_panics]
            exact fun hinvalid => (hall thread).unicode hinvalid.1 hinvalid.2
          rw [← hstep, hvalid]
          obtain ⟨writer, hwriter, -⟩ := hreached.write (hall thread).process
          exact h.wrote thread (by simp) ⟨writer, hwriter⟩
  | described mine =>
      simp only [hphase, Option.some.injEq] at hstep hreached
      rw [← hstep]
      have hthread : (state.threads thread).writer.sequence.threadTrackUuid =
          env.threadTrackUuid thread :=
        congrArg SequenceState.threadTrackUuid hreached.sequence
      obtain ⟨writer, hwriter, -⟩ := hreached.write (hall thread).thread
      refine h.wrote thread (by simp) ⟨writer, ?_⟩
      rw [threadDescriptor, hthread]
      exact hwriter
  | returned mine => simp [hphase] at hstep
  | panicked => simp [hphase] at hstep

theorem run_smooth (hall : ∀ thread, Describable env thread) {labels : List Thread}
    (hsound : Sound env state) (h : Smooth state) (hrun : run env labels state = some next) :
    Smooth next := by
  induction labels generalizing state with
  | nil =>
      simp only [run, List.foldlM_nil, Option.pure_def, Option.some.injEq] at hrun
      exact hrun ▸ h
  | cons label labels ih =>
      simp only [run, List.foldlM_cons, Option.bind_eq_bind, Option.bind_eq_some_iff] at hrun
      obtain ⟨middle, hstep, hrest⟩ := hrun
      exact ih (step_sound hsound hstep) (step_smooth hall hsound h hstep) hrest

theorem exists_last {packets : List Written} {bodies : List (List Op)} {calls : List Op}
    (h : packets.map Written.body = bodies ++ [calls]) :
    ∃ before packet, packets = before ++ [packet] ∧ packet.body = calls := by
  obtain ⟨before, last, rfl, -, hlast⟩ := List.map_eq_append_iff.1 h
  obtain ⟨packet, rfl, hpacket⟩ := List.map_eq_singleton_iff.1 hlast
  exact ⟨before, packet, rfl, hpacket⟩

omit [DecidableEq Thread] in
theorem ended_opened (hsound : Sound env state) (hsmooth : Smooth state) {thread : Thread}
    (hended : (state.threads thread).phase.ended = true) :
    ∃ mine, (state.threads thread).phase = .returned mine ∧
      Opened env thread (processBodies env thread mine ++ [threadCalls env thread])
        (state.threads thread).writer := by
  have hreached := hsound.reached thread
  rw [Reached] at hreached
  cases hphase : (state.threads thread).phase with
  | returned mine =>
      simp only [hphase] at hreached
      exact ⟨mine, rfl, hreached⟩
  | panicked => exact absurd hphase (hsmooth.returns thread)
  | fresh | marked | snapshotted | claimed mine | described mine =>
      rw [hphase] at hended
      exact absurd hended Bool.false_ne_true

omit [DecidableEq Thread] in
theorem complete_of_smooth (hall : ∀ thread, Describable env thread) (hsound : Sound env state)
    (hsmooth : Smooth state) : Complete env state := by
  refine ⟨hsmooth.fits, hsmooth.returns, ?_, ?_⟩
  · rintro thread - hended
    obtain ⟨mine, -, hopened⟩ := ended_opened hsound hsmooth hended
    obtain ⟨snapshot, hwritten⟩ := hopened.written
    rw [← List.cons_append] at hwritten
    exact exists_last hwritten
  · intro hemitted
    rw [hsound.emitted] at hemitted
    obtain ⟨thread, hclaimer⟩ := Option.isSome_iff_exists.1 hemitted
    refine ⟨thread, hclaimer, fun hended => ?_⟩
    obtain ⟨mine, hphase, hopened⟩ := ended_opened hsound hsmooth hended
    have hmine := (hsound.mine thread).2 hclaimer
    rw [hphase] at hmine
    change mine = true at hmine
    subst hmine
    obtain ⟨snapshot, hwritten⟩ := hopened.written
    obtain ⟨arguments, harguments, hcalls⟩ :=
      processCalls_valid env thread (hall thread).unicode
    simp only [processBodies, if_true, List.singleton_append, List.map_eq_cons_iff,
      List.map_eq_nil_iff] at hwritten
    obtain ⟨first, -, hfirst, -, second, -, rfl, hsecond, third, -, rfl, hthird, rfl⟩ := hwritten
    exact ⟨arguments, first, second, third, harguments, hfirst, hsecond.trans hcalls, hthird⟩

/-! ## A thread that is the first -/

theorem wrote_some {thread : Thread} {phase : Phase} {result : Option SequenceWriter}
    (h : Smooth (state.wrote thread phase result)) :
    ∃ writer, result = some writer ∧ phase ≠ .panicked := by
  cases result with
  | none => exact absurd h.fits (by simp [State.wrote])
  | some writer =>
      refine ⟨writer, rfl, ?_⟩
      have hphase := h.returns thread
      simp only [State.wrote, State.put, Function.update_self] at hphase
      exact hphase

/-- A thread that runs alone up to its claim. -/
theorem alone_claims (env : Environment Thread) (thread : Thread) :
    ∃ state writer, run env [thread, thread, thread] (State.new env) = some state ∧
      state.overflowed = false ∧ state.threads thread = ⟨.claimed true, writer⟩ ∧
      Opened env thread [] writer := by
  obtain ⟨writer, hsnapshot, hopened⟩ := snapshot_opened env thread
  let marked := (State.new env).put thread .marked (markInitialized (env.writer thread))
  let snapshotted := marked.put thread .snapshotted writer
  have hmark : step env (State.new env) thread = some marked := rfl
  have hsnapshotted : step env marked thread = some snapshotted := by
    simp only [marked, snapshotted, step, State.put, State.new, Bool.false_eq_true, if_false,
      Function.update_self, hsnapshot, State.wrote]
  have hclaim : step env snapshotted thread = some { snapshotted.put thread (.claimed true) writer
      with processDescEmitted := true, claimer := some thread } := by
    simp only [marked, snapshotted, step, State.put, State.new, Bool.false_eq_true, if_false,
      Function.update_self, Bool.not_false]
  refine ⟨{ snapshotted.put thread (.claimed true) writer with
    processDescEmitted := true, claimer := some thread }, writer, ?_, rfl,
    Function.update_self .., hopened⟩
  simp only [run, List.foldlM_cons, List.foldlM_nil, Option.bind_eq_bind, hmark,
    Option.bind_some, hsnapshotted, hclaim, Option.pure_def]

theorem describable_of_smooth (thread : Thread)
    (h : ∀ labels state, run env labels (State.new env) = some state → Smooth state) :
    Describable env thread := by
  obtain ⟨state, writer, hrun, hfits, hclaimed, hopened⟩ := alone_claims env thread
  have hprocess : step env state thread = some (state.wrote thread
      (if (processCalls env thread).2 then .panicked else .described true)
      (writePacket env.domain (env.answers thread) writer
        (pure (processCalls env thread).1))) := by
    simp only [step, hfits, Bool.false_eq_true, if_false, hclaimed]
  have hfourth : run env [thread, thread, thread, thread] (State.new env) = some (state.wrote
      thread (if (processCalls env thread).2 then .panicked else .described true)
      (writePacket env.domain (env.answers thread) writer
        (pure (processCalls env thread).1))) := by
    have hsplit : [thread, thread, thread, thread] = [thread, thread, thread] ++ [thread] := rfl
    rw [hsplit, run, List.foldlM_append]
    change (run env [thread, thread, thread] (State.new env)).bind _ = _
    rw [hrun, Option.bind_some, List.foldlM_cons, hprocess]
    rfl
  obtain ⟨described, hdescribed, hvalid⟩ := wrote_some (h _ _ hfourth)
  have hpanics : (processCalls env thread).2 = false := by
    rw [← Bool.not_eq_true]
    intro hpanics
    rw [if_pos hpanics] at hvalid
    exact hvalid rfl
  rw [hdescribed, hpanics] at hfourth
  have hopened' := hopened.wrote hdescribed
  have hthread : step env (state.wrote thread (.described true) (some described)) thread =
      some ((state.wrote thread (.described true) (some described)).wrote thread
        (.returned true)
        (threadDescriptor env.domain writePacket (env.answers thread) described)) := by
    simp only [step, State.wrote, State.put, hfits, Bool.false_eq_true, if_false,
      Function.update_self]
  have hfifth : run env ([thread, thread, thread, thread] ++ [thread]) (State.new env) =
      some ((state.wrote thread (.described true) (some described)).wrote thread
        (.returned true)
        (threadDescriptor env.domain writePacket (env.answers thread) described)) := by
    rw [run, List.foldlM_append]
    change (run env [thread, thread, thread, thread] (State.new env)).bind _ = _
    rw [hfourth, Option.bind_some, List.foldlM_cons]
    change (step env (state.wrote thread (.described true) (some described)) thread).bind _ = _
    rw [hthread]
    rfl
  obtain ⟨returned, hreturned, -⟩ := wrote_some (h _ _ hfifth)
  have huuid : described.sequence.threadTrackUuid = env.threadTrackUuid thread :=
    congrArg SequenceState.threadTrackUuid hopened'.sequence
  rw [threadDescriptor, huuid] at hreturned
  refine ⟨?_, hopened.fits hdescribed, hopened'.fits hreturned⟩
  intro hwanted hinvalid
  rw [(processCalls_panics env thread).2 ⟨hwanted, hinvalid⟩] at hpanics
  exact Bool.noConfusion hpanics

/-- The first callbacks go well, in any order, exactly when the arguments are valid
Unicode and the descriptors within the length limit. -/
theorem initialized_complete_iff (env : Environment Thread) :
    (∀ labels state, run env labels (State.new env) = some state → Complete env state) ↔
      ∀ thread, Describable env thread := by
  constructor
  · intro hcomplete thread
    apply describable_of_smooth thread
    intro labels state hrun
    exact ⟨(hcomplete labels state hrun).fits, (hcomplete labels state hrun).returns⟩
  · intro hall labels state hrun
    have hnew : Smooth (State.new env) := ⟨rfl, fun _ => by simp [State.new]⟩
    exact complete_of_smooth hall (run_sound (sound_new env) hrun)
      (run_smooth hall (sound_new env) hnew hrun)

end Runs

/-- A process with one thread whose second argument is not valid Unicode. -/
def sampleEnvironment : Environment Unit where
  config := ⟨.spanTracks, false, false, false, true, true⟩
  domain := .builtin 6
  arguments := [some [97], none]
  asked := fun _ => ⟨140, 9, 9, none, true, 77, 4, [112], [], 5, [116]⟩
  sequenceId := fun _ => 65536
  threadTrackUuid := fun _ => 3
  clockAnchorNs := fun _ => 100

def sampleRun : Option (State Unit) :=
  run sampleEnvironment [(), (), (), ()] (State.new sampleEnvironment)

/-- The flags are set, the descriptor has no name and the thread none at all. -/
theorem descriptor_truncated : ∃ state, sampleRun = some state ∧
    state.processDescEmitted = true ∧ (state.threads ()).writer.sequence.initialized = true ∧
    (state.threads ()).writer.written.length = 2 ∧ ¬ Complete sampleEnvironment state := by
  have hran : (sampleRun.map fun state => (state.processDescEmitted,
      (state.threads ()).writer.sequence.initialized, (state.threads ()).writer.written.length,
      (state.threads ()).phase)) = some (true, true, 2, .panicked) := by decide +kernel
  obtain ⟨state, hrun, hstate⟩ := Option.map_eq_some_iff.1 hran
  simp only [Prod.mk.injEq] at hstate
  obtain ⟨hemitted, hinitialized, hlength, hphase⟩ := hstate
  exact ⟨state, hrun, hemitted, hinitialized, hlength,
    fun hcomplete => hcomplete.returns () hphase⟩

end TracingPerfetto.FirstCallbacks
