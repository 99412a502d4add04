import TracingPerfetto.Timestamps

/-!
Clock readings that go backwards. A packet's delta is never negative, but the next
one counts from the lower reading, so that the time a reader adds up runs ahead of
the clock from the first rise after a fall.
-/

namespace TracingPerfetto.ClockDrift

open TracingPerfetto.Wire TracingPerfetto.Proto TracingPerfetto.Runtime
open TracingPerfetto.Schema TracingPerfetto.Sequence
open TracingPerfetto.Sequence.SequenceWriter TracingPerfetto.SequenceRuns
open TracingPerfetto.TrackEvents TracingPerfetto.Timestamps

/-! ## Series of readings -/

/-- The steps forward of a series that starts at `last`, added up. -/
def climb : Nat → List Nat → Nat
  | _, [] => 0
  | last, reading :: readings => (reading - last) + climb reading readings

/-- The series does not rise again once it has fallen. -/
def FallsLast (readings : List Nat) : Prop :=
  ∃ rising falling, readings = rising ++ falling ∧ rising.Pairwise (· ≤ ·) ∧
    falling.Pairwise (· ≥ ·)

/-- Counting the steps forward from `time` never leads past all values met. -/
def Bounded (time last : Nat) (readings : List Nat) : Prop :=
  ∀ n, ∃ largest ∈ time :: readings.take n, time + climb last (readings.take n) ≤ largest

theorem pairwise_ge_cons {first second : Nat} {readings : List Nat} (h : second ≤ first) :
    (first :: second :: readings).Pairwise (· ≥ ·) ↔
      (second :: readings).Pairwise (· ≥ ·) := by
  constructor
  · intro hall
    exact (List.pairwise_cons.1 hall).2
  · intro hrest
    refine List.pairwise_cons.2 ⟨?_, hrest⟩
    rw [List.forall_mem_cons]
    exact ⟨h, fun reading hreading => ((List.pairwise_cons.1 hrest).1 reading hreading).trans h⟩

theorem fallsLast_rises {first second : Nat} {readings : List Nat} (h : first ≤ second) :
    FallsLast (first :: second :: readings) ↔ FallsLast (second :: readings) := by
  constructor
  · rintro ⟨rising, falling, hsplit, hrising, hfalling⟩
    cases rising with
    | nil =>
        rw [List.nil_append] at hsplit
        subst hsplit
        exact ⟨[], second :: readings, rfl, .nil, (List.pairwise_cons.1 hfalling).2⟩
    | cons head rising =>
        rw [List.cons_append, List.cons.injEq] at hsplit
        exact ⟨rising, falling, hsplit.2, (List.pairwise_cons.1 hrising).2, hfalling⟩
  · rintro ⟨rising, falling, hsplit, hrising, hfalling⟩
    cases rising with
    | nil =>
        rw [List.nil_append] at hsplit
        refine ⟨[first], falling, by rw [hsplit]; rfl, List.pairwise_singleton _ _, hfalling⟩
    | cons head rising =>
        rw [List.cons_append, List.cons.injEq] at hsplit
        obtain ⟨rfl, rfl⟩ := hsplit
        refine ⟨first :: second :: rising, falling, rfl, List.pairwise_cons.2 ⟨?_, hrising⟩,
          hfalling⟩
        rw [List.forall_mem_cons]
        exact ⟨h, fun reading hreading => h.trans
          ((List.pairwise_cons.1 hrising).1 reading hreading)⟩

theorem fallsLast_falls {first second : Nat} {readings : List Nat} (h : second < first) :
    FallsLast (first :: second :: readings) ↔ (second :: readings).Pairwise (· ≥ ·) := by
  constructor
  · rintro ⟨rising, falling, hsplit, hrising, hfalling⟩
    rcases rising with _ | ⟨head, _ | ⟨next, rising⟩⟩
    · rw [List.nil_append] at hsplit
      subst hsplit
      exact (List.pairwise_cons.1 hfalling).2
    · rw [List.cons_append, List.nil_append, List.cons.injEq] at hsplit
      rwa [hsplit.2]
    · simp only [List.cons_append, List.cons.injEq] at hsplit
      obtain ⟨rfl, rfl, -⟩ := hsplit
      have hle : first ≤ second := (List.pairwise_cons.1 hrising).1 _ List.mem_cons_self
      omega
  · intro hfalling
    exact ⟨[first], second :: readings, rfl, List.pairwise_singleton _ _, hfalling⟩

theorem bounded_falls {time last reading : Nat} (readings : List Nat) (hfall : reading ≤ last)
    (htime : last ≤ time) :
    Bounded time last (reading :: readings) ↔ Bounded time reading readings := by
  have hclimb : ∀ n, climb last ((reading :: readings).take (n + 1)) =
      climb reading (readings.take n) := by
    intro n
    simp only [List.take_succ_cons, climb]
    omega
  constructor
  · intro hbounded n
    obtain ⟨largest, hmem, hbound⟩ := hbounded (n + 1)
    rw [hclimb] at hbound
    simp only [List.take_succ_cons, List.mem_cons] at hmem
    rcases hmem with rfl | rfl | hmem
    · exact ⟨largest, List.mem_cons_self, hbound⟩
    · exact ⟨time, List.mem_cons_self, by omega⟩
    · exact ⟨largest, List.mem_cons_of_mem _ hmem, hbound⟩
  · intro hbounded n
    cases n with
    | zero => exact ⟨time, List.mem_cons_self, by simp [climb]⟩
    | succ n =>
        obtain ⟨largest, hmem, hbound⟩ := hbounded n
        refine ⟨largest, ?_, by rwa [hclimb]⟩
        rw [List.take_succ_cons]
        rcases List.mem_cons.1 hmem with rfl | hmem
        · exact List.mem_cons_self
        · exact List.mem_cons_of_mem _ (List.mem_cons_of_mem _ hmem)

theorem bounded_rises {time reading : Nat} (readings : List Nat) (hrise : time ≤ reading) :
    Bounded time time (reading :: readings) ↔ Bounded reading reading readings := by
  have hclimb : ∀ n, time + climb time ((reading :: readings).take (n + 1)) =
      reading + climb reading (readings.take n) := by
    intro n
    simp only [List.take_succ_cons, climb]
    omega
  constructor
  · intro hbounded n
    obtain ⟨largest, hmem, hbound⟩ := hbounded (n + 1)
    rw [hclimb] at hbound
    simp only [List.take_succ_cons, List.mem_cons] at hmem
    rcases hmem with rfl | rfl | hmem
    · exact ⟨reading, List.mem_cons_self, by omega⟩
    · exact ⟨largest, List.mem_cons_self, hbound⟩
    · exact ⟨largest, List.mem_cons_of_mem _ hmem, hbound⟩
  · intro hbounded n
    cases n with
    | zero => exact ⟨time, List.mem_cons_self, by simp [climb]⟩
    | succ n =>
        obtain ⟨largest, hmem, hbound⟩ := hbounded n
        exact ⟨largest, List.mem_cons_of_mem _ hmem, by rwa [hclimb]⟩

theorem bounded_behind {time last : Nat} (readings : List Nat) (h : last < time) :
    Bounded time last readings ↔ (last :: readings).Pairwise (· ≥ ·) := by
  induction readings generalizing last with
  | nil =>
      constructor
      · intro _
        exact List.pairwise_singleton _ _
      · intro _ n
        exact ⟨time, List.mem_cons_self, by simp [climb]⟩
  | cons reading readings ih =>
      rcases Nat.lt_or_ge last reading with hrise | hfall
      · constructor
        · intro hbounded
          obtain ⟨largest, hmem, hle⟩ := hbounded 1
          simp only [List.take_succ_cons, List.take_zero, climb, List.mem_cons,
            List.not_mem_nil, or_false] at hmem hle
          omega
        · intro hfalling
          have hle : reading ≤ last := (List.pairwise_cons.1 hfalling).1 _ List.mem_cons_self
          omega
      · rw [pairwise_ge_cons hfall, ← ih (Nat.lt_of_le_of_lt hfall h)]
        exact bounded_falls readings hfall h.le

theorem bounded_level (time : Nat) (readings : List Nat) :
    Bounded time time readings ↔ FallsLast (time :: readings) := by
  induction readings generalizing time with
  | nil =>
      constructor
      · intro _
        exact ⟨[time], [], rfl, List.pairwise_singleton _ _, .nil⟩
      · intro _ n
        exact ⟨time, List.mem_cons_self, by simp [climb]⟩
  | cons reading readings ih =>
      rcases Nat.lt_or_ge reading time with hfall | hrise
      · rw [fallsLast_falls hfall, ← bounded_behind readings hfall]
        exact bounded_falls readings hfall.le le_rfl
      · rw [fallsLast_rises hrise, ← ih reading]
        exact bounded_rises readings hrise

/-! ## One packet -/

/-- What a packet adds to its sequence's clock. A packet that names a clock stands
for itself. -/
def delta (packet : List Field) : Nat :=
  match varints TracePacket.timestampClockId packet with
  | [] => (varints TracePacket.timestamp packet).headD 0
  | _ :: _ => 0

def elapsed (packets : List Written) : Nat :=
  (packets.map fun packet => delta (Written.decoded packet)).sum

/-- The trace clock after these packets, which begin with a snapshot taken at
`start`. -/
def traceTime (start : Nat) (packets : List Written) : Nat := start + elapsed packets

theorem elapsed_append (packets more : List Written) :
    elapsed (packets ++ more) = elapsed packets + elapsed more := by
  rw [elapsed, List.map_append, List.sum_append]
  rfl

theorem elapsed_mono {packets all : List Written} (h : packets <+: all) :
    elapsed packets ≤ elapsed all := by
  obtain ⟨rest, rfl⟩ := h
  rw [elapsed_append]
  exact Nat.le_add_right _ _

/-- The reading that the sequence counts from, if there is one yet. -/
structure Clocked (last : Option Nat) (sequence : SequenceState) : Prop where
  fresh : last = none → sequence.initialized = false ∧ sequence.firstPacketDone = false
  live : ∀ reading, last = some reading → sequence.initialized = true ∧
    sequence.firstPacketDone = true ∧ sequence.lastTimestampNs = reading

/-- How far the readings of a callback move the clock. -/
def moved : Option Nat → List Nat → Nat
  | none, [] => 0
  | none, first :: readings => climb first readings
  | some last, readings => climb last readings

theorem moved_append (last : Option Nat) (reading : Nat) (readings : List Nat) :
    moved last (reading :: readings) = moved last [reading] + climb reading readings := by
  cases last <;> simp [moved, climb]

section Callback

variable {config : Config} {domain : ClockDomain} {last : Option Nat} {raw : Nat}
variable {write : ClockDomain → Answers → SequenceWriter → Encode (List Op) →
  Option SequenceWriter} {made : Written → Prop}
variable {answers : Answers} {writer writer' : SequenceWriter} {body : Encode (List Op)}
variable {packet : Written}

theorem wrote_counts {before : Nat} (h : Clocked (some before) writer.sequence)
    (hraw : (writer.timestamp answers).1 = raw) (hbody : ∀ tables, Clockless (body tables).1)
    (hwrote : Wrote domain answers writer body writer' packet) :
    delta (Written.decoded packet) = raw - before ∧ Clocked (some raw) writer'.sequence := by
  obtain ⟨hinit, hdone, hlast⟩ := h.live before rfl
  have hheader : packet.header = prefixCalls writer.sequence.sequenceId ++
      [.varint TracePacket.timestamp (raw - before)] := by
    rw [hwrote.header, SequenceState.header, if_pos hdone, hraw, SequenceState.delta, hlast]
  have hrest : Clockless (packet.body ++ packet.interned) := by
    rw [hwrote.body, hwrote.interned]
    exact (hbody _).append (clockless_emitInternedData _)
  constructor
  · have hclock : varints TracePacket.timestampClockId (Written.decoded packet) = [] := by
      rw [Written.decoded, Written.calls, Op.fields_append, varints_append, hrest.clockId,
        hheader]
      rfl
    rw [delta, hclock, Written.decoded, Written.calls, Op.fields_append, varints_append, hheader]
    rfl
  · have hsequence := hwrote.sequence
    have hlast' := congrArg SequenceState.lastTimestampNs hsequence
    have hinit' := congrArg SequenceState.initialized hsequence
    have hdone' := congrArg SequenceState.firstPacketDone hsequence
    simp only [visible, SequenceState.withTables, SequenceState.header, hdone, if_true,
      hraw] at hlast' hinit' hdone'
    refine ⟨by simp, ?_⟩
    intro reading hreading
    rw [← Option.some.inj hreading]
    exact ⟨hinit'.trans hinit, hdone', hlast'⟩

theorem snapshot_counts (hwrites : Writes write made) (h : Clocked none writer.sequence)
    (hraw : (writer.timestamp answers).1 = raw)
    (hsnapshot : clockSnapshot domain write answers (markInitialized writer) = some writer') :
    ∃ packet, writer'.written = writer.written ++ [packet] ∧
      writer'.timestampNs = some raw ∧ delta (Written.decoded packet) = 0 ∧
      Clocked (some raw) writer'.sequence := by
  obtain ⟨hinit, hdone⟩ := h.fresh rfl
  simp only [clockSnapshot] at hsnapshot
  obtain ⟨packet, _, hwrote⟩ := hwrites _ _ _ _ _ hsnapshot
  have hread : readSnapshotClock answers (markInitialized writer) =
      ⟨{ writer.sequence with initialized := true, lastTimestampNs := raw }, some raw,
        writer.written⟩ := by
    cases hstamp : writer.timestampNs <;>
      simp_all [readSnapshotClock, SequenceWriter.timestamp, markInitialized]
  rw [hread] at hwrote
  refine ⟨packet, hwrote.written, hwrote.timestampNs, ?_, ?_⟩
  · have hheader := hwrote.header
    simp only [SequenceState.header, SequenceWriter.timestamp, hdone, Bool.false_eq_true,
      if_false] at hheader
    rw [delta, Written.decoded, Written.calls, Op.fields_append, varints_append, hheader]
    rfl
  · have hsequence := hwrote.sequence
    simp only [SequenceState.header, SequenceWriter.timestamp, hdone, Bool.false_eq_true,
      if_false] at hsequence
    have hlast := congrArg SequenceState.lastTimestampNs hsequence
    have hinit' := congrArg SequenceState.initialized hsequence
    have hdone' := congrArg SequenceState.firstPacketDone hsequence
    simp only [visible, SequenceState.withTables] at hlast hinit' hdone'
    refine ⟨by simp, ?_⟩
    intro reading hreading
    rw [← Option.some.inj hreading]
    exact ⟨hinit', hdone', hlast⟩

/-! ## One callback -/

/-- Where a writer stands in a callback that reads the clock at `raw`. -/
structure Counting (last : Option Nat) (raw : Nat) (writer : SequenceWriter) : Prop where
  stamp : ∀ stamp, writer.timestampNs = some stamp → stamp = raw
  clocked : Clocked (if writer.timestampNs.isSome then some raw else last) writer.sequence
  total : elapsed writer.written =
    if writer.timestampNs.isSome then moved last [raw] else 0

theorem counting_wrote (h : Counting last raw writer)
    (hinit : writer.sequence.initialized = true) (hraw : (writer.timestamp answers).1 = raw)
    (hbody : ∀ tables, Clockless (body tables).1)
    (hwrote : Wrote domain answers writer body writer' packet) :
    Counting last raw writer' ∧ writer'.timestampNs = some raw := by
  have hstamp : writer'.timestampNs = some raw := by rw [hwrote.timestampNs, hraw]
  have hclocked := h.clocked
  have htotal := h.total
  obtain ⟨before, hbefore, hcount⟩ : ∃ before,
      (if writer.timestampNs.isSome then some raw else last) = some before ∧
        (if writer.timestampNs.isSome then moved last [raw] else 0) + (raw - before) =
          moved last [raw] := by
    cases hold : writer.timestampNs with
    | some stamp => exact ⟨raw, rfl, by simp⟩
    | none =>
        cases last with
        | some before => exact ⟨before, rfl, by simp [moved, climb]⟩
        | none =>
            rw [hold] at hclocked
            have hfresh := (hclocked.fresh rfl).1
            rw [hinit] at hfresh
            exact absurd hfresh (by decide)
  rw [hbefore] at hclocked
  obtain ⟨hdelta, hnext⟩ := wrote_counts hclocked hraw hbody hwrote
  refine ⟨⟨?_, ?_, ?_⟩, hstamp⟩
  · intro stamp h'
    rw [hstamp] at h'
    exact (Option.some.inj h').symm
  · rw [hstamp]
    exact hnext
  · rw [hwrote.written, elapsed_append, htotal, hstamp]
    simp only [elapsed, List.map_singleton, List.sum_singleton, hdelta, Option.isSome_some,
      if_true]
    exact hcount

theorem counting_write (hwrites : Writes write made) (h : Counting last raw writer)
    (hstamp : writer.timestampNs = some raw) (hbody : ∀ tables, Clockless (body tables).1)
    (hwrite : write domain answers writer body = some writer') :
    Counting last raw writer' ∧ writer'.timestampNs = some raw := by
  obtain ⟨packet, _, hwrote⟩ := hwrites _ _ _ _ _ hwrite
  have hclocked := h.clocked
  rw [hstamp] at hclocked
  refine counting_wrote h (hclocked.live raw rfl).1 ?_ hbody hwrote
  simp [SequenceWriter.timestamp, hstamp]

theorem counting_initializeSequence (hwrites : Writes write made)
    (h : Counting last raw writer) (hraw : (writer.timestamp answers).1 = raw)
    (hnew : writer.sequence.initialized = false)
    (hinit : initializeSequence config domain write answers writer = some writer') :
    Counting last raw writer' ∧ writer'.timestampNs = some raw := by
  simp only [initializeSequence, Option.bind_eq_bind, Option.bind_eq_some_iff] at hinit
  obtain ⟨snapshot, hsnapshot, process, hprocess, hthread⟩ := hinit
  have hclocked := h.clocked
  have htotal := h.total
  have hnone : (if writer.timestampNs.isSome then some raw else last) = none := by
    cases hlast : (if writer.timestampNs.isSome then some raw else last) with
    | none => rfl
    | some before =>
        rw [hlast] at hclocked
        have hlive := (hclocked.live before rfl).1
        rw [hnew] at hlive
        exact absurd hlive (by decide)
  rw [hnone] at hclocked
  obtain ⟨packet, hwritten, hstamp, hdelta, hnext⟩ := snapshot_counts hwrites hclocked hraw
    hsnapshot
  have hunstamped : writer.timestampNs = none ∧ last = none := by
    cases hold : writer.timestampNs with
    | none => exact ⟨rfl, by simpa [hold] using hnone⟩
    | some stamp => simp [hold] at hnone
  have hfirst : Counting last raw snapshot := by
    refine ⟨?_, ?_, ?_⟩
    · intro stamp h'
      rw [hstamp] at h'
      exact (Option.some.inj h').symm
    · rw [hstamp]
      exact hnext
    · rw [hwritten, elapsed_append, htotal, hstamp, hunstamped.1, hunstamped.2]
      simp [elapsed, hdelta, moved, climb]
  have hsecond : Counting last raw process ∧ process.timestampNs = some raw := by
    simp only [processDescriptor] at hprocess
    split at hprocess
    · simp only [Option.some.injEq] at hprocess
      rw [← hprocess]
      exact ⟨hfirst, hstamp⟩
    · simp only [Option.bind_eq_bind, Option.bind_eq_some_iff] at hprocess
      obtain ⟨arguments, _, hprocess⟩ := hprocess
      exact counting_write hwrites hfirst hstamp (fun _ => ⟨rfl, rfl⟩) hprocess
  exact counting_write hwrites hsecond.1 hsecond.2 (fun _ => ⟨rfl, rfl⟩) hthread

theorem counting_packet (hwrites : Writes write made) (h : Counting last raw writer)
    (hraw : (writer.timestamp answers).1 = raw) (hbody : ∀ tables, Clockless (body tables).1)
    (hpacket : SequenceWriter.packet config domain write answers body writer = some writer') :
    Counting last raw writer' ∧ writer'.timestampNs = some raw := by
  simp only [SequenceWriter.packet, ensureInitialized, Option.bind_eq_bind,
    Option.bind_eq_some_iff] at hpacket
  obtain ⟨ready, hready, hwrite⟩ := hpacket
  cases hinit : writer.sequence.initialized with
  | true =>
      simp only [hinit, if_true, Option.some.injEq] at hready
      subst hready
      obtain ⟨written, _, hwrote⟩ := hwrites _ _ _ _ _ hwrite
      exact counting_wrote h hinit hraw hbody hwrote
  | false =>
      simp only [hinit, Bool.false_eq_true, if_false] at hready
      obtain ⟨hcounting, hstamp⟩ := counting_initializeSequence hwrites h hraw hinit hready
      exact counting_write hwrites hcounting hstamp hbody hwrite

variable {memory : StaticMemory} {bases : IdBases}

theorem counting_serveAll (hwrites : Writes write made) {requests : List LayerRequest}
    (h : Counting last raw writer)
    (hreading : writer.timestampNs = none → ∀ time, reading requests = some time → time = raw)
    (hserve : (requests.map (LayerRequest.request memory config bases)).foldlM
      (serve config domain write) writer = some writer') :
    Counting last raw writer' ∧ writer'.timestampNs.isSome =
      (writer.timestampNs.isSome || (reading requests).isSome) := by
  induction requests generalizing writer with
  | nil =>
      simp only [List.map_nil, List.foldlM_nil, Option.pure_def, Option.some.injEq] at hserve
      subst hserve
      exact ⟨h, by simp [reading]⟩
  | cons request requests ih =>
      simp only [List.map_cons, List.foldlM_cons, Option.bind_eq_bind,
        Option.bind_eq_some_iff] at hserve
      obtain ⟨next, hnext, hrest⟩ := hserve
      cases request with
      | packet answers body =>
          have hraw : (writer.timestamp answers).1 = raw := by
            cases hstamp : writer.timestampNs with
            | none => simpa [SequenceWriter.timestamp, hstamp] using hreading hstamp _ rfl
            | some stamp => simpa [SequenceWriter.timestamp, hstamp] using h.stamp stamp hstamp
          obtain ⟨hcounting, hstamp⟩ := counting_packet hwrites h hraw
            (clockless_encode body) hnext
          obtain ⟨hlast, hstamped⟩ := ih hcounting (by simp [hstamp]) hrest
          exact ⟨hlast, by rw [hstamped, hstamp]; simp [reading]⟩
      | cacheCounterTrack name uuid =>
          simp only [LayerRequest.request, serve, Option.some.injEq] at hnext
          have hcached : Counting last raw next := by
            subst hnext
            exact ⟨h.stamp, ⟨h.clocked.fresh, h.clocked.live⟩, h.total⟩
          have hsame : next.timestampNs = writer.timestampNs := by
            subst hnext
            rfl
          rw [← hsame] at hreading ⊢
          exact ih hcached hreading hrest

theorem callback_counts (hwrites : Writes write made) {requests : List LayerRequest}
    {sequence sequence' : SequenceState} {own : List Written} (h : Clocked last sequence)
    (hcallback : callback config domain write sequence
      (requests.map (LayerRequest.request memory config bases)) = some (sequence', own)) :
    elapsed own = moved last (reading requests).toList ∧
      Clocked ((reading requests).or last) sequence' := by
  simp only [callback, Option.bind_eq_bind, Option.bind_eq_some_iff, Option.some.injEq,
    Prod.mk.injEq] at hcallback
  obtain ⟨writer, hserve, rfl, rfl⟩ := hcallback
  have hnew : Counting last ((reading requests).getD 0) (new sequence) :=
    ⟨by simp [new], h, rfl⟩
  obtain ⟨hcounting, hstamp⟩ := counting_serveAll hwrites hnew
    (fun _ time htime => by rw [htime]; rfl) hserve
  have hclocked := hcounting.clocked
  have htotal := hcounting.total
  simp only [new, Option.isSome_none, Bool.false_or] at hstamp
  rw [hstamp] at hclocked htotal
  cases hreading : reading requests with
  | none =>
      rw [hreading] at hclocked htotal
      cases last with
      | none => exact ⟨htotal, hclocked⟩
      | some before => exact ⟨htotal, hclocked⟩
  | some raw =>
      rw [hreading] at hclocked htotal
      exact ⟨htotal, hclocked⟩

/-! ## Runs -/

theorem run_counts (hwrites : Writes write made) {callbacks : List (List LayerRequest)}
    {sequence sequence' : SequenceState} {packets : List (List Written)}
    (h : Clocked last sequence)
    (hrun : run config domain write sequence (requests memory config bases callbacks) =
      some (sequence', packets)) (n : Nat) :
    elapsed (packets.take n).flatten = moved last ((callbacks.take n).filterMap reading) := by
  induction callbacks generalizing last sequence packets n with
  | nil =>
      simp only [requests, List.map_nil, run, Option.some.injEq, Prod.mk.injEq] at hrun
      obtain ⟨-, rfl⟩ := hrun
      rw [List.take_nil, List.take_nil]
      cases last <;> rfl
  | cons callback callbacks ih =>
      simp only [requests, List.map_cons, run, Option.bind_eq_bind, Option.bind_eq_some_iff,
        Option.some.injEq, Prod.mk.injEq] at hrun
      obtain ⟨⟨next, own⟩, hcallback, ⟨final, rest⟩, hrest, rfl, rfl⟩ := hrun
      obtain ⟨hown, hnext⟩ := callback_counts hwrites h hcallback
      cases n with
      | zero => cases last <;> rfl
      | succ n =>
          have hothers := ih hnext hrest n
          rw [List.take_succ_cons, List.take_succ_cons, List.flatten_cons, elapsed_append, hown,
            hothers, List.filterMap_cons]
          cases hreading : reading callback with
          | none => cases last <;> simp [moved, climb]
          | some raw => exact (moved_append last raw _).symm

end Callback

theorem clocked_new (sequenceId threadTrackUuid clockAnchorNs : Nat) :
    Clocked none (SequenceState.new sequenceId threadTrackUuid clockAnchorNs) :=
  ⟨fun _ => ⟨rfl, rfl⟩, by simp⟩

/-- Whatever packets of the callbacks a reader has seen, its clock has not passed the
largest reading of these callbacks. -/
def NoDrift (callbacks : List (List LayerRequest)) (packets : List (List Written)) : Prop :=
  ∀ n shown start later, shown <+: (packets.take n).flatten →
    (callbacks.take n).filterMap reading = start :: later →
    ∃ largest ∈ start :: later, traceTime start shown ≤ largest

theorem filterMap_take (callbacks : List (List LayerRequest)) (n : Nat) :
    ∃ m, (callbacks.take n).filterMap reading = (callbacks.filterMap reading).take m := by
  induction callbacks generalizing n with
  | nil => exact ⟨0, by simp⟩
  | cons callback callbacks ih =>
      cases n with
      | zero => exact ⟨0, by simp⟩
      | succ n =>
          obtain ⟨m, hm⟩ := ih n
          rw [List.take_succ_cons, List.filterMap_cons, List.filterMap_cons, hm]
          cases reading callback with
          | none => exact ⟨m, rfl⟩
          | some raw => exact ⟨m + 1, rfl⟩

theorem take_filterMap (callbacks : List (List LayerRequest)) (m : Nat) :
    ∃ n, (callbacks.take n).filterMap reading = (callbacks.filterMap reading).take m := by
  induction callbacks generalizing m with
  | nil => exact ⟨0, by simp⟩
  | cons callback callbacks ih =>
      rw [List.filterMap_cons]
      cases hreading : reading callback with
      | none =>
          obtain ⟨n, hn⟩ := ih m
          exact ⟨n + 1, by rw [List.take_succ_cons, List.filterMap_cons, hreading]; exact hn⟩
      | some raw =>
          cases m with
          | zero => exact ⟨0, by simp⟩
          | succ m =>
              obtain ⟨n, hn⟩ := ih m
              refine ⟨n + 1, ?_⟩
              rw [List.take_succ_cons, List.filterMap_cons, hreading, List.take_succ_cons]
              exact congrArg _ hn

/-- The clock that a reader of the packets keeps runs ahead of the readings exactly when
they rise again after a fall. -/
theorem no_drift_iff {memory : StaticMemory} {config : Config} {bases : IdBases}
    {domain : ClockDomain} {sequenceId threadTrackUuid clockAnchorNs : Nat}
    {callbacks : List (List LayerRequest)} {sequence : SequenceState}
    {packets : List (List Written)}
    (hrun : run config domain writePacket
      (SequenceState.new sequenceId threadTrackUuid clockAnchorNs)
      (requests memory config bases callbacks) = some (sequence, packets)) :
    NoDrift callbacks packets ↔ FallsLast (callbacks.filterMap reading) := by
  have hcounts := run_counts writes_writePacket (clocked_new _ _ _) hrun
  cases hall : callbacks.filterMap reading with
  | nil =>
      constructor
      · intro _
        exact ⟨[], [], rfl, .nil, .nil⟩
      · intro _ n shown start later _ hreadings
        obtain ⟨m, hm⟩ := filterMap_take callbacks n
        rw [hreadings, hall, List.take_nil] at hm
        exact absurd hm (List.cons_ne_nil _ _)
  | cons first readings =>
      rw [← bounded_level first readings]
      constructor
      · intro hdrift m
        obtain ⟨n, hn⟩ := take_filterMap callbacks (m + 1)
        rw [hall, List.take_succ_cons] at hn
        obtain ⟨largest, hmem, hle⟩ := hdrift n _ first (readings.take m)
          (List.prefix_refl _) hn
        have helapsed := hcounts n
        rw [hn, moved] at helapsed
        rw [traceTime, helapsed] at hle
        exact ⟨largest, hmem, hle⟩
      · intro hbounded n shown start later hshown hreadings
        obtain ⟨m, hm⟩ := filterMap_take callbacks n
        rw [hreadings, hall] at hm
        have helapsed := hcounts n
        rw [hreadings, moved] at helapsed
        have hle := elapsed_mono hshown
        cases m with
        | zero => exact absurd hm (List.cons_ne_nil _ _)
        | succ m =>
            rw [List.take_succ_cons, List.cons.injEq] at hm
            obtain ⟨rfl, rfl⟩ := hm
            obtain ⟨largest, hmem, hbound⟩ := hbounded m
            exact ⟨largest, hmem, by rw [traceTime]; omega⟩

/-- One packet in each callback. -/
def sampleCallbacks (readings : List Nat) : List (List LayerRequest) :=
  readings.map fun raw => [.packet (sampleAnswers raw) (.enterEnd none [])]

def sampleRun (readings : List Nat) : Option (SequenceState × List (List Written)) :=
  run ⟨.threadTracks, false, false, false, false, false⟩ (.builtin 6) writePacket
    (SequenceState.new 65536 3 100)
    (requests default ⟨.threadTracks, false, false, false, false, false⟩ default
      (sampleCallbacks readings))

theorem sampleRun_isSome (readings : List Nat) (h : readings = [140, 120, 150] ∨
    readings = [140, 150, 120]) : (sampleRun readings).isSome = true := by
  rcases h with rfl | rfl <;> decide +kernel

/-- One step back of 20 puts every later packet 20 ahead. -/
theorem clock_drifts : ∃ sequence packets,
    sampleRun [140, 120, 150] = some (sequence, packets) ∧
      ¬ NoDrift (sampleCallbacks [140, 120, 150]) packets := by
  obtain ⟨⟨sequence, packets⟩, hrun⟩ :=
    Option.isSome_iff_exists.1 (sampleRun_isSome [140, 120, 150] (Or.inl rfl))
  refine ⟨sequence, packets, hrun, ?_⟩
  intro hdrift
  have htime : (sampleRun [140, 120, 150]).map (fun ran => traceTime 140 (ran.2.take 3).flatten) =
      some 170 := by decide +kernel
  rw [hrun, Option.map_some, Option.some.injEq] at htime
  change traceTime 140 (packets.take 3).flatten = 170 at htime
  obtain ⟨largest, hmem, hle⟩ := hdrift 3 _ 140 [120, 150] (List.prefix_refl _) rfl
  simp only [List.mem_cons, List.not_mem_nil, or_false] at hmem
  omega

theorem no_drift_iff_falling : ∃ sequence packets,
    sampleRun [140, 150, 120] = some (sequence, packets) ∧
      NoDrift (sampleCallbacks [140, 150, 120]) packets := by
  obtain ⟨⟨sequence, packets⟩, hrun⟩ :=
    Option.isSome_iff_exists.1 (sampleRun_isSome [140, 150, 120] (Or.inr rfl))
  refine ⟨sequence, packets, hrun, (no_drift_iff hrun).2 ?_⟩
  exact ⟨[140, 150], [120], rfl, by decide, by decide⟩

end TracingPerfetto.ClockDrift
