import TracingPerfetto.Sequence

/-!
What one packet does to a sequence, and the induction rule for runs of callbacks
that follows from it. Both ways of writing a packet do the same to everything but
the packet buffer.
-/

namespace TracingPerfetto.SequenceRuns

open TracingPerfetto.Wire TracingPerfetto.Proto TracingPerfetto.Runtime
open TracingPerfetto.Schema TracingPerfetto.Sequence
open TracingPerfetto.Sequence.SequenceWriter

/-- Everything of a sequence but the packet buffer and its saved prefix. -/
def visible (sequence : SequenceState) : SequenceState :=
  { sequence with packetPrefix := none, scratch := ProtoBuffer.empty }

theorem visible_tables {sequence spec : SequenceState} (h : visible sequence = visible spec) :
    sequence.tables = spec.tables := by
  simpa [visible] using congrArg SequenceState.tables h

theorem withTables_visible {sequence spec : SequenceState} (tables : InternTables)
    (h : visible sequence = visible spec) :
    visible (sequence.withTables tables) = visible (spec.withTables tables) :=
  congrArg (fun s : SequenceState => s.withTables tables) h

theorem openPacket_sequence (sequence : SequenceState) :
    sequence.openPacket.1.sequence = { sequence with scratch := ProtoBuffer.empty } ∧
      sequence.openPacket.2 = sequence.packetPrefix.isSome := by
  cases hsaved : sequence.packetPrefix <;> simp [SequenceState.openPacket, hsaved]

theorem write_sequence {packet packet' : Packet} {calls : List Op}
    (h : packet.write calls = some packet') : packet'.sequence = packet.sequence := by
  simp only [Packet.write, Option.bind_eq_bind, Option.bind_eq_some_iff,
    Option.some.injEq] at h
  obtain ⟨proto, _, rfl⟩ := h
  rfl

theorem initializePacketPrefix_visible {packet packet' : Packet}
    (h : packet.initializePacketPrefix = some packet') :
    visible packet'.sequence = visible packet.sequence := by
  simp only [Packet.initializePacketPrefix, Option.bind_eq_bind, Option.bind_eq_some_iff,
    Option.some.injEq] at h
  obtain ⟨written, hwrite, rfl⟩ := h
  simp [visible, write_sequence hwrite]

theorem packetWithoutInitialization_visible {domain : ClockDomain} {answers : Answers}
    {sequence : SequenceState} {raw : Nat} {packet : Packet}
    (h : sequence.packetWithoutInitialization domain answers raw = some packet) :
    visible packet.sequence = visible (sequence.header domain answers raw).2 := by
  obtain ⟨hsequence, _⟩ := openPacket_sequence sequence
  simp only [SequenceState.packetWithoutInitialization] at h
  generalize sequence.openPacket = opened at *
  obtain ⟨⟨taken, proto, root⟩, reused⟩ := opened
  simp only at hsequence h
  subst hsequence
  cases hfirst : sequence.firstPacketDone with
  | false =>
      simp only [hfirst, Bool.false_eq_true, if_false] at h
      rw [write_sequence h]
      simp [visible, SequenceState.header, hfirst]
  | true =>
      simp only [hfirst, if_true, Option.bind_eq_bind] at h
      cases reused with
      | true =>
          simp only [if_true, Option.bind_some] at h
          rw [write_sequence h]
          simp [visible, SequenceState.header, hfirst]
      | false =>
          simp only [Bool.false_eq_true, if_false, Option.bind_eq_some_iff] at h
          obtain ⟨saved, hsaved, hwrite⟩ := h
          rw [write_sequence hwrite, initializePacketPrefix_visible hsaved]
          simp [visible, SequenceState.header, hfirst]

theorem drop_visible {packet : Packet} {sequence : SequenceState} {bytes : Bytes}
    (h : packet.drop = some (sequence, bytes)) :
    visible sequence =
      visible (packet.sequence.withTables packet.sequence.tables.emitInternedData.2) := by
  simp only [Packet.drop, Option.bind_eq_bind, Option.bind_eq_some_iff, Option.some.injEq,
    Prod.mk.injEq] at h
  obtain ⟨written, hwrite, proto, _, rfl, _⟩ := h
  simp [visible, SequenceState.withTables, write_sequence hwrite]

/-! ## One packet -/

/-- `packet` is what writing `encode` adds to the writer, and `writer'` is the writer
after it. -/
structure Wrote (domain : ClockDomain) (answers : Answers) (writer : SequenceWriter)
    (encode : Encode (List Op)) (writer' : SequenceWriter) (packet : Written) : Prop where
  written : writer'.written = writer.written ++ [packet]
  timestampNs : writer'.timestampNs = some (writer.timestamp answers).1
  header : packet.header =
    (writer.sequence.header domain answers (writer.timestamp answers).1).1
  body : packet.body = (encode writer.sequence.tables).1
  interned : packet.interned = (encode writer.sequence.tables).2.emitInternedData.1
  sequence : visible writer'.sequence =
    visible ((writer.sequence.header domain answers (writer.timestamp answers).1).2.withTables
      (encode writer.sequence.tables).2.emitInternedData.2)

theorem timestamp_sequence (writer : SequenceWriter) (answers : Answers) :
    (writer.timestamp answers).2.sequence = writer.sequence ∧
      (writer.timestamp answers).2.written = writer.written ∧
      (writer.timestamp answers).2.timestampNs = some (writer.timestamp answers).1 := by
  cases htimestamp : writer.timestampNs <;> simp [SequenceWriter.timestamp, htimestamp]

theorem header_tables (domain : ClockDomain) (answers : Answers) (sequence : SequenceState)
    (raw : Nat) : (sequence.header domain answers raw).2.tables = sequence.tables := by
  cases hfirst : sequence.firstPacketDone <;> simp [SequenceState.header, hfirst]

/-- A function that writes packets of the `made` kind, as the rest of the writer may
assume it. -/
def Writes (write : ClockDomain → Answers → SequenceWriter → Encode (List Op) →
    Option SequenceWriter) (made : Written → Prop) : Prop :=
  ∀ domain answers writer body writer', write domain answers writer body = some writer' →
    ∃ packet, made packet ∧ Wrote domain answers writer body writer' packet

theorem writes_writePacket : Writes writePacket fun _ => True := by
  intro domain answers writer body writer' h
  obtain ⟨hsequence, hwritten, htimestamp⟩ := timestamp_sequence writer answers
  simp only [writePacket, Option.bind_eq_bind] at h
  rw [hsequence, hwritten, Option.bind_eq_some_iff] at h
  obtain ⟨packet, hopen, h⟩ := h
  have hopened := packetWithoutInitialization_visible hopen
  have htables : packet.sequence.tables = writer.sequence.tables := by
    rw [← header_tables domain answers writer.sequence (writer.timestamp answers).1]
    exact visible_tables hopened
  rcases hbody : body writer.sequence.tables with ⟨calls, tables⟩
  simp only [htables, hbody, Option.bind_eq_some_iff, Option.some.injEq] at h
  obtain ⟨packet', hwrite, ⟨sequence, bytes⟩, hdrop, rfl⟩ := h
  have hbodied : packet'.sequence = packet.sequence.withTables tables := write_sequence hwrite
  have hlast : visible (packet'.sequence.withTables tables.emitInternedData.2) =
      visible ((writer.sequence.header domain answers (writer.timestamp answers).1).2.withTables
        tables.emitInternedData.2) := by
    rw [hbodied]
    have htables' := withTables_visible tables.emitInternedData.2 hopened
    exact htables'
  refine ⟨_, trivial, rfl, htimestamp, rfl, by rw [hbody], by rw [hbody], ?_⟩
  rw [drop_visible hdrop, hbody, ← hlast, hbodied]
  rfl

/-- The bytes are the encoding of the calls. -/
def Written.Framed (packet : Written) : Prop :=
  packet.bytes = framed Trace.packet (Op.encodedAll packet.calls)

theorem writes_writeFromScratch : Writes writeFromScratch Written.Framed := by
  intro domain answers writer body writer' h
  obtain ⟨hsequence, hwritten, htimestamp⟩ := timestamp_sequence writer answers
  have htables := header_tables domain answers writer.sequence (writer.timestamp answers).1
  rcases hbody : body writer.sequence.tables with ⟨calls, tables⟩
  simp only [writeFromScratch, hsequence, hwritten, htables, hbody, Option.some.injEq] at h
  subst h
  refine ⟨_, ?_, rfl, htimestamp, rfl, by rw [hbody], by rw [hbody], by rw [hbody]⟩
  rfl

/-! ## Runs -/

/-- A property of a sequence and of all packets written on it that every step of a
writer keeps, when the packet bodies are of the `allowed` kind and the packets of
the `made` kind. -/
structure Invariant (domain : ClockDomain) (allowed : Encode (List Op) → Prop)
    (made : Written → Prop) (P : List Written → SequenceState → Prop) : Prop where
  wrote : ∀ {all answers writer body writer' packet}, allowed body → made packet →
    P all writer.sequence → Wrote domain answers writer body writer' packet →
    P (all ++ [packet]) writer'.sequence
  mark : ∀ {all sequence}, P all sequence → P all { sequence with initialized := true }
  read : ∀ {all sequence} (raw : Nat), P all sequence →
    P all { sequence with lastTimestampNs := raw }
  cache : ∀ {all sequence} (name : StaticStr) (uuid : Nat), P all sequence →
    P all (sequence.withTables (sequence.tables.cacheCounterTrack name uuid))
  clockSnapshot : ∀ answers raw anchor,
    allowed (pure (clockSnapshotCalls domain answers raw anchor))
  processDescriptor : ∀ answers arguments,
    allowed (pure (processDescriptorCalls answers arguments))
  threadDescriptor : ∀ answers uuid, allowed (pure (threadDescriptorCalls answers uuid))

def Request.Allowed (allowed : Encode (List Op) → Prop) : Request → Prop
  | .packet _ body => allowed body
  | .cacheCounterTrack _ _ => True

section Rule

variable {config : Config} {domain : ClockDomain}
variable {write : ClockDomain → Answers → SequenceWriter → Encode (List Op) →
  Option SequenceWriter}
variable {allowed : Encode (List Op) → Prop} {made : Written → Prop}
variable {P : List Written → SequenceState → Prop}

/-- The packets a writer had before, with its own. -/
def Keeps (P : List Written → SequenceState → Prop) (before : List Written)
    (writer : SequenceWriter) : Prop :=
  P (before ++ writer.written) writer.sequence

theorem Invariant.packet (h : Invariant domain allowed made P) (hwrites : Writes write made)
    {before : List Written} {answers : Answers} {writer writer' : SequenceWriter}
    {body : Encode (List Op)} (hallowed : allowed body) (hkeeps : Keeps P before writer)
    (hwrite : write domain answers writer body = some writer') : Keeps P before writer' := by
  obtain ⟨packet, hmade, hwrote⟩ := hwrites _ _ _ _ _ hwrite
  have hnext := h.wrote hallowed hmade hkeeps hwrote
  rwa [List.append_assoc, ← hwrote.written] at hnext

theorem Invariant.initializeSequence (h : Invariant domain allowed made P)
    (hwrites : Writes write made)
    {before : List Written} {answers : Answers} {writer writer' : SequenceWriter}
    (hkeeps : Keeps P before writer)
    (hinit : SequenceWriter.initializeSequence config domain write answers writer =
      some writer') : Keeps P before writer' := by
  simp only [SequenceWriter.initializeSequence, Option.bind_eq_bind,
    Option.bind_eq_some_iff] at hinit
  obtain ⟨snapshot, hsnapshot, process, hprocess, hthread⟩ := hinit
  have hmarked : Keeps P before (markInitialized writer) := h.mark hkeeps
  have hread : Keeps P before (readSnapshotClock answers (markInitialized writer)) := by
    have := h.read ((markInitialized writer).timestamp answers).1 hmarked
    simpa [Keeps, readSnapshotClock, (timestamp_sequence (markInitialized writer) answers).1,
      (timestamp_sequence (markInitialized writer) answers).2.1] using this
  have hfirst := h.packet hwrites (h.clockSnapshot _ _ _) hread hsnapshot
  have hsecond : Keeps P before process := by
    simp only [SequenceWriter.processDescriptor] at hprocess
    split at hprocess
    · simp only [Option.some.injEq] at hprocess
      rwa [← hprocess]
    · simp only [Option.bind_eq_bind, Option.bind_eq_some_iff] at hprocess
      obtain ⟨arguments, _, hprocess⟩ := hprocess
      exact h.packet hwrites (h.processDescriptor _ _) hfirst hprocess
  exact h.packet hwrites (h.threadDescriptor _ _) hsecond hthread

theorem Invariant.ensureInitialized (h : Invariant domain allowed made P)
    (hwrites : Writes write made)
    {before : List Written} {answers : Answers} {writer writer' : SequenceWriter}
    (hkeeps : Keeps P before writer)
    (hensure : SequenceWriter.ensureInitialized config domain write answers writer =
      some writer') : Keeps P before writer' := by
  simp only [SequenceWriter.ensureInitialized] at hensure
  split at hensure
  · simp only [Option.some.injEq] at hensure
    rwa [← hensure]
  · exact h.initializeSequence hwrites hkeeps hensure

theorem Invariant.serve (h : Invariant domain allowed made P) (hwrites : Writes write made)
    {before : List Written} {writer writer' : SequenceWriter} {request : Request}
    (hallowed : Request.Allowed allowed request) (hkeeps : Keeps P before writer)
    (hserve : SequenceWriter.serve config domain write writer request = some writer') :
    Keeps P before writer' := by
  cases request with
  | packet answers body =>
      simp only [SequenceWriter.serve, SequenceWriter.packet, Option.bind_eq_bind,
        Option.bind_eq_some_iff] at hserve
      obtain ⟨ready, hready, hwrite⟩ := hserve
      exact h.packet hwrites hallowed (h.ensureInitialized hwrites hkeeps hready) hwrite
  | cacheCounterTrack name uuid =>
      simp only [SequenceWriter.serve, Option.some.injEq] at hserve
      subst hserve
      exact h.cache name uuid hkeeps

theorem Invariant.serveAll (h : Invariant domain allowed made P) (hwrites : Writes write made)
    {before : List Written} {requests : List Request} {writer writer' : SequenceWriter}
    (hallowed : ∀ request ∈ requests, Request.Allowed allowed request)
    (hkeeps : Keeps P before writer)
    (hserve : requests.foldlM (SequenceWriter.serve config domain write) writer =
      some writer') : Keeps P before writer' := by
  induction requests generalizing writer with
  | nil =>
      simp only [List.foldlM_nil, Option.pure_def, Option.some.injEq] at hserve
      rwa [← hserve]
  | cons request requests ih =>
      simp only [List.foldlM_cons, Option.bind_eq_bind, Option.bind_eq_some_iff] at hserve
      obtain ⟨next, hnext, hrest⟩ := hserve
      exact ih (fun r hr => hallowed r (List.mem_cons_of_mem _ hr))
        (h.serve hwrites (hallowed request List.mem_cons_self) hkeeps hnext) hrest

/-- The rule for runs: what every step keeps holds after every callback. -/
theorem Invariant.run (h : Invariant domain allowed made P) (hwrites : Writes write made)
    (before : List Written) {callbacks : List (List Request)}
    {sequence sequence' : SequenceState} {packets : List (List Written)}
    (hallowed : ∀ requests ∈ callbacks, ∀ request ∈ requests,
      Request.Allowed allowed request)
    (hstart : P before sequence)
    (hrun : SequenceWriter.run config domain write sequence callbacks =
      some (sequence', packets)) : P (before ++ packets.flatten) sequence' := by
  induction callbacks generalizing before sequence packets with
  | nil =>
      simp only [SequenceWriter.run, Option.some.injEq, Prod.mk.injEq] at hrun
      obtain ⟨rfl, rfl⟩ := hrun
      simpa using hstart
  | cons requests callbacks ih =>
      simp only [SequenceWriter.run, SequenceWriter.callback, Option.bind_eq_bind,
        Option.bind_eq_some_iff, Option.some.injEq, Prod.mk.injEq] at hrun
      obtain ⟨⟨next, first⟩, ⟨writer, hserve, hnext, hfirst⟩, ⟨last, rest⟩, hrest, rfl, rfl⟩ :=
        hrun
      simp only at hrest
      have hwriter : Keeps P before writer := h.serveAll hwrites
        (hallowed requests List.mem_cons_self) (by simpa [Keeps, new] using hstart) hserve
      have := ih _ (fun r hr => hallowed r (List.mem_cons_of_mem _ hr)) hwriter hrest
      simpa [List.append_assoc] using this

end Rule

end TracingPerfetto.SequenceRuns
