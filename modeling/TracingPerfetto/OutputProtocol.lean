import TracingPerfetto.Output

/-!
What a thread holds on its way through a drain, and that the programs of
`Output` keep to it. The protocol knows nothing of the other threads.
-/

namespace TracingPerfetto.OutputProtocol

open TracingPerfetto.Wire TracingPerfetto.Threads TracingPerfetto.Output

/-- How far the drain of a buffer is. -/
inductive Chunk where
  | none
  | counted (buffer : ThreadId) (available : Nat)
  | taken (buffer : ThreadId) (available : Nat) (first second : Bytes)
  | half (buffer : ThreadId) (available : Nat) (first second : Bytes)
  | written (buffer : ThreadId) (available : Nat) (bytes : Bytes)
  | drained (buffer : ThreadId)

namespace Chunk

/-- The buffer whose consumer the drain must hold. -/
def buffer : Chunk → Option ThreadId
  | .none => Option.none
  | .counted buffer _ | .taken buffer _ _ _ | .half buffer _ _ _ | .written buffer _ _
  | .drained buffer => some buffer

/-- Bytes that the writer has of a chunk that is not written completely. -/
def piece : Chunk → Bytes
  | .half _ _ first _ => first
  | _ => []

/-- Bytes that the writer has and that are still in the ring of the buffer. -/
def leftover (buffer : ThreadId) : Chunk → Bytes
  | .written of_ _ bytes => if of_ = buffer then bytes else []
  | _ => []

/-- No chunk is held. -/
def Released : Chunk → Prop
  | .none | .drained _ => True
  | _ => False

theorem Released.piece {chunk : Chunk} (h : chunk.Released) : chunk.piece = [] := by
  rcases chunk <;> simp_all [Released, Chunk.piece]

theorem Released.leftover {chunk : Chunk} (h : chunk.Released) (buffer : ThreadId) :
    chunk.leftover buffer = [] := by
  rcases chunk <;> simp_all [Released, Chunk.leftover]

end Chunk

/-- An error that the writer returned, on its way through `record_error`. -/
inductive Failure where
  | clear
  | pending (error : IoError)
  | recorded (error : IoError)

@[simp] def Failure.of : Option IoError → Failure
  | some error => .pending error
  | Option.none => .clear

/-- How far `flush_all` is with the buffers. -/
inductive Flush where
  | none
  | waiting
  | draining (left : List ThreadId)

def Flush.without (flush : Flush) (buffer : ThreadId) : Flush :=
  match flush with
  | .draining left => .draining (left.filter (· ≠ buffer))
  | flush => flush

inductive Report where
  | none
  | clean
  | dirty
  | failed (error : IoError)

structure Ghost where
  held : List Lock
  chunk : Chunk
  mayWrite : Bool
  discards : Bool
  failure : Failure
  emitting : Option Bytes
  sending : Option (ThreadId × Bytes)
  flush : Flush
  report : Report

def rest : Ghost where
  held := []
  chunk := .none
  mayWrite := false
  discards := false
  failure := .clear
  emitting := Option.none
  sending := Option.none
  flush := .none
  report := .none

/-- A program ends with empty hands. -/
def Final (ghost : Ghost) : Prop := ghost = { rest with discards := ghost.discards }

def Ghost.wrote (ghost : Ghost) : Ghost :=
  match ghost.chunk with
  | .taken buffer available first second =>
      { ghost with chunk := .half buffer available first second }
  | .half buffer available first second =>
      { ghost with
        chunk := .written buffer available (first ++ second)
        flush := ghost.flush.without buffer }
  | _ => { ghost with sending := Option.none }

theorem Ghost.wrote_drained {ghost : Ghost} {buffer : ThreadId}
    (h : ghost.chunk = .drained buffer) :
    ghost.wrote = { ghost with sending := Option.none } := by
  simp [Ghost.wrote, h]

def pre (ghost : Ghost) : Act → Prop
  | .pushEntireSlice packet =>
      ghost.chunk = .none ∧ ∃ buffer, ghost.sending = some (buffer, packet)
  | .complete packet => ghost.emitting = some packet ∧
      (ghost.sending = Option.none ∨ ghost.discards = true)
  | .lock _ => ghost.chunk = .none
  | .unlock lock => ghost.held.head? = some lock ∧ ghost.chunk.Released
  | .slots buffer => .consumer buffer ∈ ghost.held ∧ ghost.chunk = .none
  | .readChunk buffer available => ghost.chunk = .counted buffer available
  | .hasError (.write _) => .writer ∈ ghost.held ∧ ghost.failure = .clear ∧ ghost.chunk.piece = []
  | .hasError .report =>
      ghost.failure = .clear ∧ (ghost.flush = .draining [] ∨ ghost.discards = true)
  | .writeAll bytes => .writer ∈ ghost.held ∧ ghost.mayWrite = true ∧ ghost.failure = .clear ∧
      ((∃ buffer available second, ghost.chunk = .taken buffer available bytes second) ∨
        (∃ buffer available first, ghost.chunk = .half buffer available first bytes) ∨
        ∃ buffer, ghost.chunk = .drained buffer ∧ ghost.sending = some (buffer, bytes))
  | .commitAll buffer available => ghost.chunk.buffer = some buffer ∧
      ((∃ bytes, ghost.chunk = .written buffer available bytes) ∨ ghost.discards = true)
  | .flushWriter => ghost.failure = .clear
  | .recordFirst error => ghost.failure = .pending error
  | .storeHasError => ∃ error, ghost.failure = .recorded error
  | .recorded => ghost.report = .dirty
  | .cloneThreads => ghost.flush = .waiting
  | .flushReturn error => (ghost.flush = .draining [] ∨ ghost.discards = true) ∧
      (error = Option.none ∧ ghost.report = .clean ∨
        ∃ reported, error = some reported ∧ ghost.report = .failed reported)
  | _ => True

def next (ghost : Ghost) : (action : Act) → Reply action → Ghost
  | .pushEntireSlice _, pushed =>
      if pushed then { ghost with sending := Option.none } else ghost
  | .complete _, _ => { ghost with sending := Option.none, emitting := Option.none }
  | .lock lock, _ => { ghost with held := lock :: ghost.held }
  | .unlock lock, _ =>
      { ghost with
        held := ghost.held.tail
        mayWrite := if lock = .writer then false else ghost.mayWrite
        chunk := if ghost.chunk.buffer.map .consumer = some lock then .none else ghost.chunk }
  | .slots buffer, available =>
      if available = 0 then
        { ghost with chunk := .drained buffer, flush := ghost.flush.without buffer }
      else { ghost with chunk := .counted buffer available }
  | .readChunk buffer available, (first, second) =>
      { ghost with chunk := .taken buffer available first second }
  | .hasError (.write bytes), seen =>
      { ghost with mayWrite := bytes && !seen, discards := ghost.discards || seen }
  | .hasError .report, seen => { ghost with report := if seen then .dirty else .clean }
  | .writeAll _, error =>
      match error with
      | some error =>
          { ghost with failure := .pending error, mayWrite := false, discards := true }
      | Option.none => ghost.wrote
  | .commitAll buffer _, _ => { ghost with chunk := .drained buffer }
  | .flushWriter, error =>
      match error with
      | some error => { ghost with failure := .pending error }
      | Option.none => ghost
  | .recordFirst error, _ => { ghost with failure := .recorded error }
  | .storeHasError, _ => { ghost with failure := .clear }
  | .recorded, error => { ghost with report := .failed (error.getD .unrecorded) }
  | .cloneThreads, threads => { ghost with flush := .draining threads }
  | .flushReturn _, _ => { ghost with flush := .none, report := .none }
  | _, _ => ghost

def protocol : Protocol Act Reply Ghost := ⟨pre, next⟩

@[simp] theorem protocol_pre (ghost : Ghost) (action : Act) :
    protocol.pre ghost action = pre ghost action := rfl

@[simp] theorem protocol_next (ghost : Ghost) (action : Act) (reply : Reply action) :
    protocol.next ghost action reply = next ghost action reply := rfl

abbrev Keeps {α : Type} (post : α → Ghost → Prop) (ghost : Ghost) (program : Program α) : Prop :=
  protocol.Keeps post ghost program

/-! ## The programs keep to it -/

theorem no_error {P : Prop} (h : (none : Option IoError).isSome = true) : P :=
  absurd h Bool.false_ne_true

theorem keeps_recordAny {ghost : Ghost} {error : Option IoError} (hchunk : ghost.chunk = .none)
    (hfailure : ghost.failure = .of error) :
    Keeps (fun _ after => after = { ghost with failure := .clear }) ghost (recordAny error) := by
  rcases error with _ | error
  · show ghost = _
    rw [← show ghost.failure = .clear from hfailure]
  · refine ⟨hchunk, fun _ => ⟨hfailure, fun _ => ⟨⟨error, rfl⟩, fun _ => ⟨⟨rfl, ?_⟩, fun _ => ?_⟩⟩⟩⟩
    · simp [next, hchunk, Chunk.Released]
    · show _ = _
      simp [next, hchunk, Chunk.buffer]

/-- What a part of a drain, with its error, leaves behind while it holds the locks. -/
structure Drained (before : Ghost) (buffer : ThreadId) (sending : Option (ThreadId × Bytes))
    (flush : Flush) (error : Option IoError) (after : Ghost) : Prop where
  held : after.held = before.held
  chunk : after.chunk = .drained buffer
  failure : after.failure = .of error
  report : after.report = before.report
  emitting : after.emitting = before.emitting
  sent : after.sending = before.sending ∨ after.sending = none
  flushes : after.flush = before.flush ∨ after.flush = before.flush.without buffer
  stops : error.isSome = true → after.discards = true
  delivers : after.discards = true ∨ after.discards = before.discards ∧
    after.sending = sending ∧ after.flush = flush

theorem keeps_drainChunk {ghost : Ghost} {buffer : ThreadId} {available : Nat}
    (hwriter : .writer ∈ ghost.held) (hfailure : ghost.failure = .clear)
    (hchunk : ghost.chunk = if available = 0 then .drained buffer else .counted buffer available) :
    Keeps (fun error after => after.sending = ghost.sending ∧
        Drained ghost buffer ghost.sending
          (if available = 0 then ghost.flush else ghost.flush.without buffer) error after) ghost
      (drainChunk buffer available) := by
  rw [drainChunk]
  split
  · rename_i hempty
    rw [if_pos hempty] at hchunk
    exact ⟨rfl, rfl, hchunk, hfailure, rfl, rfl, Or.inl rfl, Or.inl rfl, no_error,
      Or.inr ⟨rfl, rfl, rfl⟩⟩
  · rename_i hsome
    rw [if_neg hsome] at hchunk
    refine ⟨hchunk, fun chunk => ⟨⟨hwriter, hfailure, rfl⟩, fun discard => ?_⟩⟩
    rcases chunk with ⟨first, second⟩
    rcases discard with _ | _
    · refine ⟨⟨hwriter, rfl, hfailure, Or.inl ⟨buffer, available, second, rfl⟩⟩, fun error => ?_⟩
      rcases error with _ | error
      · refine ⟨⟨hwriter, rfl, hfailure, Or.inr (Or.inl ⟨buffer, available, first, rfl⟩)⟩,
          fun error => ?_⟩
        rcases error with _ | error
        · refine ⟨⟨rfl, Or.inl ⟨_, rfl⟩⟩, fun _ => ?_⟩
          exact ⟨rfl, rfl, rfl, hfailure, rfl, rfl, Or.inl rfl, Or.inr rfl, no_error,
            Or.inr ⟨Bool.or_false _, rfl, rfl⟩⟩
        · exact ⟨⟨rfl, Or.inr rfl⟩, fun _ =>
            ⟨rfl, rfl, rfl, rfl, rfl, rfl, Or.inl rfl, Or.inl rfl, fun _ => rfl, Or.inl rfl⟩⟩
      · exact ⟨⟨rfl, Or.inr rfl⟩, fun _ =>
          ⟨rfl, rfl, rfl, rfl, rfl, rfl, Or.inl rfl, Or.inl rfl, fun _ => rfl, Or.inl rfl⟩⟩
    · have hdiscards : (ghost.discards || true) = true := Bool.or_true _
      exact ⟨⟨rfl, Or.inr hdiscards⟩, fun _ =>
        ⟨rfl, rfl, rfl, hfailure, rfl, rfl, Or.inl rfl, Or.inl rfl, no_error, Or.inl hdiscards⟩⟩

theorem keeps_drainTrailing {ghost : Ghost} {buffer : ThreadId} {trailing : Bytes}
    {error : Option IoError} (hwriter : .writer ∈ ghost.held)
    (hchunk : ghost.chunk = .drained buffer) (hfailure : ghost.failure = .of error)
    (hstops : error.isSome = true → ghost.discards = true)
    (hsending : trailing = [] ∨ ghost.sending = some (buffer, trailing)) :
    Keeps (Drained ghost buffer (if trailing = [] then ghost.sending else none) ghost.flush) ghost
      (drainTrailing trailing error) := by
  rcases error with _ | error
  · have hpiece : ghost.chunk.piece = [] := by rw [hchunk]; rfl
    refine ⟨⟨hwriter, hfailure, hpiece⟩, fun discard => ?_⟩
    rcases discard with _ | _
    · rcases trailing with _ | ⟨byte, bytes⟩
      · exact ⟨rfl, hchunk, hfailure, rfl, rfl, Or.inl rfl, Or.inl rfl, no_error,
          Or.inr ⟨Bool.or_false _, rfl, rfl⟩⟩
      · have hsending : ghost.sending = some (buffer, byte :: bytes) := by simpa using hsending
        refine ⟨⟨hwriter, rfl, hfailure, Or.inr (Or.inr ⟨buffer, hchunk, hsending⟩)⟩,
          fun error => ?_⟩
        rcases error with _ | error
        · set tested := next ghost (.hasError (.write true)) false
          show Drained ghost buffer none ghost.flush none tested.wrote
          rw [Ghost.wrote_drained (show tested.chunk = .drained buffer from hchunk)]
          exact ⟨rfl, hchunk, hfailure, rfl, rfl, Or.inr rfl, Or.inl rfl, no_error,
            Or.inr ⟨Bool.or_false _, rfl, rfl⟩⟩
        · exact ⟨rfl, hchunk, rfl, rfl, rfl, Or.inl rfl, Or.inl rfl, fun _ => rfl, Or.inl rfl⟩
    · exact ⟨rfl, hchunk, hfailure, rfl, rfl, Or.inl rfl, Or.inl rfl, no_error,
        Or.inl (Bool.or_true _)⟩
  · exact ⟨rfl, hchunk, hfailure, rfl, rfl, Or.inl rfl, Or.inl rfl, hstops, Or.inl (hstops rfl)⟩

/-- The end of a drain: both locks are released before the error is recorded. -/
theorem keeps_release {ghost : Ghost} {buffer : ThreadId} {error : Option IoError}
    (hheld : ghost.held = [.writer, .consumer buffer]) (hchunk : ghost.chunk = .drained buffer)
    (hfailure : ghost.failure = .of error) :
    Keeps (fun _ after => after =
        { ghost with held := [], chunk := .none, mayWrite := false, failure := .clear }) ghost
      (do
        act (.unlock .writer)
        act (.unlock (.consumer buffer))
        recordAny error) := by
  refine ⟨⟨by simp [hheld], by simp [hchunk, Chunk.Released]⟩,
    fun _ => ⟨⟨by simp [next, hheld], by simp [next, hchunk, Chunk.buffer, Chunk.Released]⟩,
      fun _ => ?_⟩⟩
  refine (keeps_recordAny (by simp [next, hchunk, Chunk.buffer])
    (by simpa [next] using hfailure)).mono ?_
  rintro - after rfl
  simp [next, hheld, hchunk, Chunk.buffer]

/-- Where a drain can start and end: without locks, chunk and error. -/
structure Ghost.Quiet (ghost : Ghost) : Prop where
  held : ghost.held = []
  chunk : ghost.chunk = .none
  mayWrite : ghost.mayWrite = false
  failure : ghost.failure = .clear

/-- What a whole drain leaves behind. -/
structure After (before : Ghost) (buffer : ThreadId) (sending : Option (ThreadId × Bytes))
    (after : Ghost) : Prop where
  quiet : after.Quiet
  report : after.report = before.report
  emitting : after.emitting = before.emitting
  sent : after.sending = before.sending ∨ after.sending = none
  flushes : after.flush = before.flush ∨ after.flush = before.flush.without buffer
  delivers : after.discards = true ∨ after.discards = before.discards ∧
    after.sending = sending ∧ after.flush = before.flush.without buffer

theorem keeps_drainThreadBuffer {ghost : Ghost} {buffer : ThreadId} {trailing : Bytes}
    (hquiet : ghost.Quiet) (hsending : trailing = [] ∨ ghost.sending = some (buffer, trailing)) :
    Keeps (fun _ => After ghost buffer (if trailing = [] then ghost.sending else none)) ghost
      (drainThreadBuffer buffer trailing) := by
  rcases hquiet with ⟨hheld, hchunk, hwrite, hfailure⟩
  refine ⟨hchunk, fun _ => ⟨hchunk, fun _ => ⟨⟨by simp [next], hchunk⟩, fun available => ?_⟩⟩⟩
  set counted := next (next (next ghost (.lock (.consumer buffer)) ()) (.lock .writer) ())
    (.slots buffer) available with hcounted
  show Keeps _ counted (drainChunk buffer available >>= _)
  have hdef : counted = { ghost with
      held := [.writer, .consumer buffer]
      chunk := if available = 0 then .drained buffer else .counted buffer available
      flush := if available = 0 then ghost.flush.without buffer else ghost.flush } := by
    simp only [hcounted, next, hheld]
    split <;> rfl
  clear_value counted
  have hflush : (if available = 0 then counted.flush else counted.flush.without buffer) =
      ghost.flush.without buffer := by
    rw [hdef]
    split <;> simp [*]
  refine ((keeps_drainChunk (by simp [hdef]) (by simpa [hdef] using hfailure)
    (by simp [hdef])).mono ?_).bind
  rintro error chunk ⟨hsame, hchunk⟩
  refine ((keeps_drainTrailing (by simp [hchunk.held, hdef]) hchunk.chunk hchunk.failure
    hchunk.stops (by simpa [hsame, hdef] using hsending)).mono ?_).bind
  intro error trailed htrailed
  refine (keeps_release (by simp [htrailed.held, hchunk.held, hdef]) htrailed.chunk
    htrailed.failure).mono ?_
  rintro - _ rfl
  refine ⟨⟨rfl, rfl, rfl, rfl⟩, ?_, ?_, ?_, ?_, ?_⟩
  · show trailed.report = ghost.report
    rw [htrailed.report, hchunk.report, hdef]
  · show trailed.emitting = ghost.emitting
    rw [htrailed.emitting, hchunk.emitting, hdef]
  · show trailed.sending = ghost.sending ∨ trailed.sending = none
    simpa [hsame, hdef] using htrailed.sent
  · show trailed.flush = ghost.flush ∨ trailed.flush = ghost.flush.without buffer
    have hwithout : (ghost.flush.without buffer).without buffer = ghost.flush.without buffer := by
      rcases hcase : ghost.flush with _ | _ | left <;> simp [Flush.without, List.filter_filter]
    have hcounted : counted.flush = ghost.flush ∨ counted.flush = ghost.flush.without buffer := by
      rw [hdef]
      by_cases hempty : available = 0 <;> simp [hempty]
    grind [htrailed.flushes, hchunk.flushes]
  · rcases htrailed.delivers with hdiscards | ⟨hdiscards, hsent, hflushed⟩
    · exact Or.inl hdiscards
    · rcases hchunk.delivers with hstopped | ⟨hkept, -, hleft⟩
      · exact Or.inl (hdiscards.trans hstopped)
      · refine Or.inr ⟨?_, ?_, ?_⟩
        · show trailed.discards = ghost.discards
          rw [hdiscards, hkept, hdef]
        · show trailed.sending = _
          rw [hsent, hsame, hdef]
        · show trailed.flush = _
          rw [hflushed, hleft, hflush]

theorem Ghost.Quiet.final {ghost : Ghost} (h : ghost.Quiet)
    (hemitting : ghost.emitting = none) (hsending : ghost.sending = none)
    (hflush : ghost.flush = .none) (hreport : ghost.report = .none) : Final ghost := by
  rcases ghost
  rcases h with ⟨rfl, rfl, rfl, rfl⟩
  simp only at hemitting hsending hflush hreport
  subst hemitting hsending hflush hreport
  rfl

theorem keeps_packetDrop (thread : ThreadId) {packet : Bytes} (hpacket : packet ≠ []) :
    Keeps (fun _ => Final) { rest with emitting := some packet, sending := some (thread, packet) }
      (packetDrop thread packet) := by
  refine ⟨⟨rfl, thread, rfl⟩, fun pushed => ?_⟩
  rcases pushed with _ | _
  · refine ((keeps_drainThreadBuffer ⟨rfl, rfl, rfl, rfl⟩ (Or.inr rfl)).mono ?_).bind
    rintro - after ⟨⟨hheld, hchunk, hwrite, hfailure⟩, hreport, hemitting, -, hflush, hdelivers⟩
    refine ⟨⟨hemitting, ?_⟩, fun _ => ?_⟩
    · rcases hdelivers with hdiscards | ⟨-, hsent, -⟩
      · exact Or.inr hdiscards
      · exact Or.inl (by rw [hsent, if_neg hpacket])
    · exact Ghost.Quiet.final ⟨hheld, hchunk, hwrite, hfailure⟩ rfl rfl (or_self_iff.1 hflush)
        hreport
  · exact ⟨⟨rfl, Or.inl rfl⟩, fun _ => rfl⟩

/-- Draining every buffer on the list drains every buffer that was left. -/
theorem keeps_drainAll {buffers left : List ThreadId} {ghost : Ghost} (hquiet : ghost.Quiet)
    (hflush : ghost.discards = true ∨ ghost.flush = .draining left) (hleft : left ⊆ buffers) :
    Keeps (fun _ after => after.Quiet ∧ after.report = ghost.report ∧
        after.emitting = ghost.emitting ∧ (after.sending = ghost.sending ∨ after.sending = none) ∧
        (after.discards = true ∨ after.flush = .draining [])) ghost (drainAll buffers) := by
  induction buffers generalizing left ghost with
  | nil =>
      refine ⟨hquiet, rfl, rfl, Or.inl rfl, ?_⟩
      rwa [List.subset_nil.1 hleft] at hflush
  | cons buffer buffers ih =>
      refine ((keeps_drainThreadBuffer hquiet (Or.inl rfl)).mono ?_).bind
      rintro - drained ⟨hdrained, hreport, hemitting, hsent, -, hdelivers⟩
      have hsubset : left.filter (· ≠ buffer) ⊆ buffers := by
        intro other hother
        rw [List.mem_filter, decide_eq_true_eq] at hother
        exact (List.mem_cons.1 (hleft hother.1)).resolve_left hother.2
      have hnext : drained.discards = true ∨
          drained.flush = .draining (left.filter (· ≠ buffer)) := by
        rcases hdelivers with hdiscards | ⟨hkept, -, hflushed⟩
        · exact Or.inl hdiscards
        · rcases hflush with hdiscards | hflush
          · exact Or.inl (hkept.trans hdiscards)
          · exact Or.inr (by rw [hflushed, hflush, Flush.without])
      refine (ih hdrained hnext hsubset).mono ?_
      rintro - after ⟨hquiet', hreport', hemitting', hsent', hflush'⟩
      refine ⟨hquiet', hreport'.trans hreport, hemitting'.trans hemitting, ?_, hflush'⟩
      rcases hsent' with hsame | hnone
      · rwa [hsame]
      · exact Or.inr hnone

/-- After its drains, `flush_all` flushes the writer and reports. -/
theorem keeps_report {ghost : Ghost} (hquiet : ghost.Quiet) (hemitting : ghost.emitting = none)
    (hsending : ghost.sending = none)
    (hflush : ghost.discards = true ∨ ghost.flush = .draining []) :
    Keeps (fun _ => Final) ghost (do
      let failed ← act (.hasError .report)
      if !failed then act (.flushReturn none)
      else do
        act (.lock .error)
        let recorded ← act .recorded
        act (.unlock .error)
        act (.flushReturn (some (recorded.getD .unrecorded)))) := by
  refine ⟨⟨hquiet.failure, hflush.symm⟩, fun failed => ?_⟩
  rcases failed with _ | _
  · refine ⟨⟨hflush.symm, Or.inl ⟨rfl, rfl⟩⟩, fun _ => ?_⟩
    exact Ghost.Quiet.final ⟨hquiet.held, hquiet.chunk, hquiet.mayWrite, hquiet.failure⟩
      hemitting hsending rfl rfl
  · refine ⟨hquiet.chunk, fun _ => ⟨rfl, fun recorded => ⟨⟨rfl, ?_⟩, fun _ =>
      ⟨⟨hflush.symm, Or.inr ⟨_, rfl, rfl⟩⟩, fun _ => ?_⟩⟩⟩⟩
    · simp [next, hquiet.chunk, Chunk.Released]
    · refine Ghost.Quiet.final ⟨?_, ?_, ?_, ?_⟩ hemitting hsending rfl rfl <;>
        simp [next, hquiet.held, hquiet.chunk, hquiet.mayWrite, hquiet.failure]

theorem keeps_flushAll : Keeps (fun _ => Final) { rest with flush := .waiting } flushAll := by
  refine ⟨rfl, fun _ => ⟨rfl, fun buffers => ⟨⟨rfl, trivial⟩, fun _ => ?_⟩⟩⟩
  refine ((keeps_drainAll ⟨rfl, rfl, rfl, rfl⟩ (Or.inr rfl) (List.Subset.refl _)).mono ?_).bind
  rintro - drained ⟨hquiet, -, hemitting, hsending, hflush⟩
  have hemitting : drained.emitting = none := hemitting
  have hsending : drained.sending = none := or_self_iff.1 hsending
  refine ⟨hquiet.chunk, fun _ => ⟨hquiet.failure, fun error => ⟨⟨?_, ?_⟩, fun _ => ?_⟩⟩⟩
  · rcases error <;> rfl
  · rcases error <;> simp [next, hquiet.chunk, Chunk.Released]
  · refine ((keeps_recordAny ?_ ?_).mono ?_).bind
    · rcases error <;> simp [next, hquiet.chunk]
    · rcases error <;> simp [next, hquiet.failure]
    · rintro - _ rfl
      refine keeps_report ⟨?_, ?_, ?_, rfl⟩ ?_ ?_ ?_ <;> rcases error <;>
        simp [next, hquiet.held, hquiet.chunk, hemitting, hsending, hflush, Chunk.buffer]

theorem keeps_exit (thread : ThreadId) :
    Keeps (fun _ => Final) rest (drainThreadBuffer thread []) := by
  refine (keeps_drainThreadBuffer ⟨rfl, rfl, rfl, rfl⟩ (Or.inl rfl)).mono ?_
  rintro - after ⟨hquiet, hreport, hemitting, hsent, hflush, -⟩
  exact hquiet.final hemitting (or_self_iff.1 hsent) (or_self_iff.1 hflush) hreport

theorem keeps_newContext : Keeps (fun _ => Final) rest newContext :=
  ⟨rfl, fun _ => ⟨trivial, fun _ => ⟨⟨rfl, trivial⟩, fun _ => rfl⟩⟩⟩

end TracingPerfetto.OutputProtocol
