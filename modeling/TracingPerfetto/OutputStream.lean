import TracingPerfetto.OutputErrors

/-!
The byte stream. The abstract side is the order in which whole packets reached the
writer and the packets that wait in each ring; the relation to the rings, the writer
and the drains in progress holds until a drain stops (`OutputErrors.Stopped`).
-/

namespace TracingPerfetto.OutputStream

open TracingPerfetto.Wire TracingPerfetto.Threads TracingPerfetto.Output
open TracingPerfetto.OutputProtocol TracingPerfetto.OutputErrors

/-! ## Packets and bytes -/

theorem bytesOf_append (order more : List (ThreadId × Bytes)) :
    bytesOf (order ++ more) = bytesOf order ++ bytesOf more := by
  simp [bytesOf]

theorem packetsOf_append (thread : ThreadId) (order more : List (ThreadId × Bytes)) :
    packetsOf thread (order ++ more) = packetsOf thread order ++ packetsOf thread more := by
  simp [packetsOf]

/-- Packets with the thread that they are from. -/
def tagged (thread : ThreadId) (packets : List Bytes) : List (ThreadId × Bytes) :=
  packets.map fun packet => (thread, packet)

@[simp] theorem bytesOf_tagged (thread : ThreadId) (packets : List Bytes) :
    bytesOf (tagged thread packets) = packets.flatten := by
  simp [bytesOf, tagged, Function.comp_def]

@[simp] theorem packetsOf_tagged_self (thread : ThreadId) (packets : List Bytes) :
    packetsOf thread (tagged thread packets) = packets := by
  simp [packetsOf, tagged, List.filterMap_map]

theorem packetsOf_tagged_of_ne {thread other : ThreadId} (hne : other ≠ thread)
    (packets : List Bytes) : packetsOf other (tagged thread packets) = [] := by
  rw [packetsOf, List.filterMap_eq_nil_iff]
  intro entry hentry
  rcases List.mem_map.1 hentry with ⟨packet, -, rfl⟩
  simp [hne.symm]

/-- A prefix of the bytes of some packets is whole packets and a piece of the next. -/
theorem prefix_flatten {bytes : Bytes} {packets : List Bytes} (h : bytes <+: packets.flatten) :
    ∃ whole piece, whole <+: packets ∧ bytes = whole.flatten ++ piece ∧
      (piece = [] ∨ ∃ packet, piece <+: packet ∧ whole ++ [packet] <+: packets) := by
  induction packets generalizing bytes with
  | nil =>
      rw [List.flatten_nil, List.prefix_nil] at h
      exact ⟨[], [], List.prefix_rfl, by simp [h], Or.inl rfl⟩
  | cons packet packets ih =>
      rw [List.flatten_cons] at h
      rcases List.prefix_or_prefix_of_prefix h (List.prefix_append packet packets.flatten)
        with hpiece | ⟨more, rfl⟩
      · exact ⟨[], bytes, List.nil_prefix, rfl, Or.inr ⟨packet, hpiece, by simp⟩⟩
      · rcases ih ((List.prefix_append_right_inj packet).1 h) with
          ⟨whole, piece, hwhole, rfl, hpiece⟩
        refine ⟨packet :: whole, piece, by simpa using hwhole, by simp, hpiece.imp_right ?_⟩
        rintro ⟨next, hnext, hprefix⟩
        exact ⟨next, hnext, by simpa using hprefix⟩

/-! ## Histories -/

theorem emitted_cons (thread : ThreadId) (event : Event) (log : List Event) :
    emitted thread (event :: log) = emitted thread log ++ (startedBy thread event).toList := by
  rw [emitted, List.filterMap_cons]
  rcases hstarted : startedBy thread event with _ | packet <;> simp [emitted]

theorem completed_cons (thread : ThreadId) (event : Event) (log : List Event) :
    completed thread (event :: log) =
      completed thread log ++ (completedBy thread event).toList := by
  rw [completed, List.filterMap_cons]
  rcases hcompleted : completedBy thread event with _ | packet <;> simp [completed]

theorem completed_beforeFlush (thread flusher : ThreadId) (log : List Event) :
    completed thread (beforeFlush flusher log) <+: completed thread log := by
  induction log with
  | nil => exact List.prefix_rfl
  | cons event log ih =>
      rw [beforeFlush, completed_cons]
      split
      · exact List.prefix_append _ _
      · exact ih.trans (List.prefix_append _ _)

/-- The packets of a thread that were complete before the latest `flush_all` of the
flusher started. -/
def due (flusher : ThreadId) (log : List Event) (thread : ThreadId) : List Bytes :=
  completed thread (beforeFlush flusher log)

/-! ## The relation -/

/-- Bytes of the chunk that is being written, at the end of the writer's bytes. -/
def piece (state : State) (ghosts : ThreadId → Ghost) : Bytes :=
  match state.owner .writer with
  | some thread => (ghosts thread).chunk.piece
  | none => []

/-- Bytes at the start of a ring that the writer already has. -/
def leftover (state : State) (ghosts : ThreadId → Ghost) (buffer : ThreadId) : Bytes :=
  match state.owner (.consumer buffer) with
  | some thread => (ghosts thread).chunk.leftover buffer
  | none => []

variable (order : List (ThreadId × Bytes)) (queued : ThreadId → List Bytes)

/-- The first `count` packets in the ring of the buffer: all of them for the thread's own
buffer, and those that the thread's `flush_all` still owes. -/
structure Marks (log : List Event) (thread buffer : ThreadId) (count : Nat) : Prop where
  le : count ≤ (queued buffer).length
  own : buffer = thread → count = (queued buffer).length
  due : (due thread log buffer).length ≤ (packetsOf buffer order).length + count

def ChunkFlows (log : List Event) (thread : ThreadId) : Chunk → Prop
  | .none => True
  | .counted buffer available => ∃ count, Marks order queued log thread buffer count ∧
      ((queued buffer).take count).flatten.length = available
  | .taken buffer available first second
  | .half buffer available first second => ∃ count, Marks order queued log thread buffer count ∧
      ((queued buffer).take count).flatten = first ++ second ∧
      (first ++ second).length = available
  | .written buffer available bytes =>
      bytes.length = available ∧ (buffer = thread → queued buffer = [])
  | .drained buffer => buffer = thread → queued buffer = []

/-- What `flush_all` owes is with the writer, or the buffer is still to be drained. -/
def FlushFlows (state : State) (thread : ThreadId) : Flush → Prop
  | .none => True
  | .waiting => ∀ buffer, due thread state.log buffer ≠ [] → buffer ∈ state.threads
  | .draining left => ∀ buffer,
      (due thread state.log buffer).length ≤ (packetsOf buffer order).length ∨ buffer ∈ left

/-- The rings and the writer hold the packets of the abstract side. -/
structure Flows (state : State) (ghosts : ThreadId → Ghost) : Prop where
  output : state.output = bytesOf order ++ piece state ghosts
  ring : ∀ buffer,
    state.rings buffer = leftover state ghosts buffer ++ (queued buffer).flatten
  packets : ∀ buffer, emitted buffer state.log = packetsOf buffer order ++ queued buffer ++
    ((ghosts buffer).sending.map Prod.snd).toList
  chunk : ∀ thread, ChunkFlows order queued state.log thread (ghosts thread).chunk
  flush : ∀ thread, FlushFlows order state thread (ghosts thread).flush

/-- No test of this use finds `has_error` unset while a failed `write_all` of another
thread is unpublished. -/
def TestsPublished (use : TestUse) : Event → List Event → Prop
  | .tested thread tested false, log =>
      tested = use → ∀ other, other ≠ thread → unpublished other log = false
  | _, _ => True

/-- No `write_all` is issued after one that failed. -/
def NoWriteAfterFailure : Event → List Event → Prop
  | .wrote _ _ _, log => ∀ thread bytes error, .wrote thread bytes (some error) ∉ log
  | _, _ => True

/-- The bytes of whole packets, and a piece of one more packet of some thread. -/
def Truncated (log : List Event) (output : Bytes) : Prop :=
  ∃ piece, output = bytesOf order ++ piece ∧
    (piece = [] ∨ ∃ thread packet, piece <+: packet ∧
      packetsOf thread order ++ [packet] <+: emitted thread log)

/-- The `flush_all` of the thread leaves nothing that it owes. -/
def Delivered (thread : ThreadId) (log : List Event) : Prop :=
  ∀ buffer, (due thread log buffer).length ≤ (packetsOf buffer order).length

/-- What holds of a `flush_all` at the moment it returns. -/
def Returned : List Event → Prop
  | .flushReturned thread error :: log =>
      (¬ Stopped log → Delivered order thread log) ∧
      (error = none → Throughout (TestsPublished .report) log → Delivered order thread log) ∧
      ∀ reported, error = some reported → Throughout RecordsFirst log →
        ∃ first, firstFailure log = some (first, reported)
  | _ => True

/-- What holds whether or not a drain has stopped. -/
structure Base (state : State) (ghosts : ThreadId → Ghost) : Prop where
  own : ∀ thread buffer packet, (ghosts thread).sending = some (buffer, packet) →
    buffer = thread ∧ (ghosts thread).emitting = some packet
  progress : ∀ thread, emitted thread state.log =
    completed thread state.log ++ (ghosts thread).emitting.toList
  nonempty : ∀ thread, ∀ packet ∈ emitted thread state.log, packet ≠ []
  registered : ∀ thread, state.contexts thread ≠ .absent ∨ emitted thread state.log ≠ [] →
    thread ∈ state.threads
  sent : ∀ thread, packetsOf thread order <+: emitted thread state.log
  output : bytesOf order <+: state.output
  clean : ∀ thread, (ghosts thread).report = .clean →
    Throughout (TestsPublished .report) state.log → Delivered order thread state.log
  returned : Returned order state.log
  sticky : Throughout (TestsPublished (.write true)) state.log →
    Throughout NoWriteAfterFailure state.log
  truncated : Stopped state.log → Throughout (TestsPublished (.write true)) state.log →
    Truncated order state.log state.output ∧ ∀ thread, (ghosts thread).mayWrite = false

/-! ## What other threads keep -/

section Stability

variable {order queued} {order' : List (ThreadId × Bytes)} {queued' : ThreadId → List Bytes}
variable {log log' : List Event} {state state' : State} {thread : ThreadId}

theorem ChunkFlows.mono {chunk : Chunk} (h : ChunkFlows order queued log thread chunk)
    (hdue : due thread log' = due thread log)
    (hqueued : ∀ buffer, chunk.buffer = some buffer → queued buffer <+: queued' buffer ∧
      (buffer = thread → queued' buffer = queued buffer))
    (horder : ∀ buffer, (packetsOf buffer order).length ≤ (packetsOf buffer order').length) :
    ChunkFlows order' queued' log' thread chunk := by
  have hmarks : ∀ {buffer count}, chunk.buffer = some buffer →
      Marks order queued log thread buffer count →
      Marks order' queued' log' thread buffer count ∧
        (queued' buffer).take count = (queued buffer).take count := by
    intro buffer count hbuffer hmarks
    rcases hqueued buffer hbuffer with ⟨⟨more, hmore⟩, hown⟩
    refine ⟨⟨?_, ?_, ?_⟩, ?_⟩
    · rw [← hmore, List.length_append]
      exact hmarks.le.trans (Nat.le_add_right _ _)
    · intro heq
      rw [hown heq]
      exact hmarks.own heq
    · rw [hdue]
      exact hmarks.due.trans (Nat.add_le_add_right (horder buffer) _)
    · rw [← hmore, List.take_append_of_le_length hmarks.le]
  rcases chunk with _ | ⟨buffer, available⟩ | ⟨buffer, available, first, second⟩ |
    ⟨buffer, available, first, second⟩ | ⟨buffer, available, bytes⟩ | buffer
  · trivial
  · rcases h with ⟨count, hcount, hbytes⟩
    rcases hmarks rfl hcount with ⟨hcount', htake⟩
    exact ⟨count, hcount', by rw [htake, hbytes]⟩
  · rcases h with ⟨count, hcount, hbytes⟩
    rcases hmarks rfl hcount with ⟨hcount', htake⟩
    exact ⟨count, hcount', by rwa [htake]⟩
  · rcases h with ⟨count, hcount, hbytes⟩
    rcases hmarks rfl hcount with ⟨hcount', htake⟩
    exact ⟨count, hcount', by rwa [htake]⟩
  · exact ⟨h.1, fun heq => ((hqueued buffer rfl).2 heq).trans (h.2 heq)⟩
  · exact fun heq => ((hqueued buffer rfl).2 heq).trans (h heq)

theorem FlushFlows.mono {flush : Flush} (h : FlushFlows order state thread flush)
    (hdue : due thread state'.log = due thread state.log)
    (hthreads : state.threads ⊆ state'.threads)
    (horder : ∀ buffer, (packetsOf buffer order).length ≤ (packetsOf buffer order').length) :
    FlushFlows order' state' thread flush := by
  rcases flush with _ | _ | left
  · trivial
  · intro buffer hbuffer
    rw [hdue] at hbuffer
    exact hthreads (h buffer hbuffer)
  · intro buffer
    rw [hdue]
    exact (h buffer).imp_left fun hle => hle.trans (horder buffer)

/-- What a step of the thread owes, when it keeps what the others rely on. -/
theorem Flows.step {ghosts : ThreadId → Ghost} (h : Flows order queued state ghosts)
    {ghost : Ghost}
    (hemitted : ∀ other, other ≠ thread → emitted other state'.log = emitted other state.log)
    (hdue : ∀ other, other ≠ thread → due other state'.log = due other state.log)
    (hthreads : state.threads ⊆ state'.threads)
    (horder : ∀ other, (packetsOf other order).length ≤ (packetsOf other order').length)
    (hqueued : ∀ other, other ≠ thread → ∀ buffer, (ghosts other).chunk.buffer = some buffer →
      queued buffer <+: queued' buffer ∧ (buffer = other → queued' buffer = queued buffer))
    (hothers : ∀ other, other ≠ thread →
      packetsOf other order' ++ queued' other = packetsOf other order ++ queued other)
    (houtput : state'.output =
      bytesOf order' ++ piece state' (Function.update ghosts thread ghost))
    (hring : ∀ buffer, state'.rings buffer =
      leftover state' (Function.update ghosts thread ghost) buffer ++ (queued' buffer).flatten)
    (hpackets : emitted thread state'.log = packetsOf thread order' ++ queued' thread ++
      (ghost.sending.map Prod.snd).toList)
    (hchunk : ChunkFlows order' queued' state'.log thread ghost.chunk)
    (hflush : FlushFlows order' state' thread ghost.flush) :
    Flows order' queued' state' (Function.update ghosts thread ghost) := by
  constructor
  · exact houtput
  · exact hring
  all_goals
    intro other
    rcases eq_or_ne other thread with rfl | hne
  · rwa [Function.update_self]
  · rw [Function.update_of_ne hne, hemitted other hne, hothers other hne]
    exact h.packets other
  · rwa [Function.update_self]
  · rw [Function.update_of_ne hne]
    exact (h.chunk other).mono (hdue other hne) (hqueued other hne) horder
  · rwa [Function.update_self]
  · rw [Function.update_of_ne hne]
    exact (h.flush other).mono (hdue other hne) hthreads horder

end Stability

/-! ## Who the piece and the leftover belong to -/

section Holders

variable {state state' : State} {ghosts : ThreadId → Ghost} {thread : ThreadId} {ghost : Ghost}

theorem piece_of_held (h : Locks state ghosts) (hheld : .writer ∈ (ghosts thread).held) :
    piece state ghosts = (ghosts thread).chunk.piece := by
  rw [piece, (h.owner thread .writer).2 hheld]

theorem leftover_of_held (h : Locks state ghosts) {buffer : ThreadId}
    (hheld : .consumer buffer ∈ (ghosts thread).held) :
    leftover state ghosts buffer = (ghosts thread).chunk.leftover buffer := by
  rw [leftover, (h.owner thread (.consumer buffer)).2 hheld]

/-- The holder of a mutex decides what the piece is, also after its own step. -/
theorem piece_self (h : Locks state ghosts) (hheld : .writer ∈ (ghosts thread).held)
    (howner : state'.owner = state.owner) :
    piece state' (Function.update ghosts thread ghost) = ghost.chunk.piece := by
  rw [piece, howner, (h.owner thread .writer).2 hheld]
  simp

theorem leftover_self (h : Locks state ghosts) {buffer : ThreadId}
    (hheld : .consumer buffer ∈ (ghosts thread).held) (howner : state'.owner = state.owner) :
    leftover state' (Function.update ghosts thread ghost) buffer =
      ghost.chunk.leftover buffer := by
  rw [leftover, howner, (h.owner thread (.consumer buffer)).2 hheld]
  simp

theorem piece_update (howner : state'.owner .writer = state.owner .writer)
    (hpiece : state.owner .writer = some thread → ghost.chunk.piece = (ghosts thread).chunk.piece) :
    piece state' (Function.update ghosts thread ghost) = piece state ghosts := by
  rw [piece, piece, howner]
  rcases hcase : state.owner .writer with _ | other
  · rfl
  · rcases eq_or_ne other thread with rfl | hne
    · simpa using hpiece hcase
    · simp [hne]

theorem leftover_update {buffer : ThreadId}
    (howner : state'.owner (.consumer buffer) = state.owner (.consumer buffer))
    (hleftover : state.owner (.consumer buffer) = some thread →
      ghost.chunk.leftover buffer = (ghosts thread).chunk.leftover buffer) :
    leftover state' (Function.update ghosts thread ghost) buffer =
      leftover state ghosts buffer := by
  rw [leftover, leftover, howner]
  rcases hcase : state.owner (.consumer buffer) with _ | other
  · rfl
  · rcases eq_or_ne other thread with rfl | hne
    · simpa using hleftover hcase
    · simp [hne]

theorem piece_released (howner : state'.owner .writer = state.owner .writer ∨
      (state.owner .writer = none ∨ state.owner .writer = some thread) ∧
      (state'.owner .writer = none ∨ state'.owner .writer = some thread))
    (hold : (ghosts thread).chunk.Released) (hnew : ghost.chunk.Released) :
    piece state' (Function.update ghosts thread ghost) = piece state ghosts := by
  rcases howner with hsame | ⟨hbefore, hafter⟩
  · exact piece_update hsame fun _ => by rw [hold.piece, hnew.piece]
  · have hpieces : piece state ghosts = [] ∧
        piece state' (Function.update ghosts thread ghost) = [] := by
      constructor
      · rcases hbefore with hcase | hcase <;> simp [piece, hcase, hold.piece]
      · rcases hafter with hcase | hcase <;> simp [piece, hcase, hnew.piece]
    rw [hpieces.1, hpieces.2]

theorem leftover_released {buffer : ThreadId}
    (howner : state'.owner (.consumer buffer) = state.owner (.consumer buffer) ∨
      (state.owner (.consumer buffer) = none ∨ state.owner (.consumer buffer) = some thread) ∧
      (state'.owner (.consumer buffer) = none ∨ state'.owner (.consumer buffer) = some thread))
    (hold : (ghosts thread).chunk.Released) (hnew : ghost.chunk.Released) :
    leftover state' (Function.update ghosts thread ghost) buffer =
      leftover state ghosts buffer := by
  rcases howner with hsame | ⟨hbefore, hafter⟩
  · exact leftover_update hsame fun _ => by rw [hold.leftover, hnew.leftover]
  · have hboth : leftover state ghosts buffer = [] ∧
        leftover state' (Function.update ghosts thread ghost) buffer = [] := by
      constructor
      · rcases hbefore with hcase | hcase <;> simp [leftover, hcase, hold.leftover]
      · rcases hafter with hcase | hcase <;> simp [leftover, hcase, hnew.leftover]
    rw [hboth.1, hboth.2]

end Holders

/-! ## What every action keeps -/

section Actions

variable {state state' : State} {ghosts : ThreadId → Ghost} {thread : ThreadId}
variable {action : Act} {choice : Choice} {reply : Reply action}

theorem perform_emitted (hperform : perform thread action choice state = some (reply, state'))
    (other : ThreadId) : emitted other state'.log = emitted other state.log := by
  rw [perform_log hperform]
  rcases action <;> simp [noted, emitted_cons, startedBy]

theorem perform_due (hperform : perform thread action choice state = some (reply, state'))
    (other : ThreadId) : due other state'.log = due other state.log := by
  funext buffer
  rw [due, due, perform_log hperform]
  rcases action <;> simp [noted, beforeFlush]

theorem perform_threads (hperform : perform thread action choice state = some (reply, state')) :
    state.threads ⊆ state'.threads := by
  rcases action <;> simp only [perform] at hperform <;> grind [State.note]

theorem perform_stopped (hperform : perform thread action choice state = some (reply, state'))
    (hstopped : Stopped state.log) : Stopped state'.log := by
  rw [perform_log hperform]
  rcases noted thread action reply with _ | event
  · exact hstopped
  · exact stopped_cons.2 (Or.inr hstopped)

end Actions

end TracingPerfetto.OutputStream
