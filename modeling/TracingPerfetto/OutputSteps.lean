import TracingPerfetto.OutputStream

/-!
Every action keeps the relation of `OutputStream`, as long as no drain has stopped.
-/

namespace TracingPerfetto.OutputSteps

open TracingPerfetto.Wire TracingPerfetto.Threads TracingPerfetto.Output
open TracingPerfetto.OutputProtocol TracingPerfetto.OutputErrors TracingPerfetto.OutputStream

variable {state state' : State} {ghosts : ThreadId → Ghost} {thread : ThreadId}
variable {order : List (ThreadId × Bytes)} {queued : ThreadId → List Bytes}
variable {action : Act} {choice : Choice} {reply : Reply action}

/-- An action that moves no bytes. -/
theorem Flows.still (h : Flows order queued state ghosts) {ghost : Ghost}
    (hperform : perform thread action choice state = some (reply, state'))
    (houtput : state'.output = state.output) (hrings : state'.rings = state.rings)
    (hpiece : piece state' (Function.update ghosts thread ghost) = piece state ghosts)
    (hleftover : ∀ buffer,
      leftover state' (Function.update ghosts thread ghost) buffer = leftover state ghosts buffer)
    (hsending : ghost.sending = (ghosts thread).sending)
    (hchunk : ChunkFlows order queued state'.log thread ghost.chunk)
    (hflush : FlushFlows order state' thread ghost.flush) :
    Flows order queued state' (Function.update ghosts thread ghost) := by
  refine h.step (fun _ _ => perform_emitted hperform _) (fun _ _ => perform_due hperform _)
    (perform_threads hperform)
    (fun _ => le_rfl) (fun _ _ _ _ => ⟨List.prefix_rfl, fun _ => rfl⟩) (fun _ _ => rfl)
    ?_ ?_ ?_ hchunk hflush
  · rw [houtput, hpiece, h.output]
  · intro buffer
    rw [hrings, hleftover, h.ring]
  · rw [perform_emitted hperform, hsending, h.packets]

/-- The thread's own chunk and flush, when they stay as they are. -/
theorem Flows.chunk_same (h : Flows order queued state ghosts)
    (hperform : perform thread action choice state = some (reply, state')) :
    ChunkFlows order queued state'.log thread (ghosts thread).chunk :=
  (h.chunk thread).mono (perform_due hperform thread)
    (fun _ _ => ⟨List.prefix_rfl, fun _ => rfl⟩) fun _ => le_rfl

theorem Flows.flush_same (h : Flows order queued state ghosts)
    (hperform : perform thread action choice state = some (reply, state')) :
    FlushFlows order state' thread (ghosts thread).flush :=
  (h.flush thread).mono (perform_due hperform thread) (perform_threads hperform) fun _ => le_rfl

/-- Actions that touch neither bytes, nor mutexes, nor chunks. -/
def plain : Act → Bool
  | .pushEntireSlice _ | .lock _ | .unlock _ | .slots _ | .readChunk _ _ | .writeAll _
  | .commitAll _ _ | .cloneThreads => false
  | _ => true

theorem perform_plain (hplain : plain action = true)
    (hperform : perform thread action choice state = some (reply, state')) :
    state'.output = state.output ∧ state'.rings = state.rings ∧ state'.owner = state.owner := by
  rcases action <;> simp only [plain, Bool.false_eq_true] at hplain <;>
    simp only [perform] at hperform <;> grind [State.note]

theorem Flows.plain (h : Flows order queued state ghosts) (hplain : plain action = true)
    (hdiscards : (ghosts thread).discards = false) (hpre : pre (ghosts thread) action)
    (hperform : perform thread action choice state = some (reply, state')) :
    Flows order queued state'
      (Function.update ghosts thread (next (ghosts thread) action reply)) := by
  rcases perform_plain hplain hperform with ⟨houtput, hrings, howner⟩
  have hghost : (next (ghosts thread) action reply).chunk = (ghosts thread).chunk ∧
      (next (ghosts thread) action reply).sending = (ghosts thread).sending ∧
      ((next (ghosts thread) action reply).flush = (ghosts thread).flush ∨
        (next (ghosts thread) action reply).flush = .none) := by
    rcases action <;> simp only [OutputSteps.plain, Bool.false_eq_true] at hplain <;>
      simp only [next] <;> grind [pre]
  refine Flows.still h hperform houtput hrings
    (piece_update (congrFun howner _) fun _ => by rw [hghost.1])
    (fun buffer => leftover_update (congrFun howner _) fun _ => by rw [hghost.1]) hghost.2.1 ?_ ?_
  · rw [hghost.1]
    exact Flows.chunk_same h hperform
  · rcases hghost.2.2 with hsame | hnone
    · rw [hsame]
      exact Flows.flush_same h hperform
    · rw [hnone]
      trivial

theorem Flows.lock (h : Flows order queued state ghosts) {lock : Lock}
    (hpre : pre (ghosts thread) (.lock lock)) (hfree : state.owner lock = none) :
    Flows order queued { state with owner := Function.update state.owner lock (some thread) }
      (Function.update ghosts thread (next (ghosts thread) (.lock lock) ())) := by
  have hchunk : (ghosts thread).chunk = .none := hpre
  have hreleased : (ghosts thread).chunk.Released := by rw [hchunk]; trivial
  have howner : ∀ other, Function.update state.owner lock (some thread) other =
      state.owner other ∨ (state.owner other = none ∨ state.owner other = some thread) ∧
        (Function.update state.owner lock (some thread) other = none ∨
          Function.update state.owner lock (some thread) other = some thread) := by
    intro other
    rcases eq_or_ne other lock with rfl | hne
    · exact Or.inr ⟨Or.inl hfree, Or.inr (by simp)⟩
    · exact Or.inl (Function.update_of_ne hne _ _)
  have hperform : perform thread (.lock lock) .plain state =
      some ((), { state with owner := Function.update state.owner lock (some thread) }) := by
    simp [perform, hfree]
  exact Flows.still h hperform rfl rfl (piece_released (howner .writer) hreleased hreleased)
    (fun buffer => leftover_released (howner (.consumer buffer)) hreleased hreleased) rfl
    (Flows.chunk_same h hperform) (Flows.flush_same h hperform)

theorem Flows.unlock (h : Flows order queued state ghosts) (hlocks : Locks state ghosts)
    {lock : Lock} (hpre : pre (ghosts thread) (.unlock lock)) :
    Flows order queued { state with owner := Function.update state.owner lock none }
      (Function.update ghosts thread (next (ghosts thread) (.unlock lock) ())) := by
  rcases hpre with ⟨hhead, hreleased⟩
  have hheld : state.owner lock = some thread :=
    (hlocks.owner thread lock).2 (List.mem_of_mem_head? hhead)
  have hnew : (next (ghosts thread) (.unlock lock) ()).chunk.Released := by
    simp only [next]
    split
    · trivial
    · exact hreleased
  have howner : ∀ other, Function.update state.owner lock none other =
      state.owner other ∨ (state.owner other = none ∨ state.owner other = some thread) ∧
        (Function.update state.owner lock none other = none ∨
          Function.update state.owner lock none other = some thread) := by
    intro other
    rcases eq_or_ne other lock with rfl | hne
    · exact Or.inr ⟨Or.inr hheld, Or.inl (by simp)⟩
    · exact Or.inl (Function.update_of_ne hne _ _)
  have hperform : perform thread (.unlock lock) .plain state =
      some ((), { state with owner := Function.update state.owner lock none }) := rfl
  have hsame := Flows.chunk_same h hperform
  refine Flows.still h hperform rfl rfl (piece_released (howner .writer) hreleased hnew)
    (fun buffer => leftover_released (howner (.consumer buffer)) hreleased hnew) rfl ?_
    (Flows.flush_same h hperform)
  simp only [next]
  split
  · trivial
  · exact hsame

theorem Flows.cloneThreads (h : Flows order queued state ghosts)
    (hpre : pre (ghosts thread) .cloneThreads) :
    Flows order queued state
      (Function.update ghosts thread (next (ghosts thread) .cloneThreads state.threads)) := by
  have hperform : perform thread .cloneThreads .plain state = some (state.threads, state) := rfl
  refine Flows.still h hperform rfl rfl (piece_update rfl fun _ => rfl)
    (fun buffer => leftover_update rfl fun _ => rfl) rfl (Flows.chunk_same h hperform) ?_
  have hflush := h.flush thread
  rw [show (ghosts thread).flush = .waiting from hpre] at hflush
  intro buffer
  by_cases hdue : due thread state.log buffer = []
  · exact Or.inl (by simp [hdue])
  · exact Or.inr (hflush buffer hdue)

/-- What is owed of a buffer is in its ring or with the writer. -/
theorem due_le (thread : ThreadId) (h : Flows order queued state ghosts)
    (hbase : Base order state ghosts)
    (buffer : ThreadId) : (due thread state.log buffer).length ≤
      (packetsOf buffer order).length + (queued buffer).length := by
  have hcompleted := (completed_beforeFlush buffer thread state.log).length_le
  have hprogress := congrArg List.length (hbase.progress buffer)
  have hpackets := congrArg List.length (h.packets buffer)
  simp only [List.length_append] at hprogress hpackets
  rcases hsending : (ghosts buffer).sending with _ | ⟨of_, packet⟩
  · simp only [hsending, Option.map_none, Option.toList_none, List.length_nil] at hpackets
    rw [due]
    omega
  · have hemitting := (hbase.own buffer of_ packet hsending).2
    simp only [hsending, hemitting, Option.map_some, Option.toList_some, List.length_singleton]
      at hpackets hprogress
    rw [due]
    omega

theorem queued_nonempty (h : Flows order queued state ghosts) (hbase : Base order state ghosts)
    {buffer : ThreadId} (hflatten : (queued buffer).flatten = []) : queued buffer = [] := by
  rcases hcase : queued buffer with _ | ⟨packet, packets⟩
  · rfl
  · have hmem : packet ∈ emitted buffer state.log := by
      rw [h.packets, hcase]
      simp
    rw [hcase, List.flatten_cons, List.append_eq_nil_iff] at hflatten
    exact absurd hflatten.1 (hbase.nonempty buffer packet hmem)

theorem FlushFlows.without {flush : Flush} (h : FlushFlows order state thread flush)
    {buffer : ThreadId}
    (hdue : (due thread state.log buffer).length ≤ (packetsOf buffer order).length) :
    FlushFlows order state thread (flush.without buffer) := by
  rcases flush with _ | _ | left
  · trivial
  · exact h
  · intro other
    rcases eq_or_ne other buffer with rfl | hne
    · exact Or.inl hdue
    · exact (h other).imp_right fun hmem => List.mem_filter.2 ⟨hmem, by simpa using hne⟩

theorem Flows.slots (h : Flows order queued state ghosts) (hbase : Base order state ghosts)
    (hlocks : Locks state ghosts) {buffer : ThreadId}
    (hpre : pre (ghosts thread) (.slots buffer)) :
    Flows order queued state (Function.update ghosts thread
      (next (ghosts thread) (.slots buffer) (state.rings buffer).length)) := by
  rcases hpre with ⟨hheld, hchunk⟩
  have hreleased : (ghosts thread).chunk.Released := by rw [hchunk]; trivial
  have hring : state.rings buffer = (queued buffer).flatten := by
    rw [h.ring, leftover_of_held hlocks hheld, hreleased.leftover, List.nil_append]
  have hperform : perform thread (.slots buffer) .plain state =
      some ((state.rings buffer).length, state) := rfl
  by_cases hempty : (state.rings buffer).length = 0
  · have hqueued : queued buffer = [] :=
      queued_nonempty h hbase (hring ▸ List.length_eq_zero_iff.1 hempty)
    rw [show next (ghosts thread) (.slots buffer) (state.rings buffer).length = _ from
      if_pos hempty]
    refine Flows.still h hperform rfl rfl
      (piece_update rfl fun _ => hreleased.piece.symm)
      (fun other => leftover_update rfl fun _ => (hreleased.leftover other).symm) rfl
      (fun _ => hqueued) (FlushFlows.without (h.flush thread) ?_)
    simpa [hqueued] using due_le thread h hbase buffer
  · rw [show next (ghosts thread) (.slots buffer) (state.rings buffer).length = _ from
      if_neg hempty]
    refine Flows.still h hperform rfl rfl
      (piece_update rfl fun _ => hreleased.piece.symm)
      (fun other => leftover_update rfl fun _ => (hreleased.leftover other).symm) rfl
      ⟨(queued buffer).length, ⟨le_rfl, fun _ => rfl, due_le thread h hbase buffer⟩, ?_⟩
      (h.flush thread)
    rw [List.take_length, hring]

theorem Flows.readChunk (h : Flows order queued state ghosts) (hlocks : Locks state ghosts)
    {buffer : ThreadId} {available first : Nat}
    (hpre : pre (ghosts thread) (.readChunk buffer available)) :
    Flows order queued state (Function.update ghosts thread
      (next (ghosts thread) (.readChunk buffer available)
        (((state.rings buffer).take available).take first,
          ((state.rings buffer).take available).drop first))) := by
  have hchunk : (ghosts thread).chunk = .counted buffer available := hpre
  have hheld := hlocks.chunk thread buffer (by rw [hchunk]; rfl)
  have hring : state.rings buffer = (queued buffer).flatten := by
    rw [h.ring, leftover_of_held hlocks hheld, hchunk]
    rfl
  have hcounted := h.chunk thread
  rw [hchunk] at hcounted
  rcases hcounted with ⟨count, hmarks, havailable⟩
  have hsplit : (queued buffer).flatten =
      ((queued buffer).take count).flatten ++ ((queued buffer).drop count).flatten := by
    rw [← List.flatten_append, List.take_append_drop]
  have htake : (state.rings buffer).take available = ((queued buffer).take count).flatten := by
    rw [hring, hsplit, ← havailable, List.take_left']
    rfl
  have hperform : perform thread (.readChunk buffer available) (.wrap first) state = some
      ((((state.rings buffer).take available).take first,
          ((state.rings buffer).take available).drop first), state) := by
    have hle : available ≤ (state.rings buffer).length := by
      rw [hring, hsplit, List.length_append, havailable]
      exact Nat.le_add_right _ _
    simp [perform, hle]
  refine Flows.still h hperform rfl rfl (piece_update rfl fun _ => ?_)
    (fun other => leftover_update rfl fun _ => ?_) rfl ⟨count, hmarks, ?_, ?_⟩ (h.flush thread)
  · rw [hchunk]
    rfl
  · rw [hchunk]
    rfl
  · rw [List.take_append_drop, htake]
  · rw [List.take_append_drop, htake, havailable]

theorem Flows.push (h : Flows order queued state ghosts) (hbase : Base order state ghosts)
    {packet : Bytes} (hpre : pre (ghosts thread) (.pushEntireSlice packet))
    (hperform : perform thread (.pushEntireSlice packet) choice state = some (true, state')) :
    Flows order (Function.update queued thread (queued thread ++ [packet])) state'
      (Function.update ghosts thread (next (ghosts thread) (.pushEntireSlice packet) true)) := by
  rcases hpre with ⟨hchunk, buffer, hsending⟩
  rcases hbase.own thread buffer packet hsending with ⟨rfl, -⟩
  have hstate : state' = { state with
      rings := Function.update state.rings buffer (state.rings buffer ++ packet) } := by
    simp only [perform] at hperform
    grind
  have hleftover : ∀ other, leftover state' (Function.update ghosts buffer
      (next (ghosts buffer) (.pushEntireSlice packet) true)) other =
        leftover state ghosts other := by
    intro other
    exact leftover_update (by rw [hstate]) fun _ => rfl
  have hpiece : piece state' (Function.update ghosts buffer
      (next (ghosts buffer) (.pushEntireSlice packet) true)) = piece state ghosts :=
    piece_update (by rw [hstate]) fun _ => rfl
  refine h.step (fun _ _ => perform_emitted hperform _) (fun _ _ => perform_due hperform _)
    (perform_threads hperform)
    (fun _ => le_rfl) ?_ ?_ ?_ ?_ ?_ ?_ ?_
  · intro other hne of_ _
    rcases eq_or_ne of_ buffer with rfl | hof
    · exact ⟨by simp, fun heq => absurd heq.symm hne⟩
    · exact ⟨by simp [hof], fun _ => by simp [hof]⟩
  · intro other hne
    rw [Function.update_of_ne hne]
  · rw [hpiece, ← h.output, hstate]
  · intro other
    rw [hleftover]
    rcases eq_or_ne other buffer with rfl | hne
    · simp [hstate, h.ring other]
    · simp [hstate, hne, h.ring other]
  · rw [perform_emitted hperform, h.packets, hsending]
    simp [next]
  · simp only [next, hchunk, if_true]
    trivial
  · exact Flows.flush_same h hperform

theorem Flows.commitAll (h : Flows order queued state ghosts) (hlocks : Locks state ghosts)
    (hdiscards : (ghosts thread).discards = false) {buffer : ThreadId} {available : Nat}
    (hpre : pre (ghosts thread) (.commitAll buffer available))
    (houtput : state'.output = state.output) (howner : state'.owner = state.owner)
    (hrings : state'.rings =
      Function.update state.rings buffer ((state.rings buffer).drop available))
    (hperform : perform thread (.commitAll buffer available) choice state = some ((), state')) :
    Flows order queued state'
      (Function.update ghosts thread (next (ghosts thread) (.commitAll buffer available) ())) := by
  rcases hpre with ⟨hbuffer, ⟨bytes, hchunk⟩ | hdiscards'⟩
  · have hheld := hlocks.chunk thread buffer hbuffer
    have hwritten := h.chunk thread
    rw [hchunk] at hwritten
    rcases hwritten with ⟨hlength, hown⟩
    have hring : state.rings buffer = bytes ++ (queued buffer).flatten := by
      rw [h.ring, leftover_of_held hlocks hheld, hchunk, Chunk.leftover, if_pos rfl]
    have hpiece : piece state' (Function.update ghosts thread
        (next (ghosts thread) (.commitAll buffer available) ())) = piece state ghosts :=
      piece_update (congrFun howner _) fun _ => by rw [hchunk]; rfl
    refine h.step (fun _ _ => perform_emitted hperform _) (fun _ _ => perform_due hperform _)
      (perform_threads hperform)
      (fun _ => le_rfl) (fun _ _ _ _ => ⟨List.prefix_rfl, fun _ => rfl⟩) (fun _ _ => rfl)
      ?_ ?_ ?_ hown (Flows.flush_same h hperform)
    · rw [hpiece, houtput, h.output]
    · intro other
      rcases eq_or_ne other buffer with rfl | hne
      · rw [leftover_self hlocks hheld howner, hrings]
        simp [next, Chunk.leftover, hring, ← hlength]
      · have hsame : leftover state' (Function.update ghosts thread
            (next (ghosts thread) (.commitAll buffer available) ())) other =
              leftover state ghosts other :=
          leftover_update (congrFun howner _) fun _ => by
            rw [hchunk]
            simp [next, Chunk.leftover, hne.symm]
        rw [hsame, ← h.ring other, hrings, Function.update_of_ne hne]
    · rw [perform_emitted hperform]
      exact h.packets thread
  · simp [hdiscards] at hdiscards'

/-- The first slice of a chunk reaches the writer. -/
theorem Flows.writeFirst (h : Flows order queued state ghosts) (hlocks : Locks state ghosts)
    {buffer : ThreadId} {available : Nat} {first second : Bytes}
    (hheld : .writer ∈ (ghosts thread).held)
    (hchunk : (ghosts thread).chunk = .taken buffer available first second)
    (houtput : state'.output = state.output ++ first) (hrings : state'.rings = state.rings)
    (howner : state'.owner = state.owner)
    (hperform : perform thread (.writeAll first) choice state = some (none, state')) :
    Flows order queued state' (Function.update ghosts thread (ghosts thread).wrote) := by
  have hwrote : (ghosts thread).wrote =
      { ghosts thread with chunk := .half buffer available first second } := by
    simp [Ghost.wrote, hchunk]
  have htaken := h.chunk thread
  rw [hchunk] at htaken
  rw [hwrote]
  refine h.step (fun _ _ => perform_emitted hperform _) (fun _ _ => perform_due hperform _)
    (perform_threads hperform)
    (fun _ => le_rfl) (fun _ _ _ _ => ⟨List.prefix_rfl, fun _ => rfl⟩) (fun _ _ => rfl)
    ?_ ?_ ?_ ?_ (Flows.flush_same h hperform)
  · have hold : piece state ghosts = [] := by
      rw [piece_of_held hlocks hheld, hchunk]
      rfl
    rw [piece_self hlocks hheld howner, houtput, h.output, hold, List.append_nil]
    rfl
  · intro other
    rw [leftover_update (congrFun howner _) fun _ => by rw [hchunk]; rfl, hrings]
    exact h.ring other
  · rw [perform_emitted hperform]
    exact h.packets thread
  · have hmono : ChunkFlows order queued state'.log thread (.taken buffer available first second) :=
      htaken.mono (perform_due hperform thread) (fun _ _ => ⟨List.prefix_rfl, fun _ => rfl⟩)
        fun _ => le_rfl
    exact hmono

/-- The second slice of a chunk reaches the writer, and with it its last packet. -/
theorem Flows.writeSecond (h : Flows order queued state ghosts) (hlocks : Locks state ghosts)
    {buffer : ThreadId} {available : Nat} {first second : Bytes}
    (hheld : .writer ∈ (ghosts thread).held)
    (hchunk : (ghosts thread).chunk = .half buffer available first second)
    (houtput : state'.output = state.output ++ second) (hrings : state'.rings = state.rings)
    (howner : state'.owner = state.owner)
    (hperform : perform thread (.writeAll second) choice state = some (none, state')) :
    ∃ count, Flows (order ++ tagged buffer ((queued buffer).take count))
      (Function.update queued buffer ((queued buffer).drop count)) state'
      (Function.update ghosts thread (ghosts thread).wrote) := by
  have hwrote : (ghosts thread).wrote =
      { ghosts thread with
        chunk := .written buffer available (first ++ second)
        flush := (ghosts thread).flush.without buffer } := by
    simp [Ghost.wrote, hchunk]
  have hconsumer := hlocks.chunk thread buffer (by rw [hchunk]; rfl)
  have hhalf := h.chunk thread
  rw [hchunk] at hhalf
  rcases hhalf with ⟨count, hmarks, hbytes, havailable⟩
  set order' := order ++ tagged buffer ((queued buffer).take count) with horder'
  have hself : packetsOf buffer order' = packetsOf buffer order ++ (queued buffer).take count := by
    rw [horder', packetsOf_append, packetsOf_tagged_self]
  have hothers : ∀ other, other ≠ buffer → packetsOf other order' = packetsOf other order := by
    intro other hne
    rw [horder', packetsOf_append, packetsOf_tagged_of_ne hne, List.append_nil]
  have hgrows : ∀ other, (packetsOf other order).length ≤ (packetsOf other order').length := by
    intro other
    rw [horder', packetsOf_append, List.length_append]
    exact Nat.le_add_right _ _
  have hboth : ∀ other, packetsOf other order' ++
      Function.update queued buffer ((queued buffer).drop count) other =
        packetsOf other order ++ queued other := by
    intro other
    rcases eq_or_ne other buffer with rfl | hne
    · rw [hself, Function.update_self, List.append_assoc, List.take_append_drop]
    · rw [hothers other hne, Function.update_of_ne hne]
  refine ⟨count, ?_⟩
  rw [hwrote]
  refine h.step (fun _ _ => perform_emitted hperform _) (fun _ _ => perform_due hperform _)
    (perform_threads hperform)
    hgrows ?_ (fun other _ => hboth other) ?_ ?_ ?_ ⟨havailable, ?_⟩ ?_
  · intro other hne of_ hof
    have hdiffers : of_ ≠ buffer := by
      rintro rfl
      exact hne (hlocks.exclusive (hlocks.chunk other of_ hof) hconsumer)
    simp [hdiffers]
  · have hold : piece state ghosts = first := by
      rw [piece_of_held hlocks hheld, hchunk]
      rfl
    rw [piece_self hlocks hheld howner, houtput, h.output, hold, bytesOf_append, bytesOf_tagged,
      hbytes]
    simp [Chunk.piece]
  · intro other
    rw [hrings]
    rcases eq_or_ne other buffer with rfl | hne
    · have hold : leftover state ghosts other = [] := by
        rw [leftover_of_held hlocks hconsumer, hchunk]
        rfl
      rw [leftover_self hlocks hconsumer howner, h.ring, hold, Function.update_self,
        Chunk.leftover, if_pos rfl, ← hbytes,
        ← List.flatten_append, List.take_append_drop, List.nil_append]
    · rw [leftover_update (congrFun howner _) fun _ => by
        rw [hchunk]
        simp [Chunk.leftover, hne.symm], Function.update_of_ne hne]
      exact h.ring other
  · rw [perform_emitted hperform, hboth]
    exact h.packets thread
  · intro heq
    rw [Function.update_self, hmarks.own heq, List.drop_length]
  · refine FlushFlows.without ((h.flush thread).mono (perform_due hperform thread)
      (perform_threads hperform) hgrows) ?_
    rw [perform_due hperform, hself, List.length_append, List.length_take_of_le hmarks.le]
    exact hmarks.due

/-- The trailing packet reaches the writer, after everything of its thread. -/
theorem Flows.writeTrailing (h : Flows order queued state ghosts) (hlocks : Locks state ghosts)
    (hbase : Base order state ghosts) {buffer : ThreadId} {packet : Bytes}
    (hheld : .writer ∈ (ghosts thread).held) (hchunk : (ghosts thread).chunk = .drained buffer)
    (hsending : (ghosts thread).sending = some (buffer, packet))
    (houtput : state'.output = state.output ++ packet) (hrings : state'.rings = state.rings)
    (howner : state'.owner = state.owner)
    (hperform : perform thread (.writeAll packet) choice state = some (none, state')) :
    Flows (order ++ [(thread, packet)]) queued state'
      (Function.update ghosts thread (ghosts thread).wrote) := by
  rcases hbase.own thread buffer packet hsending with ⟨rfl, -⟩
  have hempty : queued buffer = [] := by
    have hdrained := h.chunk buffer
    rw [hchunk] at hdrained
    exact hdrained rfl
  have hself : packetsOf buffer (order ++ [(buffer, packet)]) =
      packetsOf buffer order ++ [packet] := by
    rw [packetsOf_append]
    simp [packetsOf]
  have hothers : ∀ other, other ≠ buffer →
      packetsOf other (order ++ [(buffer, packet)]) = packetsOf other order := by
    intro other hne
    rw [packetsOf_append]
    simp [packetsOf, hne.symm]
  have hgrows : ∀ other, (packetsOf other order).length ≤
      (packetsOf other (order ++ [(buffer, packet)])).length := by
    intro other
    rw [packetsOf_append, List.length_append]
    exact Nat.le_add_right _ _
  rw [Ghost.wrote_drained hchunk]
  refine h.step (fun _ _ => perform_emitted hperform _) (fun _ _ => perform_due hperform _)
    (perform_threads hperform)
    hgrows (fun _ _ _ _ => ⟨List.prefix_rfl, fun _ => rfl⟩)
    (fun other hne => by rw [hothers other hne]) ?_ ?_ ?_ ?_ ?_
  · have hold : piece state ghosts = [] := by
      rw [piece_of_held hlocks hheld, hchunk]
      rfl
    rw [piece_self hlocks hheld howner, houtput, h.output, hold, bytesOf_append]
    simp [bytesOf, hchunk, Chunk.piece]
  · intro other
    have hsame : leftover state' (Function.update ghosts buffer
        { ghosts buffer with sending := none }) other = leftover state ghosts other :=
      leftover_update (congrFun howner _) fun _ => rfl
    rw [hsame, hrings]
    exact h.ring other
  · rw [perform_emitted hperform, h.packets, hself, hempty, hsending]
    simp
  · exact (h.chunk buffer).mono (perform_due hperform buffer)
      (fun _ _ => ⟨List.prefix_rfl, fun _ => rfl⟩) hgrows
  · exact (h.flush buffer).mono (perform_due hperform buffer) (perform_threads hperform) hgrows

/-- A part of the packets of a ring, behind the writer's bytes: whole packets, and a piece
of the next one. -/
theorem Flows.truncate (h : Flows order queued state ghosts) (hbase : Base order state ghosts)
    {buffer : ThreadId} {count : Nat} {more : Bytes}
    (hpieces : piece state ghosts ++ more <+: ((queued buffer).take count).flatten) :
    ∃ order', (∀ buffer, packetsOf buffer order <+: packetsOf buffer order') ∧
      (∀ buffer, packetsOf buffer order' <+: emitted buffer state.log) ∧
      Truncated order' state.log (state.output ++ more) := by
  rcases prefix_flatten hpieces with ⟨whole, rest, hwhole, hsplit, hrest⟩
  have hemitted : ∀ packets, packets <+: (queued buffer).take count →
      packetsOf buffer order ++ packets <+: emitted buffer state.log := by
    intro packets hpackets
    rw [h.packets, List.append_assoc, List.prefix_append_right_inj]
    exact (hpackets.trans (List.take_prefix _ _)).trans (List.prefix_append _ _)
  have hself : packetsOf buffer (order ++ tagged buffer whole) =
      packetsOf buffer order ++ whole := by
    rw [packetsOf_append, packetsOf_tagged_self]
  refine ⟨order ++ tagged buffer whole, ?_, ?_, rest, ?_, hrest.imp_right ?_⟩
  · intro other
    rw [packetsOf_append]
    exact List.prefix_append _ _
  · intro other
    rcases eq_or_ne other buffer with rfl | hne
    · rw [hself]
      exact hemitted whole hwhole
    · rw [packetsOf_append, packetsOf_tagged_of_ne hne, List.append_nil]
      exact hbase.sent other
  · rw [h.output, List.append_assoc, hsplit, bytesOf_append, bytesOf_tagged, List.append_assoc]
  · rintro ⟨packet, hpacket, hnext⟩
    refine ⟨buffer, packet, hpacket, ?_⟩
    rw [hself, List.append_assoc]
    exact hemitted _ hnext

/-- The writer accepts a part of the bytes. -/
theorem Flows.fail (h : Flows order queued state ghosts) (hlocks : Locks state ghosts)
    (hbase : Base order state ghosts) {bytes : Bytes}
    (hpre : pre (ghosts thread) (.writeAll bytes)) (accepted : Nat) :
    ∃ order', (∀ buffer, packetsOf buffer order <+: packetsOf buffer order') ∧
      (∀ buffer, packetsOf buffer order' <+: emitted buffer state.log) ∧
      Truncated order' state.log (state.output ++ bytes.take accepted) := by
  rcases hpre with ⟨hheld, -, -, hbytes⟩
  rcases hbytes with ⟨buffer, available, second, hcase⟩ | ⟨buffer, available, first, hcase⟩ |
    ⟨buffer, hcase, hsending⟩
  all_goals
    have hflows := h.chunk thread
    have hpiece := piece_of_held hlocks hheld
    rw [hcase] at hflows hpiece
  · rcases hflows with ⟨count, hmarks, htaken, -⟩
    refine @Flows.truncate _ _ _ _ h hbase buffer count _ ?_
    rw [hpiece, htaken]
    exact (List.take_prefix _ _).trans (List.prefix_append _ _)
  · rcases hflows with ⟨count, hmarks, htaken, -⟩
    refine @Flows.truncate _ _ _ _ h hbase buffer count _ ?_
    rw [hpiece, htaken, Chunk.piece, List.prefix_append_right_inj]
    exact List.take_prefix _ _
  · rcases hbase.own thread buffer bytes hsending with ⟨rfl, -⟩
    refine ⟨order, fun _ => List.prefix_rfl, hbase.sent, bytes.take accepted, ?_,
      Or.inr ⟨buffer, bytes, List.take_prefix _ _, ?_⟩⟩
    · rw [h.output, hpiece, show Chunk.piece (.drained buffer) = [] from rfl, List.append_nil]
    · rw [h.packets, hflows rfl, hsending]
      simp

/-- How the abstract side moves. -/
structure Advances (order order' : List (ThreadId × Bytes)) (state' : State) : Prop where
  grows : ∀ buffer, packetsOf buffer order <+: packetsOf buffer order'
  sent : ∀ buffer, packetsOf buffer order' <+: emitted buffer state'.log
  output : bytesOf order' <+: state'.output
  truncated : Stopped state'.log → Throughout (TestsPublished (.write true)) state'.log →
    Truncated order' state'.log state'.output

theorem Flows.advances {order' : List (ThreadId × Bytes)} {queued' : ThreadId → List Bytes}
    {ghosts' : ThreadId → Ghost} (h : Flows order' queued' state' ghosts')
    (hgrows : ∀ buffer, packetsOf buffer order <+: packetsOf buffer order')
    (hpiece : Stopped state'.log → piece state' ghosts' = []) :
    Advances order order' state' where
  grows := hgrows
  sent := fun buffer => by
    rw [h.packets, List.append_assoc]
    exact List.prefix_append _ _
  output := by
    rw [h.output]
    exact List.prefix_append _ _
  truncated := fun hstopped _ => ⟨[], by rw [h.output, hpiece hstopped], Or.inl rfl⟩

/-- Every action of a run in which no drain has stopped yet. -/
theorem Flows.act (h : Flows order queued state ghosts) (hlocks : Locks state ghosts)
    (hbase : Base order state ghosts) (hstopped : ¬ Stopped state.log)
    (hdiscards : (ghosts thread).discards = false) (hpre : pre (ghosts thread) action)
    (hperform : perform thread action choice state = some (reply, state')) :
    ∃ order' queued', Advances order order' state' ∧ (¬ Stopped state'.log →
      Flows order' queued' state'
        (Function.update ghosts thread (next (ghosts thread) action reply))) := by
  have hlog := perform_log hperform
  have hmoves : ∀ order' queued',
      (∀ buffer, packetsOf buffer order <+: packetsOf buffer order') →
      (∀ event, noted thread action reply = some event → stops event = false) →
      Flows order' queued' state'
        (Function.update ghosts thread (next (ghosts thread) action reply)) →
      ∃ order' queued', Advances order order' state' ∧ (¬ Stopped state'.log →
        Flows order' queued' state'
          (Function.update ghosts thread (next (ghosts thread) action reply))) := by
    intro order' queued' hgrows hevent hflows
    refine ⟨order', queued', Flows.advances hflows hgrows fun hnow => ?_, fun _ => hflows⟩
    rw [hlog] at hnow
    rcases hnoted : noted thread action reply with _ | event
    · rw [hnoted] at hnow
      exact absurd hnow hstopped
    · rw [hnoted] at hnow
      have hnot := hevent event hnoted
      rcases stopped_cons.1 hnow with hstops | hold
      · simp [hnot] at hstops
      · exact absurd hold hstopped
  have hsame := hmoves order queued fun _ => List.prefix_rfl
  rcases action
  case pushEntireSlice packet =>
    rcases reply with _ | _
    · refine hsame of_no_event ?_
      have hstate : state' = state := by
        simp only [perform] at hperform
        grind
      subst hstate
      exact Flows.still h hperform rfl rfl (piece_update rfl fun _ => rfl)
        (fun _ => leftover_update rfl fun _ => rfl) rfl (Flows.chunk_same h hperform)
        (Flows.flush_same h hperform)
    · exact hmoves order _ (fun _ => List.prefix_rfl) of_no_event (Flows.push h hbase hpre hperform)
  case lock lock =>
    simp only [perform, Option.ite_none_right_eq_some, Option.some.injEq, Prod.mk.injEq]
      at hperform
    rcases hperform with ⟨hfree, -, rfl⟩
    exact hsame of_no_event (Flows.lock h hpre hfree)
  case unlock lock =>
    simp only [perform, Option.some.injEq, Prod.mk.injEq] at hperform
    rcases hperform with ⟨-, rfl⟩
    exact hsame of_no_event (Flows.unlock h hlocks hpre)
  case slots buffer =>
    simp only [perform, Option.some.injEq, Prod.mk.injEq] at hperform
    rcases hperform with ⟨rfl, rfl⟩
    exact hsame of_no_event (Flows.slots h hbase hlocks hpre)
  case readChunk buffer available =>
    simp only [perform, Option.ite_none_right_eq_some, Option.some.injEq, Prod.mk.injEq]
      at hperform
    rcases hperform with ⟨-, rfl, rfl⟩
    exact hsame of_no_event (Flows.readChunk h hlocks hpre)
  case commitAll buffer available =>
    have hstate := hperform
    simp only [perform, Option.some.injEq, Prod.mk.injEq] at hstate
    rcases hstate with ⟨-, rfl⟩
    exact hsame of_no_event (Flows.commitAll h hlocks hdiscards hpre rfl rfl rfl hperform)
  case cloneThreads =>
    simp only [perform, Option.some.injEq, Prod.mk.injEq] at hperform
    rcases hperform with ⟨rfl, rfl⟩
    exact hsame of_no_event (Flows.cloneThreads h hpre)
  case hasError use =>
    have hflows := Flows.plain h rfl hdiscards hpre hperform
    rcases use with bytes | _
    · refine ⟨order, queued, Flows.advances hflows (fun _ => List.prefix_rfl) fun _ => ?_,
        fun _ => hflows⟩
      have hstate := hperform
      simp only [perform, Option.some.injEq, Prod.mk.injEq] at hstate
      rw [piece_self hlocks hpre.1 (by rw [← hstate.2]; rfl)]
      exact hpre.2.2
    · refine hsame ?_ hflows
      rintro event ⟨⟩
      rfl
  case writeAll bytes =>
    rcases reply with _ | error
    · have hstate : state'.output = state.output ++ bytes ∧ state'.rings = state.rings ∧
          state'.owner = state.owner := by
        simp only [perform] at hperform
        grind [State.note]
      rcases hstate with ⟨houtput, hrings, howner⟩
      have hnot : ∀ event, noted thread (.writeAll bytes) none = some event →
          stops event = false := by
        rintro event ⟨⟩
        rfl
      rcases hpre with ⟨hheld, -, -, ⟨buffer, available, second, hcase⟩ |
        ⟨buffer, available, first, hcase⟩ | ⟨buffer, hcase, hsending⟩⟩
      · exact hsame hnot
          (Flows.writeFirst h hlocks hheld hcase houtput hrings howner hperform)
      · rcases Flows.writeSecond h hlocks hheld hcase houtput hrings howner hperform with
          ⟨count, hflows⟩
        refine hmoves _ _ (fun other => ?_) hnot hflows
        rw [packetsOf_append]
        exact List.prefix_append _ _
      · have hflows := Flows.writeTrailing h hlocks hbase hheld hcase hsending houtput hrings
          howner hperform
        refine hmoves _ _ (fun other => ?_) hnot hflows
        rw [packetsOf_append]
        exact List.prefix_append _ _
    · have hstate : ∃ accepted, state'.output = state.output ++ bytes.take accepted := by
        simp only [perform] at hperform
        grind [State.note]
      rcases hstate with ⟨accepted, houtput⟩
      rcases Flows.fail h hlocks hbase hpre accepted with ⟨order', hgrows, hsent, htruncated⟩
      have hnow : Stopped state'.log := by
        rw [hlog]
        exact stopped_cons.2 (Or.inl rfl)
      have hemitted := perform_emitted hperform
      rw [← houtput] at htruncated
      refine ⟨order', queued, ⟨hgrows, fun buffer => ?_, ?_, fun _ _ => ?_⟩, absurd hnow⟩
      · rw [hemitted]
        exact hsent buffer
      · rcases htruncated with ⟨rest, heq, -⟩
        rw [heq]
        exact List.prefix_append _ _
      · simpa only [Truncated, hemitted] using htruncated
  all_goals
    refine hsame ?_ (Flows.plain h rfl hdiscards hpre hperform)
    rintro event ⟨⟩ <;> rfl

/-! ## What holds in every state -/

theorem throughout_old {condition : Event → List Event → Prop}
    (hperform : perform thread action choice state = some (reply, state'))
    (h : Throughout condition state'.log) : Throughout condition state.log := by
  rw [perform_log hperform] at h
  rcases hnoted : noted thread action reply with _ | event
  · rwa [hnoted] at h
  · rw [hnoted] at h
    exact h.2

/-- With `has_error` unset and no failed `write_all` unpublished, no drain has stopped. -/
theorem not_stopped (thread : ThreadId) (herrors : Errors state ghosts)
    (hhasError : state.hasError = false)
    (hclear : (ghosts thread).failure = .clear)
    (hothers : ∀ other, other ≠ thread → unpublished other state.log = false) :
    ¬ Stopped state.log := by
  intro hstopped
  rcases herrors.stopped hstopped with hset | ⟨other, hother⟩
  · simp [hhasError] at hset
  · rcases eq_or_ne other thread with rfl | hne
    · exact herrors.window other hother hclear
    · simp [hothers other hne] at hother

theorem Delivered.mono {order' : List (ThreadId × Bytes)} {log log' : List Event}
    (h : Delivered order thread log) (hdue : due thread log' = due thread log)
    (hgrows : ∀ buffer, packetsOf buffer order <+: packetsOf buffer order') :
    Delivered order' thread log' := by
  intro buffer
  rw [hdue]
  exact (h buffer).trans (hgrows buffer).length_le

/-- A stopped run writes nothing more, when every drain sees the failures. -/
theorem Base.advances (hbase : Base order state ghosts) (hstopped : Stopped state.log)
    (hpre : pre (ghosts thread) action)
    (hperform : perform thread action choice state = some (reply, state')) :
    Advances order order state' where
  grows := fun _ => List.prefix_rfl
  sent := fun buffer => by
    rw [perform_emitted hperform]
    exact hbase.sent buffer
  output := by
    refine hbase.output.trans ?_
    rcases action <;> simp only [perform] at hperform <;> grind [State.note]
  truncated := fun _ hthroughout => by
    rcases hbase.truncated hstopped (throughout_old hperform hthroughout) with ⟨htruncated, hnone⟩
    have hwrite : ∀ bytes, action ≠ .writeAll bytes := by
      rintro bytes rfl
      exact absurd hpre.2.1 (by simp [hnone thread])
    have houtput : state'.output = state.output := by
      rcases action <;> simp only [perform] at hperform <;> grind [State.note]
    have hemitted := perform_emitted hperform
    simpa only [Truncated, hemitted, houtput] using htruncated

theorem next_sending {ghost : Ghost} (hpre : pre ghost action) (reply : Reply action)
    {sending : ThreadId × Bytes} (hsending : (next ghost action reply).sending = some sending) :
    ghost.sending = some sending ∧ (next ghost action reply).emitting = ghost.emitting := by
  rcases action <;> simp only [next] at hsending ⊢ <;> grind [Ghost.wrote, pre]

theorem perform_registered (hperform : perform thread action choice state = some (reply, state'))
    (other : ThreadId) : state'.contexts other = state.contexts other ∨ other ∈ state'.threads := by
  by_cases hregister : action = .registerThread
  · subst hregister
    simp only [perform, Option.some.injEq, Prod.mk.injEq] at hperform
    rcases hperform with ⟨-, rfl⟩
    rcases eq_or_ne other thread with rfl | hne <;> simp [*]
  · have hcontexts : state'.contexts = state.contexts := by
      rcases action <;> simp only [perform] at hperform <;> grind [State.note]
    exact Or.inl (congrFun hcontexts other)

theorem next_mayWrite_true {ghost : Ghost} (hpre : pre ghost action) (reply : Reply action)
    (hmayWrite : (next ghost action reply).mayWrite = true) :
    ghost.mayWrite = true ∨
      noted thread action reply = some (.tested thread (.write true) false) := by
  rcases action <;> simp only [next] at hmayWrite <;> grind [Ghost.wrote, pre, noted]

theorem next_clean (thread : ThreadId) {ghost : Ghost} (reply : Reply action)
    (hclean : (next ghost action reply).report = .clean) :
    ghost.report = .clean ∨ noted thread action reply = some (.tested thread .report false) := by
  rcases action <;> simp only [next] at hclean <;> grind [Ghost.wrote, noted]

theorem perform_completed (hcomplete : ∀ packet, action ≠ .complete packet)
    (hperform : perform thread action choice state = some (reply, state')) (other : ThreadId) :
    completed other state'.log = completed other state.log := by
  rw [perform_log hperform]
  rcases action <;> simp_all [noted, completed_cons, completedBy]

theorem next_emitting {ghost : Ghost} (hcomplete : ∀ packet, action ≠ .complete packet)
    (reply : Reply action) : (next ghost action reply).emitting = ghost.emitting := by
  rcases action <;> simp only [next] <;> grind [Ghost.wrote]

/-- Whoever stops the drains holds the writer, and does not write on. -/
theorem next_stops {ghost : Ghost} (hpre : pre ghost action) (reply : Reply action)
    {event : Event} (hnoted : noted thread action reply = some event)
    (hstops : stops event = true) :
    .writer ∈ ghost.held ∧ (next ghost action reply).mayWrite = false := by
  rcases action <;> simp only [noted, Option.some.injEq, reduceCtorEq] at hnoted <;> subst hnoted
  case hasError use =>
    rcases use with bytes | _
    · refine ⟨hpre.1, ?_⟩
      have hseen : reply = true := hstops
      simp [next, hseen]
    · simp [stops] at hstops
  case writeAll bytes =>
    rcases reply with _ | error
    · simp [stops] at hstops
    · exact ⟨hpre.1, rfl⟩
  all_goals simp [stops] at hstops

theorem Returned.mono {order' : List (ThreadId × Bytes)} {log : List Event}
    (h : Returned order log)
    (hgrows : ∀ buffer, packetsOf buffer order <+: packetsOf buffer order') :
    Returned order' log := by
  rcases log with _ | ⟨event, log⟩
  · trivial
  · rcases event
    case flushReturned => exact
      ⟨fun hstopped => Delivered.mono (h.1 hstopped) rfl hgrows,
        fun hnone hall => Delivered.mono (h.2.1 hnone hall) rfl hgrows, h.2.2⟩
    all_goals trivial

theorem Base.act {order' : List (ThreadId × Bytes)} (hbase : Base order state ghosts)
    (hlocks : Locks state ghosts) (herrors : Errors state ghosts)
    (hflows : ¬ Stopped state.log → Flows order queued state ghosts)
    (hadvances : Advances order order' state') (hpre : pre (ghosts thread) action)
    (hperform : perform thread action choice state = some (reply, state')) :
    Base order' state' (Function.update ghosts thread (next (ghosts thread) action reply)) := by
  have hlog := perform_log hperform
  have hdue := perform_due hperform
  have hemitted := perform_emitted hperform
  have hdelivers : ¬ Stopped state.log →
      (ghosts thread).flush = .draining [] ∨ (ghosts thread).discards = true →
      Delivered order thread state.log := by
    rintro hstopped (hflush | hdiscards)
    · have hflushes := (hflows hstopped).flush thread
      rw [hflush] at hflushes
      exact fun buffer => (hflushes buffer).resolve_right (List.not_mem_nil)
    · exact absurd (herrors.discards thread hdiscards) hstopped
  -- a test that finds `has_error` unset, with every failure published, means no drain stopped
  have htest : ∀ use, noted thread action reply = some (.tested thread use false) →
      Throughout (TestsPublished use) state'.log →
        ¬ Stopped state.log ∧ action = .hasError use := by
    intro use hnoted hthroughout
    rcases action <;>
      simp only [noted, Option.some.injEq, Event.tested.injEq, reduceCtorEq] at hnoted
    rename_i tested
    rcases hnoted with ⟨-, rfl, rfl⟩
    rw [hlog] at hthroughout
    have hstate := hperform
    simp only [perform, Option.some.injEq, Prod.mk.injEq] at hstate
    refine ⟨not_stopped thread herrors hstate.1 ?_ (hthroughout.1 rfl), rfl⟩
    rcases tested with _ | _
    · exact hpre.2.1
    · exact hpre.1
  constructor
  · intro other buffer packet hsending
    rcases eq_or_ne other thread with rfl | hne
    · rw [Function.update_self] at hsending ⊢
      rcases next_sending hpre reply hsending with ⟨hold, hemitting⟩
      rw [hemitting]
      exact hbase.own other buffer packet hold
    · rw [Function.update_of_ne hne] at hsending ⊢
      exact hbase.own other buffer packet hsending
  · intro other
    by_cases hcomplete : ∃ packet, action = .complete packet
    · rcases hcomplete with ⟨packet, rfl⟩
      rw [hemitted, hbase.progress, hlog]
      rcases eq_or_ne other thread with rfl | hne
      · simp [noted, completed_cons, completedBy, next, hpre.1]
      · simp [noted, completed_cons, completedBy, hne, hne.symm]
    · have hnot : ∀ packet, action ≠ .complete packet := fun packet heq => hcomplete ⟨packet, heq⟩
      rw [hemitted, perform_completed hnot hperform, hbase.progress]
      rcases eq_or_ne other thread with rfl | hne
      · rw [Function.update_self, next_emitting hnot]
      · rw [Function.update_of_ne hne]
  · intro other packet hpacket
    rw [hemitted] at hpacket
    exact hbase.nonempty other packet hpacket
  · intro other hother
    rw [hemitted] at hother
    rcases perform_registered hperform other with hsame | hmem
    · rw [hsame] at hother
      exact perform_threads hperform (hbase.registered other hother)
    · exact hmem
  · exact hadvances.sent
  · exact hadvances.output
  · intro other hclean hthroughout
    rcases eq_or_ne other thread with rfl | hne
    · rw [Function.update_self] at hclean
      rcases next_clean other reply hclean with hold | hnoted
      · exact Delivered.mono (hbase.clean other hold (throughout_old hperform hthroughout))
          (hdue other) hadvances.grows
      · rcases htest .report hnoted hthroughout with ⟨hstopped, rfl⟩
        exact Delivered.mono (hdelivers hstopped hpre.2) (hdue other) hadvances.grows
    · rw [Function.update_of_ne hne] at hclean
      exact Delivered.mono (hbase.clean other hclean (throughout_old hperform hthroughout))
        (hdue other) hadvances.grows
  · rcases hnoted : noted thread action reply with _ | event
    · rw [hlog, hnoted]
      exact Returned.mono hbase.returned hadvances.grows
    · rw [hlog, hnoted]
      rcases action <;> simp only [noted, Option.some.injEq, reduceCtorEq] at hnoted <;>
        subst hnoted
      case flushReturn error =>
        refine ⟨fun hstopped => ?_, ?_, ?_⟩
        · exact Delivered.mono (hdelivers hstopped hpre.1) rfl hadvances.grows
        · rintro rfl hall
          rcases hpre.2 with ⟨-, hclean⟩ | ⟨reported, hsome, -⟩
          · exact Delivered.mono (hbase.clean thread hclean hall) rfl hadvances.grows
          · simp at hsome
        · rintro reported rfl hall
          rcases hpre.2 with ⟨hnone, -⟩ | ⟨reported', hsome, hfailed⟩
          · simp at hnone
          · rw [Option.some.injEq] at hsome
            exact herrors.failed thread reported (hsome ▸ hfailed) hall
      all_goals trivial
  · intro hthroughout
    have hold := hbase.sticky (throughout_old hperform hthroughout)
    rw [hlog]
    rcases hnoted : noted thread action reply with _ | event
    · exact hold
    · refine ⟨?_, hold⟩
      rcases action <;> simp only [noted, Option.some.injEq, reduceCtorEq] at hnoted <;>
        subst hnoted
      case writeAll bytes =>
        intro other written error hfailed
        have hnone := (hbase.truncated ⟨_, hfailed, rfl⟩ (throughout_old hperform hthroughout)).2
        exact absurd hpre.2.1 (by simp [hnone thread])
      all_goals trivial
  · intro hnow hthroughout
    refine ⟨hadvances.truncated hnow hthroughout, fun other => ?_⟩
    by_contra hmayWrite
    rw [Bool.not_eq_false] at hmayWrite
    have hstep :
        (Function.update ghosts thread (next (ghosts thread) action reply) other).mayWrite =
          true → (ghosts other).mayWrite = true ∨
        noted thread action reply = some (.tested thread (.write true) false) := by
      intro hother
      rcases eq_or_ne other thread with rfl | hne
      · rw [Function.update_self] at hother
        exact next_mayWrite_true hpre reply hother
      · rw [Function.update_of_ne hne] at hother
        exact Or.inl hother
    by_cases hstopped : Stopped state.log
    · have hnone := (hbase.truncated hstopped (throughout_old hperform hthroughout)).2 other
      rcases hstep hmayWrite with hold | hnoted
      · simp [hnone] at hold
      · exact (htest _ hnoted hthroughout).1 hstopped
    · rw [hlog] at hnow
      rcases hnoted : noted thread action reply with _ | event
      · rw [hnoted] at hnow
        exact hstopped hnow
      · rw [hnoted] at hnow
        rcases next_stops hpre reply hnoted ((stopped_cons.1 hnow).resolve_right hstopped) with
          ⟨hheld, hnone⟩
        rcases eq_or_ne other thread with rfl | hne
        · simp [hnone] at hmayWrite
        · rw [Function.update_of_ne hne] at hmayWrite
          exact hne (hlocks.exclusive (hlocks.mayWrite other hmayWrite) hheld)

end TracingPerfetto.OutputSteps
