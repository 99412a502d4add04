import TracingPerfetto.OutputProtocol

/-!
The mutexes and the errors on the way to the writer: who holds what, and how the
recorded error and `has_error` lag behind the failures of the writer.
-/

namespace TracingPerfetto.OutputErrors

open TracingPerfetto.Wire TracingPerfetto.Threads TracingPerfetto.Output
open TracingPerfetto.OutputProtocol

/-! ## Mutexes -/

structure Locks (state : State) (ghosts : ThreadId → Ghost) : Prop where
  owner : ∀ thread lock, state.owner lock = some thread ↔ lock ∈ (ghosts thread).held
  nodup : ∀ thread, (ghosts thread).held.Nodup
  chunk : ∀ thread buffer, (ghosts thread).chunk.buffer = some buffer →
    .consumer buffer ∈ (ghosts thread).held
  mayWrite : ∀ thread, (ghosts thread).mayWrite = true → .writer ∈ (ghosts thread).held
  leftover : ∀ thread buffer, (ghosts thread).chunk.leftover buffer ≠ [] →
    .writer ∈ (ghosts thread).held

theorem Locks.exclusive {state : State} {ghosts : ThreadId → Ghost} (h : Locks state ghosts)
    {lock : Lock} {thread other : ThreadId} (hthread : lock ∈ (ghosts thread).held)
    (hother : lock ∈ (ghosts other).held) : thread = other := by
  rw [← h.owner] at hthread hother
  exact Option.some.inj (hthread.symm.trans hother)

/-- An action that leaves the mutexes alone. -/
theorem Locks.frame {state state' : State} {ghosts : ThreadId → Ghost} (h : Locks state ghosts)
    {thread : ThreadId} {ghost : Ghost} (howner : state'.owner = state.owner)
    (hheld : ghost.held = (ghosts thread).held)
    (hchunk : ∀ buffer, ghost.chunk.buffer = some buffer → .consumer buffer ∈ ghost.held)
    (hmayWrite : ghost.mayWrite = true → .writer ∈ ghost.held)
    (hleftover : ∀ buffer, ghost.chunk.leftover buffer ≠ [] → .writer ∈ ghost.held) :
    Locks state' (Function.update ghosts thread ghost) := by
  constructor
  · intro other lock
    rw [howner]
    rcases eq_or_ne other thread with rfl | hne
    · rw [Function.update_self, hheld, h.owner]
    · rw [Function.update_of_ne hne, h.owner]
  all_goals
    intro other
    rcases eq_or_ne other thread with rfl | hne
  · rw [Function.update_self, hheld]
    exact h.nodup other
  · rw [Function.update_of_ne hne]
    exact h.nodup other
  · rwa [Function.update_self]
  · rw [Function.update_of_ne hne]
    exact h.chunk other
  · rwa [Function.update_self]
  · rw [Function.update_of_ne hne]
    exact h.mayWrite other
  · rwa [Function.update_self]
  · rw [Function.update_of_ne hne]
    exact h.leftover other

theorem Locks.lock {state : State} {ghosts : ThreadId → Ghost} (h : Locks state ghosts)
    {thread : ThreadId} {lock : Lock} (hfree : state.owner lock = none) :
    Locks { state with owner := Function.update state.owner lock (some thread) }
      (Function.update ghosts thread (next (ghosts thread) (.lock lock) ())) := by
  have hnone : ∀ other, lock ∉ (ghosts other).held := by
    intro other hmem
    rw [← h.owner, hfree] at hmem
    exact absurd hmem (by simp)
  constructor
  · intro other lock'
    rcases eq_or_ne lock' lock with rfl | hlock
    · rcases eq_or_ne other thread with rfl | hne
      · simp [next]
      · simp [hne, hne.symm, hnone other]
    · rcases eq_or_ne other thread with rfl | hne
      · simp [next, hlock, h.owner]
      · simp [hne, hlock, h.owner]
  all_goals
    intro other
    rcases eq_or_ne other thread with rfl | hne
  · simpa [next, hnone other] using h.nodup other
  · simpa [hne] using h.nodup other
  · intro buffer hbuffer
    simpa [next] using Or.inr (h.chunk other buffer (by simpa [next] using hbuffer))
  · simpa [hne] using h.chunk other
  · intro hmayWrite
    simpa [next] using Or.inr (h.mayWrite other (by simpa [next] using hmayWrite))
  · simpa [hne] using h.mayWrite other
  · intro buffer hleftover
    simpa [next] using Or.inr (h.leftover other buffer (by simpa [next] using hleftover))
  · simpa [hne] using h.leftover other

theorem Locks.unlock {state : State} {ghosts : ThreadId → Ghost} (h : Locks state ghosts)
    {thread : ThreadId} {lock : Lock} (hheld : (ghosts thread).held.head? = some lock)
    (hreleased : (ghosts thread).chunk.Released) :
    Locks { state with owner := Function.update state.owner lock none }
      (Function.update ghosts thread (next (ghosts thread) (.unlock lock) ())) := by
  rcases hcases : (ghosts thread).held with _ | ⟨first, others⟩
  · simp [hcases] at hheld
  · rw [hcases, List.head?_cons, Option.some.injEq] at hheld
    subst hheld
    have hmem : first ∈ (ghosts thread).held := by simp [hcases]
    have hnodup := h.nodup thread
    rw [hcases, List.nodup_cons] at hnodup
    constructor
    · intro other lock
      rcases eq_or_ne lock first with rfl | hlock
      · rcases eq_or_ne other thread with rfl | hne
        · simp [next, hcases, hnodup.1]
        · have : lock ∉ (ghosts other).held := fun hother => hne (h.exclusive hother hmem)
          simp [hne, this]
      · rcases eq_or_ne other thread with rfl | hne
        · simp [next, hcases, hlock, h.owner]
        · simp [hne, hlock, h.owner]
    all_goals
      intro other
      rcases eq_or_ne other thread with rfl | hne
    · simpa [next, hcases] using hnodup.2
    · simpa [hne] using h.nodup other
    · intro buffer hbuffer
      simp only [next, Function.update_self, hcases, List.tail_cons] at hbuffer ⊢
      split at hbuffer
      · simp [Chunk.buffer] at hbuffer
      · rename_i hne
        have hchunk := h.chunk other buffer hbuffer
        rw [hcases, List.mem_cons] at hchunk
        refine hchunk.resolve_left ?_
        rintro rfl
        simp [hbuffer] at hne
    · simpa [hne] using h.chunk other
    · intro hmayWrite
      simp only [next, Function.update_self, hcases, List.tail_cons] at hmayWrite ⊢
      split at hmayWrite
      · simp at hmayWrite
      · rename_i hne
        have hwriter := h.mayWrite other hmayWrite
        rw [hcases, List.mem_cons] at hwriter
        exact hwriter.resolve_left (Ne.symm hne)
    · simpa [hne] using h.mayWrite other
    · intro buffer hleftover
      have hnone : (next (ghosts other) (.unlock first) ()).chunk.leftover buffer = [] := by
        simp only [next]
        split
        · rfl
        · exact hreleased.leftover buffer
      simp [hnone] at hleftover
    · simpa [hne] using h.leftover other

def usesMutex : Act → Bool
  | .lock _ | .unlock _ => true
  | _ => false

theorem perform_owner {state state' : State} {thread : ThreadId} {action : Act}
    {choice : Choice} {reply : Reply action} (hmutex : usesMutex action = false)
    (hperform : perform thread action choice state = some (reply, state')) :
    state'.owner = state.owner := by
  rcases action <;> simp only [usesMutex, Bool.true_eq_false] at hmutex <;>
    simp only [perform] at hperform <;> grind [State.note]

theorem next_held {ghost : Ghost} {action : Act} (hmutex : usesMutex action = false)
    (reply : Reply action) : (next ghost action reply).held = ghost.held := by
  rcases action <;> simp only [usesMutex, Bool.true_eq_false] at hmutex <;>
    simp only [next] <;> grind [Ghost.wrote]

theorem next_chunk {ghost : Ghost} {action : Act} (hmutex : usesMutex action = false)
    (hpre : pre ghost action) (reply : Reply action) {buffer : ThreadId}
    (hchunk : (next ghost action reply).chunk.buffer = some buffer) :
    .consumer buffer ∈ ghost.held ∨ ghost.chunk.buffer = some buffer := by
  rcases action <;> simp only [usesMutex, Bool.true_eq_false] at hmutex <;>
    simp only [next] at hchunk <;> grind [Ghost.wrote, pre, Chunk.buffer]

theorem next_mayWrite {ghost : Ghost} {action : Act} (hmutex : usesMutex action = false)
    (hpre : pre ghost action) (reply : Reply action)
    (hmayWrite : (next ghost action reply).mayWrite = true) :
    .writer ∈ ghost.held ∨ ghost.mayWrite = true := by
  rcases action <;> simp only [usesMutex, Bool.true_eq_false] at hmutex <;>
    simp only [next] at hmayWrite <;> grind [Ghost.wrote, pre]

theorem next_leftover {ghost : Ghost} {action : Act} (hmutex : usesMutex action = false)
    (hpre : pre ghost action) (reply : Reply action) {buffer : ThreadId}
    (hleftover : (next ghost action reply).chunk.leftover buffer ≠ []) :
    .writer ∈ ghost.held ∨ ghost.chunk.leftover buffer ≠ [] := by
  rcases action <;> simp only [usesMutex, Bool.true_eq_false] at hmutex <;>
    simp only [next] at hleftover <;> grind [Ghost.wrote, pre, Chunk.leftover]

theorem Locks.act {state state' : State} {ghosts : ThreadId → Ghost} (h : Locks state ghosts)
    {thread : ThreadId} {action : Act} {choice : Choice} {reply : Reply action}
    (hpre : pre (ghosts thread) action)
    (hperform : perform thread action choice state = some (reply, state')) :
    Locks state' (Function.update ghosts thread (next (ghosts thread) action reply)) := by
  by_cases hmutex : usesMutex action = false
  · refine h.frame (perform_owner hmutex hperform) (next_held hmutex reply) ?_ ?_ ?_
    · intro buffer hbuffer
      rw [next_held hmutex reply]
      exact (next_chunk hmutex hpre reply hbuffer).elim id (h.chunk thread buffer)
    · intro hmayWrite
      rw [next_held hmutex reply]
      exact (next_mayWrite hmutex hpre reply hmayWrite).elim id (h.mayWrite thread)
    · intro buffer hleftover
      rw [next_held hmutex reply]
      exact (next_leftover hmutex hpre reply hleftover).elim id (h.leftover thread buffer)
  · rcases action <;> simp only [usesMutex, not_true_eq_false] at hmutex
    · rename_i lock
      simp only [perform, Option.ite_none_right_eq_some, Option.some.injEq, Prod.mk.injEq]
        at hperform
      rcases hperform with ⟨hfree, -, rfl⟩
      exact h.lock hfree
    · rename_i lock
      simp only [perform, Option.some.injEq, Prod.mk.injEq] at hperform
      rcases hperform with ⟨-, rfl⟩
      exact h.unlock hpre.1 hpre.2

/-! ## Errors -/

/-- After this event a drain has lost bytes: it discarded some, or the writer did not
accept all. -/
def stops : Event → Bool
  | .tested _ (.write _) seen => seen
  | .wrote _ _ error => error.isSome
  | _ => false

def Stopped (log : List Event) : Prop := ∃ event ∈ log, stops event = true

/-- The first error to be recorded is the one that the writer returned first. -/
def RecordsFirst : Event → List Event → Prop
  | .recorded thread _, log =>
      (∀ other error, .recorded other error ∉ log) →
        ∀ first error, firstFailure log = some (first, error) → first = thread
  | _, _ => True

theorem stopped_cons {event : Event} {log : List Event} :
    Stopped (event :: log) ↔ stops event = true ∨ Stopped log := by
  simp [Stopped]

theorem failures_cons (event : Event) (log : List Event) :
    failures (event :: log) = (failureOf event).toList ++ failures log := by
  rw [failures, List.filterMap_cons]
  rcases hfailure : failureOf event with _ | failure <;> simp [failures]

theorem firstFailure_mem {log : List Event} {failure : ThreadId × IoError}
    (h : firstFailure log = some failure) : failure ∈ failures log :=
  List.mem_of_getLast? h

/-- The first failure stays the first one. -/
theorem firstFailure_cons {event : Event} {log : List Event} {failure : ThreadId × IoError}
    (h : firstFailure log = some failure) : firstFailure (event :: log) = some failure := by
  rw [firstFailure, failures_cons, List.getLast?_append, ← firstFailure, h]
  rfl

theorem firstFailure_isSome {log : List Event} (h : failures log ≠ []) :
    ∃ failure, firstFailure log = some failure :=
  ⟨_, List.getLast?_eq_some_getLast h⟩

structure Errors (state : State) (ghosts : ThreadId → Ghost) : Prop where
  published : state.hasError = true → state.error ≠ none
  error : state.error ≠ none ↔ ∃ thread error, .recorded thread error ∈ state.log
  pending : ∀ thread error, (ghosts thread).failure = .pending error →
    (thread, error) ∈ failures state.log
  recorded : ∀ thread error, (ghosts thread).failure = .recorded error → state.error ≠ none
  known : state.error ≠ none → failures state.log ≠ []
  only : state.error = none → ∀ thread error, (thread, error) ∈ failures state.log →
    (ghosts thread).failure = .pending error
  first : Throughout RecordsFirst state.log → ∀ error, state.error = some error →
    ∃ thread, firstFailure state.log = some (thread, error)
  window : ∀ thread, unpublished thread state.log = true → (ghosts thread).failure ≠ .clear
  stopped : Stopped state.log → state.hasError = true ∨
    ∃ thread, unpublished thread state.log = true
  discards : ∀ thread, (ghosts thread).discards = true → Stopped state.log
  dirty : ∀ thread, (ghosts thread).report = .dirty → state.error ≠ none
  failed : ∀ thread error, (ghosts thread).report = .failed error →
    Throughout RecordsFirst state.log → ∃ first, firstFailure state.log = some (first, error)

/-- What an action adds to the history. -/
def noted (thread : ThreadId) : (action : Act) → Reply action → Option Event
  | .complete packet, _ => some (.completed thread packet)
  | .hasError use, seen => some (.tested thread use seen)
  | .writeAll bytes, error => some (.wrote thread bytes error)
  | .flushWriter, error => some (.flushed thread error)
  | .recordFirst error, _ => some (.recorded thread error)
  | .storeHasError, _ => some (.published thread)
  | .flushReturn error, _ => some (.flushReturned thread error)
  | _, _ => none

theorem perform_log {state state' : State} {thread : ThreadId} {action : Act} {choice : Choice}
    {reply : Reply action} (hperform : perform thread action choice state = some (reply, state')) :
    state'.log = (noted thread action reply).toList ++ state.log := by
  rcases action <;> simp only [perform] at hperform <;> simp only [noted] <;>
    grind [State.note]

theorem perform_error {state state' : State} {thread : ThreadId} {action : Act} {choice : Choice}
    {reply : Reply action} (hperform : perform thread action choice state = some (reply, state')) :
    state'.error = match action with
      | .recordFirst error => state.error <|> some error
      | _ => state.error := by
  rcases action <;> simp only [perform] at hperform <;> grind [State.note]

theorem perform_hasError {state state' : State} {thread : ThreadId} {action : Act}
    {choice : Choice} {reply : Reply action}
    (hperform : perform thread action choice state = some (reply, state')) :
    state'.hasError = match action with
      | .storeHasError => true
      | _ => state.hasError := by
  rcases action <;> simp only [perform] at hperform <;> grind [State.note]

/-- Events that no error depends on. -/
def Silent (event : Event) : Prop :=
  failureOf event = none ∧ stops event = false ∧
    match event with
    | .recorded _ _ | .published _ => False
    | _ => True

theorem of_no_event {P : Event → Prop} (event : Event) (h : none = some event) : P event :=
  absurd h (Option.some_ne_none event).symm

theorem Silent.unpublished_cons {event : Event} (h : Silent event) (thread : ThreadId)
    (log : List Event) : unpublished thread (event :: log) = unpublished thread log := by
  rcases event with _ | _ | _ | ⟨_, _, _ | error⟩ | _ | _ | _ | _ | _
  case wrote.some => simp [Silent, failureOf] at h
  case published => exact h.2.2.elim
  all_goals rfl

theorem Silent.firstFailure_cons {event : Event} (h : Silent event) (log : List Event) :
    firstFailure (event :: log) = firstFailure log := by
  rw [firstFailure, failures_cons, h.1]
  rfl

variable {state : State} {ghosts : ThreadId → Ghost} {thread : ThreadId}

/-- Silent events, and other actions that leave the errors alone. -/
theorem Errors.frame (h : Errors state ghosts) {state' : State} {ghost : Ghost}
    {event : Option Event} (herror : state'.error = state.error)
    (hhasError : state'.hasError = state.hasError)
    (hlog : state'.log = event.toList ++ state.log) (hsilent : ∀ e, event = some e → Silent e)
    (hfailure : ghost.failure = (ghosts thread).failure)
    (hdiscards : ghost.discards = true → (ghosts thread).discards = true)
    (hreport : ghost.report = (ghosts thread).report ∨ ghost.report = .none ∨
      ghost.report = .clean ∨ ghost.report = .dirty ∧ state.error ≠ none) :
    Errors state' (Function.update ghosts thread ghost) := by
  have hfailures : ∀ other, (Function.update ghosts thread ghost other).failure =
      (ghosts other).failure := by
    intro other
    rcases eq_or_ne other thread with rfl | hne <;> simp [*]
  have hdiscards' : ∀ other, (Function.update ghosts thread ghost other).discards = true →
      (ghosts other).discards = true := by
    intro other
    rcases eq_or_ne other thread with rfl | hne
    · simpa using hdiscards
    · simp [hne]
  have hreports : ∀ other, (Function.update ghosts thread ghost other).report =
      (ghosts other).report ∨ (Function.update ghosts thread ghost other).report = .none ∨
        (Function.update ghosts thread ghost other).report = .clean ∨
        (Function.update ghosts thread ghost other).report = .dirty ∧ state.error ≠ none := by
    intro other
    rcases eq_or_ne other thread with rfl | hne <;> simp [*]
  have hsame : (∀ first, (∃ error, .recorded first error ∈ state'.log) ↔
        ∃ error, .recorded first error ∈ state.log) ∧ failures state'.log = failures state.log ∧
      firstFailure state'.log = firstFailure state.log ∧
      (∀ other, unpublished other state'.log = unpublished other state.log) ∧
      (Stopped state'.log ↔ Stopped state.log) ∧
      (Throughout RecordsFirst state'.log → Throughout RecordsFirst state.log) := by
    rw [hlog]
    rcases event with _ | event
    · simp
    · have hevent := hsilent event rfl
      refine ⟨fun first => ?_, ?_, hevent.firstFailure_cons _,
        fun other => hevent.unpublished_cons other _,
        ?_, fun hall => hall.2⟩
      · refine exists_congr fun error => ?_
        simp only [Option.toList_some, List.singleton_append, List.mem_cons, or_iff_right_iff_imp]
        rintro rfl
        exact hevent.2.2.elim
      · simp [failures_cons, hevent.1]
      · simp [stopped_cons, hevent.2.1]
  rcases hsame with ⟨hrecorded, hfailuresLog, hfirst, hunpublished, hstopped, hall⟩
  exact
    { published := by rw [hhasError, herror]; exact h.published
      error := by rw [herror, h.error]; exact exists_congr fun first => (hrecorded first).symm
      pending := fun other error => by rw [hfailures, hfailuresLog]; exact h.pending other error
      recorded := fun other error => by rw [hfailures, herror]; exact h.recorded other error
      known := by rw [herror, hfailuresLog]; exact h.known
      only := fun hnone other error => by
        rw [hfailures, hfailuresLog]; exact h.only (herror ▸ hnone) other error
      first := fun hthroughout => by rw [herror, hfirst]; exact h.first (hall hthroughout)
      window := fun other => by rw [hunpublished, hfailures]; exact h.window other
      stopped := fun hstop => by
        simp only [hhasError, hunpublished]; exact h.stopped (hstopped.1 hstop)
      discards := fun other hother => hstopped.2 (h.discards other (hdiscards' other hother))
      dirty := fun other hdirty => by
        rw [herror]
        rcases hreports other with hsame | hnone | hclean | ⟨-, hsome⟩
        · exact h.dirty other (hsame ▸ hdirty)
        · simp [hnone] at hdirty
        · simp [hclean] at hdirty
        · exact hsome
      failed := fun other error hfailed hthroughout => by
        rw [hfirst]
        rcases hreports other with hsame | hnone | hclean | ⟨hdirty, -⟩
        · exact h.failed other error (hsame ▸ hfailed) (hall hthroughout)
        · simp [hnone] at hfailed
        · simp [hclean] at hfailed
        · simp [hdirty] at hfailed }

theorem Errors.tested (h : Errors state ghosts) (bytes : Bool) :
    Errors (state.note (.tested thread (.write bytes) state.hasError))
      (Function.update ghosts thread
        (next (ghosts thread) (.hasError (.write bytes)) state.hasError)) := by
  set event : Event := .tested thread (.write bytes) state.hasError
  have hghost : ∀ other, (Function.update ghosts thread
      (next (ghosts thread) (.hasError (.write bytes)) state.hasError) other).failure =
        (ghosts other).failure ∧ (Function.update ghosts thread
      (next (ghosts thread) (.hasError (.write bytes)) state.hasError) other).report =
        (ghosts other).report := by
    intro other
    rcases eq_or_ne other thread with rfl | hne <;> simp [next, *]
  have hfailures : failures (event :: state.log) = failures state.log := rfl
  have hunpublished : ∀ other,
      unpublished other (event :: state.log) = unpublished other state.log := fun _ => rfl
  constructor
  · exact h.published
  · simpa [State.note, event] using h.error
  · simpa [hghost, State.note, hfailures] using h.pending
  · simpa [hghost, State.note] using h.recorded
  · exact h.known
  · simpa [hghost, State.note, hfailures] using h.only
  · intro hthroughout
    exact h.first hthroughout.2
  · simpa [hghost, State.note, hunpublished] using h.window
  · intro hstop
    rcases stopped_cons.1 hstop with hseen | hstop
    · exact Or.inl hseen
    · exact h.stopped hstop
  · intro other hdiscards
    refine stopped_cons.2 ?_
    rcases eq_or_ne other thread with rfl | hne
    · simp only [next, Function.update_self, Bool.or_eq_true] at hdiscards
      rcases hdiscards with hold | hseen
      · exact Or.inr (h.discards other hold)
      · exact Or.inl hseen
    · rw [Function.update_of_ne hne] at hdiscards
      exact Or.inr (h.discards other hdiscards)
  · simpa [hghost, State.note] using h.dirty
  · intro other error hfailed hthroughout
    exact h.failed other error ((hghost other).2 ▸ hfailed) hthroughout.2

/-- The writer fails, in a `write_all` or in its own flush. -/
theorem Errors.fails (h : Errors state ghosts) (hclear : (ghosts thread).failure = .clear)
    {event : Event} {error : IoError} (hevent : failureOf event = some (thread, error))
    {state' : State} (herror : state'.error = state.error)
    (hhasError : state'.hasError = state.hasError) (hlog : state'.log = event :: state.log)
    {ghost : Ghost} (hfailure : ghost.failure = .pending error)
    (hdiscards : ghost.discards = true → stops event = true ∨ (ghosts thread).discards = true)
    (hreport : ghost.report = (ghosts thread).report) :
    Errors state' (Function.update ghosts thread ghost) := by
  have hfailures : failures state'.log = (thread, error) :: failures state.log := by
    rw [hlog, failures_cons, hevent]
    rfl
  have hrecorded : ∀ other error, .recorded other error ∈ state'.log ↔
      .recorded other error ∈ state.log := by
    intro other error
    rw [hlog, List.mem_cons, or_iff_right_iff_imp]
    rintro rfl
    simp [failureOf] at hevent
  have hthroughout : Throughout RecordsFirst state'.log → Throughout RecordsFirst state.log := by
    rw [hlog]
    exact And.right
  have hunpublished : ∀ other, unpublished other state'.log = true →
      other = thread ∨ unpublished other state.log = true := by
    intro other hother
    rw [hlog] at hother
    rcases event with _ | _ | _ | ⟨by_, _, _ | _⟩ | _ | _ | _ | _ | _
    case published => simp [failureOf] at hevent
    case wrote.some =>
      simp only [failureOf, Option.some.injEq, Prod.mk.injEq] at hevent
      simp only [unpublished, Bool.or_eq_true, decide_eq_true_eq, hevent.1] at hother
      exact hother.imp_left Eq.symm
    all_goals exact Or.inr hother
  have hkept : ∀ other, unpublished other state.log = true →
      unpublished other state'.log = true := by
    intro other hother
    rw [hlog]
    rcases event with _ | _ | _ | ⟨by_, _, _ | _⟩ | _ | _ | _ | _ | _
    case published => simp [failureOf] at hevent
    case wrote.some => simp [unpublished, hother]
    all_goals exact hother
  have hstops : stops event = true → unpublished thread state'.log = true := by
    rw [hlog]
    rcases event with _ | _ | _ | ⟨by_, _, _ | _⟩ | _ | _ | _ | _ | _ <;>
      simp_all [failureOf, stops, unpublished]
  constructor
  · rw [hhasError, herror]
    exact h.published
  · simp only [herror, h.error, hrecorded]
  · intro other error' hother
    rw [hfailures]
    rcases eq_or_ne other thread with rfl | hne
    · rw [Function.update_self, hfailure, Failure.pending.injEq] at hother
      simp [hother]
    · rw [Function.update_of_ne hne] at hother
      exact List.mem_cons_of_mem _ (h.pending other error' hother)
  · intro other error' hother
    rw [herror]
    rcases eq_or_ne other thread with rfl | hne
    · simp [hfailure] at hother
    · rw [Function.update_of_ne hne] at hother
      exact h.recorded other error' hother
  · simp [hfailures]
  · intro hnone other error' hmem
    rw [herror] at hnone
    rw [hfailures, List.mem_cons] at hmem
    rcases hmem with heq | hmem
    · rw [Prod.mk.injEq] at heq
      rw [heq.1, heq.2, Function.update_self, hfailure]
    · rcases eq_or_ne other thread with rfl | hne
      · simp [h.only hnone other error' hmem] at hclear
      · rw [Function.update_of_ne hne]
        exact h.only hnone other error' hmem
  · intro hall error' hother
    rw [herror] at hother
    rcases h.first (hthroughout hall) error' hother with ⟨first, hfirst⟩
    rw [hlog]
    exact ⟨first, firstFailure_cons hfirst⟩
  · intro other hother
    rcases eq_or_ne other thread with rfl | hne
    · simp [hfailure]
    · rw [Function.update_of_ne hne]
      exact h.window other ((hunpublished other hother).resolve_left hne)
  · intro hstop
    rw [hlog, stopped_cons] at hstop
    rcases hstop with hevent | hstop
    · exact Or.inr ⟨thread, hstops hevent⟩
    · rw [hhasError]
      exact (h.stopped hstop).imp_right fun hsome => hsome.imp hkept
  · intro other hother
    rw [hlog, stopped_cons]
    rcases eq_or_ne other thread with rfl | hne
    · rw [Function.update_self] at hother
      exact (hdiscards hother).imp_right (h.discards other)
    · rw [Function.update_of_ne hne] at hother
      exact Or.inr (h.discards other hother)
  · intro other hother
    rw [herror]
    rcases eq_or_ne other thread with rfl | hne
    · rw [Function.update_self, hreport] at hother
      exact h.dirty other hother
    · rw [Function.update_of_ne hne] at hother
      exact h.dirty other hother
  · intro other error' hother hall
    rw [hlog]
    have hold : (ghosts other).report = .failed error' := by
      rcases eq_or_ne other thread with rfl | hne
      · rwa [Function.update_self, hreport] at hother
      · rwa [Function.update_of_ne hne] at hother
    rcases h.failed other error' hold (hthroughout hall) with ⟨first, hfirst⟩
    exact ⟨first, firstFailure_cons hfirst⟩

theorem Errors.recordFirst (h : Errors state ghosts) {error : IoError}
    (hpending : (ghosts thread).failure = .pending error) :
    Errors ({ state with error := state.error <|> some error }.note (.recorded thread error))
      (Function.update ghosts thread (next (ghosts thread) (.recordFirst error) ())) := by
  set event : Event := .recorded thread error
  have hsome : (state.error <|> some error) ≠ none := by
    rcases state.error <;> simp
  have hmem := h.pending thread error hpending
  have hreport : ∀ other, (Function.update ghosts thread
      (next (ghosts thread) (.recordFirst error) ()) other).report = (ghosts other).report := by
    intro other
    rcases eq_or_ne other thread with rfl | hne <;> simp [next, *]
  constructor
  · exact fun _ => hsome
  · exact iff_of_true hsome ⟨thread, error, List.mem_cons_self⟩
  · intro other error' hother
    rcases eq_or_ne other thread with rfl | hne
    · simp [next] at hother
    · rw [Function.update_of_ne hne] at hother
      exact h.pending other error' hother
  · exact fun _ _ _ => hsome
  · exact fun _ => List.ne_nil_of_mem hmem
  · exact fun hnone => absurd hnone hsome
  · intro hall error' herror
    rcases hcase : state.error with _ | recorded
    · -- the slot is empty, so this thread has the first failure, and it has no other one
      rw [show state.error = none from hcase] at herror
      have hfirstThread := hall.1 (by
        intro other error'' hrecorded
        exact h.error.2 ⟨other, error'', hrecorded⟩ hcase)
      rcases firstFailure_isSome (List.ne_nil_of_mem hmem) with ⟨⟨first, error''⟩, hfirst⟩
      have hsame := hfirstThread first error'' hfirst
      subst hsame
      have hpending' := h.only hcase first error'' (firstFailure_mem hfirst)
      rw [hpending, Failure.pending.injEq] at hpending'
      subst hpending'
      have herror : some error = some error' := herror
      exact ⟨first, hfirst.trans (by rw [Option.some.inj herror])⟩
    · refine h.first hall.2 error' ?_
      rw [show state.error = some recorded from hcase] at herror
      exact hcase.trans herror
  · intro other hother
    rcases eq_or_ne other thread with rfl | hne
    · simp [next]
    · rw [Function.update_of_ne hne]
      exact h.window other hother
  · intro hstop
    exact h.stopped ((stopped_cons.1 hstop).resolve_left (by simp [event, stops]))
  · intro other hother
    refine stopped_cons.2 (Or.inr (h.discards other ?_))
    rcases eq_or_ne other thread with rfl | hne
    · simpa [next] using hother
    · rwa [Function.update_of_ne hne] at hother
  · exact fun _ _ => hsome
  · intro other error' hother hall
    exact h.failed other error' (hreport other ▸ hother) hall.2

theorem Errors.storeHasError (h : Errors state ghosts) {error : IoError}
    (hrecorded : (ghosts thread).failure = .recorded error) :
    Errors ({ state with hasError := true }.note (.published thread))
      (Function.update ghosts thread (next (ghosts thread) .storeHasError ())) := by
  set event : Event := .published thread
  have hsome := h.recorded thread error hrecorded
  have hreport : ∀ other, (Function.update ghosts thread
      (next (ghosts thread) .storeHasError ()) other).report = (ghosts other).report := by
    intro other
    rcases eq_or_ne other thread with rfl | hne <;> simp [next, *]
  have hold : ∀ other, (Function.update ghosts thread
      (next (ghosts thread) .storeHasError ()) other).failure ≠ .clear →
        (ghosts other).failure = (Function.update ghosts thread
          (next (ghosts thread) .storeHasError ()) other).failure := by
    intro other hother
    rcases eq_or_ne other thread with rfl | hne
    · simp [next] at hother
    · rw [Function.update_of_ne hne]
  constructor
  · exact fun _ => hsome
  · simpa [event, State.note] using h.error
  · intro other error' hother
    exact h.pending other error' ((hold other (by simp [hother])).trans hother)
  · exact fun _ _ _ => hsome
  · exact h.known
  · exact fun hnone => absurd hnone hsome
  · exact fun hall => h.first hall.2
  · intro other hother
    simp only [State.note, event, unpublished, Bool.and_eq_true, decide_eq_true_eq] at hother
    rw [Function.update_of_ne (Ne.symm hother.1)]
    exact h.window other hother.2
  · exact fun _ => Or.inl rfl
  · intro other hother
    refine stopped_cons.2 (Or.inr (h.discards other ?_))
    rcases eq_or_ne other thread with rfl | hne
    · simpa [next] using hother
    · rwa [Function.update_of_ne hne] at hother
  · exact fun _ _ => hsome
  · intro other error' hother hall
    exact h.failed other error' (hreport other ▸ hother) hall.2

theorem Errors.reported (h : Errors state ghosts) (hdirty : (ghosts thread).report = .dirty) :
    Errors state
      (Function.update ghosts thread (next (ghosts thread) .recorded state.error)) := by
  have hsome := h.dirty thread hdirty
  have hghost : ∀ other, (Function.update ghosts thread
      (next (ghosts thread) .recorded state.error) other).failure = (ghosts other).failure ∧
      (Function.update ghosts thread
        (next (ghosts thread) .recorded state.error) other).discards = (ghosts other).discards := by
    intro other
    rcases eq_or_ne other thread with rfl | hne <;> simp [next, *]
  constructor
  · exact h.published
  · exact h.error
  · simpa [hghost] using h.pending
  · simpa [hghost] using h.recorded
  · exact h.known
  · simpa [hghost] using h.only
  · exact h.first
  · simpa [hghost] using h.window
  · exact h.stopped
  · simpa [hghost] using h.discards
  · exact fun _ _ => hsome
  · intro other error hother hall
    rcases eq_or_ne other thread with rfl | hne
    · rcases hcase : state.error with _ | recorded
      · exact absurd hcase hsome
      · simp only [next, hcase, Function.update_self, Report.failed.injEq, Option.getD_some]
          at hother
        exact h.first hall error (hcase.trans (congrArg some hother))
    · rw [Function.update_of_ne hne] at hother
      exact h.failed other error hother hall

theorem Errors.act {state' : State} {action : Act} {choice : Choice} {reply : Reply action}
    (h : Errors state ghosts) (hpre : pre (ghosts thread) action)
    (hperform : perform thread action choice state = some (reply, state')) :
    Errors state' (Function.update ghosts thread (next (ghosts thread) action reply)) := by
  have hlog := perform_log hperform
  have herror := perform_error hperform
  have hhasError := perform_hasError hperform
  rcases action
  case recordFirst error =>
    simp only [perform, Option.some.injEq, Prod.mk.injEq] at hperform
    rcases hperform with ⟨-, rfl⟩
    exact h.recordFirst hpre
  case storeHasError =>
    simp only [perform, Option.some.injEq, Prod.mk.injEq] at hperform
    rcases hperform with ⟨-, rfl⟩
    exact h.storeHasError hpre.choose_spec
  case recorded =>
    simp only [perform, Option.some.injEq, Prod.mk.injEq] at hperform
    rcases hperform with ⟨rfl, rfl⟩
    exact h.reported hpre
  case hasError use =>
    rcases use with bytes | _
    · simp only [perform, Option.some.injEq, Prod.mk.injEq] at hperform
      rcases hperform with ⟨rfl, rfl⟩
      exact h.tested bytes
    · simp only [perform, Option.some.injEq, Prod.mk.injEq] at hperform
      rcases hperform with ⟨rfl, -⟩
      refine h.frame herror hhasError hlog ?_ rfl id ?_
      · rintro _ ⟨⟩
        exact ⟨rfl, rfl, trivial⟩
      · simp only [next]
        rcases hcase : state.hasError with _ | _
        · exact Or.inr (Or.inr (Or.inl rfl))
        · exact Or.inr (Or.inr (Or.inr ⟨rfl, h.published hcase⟩))
  case writeAll bytes =>
    rcases reply with _ | error
    · have hfields : (ghosts thread).wrote.failure = (ghosts thread).failure ∧
          (ghosts thread).wrote.discards = (ghosts thread).discards ∧
          (ghosts thread).wrote.report = (ghosts thread).report := by
        simp only [Ghost.wrote]
        split <;> simp
      refine h.frame herror hhasError hlog ?_ hfields.1 (hfields.2.1 ▸ id) (Or.inl hfields.2.2)
      rintro _ ⟨⟩
      exact ⟨rfl, rfl, trivial⟩
    · exact h.fails hpre.2.2.1 rfl herror hhasError hlog rfl (fun _ => Or.inl rfl) rfl
  case flushWriter =>
    rcases reply with _ | error
    · refine h.frame herror hhasError hlog ?_ rfl id (Or.inl rfl)
      rintro _ ⟨⟩
      exact ⟨rfl, rfl, trivial⟩
    · exact h.fails hpre rfl herror hhasError hlog rfl Or.inr rfl
  case pushEntireSlice packet =>
    refine h.frame herror hhasError hlog of_no_event ?_ ?_ ?_ <;>
      simp only [next] <;> split <;> simp
  case slots buffer =>
    refine h.frame herror hhasError hlog of_no_event ?_ ?_ ?_ <;>
      simp only [next] <;> split <;> simp
  case complete packet =>
    refine h.frame herror hhasError hlog ?_ rfl id (Or.inl rfl)
    rintro _ ⟨⟩
    exact ⟨rfl, rfl, trivial⟩
  case flushReturn error =>
    refine h.frame herror hhasError hlog ?_ rfl id (Or.inr (Or.inl rfl))
    rintro _ ⟨⟩
    exact ⟨rfl, rfl, trivial⟩
  all_goals exact h.frame herror hhasError hlog of_no_event rfl id (Or.inl rfl)

end TracingPerfetto.OutputErrors
