import Mathlib.Data.List.Nodup
import Mathlib.Data.Nat.ModEq
import Mathlib.Logic.Function.Basic
import TracingPerfetto.Runtime

/-!
The id allocators of `runtime.rs` under any interleaving of threads. An allocator is
one wrapping counter; `alloc_uuid` and `alloc_flow_id` draw again when they have drawn
zero, and another thread can draw in between.
-/

namespace TracingPerfetto.Allocators

inductive Allocator where
  | sequenceId
  | uuid
  | flowId
  deriving DecidableEq, Repr

/-- The values of an `AtomicU32` or an `AtomicU64`. -/
def Allocator.size : Allocator → Nat
  | .sequenceId => 2 ^ 32
  | .uuid | .flowId => 2 ^ 64

/-- Whether the allocator loops until its value is not zero. -/
def Allocator.skipsZero : Allocator → Bool
  | .sequenceId => false
  | .uuid | .flowId => true

/-- The floor below which sequence ids are reserved. -/
def sequenceIdFloor : Nat := 0x00010000

/-- The hashes that `Inner::new` starts its counters from. -/
structure Hashes where
  sequence : Nat
  uuid : Nat
  flow : Nat
  uuid_lt : uuid < 2 ^ 64
  flow_lt : flow < 2 ^ 64

/-- `as u32` keeps the low bits. -/
def Hashes.first (hashes : Hashes) : Allocator → Nat
  | .sequenceId => max (hashes.sequence % 2 ^ 32) sequenceIdFloor
  | .uuid => hashes.uuid
  | .flowId => hashes.flow

/-- The counters, the allocator that a thread has just drawn zero from, and the ids
handed out so far. -/
structure State (Thread : Type) where
  next : Allocator → Nat
  looping : Thread → Option Allocator
  returned : Allocator → List Nat

section Steps

variable {Thread : Type} [DecidableEq Thread]

def State.new (hashes : Hashes) : State Thread :=
  ⟨hashes.first, fun _ => none, fun _ => []⟩

/-- One `fetch_add` of a thread, which enters the allocator with it or loops in it. -/
def step (state : State Thread) (label : Thread × Allocator) : Option (State Thread) :=
  let (thread, allocator) := label
  if state.looping thread = none ∨ state.looping thread = some allocator then
    let value := state.next allocator
    let next := Function.update state.next allocator ((value + 1) % allocator.size)
    if allocator.skipsZero && value == 0 then
      some ⟨next, Function.update state.looping thread (some allocator), state.returned⟩
    else
      some ⟨next, Function.update state.looping thread none,
        Function.update state.returned allocator (state.returned allocator ++ [value])⟩
  else none

def run (labels : List (Thread × Allocator)) (state : State Thread) : Option (State Thread) :=
  labels.foldlM step state

/-- How often threads have drawn from an allocator. -/
def draws (labels : List (Thread × Allocator)) (allocator : Allocator) : Nat :=
  labels.countP fun label => label.2 = allocator

end Steps

/-! ## Draws -/

/-- The values of the first `n` draws. -/
def drawn (size first n : Nat) : List Nat :=
  (List.range n).map fun i => (first + i) % size

theorem drawn_succ (size first n : Nat) :
    drawn size first (n + 1) = drawn size first n ++ [(first + n) % size] := by
  simp [drawn, List.range_succ]

theorem drawn_nodup {size n : Nat} (first : Nat) (h : n ≤ size) :
    (drawn size first n).Nodup := by
  refine List.Nodup.map_on ?_ List.nodup_range
  intro i hi j hj heq
  rw [List.mem_range] at hi hj
  have hmod : i ≡ j [MOD size] := Nat.ModEq.add_left_cancel' first heq
  exact hmod.eq_of_lt_of_lt (hi.trans_le h) (hj.trans_le h)

/-- What an allocator hands out of its draws. -/
def handedOut (allocator : Allocator) (first n : Nat) : List Nat :=
  (drawn allocator.size first n).filter fun value => !(allocator.skipsZero && value == 0)

theorem filter_zero_length {values : List Nat} (h : values.Nodup) :
    values.length ≤ (values.filter fun value => !(value == 0)).length + 1 := by
  have hsplit := List.length_eq_length_filter_add (l := values) fun value => value == 0
  have hzeros : (values.filter fun value => value == 0).length ≤ 1 := by
    rw [← List.countP_eq_length_filter]
    exact List.nodup_iff_count_le_one.1 h 0
  omega

theorem handedOut_nodup {allocator : Allocator} {first n : Nat}
    (hskips : allocator.skipsZero = true)
    (hfew : (handedOut allocator first n).length < allocator.size - 1) :
    (handedOut allocator first n).Nodup ∧ 0 ∉ handedOut allocator first n := by
  have hround : n ≤ allocator.size := by
    by_contra hmore
    have hturn : drawn allocator.size first allocator.size <+:
        drawn allocator.size first n := by
      refine List.IsPrefix.map _ ?_
      rw [List.prefix_iff_eq_take, List.length_range, List.take_range]
      congr 1
      omega
    have hlength := filter_zero_length (drawn_nodup first (le_refl allocator.size))
    have hmono := (hturn.filter fun value => !(value == 0)).length_le
    simp only [handedOut, hskips, Bool.true_and] at hfew
    simp only [drawn, List.length_map, List.length_range] at hlength hmono hfew
    omega
  refine ⟨(drawn_nodup first hround).filter _, ?_⟩
  intro hzero
  simp [handedOut, hskips] at hzero

theorem handedOut_sequenceId (first n : Nat) :
    handedOut .sequenceId first n = drawn (2 ^ 32) first n := by
  simp [handedOut, Allocator.skipsZero, Allocator.size]

/-! ## Runs -/

section Runs

variable {Thread : Type}

/-- Where the counters stand and what has been handed out, by the number of draws. -/
structure Counted (hashes : Hashes) (count : Allocator → Nat) (state : State Thread) :
    Prop where
  next : ∀ allocator, state.next allocator =
    (hashes.first allocator + count allocator) % allocator.size
  returned : ∀ allocator, state.returned allocator =
    handedOut allocator (hashes.first allocator) (count allocator)

theorem first_lt (hashes : Hashes) (allocator : Allocator) :
    hashes.first allocator < allocator.size := by
  cases allocator with
  | sequenceId =>
      have hlow : hashes.sequence % 2 ^ 32 < 2 ^ 32 := Nat.mod_lt _ (by decide)
      exact max_lt hlow (by decide)
  | uuid => exact hashes.uuid_lt
  | flowId => exact hashes.flow_lt

theorem counted_new (hashes : Hashes) :
    Counted hashes (fun _ => 0) (State.new hashes : State Thread) where
  next := fun allocator => (Nat.mod_eq_of_lt (first_lt hashes allocator)).symm
  returned := fun _ => rfl

theorem handedOut_succ (allocator : Allocator) (first n : Nat) :
    handedOut allocator first (n + 1) = handedOut allocator first n ++
      if allocator.skipsZero && (first + n) % allocator.size == 0 then []
      else [(first + n) % allocator.size] := by
  rw [handedOut, drawn_succ, List.filter_append, handedOut, List.filter_singleton]
  congr 1
  cases hzero : allocator.skipsZero && (first + n) % allocator.size == 0 <;> simp

variable [DecidableEq Thread]

theorem step_counted {hashes : Hashes} {count : Allocator → Nat} {state state' : State Thread}
    {label : Thread × Allocator} (h : Counted hashes count state)
    (hstep : step state label = some state') :
    Counted hashes (fun allocator => count allocator + if label.2 = allocator then 1 else 0)
      state' := by
  rcases label with ⟨thread, drawer⟩
  simp only [step] at hstep
  have hnext : ∀ allocator, Function.update state.next drawer
      ((state.next drawer + 1) % drawer.size) allocator =
        (hashes.first allocator + (count allocator + if drawer = allocator then 1 else 0)) %
          allocator.size := by
    intro allocator
    by_cases hdrawer : allocator = drawer
    · subst hdrawer
      rw [Function.update_self, h.next, if_pos rfl, Nat.mod_add_mod, Nat.add_assoc]
    · rw [Function.update_of_ne hdrawer, if_neg (Ne.symm hdrawer)]
      exact h.next allocator
  have hother : ∀ allocator, allocator ≠ drawer → state.returned allocator =
      handedOut allocator (hashes.first allocator)
        (count allocator + if drawer = allocator then 1 else 0) := by
    intro allocator hdrawer
    rw [if_neg (Ne.symm hdrawer)]
    exact h.returned allocator
  have hown := handedOut_succ drawer (hashes.first drawer) (count drawer)
  rw [← h.next, ← h.returned] at hown
  split at hstep
  · split at hstep
    · rename_i hzero
      simp only [Option.some.injEq] at hstep
      subst hstep
      refine ⟨hnext, fun allocator => ?_⟩
      by_cases hdrawer : allocator = drawer
      · subst hdrawer
        rw [if_pos rfl, hown, if_pos hzero, List.append_nil]
      · exact hother allocator hdrawer
    · rename_i hvalue
      simp only [Option.some.injEq] at hstep
      subst hstep
      refine ⟨hnext, fun allocator => ?_⟩
      by_cases hdrawer : allocator = drawer
      · subst hdrawer
        rw [if_pos rfl, hown, if_neg hvalue]
        exact Function.update_self ..
      · exact (Function.update_of_ne hdrawer ..).trans (hother allocator hdrawer)
  · exact absurd hstep (by simp)

theorem run_counted {hashes : Hashes} {count : Allocator → Nat}
    {labels : List (Thread × Allocator)} {state state' : State Thread}
    (h : Counted hashes count state) (hrun : run labels state = some state') :
    Counted hashes (fun allocator => count allocator + draws labels allocator) state' := by
  induction labels generalizing count state with
  | nil =>
      simp only [run, List.foldlM_nil, Option.pure_def, Option.some.injEq] at hrun
      subst hrun
      exact h
  | cons label labels ih =>
      simp only [run, List.foldlM_cons, Option.bind_eq_bind, Option.bind_eq_some_iff] at hrun
      obtain ⟨next, hstep, hrest⟩ := hrun
      have hlast := ih (step_counted h hstep) hrest
      have hcount : (fun allocator => count allocator + draws (label :: labels) allocator) =
          fun allocator => (count allocator + if label.2 = allocator then 1 else 0) +
            draws labels allocator := by
        funext allocator
        simp only [draws, List.countP_cons, decide_eq_true_eq]
        omega
      rw [hcount]
      exact hlast

/-- The ids of every allocator are distinct and none is zero or reserved. -/
structure Valid (state : State Thread) : Prop where
  nodup : ∀ allocator, (state.returned allocator).Nodup
  nonzero : ∀ allocator, 0 ∉ state.returned allocator
  unreserved : ∀ id ∈ state.returned .sequenceId, sequenceIdFloor ≤ id

/-- Sequence ids are valid as long as their counter has not wrapped. -/
theorem ids_valid_iff {hashes : Hashes} {labels : List (Thread × Allocator)}
    {state : State Thread} (hrun : run labels (State.new hashes) = some state)
    (hsequences : (state.returned .sequenceId).length < 2 ^ 32 - 2 ^ 16)
    (huuids : (state.returned .uuid).length < 2 ^ 64 - 1)
    (hflows : (state.returned .flowId).length < 2 ^ 64 - 1) :
    Valid state ↔ hashes.first .sequenceId + draws labels .sequenceId ≤ 2 ^ 32 := by
  have hcounted := run_counted (counted_new hashes) hrun
  have hreturned := hcounted.returned
  simp only [Nat.zero_add] at hreturned
  have hids := hreturned .sequenceId
  rw [handedOut_sequenceId] at hids
  rw [hreturned] at huuids hflows
  have hlength : draws labels .sequenceId < 2 ^ 32 - 2 ^ 16 := by
    rw [hids, drawn, List.length_map, List.length_range] at hsequences
    exact hsequences
  have hfloor : sequenceIdFloor ≤ hashes.first .sequenceId := le_max_right _ _
  constructor
  · intro hvalid
    by_contra hwraps
    -- the draw that the counter wraps at
    have hzero : 0 ∈ state.returned .sequenceId := by
      rw [hids, drawn, List.mem_map]
      have hfirst := first_lt hashes .sequenceId
      simp only [Allocator.size] at hfirst
      refine ⟨2 ^ 32 - hashes.first .sequenceId, ?_, ?_⟩
      · rw [List.mem_range]
        omega
      · rw [Nat.add_sub_cancel' hfirst.le, Nat.mod_self]
    exact hvalid.nonzero _ hzero
  · intro hroom
    have hfits : ∀ id ∈ state.returned .sequenceId, sequenceIdFloor ≤ id := by
      intro id hid
      rw [hids, drawn, List.mem_map] at hid
      obtain ⟨i, hi, rfl⟩ := hid
      rw [List.mem_range] at hi
      rw [Nat.mod_eq_of_lt (by omega)]
      omega
    refine ⟨?_, ?_, hfits⟩
    · intro allocator
      rw [hreturned]
      cases allocator with
      | sequenceId =>
          rw [handedOut_sequenceId]
          exact drawn_nodup _ (by omega)
      | uuid => exact (handedOut_nodup rfl huuids).1
      | flowId => exact (handedOut_nodup rfl hflows).1
    · intro allocator
      cases allocator with
      | sequenceId =>
          intro hzero
          exact absurd (hfits 0 hzero) (by decide)
      | uuid => rw [hreturned]; exact (handedOut_nodup rfl huuids).2
      | flowId => rw [hreturned]; exact (handedOut_nodup rfl hflows).2

end Runs

/-- The counter of sequence ids starts at its last value. -/
def lastHashes : Hashes := ⟨2 ^ 64 - 1, 0, 7, by decide, by decide⟩

/-- Two threads that each start a sequence. -/
def twoSequences : List (Nat × Allocator) := [(0, .sequenceId), (1, .sequenceId)]

/-- The second sequence has id zero. -/
theorem sequence_id_wraps : ∃ state, run twoSequences (State.new lastHashes) = some state ∧
    (state.returned .sequenceId).length < 2 ^ 32 - 2 ^ 16 ∧ ¬ Valid state := by
  have hrun : (run twoSequences (State.new lastHashes)).map (fun state =>
      state.returned .sequenceId) = some [2 ^ 32 - 1, 0] := by decide +kernel
  obtain ⟨state, hstate, hreturned⟩ := Option.map_eq_some_iff.1 hrun
  refine ⟨state, hstate, ?_, ?_⟩
  · rw [hreturned]
    decide
  · intro hvalid
    apply hvalid.nonzero .sequenceId
    rw [hreturned]
    decide

/-- One thread draws zero for a uuid, and another one draws before it draws again. -/
def interleaved : List (Nat × Allocator) :=
  [(0, .uuid), (1, .uuid), (1, .sequenceId), (0, .uuid), (0, .flowId)]

theorem ids_valid_iff_interleaved :
    ∃ state, run interleaved (State.new lastHashes) = some state ∧ Valid state := by
  have hrun : (run interleaved (State.new lastHashes)).map (fun state =>
      (state.returned .sequenceId, state.returned .uuid, state.returned .flowId)) =
        some ([2 ^ 32 - 1], [1, 2], [7]) := by decide +kernel
  obtain ⟨state, hstate, hreturned⟩ := Option.map_eq_some_iff.1 hrun
  simp only [Prod.mk.injEq] at hreturned
  obtain ⟨hsequence, huuid, hflow⟩ := hreturned
  refine ⟨state, hstate, (ids_valid_iff hstate ?_ ?_ ?_).2 (by decide)⟩
  · rw [hsequence]
    decide
  · rw [huuid]
    decide
  · rw [hflow]
    decide

end TracingPerfetto.Allocators
