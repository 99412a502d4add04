import Mathlib.Data.List.Basic
import Mathlib.Data.List.Nodup
import Mathlib.Data.List.Perm.Basic

/-!
Linearizability of a concurrent object. A linearization is a list of operations in the
order in which a sequential object would perform them; it is built with a point in
time for each operation, between its call and its return. An operation that leaves the
object alone may be given a point in the past.
-/

namespace TracingPerfetto.Linearizability

/-- A sequential object. -/
structure Spec (Call Result State : Type) where
  step : State → Call → Result × State

/-- An operation, with its point. -/
structure Entry (Call Result : Type) where
  op : Nat
  call : Call
  result : Result
  point : Nat

/-- What the callers saw: when each operation was called and when it returned. -/
structure History (Call Result : Type) where
  called : Nat → Option (Call × Nat)
  returned : Nat → Option (Result × Nat)

section Logs

variable {Call Result State : Type} (spec : Spec Call Result State)

def after (start : State) (log : List (Entry Call Result)) : State :=
  log.foldl (fun state entry => (spec.step state entry.call).2) start

/-- Every operation has the result that the sequential object gives. -/
def Legal : State → List (Entry Call Result) → Prop
  | _, [] => True
  | state, entry :: log => (spec.step state entry.call).1 = entry.result ∧
      Legal (spec.step state entry.call).2 log

def upTo (time : Nat) (log : List (Entry Call Result)) : List (Entry Call Result) :=
  log.filter fun entry => decide (entry.point ≤ time)

def later (time : Nat) (log : List (Entry Call Result)) : List (Entry Call Result) :=
  log.filter fun entry => !decide (entry.point ≤ time)

def Sorted (log : List (Entry Call Result)) : Prop :=
  log.Pairwise fun entry other => entry.point ≤ other.point

/-- Adds an operation at its point, behind those with the same point. -/
def place (entry : Entry Call Result) (log : List (Entry Call Result)) :
    List (Entry Call Result) :=
  upTo entry.point log ++ entry :: later entry.point log

/-- The list is a linearization of the history. -/
structure Linearizes (start : State) (history : History Call Result)
    (log : List (Entry Call Result)) : Prop where
  legal : Legal spec start log
  nodup : (log.map Entry.op).Nodup
  called : ∀ entry ∈ log, ∃ time, history.called entry.op = some (entry.call, time)
  returned : ∀ op result time, history.returned op = some (result, time) →
    ∃ entry ∈ log, entry.op = op ∧ entry.result = result
  realTime : log.Pairwise fun entry other => ∀ call result calledAt returnedAt,
    history.called entry.op = some (call, calledAt) →
    history.returned other.op = some (result, returnedAt) → ¬ returnedAt < calledAt

variable {spec}

theorem after_append (start : State) (log more : List (Entry Call Result)) :
    after spec start (log ++ more) = after spec (after spec start log) more :=
  List.foldl_append

theorem legal_append {start : State} {log more : List (Entry Call Result)} :
    Legal spec start (log ++ more) ↔
      Legal spec start log ∧ Legal spec (after spec start log) more := by
  induction log generalizing start with
  | nil => simp [Legal, after]
  | cons entry log ih =>
      simp only [List.cons_append, Legal, ih, and_assoc]
      rfl

theorem upTo_append (time : Nat) (log more : List (Entry Call Result)) :
    upTo time (log ++ more) = upTo time log ++ upTo time more :=
  List.filter_append _ _

theorem upTo_append_later {log : List (Entry Call Result)} (h : Sorted log) (time : Nat) :
    upTo time log ++ later time log = log := by
  induction log with
  | nil => rfl
  | cons entry log ih =>
      rw [Sorted, List.pairwise_cons] at h
      by_cases hentry : entry.point ≤ time
      · have hrest := ih h.2
        simp only [upTo, later] at hrest ⊢
        simp [hentry, hrest]
      · -- Everything behind the entry is later as well.
        have hlate : ∀ other ∈ entry :: log, ¬ other.point ≤ time := by
          intro other hother
          rcases List.mem_cons.1 hother with rfl | hother
          · exact hentry
          · have hle := h.1 other hother
            omega
        have hnone : upTo time (entry :: log) = [] := by
          apply List.filter_eq_nil_iff.2
          intro other hother
          simpa using hlate other hother
        have hall : later time (entry :: log) = entry :: log := by
          apply List.filter_eq_self.2
          intro other hother
          simpa using hlate other hother
        rw [hnone, hall, List.nil_append]

theorem mem_place {entry other : Entry Call Result} {log : List (Entry Call Result)} :
    other ∈ place entry log ↔ other = entry ∨ other ∈ log := by
  simp only [place, upTo, later, List.mem_append, List.mem_cons, List.mem_filter,
    decide_eq_true_eq, Bool.not_eq_true', decide_eq_false_iff_not]
  by_cases hpoint : other.point ≤ entry.point
  · simp [hpoint, or_comm]
  · simp [hpoint]

theorem place_perm (entry : Entry Call Result) (log : List (Entry Call Result)) :
    (place entry log).Perm (entry :: log) := by
  refine List.perm_middle.trans (List.Perm.cons entry ?_)
  exact List.filter_append_perm _ log

theorem place_sorted {entry : Entry Call Result} {log : List (Entry Call Result)}
    (h : Sorted log) : Sorted (place entry log) := by
  rw [Sorted, place, List.pairwise_append, List.pairwise_cons]
  refine ⟨h.filter _, ⟨?_, h.filter _⟩, ?_⟩
  · intro other hother
    have hlate := (List.mem_filter.1 hother).2
    simp only [Bool.not_eq_true', decide_eq_false_iff_not] at hlate
    omega
  · intro early hearly other hother
    have hle : early.point ≤ entry.point := by simpa using (List.mem_filter.1 hearly).2
    rcases List.mem_cons.1 hother with rfl | hother
    · exact hle
    · have hlate := (List.mem_filter.1 hother).2
      simp only [Bool.not_eq_true', decide_eq_false_iff_not] at hlate
      omega

/-- An operation that leaves the object alone, at a point in the past. -/
structure Stutters (spec : Spec Call Result State) (start : State)
    (log : List (Entry Call Result)) (entry : Entry Call Result) : Prop where
  result : (spec.step (after spec start (upTo entry.point log)) entry.call).1 = entry.result
  state : (spec.step (after spec start (upTo entry.point log)) entry.call).2 =
    after spec start (upTo entry.point log)

variable {start : State} {entry : Entry Call Result} {log : List (Entry Call Result)}

theorem Stutters.after (h : Stutters spec start log entry) (more : List (Entry Call Result)) :
    Linearizability.after spec start (upTo entry.point log ++ entry :: more) =
      Linearizability.after spec start (upTo entry.point log ++ more) := by
  rw [after_append, after_append]
  change Linearizability.after spec
    (spec.step (Linearizability.after spec start (upTo entry.point log)) entry.call).2 more = _
  rw [h.state]

theorem Stutters.after_place (h : Stutters spec start log entry) (hsorted : Sorted log) :
    Linearizability.after spec start (place entry log) = Linearizability.after spec start log := by
  rw [place, h.after, upTo_append_later hsorted]

theorem Stutters.legal_place (h : Stutters spec start log entry) (hsorted : Sorted log)
    (hlegal : Legal spec start log) : Legal spec start (place entry log) := by
  rw [← upTo_append_later hsorted entry.point, legal_append] at hlegal
  rw [place, legal_append]
  refine ⟨hlegal.1, h.result, ?_⟩
  rw [h.state]
  exact hlegal.2

/-- The states at all points stay as they were. -/
theorem Stutters.upTo_place (h : Stutters spec start log entry) (hsorted : Sorted log)
    (time : Nat) :
    Linearizability.after spec start (upTo time (place entry log)) =
      Linearizability.after spec start (upTo time log) := by
  have hsplit : upTo time log = upTo time (upTo entry.point log) ++
      upTo time (later entry.point log) := by
    rw [← upTo_append, upTo_append_later hsorted]
  have hplace : upTo time (place entry log) = upTo time (upTo entry.point log) ++
      upTo time (entry :: later entry.point log) := upTo_append _ _ _
  by_cases htime : entry.point ≤ time
  · have hall : upTo time (upTo entry.point log) = upTo entry.point log := by
      apply List.filter_eq_self.2
      intro other hother
      have hle : other.point ≤ entry.point := by simpa using (List.mem_filter.1 hother).2
      simpa using Nat.le_trans hle htime
    have hcons : upTo time (entry :: later entry.point log) =
        entry :: upTo time (later entry.point log) := by simp [upTo, htime]
    rw [hplace, hsplit, hall, hcons, h.after]
  · have hcons : upTo time (entry :: later entry.point log) =
        upTo time (later entry.point log) := by simp [upTo, htime]
    rw [hplace, hsplit, hcons]

/-- An operation at the present time. -/
theorem sorted_concat (hsorted : Sorted log) (hlast : ∀ other ∈ log, other.point ≤ entry.point) :
    Sorted (log ++ [entry]) := by
  rw [Sorted, List.pairwise_append]
  refine ⟨hsorted, List.pairwise_singleton _ _, ?_⟩
  intro other hother last hmem
  rw [List.mem_singleton.1 hmem]
  exact hlast other hother

theorem after_concat : after spec start (log ++ [entry]) =
    (spec.step (after spec start log) entry.call).2 := by
  rw [after_append]
  rfl

theorem legal_concat (hlegal : Legal spec start log)
    (hresult : (spec.step (after spec start log) entry.call).1 = entry.result) :
    Legal spec start (log ++ [entry]) :=
  legal_append.2 ⟨hlegal, hresult, trivial⟩

theorem upTo_concat {time : Nat} (htime : time < entry.point) :
    upTo time (log ++ [entry]) = upTo time log := by
  have hentry : ¬ entry.point ≤ time := by omega
  simp [upTo, hentry]

theorem upTo_all {time : Nat} (h : ∀ other ∈ log, other.point ≤ time) : upTo time log = log := by
  apply List.filter_eq_self.2
  intro other hother
  simpa using h other hother

/-- Points between calls and returns respect real time. -/
theorem linearizes_of_points {history : History Call Result} (hlegal : Legal spec start log)
    (hsorted : Sorted log) (hnodup : (log.map Entry.op).Nodup)
    (hcalled : ∀ entry ∈ log, ∃ time, history.called entry.op = some (entry.call, time) ∧
      time ≤ entry.point)
    (hreturned : ∀ op result time, history.returned op = some (result, time) →
      ∃ entry ∈ log, entry.op = op ∧ entry.result = result ∧ entry.point ≤ time) :
    Linearizes spec start history log := by
  refine ⟨hlegal, hnodup, ?_, ?_, ?_⟩
  · intro entry hentry
    obtain ⟨time, htime, -⟩ := hcalled entry hentry
    exact ⟨time, htime⟩
  · intro op result time hop
    obtain ⟨entry, hentry, hsame, hresult, -⟩ := hreturned op result time hop
    exact ⟨entry, hentry, hsame, hresult⟩
  · have hpoints : ∀ first ∈ log, ∀ second ∈ log, first.point ≤ second.point →
        ∀ call result calledAt returnedAt,
          history.called first.op = some (call, calledAt) →
          history.returned second.op = some (result, returnedAt) →
          ¬ returnedAt < calledAt := by
      intro first hfirst second hsecond hle call result calledAt returnedAt hcall hreturn
      obtain ⟨time, htime, hbefore⟩ := hcalled first hfirst
      rw [hcall, Option.some.injEq, Prod.mk.injEq] at htime
      obtain ⟨entry, hentry, hsame, -, hpoint⟩ := hreturned second.op result returnedAt hreturn
      obtain rfl : entry = second := List.inj_on_of_nodup_map hnodup hentry hsecond hsame
      omega
    exact hsorted.imp_of_mem fun {first second} hfirst hsecond hle =>
      hpoints first hfirst second hsecond hle

end Logs

end TracingPerfetto.Linearizability
