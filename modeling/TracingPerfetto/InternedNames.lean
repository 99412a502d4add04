import Mathlib.Data.List.Nodup
import TracingPerfetto.Interning

/-!
Which string an interned id stands for. The interners of a sequence go by the start
address of a string alone, so an id stands for the first string that was interned at
the address.
-/

namespace TracingPerfetto.InternedNames

open TracingPerfetto.Wire TracingPerfetto.Proto TracingPerfetto.Runtime
open TracingPerfetto.Sequence TracingPerfetto.TrackEvents TracingPerfetto.Interning

/-- What happens to the interning part of a sequence between and during packets. -/
inductive Step where
  | eventName (name : StaticStr)
  | annotationName (name : StaticStr)
  | category (name : StaticStr)
  | sourceLocation (callsite : Nat) (file : StaticStr) (line : Nat)
  | level (value : Level)
  | emit
  deriving DecidableEq, Repr

/-- The table and the string of an interning call. -/
def Step.call : Step → Option (Table × StaticStr)
  | .eventName name => some (.eventNames, name)
  | .annotationName name => some (.annotationNames, name)
  | .category name => some (.categories, name)
  | _ => none

structure Answer where
  table : Table
  name : StaticStr
  iid : Nat
  deriving DecidableEq, Repr

/-- The ids that a step returns and what it writes into a packet. -/
def Step.perform (memory : StaticMemory) : Step → Encode (List Answer × List Op)
  | .eventName name => do
      let iid ← InternTables.internEventName memory name
      pure ([⟨.eventNames, name, iid⟩], [])
  | .annotationName name => do
      let iid ← InternTables.internAnnotationName memory name
      pure ([⟨.annotationNames, name, iid⟩], [])
  | .category name => do
      let iid ← InternTables.internCategory memory name
      pure ([⟨.categories, name, iid⟩], [])
  | .sourceLocation callsite file line => do
      let _ ← InternTables.internSourceLocation memory callsite file line
      pure ([], [])
  | .level value => do
      let _ ← writeLevel value
      pure ([], [])
  | .emit => fun tables => (([], tables.emitInternedData.1), tables.emitInternedData.2)

def run (memory : StaticMemory) : List Step → Encode (List Answer × List Op)
  | [] => pure ([], [])
  | step :: steps => do
      let first ← step.perform memory
      let rest ← run memory steps
      pure (first.1 ++ rest.1, first.2 ++ rest.2)

theorem run_nil (memory : StaticMemory) (tables : InternTables) :
    run memory [] tables = (([], []), tables) := rfl

theorem run_cons (memory : StaticMemory) (step : Step) (steps : List Step)
    (tables : InternTables) :
    run memory (step :: steps) tables =
      (((step.perform memory tables).1.1 ++
            (run memory steps (step.perform memory tables).2).1.1,
          (step.perform memory tables).1.2 ++
            (run memory steps (step.perform memory tables).2).1.2),
        (run memory steps (step.perform memory tables).2).2) := rfl

def answers (memory : StaticMemory) (steps : List Step) : List Answer :=
  (run memory steps InternTables.new).1.1

/-- What the packets define, the one after the steps included. -/
def emitted (memory : StaticMemory) (steps : List Step) (table : Table) :
    List (Nat × Bytes) :=
  table.definitions (Op.fields (run memory (steps ++ [.emit]) InternTables.new).1.2)

/-- The id is defined as the string it was returned for, and as nothing else. -/
def Resolves (memory : StaticMemory) (defined : Table → List (Nat × Bytes))
    (answer : Answer) : Prop :=
  (answer.iid, memory.text answer.name) ∈ defined answer.table ∧
    ∀ entry ∈ defined answer.table, entry.1 = answer.iid →
      entry.2 = memory.text answer.name

instance (memory : StaticMemory) (defined : Table → List (Nat × Bytes)) (answer : Answer) :
    Decidable (Resolves memory defined answer) :=
  inferInstanceAs (Decidable (_ ∧ _))

/-! ## One interner -/

/-- Every address keeps the id it got first, which stands for a string that was
interned there. -/
structure Answered (memory : StaticMemory) (interner : Interner) (entries : List (Nat × Bytes))
    (answers : StaticStr → Nat → Prop) : Prop where
  cached : interner.lastKey ≠ 0 → interner.map interner.lastKey = some interner.lastIid
  kept : ∀ name iid, answers name iid → interner.map name.ptr = some iid
  mapped : ∀ key iid, interner.map key = some iid →
    ∃ first, answers first iid ∧ first.ptr = key ∧ (iid, memory.text first) ∈ entries

section Interner

variable {memory : StaticMemory} {interner : Interner} {entries entries' : List (Nat × Bytes)}
variable {answers answers' : StaticStr → Nat → Prop}

theorem Answered.mono (h : Answered memory interner entries answers)
    (hentries : entries <+: entries')
    (hanswers : ∀ name iid, answers' name iid ↔ answers name iid) :
    Answered memory interner entries' answers' := by
  refine ⟨h.cached, ?_, ?_⟩
  · intro name iid hanswer
    exact h.kept name iid ((hanswers name iid).1 hanswer)
  · intro key iid hkey
    obtain ⟨first, hanswer, hptr, hentry⟩ := h.mapped key iid hkey
    exact ⟨first, (hanswers first iid).2 hanswer, hptr, hentries.subset hentry⟩

/-- An address that was seen before answers with its id, whichever way it is found. -/
theorem intern_known (h : Answered memory interner entries answers) {value : StaticStr}
    {iid : Nat} (pending : Pending) (hmap : interner.map value.ptr = some iid) :
    (interner.intern memory value pending).1 = iid ∧
      (interner.intern memory value pending).2.1.map = interner.map ∧
      (interner.intern memory value pending).2.2 = pending ∧
      interner.map (interner.intern memory value pending).2.1.lastKey =
        some (interner.intern memory value pending).2.1.lastIid := by
  simp only [Interner.intern]
  split
  · rename_i hlast
    have hcached := h.cached (by rw [hlast]; exact value.ptr_ne)
    refine ⟨?_, rfl, rfl, hcached⟩
    rw [hlast, hmap, Option.some.injEq] at hcached
    exact hcached.symm
  · rw [hmap]
    exact ⟨rfl, rfl, rfl, hmap⟩

theorem intern_unknown (h : Answered memory interner entries answers) {value : StaticStr}
    {pending : Pending} (hmap : interner.map value.ptr = none) :
    interner.intern memory value pending = interner.internMiss memory value pending := by
  simp only [Interner.intern]
  split
  · rename_i hlast
    have hcached := h.cached (by rw [hlast]; exact value.ptr_ne)
    rw [hlast, hmap] at hcached
    simp at hcached
  · rw [hmap]

theorem Answered.intern {defined : List (Nat × Bytes)} {pending : Pending}
    (h : Answered memory interner (defined ++ pending) answers) (value : StaticStr) :
    Answered memory (interner.intern memory value pending).2.1
      (defined ++ (interner.intern memory value pending).2.2) fun name iid =>
        answers name iid ∨ name = value ∧ iid = (interner.intern memory value pending).1 := by
  cases hmap : interner.map value.ptr with
  | some iid =>
      obtain ⟨hiid, hsame, hpending, hcached⟩ := intern_known h pending hmap
      rw [hiid, hpending]
      refine ⟨fun _ => ?_, ?_, ?_⟩
      · rw [hsame]
        exact hcached
      · rw [hsame]
        rintro name other (hanswer | ⟨rfl, rfl⟩)
        · exact h.kept name other hanswer
        · exact hmap
      · rw [hsame]
        intro key other hkey
        obtain ⟨first, hanswer, hfirst⟩ := h.mapped key other hkey
        exact ⟨first, Or.inl hanswer, hfirst⟩
  | none =>
      rw [intern_unknown h hmap]
      simp only [Interner.internMiss, ← List.append_assoc]
      have hne : ∀ name iid, answers name iid → name.ptr ≠ value.ptr := by
        intro name iid hanswer heq
        have hkept := h.kept name iid hanswer
        rw [heq, hmap] at hkept
        simp at hkept
      refine ⟨fun _ => by simp [PtrMap.insert], ?_, ?_⟩
      · rintro name iid (hanswer | ⟨rfl, rfl⟩)
        · simpa [PtrMap.insert, hne name iid hanswer] using h.kept name iid hanswer
        · simp [PtrMap.insert]
      · intro key iid hkey
        simp only [PtrMap.insert] at hkey
        split at hkey
        · rename_i heq
          simp only [Option.some.injEq] at hkey
          subst hkey
          exact ⟨value, Or.inr ⟨rfl, rfl⟩, heq.symm, by simp⟩
        · obtain ⟨first, hanswer, hptr, hentry⟩ := h.mapped key iid hkey
          exact ⟨first, Or.inl hanswer, hptr, List.mem_append_left _ hentry⟩

end Interner

/-! ## Runs -/

/-- What the answers so far and the tables have to do with each other. -/
structure Faithful (memory : StaticMemory) (defined : Table → List (Nat × Bytes))
    (tables : InternTables) (all : List Answer) : Prop where
  ok : TablesOk defined tables
  eventNames : Answered memory tables.eventNames (entries defined tables .eventNames)
    fun name iid => ⟨.eventNames, name, iid⟩ ∈ all
  annotationNames : Answered memory tables.annotationNames
    (entries defined tables .annotationNames) fun name iid => ⟨.annotationNames, name, iid⟩ ∈ all
  categories : Answered memory tables.categories (entries defined tables .categories)
    fun name iid => ⟨.categories, name, iid⟩ ∈ all
  only : ∀ answer ∈ all, answer.table ∈ [.eventNames, .annotationNames, .categories]

section Steps

variable {memory : StaticMemory} {defined : Table → List (Nat × Bytes)}
variable {tables tables' : InternTables} {all : List Answer}

theorem Faithful.extends (h : Faithful memory defined tables all)
    (hextends : Extends defined tables tables')
    (heventNames : tables'.eventNames = tables.eventNames)
    (hannotationNames : tables'.annotationNames = tables.annotationNames)
    (hcategories : tables'.categories = tables.categories) :
    Faithful memory defined tables' all := by
  refine ⟨hextends.ok, ?_, ?_, ?_, h.only⟩
  · rw [heventNames]
    exact h.eventNames.mono (hextends.grows _) fun _ _ => Iff.rfl
  · rw [hannotationNames]
    exact h.annotationNames.mono (hextends.grows _) fun _ _ => Iff.rfl
  · rw [hcategories]
    exact h.categories.mono (hextends.grows _) fun _ _ => Iff.rfl

theorem only_concat {answer : Answer} (h : Faithful memory defined tables all)
    (hanswer : answer.table ∈ [Table.eventNames, .annotationNames, .categories]) :
    ∀ other ∈ all ++ [answer],
      other.table ∈ [Table.eventNames, .annotationNames, .categories] := by
  intro other hother
  obtain hold | hnew := List.mem_append.1 hother
  · exact h.only other hold
  · rwa [List.mem_singleton.1 hnew]

theorem Faithful.eventName (h : Faithful memory defined tables all) (name : StaticStr) :
    Faithful memory defined (InternTables.internEventName memory name tables).2
      (all ++ [⟨.eventNames, name, (InternTables.internEventName memory name tables).1⟩]) := by
  obtain ⟨hextends, -⟩ := internEventName_extends memory h.ok name
  refine ⟨hextends.ok, ?_, ?_, ?_, ?_⟩
  · apply (h.eventNames.intern name).mono List.prefix_rfl
    intro other iid
    simp [InternTables.internEventName, Table.pending]
  · apply h.annotationNames.mono List.prefix_rfl
    simp
  · apply h.categories.mono List.prefix_rfl
    simp
  · exact only_concat h (by simp)

theorem Faithful.annotationName (h : Faithful memory defined tables all) (name : StaticStr) :
    Faithful memory defined (InternTables.internAnnotationName memory name tables).2
      (all ++ [⟨.annotationNames, name,
        (InternTables.internAnnotationName memory name tables).1⟩]) := by
  obtain ⟨hextends, -⟩ := internAnnotationName_extends memory h.ok name
  refine ⟨hextends.ok, ?_, ?_, ?_, ?_⟩
  · apply h.eventNames.mono List.prefix_rfl
    simp
  · apply (h.annotationNames.intern name).mono List.prefix_rfl
    intro other iid
    simp [InternTables.internAnnotationName, Table.pending]
  · apply h.categories.mono List.prefix_rfl
    simp
  · exact only_concat h (by simp)

theorem Faithful.category (h : Faithful memory defined tables all) (name : StaticStr) :
    Faithful memory defined (InternTables.internCategory memory name tables).2
      (all ++ [⟨.categories, name, (InternTables.internCategory memory name tables).1⟩]) := by
  obtain ⟨hextends, -⟩ := internCategory_extends memory h.ok name
  refine ⟨hextends.ok, ?_, ?_, ?_, ?_⟩
  · apply h.eventNames.mono List.prefix_rfl
    simp
  · apply h.annotationNames.mono List.prefix_rfl
    simp
  · apply (h.categories.intern name).mono List.prefix_rfl
    intro other iid
    simp [InternTables.internCategory, Table.pending]
  · exact only_concat h (by simp)

theorem emit_interners (tables : InternTables) :
    tables.emitInternedData.2.eventNames = tables.eventNames ∧
      tables.emitInternedData.2.annotationNames = tables.annotationNames ∧
      tables.emitInternedData.2.categories = tables.categories := by
  simp only [InternTables.emitInternedData]
  split <;> exact ⟨rfl, rfl, rfl⟩

theorem Faithful.emit (h : Faithful memory defined tables all) :
    Faithful memory (fun table => defined table ++ table.pending tables)
      tables.emitInternedData.2 all := by
  obtain ⟨heventNames, hannotationNames, hcategories⟩ := emit_interners tables
  have hentries : ∀ table, entries defined tables table <+:
      entries (fun table => defined table ++ table.pending tables)
        tables.emitInternedData.2 table := by
    intro table
    have hsame : entries defined tables table =
        entries (fun table => defined table ++ table.pending tables)
          tables.emitInternedData.2 table := by
      rw [entries, entries, pending_emitInternedData, List.append_nil]
    exact ⟨[], by rw [List.append_nil, hsame]⟩
  refine ⟨h.ok.emit fun _ => rfl, ?_, ?_, ?_, h.only⟩
  · rw [heventNames]
    exact h.eventNames.mono (hentries _) fun _ _ => Iff.rfl
  · rw [hannotationNames]
    exact h.annotationNames.mono (hentries _) fun _ _ => Iff.rfl
  · rw [hcategories]
    exact h.categories.mono (hentries _) fun _ _ => Iff.rfl

theorem writeLevel_interners (level : Level) (tables : InternTables) :
    (writeLevel level tables).2.eventNames = tables.eventNames ∧
      (writeLevel level tables).2.annotationNames = tables.annotationNames ∧
      (writeLevel level tables).2.categories = tables.categories := by
  simp only [writeLevel]
  split <;> split <;> exact ⟨rfl, rfl, rfl⟩

theorem internSourceLocation_interners (memory : StaticMemory) (callsite : Nat) (file : StaticStr)
    (line : Nat)
    (tables : InternTables) :
    (InternTables.internSourceLocation memory callsite file line tables).2.eventNames =
        tables.eventNames ∧
      (InternTables.internSourceLocation memory callsite file line tables).2.annotationNames =
        tables.annotationNames ∧
      (InternTables.internSourceLocation memory callsite file line tables).2.categories =
        tables.categories := by
  simp only [InternTables.internSourceLocation]
  split <;> exact ⟨rfl, rfl, rfl⟩

theorem definitions_nil (table : Table) : table.definitions (Op.fields []) = [] := rfl

/-- One step keeps the tables and the answers together. -/
theorem Faithful.perform (h : Faithful memory defined tables all) (step : Step) :
    Faithful memory
      (fun table => defined table ++
        table.definitions (Op.fields (step.perform memory tables).1.2))
      (step.perform memory tables).2 (all ++ (step.perform memory tables).1.1) := by
  cases step with
  | eventName name =>
      simp only [Step.perform, bind_run, pure_run, definitions_nil, List.append_nil]
      exact h.eventName name
  | annotationName name =>
      simp only [Step.perform, bind_run, pure_run, definitions_nil, List.append_nil]
      exact h.annotationName name
  | category name =>
      simp only [Step.perform, bind_run, pure_run, definitions_nil, List.append_nil]
      exact h.category name
  | sourceLocation callsite file line =>
      obtain ⟨heventNames, hannotationNames, hcategories⟩ :=
        internSourceLocation_interners memory callsite file line tables
      obtain ⟨hextends, -⟩ := internSourceLocation_extends memory h.ok callsite file line
      simp only [Step.perform, bind_run, pure_run, definitions_nil, List.append_nil]
      exact h.extends hextends heventNames hannotationNames hcategories
  | level value =>
      obtain ⟨heventNames, hannotationNames, hcategories⟩ := writeLevel_interners value tables
      obtain ⟨hextends, -⟩ := writeLevel_sound value _ _ h.ok
      simp only [Step.perform, bind_run, pure_run, definitions_nil, List.append_nil]
      exact h.extends hextends heventNames hannotationNames hcategories
  | emit =>
      simp only [Step.perform, definitions_emitInternedData, List.append_nil]
      exact h.emit

/-- Every run keeps them together. -/
theorem Faithful.run (h : Faithful memory defined tables all) (steps : List Step) :
    Faithful memory
      (fun table => defined table ++
        table.definitions (Op.fields (run memory steps tables).1.2))
      (run memory steps tables).2 (all ++ (run memory steps tables).1.1) := by
  induction steps generalizing defined tables all with
  | nil => simpa only [run_nil, definitions_nil, List.append_nil] using h
  | cons step steps ih =>
      have hrest := ih (h.perform step)
      simpa only [run_cons, Op.fields_append, definitions_append, List.append_assoc] using hrest

theorem faithful_new (memory : StaticMemory) :
    Faithful memory (fun _ => []) InternTables.new [] := by
  have hnone : ∀ next entries table, Answered memory ⟨fun _ => none, next, 0, 0⟩ entries
      fun name iid => (⟨table, name, iid⟩ : Answer) ∈ [] := by
    intro next entries table
    refine ⟨?_, ?_, ?_⟩
    · intro hlast
      exact absurd rfl hlast
    · intro name iid hanswer
      simp at hanswer
    · intro key iid hkey
      simp at hkey
  obtain ⟨hok, -⟩ := consistent_new 0 0 0
  exact ⟨hok, hnone _ _ _, hnone _ _ _, hnone _ _ _, by simp⟩

theorem Faithful.answered (h : Faithful memory defined tables all) {table : Table}
    {name : StaticStr} {iid : Nat} (hanswer : ⟨table, name, iid⟩ ∈ all) :
    ((entries defined tables table).map Prod.fst).Nodup ∧
      ∃ interner, Answered memory interner (entries defined tables table)
        fun name iid => ⟨table, name, iid⟩ ∈ all := by
  have honly := h.only _ hanswer
  simp only [List.mem_cons, List.not_mem_nil, or_false] at honly
  rcases honly with rfl | rfl | rfl
  · exact ⟨h.ok.eventNames.nodup, _, h.eventNames⟩
  · exact ⟨h.ok.annotationNames.nodup, _, h.annotationNames⟩
  · exact ⟨h.ok.categories.nodup, _, h.categories⟩

end Steps

/-! ## The names of a whole run -/

section Names

variable (memory : StaticMemory) (steps : List Step)

theorem run_append (more : List Step) (tables : InternTables) :
    run memory (steps ++ more) tables =
      (((run memory steps tables).1.1 ++ (run memory more (run memory steps tables).2).1.1,
          (run memory steps tables).1.2 ++ (run memory more (run memory steps tables).2).1.2),
        (run memory more (run memory steps tables).2).2) := by
  induction steps generalizing tables with
  | nil => rfl
  | cons step steps ih => simp only [List.cons_append, run_cons, ih, List.append_assoc]

theorem run_calls (tables : InternTables) :
    (run memory steps tables).1.1.map (fun answer => (answer.table, answer.name)) =
      steps.filterMap Step.call := by
  induction steps generalizing tables with
  | nil => rw [run_nil, List.map_nil, List.filterMap_nil]
  | cons step steps ih =>
      have hfirst : (step.perform memory tables).1.1.map
          (fun answer => (answer.table, answer.name)) = step.call.toList := by
        cases step <;> rfl
      simp only [run_cons, List.map_append, hfirst, ih, List.filterMap_cons]
      cases step.call <;> rfl

theorem mem_calls {table : Table} {name : StaticStr} :
    (table, name) ∈ steps.filterMap Step.call ↔
      ∃ iid, ⟨table, name, iid⟩ ∈ answers memory steps := by
  rw [← run_calls memory steps InternTables.new, List.mem_map]
  constructor
  · rintro ⟨⟨table, name, iid⟩, hanswer, rfl, rfl⟩
    exact ⟨iid, hanswer⟩
  · rintro ⟨iid, hanswer⟩
    exact ⟨_, hanswer, rfl⟩

theorem faithful_answers : ∃ tables, (∀ table : Table, table.pending tables = []) ∧
    Faithful memory (emitted memory steps) tables (answers memory steps) := by
  have hrun := (faithful_new memory).run (steps ++ [.emit])
  have hanswers : (run memory (steps ++ [.emit]) InternTables.new).1.1 =
      answers memory steps := by
    rw [run_append, answers]
    exact List.append_nil _
  rw [hanswers] at hrun
  refine ⟨_, ?_, hrun⟩
  intro table
  rw [run_append]
  exact pending_emitInternedData _ table

end Names

/-- Every id resolves to the string it was returned for exactly when the strings
interned in one table at one address are of one length. -/
theorem names_resolve_iff (memory : StaticMemory) (steps : List Step) :
    (∀ answer ∈ answers memory steps, Resolves memory (emitted memory steps) answer) ↔
      ∀ table first second, (table, first) ∈ steps.filterMap Step.call →
        (table, second) ∈ steps.filterMap Step.call →
        first.ptr = second.ptr → first.len = second.len := by
  obtain ⟨tables, hpending, hfaithful⟩ := faithful_answers memory steps
  have hentries : ∀ table, entries (emitted memory steps) tables table =
      emitted memory steps table := by
    intro table
    rw [entries, hpending, List.append_nil]
  constructor
  · intro hresolve table first second hfirst hsecond hptr
    obtain ⟨iid, hfirst⟩ := (mem_calls memory steps).1 hfirst
    obtain ⟨other, hsecond⟩ := (mem_calls memory steps).1 hsecond
    obtain ⟨-, interner, hanswered⟩ := hfaithful.answered hfirst
    have hsame : iid = other := by
      have hkept := hanswered.kept first iid hfirst
      rw [hptr, hanswered.kept second other hsecond, Option.some.injEq] at hkept
      exact hkept.symm
    subst hsame
    have htext : memory.text first = memory.text second :=
      (hresolve _ hsecond).2 _ (hresolve _ hfirst).1 rfl
    simpa [StaticMemory.text] using congrArg List.length htext
  · rintro hlen ⟨table, name, iid⟩ hanswer
    obtain ⟨hnodup, interner, hanswered⟩ := hfaithful.answered hanswer
    obtain ⟨first, hfirst, hptr, hentry⟩ :=
      hanswered.mapped _ _ (hanswered.kept name iid hanswer)
    have hlens : first.len = name.len := hlen table first name
      ((mem_calls memory steps).2 ⟨iid, hfirst⟩) ((mem_calls memory steps).2 ⟨iid, hanswer⟩) hptr
    have htext : memory.text first = memory.text name := by
      rw [StaticMemory.text, StaticMemory.text, hptr, hlens]
    rw [hentries] at hnodup hentry
    rw [htext] at hentry
    refine ⟨hentry, ?_⟩
    intro entry hmem hiid
    have heq := List.inj_on_of_nodup_map hnodup hmem hentry hiid
    rw [heq]

/-- A word and its first two letters, which start at the same address. -/
def sampleSteps : List Step :=
  [.eventName (default : StaticMemory).poll, .emit,
    .eventName ⟨(default : StaticMemory).poll.ptr, 2, (default : StaticMemory).poll.ptr_ne⟩]

/-- The second name comes out as the first one. -/
theorem names_collide :
    ¬ ∀ answer ∈ answers default sampleSteps,
      Resolves default (emitted default sampleSteps) answer := by
  decide +kernel

end TracingPerfetto.InternedNames
