import Mathlib.Logic.Hydra
import TracingPerfetto.Threads

/-!
The end of what threads have begun. A program is a tree, so a step of a thread leaves less
of its stack, and without further calls all threads together come to an end, in whatever
order they take their steps. Where they end is where none of them can go on.
-/

namespace TracingPerfetto.Threads

namespace System

variable {Thread Act : Type} {Reply : Act → Type} [DecidableEq Thread]
variable {system : System Thread Act Reply} {Ghost : Type}
variable {protocol : Protocol Act Reply Ghost} {final : Ghost → Prop}
variable {allowed : Thread → system.Call → system.State → Prop}
variable {inv : system.State → (Thread → List Ghost) → Prop}

/-! ## Steps without calls -/

def Goes (config next : system.Config) : Prop :=
  (∃ thread choice, step config (.act thread choice) = some next) ∨
    ∃ thread, step config (.ret thread) = some next

/-- A step where each thread has its choice already. -/
def GoesBy (choices : Thread → system.Choice) (config next : system.Config) : Prop :=
  ∃ thread, step config (.act thread (choices thread)) = some next ∨
    step config (.ret thread) = some next

theorem goes_ret {choices : Thread → system.Choice} {config : system.Config} {thread : Thread}
    {rest : List (Prog Act Reply Unit)} (h : config.frames thread = .done () :: rest) :
    ∃ next, GoesBy choices config next := by
  refine ⟨config.setStack thread config.state rest, thread, .inr ?_⟩
  simp only [System.step, h]

theorem goes_act {choices : Thread → system.Choice} {config : system.Config} {thread : Thread}
    {action : Act} {program : Reply action → Prog Act Reply Unit}
    {rest : List (Prog Act Reply Unit)} {reply : Reply action} {state : system.State}
    (h : config.frames thread = .act action program :: rest)
    (hperform : system.perform thread action (choices thread) config.state =
      some (reply, state)) : ∃ next, GoesBy choices config next := by
  refine ⟨config.setStack thread state (program reply :: rest), thread, .inl ?_⟩
  simp only [System.step, h, hperform, Option.bind_eq_bind, Option.bind_some]

/-- Whatever the order of the steps and the choices, there is an end of them, and it is
one of the ends that `last` allows for the choices. -/
inductive Ends (last : (Thread → system.Choice) → system.Config → Prop) :
    system.Config → Prop where
  | intro (config : system.Config)
      (hgoes : ∀ choices, (∃ next, GoesBy choices config next) ∨ last choices config)
      (hnext : ∀ next, Goes config next → Ends last next) : Ends last config

theorem RuleWhen.goes (h : RuleWhen system protocol final allowed inv) {config next : system.Config}
    (hinv : ∃ ghosts, inv config.state ghosts ∧ Tracks protocol final config ghosts)
    (hgoes : Goes config next) :
    ∃ ghosts, inv next.state ghosts ∧ Tracks protocol final next ghosts := by
  obtain ⟨ghosts, hinv, htracks⟩ := hinv
  rcases hgoes with ⟨thread, choice, hstep⟩ | ⟨thread, hstep⟩
  · have hallows : Allows allowed config (.act thread choice) := trivial
    exact h.step hinv htracks hallows hstep
  · have hallows : Allows allowed config (.ret thread) := trivial
    exact h.step hinv htracks hallows hstep

/-- What is left of a stack after a step. -/
inductive Left : List (Prog Act Reply Unit) → List (Prog Act Reply Unit) → Prop where
  | act (action : Act) (next : Reply action → Prog Act Reply Unit) (reply : Reply action)
      (rest : List (Prog Act Reply Unit)) : Left (next reply :: rest) (.act action next :: rest)
  | ret (rest : List (Prog Act Reply Unit)) : Left rest (.done () :: rest)

omit [DecidableEq Thread] in
theorem left_wellFounded :
    WellFounded (Left : List (Prog Act Reply Unit) → List (Prog Act Reply Unit) → Prop) := by
  constructor
  intro stack
  induction stack with
  | nil =>
      constructor
      rintro _ ⟨⟩
  | cons prog rest hrest =>
      induction prog with
      | done value =>
          constructor
          rintro _ ⟨⟩
          exact hrest
      | act action next ih =>
          constructor
          rintro _ ⟨⟩
          exact ih _

theorem Goes.left {config next : system.Config} (h : Goes config next) :
    ∃ thread stack, Left stack (config.frames thread) ∧
      next.frames = Function.update config.frames thread stack := by
  rcases h with ⟨thread, choice, hstep⟩ | ⟨thread, hstep⟩
  · simp only [System.step] at hstep
    split at hstep
    · rename_i action program rest hstack
      simp only [Option.bind_eq_bind, Option.bind_eq_some_iff, Option.some.injEq] at hstep
      obtain ⟨⟨reply, state⟩, -, rfl⟩ := hstep
      exact ⟨thread, program reply :: rest, hstack ▸ .act action program reply rest, rfl⟩
    · cases hstep
  · simp only [System.step] at hstep
    split at hstep
    · rename_i rest hstack
      cases hstep
      exact ⟨thread, rest, hstack ▸ .ret rest, rfl⟩
    · cases hstep

def pending (threads : Finset Thread) (config : system.Config) :
    Multiset (List (Prog Act Reply Unit)) :=
  threads.val.map config.frames

theorem Goes.pending {threads : Finset Thread} {config next : system.Config}
    (h : Goes config next) (hidle : ∀ thread, thread ∉ threads → config.frames thread = []) :
    Relation.CutExpand Left (pending threads next) (pending threads config) ∧
      ∀ thread, thread ∉ threads → next.frames thread = [] := by
  obtain ⟨thread, stack, hleft, hframes⟩ := h.left
  have hmem : thread ∈ threads := by
    by_contra hout
    rw [hidle thread hout] at hleft
    cases hleft
  constructor
  · refine ⟨{stack}, config.frames thread, fun other hother => ?_, ?_⟩
    · rw [Multiset.mem_singleton.1 hother]
      exact hleft
    · have hothers : ((threads.val.erase thread).map (Function.update config.frames thread stack)) =
          (threads.val.erase thread).map config.frames := by
        apply Multiset.map_congr rfl
        intro other hother
        rw [Function.update_of_ne ((threads.nodup.mem_erase_iff.1 hother).1)]
      rw [System.pending, System.pending, hframes, ← Multiset.cons_erase hmem, Multiset.map_cons,
        Multiset.map_cons, hothers, Function.update_self, Multiset.add_comm _ {stack},
        Multiset.singleton_add, ← Multiset.singleton_add (config.frames thread),
        Multiset.add_comm {config.frames thread}, Multiset.cons_add]
  · intro other hother
    rw [hframes, Function.update_of_ne fun heq => hother (by rwa [heq])]
    exact hidle other hother

/-- The rule for ends: what steps keep says that they can go on, or that this is an end. -/
theorem ends {holds : system.Config → Prop} {last : (Thread → system.Choice) → system.Config → Prop}
    (hkept : ∀ {config next}, holds config → Goes config next → holds next)
    (hgoes : ∀ config, holds config → ∀ choices,
      (∃ next, GoesBy choices config next) ∨ last choices config)
    {threads : Finset Thread} {config : system.Config} (hholds : holds config)
    (hidle : ∀ thread, thread ∉ threads → config.frames thread = []) : Ends last config := by
  have hleft : WellFounded (Left : List (Prog Act Reply Unit) → _) := left_wellFounded
  have hpending := InvImage.wf (fun config : system.Config => pending threads config)
    hleft.cutExpand
  induction config using hpending.induction with
  | _ config ih =>
      refine ⟨config, hgoes config hholds, fun next hnext => ?_⟩
      obtain ⟨hless, hidle'⟩ := hnext.pending hidle
      exact ih next hless (hkept hholds hnext) hidle'

theorem run_threads {labels : List system.Label} {start config : system.Config}
    (hidle : ∃ threads : Finset Thread, ∀ thread, thread ∉ threads → start.frames thread = [])
    (hrun : run labels start = some config) :
    ∃ threads : Finset Thread, ∀ thread, thread ∉ threads → config.frames thread = [] := by
  induction labels generalizing start with
  | nil =>
      simp only [System.run, List.foldlM_nil, Option.pure_def, Option.some.injEq] at hrun
      subst hrun
      exact hidle
  | cons label labels ih =>
      simp only [System.run, List.foldlM_cons, Option.bind_eq_bind,
        Option.bind_eq_some_iff] at hrun
      obtain ⟨next, hstep, hrest⟩ := hrun
      refine ih ?_ hrest
      obtain ⟨threads, hthreads⟩ := hidle
      have hset : ∀ thread state stack, next = start.setStack thread state stack →
          ∃ threads : Finset Thread, ∀ thread, thread ∉ threads → next.frames thread = [] := by
        rintro thread state stack rfl
        refine ⟨insert thread threads, fun other hother => ?_⟩
        rw [Finset.mem_insert, not_or] at hother
        change Function.update start.frames thread stack other = []
        rw [Function.update_of_ne hother.1]
        exact hthreads other hother.2
      rcases label with ⟨thread, choice⟩ | thread | ⟨thread, call⟩
      · simp only [System.step] at hstep
        split at hstep
        · simp only [Option.bind_eq_bind, Option.bind_eq_some_iff, Option.some.injEq] at hstep
          obtain ⟨_, -, heq⟩ := hstep
          exact hset _ _ _ heq.symm
        · cases hstep
      · simp only [System.step] at hstep
        split at hstep
        · exact hset _ _ _ (Option.some.inj hstep).symm
        · cases hstep
      · simp only [System.step] at hstep
        split at hstep
        · simp only [Option.bind_eq_bind, Option.bind_eq_some_iff, Option.some.injEq] at hstep
          obtain ⟨_, -, heq⟩ := hstep
          exact hset _ _ _ heq.symm
        · cases hstep

end System

end TracingPerfetto.Threads
