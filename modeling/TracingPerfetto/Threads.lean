import Mathlib.Data.List.Forall2
import Mathlib.Logic.Function.Basic

/-!
Programs over atomic actions, and threads that run them in any interleaving. Each
thread has a stack of programs; a program can be interrupted by further calls on
its own thread where it runs code of the user.

The proof rule: every program on a stack has a ghost value, which says what that
program holds. A protocol says which actions a ghost value allows and how it
changes with them. It is enough that programs keep to the protocol, which is a
matter of their text, and that each single action, under the protocol, keeps the
invariant.
-/

namespace TracingPerfetto.Threads

inductive Prog (Act : Type) (Reply : Act → Type) (α : Type) : Type where
  | done (value : α)
  | act (action : Act) (next : Reply action → Prog Act Reply α)

namespace Prog

variable {Act : Type} {Reply : Act → Type} {α β : Type}

def bind : Prog Act Reply α → (α → Prog Act Reply β) → Prog Act Reply β
  | .done value, rest => rest value
  | .act action next, rest => .act action fun reply => (next reply).bind rest

instance : Monad (Prog Act Reply) where
  pure := .done
  bind := bind

theorem bind_bind {γ : Type} (prog : Prog Act Reply α) (rest : α → Prog Act Reply β)
    (last : β → Prog Act Reply γ) :
    prog >>= rest >>= last = prog >>= fun value => rest value >>= last := by
  induction prog with
  | done value => rfl
  | act action next ih =>
      change Prog.act action _ = Prog.act action _
      congr 1
      funext reply
      exact ih reply

/-- One action. -/
def perform (action : Act) : Prog Act Reply (Reply action) := .act action .done

end Prog

/-- What a ghost value allows, and how actions change it. -/
structure Protocol (Act : Type) (Reply : Act → Type) (Ghost : Type) where
  pre : Ghost → Act → Prop
  next : Ghost → (action : Act) → Reply action → Ghost

namespace Protocol

variable {Act : Type} {Reply : Act → Type} {Ghost α β : Type}
variable (protocol : Protocol Act Reply Ghost)

/-- The program keeps to the protocol from this ghost value on, and ends in `post`. -/
def Keeps (post : α → Ghost → Prop) : Ghost → Prog Act Reply α → Prop
  | ghost, .done value => post value ghost
  | ghost, .act action next => protocol.pre ghost action ∧
      ∀ reply, Keeps post (protocol.next ghost action reply) (next reply)

variable {protocol}

theorem Keeps.mono {post post' : α → Ghost → Prop} {prog : Prog Act Reply α} {ghost : Ghost}
    (h : protocol.Keeps post ghost prog) (himp : ∀ value ghost, post value ghost →
      post' value ghost) : protocol.Keeps post' ghost prog := by
  induction prog generalizing ghost with
  | done value => exact himp _ _ h
  | act action next ih => exact ⟨h.1, fun reply => ih reply (h.2 reply)⟩

/-- The rule for sequencing. -/
theorem Keeps.bind {post : β → Ghost → Prop} {prog : Prog Act Reply α}
    {rest : α → Prog Act Reply β} {ghost : Ghost}
    (h : protocol.Keeps (fun value ghost => protocol.Keeps post ghost (rest value)) ghost prog) :
    protocol.Keeps post ghost (prog >>= rest) := by
  induction prog generalizing ghost with
  | done value => exact h
  | act action next ih => exact ⟨h.1, fun reply => ih reply (h.2 reply)⟩

end Protocol

/-! ## Properties of all ghost values -/

section Every

variable {Thread Ghost : Type} {ghosts : Thread → List Ghost} {thread : Thread}

/-- Each ghost value of each thread. -/
def Every (P : Thread → Ghost → Prop) (ghosts : Thread → List Ghost) : Prop :=
  ∀ thread, ∀ ghost ∈ ghosts thread, P thread ghost

/-- Any two ghost values, of one thread or of two. -/
structure Apart (R : Ghost → Ghost → Prop) (ghosts : Thread → List Ghost) : Prop where
  within : ∀ thread, (ghosts thread).Pairwise R
  across : ∀ thread other, thread ≠ other → ∀ ghost ∈ ghosts thread, ∀ ghost' ∈ ghosts other,
    R ghost ghost'

variable [DecidableEq Thread] {P Q : Thread → Ghost → Prop} {R : Ghost → Ghost → Prop}
  {ghost ghost' : Ghost} {rest : List Ghost}

theorem every_update {values : List Ghost} (hvalues : ∀ ghost ∈ values, P thread ghost)
    (hothers : ∀ other, other ≠ thread → ∀ ghost ∈ ghosts other, P other ghost) :
    Every P (Function.update ghosts thread values) := by
  intro other
  by_cases hother : other = thread
  · subst hother
    rw [Function.update_self]
    exact hvalues
  · rw [Function.update_of_ne hother]
    exact hothers other hother

/-- The top changes, and the others keep what they have. -/
theorem Every.step (h : Every P ghosts) (hthread : ghosts thread = ghost :: rest)
    (htop : Q thread ghost') (hothers : ∀ other ghost, P other ghost → Q other ghost) :
    Every Q (Function.update ghosts thread (ghost' :: rest)) := by
  apply every_update
  · intro value hmem
    rcases List.mem_cons.1 hmem with rfl | hrest
    · exact htop
    · exact hothers thread value (h thread value
        (by rw [hthread]; exact List.mem_cons_of_mem _ hrest))
  · exact fun other _ value hmem => hothers other value (h other value hmem)

theorem Every.push (h : Every P ghosts) (hnew : Q thread ghost)
    (hothers : ∀ other ghost, P other ghost → Q other ghost) :
    Every Q (Function.update ghosts thread (ghost :: ghosts thread)) := by
  apply every_update
  · intro value hmem
    rcases List.mem_cons.1 hmem with rfl | hrest
    · exact hnew
    · exact hothers thread value (h thread value hrest)
  · exact fun other _ value hmem => hothers other value (h other value hmem)

theorem Every.pop (h : Every P ghosts) (hthread : ghosts thread = ghost :: rest) :
    Every P (Function.update ghosts thread rest) := by
  apply every_update
  · intro value hmem
    exact h thread value (by rw [hthread]; exact List.mem_cons_of_mem _ hmem)
  · exact fun other _ => h other

theorem pairwise_update {values : List Ghost} (h : ∀ thread, (ghosts thread).Pairwise R)
    (hvalues : values.Pairwise R) (other : Thread) :
    (Function.update ghosts thread values other).Pairwise R := by
  by_cases hother : other = thread
  · subst hother
    rwa [Function.update_self]
  · rw [Function.update_of_ne hother]
    exact h other

/-- The top changes, and what stood between it and those below stays. -/
theorem pairwise_step (h : ∀ thread, (ghosts thread).Pairwise R)
    (hthread : ghosts thread = ghost :: rest)
    (htop : ∀ value ∈ rest, R ghost value → R ghost' value)
    (other : Thread) : (Function.update ghosts thread (ghost' :: rest) other).Pairwise R := by
  have hpairs := h thread
  rw [hthread, List.pairwise_cons] at hpairs
  apply pairwise_update h
  exact List.pairwise_cons.2 ⟨fun value hmem => htop value hmem (hpairs.1 value hmem), hpairs.2⟩

theorem pairwise_pop (h : ∀ thread, (ghosts thread).Pairwise R)
    (hthread : ghosts thread = ghost :: rest) (other : Thread) :
    (Function.update ghosts thread rest other).Pairwise R := by
  have hpairs := h thread
  rw [hthread, List.pairwise_cons] at hpairs
  exact pairwise_update h hpairs.2 other

theorem Apart.step (h : Apart R ghosts) (hsymm : ∀ {ghost ghost'}, R ghost ghost' → R ghost' ghost)
    (hthread : ghosts thread = ghost :: rest) (htop : ∀ value, R ghost value → R ghost' value) :
    Apart R (Function.update ghosts thread (ghost' :: rest)) where
  within := pairwise_step h.within hthread fun value _ => htop value
  across := by
    have hfrom : ∀ other, other ≠ thread → ∀ value ∈ ghost' :: rest, ∀ value' ∈ ghosts other,
        R value value' := by
      intro other hother value hmem value' hmem'
      have hold : ∀ old ∈ ghost :: rest, R old value' := fun old hold =>
        h.across thread other hother.symm old (by rwa [hthread]) value' hmem'
      rcases List.mem_cons.1 hmem with rfl | hrest
      · exact htop value' (hold ghost List.mem_cons_self)
      · exact hold value (List.mem_cons_of_mem _ hrest)
    intro first second hne value hvalue value' hvalue'
    by_cases hfirst : first = thread
    · subst hfirst
      rw [Function.update_self] at hvalue
      rw [Function.update_of_ne hne.symm] at hvalue'
      exact hfrom second hne.symm value hvalue value' hvalue'
    · rw [Function.update_of_ne hfirst] at hvalue
      by_cases hsecond : second = thread
      · subst hsecond
        rw [Function.update_self] at hvalue'
        exact hsymm (hfrom first hfirst value' hvalue' value hvalue)
      · rw [Function.update_of_ne hsecond] at hvalue'
        exact h.across first second hne value hvalue value' hvalue'

theorem Apart.push (h : Apart R ghosts) (hsymm : ∀ {ghost ghost'}, R ghost ghost' → R ghost' ghost)
    (hnew : Every (fun _ value => R ghost value) ghosts) :
    Apart R (Function.update ghosts thread (ghost :: ghosts thread)) where
  within := pairwise_update h.within (List.pairwise_cons.2 ⟨hnew thread, h.within thread⟩)
  across := by
    have hfrom : ∀ other, other ≠ thread → ∀ value ∈ ghost :: ghosts thread,
        ∀ value' ∈ ghosts other, R value value' := by
      intro other hother value hmem value' hmem'
      rcases List.mem_cons.1 hmem with rfl | hrest
      · exact hnew other value' hmem'
      · exact h.across thread other hother.symm value hrest value' hmem'
    intro first second hne value hvalue value' hvalue'
    by_cases hfirst : first = thread
    · subst hfirst
      rw [Function.update_self] at hvalue
      rw [Function.update_of_ne hne.symm] at hvalue'
      exact hfrom second hne.symm value hvalue value' hvalue'
    · rw [Function.update_of_ne hfirst] at hvalue
      by_cases hsecond : second = thread
      · subst hsecond
        rw [Function.update_self] at hvalue'
        exact hsymm (hfrom first hfirst value' hvalue' value hvalue)
      · rw [Function.update_of_ne hsecond] at hvalue'
        exact h.across first second hne value hvalue value' hvalue'

theorem Apart.pop (h : Apart R ghosts) (hthread : ghosts thread = ghost :: rest) :
    Apart R (Function.update ghosts thread rest) where
  within := pairwise_pop h.within hthread
  across := by
    have hmem : ∀ other, ∀ value ∈ Function.update ghosts thread rest other,
        value ∈ ghosts other := by
      intro other value hvalue
      by_cases hother : other = thread
      · subst hother
        rw [Function.update_self] at hvalue
        rw [hthread]
        exact List.mem_cons_of_mem _ hvalue
      · rwa [Function.update_of_ne hother] at hvalue
    intro first second hne value hvalue value' hvalue'
    exact h.across first second hne value (hmem first value hvalue) value'
      (hmem second value' hvalue')

theorem Every.step_apart (h : Every P ghosts) (hapart : Apart R ghosts)
    (hthread : ghosts thread = ghost :: rest) (htop : Q thread ghost')
    (hothers : ∀ other, ∀ value ∈ ghosts other, R ghost value → P other value →
      Q other value) :
    Every Q (Function.update ghosts thread (ghost' :: rest)) := by
  have hwithin := hapart.within thread
  rw [hthread, List.pairwise_cons] at hwithin
  have hmem : ∀ value ∈ ghost :: rest, value ∈ ghosts thread := by
    rw [hthread]
    exact fun _ hmem => hmem
  apply every_update
  · intro value hvalue
    rcases List.mem_cons.1 hvalue with rfl | hrest
    · exact htop
    · have hvalue' := hmem value (List.mem_cons_of_mem _ hrest)
      exact hothers thread value hvalue' (hwithin.1 value hrest) (h thread value hvalue')
  · intro other hother value hvalue
    exact hothers other value hvalue
      (hapart.across thread other hother.symm ghost (hmem ghost List.mem_cons_self) value hvalue)
      (h other value hvalue)

/-- Each ghost value with those that it is on top of. -/
def Stacked (P : Thread → Ghost → List Ghost → Prop) (ghosts : Thread → List Ghost) : Prop :=
  ∀ thread ghost below, ghost :: below <:+ ghosts thread → P thread ghost below

variable {S T : Thread → Ghost → List Ghost → Prop}

theorem Stacked.step (h : Stacked S ghosts) (hthread : ghosts thread = ghost :: rest)
    (htop : T thread ghost' rest)
    (hothers : ∀ other value below, value :: below <:+ ghosts other →
      (other = thread → value ∈ rest) → S other value below → T other value below) :
    Stacked T (Function.update ghosts thread (ghost' :: rest)) := by
  intro other value below hsuffix
  by_cases hother : other = thread
  · subst hother
    rw [Function.update_self, List.suffix_cons_iff, List.cons.injEq] at hsuffix
    rcases hsuffix with ⟨rfl, rfl⟩ | hsuffix
    · exact htop
    · have hold : value :: below <:+ ghosts other := by
        rw [hthread]
        exact hsuffix.trans (List.suffix_cons ghost rest)
      exact hothers other value below hold (fun _ => hsuffix.subset List.mem_cons_self)
        (h other value below hold)
  · rw [Function.update_of_ne hother] at hsuffix
    exact hothers other value below hsuffix (fun heq => absurd heq hother)
      (h other value below hsuffix)

theorem Stacked.push (h : Stacked S ghosts) (hnew : T thread ghost (ghosts thread))
    (hothers : ∀ other value below, value :: below <:+ ghosts other → S other value below →
      T other value below) :
    Stacked T (Function.update ghosts thread (ghost :: ghosts thread)) := by
  intro other value below hsuffix
  by_cases hother : other = thread
  · subst hother
    rw [Function.update_self, List.suffix_cons_iff, List.cons.injEq] at hsuffix
    rcases hsuffix with ⟨rfl, rfl⟩ | hsuffix
    · exact hnew
    · exact hothers other value below hsuffix (h other value below hsuffix)
  · rw [Function.update_of_ne hother] at hsuffix
    exact hothers other value below hsuffix (h other value below hsuffix)

theorem Stacked.pop (h : Stacked S ghosts) (hthread : ghosts thread = ghost :: rest) :
    Stacked S (Function.update ghosts thread rest) := by
  intro other value below hsuffix
  by_cases hother : other = thread
  · subst hother
    rw [Function.update_self] at hsuffix
    apply h other value below
    rw [hthread]
    exact hsuffix.trans (List.suffix_cons ghost rest)
  · rw [Function.update_of_ne hother] at hsuffix
    exact h other value below hsuffix

end Every

/-- A system of threads: what each action does to the shared state, which actions
run user code, and which programs the calls into the system start. A choice is the
environment's part in an action. -/
structure System (Thread Act : Type) (Reply : Act → Type) where
  State : Type
  Choice : Type
  Call : Type
  perform : Thread → (action : Act) → Choice → State → Option (Reply action × State)
  user : Act → Bool
  call : Thread → Call → State → Option (Prog Act Reply Unit × State)

namespace System

variable {Thread Act : Type} {Reply : Act → Type} [DecidableEq Thread]
variable (system : System Thread Act Reply)

structure Config where
  state : system.State
  frames : Thread → List (Prog Act Reply Unit)

inductive Label where
  | act (thread : Thread) (choice : system.Choice)
  | ret (thread : Thread)
  | call (thread : Thread) (call : system.Call)

/-- A thread can be called into when it is idle or runs user code. -/
def ready : List (Prog Act Reply Unit) → Bool
  | [] => true
  | .done _ :: _ => false
  | .act action _ :: _ => system.user action

variable {system}

def Config.setStack (config : system.Config) (thread : Thread) (state : system.State)
    (stack : List (Prog Act Reply Unit)) : system.Config :=
  ⟨state, Function.update config.frames thread stack⟩

def step (config : system.Config) : system.Label → Option system.Config
  | .act thread choice =>
      match config.frames thread with
      | .act action next :: rest => do
          let (reply, state) ← system.perform thread action choice config.state
          some (config.setStack thread state (next reply :: rest))
      | _ => none
  | .ret thread =>
      match config.frames thread with
      | .done () :: rest => some (config.setStack thread config.state rest)
      | _ => none
  | .call thread call =>
      if system.ready (config.frames thread) then do
        let (prog, state) ← system.call thread call config.state
        some (config.setStack thread state (prog :: config.frames thread))
      else none

def run (labels : List system.Label) (config : system.Config) : Option system.Config :=
  labels.foldlM step config

def Reaches (start config : system.Config) : Prop :=
  ∃ labels, run labels start = some config

/-- All threads idle. -/
def idle (state : system.State) : system.Config := ⟨state, fun _ => []⟩

variable {Ghost : Type}

/-- The ghost values that a thread that can be called into may have. -/
def Ready (system : System Thread Act Reply) (protocol : Protocol Act Reply Ghost)
    (ghosts : List Ghost) : Prop :=
  ghosts = [] ∨ ∃ ghost rest action, ghosts = ghost :: rest ∧ system.user action = true ∧
    protocol.pre ghost action

/-- An invariant of the shared state and the ghost values, as one action, one return
and one call each keep it. -/
structure Rule (system : System Thread Act Reply) (protocol : Protocol Act Reply Ghost)
    (final : Ghost → Prop) (inv : system.State → (Thread → List Ghost) → Prop) : Prop where
  act : ∀ {state ghosts thread ghost rest action choice reply state'},
    inv state ghosts → ghosts thread = ghost :: rest → protocol.pre ghost action →
    system.perform thread action choice state = some (reply, state') →
    inv state' (Function.update ghosts thread (protocol.next ghost action reply :: rest))
  ret : ∀ {state ghosts thread ghost rest}, inv state ghosts →
    ghosts thread = ghost :: rest → final ghost →
    inv state (Function.update ghosts thread rest)
  call : ∀ {state ghosts thread call prog state'}, inv state ghosts →
    Ready system protocol (ghosts thread) →
    system.call thread call state = some (prog, state') →
    ∃ ghost, protocol.Keeps (fun _ ghost => final ghost) ghost prog ∧
      inv state' (Function.update ghosts thread (ghost :: ghosts thread))

/-- The programs of all threads keep to the protocol. -/
def Tracks (protocol : Protocol Act Reply Ghost) (final : Ghost → Prop)
    (config : system.Config) (ghosts : Thread → List Ghost) : Prop :=
  ∀ thread, List.Forall₂
    (fun prog ghost => protocol.Keeps (fun _ ghost => final ghost) ghost prog)
    (config.frames thread) (ghosts thread)

variable {protocol : Protocol Act Reply Ghost} {final : Ghost → Prop}
variable {inv : system.State → (Thread → List Ghost) → Prop}

theorem Tracks.setStack {config : system.Config} {ghosts : Thread → List Ghost}
    (h : Tracks protocol final config ghosts) {thread : Thread} {state : system.State}
    {stack : List (Prog Act Reply Unit)} {values : List Ghost}
    (hstack : List.Forall₂
      (fun prog ghost => protocol.Keeps (fun _ ghost => final ghost) ghost prog) stack values) :
    Tracks protocol final (config.setStack thread state stack)
      (Function.update ghosts thread values) := by
  intro other
  rcases eq_or_ne other thread with rfl | hne
  · simpa [Config.setStack] using hstack
  · simpa [Config.setStack, hne] using h other

/-- The rule for runs whose calls are `allowed`. -/
structure RuleWhen (system : System Thread Act Reply) (protocol : Protocol Act Reply Ghost)
    (final : Ghost → Prop) (allowed : Thread → system.Call → system.State → Prop)
    (inv : system.State → (Thread → List Ghost) → Prop) : Prop where
  act : ∀ {state ghosts thread ghost rest action choice reply state'},
    inv state ghosts → ghosts thread = ghost :: rest → protocol.pre ghost action →
    system.perform thread action choice state = some (reply, state') →
    inv state' (Function.update ghosts thread (protocol.next ghost action reply :: rest))
  ret : ∀ {state ghosts thread ghost rest}, inv state ghosts →
    ghosts thread = ghost :: rest → final ghost →
    inv state (Function.update ghosts thread rest)
  call : ∀ {state ghosts thread call prog state'}, inv state ghosts →
    Ready system protocol (ghosts thread) → allowed thread call state →
    system.call thread call state = some (prog, state') →
    ∃ ghost, protocol.Keeps (fun _ ghost => final ghost) ghost prog ∧
      inv state' (Function.update ghosts thread (ghost :: ghosts thread))

theorem Rule.when (h : Rule system protocol final inv) :
    RuleWhen system protocol final (fun _ _ _ => True) inv where
  act := h.act
  ret := h.ret
  call := fun hinv hready _ hcall => h.call hinv hready hcall

/-- What is asked of a step. -/
def Allows (allowed : Thread → system.Call → system.State → Prop) (config : system.Config) :
    system.Label → Prop
  | .call thread call => allowed thread call config.state
  | _ => True

/-- All steps of a run are as they should be. -/
def Obeys (allowed : Thread → system.Call → system.State → Prop) :
    List system.Label → system.Config → Prop
  | [], _ => True
  | label :: labels, config => Allows allowed config label ∧
      ∀ next, step config label = some next → Obeys allowed labels next

variable {allowed : Thread → system.Call → system.State → Prop}

theorem RuleWhen.step (h : RuleWhen system protocol final allowed inv)
    {config config' : system.Config} {ghosts : Thread → List Ghost} {label : system.Label}
    (hinv : inv config.state ghosts) (htracks : Tracks protocol final config ghosts)
    (hallows : Allows allowed config label) (hstep : System.step config label = some config') :
    ∃ ghosts', inv config'.state ghosts' ∧ Tracks protocol final config' ghosts' := by
  rcases label with ⟨thread, choice⟩ | thread | ⟨thread, call⟩
  · have hthread := htracks thread
    simp only [System.step] at hstep
    split at hstep
    · rename_i action next rest hstack
      rw [hstack] at hthread
      rcases hghosts : ghosts thread with _ | ⟨ghost, values⟩
      · simp [hghosts] at hthread
      · rw [hghosts, List.forall₂_cons] at hthread
        rcases hthread with ⟨⟨hpre, hnext⟩, hrest⟩
        simp only [Option.bind_eq_bind, Option.bind_eq_some_iff, Option.some.injEq] at hstep
        rcases hstep with ⟨⟨reply, state⟩, hperform, rfl⟩
        exact ⟨_, h.act hinv hghosts hpre hperform,
          htracks.setStack (.cons (hnext reply) hrest)⟩
    · simp at hstep
  · have hthread := htracks thread
    simp only [System.step] at hstep
    split at hstep
    · rename_i rest hstack
      rw [hstack] at hthread
      rcases hghosts : ghosts thread with _ | ⟨ghost, values⟩
      · simp [hghosts] at hthread
      · rw [hghosts, List.forall₂_cons] at hthread
        simp only [Option.some.injEq] at hstep
        subst hstep
        exact ⟨_, h.ret hinv hghosts hthread.1, htracks.setStack hthread.2⟩
    · simp at hstep
  · have hthread := htracks thread
    simp only [System.step] at hstep
    split at hstep
    · rename_i hready
      simp only [Option.bind_eq_bind, Option.bind_eq_some_iff, Option.some.injEq] at hstep
      rcases hstep with ⟨⟨prog, state⟩, hcall, rfl⟩
      have hghosts : Ready system protocol (ghosts thread) := by
        rcases hstack : config.frames thread with _ | ⟨_ | ⟨action, next⟩, rest⟩
        · rw [hstack] at hthread
          exact Or.inl (List.forall₂_nil_left_iff.1 hthread)
        · simp [ready, hstack] at hready
        · rw [hstack] at hthread hready
          rcases hvalues : ghosts thread with _ | ⟨ghost, values⟩
          · simp [hvalues] at hthread
          · rw [hvalues, List.forall₂_cons] at hthread
            exact Or.inr ⟨ghost, values, action, rfl, hready, hthread.1.1⟩
      rcases h.call hinv hghosts hallows hcall with ⟨ghost, hkeeps, hinv'⟩
      exact ⟨_, hinv', htracks.setStack (.cons hkeeps hthread)⟩
    · simp at hstep

/-- The invariant holds after every run. -/
theorem RuleWhen.run (h : RuleWhen system protocol final allowed inv)
    {labels : List system.Label} {start config : system.Config} {ghosts : Thread → List Ghost}
    (hinv : inv start.state ghosts) (htracks : Tracks protocol final start ghosts)
    (hobeys : Obeys allowed labels start) (hrun : run labels start = some config) :
    ∃ ghosts, inv config.state ghosts ∧ Tracks protocol final config ghosts := by
  induction labels generalizing start ghosts with
  | nil =>
      simp only [System.run, List.foldlM_nil, Option.pure_def, Option.some.injEq] at hrun
      subst hrun
      exact ⟨ghosts, hinv, htracks⟩
  | cons label labels ih =>
      simp only [System.run, List.foldlM_cons, Option.bind_eq_bind,
        Option.bind_eq_some_iff] at hrun
      rcases hrun with ⟨next, hstep, hrest⟩
      rcases h.step hinv htracks hobeys.1 hstep with ⟨ghosts', hinv', htracks'⟩
      exact ih hinv' htracks' (hobeys.2 next hstep) hrest

theorem obeys_true (labels : List system.Label) (config : system.Config) :
    Obeys (fun _ _ _ => True) labels config := by
  induction labels generalizing config with
  | nil => exact trivial
  | cons label labels ih =>
      refine ⟨?_, fun next _ => ih next⟩
      cases label <;> exact trivial

/-- A test of the calls of a run. -/
def passes (check : Thread → system.Call → system.State → Bool) (config : system.Config) :
    system.Label → Bool
  | .call thread call => check thread call config.state
  | _ => true

def allPass (check : Thread → system.Call → system.State → Bool) :
    List system.Label → system.Config → Bool
  | [], _ => true
  | label :: labels, config =>
      passes check config label && (step config label).all (allPass check labels)

theorem obeys_of_allPass {check : Thread → system.Call → system.State → Bool}
    (hcheck : ∀ thread call state, check thread call state = true → allowed thread call state)
    {labels : List system.Label} {config : system.Config}
    (h : allPass check labels config = true) : Obeys allowed labels config := by
  induction labels generalizing config with
  | nil => exact trivial
  | cons label labels ih =>
      rw [allPass, Bool.and_eq_true, Option.all_eq_true] at h
      refine ⟨?_, fun next hstep => ih (h.2 next hstep)⟩
      cases label with
      | call thread call => exact hcheck thread call config.state h.1
      | _ => exact trivial

omit [DecidableEq Thread] in
theorem tracks_idle (state : system.State) :
    Tracks protocol final (idle state : system.Config) fun _ => [] :=
  fun _ => .nil

theorem Rule.reaches (h : Rule system protocol final inv) {state : system.State}
    {config : system.Config} (hstart : inv state fun _ => [])
    (hreaches : Reaches (idle state) config) :
    ∃ ghosts, inv config.state ghosts ∧ Tracks protocol final config ghosts := by
  rcases hreaches with ⟨labels, hrun⟩
  exact h.when.run hstart (tracks_idle state) (obeys_true labels _) hrun

/-! ## Invariants on top of each other

The ghost value of a call is given by `enter`. Of an invariant it is said how single
steps keep it, when another one holds before and after the step. -/

section Preserves

variable (system) (protocol) (final)

structure Preserves (enter : Thread → system.Call → system.State → Ghost)
    (allowed : Thread → system.Call → system.State → Prop)
    (base inv : system.State → (Thread → List Ghost) → Prop) : Prop where
  act : ∀ {state ghosts thread ghost rest action choice reply state'},
    base state ghosts → inv state ghosts → ghosts thread = ghost :: rest →
    protocol.pre ghost action →
    system.perform thread action choice state = some (reply, state') →
    base state' (Function.update ghosts thread (protocol.next ghost action reply :: rest)) →
    inv state' (Function.update ghosts thread (protocol.next ghost action reply :: rest))
  ret : ∀ {state ghosts thread ghost rest}, base state ghosts → inv state ghosts →
    ghosts thread = ghost :: rest → final ghost →
    base state (Function.update ghosts thread rest) →
    inv state (Function.update ghosts thread rest)
  call : ∀ {state ghosts thread call prog state'}, base state ghosts → inv state ghosts →
    Ready system protocol (ghosts thread) → allowed thread call state →
    system.call thread call state = some (prog, state') →
    base state' (Function.update ghosts thread (enter thread call state :: ghosts thread)) →
    inv state' (Function.update ghosts thread (enter thread call state :: ghosts thread))

variable {system} {protocol} {final} {enter : Thread → system.Call → system.State → Ghost}
  {base inv : system.State → (Thread → List Ghost) → Prop}

theorem Preserves.and
    (hbase : Preserves system protocol final enter allowed (fun _ _ => True) base)
    (hinv : Preserves system protocol final enter allowed base inv) :
    Preserves system protocol final enter allowed (fun _ _ => True)
      fun state ghosts => base state ghosts ∧ inv state ghosts where
  act := by
    rintro state ghosts thread ghost rest action choice reply state' - ⟨hbefore, hkept⟩ hghosts
      hpre hperform -
    have hafter := hbase.act trivial hbefore hghosts hpre hperform trivial
    exact ⟨hafter, hinv.act hbefore hkept hghosts hpre hperform hafter⟩
  ret := by
    rintro state ghosts thread ghost rest - ⟨hbefore, hkept⟩ hghosts hfinal -
    have hafter := hbase.ret trivial hbefore hghosts hfinal trivial
    exact ⟨hafter, hinv.ret hbefore hkept hghosts hfinal hafter⟩
  call := by
    rintro state ghosts thread call prog state' - ⟨hbefore, hkept⟩ hready hallowed hcall -
    have hafter := hbase.call trivial hbefore hready hallowed hcall trivial
    exact ⟨hafter, hinv.call hbefore hkept hready hallowed hcall hafter⟩

/-- Two invariants on top of one base, the second also on top of the first. -/
theorem Preserves.join {first second : system.State → (Thread → List Ghost) → Prop}
    (hfirst : Preserves system protocol final enter allowed base first)
    (hsecond : Preserves system protocol final enter allowed
      (fun state ghosts => base state ghosts ∧ first state ghosts) second) :
    Preserves system protocol final enter allowed base
      fun state ghosts => first state ghosts ∧ second state ghosts where
  act := by
    rintro state ghosts thread ghost rest action choice reply state' hbase ⟨hbefore, hkept⟩ hghosts
      hpre hperform hbase'
    have hafter := hfirst.act hbase hbefore hghosts hpre hperform hbase'
    exact ⟨hafter,
      hsecond.act ⟨hbase, hbefore⟩ hkept hghosts hpre hperform ⟨hbase', hafter⟩⟩
  ret := by
    rintro state ghosts thread ghost rest hbase ⟨hbefore, hkept⟩ hghosts hfinal hbase'
    have hafter := hfirst.ret hbase hbefore hghosts hfinal hbase'
    exact ⟨hafter, hsecond.ret ⟨hbase, hbefore⟩ hkept hghosts hfinal ⟨hbase', hafter⟩⟩
  call := by
    rintro state ghosts thread call prog state' hbase ⟨hbefore, hkept⟩ hready hallowed hcall hbase'
    have hafter := hfirst.call hbase hbefore hready hallowed hcall hbase'
    exact ⟨hafter,
      hsecond.call ⟨hbase, hbefore⟩ hkept hready hallowed hcall ⟨hbase', hafter⟩⟩

theorem Preserves.over {more : system.State → (Thread → List Ghost) → Prop}
    (h : Preserves system protocol final enter allowed base inv)
    (himp : ∀ {state ghosts}, more state ghosts → base state ghosts) :
    Preserves system protocol final enter allowed more inv where
  act := fun hmore hinv hghosts hpre hperform hmore' =>
    h.act (himp hmore) hinv hghosts hpre hperform (himp hmore')
  ret := fun hmore hinv hghosts hfinal hmore' =>
    h.ret (himp hmore) hinv hghosts hfinal (himp hmore')
  call := fun hmore hinv hready hallowed hcall hmore' =>
    h.call (himp hmore) hinv hready hallowed hcall (himp hmore')

theorem Preserves.when
    (h : Preserves system protocol final enter (fun _ _ _ => True) base inv) :
    Preserves system protocol final enter allowed base inv where
  act := h.act
  ret := h.ret
  call := fun hbase hinv hready _ hcall => h.call hbase hinv hready trivial hcall

theorem Preserves.rule
    (h : Preserves system protocol final enter allowed (fun _ _ => True) inv)
    (hkeeps : ∀ {thread call state prog state'}, system.call thread call state =
      some (prog, state') →
      protocol.Keeps (fun _ ghost => final ghost) (enter thread call state) prog) :
    RuleWhen system protocol final allowed inv where
  act := fun hinv hghosts hpre hperform => h.act trivial hinv hghosts hpre hperform trivial
  ret := fun hinv hghosts hfinal => h.ret trivial hinv hghosts hfinal trivial
  call := fun hinv hready hallowed hcall =>
    ⟨_, hkeeps hcall, h.call trivial hinv hready hallowed hcall trivial⟩

end Preserves

/-- For a system without user code, where a thread runs one program at a time: every
thread has one ghost value, which is `rest` while it is idle. -/
structure SoloRule (system : System Thread Act Reply) (protocol : Protocol Act Reply Ghost)
    (rest : Ghost) (final : Ghost → Prop) (inv : system.State → (Thread → Ghost) → Prop) :
    Prop where
  user : ∀ action, system.user action = false
  act : ∀ {state ghosts thread action choice reply state'}, inv state ghosts →
    protocol.pre (ghosts thread) action →
    system.perform thread action choice state = some (reply, state') →
    inv state' (Function.update ghosts thread (protocol.next (ghosts thread) action reply))
  ret : ∀ {state ghosts thread}, inv state ghosts → final (ghosts thread) →
    inv state (Function.update ghosts thread rest)
  call : ∀ {state ghosts thread call prog state'}, inv state ghosts → ghosts thread = rest →
    system.call thread call state = some (prog, state') →
    ∃ ghost, protocol.Keeps (fun _ ghost => final ghost) ghost prog ∧
      inv state' (Function.update ghosts thread ghost)

/-- The frames of ghost values that belong to one ghost value for each thread. -/
def Solo (rest : Ghost) (frames : Thread → List Ghost) (ghosts : Thread → Ghost) : Prop :=
  ∀ thread, frames thread = [] ∧ ghosts thread = rest ∨ frames thread = [ghosts thread]

omit [DecidableEq Thread] in
theorem Solo.eq_of_cons {rest ghost : Ghost} {values : List Ghost}
    {frames : Thread → List Ghost} {ghosts : Thread → Ghost} (h : Solo rest frames ghosts)
    {thread : Thread} (hthread : frames thread = ghost :: values) :
    ghosts thread = ghost ∧ values = [] := by
  rcases h thread with ⟨hnil, -⟩ | hone
  · simp [hthread] at hnil
  · rw [hthread, List.cons.injEq] at hone
    exact ⟨hone.1.symm, hone.2⟩

theorem Solo.update {rest : Ghost} {frames : Thread → List Ghost} {ghosts : Thread → Ghost}
    (h : Solo rest frames ghosts) {thread : Thread} {values : List Ghost} {ghost : Ghost}
    (hvalues : values = [] ∧ ghost = rest ∨ values = [ghost]) :
    Solo rest (Function.update frames thread values) (Function.update ghosts thread ghost) := by
  intro other
  rcases eq_or_ne other thread with rfl | hne
  · simpa using hvalues
  · simpa [hne] using h other

theorem SoloRule.rule {rest : Ghost} {inv : system.State → (Thread → Ghost) → Prop}
    (h : SoloRule system protocol rest final inv) :
    Rule system protocol final
      fun state frames => ∃ ghosts, inv state ghosts ∧ Solo rest frames ghosts where
  act := by
    rintro state frames thread ghost values action choice reply state' ⟨ghosts, hinv, hsolo⟩
      hthread hpre hperform
    rcases hsolo.eq_of_cons hthread with ⟨rfl, rfl⟩
    exact ⟨_, h.act hinv hpre hperform, hsolo.update (Or.inr rfl)⟩
  ret := by
    rintro state frames thread ghost values ⟨ghosts, hinv, hsolo⟩ hthread hfinal
    rcases hsolo.eq_of_cons hthread with ⟨rfl, rfl⟩
    exact ⟨_, h.ret hinv hfinal, hsolo.update (Or.inl ⟨rfl, rfl⟩)⟩
  call := by
    rintro state frames thread call prog state' ⟨ghosts, hinv, hsolo⟩ hready hcall
    have hstack : frames thread = [] := by
      rcases hready with hnil | ⟨ghost, values, action, -, huser, -⟩
      · exact hnil
      · simp [h.user action] at huser
    have hrest : ghosts thread = rest := by
      rcases hsolo thread with ⟨-, hrest⟩ | hone
      · exact hrest
      · simp [hstack] at hone
    rcases h.call hinv hrest hcall with ⟨ghost, hkeeps, hinv'⟩
    refine ⟨ghost, hkeeps, _, hinv', hsolo.update (Or.inr ?_)⟩
    rw [hstack]

theorem SoloRule.reaches {rest : Ghost} {inv : system.State → (Thread → Ghost) → Prop}
    (h : SoloRule system protocol rest final inv) {state : system.State}
    {config : system.Config} (hstart : inv state fun _ => rest)
    (hreaches : Reaches (idle state) config) :
    ∃ ghosts, inv config.state ghosts ∧
      ∀ thread, config.frames thread = [] → ghosts thread = rest := by
  have hidle : Solo rest (fun _ : Thread => []) fun _ => rest := fun _ => Or.inl ⟨rfl, rfl⟩
  rcases h.rule.reaches ⟨_, hstart, hidle⟩ hreaches with ⟨frames, ⟨ghosts, hinv, hsolo⟩, htracks⟩
  refine ⟨ghosts, hinv, ?_⟩
  intro thread hstack
  have hnil : frames thread = [] := by
    have hthread := htracks thread
    rw [hstack] at hthread
    exact List.forall₂_nil_left_iff.1 hthread
  rcases hsolo thread with ⟨-, hrest⟩ | hone
  · exact hrest
  · simp [hnil] at hone

end System

end TracingPerfetto.Threads
