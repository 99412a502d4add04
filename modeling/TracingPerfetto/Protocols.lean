import TracingPerfetto.Threads

/-!
More about programs and their protocols: which actions a program may perform at all, and
two protocols at once. A second one follows the programs beside the first, for what the
first does not say; the invariants of the first hold of its part of the ghost values.
-/

namespace TracingPerfetto.Threads

namespace Prog

variable {Act : Type} {Reply : Act → Type} {α β : Type} {P Q : Act → Prop}

/-- All actions that the program may perform. -/
def All (P : Act → Prop) : Prog Act Reply α → Prop
  | .done _ => True
  | .act action next => P action ∧ ∀ reply, All P (next reply)

theorem all_pure (value : α) : All P (pure value : Prog Act Reply α) := trivial

theorem All.mono {prog : Prog Act Reply α} (h : All P prog)
    (himp : ∀ action, P action → Q action) : All Q prog := by
  induction prog with
  | done value => trivial
  | act action next ih => exact ⟨himp action h.1, fun reply => ih reply (h.2 reply)⟩

theorem All.bind {prog : Prog Act Reply α} {rest : α → Prog Act Reply β} (h : All P prog)
    (hrest : ∀ value, All P (rest value)) : All P (prog >>= rest) := by
  induction prog with
  | done value => exact hrest value
  | act action next ih => exact ⟨h.1, fun reply => ih reply (h.2 reply)⟩

theorem all_perform {action : Act} (h : P action) :
    All P (perform action : Prog Act Reply (Reply action)) :=
  ⟨h, fun _ => trivial⟩

theorem all_then {action : Act} {rest : Reply action → Prog Act Reply β} (h : P action)
    (hrest : ∀ reply, All P (rest reply)) : All P (perform action >>= rest) :=
  ⟨h, hrest⟩

/-- Actions that are allowed whatever was before. -/
theorem All.keeps {Ghost : Type} {protocol : Protocol Act Reply Ghost}
    {prog : Prog Act Reply α} (h : All P prog)
    (hpre : ∀ ghost action, P action → protocol.pre ghost action) (ghost : Ghost) :
    protocol.Keeps (fun _ _ => True) ghost prog := by
  induction prog generalizing ghost with
  | done value => trivial
  | act action next ih => exact ⟨hpre ghost action h.1, fun reply => ih reply (h.2 reply) _⟩

end Prog

namespace Protocol

variable {Act : Type} {Reply : Act → Type} {Ghost Extra α : Type}

def both (first : Protocol Act Reply Ghost) (second : Protocol Act Reply Extra) :
    Protocol Act Reply (Ghost × Extra) where
  pre ghost action := first.pre ghost.1 action ∧ second.pre ghost.2 action
  next ghost action reply := (first.next ghost.1 action reply, second.next ghost.2 action reply)

variable {first : Protocol Act Reply Ghost} {second : Protocol Act Reply Extra}

theorem Keeps.both {post : α → Ghost → Prop} {post' : α → Extra → Prop} {ghost : Ghost}
    {extra : Extra} {prog : Prog Act Reply α} (hfirst : first.Keeps post ghost prog)
    (hsecond : second.Keeps post' extra prog) :
    (first.both second).Keeps (fun value ghosts => post value ghosts.1 ∧ post' value ghosts.2)
      (ghost, extra) prog := by
  induction prog generalizing ghost extra with
  | done value => exact ⟨hfirst, hsecond⟩
  | act action next ih =>
      exact ⟨⟨hfirst.1, hsecond.1⟩, fun reply => ih reply (hfirst.2 reply) (hsecond.2 reply)⟩

end Protocol

/-- The ghost values of the first of two protocols. -/
def firsts {Thread Ghost Extra : Type} (ghosts : Thread → List (Ghost × Extra)) :
    Thread → List Ghost :=
  fun thread => (ghosts thread).map Prod.fst

theorem firsts_update {Thread Ghost Extra : Type} [DecidableEq Thread]
    (ghosts : Thread → List (Ghost × Extra)) (thread : Thread) (values : List (Ghost × Extra)) :
    firsts (Function.update ghosts thread values) =
      Function.update (firsts ghosts) thread (values.map Prod.fst) := by
  funext other
  by_cases hother : other = thread
  · subst hother
    simp [firsts]
  · simp [firsts, hother]

theorem firsts_cons {Thread Ghost Extra : Type} {ghosts : Thread → List (Ghost × Extra)}
    {thread : Thread} {ghost : Ghost × Extra} {rest : List (Ghost × Extra)}
    (h : ghosts thread = ghost :: rest) : firsts ghosts thread = ghost.1 :: rest.map Prod.fst := by
  rw [firsts, h, List.map_cons]

namespace System

variable {Thread Act : Type} {Reply : Act → Type} [DecidableEq Thread]
variable {system : System Thread Act Reply} {Ghost Extra : Type}
variable {first : Protocol Act Reply Ghost} {second : Protocol Act Reply Extra}
variable {final : Ghost → Prop} {enter : Thread → system.Call → system.State → Ghost}
variable {allowed : Thread → system.Call → system.State → Prop}
variable {base inv : system.State → (Thread → List Ghost) → Prop}

/-- What steps keep of the first protocol they keep of both. -/
theorem Preserves.firsts (h : Preserves system first final enter allowed base inv)
    (start : system.Call → Extra) :
    Preserves system (first.both second) (fun ghost => final ghost.1)
      (fun thread call state => (enter thread call state, start call)) allowed
      (fun state ghosts => base state (Threads.firsts ghosts))
      (fun state ghosts => inv state (Threads.firsts ghosts)) where
  act := by
    intro state ghosts thread ghost rest action choice reply state' hbase hinv hghosts hpre
      hperform hbase'
    rw [firsts_update] at hbase' ⊢
    exact h.act hbase hinv (firsts_cons hghosts) hpre.1 hperform hbase'
  ret := by
    intro state ghosts thread ghost rest hbase hinv hghosts hfinal hbase'
    rw [firsts_update] at hbase' ⊢
    exact h.ret hbase hinv (firsts_cons hghosts) hfinal hbase'
  call := by
    intro state ghosts thread call prog state' hbase hinv hready hallowed hcall hbase'
    have hfirst : Ready system first (Threads.firsts ghosts thread) := by
      rcases hready with hnil | ⟨ghost, rest, action, hghosts, huser, hpre⟩
      · exact .inl (by rw [Threads.firsts, hnil, List.map_nil])
      · exact .inr ⟨ghost.1, _, action, firsts_cons hghosts, huser, hpre.1⟩
    rw [firsts_update] at hbase' ⊢
    exact h.call hbase hinv hfirst hallowed hcall hbase'

end System

end TracingPerfetto.Threads
