import Mathlib.Data.List.Basic

/-!
Lists that only grow at their end, and what each item of one says of those before it.
-/

namespace TracingPerfetto.History

variable {α : Type*}

/-- Each item is as it should be after those before it. -/
def Holds (P : List α → α → Prop) (items : List α) : Prop :=
  ∀ before item after, items = before ++ item :: after → P before item

variable {P : List α → α → Prop} {items : List α}

theorem holds_nil : Holds P [] := fun before item after h => by
  simp at h

/-- A split of a longer list is one of the list before, or takes the last item. -/
theorem split_concat {last item : α} {before after : List α}
    (h : items ++ [last] = before ++ item :: after) :
    before = items ∧ item = last ∨ ∃ middle, items = before ++ item :: middle := by
  rcases List.eq_nil_or_concat after with rfl | ⟨middle, tail, rfl⟩
  · obtain ⟨hbefore, hitem⟩ := List.append_inj' h rfl
    exact .inl ⟨hbefore.symm, (List.singleton_inj.1 hitem).symm⟩
  · rw [List.concat_eq_append, ← List.cons_append, ← List.append_assoc] at h
    exact .inr ⟨middle, (List.append_inj' h rfl).1⟩

theorem Holds.concat (h : Holds P items) {last : α} (hlast : P items last) :
    Holds P (items ++ [last]) := by
  intro before item after hsplit
  rcases split_concat hsplit with ⟨rfl, rfl⟩ | ⟨middle, hmiddle⟩
  · exact hlast
  · exact h before item middle hmiddle

theorem Holds.mono {Q : List α → α → Prop} (h : Holds P items)
    (hpq : ∀ before item, P before item → Q before item) : Holds Q items :=
  fun before item after hsplit => hpq before item (h before item after hsplit)

theorem Holds.of_append {later : List α} (h : Holds P (items ++ later)) : Holds P items := by
  intro before item after hsplit
  exact h before item (after ++ later) (by rw [hsplit, List.append_assoc, List.cons_append])

/-- What follows for an item from the ones before it holds of all. -/
theorem Holds.induct {Q : α → Prop} (h : Holds P items)
    (hstep : ∀ before item, P before item → (∀ earlier ∈ before, Q earlier) → Q item) :
    ∀ item ∈ items, Q item := by
  have hall : ∀ length before item after, items = before ++ item :: after →
      before.length = length → Q item := by
    intro length
    induction length using Nat.strongRecOn with
    | _ length ih =>
        rintro before item after hsplit rfl
        refine hstep before item (h before item after hsplit) fun earlier hearlier => ?_
        obtain ⟨first, second, rfl⟩ := List.append_of_mem hearlier
        refine ih first.length ?_ first earlier (second ++ item :: after) ?_ rfl
        · rw [List.length_append, List.length_cons]
          exact Nat.lt_add_of_pos_right (Nat.succ_pos _)
        · rw [hsplit, List.append_assoc, List.cons_append]
  intro item hmem
  obtain ⟨before, after, hsplit⟩ := List.append_of_mem hmem
  exact hall before.length before item after hsplit rfl

end TracingPerfetto.History
