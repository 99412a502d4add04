import Mathlib.Data.List.Nodup
import Mathlib.Order.Basic

/-!
Tokens that are handed around: each is in one hand at most, and only once there. A step may
drop tokens, mint one that nobody has, or move tokens from one hand to another.
-/

namespace TracingPerfetto.Ownership

variable {Holder Token : Type*} [DecidableEq Token]

/-- No token is in two hands, or twice in one. -/
structure Exclusive (holding : Holder → List Token) : Prop where
  nodup : ∀ holder, (holding holder).Nodup
  alone : ∀ holder other token, token ∈ holding holder → token ∈ holding other → holder = other

namespace Exclusive

variable {holding holding' : Holder → List Token}

theorem count_le (h : Exclusive holding) (holder : Holder) (token : Token) :
    (holding holder).count token ≤ 1 :=
  List.nodup_iff_count_le_one.1 (h.nodup holder) token

omit [DecidableEq Token] in
theorem empty (hnone : ∀ holder, holding holder = []) : Exclusive holding where
  nodup := fun holder => by
    rw [hnone]
    exact List.nodup_nil
  alone := fun holder _ token hmem => by
    rw [hnone] at hmem
    cases hmem

theorem count_pair (h : Exclusive holding) {holder other : Holder} (hne : holder ≠ other)
    (token : Token) : (holding holder).count token + (holding other).count token ≤ 1 := by
  have hholder := h.count_le holder token
  have hother := h.count_le other token
  by_cases hmem : token ∈ holding holder
  · have hnot : token ∉ holding other := fun hmem' => hne (h.alone holder other token hmem hmem')
    rw [List.count_eq_zero_of_not_mem hnot]
    omega
  · rw [List.count_eq_zero_of_not_mem hmem]
    omega

theorem transfer (h : Exclusive holding) {source target : Holder} (hne : source ≠ target)
    (hothers : ∀ other, other ≠ source → other ≠ target → holding' other = holding other)
    (hcount : ∀ token, (holding' source).count token + (holding' target).count token ≤
      (holding source).count token + (holding target).count token) : Exclusive holding' := by
  have hpair : ∀ token, (holding' source).count token + (holding' target).count token ≤ 1 :=
    fun token => Nat.le_trans (hcount token) (h.count_pair hne token)
  -- a token of the two was with one of them, and so with nobody else
  have hold : ∀ token, token ∈ holding' source ∨ token ∈ holding' target →
      ∀ other, other ≠ source → other ≠ target → token ∉ holding' other := by
    intro token hmem other hsource htarget hother
    rw [hothers other hsource htarget] at hother
    have hpositive : 0 < (holding source).count token + (holding target).count token := by
      have := hcount token
      rcases hmem with hmem | hmem
      · have := List.count_pos_iff.2 hmem
        omega
      · have := List.count_pos_iff.2 hmem
        omega
    by_cases hbefore : token ∈ holding source
    · exact hsource (h.alone other source token hother hbefore)
    · rw [List.count_eq_zero_of_not_mem hbefore, Nat.zero_add, List.count_pos_iff] at hpositive
      exact htarget (h.alone other target token hother hpositive)
  constructor
  · intro holder
    by_cases hsource : holder = source
    · subst hsource
      refine List.nodup_iff_count_le_one.2 fun token => ?_
      have := hpair token
      omega
    · by_cases htarget : holder = target
      · subst htarget
        refine List.nodup_iff_count_le_one.2 fun token => ?_
        have := hpair token
        omega
      · rw [hothers holder hsource htarget]
        exact h.nodup holder
  · intro holder other token hholder hother
    by_contra hdistinct
    have hboth : ∀ first second, first ≠ second → token ∈ holding' first →
        token ∈ holding' second → first ≠ source ∧ first ≠ target := by
      intro first second hneq hfirst hsecond
      constructor
      · rintro rfl
        by_cases htarget : second = target
        · subst htarget
          have := hpair token
          have := List.count_pos_iff.2 hfirst
          have := List.count_pos_iff.2 hsecond
          omega
        · exact hold token (.inl hfirst) second hneq.symm htarget hsecond
      · rintro rfl
        by_cases hsource : second = source
        · subst hsource
          have := hpair token
          have := List.count_pos_iff.2 hfirst
          have := List.count_pos_iff.2 hsecond
          omega
        · exact hold token (.inr hfirst) second hsource hneq.symm hsecond
    obtain ⟨hsource, htarget⟩ := hboth holder other hdistinct hholder hother
    obtain ⟨hsource', htarget'⟩ := hboth other holder (Ne.symm hdistinct) hother hholder
    rw [hothers holder hsource htarget] at hholder
    rw [hothers other hsource' htarget'] at hother
    exact hdistinct (h.alone holder other token hholder hother)

/-- Tokens are dropped. -/
theorem drop (h : Exclusive holding)
    (hcount : ∀ holder token, (holding' holder).count token ≤ (holding holder).count token) :
    Exclusive holding' where
  nodup := fun holder => List.nodup_iff_count_le_one.2 fun token =>
    Nat.le_trans (hcount holder token) (h.count_le holder token)
  alone := fun holder other token hholder hother => h.alone holder other token
    (List.count_pos_iff.1 (Nat.lt_of_lt_of_le (List.count_pos_iff.2 hholder) (hcount holder token)))
    (List.count_pos_iff.1 (Nat.lt_of_lt_of_le (List.count_pos_iff.2 hother) (hcount other token)))

theorem mint (h : Exclusive holding) {holder : Holder} {fresh : Token}
    (hfresh : ∀ other, fresh ∉ holding other)
    (hothers : ∀ other, other ≠ holder → holding' other = holding other)
    (hcount : ∀ token, (holding' holder).count token ≤
      (holding holder).count token + if token = fresh then 1 else 0) : Exclusive holding' := by
  have hlast : ∀ token, token ∈ holding' holder → token ≠ fresh → token ∈ holding holder := by
    intro token hmem hne
    have hle := hcount token
    rw [if_neg hne] at hle
    exact List.count_pos_iff.1 (Nat.lt_of_lt_of_le (List.count_pos_iff.2 hmem) hle)
  have hapart : ∀ other token, other ≠ holder → token ∈ holding' holder →
      token ∉ holding' other := by
    intro other token hother hmem hmem'
    rw [hothers other hother] at hmem'
    have hne : token ≠ fresh := by
      rintro rfl
      exact hfresh other hmem'
    exact hother (h.alone other holder token hmem' (hlast token hmem hne))
  constructor
  · intro other
    by_cases hother : other = holder
    · subst hother
      refine List.nodup_iff_count_le_one.2 fun token => ?_
      have hle := hcount token
      by_cases htoken : token = fresh
      · subst htoken
        rwa [List.count_eq_zero_of_not_mem (hfresh other), if_pos rfl] at hle
      · rw [if_neg htoken] at hle
        exact Nat.le_trans hle (h.count_le other token)
    · rw [hothers other hother]
      exact h.nodup other
  · intro first second token hfirst hsecond
    by_contra hdistinct
    by_cases hholder : first = holder
    · subst hholder
      exact hapart second token (Ne.symm hdistinct) hfirst hsecond
    · by_cases hholder' : second = holder
      · subst hholder'
        exact hapart first token hholder hsecond hfirst
      · rw [hothers first hholder] at hfirst
        rw [hothers second hholder'] at hsecond
        exact hdistinct (h.alone first second token hfirst hsecond)

omit [DecidableEq Token] in
/-- The tokens under other names, when no two of them get the same. -/
theorem map {Name : Type*} {name : Token → Name} (h : Exclusive holding)
    (hinjective : ∀ holder other, ∀ token ∈ holding holder, ∀ token' ∈ holding other,
      name token = name token' → token = token') :
    Exclusive fun holder => (holding holder).map name where
  nodup := fun holder => (List.nodup_map_iff_inj_on (h.nodup holder)).2
    fun token hmem token' hmem' heq => hinjective holder holder token hmem token' hmem' heq
  alone := by
    intro holder other value hholder hother
    obtain ⟨token, hmem, rfl⟩ := List.mem_map.1 hholder
    obtain ⟨token', hmem', heq⟩ := List.mem_map.1 hother
    have hsame := hinjective other holder token' hmem' token hmem heq
    subst hsame
    exact h.alone holder other token' hmem hmem'

end Exclusive

theorem count_flatMap_update {Place : Type*} [DecidableEq Place] {places : List Place}
    {place : Place} (hnodup : places.Nodup) (hmem : place ∈ places) (content : Place → List Token)
    (tokens : List Token) (token : Token) :
    (places.flatMap (Function.update content place tokens)).count token +
        (content place).count token =
      (places.flatMap content).count token + tokens.count token := by
  induction places with
  | nil => cases hmem
  | cons first rest ih =>
      rw [List.nodup_cons] at hnodup
      rw [List.flatMap_cons, List.flatMap_cons, List.count_append, List.count_append]
      by_cases hfirst : first = place
      · subst hfirst
        have hrest : rest.flatMap (Function.update content first tokens) =
            rest.flatMap content := by
          refine List.flatMap_congr fun other hother => ?_
          rw [Function.update_of_ne]
          rintro rfl
          exact hnodup.1 hother
        rw [Function.update_self, hrest]
        omega
      · have hplace : place ∈ rest := (List.mem_cons.1 hmem).resolve_left (Ne.symm hfirst)
        have hrest := ih hnodup.2 hplace
        rw [Function.update_of_ne hfirst]
        omega

end TracingPerfetto.Ownership
