import Mathlib.Algebra.BigOperators.Group.Finset.Basic
import Mathlib.Algebra.BigOperators.Fin
import Mathlib.Algebra.BigOperators.Finprod
import Mathlib.Algebra.Order.BigOperators.Group.Finset
import Mathlib.Data.Fintype.BigOperators
import Mathlib.Tactic.Abel
import Mathlib.Tactic.Ring

/-!
# Tallies over the threads of a system

Each thread contributes a value, and a step changes the contribution of one thread. The lemmas here
say what that does to the sum.
-/

namespace Transition

variable {T M : Type*} [Fintype T]

/-- The sum of every thread's contribution. -/
def tally [AddCommMonoid M] (f : T → M) : M := ∑ t, f t

/-- Replacing the contribution of `t` by `x`. -/
theorem tally_update [DecidableEq T] [AddCommMonoid M] (f : T → M) (t : T) (x : M) :
    tally (Function.update f t x) + f t = tally f + x := by
  unfold tally
  rw [Finset.sum_update_of_mem (Finset.mem_univ t), ← Finset.add_sum_erase _ _ (Finset.mem_univ t),
    Finset.sdiff_singleton_eq_erase, add_assoc, add_comm x, add_comm (f t)]

theorem tally_congr [AddCommMonoid M] {f g : T → M} (h : ∀ t, f t = g t) : tally f = tally g :=
  Finset.sum_congr rfl fun t _ => h t

/-- The same for contributions that are read off a state of each thread. -/
theorem tally_apply_update {C : Type*} [DecidableEq T] [AddCommMonoid M] (f : C → M) (g : T → C) (t : T)
    (x : C) : tally (fun u => f (Function.update g t x u)) + f (g t) = tally (fun u => f (g u)) + f x := by
  rw [← tally_update (fun u => f (g u)) t (f x)]
  congr 1
  refine tally_congr fun u => ?_
  by_cases hu : u = t
  · subst hu
    simp
  · simp [hu]

theorem le_tally (f : T → ℕ) (t : T) : f t ≤ tally f :=
  Finset.single_le_sum (fun _ _ => Nat.zero_le _) (Finset.mem_univ t)

/-- Two different threads contribute no more than everybody together. -/
theorem add_le_tally [DecidableEq T] (f : T → ℕ) {t u : T} (h : t ≠ u) : f t + f u ≤ tally f := by
  rw [← Finset.sum_pair h]
  exact Finset.sum_le_sum_of_subset (Finset.subset_univ _)

theorem tally_eq_zero (f : T → ℕ) : tally f = 0 ↔ ∀ t, f t = 0 := by
  simp [tally]

theorem tally_zero [AddCommMonoid M] : tally (fun _ : T => (0 : M)) = 0 :=
  Finset.sum_const_zero

theorem tally_pos {f : T → ℕ} (h : 0 < tally f) : ∃ t, 0 < f t := by
  by_contra hn
  push Not at hn
  have : tally f = 0 := (tally_eq_zero f).2 fun t => Nat.le_zero.1 (hn t)
  omega

/-! ## Places instead of threads

There may be infinitely many of them, if all but finitely many contribute nothing. -/

section Places

variable {ι : Type*} [AddCommMonoid M] {f g : ι → M}

omit [Fintype T]

/-- A place changes its contribution. -/
theorem finsum_change (hf : (Function.support f).Finite) (a : ι) (h : ∀ b, b ≠ a → g b = f b) :
    finsum g + f a = finsum f + g a := by
  classical
  have hsub : Function.support f ⊆ (insert a hf.toFinset : Finset ι) := by
    intro b hb
    rw [Finset.mem_coe, Finset.mem_insert, Set.Finite.mem_toFinset]
    exact Or.inr hb
  have hsub' : Function.support g ⊆ (insert a hf.toFinset : Finset ι) := by
    intro b hb
    rw [Finset.mem_coe, Finset.mem_insert, Set.Finite.mem_toFinset]
    by_cases hba : b = a
    · exact Or.inl hba
    · rw [Function.mem_support, h b hba] at hb
      exact Or.inr hb
  have hmem := Finset.mem_insert_self a hf.toFinset
  rw [finsum_eq_sum_of_support_subset f hsub, finsum_eq_sum_of_support_subset g hsub',
    ← Finset.add_sum_erase _ f hmem, ← Finset.add_sum_erase _ g hmem,
    Finset.sum_congr rfl fun b hb => h b (Finset.ne_of_mem_erase hb)]
  abel

/-- The sum over a list of places, if no other place contributes. -/
theorem finsum_list {places : List ι} (hnodup : places.Nodup) (h : ∀ a, a ∉ places → f a = 0) :
    finsum f = (places.map f).sum := by
  classical
  have hsub : Function.support f ⊆ (places.toFinset : Set ι) := by
    intro a ha
    rw [Finset.mem_coe, List.mem_toFinset]
    by_contra hn
    exact ha (h a hn)
  rw [finsum_eq_sum_of_support_subset f hsub, List.sum_toFinset f hnodup]

end Places

end Transition
