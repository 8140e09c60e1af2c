import Mathlib.Algebra.BigOperators.Intervals
import Mathlib.Data.Set.Finite.Basic
import ReadWriteStore.Transition.Tally

/-!
# Potentials along a run

A potential that falls with every step of one kind, and that steps of other kinds raise by what they
cost, bounds the number of steps of the first kind by the costs of the others. A value that is not the same
at two moments has changed at a step between them. Where several threads have a budget each, a step of one
may raise the budgets of the others, as long as that thread pays for all of them.
-/

namespace Transition

open Finset

variable {i j : ℕ}

/-- The work done is paid for by the potential at the beginning and by the costs. -/
theorem sum_work_le (potential work cost : ℕ → ℕ) (hij : i ≤ j)
    (hstep : ∀ k, i ≤ k → k < j → potential (k + 1) + work k ≤ potential k + cost k) :
    potential j + ∑ k ∈ Ico i j, work k ≤ potential i + ∑ k ∈ Ico i j, cost k := by
  induction j, hij using Nat.le_induction with
  | base => simp
  | succ j hij ih =>
    have hbefore := ih fun k hik hkj => hstep k hik (by omega)
    have hlast := hstep j hij (by omega)
    rw [sum_Ico_succ_top hij, sum_Ico_succ_top hij]
    omega

theorem exists_succ_ne {α : Type*} (value : ℕ → α) (hij : i ≤ j) (hne : value j ≠ value i) :
    ∃ k, i ≤ k ∧ k < j ∧ value (k + 1) ≠ value k := by
  induction j, hij using Nat.le_induction with
  | base => exact absurd rfl hne
  | succ j hij ih =>
    by_cases hlast : value (j + 1) = value j
    · rw [hlast] at hne
      obtain ⟨k, hik, hkj, hk⟩ := ih hne
      exact ⟨k, hik, by omega, hk⟩
    · exact ⟨j, hij, by omega, hlast⟩

section Budget

variable {T : Type*} [Fintype T] [DecidableEq T] {f f' : T → ℕ} {t : T} {raise cost : ℕ}

theorem tally_step (hown : f' t + 1 + Fintype.card T * raise ≤ f t + cost)
    (hothers : ∀ u, u ≠ t → f' u ≤ f u + raise) : tally f' + 1 ≤ tally f + cost := by
  have hrest : ∑ u ∈ univ.erase t, f' u ≤ ∑ u ∈ univ.erase t, f u + Fintype.card T * raise := by
    calc ∑ u ∈ univ.erase t, f' u ≤ ∑ u ∈ univ.erase t, (f u + raise) :=
          sum_le_sum fun u hu => hothers u (ne_of_mem_erase hu)
      _ = ∑ u ∈ univ.erase t, f u + (univ.erase t).card * raise := by
          rw [sum_add_distrib, sum_const, smul_eq_mul]
      _ ≤ ∑ u ∈ univ.erase t, f u + Fintype.card T * raise :=
          Nat.add_le_add_left (Nat.mul_le_mul_right _ (card_le_univ _)) _
  unfold tally
  rw [← add_sum_erase _ f' (mem_univ t), ← add_sum_erase _ f (mem_univ t)]
  omega

end Budget

end Transition
