import Mathlib.Dynamics.PeriodicPts.Defs
import Mathlib.Data.Int.CardIntervalMod
import Mathlib.Data.Fintype.EquivFin

/-!
# Maps with one cycle

A map that goes through every element of a finite type before it returns visits all of them equally
often, up to one visit.
-/

namespace Transition

open Function

variable {α : Type*} {f : α → α} {x : α}

theorem cons_map_iterate (f : α → α) (x : α) (n : ℕ) :
    x :: (List.range n).map (f^[·] (f x)) = (List.range (n + 1)).map (f^[·] x) := by
  rw [List.range_succ_eq_map, List.map_cons, List.map_map]
  rfl

/-- Two iterates are the same if they are a multiple of the period apart. -/
theorem iterate_eq_iff_modEq (hpos : 0 < minimalPeriod f x) (i j : ℕ) :
    f^[i] x = f^[j] x ↔ i ≡ j [MOD minimalPeriod f x] := by
  have hi : f^[i % minimalPeriod f x] x = f^[i] x := iterate_mod_minimalPeriod_eq
  have hj : f^[j % minimalPeriod f x] x = f^[j] x := iterate_mod_minimalPeriod_eq
  rw [← hi, ← hj, iterate_eq_iterate_iff_of_lt_minimalPeriod (Nat.mod_lt _ hpos) (Nat.mod_lt _ hpos)]
  rfl

variable [Fintype α]

/-- A cycle as long as the type goes through every element. -/
theorem exists_iterate_eq (hperiod : minimalPeriod f x = Fintype.card α) (y : α) :
    ∃ i, f^[i] x = y := by
  have hinj : Injective fun i : Fin (Fintype.card α) => f^[i.val] x := by
    intro i j heq
    have hi : i.val < minimalPeriod f x := by rw [hperiod]; exact i.isLt
    have hj : j.val < minimalPeriod f x := by rw [hperiod]; exact j.isLt
    exact Fin.ext ((iterate_eq_iterate_iff_of_lt_minimalPeriod hi hj).1 heq)
  have hsurj := ((Fintype.bijective_iff_injective_and_card _).2 ⟨hinj, Fintype.card_fin _⟩).2
  obtain ⟨i, hi⟩ := hsurj y
  exact ⟨i.val, hi⟩

/-- Among the first `n` iterates every element occurs equally often, up to rounding. -/
theorem count_iterate [DecidableEq α] (hperiod : minimalPeriod f x = Fintype.card α) (y : α) (n : ℕ) :
    n.count (f^[·] x = y) = n / Fintype.card α ∨
      n.count (f^[·] x = y) = (n + (Fintype.card α - 1)) / Fintype.card α := by
  have hpos : 0 < Fintype.card α := Fintype.card_pos_iff.2 ⟨x⟩
  obtain ⟨v, rfl⟩ := exists_iterate_eq hperiod y
  have hmod : n.count (f^[·] x = f^[v] x) = n.count (· ≡ v [MOD Fintype.card α]) := by
    congr 1
    funext i
    rw [iterate_eq_iff_modEq (by rw [hperiod]; exact hpos), hperiod]
  rw [hmod, Nat.count_modEq_card n hpos v]
  by_cases hlt : v % Fintype.card α < n % Fintype.card α
  · right
    rw [if_pos hlt]
    have hsplit := Nat.div_add_mod n (Fintype.card α)
    have hrest := Nat.mod_lt n hpos
    symm
    rw [Nat.div_eq_iff hpos]
    have hmul : Fintype.card α * (n / Fintype.card α) = n / Fintype.card α * Fintype.card α :=
      Nat.mul_comm _ _
    rw [Nat.add_mul]
    omega
  · left
    rw [if_neg hlt, Nat.add_zero]

end Transition
