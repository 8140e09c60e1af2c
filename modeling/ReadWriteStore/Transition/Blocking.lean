import Mathlib.Logic.Relation

/-!
# Threads that hold one another up

Which threads a thread waits for, and what becomes of it if one follows them.
-/

namespace Transition

variable {τ : Type*} {goes goes' : τ → Prop} {waits waits' : τ → τ → Prop} {t u : τ}

/-- A thread goes on, or it waits, directly or through others, for one that does. -/
def Moves (goes : τ → Prop) (waits : τ → τ → Prop) (t : τ) : Prop :=
  ∃ u, Relation.ReflTransGen waits t u ∧ goes u

theorem Moves.self (h : goes t) : Moves goes waits t := ⟨t, .refl, h⟩

theorem Moves.of_waits (hwaits : waits t u) (h : Moves goes waits u) : Moves goes waits t := by
  obtain ⟨v, huv, hv⟩ := h
  exact ⟨v, .head hwaits huv, hv⟩

theorem Moves.mono (hgoes : ∀ t, goes t → goes' t) (hwaits : ∀ t u, waits t u → waits' t u)
    (h : Moves goes waits t) : Moves goes' waits' t := by
  obtain ⟨u, htu, hu⟩ := h
  exact ⟨u, Relation.ReflTransGen.mono hwaits _ _ htu, hgoes u hu⟩

/-- Some thread goes on. -/
theorem Moves.exists (h : Moves goes waits t) : ∃ u, goes u := by
  obtain ⟨u, -, hu⟩ := h
  exact ⟨u, hu⟩

end Transition
