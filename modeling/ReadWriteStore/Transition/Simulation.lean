import ReadWriteStore.Transition.System

/-!
# Simulations

A system simulates another one if it can answer each step with a path that shows the same actions. Then
every run has a counterpart with the same history.
-/

namespace Transition

namespace System

variable {σ ε : Type*}

/-- The events `es` lead from one state to another. -/
inductive Path (S : System σ ε) : σ → List ε → σ → Prop
  | nil {s : σ} : Path S s [] s
  | cons {s s₁ s₂ : σ} {e : ε} {es : List ε} (hs : S.step s e s₁) (h : Path S s₁ es s₂) : Path S s (e :: es) s₂

variable {S : System σ ε} {s s₁ s₂ : σ} {e : ε} {es es' : List ε}

theorem Path.single (hs : S.step s e s₁) : S.Path s [e] s₁ :=
  .cons hs .nil

theorem Path.append (h : S.Path s es s₁) (h' : S.Path s₁ es' s₂) : S.Path s (es ++ es') s₂ := by
  induction h with
  | nil => exact h'
  | cons hs _ ih => exact .cons hs (ih h')

/-- What every step preserves, every path preserves. -/
theorem Path.invariant {P : σ → Prop} (hstep : ∀ s e s', P s → S.step s e s' → P s') (h : S.Path s es s₁)
    (hs : P s) : P s₁ := by
  induction h with
  | nil => exact hs
  | cons hs' _ ih => exact ih (hstep _ _ _ hs hs')

theorem Path.reachable (h : S.Path s es s₁) (hs : S.Reachable s) : S.Reachable s₁ :=
  h.invariant (fun _ _ _ => Reachable.step) hs

/-! ## Histories -/

variable {α β ω : Type*} {A : System α β}

/-- What the first `n` steps of an execution show. -/
def history (shows : σ → ε → List ω) (state : ℕ → σ) (event : ℕ → ε) : ℕ → List ω
  | 0 => []
  | n + 1 => history shows state event n ++ shows (state n) (event n)

theorem mem_history {shows : σ → ε → List ω} {state : ℕ → σ} {event : ℕ → ε} {n : ℕ} {action : ω} :
    action ∈ history shows state event n ↔ ∃ k < n, action ∈ shows (state k) (event k) := by
  induction n with
  | zero => simp [history]
  | succ n ih =>
    rw [history, List.mem_append, ih]
    constructor
    · rintro (⟨k, hk, hmem⟩ | hmem)
      · exact ⟨k, by omega, hmem⟩
      · exact ⟨n, by omega, hmem⟩
    · rintro ⟨k, hk, hmem⟩
      rcases Nat.lt_succ_iff_lt_or_eq.1 hk with hlt | rfl
      · exact Or.inl ⟨k, hlt, hmem⟩
      · exact Or.inr hmem

/-- `A` simulates `S` along `R`: it answers each step with a path that shows the same. -/
structure Simulates (S : System σ ε) (A : System α β) (shows : σ → ε → List ω) (visible : β → List ω)
    (R : σ → α → Prop) : Prop where
  init : ∀ s, S.init s → ∃ a, A.init a ∧ R s a
  step : ∀ s e s' a, S.Reachable s → R s a → S.step s e s' →
    ∃ es a', A.Path a es a' ∧ es.flatMap visible = shows s e ∧ R s' a'

variable {shows : σ → ε → List ω} {visible : β → List ω} {R : σ → α → Prop}

/-- What comes after a moment of a run has a counterpart with the same history. -/
theorem Simulates.between (h : S.Simulates A shows visible R) {n : ℕ} {state : ℕ → σ} {event : ℕ → ε}
    (hrun : S.Run n state event) {i : ℕ} {a : α} (hR : R (state i) a) {k : ℕ} (hk : i + k ≤ n) :
    ∃ es a', A.Path a es a' ∧
      es.flatMap visible = history shows (fun m => state (i + m)) (fun m => event (i + m)) k ∧
        R (state (i + k)) a' := by
  induction k with
  | zero => exact ⟨[], a, .nil, rfl, hR⟩
  | succ k ih =>
    obtain ⟨es, a₁, hpath, hhist, hR₁⟩ := ih (by omega)
    obtain ⟨es', a', hpath', hshows, hR'⟩ :=
      h.step _ _ _ _ (hrun.reachable (i + k) (by omega)) hR₁ (hrun.step (i + k) (by omega))
    refine ⟨es ++ es', a', hpath.append hpath', ?_, hR'⟩
    rw [List.flatMap_append, hhist, hshows]
    rfl

/-- Every run has a counterpart with the same history. -/
theorem Simulates.run (h : S.Simulates A shows visible R) {n : ℕ} {state : ℕ → σ} {event : ℕ → ε}
    (hrun : S.Run n state event) :
    ∃ a es a', A.init a ∧ A.Path a es a' ∧ es.flatMap visible = history shows state event n ∧
      R (state n) a' := by
  obtain ⟨a, ha, hR⟩ := h.init _ hrun.init
  obtain ⟨es, a', hpath, hhist, hR'⟩ := h.between hrun hR (i := 0) (k := n) (by omega)
  simp only [Nat.zero_add] at hhist hR'
  exact ⟨a, es, a', ha, hpath, hhist, hR'⟩

/-- Every reachable state has a counterpart. -/
theorem Simulates.reachable (h : S.Simulates A shows visible R) {s : σ} (hs : S.Reachable s) :
    ∃ a, A.Reachable a ∧ R s a := by
  induction hs with
  | init hs =>
    obtain ⟨a, ha, hR⟩ := h.init _ hs
    exact ⟨a, .init ha, hR⟩
  | step hs hstep ih =>
    obtain ⟨a, ha, hR⟩ := ih
    obtain ⟨es, a', hpath, -, hR'⟩ := h.step _ _ _ _ hs hR hstep
    exact ⟨a', hpath.reachable ha, hR'⟩

end System

end Transition
