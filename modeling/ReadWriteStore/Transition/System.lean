import Mathlib.Logic.Relation
import Mathlib.Order.SuccPred.Archimedean

/-!
# Labelled transition systems

A system is a set of initial states and a step relation labelled by events. `Reachable` closes the
initial states under steps; `Run` names the state before and the event of every step, for properties
that speak about two moments of one execution. Nothing here knows what the states are.
-/

namespace Transition

/-- A labelled transition system over states `σ` and events `ε`. -/
structure System (σ ε : Type*) where
  /-- The initial states. -/
  init : σ → Prop
  /-- `step s e s'`: event `e` leads from `s` to `s'`. -/
  step : σ → ε → σ → Prop

namespace System

variable {σ ε : Type*}

/-- The system of a guarded step function: `f s e` is the state after `e`, `none` if `e` cannot
happen in `s`. The environment takes `e` in `s` only if `guard s e`. -/
def ofFn (init : σ → Prop) (f : σ → ε → Option σ) (guard : σ → ε → Prop) : System σ ε where
  init := init
  step s e s' := guard s e ∧ f s e = some s'

/-- The steps of `S` that meet the condition `ok`. -/
def restrict (S : System σ ε) (ok : σ → ε → Prop) : System σ ε where
  init := S.init
  step s e s' := ok s e ∧ S.step s e s'

/-- The states that some finite execution ends in. -/
inductive Reachable (S : System σ ε) : σ → Prop
  | init {s : σ} (h : S.init s) : Reachable S s
  | step {s s' : σ} {e : ε} (h : Reachable S s) (hs : S.step s e s') : Reachable S s'

/-- An execution of `n` steps: step `k` is event `event k`, from `state k` to `state (k + 1)`. -/
structure Run (S : System σ ε) (n : ℕ) (state : ℕ → σ) (event : ℕ → ε) : Prop where
  init : S.init (state 0)
  step : ∀ k < n, S.step (state k) (event k) (state (k + 1))

variable {S : System σ ε} {n : ℕ} {state : ℕ → σ} {event : ℕ → ε}

/-- A property that holds initially and that every step preserves holds in every reachable state. -/
theorem Reachable.invariant {P : σ → Prop} (hinit : ∀ s, S.init s → P s)
    (hstep : ∀ s e s', P s → S.step s e s' → P s') {s : σ} (h : S.Reachable s) : P s := by
  induction h with
  | init h => exact hinit _ h
  | step _ hs ih => exact hstep _ _ _ ih hs

/-- Fewer steps reach fewer states. -/
theorem Reachable.of_restrict {ok : σ → ε → Prop} {s : σ} (h : (S.restrict ok).Reachable s) :
    S.Reachable s := by
  induction h with
  | init h => exact .init h
  | step _ hs ih => exact .step ih hs.2

/-- A condition on the steps can be a part of the guard. -/
theorem Reachable.restrict {init : σ → Prop} {f : σ → ε → Option σ} {guard ok : σ → ε → Prop} {s : σ}
    (h : (ofFn init f fun s e => ok s e ∧ guard s e).Reachable s) :
    ((ofFn init f guard).restrict ok).Reachable s := by
  induction h with
  | init h => exact .init h
  | step _ hs ih => exact .step ih ⟨hs.1.1, hs.1.2, hs.2⟩

theorem Run.restrict {init : σ → Prop} {f : σ → ε → Option σ} {guard ok : σ → ε → Prop}
    (h : (ofFn init f fun s e => ok s e ∧ guard s e).Run n state event) :
    ((ofFn init f guard).restrict ok).Run n state event :=
  ⟨h.init, fun k hk => ⟨(h.step k hk).1.1, (h.step k hk).1.2, (h.step k hk).2⟩⟩

theorem Run.reachable (h : S.Run n state event) : ∀ k ≤ n, S.Reachable (state k) := by
  intro k
  induction k with
  | zero => intro _; exact .init h.init
  | succ k ih => intro hk; exact .step (ih (by omega)) (h.step k hk)

theorem Run.of_restrict {ok : σ → ε → Prop} (h : (S.restrict ok).Run n state event) :
    S.Run n state event :=
  ⟨h.init, fun k hk => (h.step k hk).2⟩

/-- The same run under a weaker condition. -/
theorem Run.weaken {ok ok' : σ → ε → Prop} (h : (S.restrict ok).Run n state event)
    (hok : ∀ s e, ok s e → ok' s e) : (S.restrict ok').Run n state event :=
  ⟨h.init, fun k hk => ⟨hok _ _ (h.step k hk).1, (h.step k hk).2⟩⟩

/-- An invariant holds in every state of a run. -/
theorem Run.invariant {P : σ → Prop} (h : S.Run n state event) (hinit : ∀ s, S.init s → P s)
    (hstep : ∀ s e s', P s → S.step s e s' → P s') : ∀ k ≤ n, P (state k) :=
  fun k hk => (h.reachable k hk).invariant hinit hstep

/-- A property that the steps from reachable states preserve is not lost between two moments of a
run. -/
theorem Run.persist {P : σ → Prop} (h : S.Run n state event)
    (hstep : ∀ s e s', S.Reachable s → P s → S.step s e s' → P s') {i j : ℕ} (hij : i ≤ j)
    (hj : j ≤ n) (hi : P (state i)) : P (state j) := by
  induction j, hij using Nat.le_induction with
  | base => exact hi
  | succ j hij ih =>
    exact hstep _ _ _ (h.reachable j (by omega)) (ih (by omega)) (h.step j (by omega))

/-- One more step. -/
theorem Run.extend {s s' : σ} {e : ε} (h : S.Run n state event) (hlast : state n = s) (hs : S.step s e s') :
    ∃ state' event', S.Run (n + 1) state' event' ∧ state' n = s ∧ event' n = e ∧ state' (n + 1) = s' := by
  subst hlast
  refine ⟨fun k => if k ≤ n then state k else s', fun k => if k < n then event k else e,
    ⟨?_, fun k hk => ?_⟩, ?_, ?_, ?_⟩
  · simpa using h.init
  · rcases Nat.lt_or_ge k n with hlt | hge
    · simpa [hlt, Nat.le_of_lt hlt, Nat.succ_le_of_lt hlt] using h.step k hlt
    · obtain rfl : k = n := by omega
      simpa [Nat.not_succ_le_self k] using hs
  · simp
  · simp
  · simp

/-- A state that can be reached is the last one of a run. -/
theorem Reachable.exists_run [Nonempty ε] {s : σ} (h : S.Reachable s) :
    ∃ n state event, S.Run n state event ∧ state n = s := by
  induction h with
  | @init s h => exact ⟨0, fun _ => s, fun _ => Classical.arbitrary ε, ⟨h, by omega⟩, rfl⟩
  | @step s s' e _ hs ih =>
    obtain ⟨n, state, event, hrun, hlast⟩ := ih
    obtain ⟨state', event', hrun', -, -, hlast'⟩ := hrun.extend hlast hs
    exact ⟨n + 1, state', event', hrun', hlast'⟩

/-! ## Replaying events -/

section Replay

variable {init : σ → Prop} {f : σ → ε → Option σ} {guard : σ → ε → Prop}
  [∀ s e, Decidable (guard s e)]

/-- The state after a list of events, `none` if one of them cannot happen or is not allowed. -/
def replay (f : σ → ε → Option σ) (guard : σ → ε → Prop) [∀ s e, Decidable (guard s e)] :
    σ → List ε → Option σ
  | s, [] => some s
  | s, e :: es => if guard s e then (f s e).bind (replay f guard · es) else none

theorem Reachable.replay {s : σ} (h : (ofFn init f guard).Reachable s) {es : List ε} {s' : σ}
    (hs : replay f guard s es = some s') : (ofFn init f guard).Reachable s' := by
  induction es generalizing s with
  | nil =>
    cases hs
    exact h
  | cons e es ih =>
    rw [System.replay] at hs
    split at hs
    · rename_i hg
      obtain ⟨s₁, h₁, h₂⟩ := Option.bind_eq_some_iff.1 hs
      exact ih (.step h ⟨hg, h₁⟩) h₂
    · cases hs

/-- A replay whose last state meets a decidable condition. -/
theorem exists_reachable {s : σ} (h : init s) (es : List ε) (p : σ → Bool)
    (hp : (System.replay f guard s es).any p = true) :
    ∃ s', (ofFn init f guard).Reachable s' ∧ p s' = true := by
  obtain ⟨s', hs⟩ : ∃ s', System.replay f guard s es = some s' :=
    Option.isSome_iff_exists.1 (Option.isSome_of_any hp)
  rw [hs] at hp
  exact ⟨s', (Reachable.init h).replay hs, hp⟩

theorem replay_append (s : σ) (es es' : List ε) :
    System.replay f guard s (es ++ es') =
      (System.replay f guard s es).bind (System.replay f guard · es') := by
  induction es generalizing s with
  | nil => rfl
  | cons e es ih =>
    simp only [List.cons_append, System.replay]
    split
    · cases f s e with
      | none => rfl
      | some s₁ => exact ih s₁
    · rfl

/-- The state after the first `k` events of a list that can be replayed. -/
def trace (f : σ → ε → Option σ) (guard : σ → ε → Prop) [∀ s e, Decidable (guard s e)] (s : σ)
    (es : List ε) (k : ℕ) : σ :=
  (System.replay f guard s (es.take k)).getD s

/-- A list of events that can be replayed is a run. -/
theorem Run.of_replay {s : σ} (h : init s) {es : List ε} (d : ε)
    (hes : (System.replay f guard s es).isSome = true) :
    (ofFn init f guard).Run es.length (trace f guard s es) (es.getD · d) where
  init := h
  step := by
    intro k hk
    have hget : es[k]? = some es[k] := List.getElem?_eq_getElem hk
    have hsplit : es = es.take k ++ es[k] :: es.drop (k + 1) := by
      rw [← List.drop_eq_getElem_cons hk, List.take_append_drop]
    have hall := hes
    rw [hsplit, replay_append] at hall
    obtain ⟨s₁, h₁⟩ := Option.isSome_iff_exists.1 (Option.isSome_of_isSome_bind hall)
    have hrest : (System.replay f guard s₁ (es[k] :: es.drop (k + 1))).isSome = true := by
      rw [h₁] at hall
      exact hall
    have hguard : guard s₁ es[k] := by
      by_contra hn
      simp [System.replay, hn] at hrest
    obtain ⟨s₂, h₂⟩ : ∃ s₂, f s₁ es[k] = some s₂ := by
      cases hf : f s₁ es[k] with
      | none => simp [System.replay, hf] at hrest
      | some s₂ => exact ⟨s₂, rfl⟩
    have hbefore : trace f guard s es k = s₁ := by
      unfold trace
      rw [h₁]
      rfl
    have hafter : trace f guard s es (k + 1) = s₂ := by
      unfold trace
      rw [List.take_add_one, hget, Option.toList_some, replay_append, h₁]
      simp [System.replay, hguard, h₂]
    show guard _ (es.getD k d) ∧ _
    rw [List.getD_eq_getElem?_getD, hget, hbefore, hafter]
    exact ⟨hguard, h₂⟩

end Replay

end System

/-! ## The threads of an execution of given events -/

/-- Executions of given events number their threads from 0; this is what stands behind the numerals. -/
instance (priority := 1100) oneThread : @NeZero ℕ (@Zero.ofOfNat0 ℕ (instOfNatNat _)) 1 := ⟨Nat.one_ne_zero⟩

instance (priority := 1100) twoThreads : @NeZero ℕ (@Zero.ofOfNat0 ℕ (instOfNatNat _)) 2 := ⟨Nat.succ_ne_zero 1⟩

end Transition
