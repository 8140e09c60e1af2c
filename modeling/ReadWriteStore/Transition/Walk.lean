import Mathlib.Data.List.Basic

/-!
# Walking along a list of actions

An iterator that looks for its next item does one action after the other until one of them gives an
item. `walk` is one such search, and `walks` any number of them; an action may fail. Nothing here knows
what the actions are.
-/

namespace Transition

variable {ε σ α A : Type}

/-- Does the actions of a list in order until one gives an item: the item, the actions left and the
state. -/
def walk (f : A → σ → Except ε (Option α × σ)) : List A → σ → Except ε (Option α × List A × σ)
  | [], s => return (none, [], s)
  | a :: rest, s => do
    let (item, s) ← f a s
    match item with
    | some item => return (some item, rest, s)
    | none => walk f rest s

/-- Any number of searches, and the items they find. -/
def walks (f : A → σ → Except ε (Option α × σ)) : ℕ → List A → σ → Except ε (List α × List A × σ)
  | 0, as, s => return ([], as, s)
  | n + 1, as, s => do
    let (item, as, s) ← walk f as s
    let (items, as, s) ← walks f n as s
    return (item.toList ++ items, as, s)

/-- Every action in order, and the items they give. -/
def walkAll (f : A → σ → Except ε (Option α × σ)) : List A → σ → Except ε (List α × σ)
  | [], s => return ([], s)
  | a :: rest, s => do
    let (item, s) ← f a s
    let (items, s) ← walkAll f rest s
    return (item.toList ++ items, s)

variable {f : A → σ → Except ε (Option α × σ)}

theorem exists_of_bind_eq_ok {β γ : Type} {x : Except ε β} {g : β → Except ε γ} {c : γ}
    (h : x >>= g = .ok c) : ∃ b, x = .ok b ∧ g b = .ok c := by
  cases x with
  | error e => cases h
  | ok b => exact ⟨b, rfl, h⟩

/-! ## One search -/

section Walk

variable {a : A} {rest : List A} {s s' : σ}

theorem walk_cons_some {item : α} (h : f a s = .ok (some item, s')) :
    walk f (a :: rest) s = .ok (some item, rest, s') := by
  rw [walk, h]
  rfl

theorem walk_cons_none (h : f a s = .ok (none, s')) : walk f (a :: rest) s = walk f rest s' := by
  rw [walk, h]
  rfl

theorem walk_cons_error {e : ε} (h : f a s = .error e) : walk f (a :: rest) s = .error e := by
  rw [walk, h]
  rfl

end Walk

/-- A walk along two lists goes on along the second one if it finds nothing in the first. -/
theorem walk_append (as bs : List A) (s : σ) :
    walk f (as ++ bs) s = (do
      let (item, rest, s) ← walk f as s
      match item with
      | some item => return (some item, rest ++ bs, s)
      | none => walk f bs s) := by
  induction as generalizing s with
  | nil => rfl
  | cons a as ih =>
    rw [List.cons_append]
    cases hf : f a s with
    | error e =>
      rw [walk_cons_error hf, walk_cons_error hf]
      rfl
    | ok r =>
      obtain ⟨item, s'⟩ := r
      cases item with
      | some item =>
        rw [walk_cons_some hf, walk_cons_some hf]
        rfl
      | none =>
        rw [walk_cons_none hf, walk_cons_none hf]
        exact ih s'

/-- What a walk that does not fail has done: the actions before the one that gives the item give
nothing. -/
theorem walk_eq_ok {as rest : List A} {s s' : σ} {item : Option α}
    (h : walk f as s = .ok (item, rest, s')) :
    ∃ done, as = done ++ rest ∧ walkAll f done s = .ok (item.toList, s') ∧ (item = none → rest = []) := by
  induction as generalizing s with
  | nil =>
    cases h
    exact ⟨[], rfl, rfl, fun _ => rfl⟩
  | cons a as ih =>
    cases hf : f a s with
    | error e =>
      rw [walk_cons_error hf] at h
      cases h
    | ok r =>
      obtain ⟨found, s₁⟩ := r
      cases found with
      | some found =>
        rw [walk_cons_some hf] at h
        cases h
        refine ⟨[a], rfl, ?_, fun h => by cases h⟩
        rw [walkAll, hf]
        rfl
      | none =>
        rw [walk_cons_none hf] at h
        obtain ⟨done, rfl, hdone, hnone⟩ := ih h
        refine ⟨a :: done, rfl, ?_, hnone⟩
        rw [walkAll, hf]
        show (walkAll f done s₁ >>= _) = _
        rw [hdone]
        rfl

/-! ## Many searches -/

theorem walkAll_append {as bs : List A} {s s₁ s₂ : σ} {items items' : List α}
    (ha : walkAll f as s = .ok (items, s₁)) (hb : walkAll f bs s₁ = .ok (items', s₂)) :
    walkAll f (as ++ bs) s = .ok (items ++ items', s₂) := by
  induction as generalizing s items with
  | nil =>
    cases ha
    exact hb
  | cons a as ih =>
    obtain ⟨⟨item, s'⟩, hf, ha⟩ := exists_of_bind_eq_ok ha
    obtain ⟨⟨rest, s''⟩, hrest, ha⟩ := exists_of_bind_eq_ok ha
    cases ha
    rw [List.cons_append, walkAll, hf]
    show (walkAll f (as ++ bs) s' >>= _) = _
    rw [ih hrest]
    show Except.ok _ = _
    rw [List.append_assoc]

/-- What any number of searches have done. -/
theorem walks_eq_ok {n : ℕ} {as rest : List A} {s s' : σ} {items : List α}
    (h : walks f n as s = .ok (items, rest, s')) :
    ∃ done, as = done ++ rest ∧ walkAll f done s = .ok (items, s') := by
  induction n generalizing as s items with
  | zero =>
    cases h
    exact ⟨[], rfl, rfl⟩
  | succ n ih =>
    obtain ⟨⟨item, as₁, s₁⟩, hwalk, h⟩ := exists_of_bind_eq_ok h
    obtain ⟨⟨items₁, as₂, s₂⟩, hwalks, h⟩ := exists_of_bind_eq_ok h
    cases h
    obtain ⟨done, rfl, hdone, -⟩ := walk_eq_ok hwalk
    obtain ⟨done', rfl, hdone'⟩ := ih hwalks
    exact ⟨done ++ done', (List.append_assoc ..).symm, walkAll_append hdone hdone'⟩

/-- An item was given by one of the actions. -/
theorem mem_of_walkAll {as : List A} {s s' : σ} {items : List α} {item : α}
    (h : walkAll f as s = .ok (items, s')) (hmem : item ∈ items) :
    ∃ a ∈ as, ∃ s₁ s₂, f a s₁ = .ok (some item, s₂) := by
  induction as generalizing s items with
  | nil =>
    cases h
    cases hmem
  | cons a as ih =>
    obtain ⟨⟨found, s₁⟩, hf, h⟩ := exists_of_bind_eq_ok h
    obtain ⟨⟨rest, s₂⟩, hrest, h⟩ := exists_of_bind_eq_ok h
    cases h
    rcases List.mem_append.1 hmem with hfound | hlater
    · rw [Option.mem_toList] at hfound
      cases hfound
      exact ⟨a, List.mem_cons_self, s, s₁, hf⟩
    · obtain ⟨a', ha', found'⟩ := ih hrest hlater
      exact ⟨a', List.mem_cons_of_mem _ ha', found'⟩

end Transition
