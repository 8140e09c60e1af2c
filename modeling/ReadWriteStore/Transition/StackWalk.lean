import ReadWriteStore.Transition.Walk

/-!
# Walking by nested calls

A search that calls itself for each action that gives nothing needs a stack as deep as the run of such
actions. `stackWalk` is a search along one list and `stackWalkLists` one along list after list, by calls
that nest in the same way; `callDepths` is the depth that a whole iteration needs.
-/

namespace Transition

variable {ε σ α A : Type}

/-- `walk` by a function that calls itself for the rest of the list, on a stack for so many calls. -/
def stackWalk (overflow : ε) (f : A → σ → Except ε (Option α × σ)) :
    ℕ → List A → σ → Except ε (Option α × List A × σ)
  | 0, _, _ => .error overflow
  | _ + 1, [], s => return (none, [], s)
  | stack + 1, a :: rest, s => do
    let (item, s) ← f a s
    match item with
    | some item => return (some item, rest, s)
    | none => stackWalk overflow f stack rest s

/-- A search along list after list, by a function that calls `stackWalk` and then itself for the lists
behind. -/
def stackWalkLists (overflow : ε) (f : A → σ → Except ε (Option α × σ)) :
    ℕ → List (List A) → σ → Except ε (Option α × List (List A) × σ)
  | 0, _, _ => .error overflow
  | _ + 1, [], s => return (none, [], s)
  | stack + 1, as :: lists, s => do
    let (item, as, s) ← stackWalk overflow f stack as s
    match item with
    | some item => return (some item, as :: lists, s)
    | none => stackWalkLists overflow f stack lists s

/-- Any number of searches, one after the other. -/
def stackWalks (overflow : ε) (f : A → σ → Except ε (Option α × σ)) (stack : ℕ) :
    ℕ → List (List A) → σ → Except ε (List α × List (List A) × σ)
  | 0, lists, s => return ([], lists, s)
  | n + 1, lists, s => do
    let (item, lists, s) ← stackWalkLists overflow f stack lists s
    let (items, lists, s) ← stackWalks overflow f stack n lists s
    return (item.toList ++ items, lists, s)

/-- The most calls that are open at once in searches along a list: one more for each action that gives
nothing, and two again behind an item, where the next search begins. -/
def callDepth (item : A → Option α) : ℕ → List A → ℕ
  | calls, [] => calls
  | calls, a :: rest =>
    match item a with
    | some _ => max calls (callDepth item 2 rest)
    | none => callDepth item (calls + 1) rest

/-- The same along list after list. A search that finds nothing in a list leaves one call open. -/
def callDepths (item : A → Option α) : ℕ → List (List A) → ℕ
  | calls, [] => calls
  | calls, as :: lists =>
    max (callDepth item (calls + 1) as)
      (callDepths item (if (as.filterMap item).isEmpty then calls + 1 else 2) lists)

variable {overflow : ε} {f : A → σ → Except ε (Option α × σ)}

/-! ## One search -/

section Walk

variable {a : A} {rest : List A} {s s' : σ} {stack : ℕ}

theorem stackWalk_cons_some {item : α} (h : f a s = .ok (some item, s')) :
    stackWalk overflow f (stack + 1) (a :: rest) s = .ok (some item, rest, s') := by
  rw [stackWalk, h]
  rfl

theorem stackWalk_cons_none (h : f a s = .ok (none, s')) :
    stackWalk overflow f (stack + 1) (a :: rest) s = stackWalk overflow f stack rest s' := by
  rw [stackWalk, h]
  rfl

theorem stackWalk_cons_error {e : ε} (h : f a s = .error e) :
    stackWalk overflow f (stack + 1) (a :: rest) s = .error e := by
  rw [stackWalk, h]
  rfl

theorem stackWalks_error {lists : List (List A)} {e : ε} (n : ℕ)
    (h : stackWalkLists overflow f stack lists s = .error e) :
    stackWalks overflow f stack (n + 1) lists s = .error e := by
  rw [stackWalks, h]
  rfl

theorem stackWalks_ok {lists left : List (List A)} {item : Option α} (n : ℕ)
    (h : stackWalkLists overflow f stack lists s = .ok (item, left, s')) :
    stackWalks overflow f stack (n + 1) lists s =
      (stackWalks overflow f stack n left s').map fun r => (item.toList ++ r.1, r.2) := by
  rw [stackWalks, h]
  show (stackWalks overflow f stack n left s' >>= _) = _
  cases stackWalks overflow f stack n left s' with
  | error => rfl
  | ok => rfl

/-- A search that does not overflow the stack is a walk. -/
theorem walk_of_stackWalk {as left : List A} {item : Option α}
    (h : stackWalk overflow f stack as s = .ok (item, left, s')) : walk f as s = .ok (item, left, s') := by
  induction stack generalizing as s with
  | zero => cases h
  | succ stack ih =>
    cases as with
    | nil => exact h
    | cons a rest =>
      cases hf : f a s with
      | error e =>
        rw [stackWalk_cons_error hf] at h
        cases h
      | ok r =>
        obtain ⟨found, s₁⟩ := r
        cases found with
        | some found =>
          rw [stackWalk_cons_some hf] at h
          rw [walk_cons_some hf]
          exact h
        | none =>
          rw [stackWalk_cons_none hf] at h
          rw [walk_cons_none hf]
          exact ih h

theorem walk_of_stackWalkLists {lists left : List (List A)} {item : Option α}
    (h : stackWalkLists overflow f stack lists s = .ok (item, left, s')) :
    walk f lists.flatten s = .ok (item, left.flatten, s') := by
  induction stack generalizing lists s with
  | zero => cases h
  | succ stack ih =>
    cases lists with
    | nil =>
      cases h
      rfl
    | cons as lists =>
      obtain ⟨⟨found, left₁, s₁⟩, hfirst, h⟩ := exists_of_bind_eq_ok h
      rw [List.flatten_cons, walk_append, walk_of_stackWalk hfirst]
      cases found with
      | some found =>
        cases h
        rfl
      | none => exact ih h

theorem walks_of_stackWalks {n : ℕ} {lists left : List (List A)} {items : List α}
    (h : stackWalks overflow f stack n lists s = .ok (items, left, s')) :
    walks f n lists.flatten s = .ok (items, left.flatten, s') := by
  induction n generalizing lists s items with
  | zero =>
    cases h
    rfl
  | succ n ih =>
    obtain ⟨⟨item, lists₁, s₁⟩, hfirst, h⟩ := exists_of_bind_eq_ok h
    obtain ⟨⟨items₁, lists₂, s₂⟩, hrest, h⟩ := exists_of_bind_eq_ok h
    cases h
    rw [walks, walk_of_stackWalkLists hfirst]
    show (walks f n lists₁.flatten s₁ >>= _) = _
    rw [ih hrest]
    rfl

end Walk

/-! ## Searches whose results are known -/

section Items

theorem le_callDepth (item : A → Option α) (calls : ℕ) (as : List A) : calls ≤ callDepth item calls as := by
  induction as generalizing calls with
  | nil => exact Nat.le_refl _
  | cons a rest ih =>
    rw [callDepth]
    split
    · exact Nat.le_max_left _ _
    · exact Nat.le_trans (Nat.le_succ calls) (ih (calls + 1))

theorem le_callDepths (item : A → Option α) (calls : ℕ) (lists : List (List A)) :
    calls ≤ callDepths item calls lists := by
  cases lists with
  | nil => exact Nat.le_refl _
  | cons as lists =>
    have := le_callDepth item (calls + 1) as
    rw [callDepths]
    omega

variable {P : List A → σ → Prop} {item : A → Option α}

/-- How a search along a list ends, if the stack is for so many calls in all and some of them are open. -/
inductive StackWalked (overflow : ε) (P : List A → σ → Prop) (item : A → Option α) (stack calls : ℕ)
    (as : List A) : Except ε (Option α × List A × σ) → Prop
  | overflow (h : stack < callDepth item calls as) : StackWalked overflow P item stack calls as (.error overflow)
  | found {x : α} {rest : List A} {s : σ} (hitems : as.filterMap item = x :: rest.filterMap item)
      (hdepth : callDepth item calls as ≤ stack ↔ callDepth item 2 rest ≤ stack) (h : P rest s) :
      StackWalked overflow P item stack calls as (.ok (some x, rest, s))
  | missed {s : σ} (hitems : as.filterMap item = []) (hdepth : callDepth item calls as ≤ stack) (h : P [] s) :
      StackWalked overflow P item stack calls as (.ok (none, [], s))

/-- An invariant of the actions left and the state that says what each action gives also says what a
search finds, and when it overflows the stack. -/
theorem stackWalk_of_invariant
    (hstep : ∀ a rest s, P (a :: rest) s → ∃ s', f a s = .ok (item a, s') ∧ P rest s') {stack calls left : ℕ}
    (hleft : left + calls = stack + 1) {as : List A} {s : σ} (h : P as s) :
    StackWalked overflow P item stack calls as (stackWalk overflow f left as s) := by
  induction left generalizing calls as s with
  | zero =>
    refine .overflow ?_
    have := le_callDepth item calls as
    omega
  | succ left ih =>
    cases as with
    | nil =>
      refine .missed rfl ?_ h
      show calls ≤ stack
      omega
    | cons a rest =>
      obtain ⟨s₁, hf, hrest⟩ := hstep a rest s h
      cases hitem : item a with
      | some x =>
        rw [hitem] at hf
        rw [stackWalk_cons_some hf]
        refine .found (List.filterMap_cons_some hitem) ?_ hrest
        rw [callDepth, hitem]
        show max calls _ ≤ stack ↔ _
        omega
      | none =>
        rw [hitem] at hf
        rw [stackWalk_cons_none hf]
        have hsame : callDepth item calls (a :: rest) = callDepth item (calls + 1) rest := by
          rw [callDepth, hitem]
        have hitems : (a :: rest).filterMap item = rest.filterMap item := List.filterMap_cons_none hitem
        have hrest : StackWalked overflow P item stack (calls + 1) rest (stackWalk overflow f left rest s₁) :=
          ih (by omega) hrest
        generalize stackWalk overflow f left rest s₁ = result at hrest
        cases hrest with
        | overflow hdeep => exact .overflow (hsame ▸ hdeep)
        | found hfound hdepth hp => exact .found (hitems ▸ hfound) (hsame ▸ hdepth) hp
        | missed hnone hdepth hp => exact .missed (hitems ▸ hnone) (hsame ▸ hdepth) hp

/-- How a search along list after list ends. -/
inductive StackWalkedLists (overflow : ε) (P : List A → σ → Prop) (item : A → Option α) (stack calls : ℕ)
    (lists : List (List A)) : Except ε (Option α × List (List A) × σ) → Prop
  | overflow (h : stack < callDepths item calls lists) :
      StackWalkedLists overflow P item stack calls lists (.error overflow)
  | done {left : List (List A)} {s : σ}
      (hitems : left.flatten.filterMap item = (lists.flatten.filterMap item).tail)
      (hlast : lists.flatten.filterMap item = [] → left = [])
      (hdepth : callDepths item calls lists ≤ stack ↔ callDepths item 1 left ≤ stack) (h : P left.flatten s) :
      StackWalkedLists overflow P item stack calls lists
        (.ok ((lists.flatten.filterMap item).head?, left, s))

theorem stackWalkLists_of_invariant
    (hstep : ∀ a rest s, P (a :: rest) s → ∃ s', f a s = .ok (item a, s') ∧ P rest s') {stack calls left : ℕ}
    (hleft : left + calls = stack + 1) (hcalls : 1 ≤ calls) {lists : List (List A)} {s : σ} (h : P lists.flatten s) :
    StackWalkedLists overflow P item stack calls lists (stackWalkLists overflow f left lists s) := by
  induction left generalizing calls lists s with
  | zero =>
    refine .overflow ?_
    have := le_callDepths item calls lists
    omega
  | succ left ih =>
    cases lists with
    | nil =>
      have hdepth : callDepths item calls [] ≤ stack ↔ callDepths item 1 [] ≤ stack := by
        show calls ≤ stack ↔ 1 ≤ stack
        omega
      exact .done rfl (fun _ => rfl) hdepth h
    | cons as lists =>
      have hfirst : StackWalked overflow (fun as s => P (as ++ lists.flatten) s) item stack (calls + 1) as
          (stackWalk overflow f left as s) :=
        stackWalk_of_invariant (fun a rest s hp => hstep a (rest ++ lists.flatten) s hp) (by omega) h
      show StackWalkedLists _ _ _ _ _ _ (stackWalk overflow f left as s >>= _)
      generalize stackWalk overflow f left as s = result at hfirst
      cases hfirst with
      | overflow hdeep =>
        refine .overflow ?_
        rw [callDepths]
        omega
      | @found x rest s₁ hitems hdepth hp =>
        have hhead : ((as :: lists).flatten.filterMap item) = x :: (rest :: lists).flatten.filterMap item := by
          rw [List.flatten_cons, List.filterMap_append, hitems, List.flatten_cons, List.filterMap_append]
          rfl
        have hsome : some x = ((as :: lists).flatten.filterMap item).head? := by rw [hhead]; rfl
        show StackWalkedLists _ _ _ _ _ _ (Except.ok (some x, rest :: lists, s₁))
        rw [hsome]
        refine .done (by rw [hhead]; rfl) (fun hnil => ?_) ?_ hp
        · rw [hhead] at hnil
          cases hnil
        have htwo : (if (rest.filterMap item).isEmpty then 1 + 1 else 2) = 2 := by split <;> rfl
        rw [callDepths, callDepths, htwo, hitems, Nat.max_le, Nat.max_le, hdepth]
        rfl
      | @missed s₁ hitems hdepth hp =>
        have hrest : StackWalkedLists overflow P item stack (calls + 1) lists
            (stackWalkLists overflow f left lists s₁) := ih (by omega) (by omega) hp
        have hsame : (as :: lists).flatten.filterMap item = lists.flatten.filterMap item := by
          rw [List.flatten_cons, List.filterMap_append, hitems, List.nil_append]
        have hdepths : callDepths item calls (as :: lists) ≤ stack ↔
            callDepths item (calls + 1) lists ≤ stack := by
          rw [callDepths, hitems, Nat.max_le]
          exact and_iff_right hdepth
        show StackWalkedLists _ _ _ _ _ _ (stackWalkLists overflow f left lists s₁)
        generalize stackWalkLists overflow f left lists s₁ = result at hrest
        cases hrest with
        | overflow hdeep =>
          refine .overflow ?_
          rw [← Nat.not_le] at hdeep ⊢
          rwa [hdepths]
        | done hleft hlast hdepth' hp' =>
          rw [← hsame]
          exact .done (hsame ▸ hleft) (hsame ▸ hlast) (hdepths.trans hdepth') hp'

/-- A search that has the stack to itself. -/
theorem stackWalkLists_first (overflow : ε)
    (hstep : ∀ a rest s, P (a :: rest) s → ∃ s', f a s = .ok (item a, s') ∧ P rest s') (stack : ℕ)
    {lists : List (List A)} {s : σ} (h : P lists.flatten s) :
    StackWalkedLists overflow P item stack 1 lists (stackWalkLists overflow f stack lists s) :=
  stackWalkLists_of_invariant hstep rfl (Nat.le_refl 1) h

/-- Searches overflow the stack, or find as many items as there are. -/
theorem stackWalks_of_invariant (overflow : ε)
    (hstep : ∀ a rest s, P (a :: rest) s → ∃ s', f a s = .ok (item a, s') ∧ P rest s') (stack n : ℕ)
    {lists : List (List A)} {s : σ} (h : P lists.flatten s) :
    stackWalks overflow f stack n lists s = .error overflow ∧ stack < callDepths item 1 lists ∨
      ∃ left s', stackWalks overflow f stack n lists s = .ok ((lists.flatten.filterMap item).take n, left, s') ∧
        left.flatten.filterMap item = (lists.flatten.filterMap item).drop n ∧ P left.flatten s' := by
  induction n generalizing lists s with
  | zero => exact Or.inr ⟨lists, s, rfl, rfl, h⟩
  | succ n ih =>
    have hfirst := stackWalkLists_first overflow hstep stack h
    generalize hresult : stackWalkLists overflow f stack lists s = result at hfirst
    cases hfirst with
    | overflow hdeep =>
      exact Or.inl ⟨stackWalks_error n hresult, hdeep⟩
    | @done left₁ s₁ hitems hlast hdepth hp =>
      rcases ih hp with ⟨herror, hdeep⟩ | ⟨left₂, s₂, hrest, hitems₂, hp₂⟩
      · refine Or.inl ⟨?_, ?_⟩
        · rw [stackWalks_ok n hresult, herror]
          rfl
        · rw [← Nat.not_le] at hdeep ⊢
          rwa [hdepth]
      · refine Or.inr ⟨left₂, s₂, ?_, ?_, hp₂⟩
        · rw [stackWalks_ok n hresult, hrest, hitems]
          cases lists.flatten.filterMap item with
          | nil =>
            show Except.ok (([] : List α).take n, left₂, s₂) = _
            rw [List.take_nil, List.take_nil]
          | cons x xs => rfl
        · rw [hitems₂, hitems, List.drop_tail]

/-- On a stack that is not deep enough some number of searches overflows it. -/
theorem exists_stackWalks_overflow (overflow : ε)
    (hstep : ∀ a rest s, P (a :: rest) s → ∃ s', f a s = .ok (item a, s') ∧ P rest s') {stack : ℕ}
    {lists : List (List A)} {s : σ} (h : P lists.flatten s) (hdeep : stack < callDepths item 1 lists) :
    ∃ n, stackWalks overflow f stack n lists s = .error overflow := by
  generalize hfound : lists.flatten.filterMap item = items
  induction items generalizing lists s with
  | nil =>
    have hfirst := stackWalkLists_first overflow hstep stack h
    generalize hresult : stackWalkLists overflow f stack lists s = result at hfirst
    cases hfirst with
    | overflow => exact ⟨1, stackWalks_error 0 hresult⟩
    | @done left s₁ hitems hlast hdepth hp =>
      obtain rfl := hlast hfound
      have hzero : stack = 0 := by
        have hnot : ¬1 ≤ stack := fun hle => Nat.not_le.2 hdeep (hdepth.2 hle)
        omega
      rw [hzero] at hresult
      cases hresult
  | cons x items ih =>
    have hfirst := stackWalkLists_first overflow hstep stack h
    generalize hresult : stackWalkLists overflow f stack lists s = result at hfirst
    cases hfirst with
    | overflow => exact ⟨1, stackWalks_error 0 hresult⟩
    | @done left s₁ hitems hlast hdepth hp =>
      have hdeep' : stack < callDepths item 1 left := by
        rw [← Nat.not_le] at hdeep ⊢
        rwa [← hdepth]
      rw [hfound] at hitems
      obtain ⟨n, hn⟩ := ih hp hdeep' hitems
      refine ⟨n + 1, ?_⟩
      rw [stackWalks_ok n hresult, hn]
      rfl

end Items

end Transition
