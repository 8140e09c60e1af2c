import ReadWriteStore.Transition.Simulation

/-!
# Objects whose operations take effect at once

An object is given by what its operations do when they run alone. Shared by threads, it becomes a system:
a call takes effect at one moment between its start and its return. An implementation is linearizable if
that system simulates it.
-/

namespace Transition

/-- A sequential object for threads `τ`, with operations `ι` and results `ρ`. -/
structure Object (σ τ ι ρ : Type*) where
  init : σ → Prop
  /-- `effect s t op result s'`: the operation, run by thread `t`, leads from `s` to `s'`. -/
  effect : σ → τ → ι → ρ → σ → Prop
  /-- The operation has to wait. -/
  busy : σ → ι → Prop
  /-- The operation may return the result without an effect, if it has had to wait. -/
  givesUp : ι → ρ → Prop
  /-- The operation may panic instead of taking effect. -/
  fails : σ → ι → Prop

namespace Object

variable {σ τ ι ρ : Type*}

/-- Where a thread is with respect to the object. -/
inductive Phase (σ ι ρ : Type*)
  | idle
  /-- The call is still to take effect; it has seen the object in these states. -/
  | pending (op : ι) (seen : Set σ)
  | done (result : ρ)
  | failed

inductive Event (τ ι ρ : Type*)
  | call (thread : τ) (op : ι)
  | see (thread : τ)
  | effect (thread : τ)
  | giveUp (thread : τ)
  | fail (thread : τ)
  | ret (thread : τ) (result : Option ρ)

/-- What a caller sees; a call that panics has no result. -/
inductive Action (τ ι ρ : Type*)
  | call (thread : τ) (op : ι)
  | ret (thread : τ) (result : Option ρ)

def Event.visible : Event τ ι ρ → List (Action τ ι ρ)
  | .call t op => [.call t op]
  | .ret t result => [.ret t result]
  | _ => []

/-- The object and where each thread is. -/
@[ext] structure Shared (σ τ ι ρ : Type*) where
  object : σ
  phase : τ → Phase σ ι ρ

variable [DecidableEq τ]

def Shared.set (s : Shared σ τ ι ρ) (t : τ) (phase : Phase σ ι ρ) : Shared σ τ ι ρ :=
  { s with phase := Function.update s.phase t phase }

/-- What a step of the shared object can do. -/
inductive Step (O : Object σ τ ι ρ) (s : Shared σ τ ι ρ) : Event τ ι ρ → Shared σ τ ι ρ → Prop
  | call {t : τ} {op : ι} (hp : s.phase t = .idle) : Step O s (.call t op) (s.set t (.pending op ∅))
  | see {t : τ} {op : ι} {seen : Set σ} (hp : s.phase t = .pending op seen) :
      Step O s (.see t) (s.set t (.pending op (insert s.object seen)))
  | effect {t : τ} {op : ι} {seen : Set σ} {result : ρ} {object : σ} (hp : s.phase t = .pending op seen)
      (heffect : O.effect s.object t op result object) :
      Step O s (.effect t) ({ s with object := object }.set t (.done result))
  | giveUp {t : τ} {op : ι} {seen : Set σ} {result : ρ} (hp : s.phase t = .pending op seen)
      (hbusy : ∃ object ∈ seen, O.busy object op) (hgives : O.givesUp op result) :
      Step O s (.giveUp t) (s.set t (.done result))
  | fail {t : τ} {op : ι} {seen : Set σ} (hp : s.phase t = .pending op seen)
      (hfails : ∃ object ∈ seen, O.fails object op) : Step O s (.fail t) (s.set t .failed)
  | ret {t : τ} {result : ρ} (hp : s.phase t = .done result) :
      Step O s (.ret t (some result)) (s.set t .idle)
  | retFailed {t : τ} (hp : s.phase t = .failed) : Step O s (.ret t none) (s.set t .idle)

/-- Any number of threads that share the object. -/
def shared (O : Object σ τ ι ρ) : System (Shared σ τ ι ρ) (Event τ ι ρ) where
  init s := O.init s.object ∧ ∀ t, s.phase t = .idle
  step := O.Step

variable {O : Object σ τ ι ρ}

/-! ## Paths of one thread -/

/-- Thread `t` alone moves from one phase to another, and shows `actions`. -/
def Goes (O : Object σ τ ι ρ) (t : τ) (object : σ) (phase : Phase σ ι ρ) (actions : List (Action τ ι ρ))
    (object' : σ) (phase' : Phase σ ι ρ) : Prop :=
  ∀ s : Shared σ τ ι ρ, s.object = object → s.phase t = phase → ∃ es,
    O.shared.Path s es ({ s with object := object' }.set t phase') ∧ es.flatMap Event.visible = actions

variable {t : τ} {object object' : σ} {op : ι} {seen : Set σ} {result : ρ}

theorem Shared.set_self {s : Shared σ τ ι ρ} {phase : Phase σ ι ρ} (hp : s.phase t = phase) : s.set t phase = s := by
  subst hp
  exact Shared.ext rfl (Function.update_eq_self t s.phase)

theorem Goes.stay (phase : Phase σ ι ρ) : O.Goes t object phase [] object phase := by
  rintro s rfl hp
  refine ⟨[], ?_, rfl⟩
  rw [Shared.set_self hp]
  exact .nil

theorem Goes.call : O.Goes t object .idle [.call t op] object (.pending op ∅) := by
  rintro s rfl hp
  exact ⟨[.call t op], .single (.call hp), rfl⟩

theorem Goes.see : O.Goes t object (.pending op seen) [] object (.pending op (insert object seen)) := by
  rintro s rfl hp
  exact ⟨[.see t], .single (.see hp), rfl⟩

theorem Goes.effect (h : O.effect object t op result object') :
    O.Goes t object (.pending op seen) [] object' (.done result) := by
  rintro s rfl hp
  exact ⟨[.effect t], .single (.effect hp h), rfl⟩

theorem Goes.giveUp (hbusy : ∃ object ∈ seen, O.busy object op) (h : O.givesUp op result) :
    O.Goes t object (.pending op seen) [] object (.done result) := by
  rintro s rfl hp
  exact ⟨[.giveUp t], .single (.giveUp hp hbusy h), rfl⟩

theorem Goes.fail (h : ∃ object ∈ seen, O.fails object op) : O.Goes t object (.pending op seen) [] object .failed := by
  rintro s rfl hp
  exact ⟨[.fail t], .single (.fail hp h), rfl⟩

theorem Goes.ret : O.Goes t object (.done result) [.ret t (some result)] object .idle := by
  rintro s rfl hp
  exact ⟨[.ret t (some result)], .single (.ret hp), rfl⟩

theorem Goes.retFailed : O.Goes t object .failed [.ret t none] object .idle := by
  rintro s rfl hp
  exact ⟨[.ret t none], .single (.retFailed hp), rfl⟩

theorem Goes.trans {object₁ : σ} {phase phase₁ phase' : Phase σ ι ρ} {actions actions' : List (Action τ ι ρ)}
    (h : O.Goes t object phase actions object₁ phase₁) (h' : O.Goes t object₁ phase₁ actions' object' phase') :
    O.Goes t object phase (actions ++ actions') object' phase' := by
  intro s hobject hp
  obtain ⟨es, hpath, hes⟩ := h s hobject hp
  obtain ⟨es', hpath', hes'⟩ := h' ({ s with object := object₁ }.set t phase₁) rfl (Function.update_self ..)
  refine ⟨es ++ es', hpath.append ?_, ?_⟩
  · simpa only [Shared.set, Function.update_idem] using hpath'
  · rw [List.flatMap_append, hes, hes']

/-! ## One step -/

theorem Shared.set_phase (s : Shared σ τ ι ρ) (t : τ) (phase : Phase σ ι ρ) : (s.set t phase).phase t = phase :=
  Function.update_self ..

theorem Shared.set_other (s : Shared σ τ ι ρ) {t u : τ} (phase : Phase σ ι ρ) (h : u ≠ t) :
    (s.set t phase).phase u = s.phase u :=
  Function.update_of_ne h ..

/-- Where the operation that a thread is waiting for comes from. -/
theorem Step.pending {s s' : Shared σ τ ι ρ} {e : Event τ ι ρ} (h : O.Step s e s')
    (hp : s'.phase t = .pending op seen) : (∃ seen', s.phase t = .pending op seen') ∨ e = .call t op := by
  cases h with
  | @call u op' hu =>
    by_cases ht : t = u
    · subst ht
      rw [Shared.set_phase] at hp
      cases hp
      exact Or.inr rfl
    · rw [Shared.set_other _ _ ht] at hp
      exact Or.inl ⟨seen, hp⟩
  | @see u op' seen' hu =>
    by_cases ht : t = u
    · subst ht
      rw [Shared.set_phase] at hp
      cases hp
      exact Or.inl ⟨seen', hu⟩
    · rw [Shared.set_other _ _ ht] at hp
      exact Or.inl ⟨seen, hp⟩
  | @effect u _ _ _ _ hu | @giveUp u _ _ _ hu | @fail u _ _ hu | @ret u _ hu | @retFailed u hu =>
    by_cases ht : t = u
    · subst ht
      rw [Shared.set_phase] at hp
      cases hp
    · rw [Shared.set_other _ _ ht] at hp
      exact Or.inl ⟨seen, hp⟩

/-! ## What the threads cannot change -/

/-- An invariant of the operations is an invariant of the shared object. -/
theorem shared_invariant {P : σ → Prop} (hinit : ∀ object, O.init object → P object)
    (heffect : ∀ object t op result object', P object → O.effect object t op result object' → P object')
    {s : Shared σ τ ι ρ} (h : O.shared.Reachable s) : P s.object := by
  refine h.invariant (P := fun s => P s.object) ?_ ?_
  · intro s hs
    exact hinit _ hs.1
  · intro s e s' hs hstep
    cases hstep with
    | effect hp h => exact heffect _ _ _ _ _ hs h
    | _ => exact hs

/-! ## One thread alone -/

/-- What an operation has done once it has returned to thread `t`, which has the object to itself. -/
def Answers (O : Object σ τ ι ρ) (t : τ) (object : σ) (op : ι) (object' : σ) : Option ρ → Prop
  | some result =>
    O.effect object t op result object' ∨ O.busy object op ∧ O.givesUp op result ∧ object' = object
  | none => O.fails object op ∧ object' = object

/-- The histories of whole calls of thread `t` alone, and what they make of the object. -/
inductive Serial (O : Object σ τ ι ρ) (t : τ) (start : σ) : List (Action τ ι ρ) → σ → Prop
  | nil : Serial O t start [] start
  | call {actions : List (Action τ ι ρ)} {object object' : σ} {op : ι} {result : Option ρ}
      (h : Serial O t start actions object) (hanswers : O.Answers t object op object' result) :
      Serial O t start (actions ++ [.call t op, .ret t result]) object'

/-- Thread `t` is in such a history. Before its operation takes effect it sees the object as it was at the
call. -/
def Along (O : Object σ τ ι ρ) (t : τ) (start : σ) (actions : List (Action τ ι ρ)) (object : σ) :
    Phase σ ι ρ → Prop
  | .idle => O.Serial t start actions object
  | .pending op seen => seen ⊆ {object} ∧
    ∃ before, actions = before ++ [.call t op] ∧ O.Serial t start before object
  | .done result => ∃ before op called, actions = before ++ [.call t op] ∧
    O.Serial t start before called ∧ O.Answers t called op object (some result)
  | .failed => ∃ before op called, actions = before ++ [.call t op] ∧
    O.Serial t start before called ∧ O.Answers t called op object none

section Alone

variable {s s' : Shared σ τ ι ρ} {actions : List (Action τ ι ρ)} {start : σ}

omit [DecidableEq τ] in
/-- The return of a call makes the history longer. -/
theorem Serial.ret {before : List (Action τ ι ρ)} {called : σ} {result : Option ρ}
    (hactions : actions = before ++ [.call t op]) (h : O.Serial t start before called)
    (hanswers : O.Answers t called op object result) : O.Serial t start (actions ++ [.ret t result]) object := by
  rw [hactions, List.append_assoc]
  exact h.call hanswers

variable [Subsingleton τ]

theorem Along.step {e : Event τ ι ρ} (h : O.Along t start actions s.object (s.phase t)) (hstep : O.Step s e s') :
    O.Along t start (actions ++ e.visible) s'.object (s'.phase t) := by
  cases hstep with
  | @call u op hp =>
    obtain rfl := Subsingleton.elim u t
    rw [hp] at h
    rw [Shared.set_phase]
    exact ⟨Set.empty_subset _, actions, rfl, h⟩
  | @see u op seen hp =>
    obtain rfl := Subsingleton.elim u t
    rw [hp] at h
    obtain ⟨hseen, before, hactions, hserial⟩ := h
    rw [Shared.set_phase]
    exact ⟨Set.insert_subset rfl hseen, before, (List.append_nil actions).trans hactions, hserial⟩
  | @effect u op seen result object hp heffect =>
    obtain rfl := Subsingleton.elim u t
    rw [hp] at h
    obtain ⟨-, before, hactions, hserial⟩ := h
    rw [Shared.set_phase]
    exact ⟨before, op, s.object, (List.append_nil actions).trans hactions, hserial, Or.inl heffect⟩
  | @giveUp u op seen result hp hbusy hgives =>
    obtain rfl := Subsingleton.elim u t
    rw [hp] at h
    obtain ⟨hseen, before, hactions, hserial⟩ := h
    obtain ⟨object, hmem, hbusy⟩ := hbusy
    obtain rfl := hseen hmem
    rw [Shared.set_phase]
    exact ⟨before, op, _, (List.append_nil actions).trans hactions, hserial, Or.inr ⟨hbusy, hgives, rfl⟩⟩
  | @fail u op seen hp hfails =>
    obtain rfl := Subsingleton.elim u t
    rw [hp] at h
    obtain ⟨hseen, before, hactions, hserial⟩ := h
    obtain ⟨object, hmem, hfails⟩ := hfails
    obtain rfl := hseen hmem
    rw [Shared.set_phase]
    exact ⟨before, op, _, (List.append_nil actions).trans hactions, hserial, hfails, rfl⟩
  | @ret u result hp =>
    obtain rfl := Subsingleton.elim u t
    rw [hp] at h
    obtain ⟨before, op, called, hactions, hserial, hanswers⟩ := h
    rw [Shared.set_phase]
    exact hserial.ret hactions hanswers
  | @retFailed u hp =>
    obtain rfl := Subsingleton.elim u t
    rw [hp] at h
    obtain ⟨before, op, called, hactions, hserial, hanswers⟩ := h
    rw [Shared.set_phase]
    exact hserial.ret hactions hanswers

theorem Along.path {es : List (Event τ ι ρ)} (h : O.Along t start actions s.object (s.phase t))
    (hpath : O.shared.Path s es s') :
    O.Along t start (actions ++ es.flatMap Event.visible) s'.object (s'.phase t) := by
  induction hpath generalizing actions with
  | nil => rwa [List.flatMap_nil, List.append_nil]
  | cons hstep _ ih =>
    rw [List.flatMap_cons, ← List.append_assoc]
    exact ih (h.step hstep)

/-- A thread alone calls one operation after the other. -/
theorem serial_of_path {es : List (Event τ ι ρ)} (hinit : O.shared.init s) (hpath : O.shared.Path s es s')
    (hidle : s'.phase t = .idle) : O.Serial t s.object (es.flatMap Event.visible) s'.object := by
  have hstart : O.Along t s.object [] s.object (s.phase t) := by
    rw [hinit.2 t]
    exact .nil
  have hend := hstart.path hpath
  rw [hidle] at hend
  exact hend

end Alone

end Object

end Transition
