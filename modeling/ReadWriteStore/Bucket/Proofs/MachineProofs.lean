import ReadWriteStore.Bucket.Proofs.BlockProofs

/-!
# What a step of a bucket can do

`Move` lists the steps with their guards. Readers share the lock and a writer has it alone
(`Guarded`), so a step that changes the chain or the counter under the write lock sees it as the
steps before it left it (`Inv`). A `fetch_add` that wraps around is outside the invariant.
-/

namespace ReadWriteStore.Bucket

/-! ## Inversion of a step -/

/-- Where a thread goes on after it has added one to the counter. -/
def Point.afterFetch : Point → Checked (Option Location) → Control
  | .fetch => fun location => .running (.unlockRead location)
  | .slowFetch => afterSlowFetch
  | .refetch => afterRefetch
  | point => fun _ => .running point

/-- What `step` can do on an event. -/
inductive Move {T : Type} [DecidableEq T] (build : Build) (s : State T) : Event T → State T → Prop
  | call {t : T} {c : Call} (h : s.control t = .idle) :
      Move build s (.call t c) (s.setControl t (start c))
  | lockRead {t : T} {point next : Point} (h : s.control t = .running point)
      (hpoint : point = .lockRead ∧ next = .fetch ∨ point = .capacityLockRead ∧ next = .capacityLoad)
      (hfree : s.writer = none) :
      Move build s (.act t) ({ s with readers := t :: s.readers }.setControl t (.running next))
  | fetch {t : T} {point : Point} (h : s.control t = .running point) (hf : point.Fetches) :
      Move build s (.act t) ({ s with inner := (s.inner.nextInsertLocation build).1 }.setControl t
        (point.afterFetch (s.inner.nextInsertLocation build).2))
  | unlockRead {t : T} {location : Checked (Option Location)}
      (h : s.control t = .running (.unlockRead location)) :
      Move build s (.act t)
        ({ s with readers := s.readers.erase t }.setControl t (afterFetch location))
  | lockWrite {t : T} (h : s.control t = .running .lockWrite) (hfree : s.writer = none)
      (hnone : s.readers = []) :
      Move build s (.act t) ({ s with writer := some t }.setControl t (.running .slowFetch))
  | expand {t : T} (h : s.control t = .running .expand) :
      Move build s (.act t) ({ s with inner := (s.inner.expand build).1 }.setControl t
        (afterExpand (s.inner.expand build).2))
  | unlockWrite {t : T} {location : Checked Location}
      (h : s.control t = .running (.unlockWrite location)) :
      Move build s (.act t) ({ s with writer := none }.setControl t (afterUnlockWrite location))
  | load {t : T} (h : s.control t = .running .capacityLoad) :
      Move build s (.act t) (s.setControl t
        (.running (.capacityUnlockRead s.inner.headSize s.inner.nextUnusedSlot)))
  | compute {t : T} {headSize used : UInt32}
      (h : s.control t = .running (.capacityUnlockRead headSize used)) :
      Move build s (.act t) ({ s with readers := s.readers.erase t }.setControl t
        (afterCapacity (capacity build headSize used)))
  | ret {t : T} (h : (∃ r, s.control t = .returned r) ∨ ∃ fault, s.control t = .faulted fault) :
      Move build s (.ret t) (s.setControl t .idle)

section Machine

variable {T : Type} [DecidableEq T] {build : Build} {s s' : State T}

theorem Move.of_act {t : T} {point : Point} (h : s.control t = .running point)
    (hs : s.act build t point = some s') : Move build s (.act t) s' := by
  cases point with
  | lockRead =>
    simp only [State.act] at hs
    split at hs
    · rename_i hfree
      cases hs
      exact .lockRead h (Or.inl ⟨rfl, rfl⟩) hfree
    · cases hs
  | fetch => cases hs; exact .fetch h trivial
  | unlockRead location => cases hs; exact .unlockRead h
  | lockWrite =>
    simp only [State.act] at hs
    split at hs
    · rename_i hfree
      cases hs
      exact .lockWrite h hfree.1 hfree.2
    · cases hs
  | slowFetch => cases hs; exact .fetch h trivial
  | expand => cases hs; exact .expand h
  | refetch => cases hs; exact .fetch h trivial
  | unlockWrite location => cases hs; exact .unlockWrite h
  | capacityLockRead =>
    simp only [State.act] at hs
    split at hs
    · rename_i hfree
      cases hs
      exact .lockRead h (Or.inr ⟨rfl, rfl⟩) hfree
    · cases hs
  | capacityLoad => cases hs; exact .load h
  | capacityUnlockRead headSize used => cases hs; exact .compute h

theorem Move.of_step {e : Event T} (h : step build s e = some s') : Move build s e s' := by
  cases e with
  | call t c =>
    simp only [step] at h
    split at h
    · rename_i hidle
      cases h
      exact .call hidle
    · cases h
  | act t =>
    simp only [step] at h
    split at h
    · rename_i point hc
      exact .of_act hc h
    · cases h
  | ret t =>
    simp only [step] at h
    split at h
    · rename_i r hc
      cases h
      exact .ret (Or.inl ⟨r, hc⟩)
    · rename_i fault hc
      cases h
      exact .ret (Or.inr ⟨fault, hc⟩)
    · cases h

@[simp] theorem State.setControl_self (t : T) (control : Control) :
    (s.setControl t control).control t = control :=
  Function.update_self ..

/-- A step changes the control of its own thread only. -/
theorem Move.control_ne {e : Event T} (hm : Move build s e s') {u : T} (hu : u ≠ e.thread) :
    s'.control u = s.control u := by
  cases hm <;> exact Function.update_of_ne hu _ _

/-- Inside a call a thread moves on by its own next step. -/
theorem Move.eq_act {e : Event T} {point : Point} (hm : Move build s e s')
    (hc : s.control e.thread = .running point) : e = .act e.thread := by
  cases hm with
  | call hidle => cases hidle.symm.trans hc
  | ret hdone =>
    rcases hdone with ⟨r, hdone⟩ | ⟨fault, hdone⟩
    · cases hdone.symm.trans hc
    · cases hdone.symm.trans hc
  | _ => rfl

theorem Move.ret_control {e : Event T} {t : T} (hm : Move build s e s') (he : e = .ret t) :
    s'.control t = .idle := by
  subst he
  cases hm
  exact State.setControl_self ..

omit [DecidableEq T] in
theorem State.not_wraps {control : Control} {t : T} (hc : s.control t = control)
    (hne : ∀ point, control ≠ .running point) : ¬s.Wraps t := by
  unfold State.Wraps
  rw [hc]
  split
  · rename_i point
    exact absurd rfl (hne point)
  · exact not_false

/-- Only a step inside a call can wrap the counter around. -/
theorem Move.not_wraps {e : Event T} (hm : Move build s e s') (he : ∀ t, e ≠ .act t) :
    ¬s.Wraps e.thread := by
  cases hm with
  | call hidle => exact State.not_wraps hidle nofun
  | ret hdone =>
    rcases hdone with ⟨r, hdone⟩ | ⟨fault, hdone⟩
    · exact State.not_wraps hdone nofun
    · exact State.not_wraps hdone nofun
  | _ => exact absurd rfl (he _)

/-- A list of events that can be replayed is a run. -/
theorem run_of_replay (build : Build) (es : List (Event T)) (d : Event T)
    (hes : (Transition.System.replay (step build) (fun _ _ => True) State.init es).isSome = true) :
    (machine build T).Run es.length
      (Transition.System.trace (step build) (fun _ _ => True) State.init es) (es.getD · d) :=
  @Transition.System.Run.of_replay _ _ (· = State.init) _ _ _ State.init rfl es d hes

/-! ## The lock -/

def Control.reading : Control → Bool
  | .running .fetch | .running (.unlockRead _) | .running .capacityLoad
  | .running (.capacityUnlockRead _ _) => true
  | _ => false

def Control.writing : Control → Bool
  | .running .slowFetch | .running .expand | .running .refetch | .running (.unlockWrite _) => true
  | _ => false

/-- The lock is held by the threads that are where one holds it. -/
structure State.Guarded (s : State T) : Prop where
  readers : ∀ t, s.readers.count t = if (s.control t).reading then 1 else 0
  writer : ∀ t, s.writer = some t ↔ (s.control t).writing = true
  exclusive : ∀ t, s.writer = some t → s.readers = []

namespace State.Guarded

theorem init : (State.init : State T).Guarded where
  readers t := rfl
  writer t := by simp [State.init, Control.writing]
  exclusive t h := by cases h

theorem not_reading (h : s.Guarded) {t u : T} (hw : (s.control t).writing = true) :
    (s.control u).reading = false := by
  have hr := h.readers u
  rw [h.exclusive t ((h.writer t).2 hw)] at hr
  by_contra hn
  rw [Bool.not_eq_false] at hn
  rw [hn] at hr
  cases hr

theorem writer_unique (h : s.Guarded) {t u : T} (hw : (s.control t).writing = true)
    (hu : (s.control u).writing = true) : u = t := by
  have ht := (h.writer t).2 hw
  rw [(h.writer u).2 hu] at ht
  exact Option.some.inj ht

/-- A step that leaves the lock alone. -/
theorem keep (h : s.Guarded) {t : T} {control : Control} (inner : Inner)
    (hr : control.reading = (s.control t).reading) (hw : control.writing = (s.control t).writing) :
    ({ s with inner := inner }.setControl t control).Guarded where
  readers u := by
    by_cases hu : u = t
    · subst hu
      simp only [State.setControl, Function.update_self]
      rw [hr]
      exact h.readers u
    · simp only [State.setControl, Function.update_of_ne hu]
      exact h.readers u
  writer u := by
    by_cases hu : u = t
    · subst hu
      simp only [State.setControl, Function.update_self]
      rw [hw]
      exact h.writer u
    · simp only [State.setControl, Function.update_of_ne hu]
      exact h.writer u
  exclusive := h.exclusive

theorem acquireRead (h : s.Guarded) {t : T} {control : Control} (hfree : s.writer = none)
    (hold : (s.control t).reading = false) (hr : control.reading = true)
    (hw : control.writing = false) :
    ({ s with readers := t :: s.readers }.setControl t control).Guarded where
  readers u := by
    have hu' := h.readers u
    by_cases hu : u = t
    · subst hu
      rw [hold] at hu'
      simpa [State.setControl, hr] using hu'
    · have hne : t ≠ u := fun he => hu he.symm
      simpa [State.setControl, hu, hne] using hu'
  writer u := by
    by_cases hu : u = t
    · subst hu
      simp [State.setControl, hfree, hw]
    · simpa [State.setControl, hu] using h.writer u
  exclusive u hu := by
    have hu' : s.writer = some u := hu
    rw [hfree] at hu'
    cases hu'

theorem releaseRead (h : s.Guarded) {t : T} {control : Control}
    (hold : (s.control t).reading = true) (hr : control.reading = false)
    (hw : control.writing = false) :
    ({ s with readers := s.readers.erase t }.setControl t control).Guarded where
  readers u := by
    have hu' := h.readers u
    by_cases hu : u = t
    · subst hu
      rw [hold] at hu'
      simp [State.setControl, hr, List.count_erase_self, hu']
    · simpa [State.setControl, hu, List.count_erase_of_ne hu] using hu'
  writer u := by
    by_cases hu : u = t
    · subst hu
      have hne : ¬s.writer = some u := by
        intro he
        have := h.not_reading (u := u) ((h.writer u).1 he)
        rw [hold] at this
        cases this
      simp [State.setControl, hw, hne]
    · simpa [State.setControl, hu] using h.writer u
  exclusive u hu := by
    have hu' : s.writer = some u := hu
    show s.readers.erase t = []
    rw [h.exclusive u hu']
    rfl

theorem acquireWrite (h : s.Guarded) {t : T} {control : Control} (hfree : s.writer = none)
    (hnone : s.readers = []) (hr : control.reading = false) (hw : control.writing = true) :
    ({ s with writer := some t }.setControl t control).Guarded where
  readers u := by
    have hu' := h.readers u
    by_cases hu : u = t
    · subst hu
      simp [State.setControl, hr, hnone]
    · simpa [State.setControl, hu] using hu'
  writer u := by
    by_cases hu : u = t
    · subst hu
      simp [State.setControl, hw]
    · have hother := h.writer u
      rw [hfree] at hother
      have hne : ¬t = u := fun he => hu he.symm
      simpa [State.setControl, hu, hne] using hother
  exclusive u _ := hnone

theorem releaseWrite (h : s.Guarded) {t : T} {control : Control}
    (hold : (s.control t).writing = true) (hr : control.reading = false)
    (hw : control.writing = false) :
    ({ s with writer := none }.setControl t control).Guarded where
  readers u := by
    have hu' := h.readers u
    by_cases hu : u = t
    · subst hu
      rw [h.not_reading hold] at hu'
      simpa [State.setControl, hr] using hu'
    · simpa [State.setControl, hu] using hu'
  writer u := by
    by_cases hu : u = t
    · subst hu
      simp [State.setControl, hw]
    · have hn : (s.control u).writing = false := by
        by_contra hn
        rw [Bool.not_eq_false] at hn
        exact hu (h.writer_unique hold hn)
      simp [State.setControl, hu, hn]
  exclusive u hu := by cases hu

end State.Guarded

theorem afterFetch_class (location : Checked (Option Location)) :
    (afterFetch location).reading = false ∧ (afterFetch location).writing = false := by
  rcases location with fault | _ | location <;> exact ⟨rfl, rfl⟩

theorem Point.afterFetch_class {point : Point} (hf : point.Fetches)
    (location : Checked (Option Location)) :
    (point.afterFetch location).reading = (Control.running point).reading ∧
      (point.afterFetch location).writing = (Control.running point).writing := by
  cases point with
  | fetch => exact ⟨rfl, rfl⟩
  | slowFetch => rcases location with fault | _ | location <;> exact ⟨rfl, rfl⟩
  | refetch => rcases location with fault | _ | location <;> exact ⟨rfl, rfl⟩
  | _ => exact absurd hf not_false

theorem afterUnlockWrite_class (location : Checked Location) :
    (afterUnlockWrite location).reading = false ∧ (afterUnlockWrite location).writing = false := by
  rcases location with fault | location <;> exact ⟨rfl, rfl⟩

theorem afterCapacity_class (result : Checked (UInt32 × UInt32)) :
    (afterCapacity result).reading = false ∧ (afterCapacity result).writing = false := by
  rcases result with fault | ⟨touched, allocated⟩ <;> exact ⟨rfl, rfl⟩

theorem State.Guarded.move (h : s.Guarded) {e : Event T} (hm : Move build s e s') : s'.Guarded := by
  cases hm with
  | @call t c hc =>
    exact h.keep s.inner (by rw [hc]; cases c <;> rfl) (by rw [hc]; cases c <;> rfl)
  | lockRead hc hpoint hfree =>
    rcases hpoint with ⟨rfl, rfl⟩ | ⟨rfl, rfl⟩
    · exact h.acquireRead hfree (by rw [hc]; rfl) rfl rfl
    · exact h.acquireRead hfree (by rw [hc]; rfl) rfl rfl
  | fetch hc hf =>
    obtain ⟨hr, hw⟩ := Point.afterFetch_class hf (s.inner.nextInsertLocation build).2
    exact h.keep _ (by rw [hc, hr]) (by rw [hc, hw])
  | @unlockRead t location hc =>
    obtain ⟨hr, hw⟩ := afterFetch_class location
    exact h.releaseRead (by rw [hc]; rfl) hr hw
  | lockWrite hc hfree hnone => exact h.acquireWrite hfree hnone rfl rfl
  | expand hc =>
    refine h.keep _ ?_ ?_
    · rw [hc]; cases (s.inner.expand build).2 <;> rfl
    · rw [hc]; cases (s.inner.expand build).2 <;> rfl
  | @unlockWrite t location hc =>
    obtain ⟨hr, hw⟩ := afterUnlockWrite_class location
    exact h.releaseWrite (by rw [hc]; rfl) hr hw
  | load hc => exact h.keep s.inner (by rw [hc]; rfl) (by rw [hc]; rfl)
  | @compute t headSize used hc =>
    obtain ⟨hr, hw⟩ := afterCapacity_class (capacity build headSize used)
    exact h.releaseRead (by rw [hc]; rfl) hr hw
  | ret hc =>
    rcases hc with ⟨r, hc⟩ | ⟨fault, hc⟩
    · exact h.keep s.inner (by rw [hc]; rfl) (by rw [hc]; rfl)
    · exact h.keep s.inner (by rw [hc]; rfl) (by rw [hc]; rfl)

end Machine

end ReadWriteStore.Bucket
