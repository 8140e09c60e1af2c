import ReadWriteStore.Bucket.Proofs.MachineProofs

/-!
# The invariant of a bucket

As long as no `fetch_add` wraps the counter around, the chain doubles, it grows only when its head is
full, and a location that a thread carries away was handed out to it alone.
-/

namespace ReadWriteStore.Bucket

/-! ## What a thread knows -/

/-- What a thread has established by its own steps. No fault of a bucket breaks a contract. -/
def Control.Ok (inner : Inner) : Control → Prop
  | .running .expand => inner.headSize ≤ inner.nextUnusedSlot
  | .running .refetch => inner.blocks ≠ [] ∧ inner.nextUnusedSlot = 0
  | .running (.unlockRead (.error _)) => False
  | .running (.unlockWrite (.error fault)) | .faulted fault => fault.isBreach = false
  | _ => True

structure State.Inv {T : Type} (build : Build) (s : State T) : Prop where
  chain : s.inner.Chain build
  ok : ∀ t, (s.control t).Ok s.inner
  located : ∀ t location, (s.control t).location = some location → s.inner.HandedOut location

/-- Only a writer depends on the chain and the counter. -/
theorem Control.Ok.of_not_writing {control : Control} (hw : control.writing = false) {inner : Inner}
    (inner' : Inner) (h : control.Ok inner) : control.Ok inner' := by
  rcases control with _ | point | result | fault
  · trivial
  · cases point with
    | expand | refetch | unlockWrite => cases hw
    | unlockRead location => cases location <;> exact h
    | _ => trivial
  · trivial
  · exact h

variable {T : Type} {build : Build} {s s' : State T}

namespace State.Inv

theorem init : (State.init : State T).Inv build where
  chain := ⟨trivial, fun _ => Nat.zero_le _⟩
  ok _ := trivial
  located t location h := by cases h

theorem running (h : s.Inv build) {t : T} {point : Point} (hc : s.control t = .running point) :
    (Control.running point).Ok s.inner := by
  rw [← hc]
  exact h.ok t

variable [DecidableEq T]

/-- A step of `t` that leaves the chain and the counter alone. -/
theorem keep (h : s.Inv build) {t : T} {control : Control} (readers : List T) (writer : Option T)
    (hok : control.Ok s.inner)
    (hloc : ∀ location, control.location = some location → s.inner.HandedOut location) :
    ({ s with readers := readers, writer := writer }.setControl t control).Inv build where
  chain := h.chain
  ok u := by
    by_cases hu : u = t
    · subst hu
      simpa [State.setControl] using hok
    · simpa [State.setControl, hu] using h.ok u
  located u location hl := by
    by_cases hu : u = t
    · subst hu
      exact hloc location (by simpa [State.setControl] using hl)
    · exact h.located u location (by simpa [State.setControl, hu] using hl)

/-- A step of `t` on the chain or the counter, under a lock that no other writer has. -/
theorem change (h : s.Inv build) {t : T} {control : Control} {inner : Inner}
    (hchain : inner.Chain build) (hout : ∀ location, s.inner.HandedOut location → inner.HandedOut location)
    (hothers : ∀ u, u ≠ t → (s.control u).writing = false) (hok : control.Ok inner)
    (hloc : ∀ location, control.location = some location → inner.HandedOut location) :
    ({ s with inner := inner }.setControl t control).Inv build where
  chain := hchain
  ok u := by
    by_cases hu : u = t
    · subst hu
      simpa [State.setControl] using hok
    · have hother := (h.ok u).of_not_writing (hothers u hu) inner
      simpa [State.setControl, hu] using hother
  located u location hl := by
    by_cases hu : u = t
    · subst hu
      exact hloc location (by simpa [State.setControl] using hl)
    · exact hout location (h.located u location (by simpa [State.setControl, hu] using hl))

end State.Inv

/-! ## One step -/

variable [DecidableEq T]

/-- While a thread has the lock in either mode, no other thread is a writer. -/
theorem State.Guarded.others (h : s.Guarded) {t : T}
    (hheld : (s.control t).reading = true ∨ (s.control t).writing = true) {u : T} (hu : u ≠ t) :
    (s.control u).writing = false := by
  by_contra hn
  rw [Bool.not_eq_false] at hn
  rcases hheld with hr | hw
  · have := h.not_reading (u := t) hn
    rw [hr] at this
    cases this
  · exact hu (h.writer_unique hw hn)

/-- What a step of thread `t` hands out: nothing, or one new location to the thread itself. -/
inductive Handout (s s' : State T) (t : T) : Prop
  | same (hout : ∀ location, s'.inner.HandedOut location ↔ s.inner.HandedOut location)
      (hloc : (s'.control t).location = (s.control t).location)
  | fresh {location : Location} (hnew : ¬s.inner.HandedOut location)
      (hout : ∀ location', s'.inner.HandedOut location' ↔
        s.inner.HandedOut location' ∨ location' = location)
      (hnone : (s.control t).location = none) (hsome : (s'.control t).location = some location)

/-- A `fetch_add` that does not wrap. -/
theorem State.Inv.fetch (h : s.Inv build) (hg : s.Guarded) {t : T} {point : Point}
    (hc : s.control t = .running point) (hf : point.Fetches) (hwrap : ¬s.Wraps t)
    (hs : s' = { s with inner := (s.inner.nextInsertLocation build).1 }.setControl t
      (point.afterFetch (s.inner.nextInsertLocation build).2)) :
    s'.Inv build ∧ Handout s s' t := by
  have hheld : (s.control t).reading = true ∨ (s.control t).writing = true := by
    rw [hc]
    cases point with
    | fetch => exact Or.inl rfl
    | slowFetch => exact Or.inr rfl
    | refetch => exact Or.inr rfl
    | _ => exact absurd hf not_false
  have hno : s.inner.blocks = [] ∨ s.inner.nextUnusedSlot ≠ 0xFFFFFFFF := by
    by_contra hn
    push Not at hn
    refine hwrap ?_
    unfold State.Wraps
    rw [hc]
    exact ⟨hf, hn⟩
  have hnone : (s.control t).location = none := by
    rw [hc]
    cases point with
    | fetch => rfl
    | slowFetch => rfl
    | refetch => rfl
    | _ => exact absurd hf not_false
  have hfetched := Inner.fetched build h.chain.1 hno
  have hself : (s'.control t) = point.afterFetch (s.inner.nextInsertLocation build).2 := by
    rw [hs]
    exact Function.update_self ..
  generalize hr : s.inner.nextInsertLocation build = r at hfetched hs hself
  cases hfetched with
  | @full inner' hblocks hout hfull =>
    have hlocation : (point.afterFetch (.ok none)).location = none := by
      cases point with
      | fetch => rfl
      | slowFetch => rfl
      | refetch => rfl
      | _ => exact absurd hf not_false
    refine ⟨?_, .same (fun location => ?_) ?_⟩
    · rw [hs]
      refine h.change ?_ (fun location => (hout location).2)
        (fun u hu => hg.others hheld hu) ?_ ?_
      · unfold Inner.Chain
        rw [hblocks]
        exact h.chain
      · cases point with
        | fetch => trivial
        | slowFetch => exact hfull
        | refetch => rfl
        | _ => exact absurd hf not_false
      · intro location hl
        rw [hlocation] at hl
        cases hl
    · rw [hs]
      exact hout location
    · rw [hself, hnone]
      exact hlocation
  | @slot inner' location hblocks hfresh hout =>
    have hlocation : (point.afterFetch (.ok (some location))).location = some location := by
      cases point with
      | fetch => rfl
      | slowFetch => rfl
      | refetch => rfl
      | _ => exact absurd hf not_false
    refine ⟨?_, .fresh hfresh (fun location' => ?_) hnone ?_⟩
    · rw [hs]
      refine h.change ?_ (fun location' hl => (hout location').2 (Or.inl hl))
        (fun u hu => hg.others hheld hu) ?_ ?_
      · unfold Inner.Chain
        rw [hblocks]
        exact h.chain
      · cases point with
        | fetch => trivial
        | slowFetch => trivial
        | refetch => trivial
        | _ => exact absurd hf not_false
      · intro location' hl
        rw [hlocation] at hl
        cases hl
        exact (hout location).2 (Or.inr rfl)
    · rw [hs]
      exact hout location'
    · rw [hself]
      exact hlocation

/-- The growth of a full chain. -/
theorem State.Inv.expand (h : s.Inv build) (hg : s.Guarded) {t : T}
    (hc : s.control t = .running .expand)
    (hs : s' = { s with inner := (s.inner.expand build).1 }.setControl t
      (afterExpand (s.inner.expand build).2)) :
    s'.Inv build ∧ Handout s s' t := by
  have hheld : (s.control t).writing = true := by
    rw [hc]
    rfl
  have hexp := Inner.expanded h.chain (h.running hc)
  have hself : (s'.control t) = afterExpand (s.inner.expand build).2 := by
    rw [hs]
    exact Function.update_self ..
  generalize s.inner.expand build = r at hexp hs hself
  cases hexp with
  | @grown inner' hchain hnext hblocks hout =>
    refine ⟨?_, .same (fun location => ?_) ?_⟩
    · rw [hs]
      refine h.change hchain (fun location => (hout location).2)
        (fun u hu => hg.others (Or.inr hheld) hu) ⟨?_, hnext⟩ fun location hl => by cases hl
      rw [hblocks]
      exact List.cons_ne_nil _ _
    · rw [hs]
      exact hout location
    · rw [hself, hc]
      rfl
  | panicked hbuild hlen =>
    refine ⟨?_, .same (fun location => ?_) ?_⟩
    · rw [hs]
      exact h.keep s.readers s.writer rfl fun location hl => by cases hl
    · rw [hs]
      exact Iff.rfl
    · rw [hself, hc]
      rfl

theorem addU32_breach {a b : UInt32} {fault : Fault} (h : addU32 build a b = .error fault) :
    fault.isBreach = false := by
  unfold addU32 at h
  split at h <;> cases h
  rfl

theorem subU32_breach {a b : UInt32} {fault : Fault} (h : subU32 build a b = .error fault) :
    fault.isBreach = false := by
  unfold subU32 at h
  split at h <;> cases h
  rfl

theorem mulU32_breach {a b : UInt32} {fault : Fault} (h : mulU32 build a b = .error fault) :
    fault.isBreach = false := by
  unfold mulU32 at h
  split at h <;> cases h
  rfl

theorem totalSizeLoop_breach {headSize : UInt32} {fault : Fault} : ∀ fuel {total size : UInt32},
    totalSizeLoop build headSize fuel total size = .error fault → fault.isBreach = false := by
  intro fuel
  induction fuel with
  | zero =>
    intro total size h
    cases h
    rfl
  | succ fuel ih =>
    intro total size h
    unfold totalSizeLoop at h
    split at h
    · rcases Checked.bind_eq_error h with h | ⟨total', -, h⟩
      · exact addU32_breach h
      · rcases Checked.bind_eq_error h with h | ⟨size', -, h⟩
        · exact mulU32_breach h
        · exact ih h
    · cases h

/-- `capacity` can only go wrong in its arithmetic. -/
theorem capacity_breach {headSize used : UInt32} {fault : Fault}
    (h : capacity build headSize used = .error fault) : fault.isBreach = false := by
  unfold capacity at h
  rcases Checked.bind_eq_error h with h | ⟨allocated, -, h⟩
  · exact totalSizeLoop_breach _ h
  rcases Checked.bind_eq_error h with h | ⟨total, -, h⟩
  · exact totalSizeLoop_breach _ h
  rcases Checked.bind_eq_error h with h | ⟨unused, -, h⟩
  · exact subU32_breach h
  rcases Checked.bind_eq_error h with h | ⟨touched, -, h⟩
  · exact subU32_breach h
  · cases h

/-- A step of a thread keeps the invariant and hands out at most one location. -/
theorem State.Inv.act (h : s.Inv build) (hg : s.Guarded) {t : T} (hwrap : ¬s.Wraps t)
    (hm : Move build s (.act t) s') : s'.Inv build ∧ Handout s s' t := by
  cases hm with
  | lockRead hc hpoint hfree =>
    rcases hpoint with ⟨rfl, rfl⟩ | ⟨rfl, rfl⟩
    · refine ⟨h.keep _ s.writer trivial fun _ hl => (by cases hl), .same (fun _ => Iff.rfl) ?_⟩
      rw [hc, State.setControl_self]
      rfl
    · refine ⟨h.keep _ s.writer trivial fun _ hl => (by cases hl), .same (fun _ => Iff.rfl) ?_⟩
      rw [hc, State.setControl_self]
      rfl
  | fetch hc hf => exact h.fetch hg hc hf hwrap rfl
  | @unlockRead _ location hc =>
    have hok := h.running hc
    have hloc : (afterFetch location).location = (s.control t).location := by
      rw [hc]
      rcases location with fault | _ | location <;> rfl
    refine ⟨h.keep _ s.writer ?_ fun l hl => ?_, .same (fun _ => Iff.rfl) ?_⟩
    · rcases location with fault | _ | location
      · exact absurd hok not_false
      · trivial
      · trivial
    · exact h.located t l (by rw [← hloc]; exact hl)
    · rw [State.setControl_self]
      exact hloc
  | lockWrite hc hfree hnone =>
    refine ⟨h.keep s.readers _ trivial fun _ hl => (by cases hl), .same (fun _ => Iff.rfl) ?_⟩
    rw [hc, State.setControl_self]
    rfl
  | expand hc => exact h.expand hg hc rfl
  | @unlockWrite _ location hc =>
    have hok := h.running hc
    have hloc : (afterUnlockWrite location).location = (s.control t).location := by
      rw [hc]
      rcases location with fault | location <;> rfl
    refine ⟨h.keep s.readers _ ?_ fun l hl => ?_, .same (fun _ => Iff.rfl) ?_⟩
    · rcases location with fault | location
      · exact hok
      · trivial
    · exact h.located t l (by rw [← hloc]; exact hl)
    · rw [State.setControl_self]
      exact hloc
  | load hc =>
    refine ⟨h.keep s.readers s.writer trivial fun _ hl => (by cases hl), .same (fun _ => Iff.rfl) ?_⟩
    rw [hc, State.setControl_self]
    rfl
  | @compute _ headSize used hc =>
    have hnone : (afterCapacity (capacity build headSize used)).location = none := by
      cases capacity build headSize used <;> rfl
    refine ⟨h.keep _ s.writer ?_ fun l hl => ?_, .same (fun _ => Iff.rfl) ?_⟩
    · cases hcap : capacity build headSize used with
      | ok result => trivial
      | error fault => exact capacity_breach hcap
    · rw [hnone] at hl
      cases hl
    · rw [hc, State.setControl_self]
      exact hnone

/-- The steps that are not `act` leave the chain and the counter alone. -/
theorem State.Inv.move (h : s.Inv build) (hg : s.Guarded) {e : Event T} (hwrap : ¬s.Wraps e.thread)
    (hm : Move build s e s') : s'.Inv build := by
  cases e with
  | act t => exact (h.act hg hwrap hm).1
  | call t c =>
    cases hm
    exact h.keep s.readers s.writer (by cases c <;> trivial) fun _ hl => by cases c <;> cases hl
  | ret t =>
    cases hm
    exact h.keep s.readers s.writer trivial fun _ hl => by cases hl

end ReadWriteStore.Bucket
