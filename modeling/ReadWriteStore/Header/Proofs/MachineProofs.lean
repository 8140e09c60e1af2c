import ReadWriteStore.Header.Machine

/-!
# What a step of a header can do

`Move` lists the steps with their guards, once; every invariant is a case analysis over it. The rest
says which parts of the state a step leaves alone and how it changes the number of held locks.
-/

namespace ReadWriteStore.Header

open Transition

/-! ## Inversion of a step -/

/-- What `step` can do on an event. -/
inductive Move {T : Type} [DecidableEq T] (build : Build) (s : State T) : Event T → State T → Prop
  | call {t : T} {c : Call} (h : s.control t = .idle) :
      Move build s (.call t c) (s.setControl t (.ofChecked (start build c)))
  | exec {t : T} {spurious : Bool} {point : Point} {op : AtomicOp}
      (h : s.control t = .running point) (hop : point.op = some op) :
      Move build s (.act t spurious) (s.exec build t point op spurious)
  | park {t : T} {spurious : Bool} {frame : Frame} {deadline : Option Instant}
      (h : s.control t = .running (.park frame deadline)) (hfree : s.queueLock = none) :
      Move build s (.act t spurious)
        ({ s with queueLock := some t }.setControl t (.running (.closure frame deadline)))
  | enqueue {t : T} {spurious : Bool} {frame : Frame} {deadline : Option Instant}
      {result : Option ParkResult} (h : s.control t = .running (.enqueue frame deadline result)) :
      Move build s (.act t spurious)
        ({ s with queue := s.queue ++ [t], queueLock := none }.setControl t
          (.running (.parked frame deadline result)))
  | leave {t : T} {spurious : Bool} {frame : Frame} {deadline : Option Instant}
      {result : Option ParkResult} (h : s.control t = .running (.leave frame deadline result)) :
      Move build s (.act t spurious)
        ({ s with queueLock := none }.setControl t
          (.ofChecked (afterPark build frame deadline result)))
  | wake {t : T} {spurious : Bool} {frame : Frame} {deadline : Option Instant}
      {result : Option ParkResult} (h : s.control t = .running (.parked frame deadline result))
      (hq : t ∉ s.queue) :
      Move build s (.act t spurious)
        (s.setControl t (.ofChecked (afterPark build frame deadline result)))
  | unpark {t : T} {spurious : Bool} {result : Return} (h : s.control t = .running (.unpark result))
      (hfree : s.queueLock = none) :
      Move build s (.act t spurious) ({ s with queue := [] }.setControl t (.returned result))
  | expire {t : T} {frame : Frame} {deadline : Instant} {result : Option ParkResult}
      (h : s.control t = .running (.parked frame (some deadline) result)) (hq : t ∈ s.queue)
      (hfree : s.queueLock = none) :
      Move build s (.expire t) (s.expire build t frame deadline result)
  | ret {t : T} (h : (∃ r, s.control t = .returned r) ∨ ∃ fault, s.control t = .faulted fault) :
      Move build s (.ret t) (s.setControl t .idle)

variable {T : Type} [DecidableEq T] {build : Build} {s s' : State T}

theorem Move.of_step {e : Event T} (h : step build s e = some s') : Move build s e s' := by
  cases e with
  | call t c =>
    simp only [step] at h
    split at h
    · rename_i hidle
      cases h
      exact .call hidle
    · cases h
  | act t spurious =>
    simp only [step] at h
    split at h
    · rename_i point hc
      split at h
      · rename_i op hop
        cases h
        exact .exec hc hop
      · rename_i hop
        cases point with
        | park frame deadline =>
          simp only [State.queueStep] at h
          split at h
          · rename_i hfree
            cases h
            exact .park hc hfree
          · cases h
        | enqueue frame deadline result => cases h; exact .enqueue hc
        | leave frame deadline result => cases h; exact .leave hc
        | parked frame deadline result =>
          simp only [State.queueStep] at h
          split at h
          · cases h
          · rename_i hq
            cases h
            exact .wake hc hq
        | unpark result =>
          simp only [State.queueStep] at h
          split at h
          · rename_i hfree
            cases h
            exact .unpark hc hfree
          · cases h
        | _ => cases hop
    · cases h
  | expire t =>
    simp only [step] at h
    split at h
    · rename_i frame deadline result hc
      split at h
      · rename_i hq
        cases h
        exact .expire hc hq.1 hq.2
      · cases h
    · cases h
  | ret t =>
    simp only [step] at h
    split at h
    · rename_i r hc
      cases h
      exact .ret (Or.inl ⟨r, hc⟩)
    · rename_i fault hc
      cases h
      exact .ret (Or.inr ⟨fault, hc⟩)
    · cases h

/-- A list of events that the protocol allows, run from the initial state. -/
theorem exists_reachable (build : Build) (es : List (Event T)) (p : State T → Bool)
    (hp : (System.replay (step build) Allowed State.init es).any p = true) :
    ∃ s, (machine build T).Reachable s ∧ p s = true :=
  @System.exists_reachable _ _ (· = State.init) _ _ _ State.init rfl es p hp

/-- The same list as a run. -/
theorem run_of_replay (build : Build) (es : List (Event T)) (d : Event T)
    (hes : (System.replay (step build) Allowed State.init es).isSome = true) :
    (machine build T).Run es.length (System.trace (step build) Allowed State.init es)
      (es.getD · d) :=
  @System.Run.of_replay _ _ (· = State.init) _ _ _ State.init rfl es d hes

/-! ## The parts of a state that a step leaves alone -/

namespace State

variable (s) (t : T) (control : Control)

@[simp] theorem setControl_word : (s.setControl t control).word = s.word := rfl
@[simp] theorem setControl_queueLock : (s.setControl t control).queueLock = s.queueLock := rfl
@[simp] theorem setControl_queue : (s.setControl t control).queue = s.queue := rfl
@[simp] theorem setControl_locks : (s.setControl t control).locks = s.locks := rfl
@[simp] theorem setControl_issued : (s.setControl t control).issued = s.issued := rfl
@[simp] theorem setControl_control :
    (s.setControl t control).control = Function.update s.control t control := rfl
theorem setControl_self : (s.setControl t control).control t = control := Function.update_self ..

@[simp] theorem record_word (effect : Effect) : (s.record t effect).word = s.word := by
  cases effect <;> rfl
@[simp] theorem record_queueLock (effect : Effect) : (s.record t effect).queueLock = s.queueLock := by
  cases effect <;> rfl
@[simp] theorem record_queue (effect : Effect) : (s.record t effect).queue = s.queue := by
  cases effect <;> rfl
@[simp] theorem record_control (effect : Effect) : (s.record t effect).control = s.control := by
  cases effect <;> rfl

theorem record_locks_ne (effect : Effect) {u : T} (hu : u ≠ t) :
    (s.record t effect).locks u = s.locks u := by
  cases effect <;> simp [record, hu]

theorem record_issued_subset (effect : Effect) : s.issued ⊆ (s.record t effect).issued := by
  cases effect with
  | issue id => exact fun i hi => List.mem_cons_of_mem _ hi
  | _ => exact fun i hi => hi

end State

/-! ## Counting held locks -/

section Count

variable [Fintype T]

omit [DecidableEq T] in
theorem held_pos {t : T} {lock : Lock} (h : lock ∈ s.locks t) : 0 < s.held lock.kind := by
  have hle := le_tally (fun t => (s.locks t).countP (·.kind = lock.kind)) t
  have hpos : 0 < (s.locks t).countP (·.kind = lock.kind) :=
    List.countP_pos_iff.2 ⟨lock, h, by simp⟩
  exact lt_of_lt_of_le hpos hle

omit [DecidableEq T] in
/-- Nobody holds a lock. -/
theorem no_locks (hr : s.held .read = 0) (hw : s.held .write = 0) (t : T) : s.locks t = [] := by
  rw [List.eq_nil_iff_forall_not_mem]
  intro lock hmem
  have := held_pos hmem
  rcases lock with ⟨kind, id⟩
  cases kind with
  | read => simp only at this; omega
  | write => simp only at this; omega

theorem held_acquire (t : T) (lock : Lock) (kind : LockKind) :
    (s.record t (.acquire lock)).held kind = s.held kind + if lock.kind = kind then 1 else 0 := by
  have hupd := tally_update (fun t => (s.locks t).countP (·.kind = kind)) t
    ((lock :: s.locks t).countP (·.kind = kind))
  have hfun : (fun u => ((s.record t (.acquire lock)).locks u).countP (·.kind = kind))
      = Function.update (fun u => (s.locks u).countP (·.kind = kind)) t
        ((lock :: s.locks t).countP (·.kind = kind)) := by
    funext u
    by_cases hu : u = t
    · subst hu; simp [State.record]
    · simp [State.record, hu]
  unfold State.held
  rw [hfun]
  rw [List.countP_cons] at hupd ⊢
  simp only [decide_eq_true_eq] at hupd ⊢
  omega

theorem held_release {t : T} {lock : Lock} (h : lock ∈ s.locks t) (kind : LockKind) :
    (s.record t (.release lock)).held kind + (if lock.kind = kind then 1 else 0) = s.held kind := by
  have hupd := tally_update (fun t => (s.locks t).countP (·.kind = kind)) t
    (((s.locks t).erase lock).countP (·.kind = kind))
  have hfun : (fun u => ((s.record t (.release lock)).locks u).countP (·.kind = kind))
      = Function.update (fun u => (s.locks u).countP (·.kind = kind)) t
        (((s.locks t).erase lock).countP (·.kind = kind)) := by
    funext u
    by_cases hu : u = t
    · subst hu; simp [State.record]
    · simp [State.record, hu]
  have herase : (s.locks t).countP (·.kind = kind)
      = ((s.locks t).erase lock).countP (·.kind = kind) + if lock.kind = kind then 1 else 0 := by
    have hperm := (List.perm_cons_erase h).countP_eq (fun l : Lock => decide (l.kind = kind))
    rw [hperm, List.countP_cons]
    simp
  unfold State.held
  rw [hfun]
  omega

end Count

end ReadWriteStore.Header
