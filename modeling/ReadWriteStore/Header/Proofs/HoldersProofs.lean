import ReadWriteStore.Header.Proofs.OccupancyProofs
import ReadWriteStore.Header.Proofs.WakeupProofs

/-!
# Who holds the locks that a word shows

The mode of the atomic lock, in the terms of the locks that each thread holds: a header that is free is
locked by nobody, and one that makes a call wait is locked by somebody. And what a step that takes effect
does to these locks.
-/

namespace ReadWriteStore.Header

open Transition

variable {T : Type} {build : Build} {s s' : State T} {t : T} {id : UInt32} {kind : LockKind}

/-! ## The operations of the atomic lock -/

/-- The ID that an operation is for. -/
def RwOp.forId : RwOp → Option UInt32
  | .lockRead id | .unlockRead id | .lockWrite id | .unlockWrite id | .remove id | .removeLocked id => some id
  | .occupy => none

theorem RwLock.apply_id {lock lock' : RwLock} {op : RwOp} (h : lock.apply op = some lock') (hid : op.forId = some id) :
    lock.id = id := by
  cases op with
  | occupy => cases hid
  | lockRead | unlockRead =>
    cases hid
    simp only [RwLock.apply] at h
    split at h
    · assumption
    · cases h
  | _ =>
    cases hid
    simp only [RwLock.apply] at h
    split at h
    · rename_i he
      rw [he]
    · cases h

theorem RwLock.apply_lockRead {lock lock' : RwLock} (h : lock.apply (.lockRead id) = some lock') :
    lock.mode ≠ .writing := by
  intro hmode
  simp only [RwLock.apply, hmode] at h
  split at h <;> cases h

theorem RwLock.apply_free {lock lock' : RwLock} {op : RwOp} (h : lock.apply op = some lock')
    (hop : op = .lockWrite id ∨ op = .remove id) : lock.mode = .unlocked := by
  rcases hop with rfl | rfl
  · simp only [RwLock.apply] at h
    split at h
    · rename_i he
      rw [he]
    · cases h
  · simp only [RwLock.apply] at h
    split at h
    · rename_i he
      rw [he]
    · cases h

/-! ## The locks of a thread -/

theorem State.lockCount_pos : 0 < s.lockCount id t kind ↔ ⟨kind, id⟩ ∈ s.locks t :=
  List.count_pos_iff

theorem State.lockCount_nil (h : ∀ t, s.locks t = []) : s.lockCount id = fun _ _ => 0 := by
  funext t kind
  rw [State.lockCount, h t, List.count_nil]

/-- The locks change for one thread and one kind. -/
theorem State.lockCount_update [DecidableEq T] {locks : List Lock} {n : ℕ}
    (hlocks : s'.locks = Function.update s.locks t locks) (hn : locks.count ⟨kind, id⟩ = n)
    (hother : ∀ kind', kind' ≠ kind → locks.count ⟨kind', id⟩ = (s.locks t).count ⟨kind', id⟩) :
    s'.lockCount id = Function.update (s.lockCount id) t (Function.update (s.lockCount id t) kind n) := by
  funext u kind'
  unfold State.lockCount
  rw [hlocks]
  by_cases hu : u = t
  · subst hu
    rw [Function.update_self, Function.update_self]
    by_cases hk : kind' = kind
    · subst hk
      rw [Function.update_self]
      exact hn
    · rw [Function.update_of_ne hk]
      exact hother kind' hk
  · rw [Function.update_of_ne hu, Function.update_of_ne hu]

theorem State.lockCount_acquire [DecidableEq T] (hlocks : s'.locks = (s.record t (.acquire ⟨kind, id⟩)).locks) :
    s'.lockCount id =
      Function.update (s.lockCount id) t (Function.update (s.lockCount id t) kind (s.lockCount id t kind + 1)) := by
  refine State.lockCount_update hlocks List.count_cons_self fun kind' hk => ?_
  refine List.count_cons_of_ne ?_
  rintro ⟨⟩
  exact hk rfl

theorem State.lockCount_release [DecidableEq T] (hlocks : s'.locks = (s.record t (.release ⟨kind, id⟩)).locks) :
    s'.lockCount id =
      Function.update (s.lockCount id) t (Function.update (s.lockCount id t) kind (s.lockCount id t kind - 1)) := by
  refine State.lockCount_update hlocks List.count_erase_self fun kind' hk => ?_
  refine List.count_erase_of_ne ?_
  rintro ⟨⟩
  exact hk rfl

/-! ## The modes -/

namespace State.Inv

variable [Fintype T] (h : s.Inv)

include h

/-- A header in a mode without locks is locked by nobody. -/
theorem locks_of_free (hmode : (view s.word).mode = .unlocked ∨ (view s.word).mode = .unoccupied) (t : T) :
    s.locks t = [] := by
  have hr : readersFromBits s.word = 0 := by
    by_contra hr
    cases hw : isWriteLocked s.word with
    | true =>
      rw [view_writing hw] at hmode
      rcases hmode with hmode | hmode <;> cases hmode
    | false =>
      rw [view_reading hr hw] at hmode
      rcases hmode with hmode | hmode <;> cases hmode
  rw [List.eq_nil_iff_forall_not_mem]
  rintro ⟨kind, id⟩ hmem
  cases kind with
  | read => exact (h.of_read_lock hmem).2.1 hr
  | write =>
    obtain ⟨-, hw, -⟩ := h.of_write_lock hmem
    exact readers_of_writeLocked hw hr

theorem not_writer (hmode : (view s.word).mode ≠ .writing) (t : T) (id : UInt32) : ⟨.write, id⟩ ∉ s.locks t := by
  intro hmem
  obtain ⟨-, hw, -⟩ := h.of_write_lock hmem
  rw [view_writing hw] at hmode
  exact hmode rfl

theorem exists_holder (hpos : 0 < s.held kind) : ∃ t, ⟨kind, idFromBits s.word⟩ ∈ s.locks t := by
  obtain ⟨t, ht⟩ := tally_pos hpos
  obtain ⟨⟨kind', id⟩, hmem, hkind⟩ := List.countP_pos_iff.1 ht
  obtain rfl : kind' = kind := of_decide_eq_true hkind
  obtain rfl : id = idFromBits s.word := h.lock_id t _ hmem
  exact ⟨t, hmem⟩

theorem exists_writer (hmode : view s.word = ⟨id, .writing⟩) : ∃ t, ⟨.write, id⟩ ∈ s.locks t := by
  have hw : isWriteLocked s.word = true := by
    by_contra hw
    rw [Bool.not_eq_true] at hw
    cases hocc : isOccupied s.word with
    | false =>
      rw [view_unoccupied hocc] at hmode
      cases hmode
    | true =>
      by_cases hr : readersFromBits s.word = 0
      · rw [view_unlocked hocc hr] at hmode
        cases hmode
      · rw [view_reading hr hw] at hmode
        cases hmode
  have hid : idFromBits s.word = id := congrArg RwLock.id hmode
  rw [← hid]
  refine h.exists_holder ?_
  rw [h.ledger.isWriteLocked_iff_writes.1 hw]
  exact Nat.one_pos

theorem exists_reader {readers : ℕ} (hmode : view s.word = ⟨id, .reading readers⟩) :
    ∃ t, ⟨.read, id⟩ ∈ s.locks t := by
  have hid : idFromBits s.word = id := congrArg RwLock.id hmode
  rw [← hid]
  refine h.exists_holder ?_
  cases hocc : isOccupied s.word with
  | false =>
    rw [view_unoccupied hocc] at hmode
    cases hmode
  | true =>
    have hr : readersFromBits s.word ≠ 0 := by
      intro hr
      rw [view_unlocked hocc hr] at hmode
      cases hmode
    have hw : isWriteLocked s.word = false := by
      by_contra hw
      rw [view_writing (by simpa using hw)] at hmode
      cases hmode
    have hz : s.held .write = 0 := by
      have hiff := h.ledger.isWriteLocked_iff_writes
      have hle := h.ledger.writes_le
      rw [hw] at hiff
      have : s.held .write ≠ 1 := fun hone => nomatch hiff.2 hone
      omega
    have hfield := h.ledger.field
    rw [if_pos hz, ← readersFromBits_toNat] at hfield
    rw [← hfield]
    refine Nat.pos_of_ne_zero fun hzero => hr ?_
    exact UInt32.toNat_inj.1 hzero

theorem tally_lockCount (hid : idFromBits s.word = id) : tally (fun t => s.lockCount id t kind) = s.held kind := by
  refine tally_congr fun t => ?_
  refine List.countP_congr fun lock hlock => ?_
  obtain ⟨kind', id'⟩ := lock
  obtain rfl : id' = id := (h.lock_id t _ hlock).trans hid
  simp

/-- A header with as many readers as it can count. -/
theorem held_of_full (hmax : readersFromBits s.word = maxConcurrentReads) :
    s.held .read = maxConcurrentReads.toNat := by
  have hfield := h.ledger.field
  rw [← readersFromBits_toNat, hmax] at hfield
  split at hfield
  · exact hfield.symm
  · rw [maxConcurrentReads_toNat] at hfield
    omega

/-- A call that has to wait waits for a lock of somebody. -/
theorem conflicts {attempt : Attempt} (hconflict : attempt.Conflicts id (view s.word)) :
    ∃ t kind, ⟨kind, id⟩ ∈ s.locks t ∧ (attempt = .lockRead → kind = .write) := by
  have hwriting : view s.word = ⟨id, .writing⟩ →
      ∃ t kind, ⟨kind, id⟩ ∈ s.locks t ∧ (attempt = .lockRead → kind = .write) := by
    intro hview
    obtain ⟨t, ht⟩ := h.exists_writer hview
    exact ⟨t, .write, ht, fun _ => rfl⟩
  have hwaits : attempt ≠ .lockRead → (view s.word = ⟨id, .writing⟩ ∨ ∃ readers, view s.word = ⟨id, .reading readers⟩) →
      ∃ t kind, ⟨kind, id⟩ ∈ s.locks t ∧ (attempt = .lockRead → kind = .write) := by
    rintro hne (hview | ⟨readers, hview⟩)
    · exact hwriting hview
    · obtain ⟨t, ht⟩ := h.exists_reader hview
      exact ⟨t, .read, ht, fun he => absurd he hne⟩
  cases attempt with
  | lockRead => exact hwriting hconflict
  | lockWrite => exact hwaits nofun hconflict
  | remove => exact hwaits nofun hconflict

end State.Inv

/-! ## Calls that release a lock -/

/-- The lock that a call gives back. -/
def Call.releases : Call → Option Lock
  | .unlockRead id => some ⟨.read, id⟩
  | .unlockWrite id | .removeLocked id => some ⟨.write, id⟩
  | _ => none

/-- Until the call takes effect the thread has the lock. -/
theorem Control.Serves.holds {c : Call} {control : Control} {issued : List UInt32} {locks : List Lock} {lock : Lock}
    (h : control.Serves c) (hok : control.Ok issued locks) (hdone : control.done = false)
    (hlock : c.releases = some lock) : lock ∈ locks := by
  rcases h with h | ⟨attempt, id, timeout, won, rfl, -⟩
  · cases c with
    | unlockRead id =>
      cases hlock
      cases control with
      | running point =>
        cases point with
        | unlockReadLoad => cases h; exact hok
        | unlockReadExchange => cases h; exact hok.1
        | unpark => cases hdone
        | _ => exact absurd h not_false
      | returned => cases h; cases hdone
      | _ => exact absurd h not_false
    | unlockWrite id =>
      cases hlock
      cases control with
      | running point =>
        cases point with
        | unlockWriteSwap => cases h; exact hok.1
        | unpark => cases hdone
        | _ => exact absurd h not_false
      | returned => cases h; cases hdone
      | _ => exact absurd h not_false
    | removeLocked id =>
      cases hlock
      cases control with
      | running point =>
        cases point with
        | removeLockedSwap => cases h; exact hok.1
        | unpark => cases hdone
        | _ => exact absurd h not_false
      | returned => cases h; cases hdone
      | _ => exact absurd h not_false
    | _ => cases hlock
  · cases attempt <;> cases hlock

/-! ## Calls that do not panic -/

theorem Control.ofChecked_bind_ne {α : Type} {x : Checked α} {f : α → Checked Control} {fault : Fault}
    (hx : x ≠ .error fault) (hf : ∀ a, Control.ofChecked (f a) ≠ .faulted fault) :
    Control.ofChecked (x >>= f) ≠ .faulted fault := by
  cases x with
  | ok a => exact hf a
  | error other =>
    rintro ⟨⟩
    exact hx rfl

theorem debugAssert_ne (condition : Bool) (message : String) :
    debugAssert build condition message ≠ .error tooManyReaders := by
  intro h
  cases debugAssert_error h

theorem addU32_ne (a b : UInt32) : addU32 build a b ≠ .error tooManyReaders := by
  unfold addU32
  split <;> nofun

theorem markThreadBlocking_ne (bits : UInt64) : markThreadBlocking build bits ≠ .error tooManyReaders := by
  intro h
  rcases Checked.bind_eq_error h with h | ⟨-, -, h⟩
  · exact debugAssert_ne _ _ h
  · rcases Checked.bind_eq_error h with h | ⟨-, -, h⟩
    · exact debugAssert_ne _ _ h
    · cases h

theorem timedOutCallback_ne (result : Option ParkResult) : timedOutCallback build result ≠ .error tooManyReaders := by
  intro h
  cases result with
  | none => cases build <;> cases h
  | some result =>
    cases result with
    | waited => cases h
    | _ => cases build <;> cases h

section NotLockRead

variable {attempt : Attempt} {timeout : Timeout} {won : Bool} {other busy : Prop} {frame : Frame}
  {deadline : Option Instant}

theorem Frame.Of.transition (h : frame.Of attempt id timeout deadline) (hne : attempt ≠ .lockRead) :
    ∃ expected new caller, frame = .transition expected new caller := by
  cases frame with
  | lockRead => exact absurd h.2.1 hne
  | transition expected new caller => exact ⟨expected, new, caller, rfl⟩

theorem afterPark_ne (h : frame.Of attempt id timeout deadline) (hne : attempt ≠ .lockRead)
    (result : Option ParkResult) :
    Control.ofChecked (afterPark build frame deadline result) ≠ .faulted tooManyReaders := by
  obtain ⟨expected, new, caller, rfl⟩ := h.transition hne
  intro hf
  cases result with
  | none => cases build <;> cases hf
  | some result => cases result <;> cases hf

/-- Only `lock_read` counts readers. -/
theorem Point.Standing.resume_ne {point : Point} {reply : Reply}
    (h : point.Standing attempt id timeout won other busy) (hne : attempt ≠ .lockRead) :
    Control.ofChecked (point.resume build reply) ≠ .faulted tooManyReaders := by
  cases point with
  | lockReadLoad => exact absurd h.1 hne
  | lockReadExchange => exact absurd h.1 hne
  | transitionExchange expected new timeout' caller =>
    cases reply with
    | ok => rintro ⟨⟩
    | _ =>
      simp only [Point.resume, transitionErr, transitionSlow, transition]
      split
      · split
        · cases timeout' <;> rintro ⟨⟩
        · rintro ⟨⟩
      · rintro ⟨⟩
  | closure frame deadline =>
    simp only [Point.resume]
    generalize frame.choice reply = choice
    cases choice with
    | dontBlock => rintro ⟨⟩
    | block expectedState => exact Control.ofChecked_bind_ne (markThreadBlocking_ne _) fun _ => by rintro ⟨⟩
  | markExchange => cases reply <;> rintro ⟨⟩
  | park | enqueue => rintro ⟨⟩
  | leave frame deadline result => exact afterPark_ne h.1 hne result
  | parked frame deadline result => exact afterPark_ne h.1 hne result
  | _ => exact absurd h not_false

end NotLockRead

variable [Fintype T] [DecidableEq T] {c : Call}

/-- No call but `lock_read` panics. -/
theorem Move.not_faulted {e : Event T} (hinv : s.Inv) (ha : Allowed s e) (hm : Move build s e s')
    (hret : e ≠ .ret e.thread) (h : (s.control e.thread).Serves c) (hc : ∀ id timeout, c ≠ .lockRead id timeout)
    (fault : Fault) : s'.control e.thread ≠ .faulted fault := by
  intro hf
  obtain ⟨rfl, -⟩ := hinv.fault ha hm hf
  have hserves := (move_serves hinv ha hm hret h).1
  rw [hf] at hserves
  -- the other calls that can fail go through `transition`
  have hstanding : ∃ attempt id timeout won, attempt ≠ .lockRead ∧
      (s.control e.thread).Standing attempt id timeout won True True := by
    rcases h with h | ⟨attempt, id, timeout, won, rfl, h⟩
    · rcases hserves with hserves | ⟨attempt, id, timeout, won, rfl, -⟩
      · cases c <;> exact absurd hserves not_false
      · cases attempt <;> exact absurd h not_false
    · refine ⟨attempt, id, timeout, won, ?_, h⟩
      rintro rfl
      exact hc id timeout rfl
  obtain ⟨attempt, id, timeout, won, hne, hst⟩ := hstanding
  cases hm with
  | @call t c hidle =>
    have hidle' : s.control (Event.call t c).thread = .idle := hidle
    rw [hidle'] at hst
    exact hst
  | @exec t spurious point op hrun hop =>
    have hrun' : s.control (Event.act t spurious).thread = .running point := hrun
    rw [hrun'] at hst
    have hself : Control.ofChecked (point.resume build (op.exec spurious s.word).2) = .faulted tooManyReaders := by
      have hf' : (s.exec build t point op spurious).control t = .faulted tooManyReaders := hf
      rw [State.exec, State.setControl_control, Function.update_self] at hf'
      exact hf'
    exact hst.resume_ne hne hself
  | park | enqueue | unpark =>
    rw [Event.thread, State.setControl_control, Function.update_self] at hf
    cases hf
  | @leave t spurious frame deadline result hrun =>
    have hrun' : s.control (Event.act t spurious).thread = .running (.leave frame deadline result) := hrun
    rw [hrun'] at hst
    rw [Event.thread, State.setControl_control, Function.update_self] at hf
    exact afterPark_ne hst.1 hne result hf
  | @wake t spurious frame deadline result hrun hq =>
    have hrun' : s.control (Event.act t spurious).thread = .running (.parked frame deadline result) := hrun
    rw [hrun'] at hst
    rw [Event.thread, State.setControl_control, Function.update_self] at hf
    exact afterPark_ne hst.1 hne result hf
  | @expire t frame deadline result hrun hq hfree =>
    have hrun' : s.control (Event.expire t).thread = .running (.parked frame (some deadline) result) := hrun
    rw [hrun'] at hst
    rw [Event.thread, State.expire, State.setControl_control, Function.update_self] at hf
    exact Control.ofChecked_bind_ne (timedOutCallback_ne _) (fun result => afterPark_ne hst.1 hne (some result)) hf
  | ret => exact hret rfl

/-! ## Calls that panic -/

/-- The call has seen a header with as many readers as it can count, and will panic. -/
def Control.Full : Control → Prop
  | .faulted _ => True
  | .running (.leave _ _ (some (.didntPark (.matched current)))) => readersFromBits current = maxConcurrentReads
  | _ => False

omit [Fintype T] [DecidableEq T] in
theorem incrementReaders_error {bits : UInt64} (h : incrementReaders build bits = .error tooManyReaders) :
    readersFromBits bits = maxConcurrentReads := by
  by_contra hne
  have hbeq : (readersFromBits bits == maxConcurrentReads) = false := beq_eq_false_iff_ne.2 hne
  simp only [incrementReaders, hbeq, Bool.false_eq_true, if_false] at h
  rcases Checked.bind_eq_error h with h | ⟨-, -, h⟩
  · exact debugAssert_ne _ _ h
  · rcases Checked.bind_eq_error h with h | ⟨-, -, h⟩
    · exact debugAssert_ne _ _ h
    · cases h

omit [Fintype T] [DecidableEq T] in
theorem lockReadExchange_full {current : UInt64} {timeout : Timeout} {issued : List UInt32} {locks : List Lock}
    (hok : (Control.ofChecked (lockReadExchange build id current timeout)).Ok issued locks)
    (h : (Control.ofChecked (lockReadExchange build id current timeout)).Full) :
    readersFromBits current = maxConcurrentReads := by
  unfold lockReadExchange at hok h
  cases hinc : incrementReaders build current with
  | ok new =>
    rw [hinc] at h
    exact absurd h not_false
  | error fault =>
    rw [hinc] at hok
    obtain rfl : fault = tooManyReaders := hok
    exact incrementReaders_error hinc

omit [Fintype T] [DecidableEq T] in
theorem lockReadWithCurrent_full {current : UInt64} {timeout : Timeout} {issued : List UInt32} {locks : List Lock}
    (hok : (Control.ofChecked (lockReadWithCurrent build id current timeout)).Ok issued locks)
    (h : (Control.ofChecked (lockReadWithCurrent build id current timeout)).Full) :
    idFromBits current = id ∧ readersFromBits current = maxConcurrentReads := by
  unfold lockReadWithCurrent at hok h
  split at h
  · exact absurd h not_false
  · rename_i hid
    rw [if_neg hid] at hok
    split at h
    · cases timeout <;> exact absurd h not_false
    · rename_i hw
      rw [if_neg hw] at hok
      exact ⟨not_not.1 hid, lockReadExchange_full hok h⟩

omit [Fintype T] [DecidableEq T] in
theorem blockResult_full {frame : Frame} {deadline : Option Instant} {choice : BlockChoice} {issued : List UInt32}
    {locks : List Lock} (hok : (Control.ofChecked (blockResultToParkResult build frame deadline choice)).Ok issued locks)
    (h : (Control.ofChecked (blockResultToParkResult build frame deadline choice)).Full) :
    ∃ current, choice = .dontBlock (.matched current) ∧ readersFromBits current = maxConcurrentReads := by
  cases choice with
  | block expectedState =>
    cases hmark : markThreadBlocking build expectedState with
    | ok newState =>
      simp only [blockResultToParkResult, hmark] at h
      exact absurd h not_false
    | error fault =>
      simp only [blockResultToParkResult, hmark] at hok
      obtain rfl : fault = tooManyReaders := hok
      exact absurd hmark (markThreadBlocking_ne _)
  | dontBlock response =>
    cases response with
    | matched current => exact ⟨current, rfl, h⟩
    | _ => exact absurd h not_false

omit [Fintype T] [DecidableEq T] in
/-- The code of `lock_read` between two steps: it panics on the word it has just seen, or on the one that its
closure has seen. -/
theorem resume_full {timeout : Timeout} {won : Bool} {other busy : Prop} {point : Point} {reply : Reply}
    {word : UInt64} {issued : List UInt32} {locks : List Lock} (h : point.Standing .lockRead id timeout won other busy)
    (hpoint : point.Ok issued locks) (hreply : reply.found = word)
    (hok : (Control.ofChecked (point.resume build reply)).Ok issued locks)
    (hfull : (Control.ofChecked (point.resume build reply)).Full) :
    (Control.running point).Full ∨ idFromBits word = id ∧ readersFromBits word = maxConcurrentReads := by
  subst hreply
  cases point with
  | lockReadLoad =>
    obtain ⟨-, rfl, -⟩ := h
    exact Or.inr (lockReadWithCurrent_full hok hfull)
  | lockReadExchange =>
    obtain ⟨-, rfl, -⟩ := h
    cases reply with
    | ok => exact absurd hfull not_false
    | _ => exact Or.inr (lockReadWithCurrent_full hok hfull)
  | closure frame deadline =>
    obtain ⟨current, hchoice, hmax⟩ := blockResult_full hok hfull
    cases frame with
    | transition => exact absurd h.1.2 not_false
    | lockRead id' timeout' =>
      obtain ⟨-, rfl, -⟩ := h.1.2
      rcases Frame.choice_lockRead reply id' timeout' with ⟨-, heq⟩ | ⟨-, -, heq⟩ | ⟨hid, -, heq⟩
      · cases hchoice.symm.trans heq
      · cases hchoice.symm.trans heq
      · cases hchoice.symm.trans heq
        exact Or.inr ⟨hid, hmax⟩
  | leave frame deadline result =>
    obtain ⟨hframe, response, rfl, hresponse⟩ := h
    cases frame with
    | transition => exact absurd hframe.2 not_false
    | lockRead id' timeout' =>
      cases response with
      | matched current => exact Or.inl (lockReadExchange_full hok hfull)
      | mismatch => exact absurd hfull not_false
      | transitioned => exact absurd hresponse not_false
  | parked frame deadline result =>
    obtain rfl := hpoint.2
    exact absurd hfull not_false
  | markExchange => cases reply <;> exact absurd hfull not_false
  | park | enqueue => exact absurd hfull not_false
  | transitionExchange => exact absurd h.1 not_false
  | _ => exact absurd h not_false

omit [Fintype T] [DecidableEq T] in
/-- No other call comes back from its closure with a word. -/
theorem Control.Serves.not_full {control : Control} (h : control.Serves c)
    (hc : ∀ id timeout, c ≠ .lockRead id timeout) (hfault : ∀ fault, control ≠ .faulted fault) : ¬control.Full := by
  intro hfull
  cases control with
  | faulted fault => exact hfault fault rfl
  | running point =>
    cases point with
    | leave frame deadline result =>
      rcases h with h | ⟨attempt, id, timeout, won, rfl, hframe, response, rfl, hresponse⟩
      · cases c <;> exact absurd h not_false
      · cases response with
        | matched current =>
          cases frame with
          | lockRead id' timeout' =>
            obtain ⟨rfl, rfl, -⟩ := hframe.2
            exact hc _ _ rfl
          | transition => exact hresponse
        | _ => exact hfull
    | _ => exact hfull
  | _ => exact hfull

/-- The step of `lock_read` that sees too many readers. -/
theorem Move.full {e : Event T} {timeout : Timeout} {won : Bool} {other busy : Prop} (hinv : s.Inv) (ha : Allowed s e)
    (hm : Move build s e s') (hret : e ≠ .ret e.thread)
    (h : (s.control e.thread).Standing .lockRead id timeout won other busy) (hfull : (s'.control e.thread).Full) :
    (s.control e.thread).Full ∨ idFromBits s.word = id ∧ readersFromBits s.word = maxConcurrentReads := by
  have hok := (hinv.move ha hm).control e.thread
  have hpoint : ∀ point, s.control e.thread = .running point → point.Ok s.issued (s.locks e.thread) :=
    fun point hrun => hinv.running hrun
  cases hm with
  | @call t c hidle =>
    rw [show s.control (Event.call t c).thread = .idle from hidle] at h
    exact absurd h not_false
  | @exec t spurious point op hrun hop =>
    have hrun' : s.control (Event.act t spurious).thread = .running point := hrun
    rw [hrun'] at h ⊢
    have hch : Change build s t point (s.exec build t point op spurious) :=
      hinv.exec_change hrun hop (by rintro rfl; exact ha hrun)
    generalize s.exec build t point op spurious = s' at hch hfull hok
    cases hch with
    | @stay _ reply hreply heffect hself =>
      rw [Event.thread, State.setControl_control, Function.update_self] at hfull
      refine resume_full h (hpoint point hrun') ?_ hself hfull
      rcases hreply with rfl | rfl <;> rfl
    | dropReader =>
      rw [Event.thread, State.setControl_control, Function.update_self] at hfull
      split at hfull <;> exact absurd hfull not_false
    | unlockWrite | removeLocked =>
      rw [Event.thread, State.setControl_control, Function.update_self, wakeIf] at hfull
      split at hfull <;> exact absurd hfull not_false
    | _ =>
      rw [Event.thread, State.setControl_control, Function.update_self] at hfull
      exact absurd hfull not_false
  | @leave t spurious frame deadline result hrun =>
    have hrun' : s.control (Event.act t spurious).thread = .running (.leave frame deadline result) := hrun
    rw [hrun'] at h ⊢
    have hpst : (Point.leave frame deadline result).Standing .lockRead id timeout won other busy := h
    rw [Event.thread, State.setControl_control, Function.update_self] at hfull hok
    exact resume_full hpst (hpoint _ hrun') (show (Reply.value s.word).found = s.word from rfl) hok hfull
  | @wake t spurious frame deadline result hrun =>
    have hrun' : s.control (Event.act t spurious).thread = .running (.parked frame deadline result) := hrun
    rw [hrun'] at h ⊢
    have hpst : (Point.parked frame deadline result).Standing .lockRead id timeout won other busy := h
    rw [Event.thread, State.setControl_control, Function.update_self] at hfull hok
    exact resume_full hpst (hpoint _ hrun') (show (Reply.value s.word).found = s.word from rfl) hok hfull
  | @expire t frame deadline result hrun hq hfree =>
    obtain ⟨-, rfl⟩ := hpoint _ hrun
    rw [Event.thread, State.expire, State.setControl_control, Function.update_self] at hfull
    cases frame <;> exact absurd hfull not_false
  | park | enqueue | unpark =>
    rw [Event.thread, State.setControl_control, Function.update_self] at hfull
    exact absurd hfull not_false
  | ret => exact absurd rfl hret

omit [DecidableEq T] in
/-- No call panics before its first step. -/
theorem start_not_faulted (hinv : s.Inv) {t : T} (ha : Allowed s (.call t c)) (fault : Fault) :
    Control.ofChecked (start build c) ≠ .faulted fault := by
  intro hf
  have hok : (Control.ofChecked (start build c)).Ok s.issued (s.locks t) := start_ok hinv ha
  rw [hf] at hok
  obtain rfl : fault = tooManyReaders := hok
  cases c with
  | unlockRead | unlockWrite | occupy => cases hf
  | lockRead id timeout | lockWrite id timeout =>
    refine Control.ofChecked_bind_ne (debugAssert_ne _ _) (fun _ hrun => ?_) hf
    cases hrun
  | remove id timeout =>
    refine Control.ofChecked_bind_ne (debugAssert_ne _ _) (fun _ => ?_) hf
    refine Control.ofChecked_bind_ne (addU32_ne _ _) fun _ hrun => ?_
    cases hrun
  | removeLocked id =>
    refine Control.ofChecked_bind_ne (addU32_ne _ _) (fun _ hrun => ?_) hf
    cases hrun

omit [DecidableEq T] in
theorem start_not_full (hinv : s.Inv) {t : T} (ha : Allowed s (.call t c)) :
    ¬(Control.ofChecked (start build c)).Full := by
  intro hfull
  have hstage := @start_stage build c
  cases hstart : Control.ofChecked (start build c) with
  | faulted fault => exact start_not_faulted hinv ha fault hstart
  | running point =>
    rw [hstart] at hfull hstage
    cases point with
    | leave => cases hstage
    | _ => exact hfull
  | _ =>
    rw [hstart] at hfull
    exact hfull

end ReadWriteStore.Header
