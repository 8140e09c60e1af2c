import ReadWriteStore.Header.Proofs.LedgerProofs
import ReadWriteStore.Header.Proofs.MachineProofs

/-!
# The invariant of a header

The word and the held locks agree (`Ledger`), every held lock is for the current ID, and every thread
inside a call remembers only what its own steps have established (`Control.Ok`). Every step that the
protocol allows preserves this, in both builds.
-/

namespace ReadWriteStore.Header

open Transition

/-! ## What a thread knows at each point -/

/-- The word a transition leads to. -/
def Caller.target : Caller → UInt64
  | .lockWrite id => writeLockedBits id
  | .remove _ nextId => unoccupiedBits nextId

def Caller.Ok (issued : List UInt32) (caller : Caller) : Prop :=
  caller.id ∈ issued ∧ ∀ id nextId, caller = .remove id nextId → nextId = id + 1

def Frame.id : Frame → UInt32
  | .lockRead id _ => id
  | .transition _ _ caller => caller.id

def Frame.Ok (issued : List UInt32) : Frame → Prop
  | .lockRead id _ => id ∈ issued
  | .transition expected new caller =>
    caller.Ok issued ∧ expected = occupiedUnlockedBits caller.id ∧ new = caller.target

/-- The word that `unlock_read_with_current` computes from `current`. -/
def ReadersLeave (current new : UInt64) (mustUnpark : Bool) : Prop :=
  mustUnpark = (decide (current.toNat < 2 ^ 63) && readersFromBits current == 1) ∧
  new = if mustUnpark then unmarkThreadBlocking (current - ((1 : UInt64) <<< 32))
    else current - ((1 : UInt64) <<< 32)

/-- The response that lets a frame leave `park`. -/
def Response.Ok (frame : Frame) : Response → Prop
  | .matched current => idFromBits current = frame.id ∧ isWriteLocked current = false
  | _ => True

def Point.Ok (issued : List UInt32) (locks : List Lock) : Point → Prop
  | .lockReadLoad id _ => id ∈ issued
  | .lockReadExchange id current new _ =>
    id ∈ issued ∧ idFromBits current = id ∧ isWriteLocked current = false ∧
      readersFromBits current ≠ maxConcurrentReads ∧ new = current + ((1 : UInt64) <<< 32)
  | .unlockReadLoad id => ⟨.read, id⟩ ∈ locks
  | .unlockReadExchange id current new mustUnpark =>
    ⟨.read, id⟩ ∈ locks ∧ ReadersLeave current new mustUnpark
  | .transitionExchange expected new _ caller =>
    caller.Ok issued ∧ expected = occupiedUnlockedBits caller.id ∧ new = caller.target
  | .park frame _ | .closure frame _ => frame.Ok issued
  | .markExchange frame _ expectedState newState =>
    frame.Ok issued ∧ readersFromBits expectedState ≠ 0 ∧ idFromBits expectedState = frame.id ∧
      newState = expectedState &&& ~~~threadNotificationMask
  | .enqueue frame _ result | .parked frame _ result => frame.Ok issued ∧ result = some .waited
  | .leave frame _ result =>
    frame.Ok issued ∧ ∃ response, result = some (.didntPark response) ∧ response.Ok frame
  | .unlockWriteSwap id new => ⟨.write, id⟩ ∈ locks ∧ new = occupiedUnlockedBits id
  | .removeLockedSwap id nextId new =>
    ⟨.write, id⟩ ∈ locks ∧ nextId = id + 1 ∧ new = unoccupiedBits nextId
  | .occupyFetchOr | .unpark _ => True

/-- The only fault a header can run into is the documented limit on readers. -/
def Control.Ok (issued : List UInt32) (locks : List Lock) : Control → Prop
  | .idle | .returned _ => True
  | .running point => point.Ok issued locks
  | .faulted fault => fault = tooManyReaders

structure State.Inv {T : Type} [Fintype T] (s : State T) : Prop where
  ledger : Ledger s.word (s.held .read) (s.held .write) s.issued
  lock_id : ∀ t, ∀ lock ∈ s.locks t, lock.id = idFromBits s.word
  control : ∀ t, (s.control t).Ok s.issued (s.locks t)

/-! ## The code between two steps -/

section Code

variable {build : Build} {issued : List UInt32} {locks : List Lock} {id : UInt32}
  {current : UInt64} {timeout : Timeout}

theorem Caller.Ok.mono {issued' : List UInt32} (hsub : issued ⊆ issued') {caller : Caller}
    (h : caller.Ok issued) : caller.Ok issued' :=
  ⟨hsub h.1, h.2⟩

theorem Frame.Ok.mono {issued' : List UInt32} (hsub : issued ⊆ issued') {frame : Frame}
    (h : frame.Ok issued) : frame.Ok issued' := by
  cases frame with
  | lockRead id timeout => exact hsub h
  | transition expected new caller => exact ⟨h.1.mono hsub, h.2⟩

theorem Point.Ok.mono {issued' : List UInt32} (hsub : issued ⊆ issued') {point : Point}
    (h : point.Ok issued locks) : point.Ok issued' locks := by
  cases point with
  | lockReadLoad => exact hsub h
  | lockReadExchange => exact ⟨hsub h.1, h.2⟩
  | transitionExchange => exact ⟨h.1.mono hsub, h.2⟩
  | park => exact Frame.Ok.mono hsub h
  | closure => exact Frame.Ok.mono hsub h
  | markExchange => exact ⟨h.1.mono hsub, h.2⟩
  | enqueue => exact ⟨h.1.mono hsub, h.2⟩
  | leave => exact ⟨h.1.mono hsub, h.2⟩
  | parked => exact ⟨h.1.mono hsub, h.2⟩
  | _ => exact h

theorem Control.Ok.mono {issued' : List UInt32} (hsub : issued ⊆ issued') {control : Control}
    (h : control.Ok issued locks) : control.Ok issued' locks := by
  cases control with
  | running point => exact Point.Ok.mono hsub h
  | _ => exact h

theorem Frame.Ok.mem {frame : Frame} (h : frame.Ok issued) : frame.id ∈ issued := by
  cases frame with
  | lockRead id timeout => exact h
  | transition expected new caller => exact h.1.1

theorem compareExchangeWeak_cases (expected new : UInt64) (spurious : Bool) (word : UInt64) :
    (word = expected ∧ (compareExchangeWeak expected new).exec spurious word = (new, .ok word)) ∨
      (compareExchangeWeak expected new).exec spurious word = (word, .err word) := by
  by_cases h : word = expected ∧ spurious = false
  · exact Or.inl ⟨h.1, by simp [compareExchangeWeak, AtomicOp.exec, h]⟩
  · exact Or.inr (by simp only [compareExchangeWeak, AtomicOp.exec, if_neg h])

theorem compareExchange_cases (expected new : UInt64) (spurious : Bool) (word : UInt64) :
    (word = expected ∧ (compareExchange expected new).exec spurious word = (new, .ok word)) ∨
      (word ≠ expected ∧ (compareExchange expected new).exec spurious word = (word, .err word)) := by
  by_cases h : word = expected
  · exact Or.inl ⟨h, by simp [compareExchange, AtomicOp.exec, h]⟩
  · exact Or.inr ⟨h, by simp only [compareExchange, AtomicOp.exec, if_neg h]⟩

/-- The closure of `lock_read_slow`. -/
theorem Frame.choice_lockRead (reply : Reply) (id : UInt32) (timeout : Timeout) :
    (idFromBits reply.found ≠ id ∧
      (Frame.lockRead id timeout).choice reply = .dontBlock .mismatch) ∨
    (idFromBits reply.found = id ∧ isWriteLocked reply.found = true ∧
      (Frame.lockRead id timeout).choice reply = .block reply.found) ∨
    (idFromBits reply.found = id ∧ isWriteLocked reply.found = false ∧
      (Frame.lockRead id timeout).choice reply = .dontBlock (.matched reply.found)) := by
  by_cases hid : idFromBits reply.found = id
  · cases hw : isWriteLocked reply.found with
    | true => exact Or.inr (Or.inl ⟨hid, rfl, by simp [Frame.choice, hid, hw]⟩)
    | false => exact Or.inr (Or.inr ⟨hid, rfl, by simp [Frame.choice, hid, hw]⟩)
  · exact Or.inl ⟨hid, by simp [Frame.choice, hid]⟩

/-- The closure of `transition_slow`, after its compare exchange failed. -/
theorem Frame.choice_transition_err (actual expected new : UInt64) (caller : Caller) :
    (idFromBits actual = idFromBits expected ∧
      (Frame.transition expected new caller).choice (.err actual) = .block actual) ∨
    (idFromBits actual ≠ idFromBits expected ∧
      (Frame.transition expected new caller).choice (.err actual) =
        .dontBlock (.transitioned false)) := by
  by_cases hid : idFromBits actual = idFromBits expected
  · exact Or.inl ⟨hid, by simp [Frame.choice, Reply.found, hid]⟩
  · exact Or.inr ⟨hid, by simp [Frame.choice, Reply.found, hid]⟩

theorem lockReadExchange_ok (hmem : id ∈ issued) (hid : idFromBits current = id)
    (hne : id ≠ reservedId) (hw : isWriteLocked current = false) :
    (Control.ofChecked (lockReadExchange build id current timeout)).Ok issued locks := by
  unfold lockReadExchange
  by_cases hr : readersFromBits current = maxConcurrentReads
  · rw [incrementReaders_full build hr]
    rfl
  · rw [incrementReaders_ok build hr hw (by rw [hid]; exact hne)]
    exact ⟨hmem, hid, hw, hr, rfl⟩

theorem lockReadWithCurrent_ok (hmem : id ∈ issued) (hne : id ≠ reservedId) :
    (Control.ofChecked (lockReadWithCurrent build id current timeout)).Ok issued locks := by
  unfold lockReadWithCurrent
  by_cases hid : idFromBits current = id
  · rw [if_neg (by simpa using hid)]
    by_cases hw : isWriteLocked current = true
    · rw [if_pos hw]
      cases timeout with
      | dontBlock => trivial
      | _ => exact hmem
    · rw [if_neg hw]
      exact lockReadExchange_ok hmem hid hne (by simpa using hw)
  · rw [if_pos hid]
    trivial

theorem unlockReadWithCurrent_eq (build : Build) (hid : idFromBits current = id) (hr : readersFromBits current ≠ 0)
    (hw : isWriteLocked current = false) (hocc : isOccupied current = true) :
    ∃ new mustUnpark, ReadersLeave current new mustUnpark ∧
      unlockReadWithCurrent build id current =
        .ok (.running (.unlockReadExchange id current new mustUnpark)) := by
  have hr' : (readersFromBits current != 0) = true := by simpa using hr
  have hid' : (idFromBits current == id) = true := by simpa using hid
  simp only [unlockReadWithCurrent, hr', hw, hid', Bool.not_false, debugAssert_true,
    hasThreadBlocking_ok build hocc, decrementReaders_ok build hr]
  exact ⟨_, _, ⟨rfl, rfl⟩, rfl⟩

/-- Where a releasing thread goes: to wake the waiting threads if the word it replaced had its mark. -/
def wakeIf (old : UInt64) (result : Return) : Control :=
  if old.toNat < 2 ^ 63 then .running (.unpark result) else .returned result

theorem afterSwap_eq {old : UInt64} {result : Return} (hid : idFromBits old = id)
    (hw : isWriteLocked old = true) (hocc : isOccupied old = true) :
    afterSwap build id old result = .ok (wakeIf old result) := by
  have hid' : (idFromBits old == id) = true := by simpa using hid
  simp only [afterSwap, hid', hw, debugAssert_true, hasThreadBlocking_ok build hocc, wakeIf]
  by_cases hb : old.toNat < 2 ^ 63
  · simp only [hb, decide_true, if_true]
    rfl
  · simp only [hb, decide_false, if_false]
    rfl

theorem afterFetchOr_eq {old : UInt64} (hocc : isOccupied old = false)
    (hne : idFromBits old ≠ reservedId) :
    afterFetchOr build old = .ok (.returned (.occupy (idFromBits old))) := by
  have hne' : (idFromBits old != reservedId) = true := by simpa using hne
  simp only [afterFetchOr, hocc, hne', Bool.not_false, debugAssert_true]
  rfl

theorem transitionErr_ok {expected new actual : UInt64} {caller : Caller} (hc : caller.Ok issued)
    (he : expected = occupiedUnlockedBits caller.id) (hn : new = caller.target) :
    (transitionErr expected new actual timeout caller).Ok issued locks := by
  unfold transitionErr
  split
  · split
    · cases timeout with
      | dontBlock => trivial
      | _ => exact ⟨hc, he, hn⟩
    · exact ⟨hc, he, hn⟩
  · trivial

/-- The closure blocks only on a locked word that carries the ID of the frame. -/
theorem blockResult_ok {frame : Frame} {deadline : Option Instant} {choice : BlockChoice}
    (hf : frame.Ok issued) (hne : frame.id ≠ reservedId)
    (hblock : ∀ expectedState, choice = .block expectedState →
      readersFromBits expectedState ≠ 0 ∧ idFromBits expectedState = frame.id)
    (hleave : ∀ response, choice = .dontBlock response → response.Ok frame) :
    (Control.ofChecked (blockResultToParkResult build frame deadline choice)).Ok issued locks := by
  cases choice with
  | block expectedState =>
    obtain ⟨hr, hid⟩ := hblock expectedState rfl
    simp only [blockResultToParkResult, markThreadBlocking_ok build hr (by rw [hid]; exact hne)]
    exact ⟨hf, hr, hid, rfl⟩
  | dontBlock response => exact ⟨hf, response, rfl, hleave response rfl⟩

theorem Frame.resume_ok {frame : Frame} {response : Response} (hf : frame.Ok issued)
    (hne : frame.id ≠ reservedId) (hresp : response.Ok frame) :
    (Control.ofChecked (frame.resume build response)).Ok issued locks := by
  cases frame with
  | lockRead id timeout =>
    cases response with
    | matched current => exact lockReadExchange_ok hf hresp.1 hne hresp.2
    | _ => trivial
  | transition expected new caller => trivial

theorem Frame.timedOut_ok {frame : Frame} : frame.timedOut.Ok issued locks := by
  cases frame <;> trivial

theorem afterPark_ok {frame : Frame} {deadline : Option Instant} {result : ParkResult}
    (hf : frame.Ok issued) (hne : frame.id ≠ reservedId)
    (hresp : ∀ response, result = .didntPark response → response.Ok frame) :
    (Control.ofChecked (afterPark build frame deadline (some result))).Ok issued locks := by
  cases result with
  | waited => exact hf
  | timedOut => exact Frame.timedOut_ok
  | didntPark response => exact Frame.resume_ok hf hne (hresp response rfl)

end Code

/-! ## Preservation -/

namespace State.Inv

variable {T : Type} [Fintype T] {build : Build} {s : State T}

theorem init : (State.init : State T).Inv where
  ledger := by
    have hzero : ∀ kind, (State.init : State T).held kind = 0 := fun kind => by
      simp [State.held, State.init, tally_zero]
    rw [hzero, hzero]
    exact Ledger.init
  lock_id := by simp [State.init]
  control := fun _ => trivial

theorem ne_reserved (h : s.Inv) {id : UInt32} (hid : id ∈ s.issued) : id ≠ reservedId :=
  h.ledger.ne_reserved hid

/-- The word while somebody holds a read lock. -/
theorem of_read_lock (h : s.Inv) {t : T} {id : UInt32} (hlock : ⟨.read, id⟩ ∈ s.locks t) :
    idFromBits s.word = id ∧ readersFromBits s.word ≠ 0 ∧ isWriteLocked s.word = false ∧
      isOccupied s.word = true := by
  have hpos : 0 < s.held .read := held_pos hlock
  have hr := h.ledger.readers_ne_zero (by omega)
  exact ⟨(h.lock_id t _ hlock).symm, hr, h.ledger.not_writeLocked hpos,
    (h.ledger.occupied_of_readers hr).1⟩

/-- The word while somebody holds a write lock. -/
theorem of_write_lock (h : s.Inv) {t : T} {id : UInt32} (hlock : ⟨.write, id⟩ ∈ s.locks t) :
    idFromBits s.word = id ∧ isWriteLocked s.word = true ∧ isOccupied s.word = true ∧
      s.held .write = 1 ∧ s.held .read = 0 := by
  have hpos : 0 < s.held .write := held_pos hlock
  have hr := h.ledger.readers_ne_zero (by omega)
  have hone : s.held .write = 1 := by have := h.ledger.writes_le; omega
  exact ⟨(h.lock_id t _ hlock).symm, h.ledger.isWriteLocked_iff_writes.2 hone,
    (h.ledger.occupied_of_readers hr).1, hone, h.ledger.exclusive hone⟩

/-- What a thread inside a call knows. -/
theorem running (h : s.Inv) {t : T} {point : Point} (hc : s.control t = .running point) :
    point.Ok s.issued (s.locks t) := by
  have hp := h.control t
  rw [hc] at hp
  exact hp

variable [DecidableEq T]

/-- A step of `t` that leaves the other threads alone. -/
theorem of_step (h : s.Inv) {s' : State T} (t : T)
    (hledger : Ledger s'.word (s'.held .read) (s'.held .write) s'.issued)
    (hlock : ∀ u, ∀ lock ∈ s'.locks u, lock.id = idFromBits s'.word)
    (hother : ∀ u, u ≠ t → s'.control u = s.control u ∧ s'.locks u = s.locks u)
    (hsub : s.issued ⊆ s'.issued) (hself : (s'.control t).Ok s'.issued (s'.locks t)) : s'.Inv where
  ledger := hledger
  lock_id := hlock
  control u := by
    by_cases hu : u = t
    · subst hu; exact hself
    · obtain ⟨hc, hl⟩ := hother u hu
      rw [hc, hl]
      exact (h.control u).mono hsub

/-- A step that changes neither the word nor the locks. -/
theorem keep (h : s.Inv) {t : T} {control : Control} (queueLock : Option T) (queue : List T)
    (hself : control.Ok s.issued (s.locks t)) :
    ({ s with queueLock := queueLock, queue := queue }.setControl t control).Inv :=
  h.of_step t h.ledger h.lock_id (fun u hu => ⟨by simp [hu], rfl⟩) (fun _ hi => hi) (by simpa using hself)

/-- `t` takes a lock on the current ID. -/
theorem acquire (h : s.Inv) {t : T} {word : UInt64} {lock : Lock} {control : Control}
    (hledger : Ledger word (s.held .read + if lock.kind = .read then 1 else 0)
      (s.held .write + if lock.kind = .write then 1 else 0) s.issued)
    (hid : idFromBits word = idFromBits s.word) (hlock : lock.id = idFromBits s.word)
    (hself : ∀ locks, control.Ok s.issued locks) :
    (({ s with word := word }.record t (.acquire lock)).setControl t control).Inv := by
  refine h.of_step t ?_ ?_ (fun u hu => ⟨by simp [hu], by simp [State.record, hu]⟩)
    (fun _ hi => hi) (by rw [State.setControl_control, Function.update_self]; exact hself _)
  · have hr := held_acquire (s := { s with word := word }) t lock .read
    have hw := held_acquire (s := { s with word := word }) t lock .write
    show Ledger word (({ s with word := word }.record t (.acquire lock)).held .read)
      (({ s with word := word }.record t (.acquire lock)).held .write) s.issued
    rw [hr, hw]
    exact hledger
  · intro u l hl
    show l.id = idFromBits word
    rw [hid]
    by_cases hu : u = t
    · subst hu
      have hl' : l ∈ lock :: s.locks u := by simpa [State.record] using hl
      rcases List.mem_cons.1 hl' with rfl | hl'
      · exact hlock
      · exact h.lock_id u l hl'
    · have hl' : l ∈ s.locks u := by simpa [State.record, hu] using hl
      exact h.lock_id u l hl'

/-- `t` gives a lock up, and the ID stays unless that was the only lock. -/
theorem release (h : s.Inv) {t : T} {word : UInt64} {lock : Lock} {control : Control}
    (hmem : lock ∈ s.locks t)
    (hledger : ∀ reads writes, reads + (if lock.kind = .read then 1 else 0) = s.held .read →
      writes + (if lock.kind = .write then 1 else 0) = s.held .write →
      Ledger word reads writes s.issued)
    (hid : idFromBits word = idFromBits s.word ∨ lock.kind = .write)
    (hself : ∀ locks, control.Ok s.issued locks) :
    (({ s with word := word }.record t (.release lock)).setControl t control).Inv := by
  have hr := held_release (s := { s with word := word }) hmem .read
  have hw := held_release (s := { s with word := word }) hmem .write
  refine h.of_step t (hledger _ _ hr hw) ?_
    (fun u hu => ⟨by simp [hu], by simp [State.record, hu]⟩) (fun _ hi => hi)
    (by rw [State.setControl_control, Function.update_self]; exact hself _)
  intro u l hl
  show l.id = idFromBits word
  rcases hid with hid | hkind
  · rw [hid]
    by_cases hu : u = t
    · subst hu
      have hl' : l ∈ (s.locks u).erase lock := by simpa [State.record] using hl
      exact h.lock_id u l (List.mem_of_mem_erase hl')
    · have hl' : l ∈ s.locks u := by simpa [State.record, hu] using hl
      exact h.lock_id u l hl'
  · -- the write lock was the only lock
    rcases lock with ⟨kind, id⟩
    simp only at hkind
    subst hkind
    obtain ⟨-, -, -, hone, hzero⟩ := h.of_write_lock hmem
    have hnone := no_locks (s := { s with word := word }.record t (.release ⟨.write, id⟩))
      (by simp only [reduceCtorEq, if_false] at hr; exact hr.trans hzero)
      (by simp only [if_true] at hw; have hw' := hw.trans hone; omega) u
    have hl' : l ∈ ({ s with word := word }.record t (.release ⟨.write, id⟩)).locks u := hl
    rw [hnone] at hl'
    exact absurd hl' List.not_mem_nil

/-- `t` changes the word of a header and no lock. -/
theorem rewrite (h : s.Inv) {t : T} {word : UInt64} {control : Control}
    (hledger : Ledger word (s.held .read) (s.held .write) s.issued)
    (hid : idFromBits word = idFromBits s.word ∨ s.held .read = 0 ∧ s.held .write = 0)
    (hself : control.Ok s.issued (s.locks t)) :
    ({ s with word := word }.setControl t control).Inv := by
  refine h.of_step t hledger (fun u lock hl => ?_) (fun u hu => ⟨by simp [hu], rfl⟩) (fun _ hi => hi)
    (by simpa using hself)
  have hl' : lock ∈ s.locks u := hl
  show lock.id = idFromBits word
  rcases hid with hid | ⟨hr, hw⟩
  · rw [hid]
    exact h.lock_id u lock hl'
  · rw [no_locks hr hw] at hl'
    exact absurd hl' List.not_mem_nil

/-- `t` finds the unlocked word and takes the transition of its caller. -/
theorem transition (h : s.Inv) {t : T} {caller : Caller} {control : Control}
    (hcaller : caller.Ok s.issued) (hcur : s.word = occupiedUnlockedBits caller.id)
    (hself : ∀ locks, control.Ok s.issued locks) :
    (({ s with word := caller.target }.record t caller.effect).setControl t control).Inv := by
  have hledger := h.ledger
  rw [hcur] at hledger
  obtain ⟨hreads, hwrites, hid, -⟩ := hledger.unlocked
  cases caller with
  | lockWrite id =>
    obtain ⟨hl, hsame⟩ := hledger.lockWrite
    refine h.acquire hl ?_ ?_ hself
    · rw [hcur]
      exact hsame.trans hid.symm
    · rw [hcur]
      exact hid.symm
  | remove id nextId =>
    obtain ⟨hmem, hnext⟩ := hcaller
    obtain rfl := hnext id nextId rfl
    obtain ⟨hl, -⟩ := hledger.retire hmem hid
    refine h.rewrite ?_ (Or.inr ⟨hreads, hwrites⟩) (hself _)
    rw [hreads, hwrites]
    exact hl

/-- `occupy` on an unoccupied header. -/
theorem occupy (h : s.Inv) {t : T} {control : Control} (hocc : isOccupied s.word = false)
    (hne : idFromBits s.word ≠ reservedId) (hself : ∀ issued locks, control.Ok issued locks) :
    (({ s with word := s.word ||| threadNotificationMask }.record t
      (.issue (idFromBits s.word))).setControl t control).Inv := by
  obtain ⟨hledger, hsame⟩ := h.ledger.occupy hocc hne
  refine h.of_step t hledger (fun u lock hl => ?_) (fun u hu => ⟨by simp [hu], rfl⟩)
    (fun _ hi => List.mem_cons_of_mem _ hi) (by simpa using hself _ _)
  show lock.id = idFromBits (s.word ||| threadNotificationMask)
  rw [hsame]
  exact h.lock_id u lock hl

end State.Inv

end ReadWriteStore.Header
