import ReadWriteStore.Header.Proofs.ChangeProofs

/-!
# Mutual exclusion of a header

Every reachable state of a header meets its invariant, whatever the threads and their interleaving.
-/

namespace ReadWriteStore.Header

open Transition

variable {T : Type} [Fintype T] {build : Build} {s s' : State T}

/-- A call that the protocol allows starts without a fault. -/
theorem start_ok (h : s.Inv) {t : T} {c : Call} (ha : Allowed s (.call t c)) :
    (Control.ofChecked (start build c)).Ok s.issued (s.locks t) := by
  cases c with
  | lockRead id timeout =>
    have hne : (id != reservedId) = true := by simpa using h.ne_reserved ha
    simp only [start, hne, debugAssert_true]
    exact ha
  | unlockRead id => exact ha
  | lockWrite id timeout =>
    have hne : (id != reservedId) = true := by simpa using h.ne_reserved ha
    simp only [start, hne, debugAssert_true]
    exact ⟨⟨ha, fun _ _ he => by cases he⟩, rfl, rfl⟩
  | unlockWrite id => exact ⟨ha, rfl⟩
  | occupy => trivial
  | remove id timeout =>
    have hne := h.ne_reserved ha
    have hne' : (id != reservedId) = true := by simpa using hne
    have hnext := next_toNat hne
    have hlt := (id + 1).toNat_lt
    simp only [start, hne', debugAssert_true, addU32_ok build (a := id) (b := 1) (by simp; omega)]
    exact ⟨⟨ha, fun _ _ he => by cases he; rfl⟩, rfl, rfl⟩
  | removeLocked id =>
    obtain ⟨hid, -, hocc, -⟩ := h.of_write_lock ha
    have hmem := h.ledger.occupied.1 ((isOccupied_iff _).1 hocc)
    rw [hid] at hmem
    have hnext := next_toNat (h.ne_reserved hmem)
    have hlt := (id + 1).toNat_lt
    simp only [start, addU32_ok build (a := id) (b := 1) (by simp; omega)]
    exact ⟨ha, rfl, rfl⟩

variable [DecidableEq T]

/-- Every step that the protocol allows preserves the invariant. -/
theorem State.Inv.move (h : s.Inv) {e : Event T} (ha : Allowed s e) (hm : Move build s e s') :
    s'.Inv := by
  cases hm with
  | call hc => exact h.keep _ _ (start_ok h ha)
  | exec hc hop =>
    refine h.change (h.exec_change hc hop ?_)
    rintro rfl
    exact ha hc
  | park hc hfree => exact h.keep _ _ (h.running hc)
  | enqueue hc => exact h.keep _ _ (h.running hc)
  | leave hc =>
    obtain ⟨hframe, response, rfl, hresp⟩ := h.running hc
    refine h.keep _ _ (afterPark_ok hframe (h.ne_reserved hframe.mem) ?_)
    intro r hr
    cases hr
    exact hresp
  | wake hc hq =>
    obtain ⟨hframe, rfl⟩ := h.running hc
    exact h.keep _ _ (afterPark_ok hframe (h.ne_reserved hframe.mem) fun r hr => by cases hr)
  | unpark hc hfree => exact h.keep _ _ trivial
  | expire hc hq hfree =>
    obtain ⟨hframe, rfl⟩ := h.running hc
    exact h.keep _ _ (afterPark_ok hframe (h.ne_reserved hframe.mem) fun r hr => by cases hr)
  | ret hc => exact h.keep _ _ trivial

omit [Fintype T] in
/-- A step of one thread changes neither where the others are nor their locks. -/
theorem Move.frame {e : Event T} (hm : Move build s e s') {u : T} (hu : u ≠ e.thread) :
    s'.control u = s.control u ∧ s'.locks u = s.locks u := by
  cases hm with
  | @exec t spurious point op hc hop =>
    have hu' : u ≠ t := hu
    refine ⟨by simp [State.exec, hu'], ?_⟩
    exact State.record_locks_ne _ _ _ hu'
  | @expire t frame deadline result hc hq hfree =>
    have hu' : u ≠ t := hu
    exact ⟨by simp [State.expire, hu'], rfl⟩
  | _ =>
    simp only [Event.thread] at hu
    exact ⟨by simp [hu], rfl⟩

omit [Fintype T] in
/-- An ID that has been issued stays issued. -/
theorem Move.issued_subset {e : Event T} (hm : Move build s e s') : s.issued ⊆ s'.issued := by
  cases hm with
  | @exec t spurious point op hc hop =>
    exact State.record_issued_subset { s with word := (op.exec spurious s.word).1 } t _
  | _ => exact fun _ hid => hid

theorem reachable_inv (h : (machine build T).Reachable s) : s.Inv := by
  refine h.invariant ?_ ?_
  · rintro _ rfl
    exact State.Inv.init
  · intro s e s' hinv hs
    exact hinv.move hs.1 (Move.of_step hs.2)

/-- While a thread holds a write lock, nobody else holds a lock. -/
theorem State.Inv.sole_writer (h : s.Inv) {t u : T} {id : UInt32} (hlock : ⟨.write, id⟩ ∈ s.locks t)
    (hut : u ≠ t) : s.locks u = [] := by
  obtain ⟨-, -, -, hone, hzero⟩ := h.of_write_lock hlock
  rw [List.eq_nil_iff_forall_not_mem]
  intro lock hmem
  rcases lock with ⟨kind, id'⟩
  cases kind with
  | read =>
    have hpos := held_pos hmem
    simp only at hpos
    omega
  | write =>
    have htwo := add_le_tally (fun t => (s.locks t).countP (·.kind = .write)) hut
    have hu : 0 < (s.locks u).countP (·.kind = .write) := List.countP_pos_iff.2 ⟨_, hmem, by simp⟩
    have ht : 0 < (s.locks t).countP (·.kind = .write) := List.countP_pos_iff.2 ⟨_, hlock, by simp⟩
    unfold State.held at hone
    omega

/-- The only way for a step to fault is the limit on readers, and then nothing has changed. -/
theorem State.Inv.fault (h : s.Inv) {e : Event T} (ha : Allowed s e) (hm : Move build s e s')
    {fault : Fault} (hf : s'.control e.thread = .faulted fault) :
    fault = tooManyReaders ∧ s'.word = s.word ∧ s'.locks = s.locks := by
  have hok := (h.move ha hm).control e.thread
  rw [hf] at hok
  refine ⟨hok, ?_⟩
  cases hm with
  | @exec t spurious point op hc hop =>
    have hch : Change build s t point (s.exec build t point op spurious) :=
      h.exec_change hc hop (by rintro rfl; exact ha hc)
    generalize s.exec build t point op spurious = s' at hch hf
    have hf' : s'.control t = .faulted fault := hf
    cases hch with
    | stay _ _ _ => exact ⟨rfl, rfl⟩
    | dropReader _ _ =>
      rw [State.setControl_control, Function.update_self] at hf'
      split at hf' <;> cases hf'
    | unlockWrite _ =>
      rw [State.setControl_control, Function.update_self, wakeIf] at hf'
      split at hf' <;> cases hf'
    | removeLocked _ =>
      rw [State.setControl_control, Function.update_self, wakeIf] at hf'
      split at hf' <;> cases hf'
    | _ =>
      rw [State.setControl_control, Function.update_self] at hf'
      cases hf'
  | _ => exact ⟨rfl, rfl⟩

omit [Fintype T] in
/-- `lock_read` panics when it meets a header with as many readers as it can count. -/
theorem lockRead_full {t : T} {timeout : Timeout} (spurious : Bool)
    (hc : s.control t = .running (.lockReadLoad (idFromBits s.word) timeout))
    (hfull : readersFromBits s.word = maxConcurrentReads) :
    step build s (.act t spurious) = some (s.setControl t (.faulted tooManyReaders)) := by
  have hw : isWriteLocked s.word = false := by
    rw [Bool.eq_false_iff, ne_eq, isWriteLocked_iff, ← readersFromBits_toNat, hfull]
    simp
  simp only [step, hc, Point.op]
  have hexec : (AtomicOp.load .relaxed).exec spurious s.word = (s.word, .value s.word) := rfl
  rw [exec_stay hexec rfl]
  simp only [Point.resume, Reply.found, lockReadWithCurrent, lockReadExchange, ne_eq, not_true_eq_false,
    if_false, hw, Bool.false_eq_true, incrementReaders_full build hfull]
  rfl

/-! ## The theorem -/

/-- What the locks of a header exclude, in one state and in the steps it allows. -/
structure MutualExclusion (build : Build) (s : State T) : Prop where
  /-- Without a write lock the reader field counts the read locks. -/
  readers : s.held .write = 0 → (readersFromBits s.word).toNat = s.held .read
  /-- The reader field is all ones exactly when one write lock is held. -/
  pattern : (readersFromBits s.word).toNat = 2 ^ 31 - 1 ↔ s.held .write = 1
  one_writer : s.held .write ≤ 1
  no_reader_and_writer : s.held .write = 1 → s.held .read = 0
  /-- Every lock is for the current ID. -/
  lock_id : ∀ t, ∀ lock ∈ s.locks t, lock.id = idFromBits s.word
  /-- The ID changes only in a step taken while no other thread holds a lock. -/
  removal : ∀ e s', Allowed s e → step build s e = some s' → idFromBits s'.word ≠ idFromBits s.word →
    ∀ u, u ≠ e.thread → s.locks u = []
  /-- There are never more readers than the header can count. -/
  limit : s.held .read ≤ maxConcurrentReads.toNat
  /-- A step that panics does so because of that limit, and takes no lock. -/
  panic : ∀ e s' fault, Allowed s e → step build s e = some s' →
    s'.control e.thread = .faulted fault →
    fault = tooManyReaders ∧ s'.word = s.word ∧ s'.locks = s.locks
  /-- One reader more panics. -/
  beyond : ∀ t timeout spurious, s.held .read = maxConcurrentReads.toNat →
    s.control t = .running (.lockReadLoad (idFromBits s.word) timeout) →
    step build s (.act t spurious) = some (s.setControl t (.faulted tooManyReaders))

theorem State.Inv.mutualExclusion (h : s.Inv) : MutualExclusion build s where
  readers hz := by
    rw [readersFromBits_toNat, h.ledger.field, if_pos hz]
  pattern := by
    rw [readersFromBits_toNat, ← isWriteLocked_iff]
    exact h.ledger.isWriteLocked_iff_writes
  one_writer := h.ledger.writes_le
  no_reader_and_writer := h.ledger.exclusive
  lock_id := h.lock_id
  removal e s' ha hs hne u hu := by
    have hm := Move.of_step hs
    rw [List.eq_nil_iff_forall_not_mem]
    intro lock hlock
    have hlock' : lock ∈ s'.locks u := by rw [(hm.frame hu).2]; exact hlock
    exact hne (((h.move ha hm).lock_id u lock hlock').symm.trans (h.lock_id u lock hlock))
  limit := by
    rw [maxConcurrentReads_toNat]
    exact h.ledger.reads_le
  panic e s' fault ha hs hf := h.fault ha (Move.of_step hs) hf
  beyond t timeout spurious hfull hc := by
    refine lockRead_full spurious hc ?_
    have hz : s.held .write = 0 := by
      have := h.ledger.writes_le
      have hex := h.ledger.exclusive
      rw [maxConcurrentReads_toNat] at hfull
      omega
    rw [← UInt32.toNat_inj, readersFromBits_toNat, h.ledger.field, if_pos hz, hfull]

/-- In every reachable state the word says which locks are held: a writer is alone, the reader field counts the
readers, and every lock is for the current ID. -/
theorem mutual_exclusion (build : Build) (T : Type) [Fintype T] [DecidableEq T] (s : State T)
    (hs : (machine build T).Reachable s) : MutualExclusion build s :=
  (reachable_inv hs).mutualExclusion

/-- Two threads hold read locks of the element that the first one inserted. -/
theorem mutual_exclusion_two_readers :
    ∃ s : State (Fin 2), (machine .debug (Fin 2)).Reachable s ∧
      (∀ t, s.locks t = [⟨.read, 0⟩]) ∧ MutualExclusion .debug s := by
  obtain ⟨s, hs, hp⟩ := exists_reachable .debug
    [.call 0 .occupy, .act 0 false, .ret 0,
      .call 0 (.lockRead 0 .dontBlock), .call 1 (.lockRead 0 .blockIndefinitely), .act 0 false,
      .act 1 false, .act 0 true, .act 0 false, .act 1 false, .act 1 false]
    (fun s : State (Fin 2) => ∀ t, s.locks t = [⟨.read, 0⟩]) (by decide)
  exact ⟨s, hs, of_decide_eq_true hp, mutual_exclusion .debug (Fin 2) s hs⟩

end ReadWriteStore.Header
