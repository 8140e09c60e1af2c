import ReadWriteStore.Header.Proofs.ServeProofs

/-!
# A call that looks up an ID which is not there

Its first step reads the word, and sees that the ID is another one: the call is told so without a wait.
-/

namespace ReadWriteStore.Header

variable {T : Type} [DecidableEq T] {build : Build} {s s' : State T} {t : T}

/-- The first point of the call. -/
def Attempt.entry (id : UInt32) (timeout : Timeout) : Attempt → Point
  | .lockRead => .lockReadLoad id timeout
  | .lockWrite => .transitionExchange (occupiedUnlockedBits id) (writeLockedBits id) timeout (.lockWrite id)
  | .remove =>
    .transitionExchange (occupiedUnlockedBits id) (unoccupiedBits (id + 1)) timeout (.remove id (id + 1))

theorem start_attempt {id : UInt32} (hid : id ≠ reservedId) (attempt : Attempt) (timeout : Timeout) :
    start build (attempt.call id timeout) = .ok (.running (attempt.entry id timeout)) := by
  have hne : (id != reservedId) = true := bne_iff_ne.2 hid
  cases attempt with
  | lockRead =>
    simp only [Attempt.call, start, hne, debugAssert_true]
    rfl
  | lockWrite =>
    simp only [Attempt.call, start, hne, debugAssert_true]
    rfl
  | remove =>
    have hsucc := next_toNat hid
    have hnext : addU32 build id 1 = .ok (id + 1) := addU32_ok build (by
      have hlt := (id + 1).toNat_lt
      rw [hsucc] at hlt
      exact hlt)
    simp only [Attempt.call, start, hne, debugAssert_true]
    show (addU32 build id 1 >>= _) = _
    rw [hnext]
    rfl

/-- A compare exchange that expects another ID fails. -/
theorem exec_missed {id : UInt32} {new word : UInt64} {spurious : Bool} (hid : idFromBits word ≠ id) :
    (compareExchangeWeak (occupiedUnlockedBits id) new).exec spurious word = (word, .err word) := by
  have hne : ¬(word = occupiedUnlockedBits id ∧ spurious = false) := by
    rintro ⟨rfl, -⟩
    exact hid (idFromBits_occupiedUnlockedBits id)
  exact if_neg hne

theorem transitionErr_missed {id : UInt32} {new word : UInt64} {timeout : Timeout} {caller : Caller}
    (hid : idFromBits word ≠ id) :
    transitionErr (occupiedUnlockedBits id) new word timeout caller = .returned (caller.finish (.ok false)) := by
  unfold transitionErr
  rw [idFromBits_occupiedUnlockedBits, if_neg hid]

theorem miss_step {id : UInt32} {attempt : Attempt} {timeout : Timeout} {spurious : Bool}
    (hid : idFromBits s.word ≠ id) (hc : s.control t = .running (attempt.entry id timeout))
    (hstep : step build s (.act t spurious) = some s') :
    s'.control t = .returned (attempt.answer id (.ok false)) := by
  have hexec : ∀ {point op}, s.control t = .running point → point.op = some op →
      s' = s.exec build t point op spurious := by
    intro point op hpoint hop
    simp only [step, hpoint, hop] at hstep
    exact (Option.some.inj hstep).symm
  cases attempt with
  | lockRead =>
    have hload : (AtomicOp.load .relaxed).exec spurious s.word = (s.word, .value s.word) := rfl
    rw [hexec hc rfl, exec_eq hload, State.setControl_self]
    show Control.ofChecked (lockReadWithCurrent build id s.word timeout) = _
    unfold lockReadWithCurrent
    rw [if_pos hid]
    rfl
  | lockWrite =>
    rw [hexec hc rfl, exec_eq (exec_missed hid), State.setControl_self]
    show transitionErr _ _ s.word _ _ = _
    rw [transitionErr_missed hid]
    rfl
  | remove =>
    rw [hexec hc rfl, exec_eq (exec_missed hid), State.setControl_self]
    show transitionErr _ _ s.word _ _ = _
    rw [transitionErr_missed hid]
    rfl

end ReadWriteStore.Header
