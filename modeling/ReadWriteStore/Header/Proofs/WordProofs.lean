import ReadWriteStore.Header.Word
import Mathlib.Data.Nat.Bitwise
import Mathlib.Tactic.Ring
import Mathlib.Tactic.NormNum

/-!
# The packed header word: arithmetic of the three fields

As a number a word is `id + 2 ^ 32 * readers + 2 ^ 63 * notification`. The lemmas `_toNat` say what
each helper reads from that number and what it makes of it, so that every later fact about a word is
linear arithmetic.
-/

namespace ReadWriteStore.Header

/-! ## Reading the fields -/

@[simp] theorem reservedId_toNat : reservedId.toNat = 2 ^ 32 - 1 := by decide

@[simp] theorem maxConcurrentReads_toNat : maxConcurrentReads.toNat = 2 ^ 31 - 2 := by decide

theorem idFromBits_toNat (w : UInt64) : (idFromBits w).toNat = w.toNat % 2 ^ 32 := by
  simp [idFromBits]

theorem isOccupied_iff (w : UInt64) : isOccupied w = true ↔ 2 ^ 32 ≤ w.toNat := by
  simp [isOccupied, ← UInt64.toNat_inj, Nat.shiftRight_eq_div_pow]

theorem readersFromBits_toNat (w : UInt64) :
    (readersFromBits w).toNat = w.toNat / 2 ^ 32 % 2 ^ 31 := by
  have hmask : (~~~((1 : UInt32) <<< 31)).toNat = 2 ^ 31 - 1 := by decide
  rw [readersFromBits, UInt32.toNat_and, hmask, Nat.and_two_pow_sub_one_eq_mod]
  simp [Nat.shiftRight_eq_div_pow]

theorem isWriteLocked_iff (w : UInt64) :
    isWriteLocked w = true ↔ w.toNat / 2 ^ 32 % 2 ^ 31 = 2 ^ 31 - 1 := by
  have hmask : (~~~((1 : UInt32) <<< 31)).toNat = 2 ^ 31 - 1 := by decide
  rw [isWriteLocked, beq_iff_eq, ← UInt32.toNat_inj, readersFromBits_toNat, hmask]

theorem idFromBits_eq_iff (w : UInt64) (id : UInt32) :
    idFromBits w = id ↔ w.toNat % 2 ^ 32 = id.toNat := by
  rw [← UInt32.toNat_inj, idFromBits_toNat]

/-- A word whose reader bits are all unset and that is occupied has its notification bit set. -/
theorem notification_of_unlocked {w : UInt64} (hocc : isOccupied w = true)
    (hr : readersFromBits w = 0) : 2 ^ 63 ≤ w.toNat := by
  rw [isOccupied_iff] at hocc
  rw [← UInt32.toNat_inj, readersFromBits_toNat] at hr
  have := w.toNat_lt
  simp at hr
  omega

/-! ## The words built from an ID -/

theorem threadNotificationMask_toNat : threadNotificationMask.toNat = 2 ^ 63 := by decide

theorem unoccupiedBits_toNat (id : UInt32) : (unoccupiedBits id).toNat = id.toNat := by
  simp [unoccupiedBits]

/-- Setting the notification bit of a word that does not have it. -/
theorem or_mask_toNat {w : UInt64} (h : w.toNat < 2 ^ 63) :
    (w ||| threadNotificationMask).toNat = w.toNat + 2 ^ 63 := by
  have hadd := Nat.two_pow_add_eq_or_of_lt h 1
  rw [mul_one] at hadd
  rw [UInt64.toNat_or, threadNotificationMask_toNat, Nat.lor_comm, ← hadd, Nat.add_comm]

theorem occupiedUnlockedBits_toNat (id : UInt32) :
    (occupiedUnlockedBits id).toNat = id.toNat + 2 ^ 63 := by
  have hid := id.toNat_lt
  have hlt : (unoccupiedBits id).toNat < 2 ^ 63 := by rw [unoccupiedBits_toNat]; omega
  rw [occupiedUnlockedBits, UInt64.or_comm, or_mask_toNat hlt, unoccupiedBits_toNat]

theorem writeLockedBits_toNat (id : UInt32) :
    (writeLockedBits id).toNat = id.toNat + (2 ^ 32 - 1) * 2 ^ 32 := by
  have hid := id.toNat_lt
  have hmask : ((0xFFFFFFFF : UInt32).toUInt64 <<< 32).toNat = 2 ^ 32 * (2 ^ 32 - 1) := by decide
  rw [writeLockedBits, UInt64.toNat_or, hmask, Nat.lor_comm, UInt32.toNat_toUInt64,
    ← Nat.two_pow_add_eq_or_of_lt (by omega)]
  omega

theorem idFromBits_occupiedUnlockedBits (id : UInt32) : idFromBits (occupiedUnlockedBits id) = id := by
  have hid := id.toNat_lt
  rw [idFromBits_eq_iff, occupiedUnlockedBits_toNat]
  omega

theorem readers_of_writeLocked {w : UInt64} (h : isWriteLocked w = true) : readersFromBits w ≠ 0 := by
  intro he
  rw [isWriteLocked_iff, ← readersFromBits_toNat, he] at h
  simp at h

/-! ## Changing the fields -/

theorem mark_toNat (w : UInt64) : (w &&& ~~~threadNotificationMask).toNat = w.toNat % 2 ^ 63 := by
  have hmask : (~~~threadNotificationMask).toNat = 2 ^ 63 - 1 := by decide
  rw [UInt64.toNat_and, hmask, Nat.and_two_pow_sub_one_eq_mod]

theorem unmarkThreadBlocking_toNat (w : UInt64) :
    (unmarkThreadBlocking w).toNat = w.toNat % 2 ^ 63 + 2 ^ 63 := by
  have hw := w.toNat_lt
  have hmark := mark_toNat w
  -- the bit is cleared first, so that setting it is an addition
  have hor : unmarkThreadBlocking w = (w &&& ~~~threadNotificationMask) ||| threadNotificationMask := by
    rw [unmarkThreadBlocking]
    apply UInt64.toBitVec_inj.1
    ext i hi
    simp only [UInt64.toBitVec_or, UInt64.toBitVec_and, UInt64.toBitVec_not, BitVec.getElem_or,
      BitVec.getElem_and, BitVec.getElem_not]
    cases w.toBitVec[i] <;> cases threadNotificationMask.toBitVec[i] <;> rfl
  rw [hor, or_mask_toNat (by omega), hmark]

theorem no_threadBlocking_iff (w : UInt64) :
    (w &&& threadNotificationMask == 0) = true ↔ w.toNat < 2 ^ 63 := by
  have hw := w.toNat_lt
  rw [beq_iff_eq, ← UInt64.toNat_inj, UInt64.toNat_and, threadNotificationMask_toNat, UInt64.toNat_zero,
    Nat.and_two_pow, Nat.testBit_eq_decide_div_mod_eq]
  simp
  omega

theorem increment_toNat {w : UInt64} (h : w.toNat + 2 ^ 32 < 2 ^ 64) :
    (w + ((1 : UInt64) <<< 32)).toNat = w.toNat + 2 ^ 32 := by
  have hone : ((1 : UInt64) <<< 32).toNat = 2 ^ 32 := by decide
  rw [UInt64.toNat_add, hone, Nat.mod_eq_of_lt h]

theorem decrement_toNat {w : UInt64} (h : 2 ^ 32 ≤ w.toNat) :
    (w - ((1 : UInt64) <<< 32)).toNat = w.toNat - 2 ^ 32 := by
  have hone : ((1 : UInt64) <<< 32).toNat = 2 ^ 32 := by decide
  rw [UInt64.toNat_sub_of_le _ _ (by rw [UInt64.le_iff_toNat_le, hone]; exact h), hone]

/-! ## The helpers that assert -/

theorem hasThreadBlocking_ok (build : Build) {w : UInt64} (h : isOccupied w = true) :
    hasThreadBlocking build w = .ok (decide (w.toNat < 2 ^ 63)) := by
  have hiff := no_threadBlocking_iff w
  simp only [hasThreadBlocking, h, debugAssert_true]
  show Except.ok _ = _
  congr 1
  rw [Bool.eq_iff_iff, hiff, decide_eq_true_iff]

theorem markThreadBlocking_ok (build : Build) {w : UInt64} (hr : readersFromBits w ≠ 0)
    (hid : idFromBits w ≠ reservedId) :
    markThreadBlocking build w = .ok (w &&& ~~~threadNotificationMask) := by
  have hpos : readersFromBits w > 0 := by
    rw [gt_iff_lt, UInt32.lt_iff_toNat_lt]
    have : (readersFromBits w).toNat ≠ 0 := fun h => hr (UInt32.toNat_inj.1 h)
    simpa using Nat.pos_of_ne_zero this
  have hid' : (idFromBits w != reservedId) = true := by simpa using hid
  simp only [markThreadBlocking, hpos, decide_true, hid', debugAssert_true]
  rfl

theorem incrementReaders_full (build : Build) {w : UInt64}
    (h : readersFromBits w = maxConcurrentReads) : incrementReaders build w = .error tooManyReaders := by
  simp [incrementReaders, h]
  rfl

theorem incrementReaders_ok (build : Build) {w : UInt64} (hr : readersFromBits w ≠ maxConcurrentReads)
    (hw : isWriteLocked w = false) (hid : idFromBits w ≠ reservedId) :
    incrementReaders build w = .ok (w + ((1 : UInt64) <<< 32)) := by
  have hid' : (idFromBits w != reservedId) = true := by simpa using hid
  simp only [incrementReaders, beq_iff_eq, hr, if_false, hw, Bool.not_false, debugAssert_true, hid']
  rfl

theorem decrementReaders_ok (build : Build) {w : UInt64} (hr : readersFromBits w ≠ 0) :
    decrementReaders build w = .ok (w - ((1 : UInt64) <<< 32)) := by
  have hr' : (readersFromBits w != 0) = true := by simpa using hr
  simp only [decrementReaders, hr', debugAssert_true]
  rfl

end ReadWriteStore.Header
