import ReadWriteStore.Header.Word

/-!
# What a header word says

The contents of a header, the word that the helpers build for them, and what it takes for the words to
be a faithful encoding of the contents.
-/

namespace ReadWriteStore.Header

/-- How a header is used: a shared header without readers is unlocked. -/
inductive LockMode
  | unoccupied
  | shared (readers : ℕ)
  | write
  deriving DecidableEq, Repr

/-- There is a lock on the header. -/
def LockMode.Locked : LockMode → Prop
  | .unoccupied => False
  | .shared readers => readers ≠ 0
  | .write => True

/-- The mode that the helpers read from a word. -/
def modeFromBits (bits : UInt64) : LockMode :=
  if isOccupied bits then
    if isWriteLocked bits then .write else .shared (readersFromBits bits).toNat
  else .unoccupied

/-- The contents of a header. -/
@[ext]
structure Contents where
  /-- The ID, or the next one when unoccupied. -/
  id : UInt32
  mode : LockMode
  /-- There are threads blocking. -/
  waiting : Bool
  issued : mode ≠ .unoccupied → id ≠ reservedId
  readers_le : ∀ readers, mode = .shared readers → readers ≤ maxConcurrentReads.toNat
  locked : waiting = true → mode.Locked

/-- Locks a word for one reader after the other. -/
def addReaders (build : Build) : ℕ → UInt64 → Checked UInt64
  | 0, bits => return bits
  | readers + 1, bits => do
    let bits ← addReaders build readers bits
    incrementReaders build bits

namespace Contents

/-- The word for the contents before it is marked. -/
def lockBits (build : Build) (contents : Contents) : Checked UInt64 :=
  match contents.mode with
  | .unoccupied => return unoccupiedBits contents.id
  | .shared readers => addReaders build readers (occupiedUnlockedBits contents.id)
  | .write => return writeLockedBits contents.id

/-- The word for the contents, built by the helpers. -/
def bits (build : Build) (contents : Contents) : Checked UInt64 := do
  let bits ← contents.lockBits build
  if contents.waiting then markThreadBlocking build bits else return bits

/-- The second contents have one reader more. -/
structure OneMore (before after : Contents) : Prop where
  id : after.id = before.id
  waiting : after.waiting = before.waiting
  readers : ∃ readers, before.mode = .shared readers ∧ after.mode = .shared (readers + 1)

/-- The second contents differ in the mark at most. -/
structure SameLock (before after : Contents) : Prop where
  id : after.id = before.id
  mode : after.mode = before.mode

end Contents

/-- The packed word is a faithful encoding of the contents of a header. -/
structure Faithful (build : Build) : Prop where
  builds : ∀ contents : Contents, ∃ bits, contents.bits build = .ok bits
  different : ∀ contents contents' : Contents,
    contents.bits build = contents'.bits build → contents = contents'
  id : ∀ (contents : Contents) bits, contents.bits build = .ok bits → idFromBits bits = contents.id
  mode : ∀ (contents : Contents) bits, contents.bits build = .ok bits →
    modeFromBits bits = contents.mode
  occupied : ∀ (contents : Contents) bits, contents.bits build = .ok bits →
    (isOccupied bits = true ↔ contents.mode ≠ .unoccupied)
  writeLocked : ∀ (contents : Contents) bits, contents.bits build = .ok bits →
    (isWriteLocked bits = true ↔ contents.mode = .write)
  readers : ∀ (contents : Contents) bits readers, contents.bits build = .ok bits →
    contents.mode = .shared readers → (readersFromBits bits).toNat = readers
  waiting : ∀ (contents : Contents) bits, contents.bits build = .ok bits →
    contents.mode ≠ .unoccupied → hasThreadBlocking build bits = .ok contents.waiting
  /-- `increment_readers` panics at the limit, and nowhere else. -/
  increment_panics : ∀ (contents : Contents) bits readers fault, contents.bits build = .ok bits →
    contents.mode = .shared readers →
    (incrementReaders build bits = .error fault ↔
      readers = maxConcurrentReads.toNat ∧ fault = tooManyReaders)
  increment : ∀ (contents contents' : Contents) bits, contents.bits build = .ok bits →
    contents.OneMore contents' → incrementReaders build bits = contents'.bits build
  /-- It carries into nothing else. -/
  increment_keeps : ∀ (contents : Contents) bits bits' readers, contents.bits build = .ok bits →
    contents.mode = .shared readers → incrementReaders build bits = .ok bits' →
    bits' &&& threadNotificationMask = bits &&& threadNotificationMask ∧
      idFromBits bits' = idFromBits bits ∧ isWriteLocked bits' = false
  decrement : ∀ (contents : Contents) bits bits' readers, contents.bits build = .ok bits →
    contents.mode = .shared readers → incrementReaders build bits = .ok bits' →
    decrementReaders build bits' = .ok bits
  /-- It borrows from nothing else, also where the last reader leaves waiting threads behind. -/
  decrement_keeps : ∀ (contents : Contents) bits readers, contents.bits build = .ok bits →
    contents.mode = .shared (readers + 1) → ∃ bits', decrementReaders build bits = .ok bits' ∧
      bits' &&& threadNotificationMask = bits &&& threadNotificationMask ∧
      idFromBits bits' = idFromBits bits ∧ (readersFromBits bits').toNat = readers
  mark : ∀ (contents contents' : Contents) bits, contents.bits build = .ok bits →
    contents.mode.Locked → contents.SameLock contents' → contents'.waiting = true →
    markThreadBlocking build bits = contents'.bits build
  mark_keeps : ∀ (contents : Contents) bits, contents.bits build = .ok bits → contents.mode.Locked →
    ∃ bits', markThreadBlocking build bits = .ok bits' ∧
      bits' ||| threadNotificationMask = bits ||| threadNotificationMask
  unmark : ∀ (contents contents' : Contents) bits, contents.bits build = .ok bits →
    contents.mode.Locked → contents.SameLock contents' → contents'.waiting = false →
    .ok (unmarkThreadBlocking bits) = contents'.bits build
  unmark_keeps : ∀ bits : UInt64,
    unmarkThreadBlocking bits &&& ~~~threadNotificationMask = bits &&& ~~~threadNotificationMask
  /-- The last reader leaves, and there are threads to wake. -/
  last_leaves : ∀ (contents : Contents) bits, contents.bits build = .ok bits →
    contents.mode = .shared 1 → contents.waiting = true →
    (do return unmarkThreadBlocking (← decrementReaders build bits)) =
      (.ok (occupiedUnlockedBits contents.id) : Checked UInt64)

end ReadWriteStore.Header
