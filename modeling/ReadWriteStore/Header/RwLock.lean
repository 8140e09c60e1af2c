import ReadWriteStore.Header.Machine

/-!
# The read-write lock a header stands for

What the 64 bits mean to a caller: the current ID and one of four modes, with operations that take
effect at once or not at all. The waiting mark is not part of it. `view` reads the lock out of a word.
-/

namespace ReadWriteStore.Header

inductive Mode
  | unoccupied
  | unlocked
  | reading (readers : ℕ)
  | writing
  deriving DecidableEq, Repr

/-- An atomic read-write lock around one element. -/
structure RwLock where
  id : UInt32
  mode : Mode
  deriving DecidableEq, Repr

/-- The operations of the atomic lock. -/
inductive RwOp
  | lockRead (id : UInt32)
  | unlockRead (id : UInt32)
  | lockWrite (id : UInt32)
  | unlockWrite (id : UInt32)
  | remove (id : UInt32)
  | removeLocked (id : UInt32)
  | occupy
  deriving DecidableEq, Repr

/-- The lock after an operation, `none` while the operation cannot take effect. -/
def RwLock.apply (lock : RwLock) : RwOp → Option RwLock
  | .lockRead id =>
    if lock.id = id then
      match lock.mode with
      | .unlocked => some ⟨id, .reading 1⟩
      | .reading readers => some ⟨id, .reading (readers + 1)⟩
      | _ => none
    else none
  | .unlockRead id =>
    if lock.id = id then
      match lock.mode with
      | .reading 1 => some ⟨id, .unlocked⟩
      | .reading (readers + 2) => some ⟨id, .reading (readers + 1)⟩
      | _ => none
    else none
  | .lockWrite id => if lock = ⟨id, .unlocked⟩ then some ⟨id, .writing⟩ else none
  | .unlockWrite id => if lock = ⟨id, .writing⟩ then some ⟨id, .unlocked⟩ else none
  | .remove id => if lock = ⟨id, .unlocked⟩ then some ⟨id + 1, .unoccupied⟩ else none
  | .removeLocked id => if lock = ⟨id, .writing⟩ then some ⟨id + 1, .unoccupied⟩ else none
  | .occupy => if lock.mode = .unoccupied then some ⟨lock.id, .unlocked⟩ else none

/-- The atomic lock as a system of its own. -/
def RwLock.system : Transition.System RwLock RwOp :=
  .ofFn (· = ⟨0, .unoccupied⟩) RwLock.apply fun _ _ => True

/-- The lock that a word encodes. -/
def view (word : UInt64) : RwLock where
  id := idFromBits word
  mode :=
    if isOccupied word then
      if readersFromBits word = 0 then .unlocked
      else if isWriteLocked word then .writing
      else .reading (readersFromBits word).toNat
    else .unoccupied

/-- How many locks of a kind each thread holds under an ID. -/
def State.lockCount {T : Type} (s : State T) (id : UInt32) (t : T) (kind : LockKind) : ℕ :=
  (s.locks t).count ⟨kind, id⟩

/-! ## Attempts -/

/-- The calls that may fail or time out. -/
inductive Attempt
  | lockRead
  | lockWrite
  | remove
  deriving DecidableEq, Repr

def Attempt.call (id : UInt32) (timeout : Timeout) : Attempt → Call
  | .lockRead => .lockRead id timeout
  | .lockWrite => .lockWrite id timeout
  | .remove => .remove id timeout

/-- The operation of the atomic lock that the call is for. -/
def Attempt.op (id : UInt32) : Attempt → RwOp
  | .lockRead => .lockRead id
  | .lockWrite => .lockWrite id
  | .remove => .remove id

/-- What the call returns: `Ok(true)` and `Matched` for a success, `Ok(false)` and `DidntMatch` for a
mismatch. -/
def Attempt.answer (id : UInt32) (result : BlockResult Bool) : Attempt → Return
  | .lockRead => .lockRead result
  | .lockWrite => (Caller.lockWrite id).finish result
  | .remove => (Caller.remove id (id + 1)).finish result

/-- The modes in which the call has to wait. -/
def Attempt.Conflicts (id : UInt32) (lock : RwLock) : Attempt → Prop
  | .lockRead => lock = ⟨id, .writing⟩
  | .lockWrite | .remove => lock = ⟨id, .writing⟩ ∨ ∃ readers, lock = ⟨id, .reading readers⟩

/-- The step at which the call takes effect is behind the thread. -/
def Control.done : Control → Bool
  | .running (.leave _ _ (some (.didntPark (.transitioned true)))) | .running (.unpark _)
  | .returned (.lockRead (.ok true)) | .returned (.lockWrite (.ok true))
  | .returned (.remove (.ok (.matched _))) | .returned .unlockRead | .returned .unlockWrite
  | .returned (.occupy _) | .returned (.removeLocked _) => true
  | _ => false

end ReadWriteStore.Header
