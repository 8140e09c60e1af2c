import ReadWriteStore.Bucket.Machine
import ReadWriteStore.Transition.Blocking

/-!
# What a thread inside a bucket waits for

The points that take the lock of a bucket, and where a thread is in which call.
-/

namespace ReadWriteStore.Bucket

/-- The call that a point belongs to. -/
def Point.call : Point → Call
  | .lockRead | .fetch | .unlockRead _ | .lockWrite | .slowFetch | .expand | .refetch | .unlockWrite _ =>
    .nextInsertLocation
  | .capacityLockRead | .capacityLoad | .capacityUnlockRead _ _ => .capacity

/-- Where a thread can be while it serves a call. -/
def Control.Serves (c : Call) : Control → Prop
  | .idle => False
  | .running point => point.call = c
  | .returned (.location _) => c = .nextInsertLocation
  | .returned (.capacity _ _) => c = .capacity
  | .faulted _ => True

/-- The points that take the lock. -/
def Control.needsLock : Control → Bool
  | .running .lockRead | .running .lockWrite | .running .capacityLockRead => true
  | _ => false

variable {T : Type}

/-- Thread `u` has the lock that `t` needs. -/
def State.HeldUp (s : State T) (t u : T) : Prop :=
  (s.control t).needsLock = true ∧ (s.writer = some u ∨ u ∈ s.readers)

/-- Inside a call thread `t` has a next step. -/
def State.GoesOn [DecidableEq T] (build : Build) (s : State T) (t : T) : Prop :=
  ∃ e, e.thread = t ∧ (∀ call, e ≠ .call t call) ∧ (step build s e).isSome = true

end ReadWriteStore.Bucket
