import ReadWriteStore.Header.Machine
import ReadWriteStore.Transition.Blocking

/-!
# What a thread inside a header waits for

The next step of a thread may need the lock of the parking queue, and a thread in the queue needs somebody
to wake it.
-/

namespace ReadWriteStore.Header

/-- The steps that need the lock of the parking queue. -/
def Control.needsQueue : Control → Bool
  | .running (.park _ _) | .running (.parked _ (some _) _) | .running (.unpark _) => true
  | _ => false

variable {T : Type}

/-- Thread `u` has the lock of the queue that `t` needs, or is about to wake `t`. -/
inductive State.HeldUp (s : State T) (t u : T) : Prop
  | queueLock (hneeds : (s.control t).needsQueue = true) (hlock : s.queueLock = some u)
  | wakeup {result : Return} (hqueue : t ∈ s.queue) (hunpark : s.control u = .running (.unpark result))

/-- Thread `t` sleeps without a deadline, and somebody has a lock on the header. -/
def State.Asleep (s : State T) (t : T) : Prop :=
  t ∈ s.queue ∧ (∃ frame result, s.control t = .running (.parked frame none result)) ∧ ∃ u, s.locks u ≠ []

/-- Inside a call thread `t` has a next step. -/
def State.GoesOn [DecidableEq T] (build : Build) (s : State T) (t : T) : Prop :=
  ∃ e, e.thread = t ∧ (∀ call, e ≠ .call t call) ∧ (step build s e).isSome = true

end ReadWriteStore.Header
