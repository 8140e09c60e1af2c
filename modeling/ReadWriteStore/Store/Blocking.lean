import ReadWriteStore.Bucket.Blocking
import ReadWriteStore.Header.Blocking
import ReadWriteStore.Store.Machine

/-!
# What a thread inside the store waits for

Threads hold one another up with the lock of a bucket, the lock of a parking queue, or a wakeup that is due;
what is left is a thread that sleeps until a caller drops a lock.
-/

namespace ReadWriteStore.Store

open Transition (Moves)

variable {T E : Type} [DecidableEq T]

/-- Thread `u` has to do something inside the store before `t` can go on. -/
def State.HeldUp (s : State T E) (t u : T) : Prop :=
  (∃ address, (s.header address).HeldUp t u) ∨ ∃ bucket, (s.bucket bucket).HeldUp t u

/-- Thread `t` sleeps without a deadline on a slot that somebody has locked. -/
def State.Asleep (s : State T E) (t : T) : Prop :=
  ∃ frame, s.control t = .header frame ∧ (s.header frame.address).Asleep t

/-- Thread `t` is inside a call, and has a next step. -/
def State.GoesOn (build : Build) (s : State T E) (t : T) : Prop :=
  s.control t ≠ .idle ∧ ∃ e, e.thread = t ∧ (step build s e).isSome = true

/-- Nobody waits for nothing. -/
structure State.DeadlockFree (build : Build) (s : State T E) : Prop where
  /-- Only a lock that is held on its slot keeps a thread from going on for good. -/
  each : ∀ t, s.control t ≠ .idle → s.Asleep t ∨ Moves (s.GoesOn build) s.HeldUp t
  /-- Where no lock is held, some thread goes on. -/
  free : (∀ address u, (s.header address).locks u = []) → ∀ t, s.control t ≠ .idle → ∃ u, s.GoesOn build u

end ReadWriteStore.Store
