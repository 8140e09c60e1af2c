import ReadWriteStore.Header.Interference
import ReadWriteStore.Header.Proofs.RetryProofs
import ReadWriteStore.Store.Machine

/-!
# How much a call has left to do

The steps of a call are counted down outside the headers, and by the potential of the header inside one. What
a call can do to the others there is paid for in advance.
-/

namespace ReadWriteStore.Bucket

/-- The steps to the end of a call, which has no loop. -/
def Point.rank : Point → ℕ
  | .lockRead => 8
  | .fetch => 7
  | .unlockRead _ => 6
  | .lockWrite => 5
  | .slowFetch => 4
  | .expand | .capacityLockRead => 3
  | .refetch | .capacityLoad => 2
  | .unlockWrite _ | .capacityUnlockRead _ _ => 1

def Control.rank : Control → ℕ
  | .running point => point.rank
  | _ => 0

end ReadWriteStore.Bucket

namespace ReadWriteStore.Store

open Transition (tally)

variable {T E : Type} [DecidableEq T]

/-- The steps that a call has left, as long as nobody interferes with it. -/
def State.workAt (s : State T E) (t : T) : Control E → ℕ
  | .idle => 0
  | .returned _ | .faulted _ => 1
  | .push _ _ => 2
  | .moveOut _ _ _ => 3
  | .header frame => (s.header frame.address).potential t + 4
  | .moveOutLocked _ | .place _ _ => 11
  | .bucket (.insert bucket _) => ((s.bucket bucket).control t).rank + 12
  | .bucket (.capacity bucket _ _) => ((s.bucket bucket).control t).rank + 4 * (15 - bucket.val) + 2
  | .pop _ => 21

/-- How often the call may still change the word of a header. -/
def State.changesAt (s : State T E) (t : T) : Control E → ℕ
  | .pop _ | .bucket (.insert _ _) | .place _ _ | .moveOutLocked _ => 1
  | .header frame => (s.header frame.address).changes t
  | _ => 0

/-- How often the call may still wake the threads that sleep on a header. -/
def State.wakesAt (s : State T E) (t : T) : Control E → ℕ
  | .moveOutLocked _ => 1
  | .header frame => (s.header frame.address).wakes t
  | _ => 0

def State.work (s : State T E) (t : T) : ℕ := s.workAt t (s.control t)

def State.changes (s : State T E) (t : T) : ℕ := s.changesAt t (s.control t)

def State.wakes (s : State T E) (t : T) : ℕ := s.wakesAt t (s.control t)

/-- What a change of a word may cost the other threads, and what a wakeup may. -/
def changeCost (threads : ℕ) : ℕ := threads * 5

def wakeCost (threads : ℕ) : ℕ := threads * (5 + changeCost threads * 2)

def callCost (threads : ℕ) : ℕ := 66 + changeCost threads * 2 + wakeCost threads

def State.budget [Fintype T] (s : State T E) (t : T) : ℕ :=
  s.work t + changeCost (Fintype.card T) * s.changes t + wakeCost (Fintype.card T) * s.wakes t

/-- The step is a weak compare exchange that fails although it finds the word that it expects. -/
def State.failsSpuriously (s : State T E) : Event T E → Bool
  | .act t spurious =>
    match s.control t with
    | .header frame => (s.header frame.address).failsSpuriously (.act t spurious)
    | _ => false
  | _ => false

def Event.isCall : Event T E → Bool
  | .call _ _ => true
  | _ => false

def Event.isElsewhere : Event T E → Bool
  | .elsewhere _ => true
  | _ => false

/-- What a step adds to the budgets of all threads. -/
def State.cost [Fintype T] (s : State T E) (e : Event T E) : ℕ :=
  (if e.isCall then callCost (Fintype.card T) else 0) + (if s.failsSpuriously e then 6 else 0) +
    if e.isElsewhere then 1 else 0

/-- The number of the first steps of a run of which something is true. -/
def steps (n : ℕ) (p : ℕ → Bool) : ℕ := ((Finset.range n).filter fun k => p k = true).card

end ReadWriteStore.Store
