import ReadWriteStore.Header.Machine

/-!
# What a call can still do to the others

A call makes others start over by changing the word, and wakes them up. Until it sleeps or returns it does so
a few times at most.
-/

namespace ReadWriteStore.Header

/-- How often the call may still change the word once it has left `park`. -/
def ParkResult.changes : Option ParkResult → ℕ
  | some (.didntPark (.matched _)) => 2
  | _ => 0

/-- How often the call may still change the word. -/
def Point.changes (queued : Bool) : Point → ℕ
  | .lockReadLoad _ _ | .lockReadExchange _ _ _ _ | .transitionExchange _ _ _ _ | .park _ _ | .closure _ _
  | .markExchange _ _ _ _ => 2
  | .leave _ _ result => ParkResult.changes result
  | .parked _ _ _ => if queued then 0 else 2
  | .unlockReadLoad _ | .unlockReadExchange _ _ _ _ | .unlockWriteSwap _ _ | .removeLockedSwap _ _ _
  | .occupyFetchOr => 1
  | .enqueue _ _ _ | .unpark _ => 0

/-- How often the call may still wake the queue. -/
def Point.wakes : Point → ℕ
  | .unlockReadLoad _ | .unlockReadExchange _ _ _ _ | .unlockWriteSwap _ _ | .removeLockedSwap _ _ _
  | .unpark _ => 1
  | _ => 0

def Control.changes (queued : Bool) : Control → ℕ
  | .running point => point.changes queued
  | _ => 0

def Control.wakes : Control → ℕ
  | .running point => point.wakes
  | _ => 0

variable {T : Type}

def State.changes [DecidableEq T] (s : State T) (t : T) : ℕ := (s.control t).changes (decide (t ∈ s.queue))

def State.wakes (s : State T) (t : T) : ℕ := (s.control t).wakes

/-- A step of thread `t` that makes others start over, or wakes them, has one such step less to take. -/
structure Pays [DecidableEq T] (s s' : State T) (t : T) : Prop where
  changes : s'.changes t ≤ s.changes t
  wakes : s'.wakes t ≤ s.wakes t
  word : s'.word = s.word ∨ s'.changes t < s.changes t
  queue : (∀ u, u ≠ t → (u ∈ s'.queue ↔ u ∈ s.queue)) ∨ s'.wakes t < s.wakes t

end ReadWriteStore.Header
