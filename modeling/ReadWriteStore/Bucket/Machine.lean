import ReadWriteStore.Bucket.Block
import ReadWriteStore.Transition.System

/-!
# One bucket shared by any number of threads

The calls `next_insert_location` and `capacity` step by step: taking and dropping the read and the
write lock of the bucket, and what happens in between. The lock is taken to exclude: readers share it
and a writer has it alone.
-/

namespace ReadWriteStore.Bucket

inductive Call
  | nextInsertLocation
  | capacity
  deriving DecidableEq, Repr

inductive Return
  | location (location : Location)
  | capacity (touched allocated : UInt32)
  deriving DecidableEq, Repr

/-- The next step of a thread inside a call. -/
inductive Point
  /-- `next_insert_location`: take the read lock. -/
  | lockRead
  /-- Under the read lock. -/
  | fetch
  /-- Drop the read lock. -/
  | unlockRead (location : Checked (Option Location))
  /-- `next_insert_location_slow`: take the write lock. -/
  | lockWrite
  /-- Under the write lock: try again. -/
  | slowFetch
  | expand
  /-- Under the write lock: the slot that has to be there now. -/
  | refetch
  /-- Drop the write lock, to return or to unwind. -/
  | unlockWrite (location : Checked Location)
  /-- `capacity`: take the read lock. -/
  | capacityLockRead
  | capacityLoad
  | capacityUnlockRead (headSize used : UInt32)

inductive Control
  | idle
  | running (point : Point)
  | returned (result : Return)
  | faulted (fault : Fault)

/-- `Bucket`, with its lock. -/
structure State (T : Type) where
  inner : Inner
  /-- The threads that hold a read lock. -/
  readers : List T
  /-- The thread that holds the write lock. -/
  writer : Option T
  control : T → Control

inductive Event (T : Type)
  /-- An idle thread calls a method. -/
  | call (thread : T) (call : Call)
  | act (thread : T)
  /-- A finished call goes back to its caller. -/
  | ret (thread : T)
  deriving DecidableEq, Repr

def Event.thread {T : Type} : Event T → T
  | .call t _ | .act t | .ret t => t

def start : Call → Control
  | .nextInsertLocation => .running .lockRead
  | .capacity => .running .capacityLockRead

/-- After the read lock has been dropped. -/
def afterFetch : Checked (Option Location) → Control
  | .ok (some location) => .returned (.location location)
  | .ok none => .running .lockWrite
  | .error fault => .faulted fault

/-- After the second try under the write lock. -/
def afterSlowFetch : Checked (Option Location) → Control
  | .ok (some location) => .running (.unlockWrite (.ok location))
  | .ok none => .running .expand
  | .error fault => .running (.unlockWrite (.error fault))

def afterExpand : Checked Unit → Control
  | .ok () => .running .refetch
  | .error fault => .running (.unlockWrite (.error fault))

/-- The `unwrap` at the end of `next_insert_location_slow`. -/
def afterRefetch : Checked (Option Location) → Control
  | .ok (some location) => .running (.unlockWrite (.ok location))
  | .ok none =>
    .running (.unlockWrite (.error (.explicit "called `Option::unwrap()` on a `None` value")))
  | .error fault => .running (.unlockWrite (.error fault))

def afterUnlockWrite : Checked Location → Control
  | .ok location => .returned (.location location)
  | .error fault => .faulted fault

def afterCapacity : Checked (UInt32 × UInt32) → Control
  | .ok (touched, allocated) => .returned (.capacity touched allocated)
  | .error fault => .faulted fault

namespace State

variable {T : Type} [DecidableEq T]

def init : State T where
  inner := .new
  readers := []
  writer := none
  control _ := .idle

def setControl (s : State T) (t : T) (control : Control) : State T :=
  { s with control := Function.update s.control t control }

/-- Thread `t` takes its next step. -/
def act (build : Build) (s : State T) (t : T) : Point → Option (State T)
  | .lockRead =>
    if s.writer = none then some ({ s with readers := t :: s.readers }.setControl t (.running .fetch))
    else none
  | .fetch =>
    let (inner, location) := s.inner.nextInsertLocation build
    some ({ s with inner := inner }.setControl t (.running (.unlockRead location)))
  | .unlockRead location =>
    some ({ s with readers := s.readers.erase t }.setControl t (afterFetch location))
  | .lockWrite =>
    if s.writer = none ∧ s.readers = [] then
      some ({ s with writer := some t }.setControl t (.running .slowFetch))
    else none
  | .slowFetch =>
    let (inner, location) := s.inner.nextInsertLocation build
    some ({ s with inner := inner }.setControl t (afterSlowFetch location))
  | .expand =>
    let (inner, result) := s.inner.expand build
    some ({ s with inner := inner }.setControl t (afterExpand result))
  | .refetch =>
    let (inner, location) := s.inner.nextInsertLocation build
    some ({ s with inner := inner }.setControl t (afterRefetch location))
  | .unlockWrite location =>
    some ({ s with writer := none }.setControl t (afterUnlockWrite location))
  | .capacityLockRead =>
    if s.writer = none then
      some ({ s with readers := t :: s.readers }.setControl t (.running .capacityLoad))
    else none
  | .capacityLoad =>
    some (s.setControl t (.running (.capacityUnlockRead s.inner.headSize s.inner.nextUnusedSlot)))
  | .capacityUnlockRead headSize used =>
    some ({ s with readers := s.readers.erase t }.setControl t
      (afterCapacity (capacity build headSize used)))

end State

variable {T : Type} [DecidableEq T]

def step (build : Build) (s : State T) : Event T → Option (State T)
  | .call t call =>
    match s.control t with
    | .idle => some (s.setControl t (start call))
    | _ => none
  | .act t =>
    match s.control t with
    | .running point => s.act build t point
    | _ => none
  | .ret t =>
    match s.control t with
    | .returned _ | .faulted _ => some (s.setControl t .idle)
    | _ => none

/-- Any number of threads that use one bucket. -/
def machine (build : Build) (T : Type) [DecidableEq T] : Transition.System (State T) (Event T) :=
  .ofFn (· = State.init) (step build) fun _ _ => True

/-- The location that a thread carries to its caller. -/
def Control.location : Control → Option Location
  | .running (.unlockRead (.ok location)) => location
  | .running (.unlockWrite (.ok location)) | .returned (.location location) => some location
  | _ => none

/-- The points that add one to the counter. -/
def Point.Fetches : Point → Prop
  | .fetch | .slowFetch | .refetch => True
  | _ => False

instance : (point : Point) → Decidable point.Fetches
  | .fetch | .slowFetch | .refetch => inferInstanceAs (Decidable True)
  | .lockRead | .unlockRead _ | .lockWrite | .expand | .unlockWrite _ | .capacityLockRead
  | .capacityLoad | .capacityUnlockRead _ _ => inferInstanceAs (Decidable False)

/-- The next step of thread `t` adds one to the largest counter, which wraps around to 0. -/
def State.Wraps (s : State T) (t : T) : Prop :=
  match s.control t with
  | .running point => point.Fetches ∧ s.inner.blocks ≠ [] ∧ s.inner.nextUnusedSlot = 0xFFFFFFFF
  | _ => False

instance (s : State T) (t : T) : Decidable (s.Wraps t) := by
  unfold State.Wraps
  cases s.control t <;> infer_instance

end ReadWriteStore.Bucket
