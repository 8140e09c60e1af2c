import ReadWriteStore.Header.Program
import ReadWriteStore.Transition.System
import ReadWriteStore.Transition.Tally

/-!
# One header shared by any number of threads

The state holds the word, the `parking_lot` queue of the header's address with its lock, and where
each thread is. `locks` and `issued` are bookkeeping: the locks each thread holds and the IDs that
`occupy` has returned, changed by the very steps on the word that take effect. `step` is what the
code does on any event; `Allowed` is how the callers of a header use it.
-/

namespace ReadWriteStore.Header

inductive LockKind
  | read
  | write
  deriving DecidableEq, Repr

/-- A lock held on the header, as the guard objects of `lock.rs` stand for it. -/
structure Lock where
  kind : LockKind
  id : UInt32
  deriving DecidableEq, Repr

structure State (T : Type) where
  /-- `Header::state`. -/
  word : UInt64
  /-- The thread that holds the lock of the parking queue. -/
  queueLock : Option T
  /-- The threads asleep on the header, in the order they came. -/
  queue : List T
  control : T → Control
  /-- The locks each thread holds. -/
  locks : T → List Lock
  /-- The IDs `occupy` has returned. -/
  issued : List UInt32

inductive Event (T : Type)
  /-- An idle thread calls a method. -/
  | call (thread : T) (call : Call)
  /-- A thread takes its next step; a weak compare exchange may fail spuriously. -/
  | act (thread : T) (spurious : Bool)
  /-- The deadline of a sleeping thread passes. -/
  | expire (thread : T)
  /-- A finished call goes back to its caller. -/
  | ret (thread : T)
  deriving DecidableEq, Repr

def Event.thread {T : Type} : Event T → T
  | .call t _ | .act t _ | .expire t | .ret t => t

/-- What a step on the word means for the locks and the IDs. -/
inductive Effect
  | none
  | acquire (lock : Lock)
  | release (lock : Lock)
  | issue (id : UInt32)
  deriving DecidableEq, Repr

def Caller.id : Caller → UInt32
  | .lockWrite id | .remove id _ => id

/-- The effect of a successful `transition`. -/
def Caller.effect : Caller → Effect
  | .lockWrite id => .acquire ⟨.write, id⟩
  | .remove _ _ => .none

def Reply.guard (effect : Effect) : Reply → Effect
  | .ok _ => effect
  | _ => .none

def Point.effect (reply : Reply) : Point → Effect
  | .lockReadExchange id _ _ _ => Reply.guard (.acquire ⟨.read, id⟩) reply
  | .unlockReadExchange id _ _ _ => Reply.guard (.release ⟨.read, id⟩) reply
  | .transitionExchange _ _ _ caller => Reply.guard caller.effect reply
  | .closure (.transition _ _ caller) _ => Reply.guard caller.effect reply
  | .unlockWriteSwap id _ | .removeLockedSwap id _ _ => .release ⟨.write, id⟩
  | .occupyFetchOr => .issue (idFromBits reply.found)
  | _ => .none

namespace State

variable {T : Type} [DecidableEq T]

def init : State T where
  word := unoccupiedBits 0
  queueLock := none
  queue := []
  control _ := .idle
  locks _ := []
  issued := []

def setControl (s : State T) (t : T) (control : Control) : State T :=
  { s with control := Function.update s.control t control }

def record (s : State T) (t : T) : Effect → State T
  | .none => s
  | .acquire lock => { s with locks := Function.update s.locks t (lock :: s.locks t) }
  | .release lock => { s with locks := Function.update s.locks t ((s.locks t).erase lock) }
  | .issue id => { s with issued := id :: s.issued }

/-- Thread `t`, at `point`, performs `op` on the word. -/
def exec (build : Build) (s : State T) (t : T) (point : Point) (op : AtomicOp) (spurious : Bool) :
    State T :=
  let (word, reply) := op.exec spurious s.word
  ({ s with word := word }.record t (point.effect reply)).setControl t
    (.ofChecked (point.resume build reply))

/-- The steps that touch the queue and not the word. -/
def queueStep (build : Build) (s : State T) (t : T) : Point → Option (State T)
  | .park frame deadline =>
    if s.queueLock = none then
      some ({ s with queueLock := some t }.setControl t (.running (.closure frame deadline)))
    else none
  | .enqueue frame deadline result =>
    some ({ s with queue := s.queue ++ [t], queueLock := none }.setControl t
      (.running (.parked frame deadline result)))
  | .leave frame deadline result =>
    some ({ s with queueLock := none }.setControl t
      (.ofChecked (afterPark build frame deadline result)))
  | .parked frame deadline result =>
    if t ∈ s.queue then none
    else some (s.setControl t (.ofChecked (afterPark build frame deadline result)))
  | .unpark result =>
    if s.queueLock = none then some ({ s with queue := [] }.setControl t (.returned result)) else none
  | _ => none

/-- Thread `t`, asleep, gives up: it leaves the queue under its lock and runs `timed_out`. -/
def expire (build : Build) (s : State T) (t : T) (frame : Frame) (deadline : Instant)
    (result : Option ParkResult) : State T :=
  { s with queue := s.queue.erase t }.setControl t (.ofChecked do
    let result ← timedOutCallback build result
    afterPark build frame (some deadline) (some result))

end State

variable {T : Type} [DecidableEq T]

def step (build : Build) (s : State T) : Event T → Option (State T)
  | .call t call =>
    if s.control t = .idle then some (s.setControl t (.ofChecked (start build call))) else none
  | .act t spurious =>
    match s.control t with
    | .running point =>
      match point.op with
      | some op => some (s.exec build t point op spurious)
      | none => s.queueStep build t point
    | _ => none
  | .expire t =>
    match s.control t with
    | .running (.parked frame (some deadline) result) =>
      if t ∈ s.queue ∧ s.queueLock = none then some (s.expire build t frame deadline result) else none
    | _ => none
  | .ret t =>
    match s.control t with
    | .returned _ | .faulted _ => some (s.setControl t .idle)
    | _ => none

/-- The contracts of the unsafe methods, as `block.rs` and `lock.rs` keep them: every ID was returned
by an earlier `occupy`, an unlocking method is called by a holder of the lock, and `occupy` runs on an
unoccupied header that does not carry the reserved ID. -/
def Allowed (s : State T) : Event T → Prop
  | .call _ (.lockRead id _) | .call _ (.lockWrite id _) | .call _ (.remove id _) => id ∈ s.issued
  | .call t (.unlockRead id) => ⟨.read, id⟩ ∈ s.locks t
  | .call t (.unlockWrite id) | .call t (.removeLocked id) => ⟨.write, id⟩ ∈ s.locks t
  | .act t _ =>
    s.control t = .running .occupyFetchOr →
      isOccupied s.word = false ∧ idFromBits s.word ≠ reservedId
  | _ => True

instance (s : State T) : (e : Event T) → Decidable (Allowed s e)
  | .call _ (.lockRead _ _) | .call _ (.lockWrite _ _) | .call _ (.remove _ _)
  | .call _ (.unlockRead _) | .call _ (.unlockWrite _) | .call _ (.removeLocked _) =>
    inferInstanceAs (Decidable (_ ∈ _))
  | .call _ .occupy | .expire _ | .ret _ => inferInstanceAs (Decidable True)
  | .act _ _ => inferInstanceAs (Decidable (_ → _ ∧ _))

/-- The header under its protocol. -/
def machine (build : Build) (T : Type) [DecidableEq T] : Transition.System (State T) (Event T) :=
  .ofFn (· = State.init) (step build) Allowed

/-- The number of locks of a kind that are held. -/
def State.held [Fintype T] (s : State T) (kind : LockKind) : ℕ :=
  Transition.tally fun t => (s.locks t).countP (·.kind = kind)

end ReadWriteStore.Header
