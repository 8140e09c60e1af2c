import ReadWriteStore.Header.Machine
import Mathlib.Order.Interval.Finset.Nat

/-!
# Retries

The steps at which `lock_read_with_current`, `unlock_read_with_current`, `transition` and
`block_result_to_park_result` call themselves again, what such a step is caused by, and what it means that
the loops end.
-/

namespace ReadWriteStore.Header

/-- The ID that a call is about. -/
def Call.id : Call → Option UInt32
  | .lockRead id _ | .unlockRead id | .lockWrite id _ | .unlockWrite id | .remove id _
  | .removeLocked id => some id
  | .occupy => none

def Reply.isErr : Reply → Bool
  | .err _ => true
  | _ => false

/-- The code after the reply starts over. -/
def Point.retries (reply : Reply) : Point → Bool
  | .lockReadExchange _ _ _ _ | .unlockReadExchange _ _ _ _ | .markExchange _ _ _ _ => Reply.isErr reply
  | .transitionExchange expected _ _ _ =>
    Reply.isErr reply && idFromBits reply.found == idFromBits expected && !(readersFromBits reply.found > 0)
  | _ => false

variable {T : Type}

namespace State

/-- The point of the thread that takes a step, and its operation on the word. -/
def operation (s : State T) : Event T → Option (Point × AtomicOp × Bool)
  | .act t spurious =>
    match s.control t with
    | .running point => point.op.map fun op => (point, op, spurious)
    | _ => none
  | _ => none

/-- The step is an operation on the word. -/
def operates (s : State T) (e : Event T) : Bool := (s.operation e).isSome

/-- The step fails, and its method starts over. -/
def retries (s : State T) (e : Event T) : Bool :=
  match s.operation e with
  | some (point, op, spurious) => point.retries (op.exec spurious s.word).2
  | none => false

/-- The step is a weak compare exchange that fails although it finds the word that it expects. -/
def failsSpuriously (s : State T) (e : Event T) : Bool :=
  match s.operation e with
  | some (_, .compareExchangeWeak expected _ _ _, true) => s.word == expected
  | _ => false

end State

section RetriesEnd

variable [DecidableEq T]

/-- The steps of `t` between two moments of a run. -/
def ownSteps (event : ℕ → Event T) (t : T) (i j : ℕ) : ℕ :=
  ((Finset.Ico i j).filter fun m => (event m).thread = t).card

/-- The steps of the other threads. -/
def otherSteps (event : ℕ → Event T) (t : T) (i j : ℕ) : ℕ :=
  ((Finset.Ico i j).filter fun m => (event m).thread ≠ t).card

/-- The steps of `t` that fail spuriously. -/
def spuriousFailures (state : ℕ → State T) (event : ℕ → Event T) (t : T) (i j : ℕ) : ℕ :=
  ((Finset.Ico i j).filter fun m =>
    (event m).thread = t ∧ (state m).failsSpuriously (event m) = true).card

/-- Another thread has changed the word after step `read`, at which `t` has last read it, and before
step `m`. -/
def ChangedSince (state : ℕ → State T) (event : ℕ → Event T) (t : T) (read m : ℕ) : Prop :=
  ((event read).thread = t ∧ (state read).operates (event read) = true ∧
    ∀ l, read < l → l < m → (event l).thread = t → (state l).operates (event l) = false) ∧
  ∃ k, read < k ∧ k < m ∧ (event k).thread ≠ t ∧ (state (k + 1)).word ≠ (state k).word

/-- Step `i` of the run is a call of `t`, and the steps `i < m < j` belong to that call or to other
threads: the retries of the call come to an end. -/
structure RetriesEnd (state : ℕ → State T) (event : ℕ → Event T) (t : T) (call : Call) (i j : ℕ) :
    Prop where
  /-- The call takes no more steps than the other threads and the spurious failures account for. -/
  bounded : ownSteps event t (i + 1) j ≤
    6 * (1 + otherSteps event t (i + 1) j + spuriousFailures state event t (i + 1) j)
  /-- A method starts over after a spurious failure, or because another thread has changed the word. -/
  caused : ∀ m, i < m → m < j → (event m).thread = t → (state m).retries (event m) = true →
    (state m).failsSpuriously (event m) = true ∨
      ∃ read, i < read ∧ read < m ∧ ChangedSince state event t read m
  /-- `transition` starts over only when it has seen the word that it expects. -/
  transition : ∀ m, i < m → m < j → (event m).thread = t → (state m).retries (event m) = true →
    ∀ expected new timeout caller,
      (state m).control t = .running (.transitionExchange expected new timeout caller) →
        (state m).word = expected ∧ (state m).failsSpuriously (event m) = true
  /-- The header is never unoccupied with the ID of the call. -/
  unobserved : ∀ id, call.id = some id → ∀ m, i ≤ m → m ≤ j →
    ¬(isOccupied (state m).word = false ∧ idFromBits (state m).word = id)

end RetriesEnd

end ReadWriteStore.Header
