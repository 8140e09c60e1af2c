import Mathlib.Data.UInt

/-!
# Atomic operations and timeouts

The operations of `util/sync/atomic.rs` that the header performs on its word, each with the memory
orderings it passes, and `timeout.rs`. Every operation is one step on the current value of the word.
-/

namespace ReadWriteStore

/-- `util::sync::atomic::Ordering`. -/
inductive Ordering
  | relaxed
  | acquire
  | release
  | acqRel
  | seqCst
  deriving DecidableEq, Repr

/-- An operation on an `AtomicU64`. -/
inductive AtomicOp
  | load (ordering : Ordering)
  | swap (new : UInt64) (ordering : Ordering)
  | fetchOr (value : UInt64) (ordering : Ordering)
  | compareExchange (expected new : UInt64) (success failure : Ordering)
  | compareExchangeWeak (expected new : UInt64) (success failure : Ordering)
  deriving DecidableEq, Repr

/-- What an operation returns: the value it found, or the `Result` of a compare exchange. -/
inductive Reply
  | value (found : UInt64)
  | ok (found : UInt64)
  | err (actual : UInt64)
  deriving DecidableEq, Repr

/-- The value of the word that the operation found. -/
def Reply.found : Reply → UInt64
  | .value found | .ok found | .err found => found

/-- The effect of an operation on the word, and its reply. A weak compare exchange that finds the
expected value fails all the same when it is `spurious`. -/
def AtomicOp.exec (spurious : Bool) (word : UInt64) : AtomicOp → UInt64 × Reply
  | .load _ => (word, .value word)
  | .swap new _ => (new, .value word)
  | .fetchOr value _ => (word ||| value, .value word)
  | .compareExchange expected new _ _ =>
    if word = expected then (new, .ok word) else (word, .err word)
  | .compareExchangeWeak expected new _ _ =>
    if word = expected ∧ spurious = false then (new, .ok word) else (word, .err word)

/-! ## Memory orderings -/

/-- An access with this ordering sees what the value it reads was published with. -/
def Ordering.acquires : Ordering → Bool
  | .acquire | .acqRel | .seqCst => true
  | .relaxed | .release => false

/-- A write with this ordering publishes what its thread has seen. -/
def Ordering.releases : Ordering → Bool
  | .release | .acqRel | .seqCst => true
  | .relaxed | .acquire => false

/-- The ordering an operation runs with; a compare exchange that fails uses its last argument. -/
def AtomicOp.ordering (reply : Reply) : AtomicOp → Ordering
  | .load ordering | .swap _ ordering | .fetchOr _ ordering => ordering
  | .compareExchange _ _ success failure | .compareExchangeWeak _ _ success failure =>
    match reply with
    | .ok _ => success
    | _ => failure

/-- Whether the operation wrote to the word. -/
def AtomicOp.writes (reply : Reply) : AtomicOp → Bool
  | .load _ => false
  | .swap _ _ | .fetchOr _ _ => true
  | .compareExchange _ _ _ _ | .compareExchangeWeak _ _ _ _ =>
    match reply with
    | .ok _ => true
    | _ => false

/-! ## Timeouts -/

/-- A point in time, `std::time::Instant`. -/
abbrev Instant := ℕ

/-- How blocking operations should behave. -/
inductive Timeout
  | dontBlock
  | blockUntil (deadline : Instant)
  | blockIndefinitely
  deriving DecidableEq, Repr

/-- The error of a call that gave up. -/
inductive TimedOut
  | timedOut
  deriving DecidableEq, Repr

/-- A result which either succeeded, or failed due to a timeout. -/
abbrev BlockResult (α : Type) := Except TimedOut α

end ReadWriteStore
