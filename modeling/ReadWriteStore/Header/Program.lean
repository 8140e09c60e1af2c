import ReadWriteStore.Util.Atomic
import ReadWriteStore.Header.Word

/-!
# The operations of a header, one atomic step at a time

Each method of `Header` becomes a function from what the last step returned to the next `Point`: the
code between two steps on shared memory runs inside one function, and the recursion of the source
(`lock_read_with_current`, `unlock_read_with_current`, `transition`, `block`) goes through the points.
The queue of `parking_lot` is reached by `Park::park` and `Park::unpark`: `park` locks the queue,
runs the closure, and either puts the thread in the queue or leaves, before the lock is released.
-/

namespace ReadWriteStore.Header

/-- `header::RemoveResult`. -/
inductive RemoveResult
  | matched (mayReuse : Bool)
  | didntMatch
  deriving DecidableEq, Repr

/-- A call of one of the methods that work on a shared header. -/
inductive Call
  | lockRead (id : UInt32) (timeout : Timeout)
  | unlockRead (id : UInt32)
  | lockWrite (id : UInt32) (timeout : Timeout)
  | unlockWrite (id : UInt32)
  | occupy
  | remove (id : UInt32) (timeout : Timeout)
  | removeLocked (id : UInt32)
  deriving DecidableEq, Repr

/-- What a call returns. -/
inductive Return
  | lockRead (result : BlockResult Bool)
  | unlockRead
  | lockWrite (result : BlockResult Bool)
  | unlockWrite
  | occupy (id : UInt32)
  | remove (result : BlockResult RemoveResult)
  | removeLocked (mayReuse : Bool)
  deriving DecidableEq, Repr

/-- The two callers of `transition`, with what they need once it returns. -/
inductive Caller
  | lockWrite (id : UInt32)
  | remove (id nextId : UInt32)
  deriving DecidableEq, Repr

/-- What `lock_write` and `remove` make of the result of `transition`. -/
def Caller.finish (result : BlockResult Bool) : Caller → Return
  | .lockWrite _ => .lockWrite result
  | .remove _ nextId =>
    .remove (do
      let matched ← result
      if matched then
        return .matched (nextId != reservedId)
      else
        return .didntMatch)

/-- The two calls of `block`, with the variables that its closure and the code after it use. -/
inductive Frame
  | lockRead (id : UInt32) (timeout : Timeout)
  | transition (expected new : UInt64) (caller : Caller)
  deriving DecidableEq, Repr

/-- The value inside `BlockChoice::DontBlock`: the `Response` of `lock_read_slow` or the `bool` of
`transition_slow`. -/
inductive Response
  | matched (current : UInt64)
  | mismatch
  | transitioned (success : Bool)
  deriving DecidableEq, Repr

/-- `header::BlockChoice`. -/
inductive BlockChoice
  | block (expectedState : UInt64)
  | dontBlock (response : Response)
  deriving DecidableEq, Repr

/-- `util::sync::park::ParkResult`. -/
inductive ParkResult
  | waited
  | timedOut
  | didntPark (response : Response)
  deriving DecidableEq, Repr

/-- The next step of a thread inside a call. -/
inductive Point
  /-- `lock_read`: load the word. -/
  | lockReadLoad (id : UInt32) (timeout : Timeout)
  /-- `lock_read_with_current` and `lock_read_slow`: add a reader to `current`. -/
  | lockReadExchange (id : UInt32) (current new : UInt64) (timeout : Timeout)
  /-- `unlock_read`: load the word. -/
  | unlockReadLoad (id : UInt32)
  /-- `unlock_read_with_current`: take a reader from `current`. -/
  | unlockReadExchange (id : UInt32) (current new : UInt64) (mustUnpark : Bool)
  /-- `transition`: the first compare exchange. -/
  | transitionExchange (expected new : UInt64) (timeout : Timeout) (caller : Caller)
  /-- `Park::park`: lock the queue. -/
  | park (frame : Frame) (deadline : Option Instant)
  /-- The closure of the frame, under the queue lock. -/
  | closure (frame : Frame) (deadline : Option Instant)
  /-- `block_result_to_park_result`: set the waiting mark, under the queue lock. -/
  | markExchange (frame : Frame) (deadline : Option Instant) (expectedState newState : UInt64)
  /-- The validation returned true: enter the queue and release its lock. -/
  | enqueue (frame : Frame) (deadline : Option Instant) (result : Option ParkResult)
  /-- The validation returned false: release the queue lock. -/
  | leave (frame : Frame) (deadline : Option Instant) (result : Option ParkResult)
  /-- Asleep, or woken up and not running yet. -/
  | parked (frame : Frame) (deadline : Option Instant) (result : Option ParkResult)
  /-- `unlock_write`: swap. -/
  | unlockWriteSwap (id : UInt32) (new : UInt64)
  /-- `remove_locked`: swap. -/
  | removeLockedSwap (id nextId : UInt32) (new : UInt64)
  /-- `occupy`: set the notification bit. -/
  | occupyFetchOr
  /-- `Park::unpark`: wake every thread of the queue, then return. -/
  | unpark (return_ : Return)
  deriving DecidableEq, Repr

/-- Where a thread is with respect to one header. -/
inductive Control
  | idle
  | running (point : Point)
  | returned (result : Return)
  | faulted (fault : Fault)
  deriving DecidableEq, Repr

/-- A fault ends the call. -/
def Control.ofChecked : Checked Control → Control
  | .ok control => control
  | .error fault => .faulted fault

def compareExchange (expected new : UInt64) : AtomicOp :=
  .compareExchange expected new .release .relaxed

def compareExchangeWeak (expected new : UInt64) : AtomicOp :=
  .compareExchangeWeak expected new .release .relaxed

/-! ## Locking for reading -/

/-- The compare exchange at the end of `lock_read_with_current` and of `lock_read_slow`. -/
def lockReadExchange (build : Build) (id : UInt32) (current : UInt64) (timeout : Timeout) :
    Checked Control := do
  let new ← incrementReaders build current
  return .running (.lockReadExchange id current new timeout)

/-- `lock_read_slow` up to the call of `block`. -/
def lockReadSlow (id : UInt32) (timeout : Timeout) : Control :=
  match timeout with
  | .dontBlock => .returned (.lockRead (.error .timedOut))
  | .blockIndefinitely => .running (.park (.lockRead id timeout) none)
  | .blockUntil deadline => .running (.park (.lockRead id timeout) (some deadline))

def lockReadWithCurrent (build : Build) (id : UInt32) (current : UInt64) (timeout : Timeout) :
    Checked Control :=
  if idFromBits current ≠ id then
    return .returned (.lockRead (.ok false))
  else if isWriteLocked current then
    return lockReadSlow id timeout
  else
    lockReadExchange build id current timeout

/-! ## Unlocking -/

def unlockReadWithCurrent (build : Build) (id : UInt32) (current : UInt64) : Checked Control := do
  debugAssert build (readersFromBits current != 0) "attempted to read unlock already unlocked header"
  debugAssert build (!isWriteLocked current) "attempted to read unlock write locked header"
  debugAssert build (idFromBits current == id)
    "attempted to read unlock with ID 0x\x7b:x\x7d but it was actually 0x\x7b:x\x7d"
  let blocking ← hasThreadBlocking build current
  let mustUnpark := blocking && readersFromBits current == 1
  let decremented ← decrementReaders build current
  let new := if mustUnpark then unmarkThreadBlocking decremented else decremented
  return .running (.unlockReadExchange id current new mustUnpark)

/-- The assertions of `unlock_write` and `remove_locked` on the word that the swap returned, and the
wakeup of the threads it blocked. -/
def afterSwap (build : Build) (id : UInt32) (old : UInt64) (result : Return) : Checked Control := do
  debugAssert build (idFromBits old == id)
    "attempted to write unlock with ID 0x\x7b:x\x7d but it was actually 0x\x7b:x\x7d"
  debugAssert build (isWriteLocked old) "attempted to write unlock header that was not write locked"
  let blocking ← hasThreadBlocking build old
  if blocking then
    return .running (.unpark result)
  else
    return .returned result

/-! ## Occupation -/

/-- `occupy` after the `fetch_or`. -/
def afterFetchOr (build : Build) (old : UInt64) : Checked Control := do
  debugAssert build (!isOccupied old) "attempted to occupy occupied header"
  debugAssert build (idFromBits old != reservedId) "attempted to occupy header with the reserved ID"
  return .returned (.occupy (idFromBits old))

/-! ## Transitions -/

def transition (expected new : UInt64) (timeout : Timeout) (caller : Caller) : Control :=
  .running (.transitionExchange expected new timeout caller)

/-- `transition_slow` up to the call of `block`. -/
def transitionSlow (expected new : UInt64) (timeout : Timeout) (caller : Caller) : Control :=
  match timeout with
  | .dontBlock => .returned (caller.finish (.error .timedOut))
  | .blockIndefinitely => .running (.park (.transition expected new caller) none)
  | .blockUntil deadline => .running (.park (.transition expected new caller) (some deadline))

/-- The `Err(actual)` arm of `transition`. -/
def transitionErr (expected new actual : UInt64) (timeout : Timeout) (caller : Caller) : Control :=
  if idFromBits actual = idFromBits expected then
    if readersFromBits actual > 0 then
      transitionSlow expected new timeout caller
    else
      transition expected new timeout caller
  else
    .returned (caller.finish (.ok false))

/-! ## Blocking -/

/-- The step the closure of a frame takes on the word. -/
def Frame.op : Frame → AtomicOp
  | .lockRead _ _ => .load .relaxed
  | .transition expected new _ => compareExchange expected new

/-- What the closure of a frame decides once it has the reply. -/
def Frame.choice (reply : Reply) : Frame → BlockChoice
  | .lockRead id _ =>
    let current := reply.found
    if idFromBits current ≠ id then
      .dontBlock .mismatch
    else if isWriteLocked current then
      .block current
    else
      .dontBlock (.matched current)
  | .transition expected _ _ =>
    match reply with
    | .ok _ => .dontBlock (.transitioned true)
    | _ =>
      let actual := reply.found
      if idFromBits actual = idFromBits expected then
        .block actual
      else
        .dontBlock (.transitioned false)

/-- `block_result_to_park_result` after the closure ran, and the validation of `park` around it. -/
def blockResultToParkResult (build : Build) (frame : Frame) (deadline : Option Instant) :
    BlockChoice → Checked Control
  | .block expectedState => do
    let newState ← markThreadBlocking build expectedState
    return .running (.markExchange frame deadline expectedState newState)
  | .dontBlock response => return .running (.leave frame deadline (some (.didntPark response)))

/-- The `timed_out` callback of `park`. -/
def timedOutCallback (build : Build) (result : Option ParkResult) : Checked ParkResult := do
  match ← assumeInit build result with
  | .waited => return .timedOut
  | _ => unreachableChecked build

/-- The code of `lock_read_slow` and `transition_slow` after `block` returned `Ok(response)`. -/
def Frame.resume (build : Build) (response : Response) : Frame → Checked Control
  | .lockRead id timeout =>
    match response with
    | .matched current => lockReadExchange build id current timeout
    | _ => return .returned (.lockRead (.ok false))
  | .transition _ _ caller => return .returned (caller.finish (.ok (response == .transitioned true)))

/-- The same after `block` returned `Err(TimedOut)`. -/
def Frame.timedOut : Frame → Control
  | .lockRead _ _ => .returned (.lockRead (.error .timedOut))
  | .transition _ _ caller => .returned (caller.finish (.error .timedOut))

/-- `block` after `Park::park` returned. -/
def afterPark (build : Build) (frame : Frame) (deadline : Option Instant)
    (result : Option ParkResult) : Checked Control := do
  match ← assumeInit build result with
  | .waited => return .running (.park frame deadline)
  | .timedOut => return frame.timedOut
  | .didntPark response => frame.resume build response

/-! ## Entering a call and going on after a step -/

/-- The code of a call before its first step. -/
def start (build : Build) : Call → Checked Control
  | .lockRead id timeout => do
    debugAssert build (id != reservedId) "attempted to read lock the reserved ID"
    return .running (.lockReadLoad id timeout)
  | .unlockRead id => return .running (.unlockReadLoad id)
  | .lockWrite id timeout => do
    debugAssert build (id != reservedId) "attempted to write lock the reserved ID"
    return transition (occupiedUnlockedBits id) (writeLockedBits id) timeout (.lockWrite id)
  | .unlockWrite id => return .running (.unlockWriteSwap id (occupiedUnlockedBits id))
  | .occupy => return .running .occupyFetchOr
  | .remove id timeout => do
    debugAssert build (id != reservedId) "attempted to remove the reserved ID"
    let nextId ← addU32 build id 1
    return transition (occupiedUnlockedBits id) (unoccupiedBits nextId) timeout (.remove id nextId)
  | .removeLocked id => do
    let nextId ← addU32 build id 1
    return .running (.removeLockedSwap id nextId (unoccupiedBits nextId))

/-- The operation on the word at a point, for the points that take one. -/
def Point.op : Point → Option AtomicOp
  | .lockReadLoad _ _ => some (.load .relaxed)
  | .lockReadExchange _ current new _ => some (compareExchangeWeak current new)
  | .unlockReadLoad _ => some (.load .relaxed)
  | .unlockReadExchange _ current new _ => some (compareExchangeWeak current new)
  | .transitionExchange expected new _ _ => some (compareExchangeWeak expected new)
  | .closure frame _ => some frame.op
  | .markExchange _ _ expectedState newState => some (compareExchange expectedState newState)
  | .unlockWriteSwap _ new => some (.swap new .acqRel)
  | .removeLockedSwap _ _ new => some (.swap new .acqRel)
  | .occupyFetchOr => some (.fetchOr threadNotificationMask .acqRel)
  | .park _ _ | .enqueue _ _ _ | .leave _ _ _ | .parked _ _ _ | .unpark _ => none

/-- The code of a point with an operation on the word, after the reply. -/
def Point.resume (build : Build) (reply : Reply) : Point → Checked Control
  | .lockReadLoad id timeout => lockReadWithCurrent build id reply.found timeout
  | .lockReadExchange id _ _ timeout =>
    match reply with
    | .ok _ => return .returned (.lockRead (.ok true))
    | _ => lockReadWithCurrent build id reply.found timeout
  | .unlockReadLoad id => unlockReadWithCurrent build id reply.found
  | .unlockReadExchange id _ _ mustUnpark =>
    match reply with
    | .ok _ => return if mustUnpark then .running (.unpark .unlockRead) else .returned .unlockRead
    | _ => unlockReadWithCurrent build id reply.found
  | .transitionExchange expected new timeout caller =>
    match reply with
    | .ok _ => return .returned (caller.finish (.ok true))
    | _ => return transitionErr expected new reply.found timeout caller
  | .closure frame deadline => blockResultToParkResult build frame deadline (frame.choice reply)
  | .markExchange frame deadline _ _ =>
    match reply with
    | .ok _ => return .running (.enqueue frame deadline (some .waited))
    | _ => return .running (.closure frame deadline)
  | .unlockWriteSwap id _ => afterSwap build id reply.found .unlockWrite
  | .removeLockedSwap id nextId _ =>
    afterSwap build id reply.found (.removeLocked (nextId != reservedId))
  | .occupyFetchOr => afterFetchOr build reply.found
  -- these points take no operation on the word
  | .park frame deadline => return .running (.closure frame deadline)
  | .enqueue frame deadline result => return .running (.parked frame deadline result)
  | .leave frame deadline result | .parked frame deadline result =>
    afterPark build frame deadline result
  | .unpark result => return .returned result

end ReadWriteStore.Header
