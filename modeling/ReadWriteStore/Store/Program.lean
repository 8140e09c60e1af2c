import ReadWriteStore.Store.Slot

/-!
# The operations of a store between two steps

The methods of `RwStore` and of its locks, cut where they touch something shared: the queue of
erasures, a bucket, a header, or the cell of a slot. The calls of a bucket or a header that a method
makes are the frames here; what the method does with their results is a function of the frame.
-/

namespace ReadWriteStore.Store

/-- The two variants of a method: `read` and `read_with_timeout`, and so on. -/
inductive Method
  | plain
  | withTimeout (timeout : Timeout)
  deriving DecidableEq, Repr

def Method.timeout : Method → Timeout
  | .plain => .blockIndefinitely
  | .withTimeout timeout => timeout

/-- The plain variant unwraps the result of the other one. -/
def Method.finish {α : Type} (result : BlockResult α) : Method → Checked (BlockResult α)
  | .plain =>
    match result with
    | .ok value => .ok (.ok value)
    | .error _ => .error (.explicit "called `Result::unwrap()` on an `Err` value: TimedOut")
  | .withTimeout _ => .ok result

/-- A use of the store or of one of its locks. A lock is known by its ID. -/
inductive Call (E : Type)
  | insert (element : E)
  | remove (id : Id) (method : Method)
  | removeLocked (id : Id)
  | read (id : Id) (method : Method)
  | write (id : Id) (method : Method)
  | dropRead (id : Id)
  | dropWrite (id : Id)
  /-- `deref` of a lock, and a look at the element. -/
  | deref (kind : Header.LockKind) (id : Id)
  /-- `deref_mut` of a write lock, and `mem::replace` of the element. -/
  | replace (id : Id) (element : E)
  | capacity
  /-- `get_mut`, and a look at the element. -/
  | getMut (id : Id)
  /-- `get_mut`, and `mem::replace` of the element. -/
  | replaceMut (id : Id) (element : E)
  /-- `iter_mut` and some calls of `next`, with what is left of the stack; `get_mut` stands for what is
  done with the references. -/
  | iterMut (stack steps : ℕ)
  deriving DecidableEq, Repr

/-- What a call returns, a lock as its ID. -/
inductive Return (E : Type)
  | insert (id : Id)
  | remove (result : BlockResult (Option E))
  | removeLocked (element : E)
  | read (result : BlockResult (Option Id))
  | write (result : BlockResult (Option Id))
  | dropRead
  | dropWrite
  | deref (element : E)
  | replace (old : E)
  | capacity (touched allocated : UInt32)
  | getMut (element : Option E)
  | replaceMut (old : Option E)
  | iterMut (items : List (Id × E))

/-- The element that the caller owns from now on. -/
def Return.element {E : Type} : Return E → Option E
  | .remove (.ok element) | .replaceMut element => element
  | .removeLocked element | .replace element => some element
  | _ => none

/-- A call of a bucket, with the variables of the method that makes it. -/
inductive BucketFrame (E : Type)
  | insert (bucket : Fin bucketCount) (element : E)
  /-- `RwStore::capacity` at one of the buckets, with the sums over those before it. -/
  | capacity (bucket : Fin bucketCount) (totalTouched totalAllocated : UInt32)

def BucketFrame.bucket {E : Type} : BucketFrame E → Fin bucketCount
  | .insert bucket _ | .capacity bucket _ _ => bucket

def BucketFrame.call {E : Type} : BucketFrame E → Bucket.Call
  | .insert _ _ => .nextInsertLocation
  | .capacity _ _ _ => .capacity

/-- A call of a header, with the variables of the method that makes it. -/
inductive Frame (E : Type)
  /-- `Block::insert`. The element is in the slot by now. -/
  | occupy (address : SlotAddress) (element : E)
  | remove (id : Id) (method : Method)
  /-- `Block::remove_locked`, with the element it has read. -/
  | removeLocked (id : Id) (element : E)
  | read (id : Id) (method : Method)
  | write (id : Id) (method : Method)
  | dropRead (id : Id)
  | dropWrite (id : Id)

def Frame.address {E : Type} : Frame E → SlotAddress
  | .occupy address _ => address
  | .remove id _ | .removeLocked id _ | .read id _ | .write id _ | .dropRead id | .dropWrite id =>
    id.slotAddress

def Frame.call {E : Type} : Frame E → Header.Call
  | .occupy _ _ => .occupy
  | .remove id method => .remove id.ordinal method.timeout
  | .removeLocked id _ => .removeLocked id.ordinal
  | .read id method => .lockRead id.ordinal method.timeout
  | .write id method => .lockWrite id.ordinal method.timeout
  | .dropRead id => .unlockRead id.ordinal
  | .dropWrite id => .unlockWrite id.ordinal

/-- Where a thread is with respect to the store. -/
inductive Control (E : Type)
  | idle
  /-- `insert`: pop the queue of erasures. -/
  | pop (element : E)
  | bucket (frame : BucketFrame E)
  /-- `Block::insert`: write the element into the slot. -/
  | place (element : E) (address : SlotAddress)
  | header (frame : Frame E)
  /-- `Block::remove`: read the element out of the slot. -/
  | moveOut (id : Id) (method : Method) (mayReuse : Bool)
  /-- `Block::remove_locked`: the same, before the header is told. -/
  | moveOutLocked (id : Id)
  /-- `push_erasure`, and return. -/
  | push (id : Id) (result : Return E)
  | returned (result : Return E)
  | faulted (fault : Fault)

variable {E : Type}

/-- A fault ends the call. -/
def Control.ofChecked : Checked (Control E) → Control E
  | .ok control => control
  | .error fault => .faulted fault

/-- `remove_with_timeout` and `remove_locked` once they have the element. -/
def afterMove (id : Id) (mayReuse : Bool) (result : Return E) : Control E :=
  if mayReuse then .push id result else .returned result

/-- `read_with_timeout` and `write_with_timeout` after the header has answered. -/
def lockResult (id : Id) (result : BlockResult Bool) : BlockResult (Option Id) :=
  result.map fun matched => if matched then some id else none

/-- A method after its call of a header has returned. -/
def Frame.resume (storeId : UInt64) : Frame E → Header.Return → Option (Checked (Control E))
  | .occupy address _, .occupy ordinal => some (return .returned (.insert ⟨ordinal, address, storeId⟩))
  | .remove id method, .remove result =>
    some (match result with
      | .ok (.matched mayReuse) => return .moveOut id method mayReuse
      | .ok .didntMatch => return .returned (.remove (← method.finish (.ok none)))
      | .error error => return .returned (.remove (← method.finish (.error error))))
  | .removeLocked id element, .removeLocked mayReuse =>
    some (return afterMove id mayReuse (.removeLocked element))
  | .read id method, .lockRead result =>
    some (return .returned (.read (← method.finish (lockResult id result))))
  | .write id method, .lockWrite result =>
    some (return .returned (.write (← method.finish (lockResult id result))))
  | .dropRead _, .unlockRead => some (return .returned .dropRead)
  | .dropWrite _, .unlockWrite => some (return .returned .dropWrite)
  | _, _ => none

/-! ## The generator of bucket IDs -/

/-- The next state of the generator of `arbitrary_bucket_id`. -/
def nextGenerator (generator : UInt32) : UInt32 := generator * 1103515245 + 12345

/-- The bucket ID for a state of the generator. -/
def bucketId (generator : UInt32) : Fin bucketCount :=
  ⟨generator.toNat % bucketCount, Nat.mod_lt _ (by decide)⟩

end ReadWriteStore.Store
