import ReadWriteStore.Store.Iter
import ReadWriteStore.Store.Program

/-!
# A store shared by any number of threads

The state holds the slots, the buckets and the queue of erasures. A step of a thread inside a call of
a bucket or a header is a step of that bucket or header. `issued` and the lists of elements are
bookkeeping: the IDs that `insert` has returned, the elements callers have given to the store, the
elements it has handed back, and those dropped by an `insert` that panicked.

The queue of erasures is taken to be a linearizable FIFO.
-/

namespace ReadWriteStore.Store

/-- `RwStore`, with the thread-local states of the generator. -/
structure State (T E : Type) where
  storeId : UInt64
  /-- The memory of every slot; a slot is new before its block is allocated. -/
  slot : SlotAddress → Slot T E
  bucket : Fin bucketCount → Bucket.State T
  erasures : List SlotAddress
  generator : T → UInt32
  control : T → Control E
  issued : List Id
  given : List E
  handedBack : List E
  unwound : List E

inductive Event (T E : Type)
  /-- An idle thread calls a method. -/
  | call (thread : T) (call : Call E)
  /-- A thread takes its next step; a weak compare exchange may fail spuriously. -/
  | act (thread : T) (spurious : Bool)
  /-- The deadline of a thread asleep on a header passes. -/
  | expire (thread : T)
  /-- A finished call goes back to its caller. -/
  | ret (thread : T)
  /-- A thread inserts into another store. -/
  | elsewhere (thread : T)
  deriving DecidableEq, Repr

def Event.thread {T E : Type} : Event T E → T
  | .call t _ | .act t _ | .expire t | .ret t | .elsewhere t => t

namespace State

variable {T E : Type} [DecidableEq T]

def init (storeId : UInt64) (generator : T → UInt32) : State T E where
  storeId := storeId
  slot _ := .new
  bucket _ := .init
  erasures := []
  generator := generator
  control _ := .idle
  issued := []
  given := []
  handedBack := []
  unwound := []

def header (s : State T E) (address : SlotAddress) : Header.State T := (s.slot address).header

def value (s : State T E) (address : SlotAddress) : Option E := (s.slot address).value

def setControl (s : State T E) (t : T) (control : Control E) : State T E :=
  { s with control := Function.update s.control t control }

def setHeader (s : State T E) (address : SlotAddress) (header : Header.State T) : State T E :=
  { s with slot := Function.update s.slot address { s.slot address with header := header } }

def setValue (s : State T E) (address : SlotAddress) (element : E) : State T E :=
  { s with slot := Function.update s.slot address { s.slot address with value := some element } }

def setBucket (s : State T E) (bucket : Fin bucketCount) (state : Bucket.State T) : State T E :=
  { s with bucket := Function.update s.bucket bucket state }

/-- The slots of every block. -/
def addresses (s : State T E) : List SlotAddress :=
  (List.finRange bucketCount).flatMap fun bucket =>
    (s.bucket bucket).inner.locations.map fun location => ⟨bucket, location⟩

/-! ## Entering a call -/

/-- The check of `assert_native_id`. -/
def assertNativeId (build : Build) (s : State T E) (id : Id) : Checked Unit :=
  debugAssert build (s.storeId == id.storeId)
    "attempted to use an ID created with a different store"

/-- Thread `t` goes on after a check. -/
def checked {α : Type} (s : State T E) (t : T) (result : Checked α) (next : α → Option (State T E)) :
    Option (State T E) :=
  match result with
  | .ok value => next value
  | .error fault => some (s.setControl t (.faulted fault))

/-- Thread `t` calls a method of a bucket. -/
def enterBucket (build : Build) (s : State T E) (t : T) (frame : BucketFrame E) : Option (State T E) :=
  (Bucket.step build (s.bucket frame.bucket) (.call t frame.call)).map fun bucket =>
    (s.setBucket frame.bucket bucket).setControl t (.bucket frame)

/-- Thread `t` calls a method of a header. -/
def enterHeader (build : Build) (s : State T E) (t : T) (frame : Frame E) : Option (State T E) :=
  (Header.step build (s.header frame.address) (.call t frame.call)).map fun header =>
    (s.setHeader frame.address header).setControl t (.header frame)

/-- An idle thread calls a method. -/
def start (build : Build) (s : State T E) (t : T) : Call E → Option (State T E)
  | .insert element => some ({ s with given := element :: s.given }.setControl t (.pop element))
  | .remove id method =>
    s.checked t (s.assertNativeId build id) fun _ => s.enterHeader build t (.remove id method)
  | .removeLocked id =>
    s.checked t (s.assertNativeId build id) fun _ => some (s.setControl t (.moveOutLocked id))
  | .read id method =>
    s.checked t (s.assertNativeId build id) fun _ => s.enterHeader build t (.read id method)
  | .write id method =>
    s.checked t (s.assertNativeId build id) fun _ => s.enterHeader build t (.write id method)
  | .dropRead id => s.enterHeader build t (.dropRead id)
  | .dropWrite id => s.enterHeader build t (.dropWrite id)
  | .deref _ id =>
    s.checked t (contentsPtr build (s.value id.slotAddress)) fun element =>
      some (s.setControl t (.returned (.deref element)))
  | .replace id element =>
    s.checked t ((s.slot id.slotAddress).replace build element) fun (_, old) =>
      some (({ s with given := element :: s.given }.setValue id.slotAddress element).setControl t
        (.returned (.replace old)))
  | .capacity => s.enterBucket build t (.capacity 0 0 0)
  | .getMut id =>
    s.checked t (s.assertNativeId build id) fun _ =>
      s.checked t ((s.slot id.slotAddress).getExclusive build id.ordinal) fun element =>
        some (s.setControl t (.returned (.getMut element)))
  | .replaceMut id element =>
    s.checked t (s.assertNativeId build id) fun _ =>
      s.checked t ((s.slot id.slotAddress).getExclusive build id.ordinal) fun old =>
        match old with
        | some _ =>
          some (({ s with given := element :: s.given }.setValue id.slotAddress element).setControl t
            (.returned (.replaceMut old)))
        | none => some (s.setControl t (.returned (.replaceMut none)))
  | .iterMut stack steps =>
    let result := (GenIter.new fun bucket => (s.bucket bucket).inner).take build
      (mutTracker build s.storeId) stack steps s.slot
    if Checked.aborts result then none
    else s.checked t result fun (items, _, _) => some (s.setControl t (.returned (.iterMut items)))

/-! ## Going on -/

/-- `capacity` once a bucket has answered. -/
def addCapacity (build : Build) (s : State T E) (t : T) (bucket : Fin bucketCount)
    (totalTouched totalAllocated touched allocated : UInt32) : Option (State T E) :=
  s.checked t (do
    let totalTouched ← addU32 build totalTouched touched
    let totalAllocated ← addU32 build totalAllocated allocated
    return (totalTouched, totalAllocated)) fun (totalTouched, totalAllocated) =>
      if h : bucket.val + 1 < bucketCount then
        s.enterBucket build t (.capacity ⟨bucket.val + 1, h⟩ totalTouched totalAllocated)
      else
        some (s.setControl t (.returned (.capacity totalTouched totalAllocated)))

/-- A method after its call of a bucket has returned. -/
def resumeBucket (build : Build) (s : State T E) (t : T) :
    BucketFrame E → Bucket.Return → Option (State T E)
  | .insert bucket element, .location location =>
    some (s.setControl t (.place element ⟨bucket, location⟩))
  | .capacity bucket totalTouched totalAllocated, .capacity touched allocated =>
    s.addCapacity build t bucket totalTouched totalAllocated touched allocated
  | _, _ => none

/-- A panic inside a call of a bucket drops what the method owns. -/
def unwindBucket (s : State T E) (t : T) (fault : Fault) : BucketFrame E → State T E
  | .insert _ element => { s with unwound := element :: s.unwound }.setControl t (.faulted fault)
  | .capacity _ _ _ => s.setControl t (.faulted fault)

def actBucket (build : Build) (s : State T E) (t : T) (frame : BucketFrame E) : Option (State T E) :=
  match (s.bucket frame.bucket).control t with
  | .idle => none
  | .running _ =>
    (Bucket.step build (s.bucket frame.bucket) (.act t)).map (s.setBucket frame.bucket)
  | .returned result =>
    (Bucket.step build (s.bucket frame.bucket) (.ret t)).bind fun bucket =>
      (s.setBucket frame.bucket bucket).resumeBucket build t frame result
  | .faulted fault =>
    (Bucket.step build (s.bucket frame.bucket) (.ret t)).map fun bucket =>
      (s.setBucket frame.bucket bucket).unwindBucket t fault frame

/-- An `insert` that returns notes the ID. -/
def noteIssued (s : State T E) : Frame E → Header.Return → State T E
  | .occupy address _, .occupy ordinal =>
    { s with issued := ⟨ordinal, address, s.storeId⟩ :: s.issued }
  | _, _ => s

/-- A method after its call of a header has returned. -/
def resumeHeader (s : State T E) (t : T) (frame : Frame E) (result : Header.Return) :
    Option (State T E) :=
  (frame.resume s.storeId result).map fun control =>
    (s.noteIssued frame result).setControl t (.ofChecked control)

def actHeader (build : Build) (s : State T E) (t : T) (spurious : Bool) (frame : Frame E) :
    Option (State T E) :=
  match (s.header frame.address).control t with
  | .idle => none
  | .running _ =>
    (Header.step build (s.header frame.address) (.act t spurious)).map (s.setHeader frame.address)
  | .returned result =>
    (Header.step build (s.header frame.address) (.ret t)).bind fun header =>
      (s.setHeader frame.address header).resumeHeader t frame result
  | .faulted fault =>
    (Header.step build (s.header frame.address) (.ret t)).map fun header =>
      (s.setHeader frame.address header).setControl t (.faulted fault)

/-- Thread `t` takes its next step. -/
def act (build : Build) (s : State T E) (t : T) (spurious : Bool) : Option (State T E) :=
  match s.control t with
  | .pop element =>
    match s.erasures with
    | address :: rest => some ({ s with erasures := rest }.setControl t (.place element address))
    | [] =>
      let generator := nextGenerator (s.generator t)
      { s with generator := Function.update s.generator t generator }.enterBucket build t
        (.insert (bucketId generator) element)
  | .bucket frame => s.actBucket build t frame
  | .place element address =>
    (s.setValue address element).enterHeader build t (.occupy address element)
  | .header frame => s.actHeader build t spurious frame
  | .moveOut id method mayReuse =>
    s.checked t (assumeInit build (s.value id.slotAddress)) fun element =>
      s.checked t (method.finish (.ok (some element))) fun result =>
        some (s.setControl t (afterMove id mayReuse (.remove result)))
  | .moveOutLocked id =>
    s.checked t (assumeInit build (s.value id.slotAddress)) fun element =>
      s.enterHeader build t (.removeLocked id element)
  | .push id result =>
    some ({ s with erasures := s.erasures ++ [id.slotAddress] }.setControl t (.returned result))
  | .idle | .returned _ | .faulted _ => none

/-- The caller of a finished call goes on, with the element if there is one. -/
def finish (s : State T E) (t : T) (result : Return E) : State T E :=
  { s with handedBack := result.element.toList ++ s.handedBack }.setControl t .idle

end State

variable {T E : Type} [DecidableEq T]

def step (build : Build) (s : State T E) : Event T E → Option (State T E)
  | .call t call =>
    match s.control t with
    | .idle => s.start build t call
    | _ => none
  | .act t spurious => s.act build t spurious
  | .expire t =>
    match s.control t with
    | .header frame =>
      (Header.step build (s.header frame.address) (.expire t)).map (s.setHeader frame.address)
    | _ => none
  | .ret t =>
    match s.control t with
    | .returned result => some (s.finish t result)
    | .faulted _ => some (s.setControl t .idle)
    | _ => none
  | .elsewhere t =>
    match s.control t with
    | .idle =>
      some { s with generator := Function.update s.generator t (nextGenerator (s.generator t)) }
    | _ => none

/-! ## The callers -/

def Control.isIdle : Control E → Bool
  | .idle => true
  | _ => false

/-- Nobody is inside a call or holds a lock, as a `&mut` borrow of the store guarantees while no guard has
been leaked by `mem::forget`. A guard that is leaked keeps its lock and no longer borrows the store: such
callers are not modelled. -/
def State.Quiet (s : State T E) : Prop :=
  ∀ t, (s.control t).isIdle = true ∧ ∀ address ∈ s.addresses, (s.header address).locks t = []

/-- Thread `t` has a lock that a method of this store returned. -/
def State.Holds (s : State T E) (t : T) (kind : Header.LockKind) (id : Id) : Prop :=
  id ∈ s.issued ∧ ⟨kind, id.ordinal⟩ ∈ (s.header id.slotAddress).locks t

/-- The callers use IDs and locks of this store only. A lock is dropped, consumed or written through
by its owner, and looked through by anybody. -/
def State.CallAllowed (s : State T E) (t : T) : Call E → Prop
  | .insert _ | .capacity => True
  | .remove id _ | .read id _ | .write id _ => id ∈ s.issued
  | .removeLocked id | .dropWrite id | .replace id _ => s.Holds t .write id
  | .dropRead id => s.Holds t .read id
  | .deref kind id => ∃ u, s.Holds u kind id
  | .getMut id | .replaceMut id _ => id ∈ s.issued ∧ s.Quiet
  | .iterMut _ _ => s.Quiet

def Allowed (s : State T E) : Event T E → Prop
  | .call t call => s.CallAllowed t call
  | _ => True

section Decidable

variable [Fintype T]

instance (s : State T E) : Decidable s.Quiet := inferInstanceAs (Decidable (∀ _, _ ∧ _))

instance (s : State T E) (t : T) (kind : Header.LockKind) (id : Id) : Decidable (s.Holds t kind id) :=
  inferInstanceAs (Decidable (_ ∧ _))

instance (s : State T E) (t : T) : (call : Call E) → Decidable (s.CallAllowed t call)
  | .insert _ | .capacity => inferInstanceAs (Decidable True)
  | .remove _ _ | .read _ _ | .write _ _ => inferInstanceAs (Decidable (_ ∈ _))
  | .removeLocked id | .dropWrite id | .replace id _ =>
    inferInstanceAs (Decidable (s.Holds t .write id))
  | .dropRead id => inferInstanceAs (Decidable (s.Holds t .read id))
  | .deref kind id => inferInstanceAs (Decidable (∃ u, s.Holds u kind id))
  | .getMut _ | .replaceMut _ _ => inferInstanceAs (Decidable (_ ∧ _))
  | .iterMut _ _ => inferInstanceAs (Decidable s.Quiet)

instance (s : State T E) : (e : Event T E) → Decidable (Allowed s e)
  | .call t call => inferInstanceAs (Decidable (s.CallAllowed t call))
  | .act _ _ | .expire _ | .ret _ | .elsewhere _ => inferInstanceAs (Decidable True)

end Decidable

/-- The store under the contract of its callers. -/
def machine (build : Build) (T E : Type) [DecidableEq T] : Transition.System (State T E) (Event T E) :=
  .ofFn (fun s => ∃ storeId generator, s = State.init storeId generator) (step build) Allowed

/-! ## The end of a store -/

/-- The drop of a store: the elements it destroys. -/
def State.dropStore (build : Build) (payloadOffset : ℕ) (s : State T E) : Checked (List E) := do
  let remains ← Remains.dropSlots build payloadOffset
    ((List.finRange bucketCount).flatMap fun bucket =>
      chainAddresses bucket (s.bucket bucket).inner.blocks) ⟨s.slot, []⟩
  return remains.destroyed

/-- `into_iter`, some calls of `next`, and the drop of the iterator: the items, and the elements
destroyed. -/
def State.intoIter (build : Build) (payloadOffset stack steps : ℕ) (s : State T E) :
    Checked (List (Id × E) × List E) := do
  let (items, iter, remains) ← (GenIter.new fun bucket => (s.bucket bucket).inner).take build
    (ownedTracker build payloadOffset s.storeId) stack steps ⟨s.slot, []⟩
  let remains ← Remains.dropSlots build payloadOffset iter.addresses remains
  return (items, remains.destroyed)

end ReadWriteStore.Store
