import ReadWriteStore.Bucket.Machine
import ReadWriteStore.Transition.Tally
import Mathlib.Data.Set.Card

/-!
# Growth of a bucket

What a run of calls of one bucket has handed out, what it means that growth neither repeats nor skips a
slot, and a bucket whose allocator may fail.
-/

namespace ReadWriteStore.Bucket

/-! ## Slots handed out -/

/-- Inside a call of `next_insert_location`. -/
def Control.inserting : Control → Bool
  | .running .capacityLockRead | .running .capacityLoad | .running (.capacityUnlockRead _ _) => false
  | .running _ => true
  | _ => false

variable {T : Type}

/-- The calls of `next_insert_location` in flight. -/
def State.inFlight [Fintype T] (s : State T) : ℕ :=
  Transition.tally fun t => if (s.control t).inserting then 1 else 0

/-- Fewer than `2 ^ 31` calls are in flight, and the head has fewer than `2 ^ 31` slots. -/
def State.Small [Fintype T] (s : State T) : Prop :=
  s.inFlight < 2 ^ 31 ∧ s.inner.headSize.toNat < 2 ^ 31

instance [Fintype T] (s : State T) : Decidable s.Small := inferInstanceAs (Decidable (_ ∧ _))

/-- The step does not wrap the counter around. -/
def State.NoWrap (s : State T) (e : Event T) : Prop := ¬s.Wraps e.thread

/-- A thread carries the location, or has returned it, at step `k` of a run or before. -/
def Taken (state : ℕ → State T) (k : ℕ) (location : Location) : Prop :=
  ∃ i ≤ k, ∃ t, ((state i).control t).location = some location

/-- A call has returned the location at step `k` of a run or before. -/
def Returned (state : ℕ → State T) (k : ℕ) (location : Location) : Prop :=
  ∃ i ≤ k, ∃ t, (state i).control t = .returned (.location location)

/-- The number of slots of all blocks. -/
def Inner.allocated (inner : Inner) : ℕ := (inner.blocks.map UInt32.toNat).sum

/-- The first `last` slots of the head, and every slot behind it, from the last one handed out to the
first. -/
def touchedFrom : List UInt32 → UInt32 → List Location
  | [], _ => []
  | len :: older, last =>
    ((List.range last.toNat).map fun slot =>
      ⟨older.length, physicalSlot len (UInt32.ofNat slot)⟩).reverse ++ touchedFrom older (older.headD 0)

/-- The slots that the counter says have been handed out. -/
def Inner.touched (inner : Inner) : List Location :=
  touchedFrom inner.blocks (min inner.nextUnusedSlot inner.headSize)

/-- In a run no slot is handed out twice and none is skipped. -/
structure Growth (n : ℕ) (state : ℕ → State T) (event : ℕ → Event T) : Prop where
  /-- No two calls return the same slot: a thread that returns it again is still in the same call. -/
  unique : ∀ i j t u location, i ≤ j → j ≤ n →
    (state i).control t = .returned (.location location) →
      (state j).control u = .returned (.location location) →
        t = u ∧ ∀ m, i ≤ m → m < j → event m ≠ .ret t
  /-- A step that changes the chain adds a head to it, when every slot has been returned by a call. -/
  full : ∀ k < n, (state (k + 1)).inner.blocks ≠ (state k).inner.blocks →
    (∃ len, (state (k + 1)).inner.blocks = len :: (state k).inner.blocks) ∧
      ∀ location ∈ (state k).inner.locations, Returned state k location
  older : ∀ k ≤ n, ∀ location ∈ (state k).inner.locations,
    location.block + 1 < (state k).inner.blocks.length → Returned state k location
  lengths : ∀ k ≤ n, (state k).inner.blocks.map UInt32.toNat =
    ((List.range (state k).inner.blocks.length).map fun i => 2 ^ i).reverse
  /-- No call fails; `next_insert_location_slow` does not unwrap `None`. -/
  unwrap : ∀ k ≤ n, ∀ t fault, (state k).control t ≠ .running (.unlockWrite (.error fault)) ∧
    (state k).control t ≠ .running (.unlockRead (.error fault))
  quiescent : ∀ k ≤ n, (∀ t, ((state k).control t).inserting = false) →
    1 ≤ {location | Returned state k location}.ncard →
      1 ≤ (state k).inner.nextUnusedSlot ∧ (state k).inner.nextUnusedSlot ≤ (state k).inner.headSize ∧
        (state k).inner.allocated < 2 * {location | Returned state k location}.ncard

/-! ## An allocator that may fail -/

/-- `Block::new` where `alloc` may return null: the header of the block is written to the address that
it returns. -/
def allocBlock (build : Build) (null : Bool) (size : UInt32) : Checked UInt32 := do
  let len ← newBlock build size
  if null then
    .error (.undefined "wrote through a null pointer")
  else
    return len

/-- `BucketInner::expand` with such an allocator. -/
def Inner.expandIn (build : Build) (null : Bool) (inner : Inner) : Inner × Checked Unit :=
  let blockSize : Checked UInt32 :=
    match inner.blocks with
    | [] => .ok initialBlockSize
    | len :: _ => mulU32 build len resizeFactor
  match blockSize with
  | .error fault => (inner, .error fault)
  | .ok size =>
    match allocBlock build null size with
    | .error fault => ({ inner with blocks := [] }, .error fault)
    | .ok len => ({ blocks := len :: inner.blocks, nextUnusedSlot := 0 }, .ok ())

inductive AllocEvent (T : Type)
  | step (event : Event T)
  /-- A thread grows the chain, and `alloc` returns null if it is called. -/
  | null (thread : T)
  deriving DecidableEq, Repr

def AllocEvent.thread : AllocEvent T → T
  | .step event => event.thread
  | .null t => t

def allocStep [DecidableEq T] (build : Build) (s : State T) : AllocEvent T → Option (State T)
  | .step event => step build s event
  | .null t =>
    match s.control t with
    | .running .expand =>
      let (inner, result) := s.inner.expandIn build true
      some ({ s with inner := inner }.setControl t (afterExpand result))
    | _ => none

/-- One bucket, with an allocator that may fail. -/
def allocMachine (build : Build) (T : Type) [DecidableEq T] :
    Transition.System (State T) (AllocEvent T) :=
  .ofFn (· = State.init) (allocStep build) fun _ _ => True

/-- The length of the largest block. -/
def maxBlockSize : UInt32 := 2 ^ 31

/-- In a run every growth that fails is a panic that changes nothing, and no call is worse off for it. -/
structure CleanGrowth (build : Build) (n : ℕ) (state : ℕ → State T) (event : ℕ → AllocEvent T) :
    Prop where
  /-- A growth fails for want of memory, or because the double of the head is too long. -/
  fails : ∀ k < n, ∀ t, (state k).control t = .running .expand → t = (event k).thread →
    (event k = .null t ∨ (state k).inner.headSize = maxBlockSize) →
      (state (k + 1)).inner.blocks = (state k).inner.blocks ∧
        ∃ fault, fault.isPanic = true ∧ fault.isBreach = false ∧
          (state (k + 1)).control t = .running (.unlockWrite (.error fault))
  nonempty : ∀ k ≤ n, ∀ len ∈ (state k).inner.blocks, len ≠ 0
  resolves : ∀ i k location, i ≤ k → k ≤ n → Taken state i location →
    location ∈ (state k).inner.locations
  unique : ∀ i j t u location, i ≤ j → j ≤ n →
    (state i).control t = .returned (.location location) →
      (state j).control u = .returned (.location location) →
        t = u ∧ ∀ m, i ≤ m → m < j → event m ≠ .step (.ret t)
  capacity : ∀ i j a b, i ≤ j → j ≤ n →
    headSizeToTotalSize build (state i).inner.headSize = .ok a →
      headSizeToTotalSize build (state j).inner.headSize = .ok b → a ≤ b

/-- The step does not reach the defects of a failing growth: `alloc` returns null, the release build
doubles the largest block, or, after many calls that have failed, the counter wraps around. -/
def State.GrowsCleanly (build : Build) (s : State T) : AllocEvent T → Prop
  | .null _ => build = .debug ∧ s.inner.headSize = maxBlockSize
  | .step (.act t) =>
    ¬s.Wraps t ∧ (build = .release → s.inner.headSize = maxBlockSize → s.control t ≠ .running .expand)
  | .step _ => True

end ReadWriteStore.Bucket
